/-
Rendezvous/Proofs/Json.lean

Strings on the wire.

A character is read back from its octets (`pieces_utf8EncodeChar`), and a string
from between quotes, whatever stands in it (`readString_escaped`): of a
character that is escaped the reader finds a letter or a number, and no octet of
any other character is a quote, a backslash or a control character.
-/
import Rendezvous.Json.Decoder

namespace Rendezvous.Text

/-! ### Characters and their octets -/

/-- A continuation octet adds six bits. -/
theorem readTail_ofNat {n v acc : Nat} {lo hi : UInt8} {l : List UInt8}
    (hlo : lo.toNat ≤ v % 64 + 128) (hhi : v % 64 + 128 ≤ hi.toNat) :
    readTail (n + 1) lo hi acc (UInt8.ofNat (v % 64 + 128) :: l)
      = readTail n 0x80 0xBF (acc * 64 + v % 64) l := by
  have hnat : (UInt8.ofNat (v % 64 + 128)).toNat = v % 64 + 128 := by
    rw [UInt8.toNat_ofNat', Nat.mod_eq_of_lt (by omega)]
  rw [readTail, if_pos, hnat]
  · congr 1
    omega
  · rw [UInt8.le_iff_toNat_le, UInt8.le_iff_toNat_le, hnat]
    exact ⟨hlo, hhi⟩

theorem readTail_any {n v acc : Nat} {l : List UInt8} :
    readTail (n + 1) 0x80 0xBF acc (UInt8.ofNat (v % 64 + 128) :: l)
      = readTail n 0x80 0xBF (acc * 64 + v % 64) l := by
  refine readTail_ofNat ?_ ?_
  · show 128 ≤ _
    omega
  · show _ ≤ 191
    omega

theorem lead?_one {n : Nat} (h : n < 128) : lead? (UInt8.ofNat n) = some (n, 0, 0, 0) := by
  have hall : ∀ n < 128, lead? (UInt8.ofNat n) = some (n, 0, 0, 0) := by decide
  exact hall n h

theorem lead?_two {n : Nat} (h : n < 30) :
    lead? (UInt8.ofNat (n + 2 + 192)) = some (n + 2, 1, 0x80, 0xBF) := by
  have hall : ∀ n < 30, lead? (UInt8.ofNat (n + 2 + 192)) = some (n + 2, 1, 0x80, 0xBF) := by
    decide
  exact hall n h

theorem lead?_three {n : Nat} (h : n < 16) :
    lead? (UInt8.ofNat (n + 224))
      = some (n, 2, if n = 0 then 0xA0 else 0x80, if n = 13 then 0x9F else 0xBF) := by
  have hall : ∀ n < 16, lead? (UInt8.ofNat (n + 224))
      = some (n, 2, if n = 0 then 0xA0 else 0x80, if n = 13 then 0x9F else 0xBF) := by decide
  exact hall n h

theorem lead?_four {n : Nat} (h : n < 5) :
    lead? (UInt8.ofNat (n + 240))
      = some (n, 3, if n = 0 then 0x90 else 0x80, if n = 4 then 0x8F else 0xBF) := by
  have hall : ∀ n < 5, lead? (UInt8.ofNat (n + 240))
      = some (n, 3, if n = 0 then 0x90 else 0x80, if n = 4 then 0x8F else 0xBF) := by decide
  exact hall n h

theorem step_two {v : Nat} (h : 0x80 ≤ v) (h' : v < 0x800) (l : List UInt8) :
    step (UInt8.ofNat (v / 64 % 32 + 192)) (UInt8.ofNat (v % 64 + 128) :: l)
      = (some (Char.ofNat v), l) := by
  have hn : v / 64 % 32 = v / 64 - 2 + 2 := by omega
  have hv : (v / 64 - 2 + 2) * 64 + v % 64 = v := by omega
  rw [step, hn, lead?_two (by omega)]
  dsimp only
  rw [readTail_any, hv]
  rfl

/-- The second of three octets leaves out what two octets can say, and the
halves of pairs. -/
theorem step_three {v : Nat} (h : 0x800 ≤ v) (h' : v < 0x10000)
    (hpair : v < 0xD800 ∨ 0xDFFF < v) (l : List UInt8) :
    step (UInt8.ofNat (v / 4096 % 16 + 224))
        (UInt8.ofNat (v / 64 % 64 + 128) :: UInt8.ofNat (v % 64 + 128) :: l)
      = (some (Char.ofNat v), l) := by
  have hv : (v / 4096 % 16 * 64 + v / 64 % 64) * 64 + v % 64 = v := by omega
  have hlo : (if v / 4096 % 16 = 0 then (0xA0 : UInt8) else 0x80).toNat ≤ v / 64 % 64 + 128 := by
    split
    · show 160 ≤ _
      omega
    · show 128 ≤ _
      omega
  have hhi : v / 64 % 64 + 128
      ≤ (if v / 4096 % 16 = 13 then (0x9F : UInt8) else 0xBF).toNat := by
    split
    · show _ ≤ 159
      omega
    · show _ ≤ 191
      omega
  rw [step, lead?_three (by omega)]
  dsimp only
  rw [readTail_ofNat hlo hhi, readTail_any, hv]
  rfl

/-- The second of four octets leaves out what three octets can say, and what is
above every character. -/
theorem step_four {v : Nat} (h : 0x10000 ≤ v) (h' : v < 0x110000) (l : List UInt8) :
    step (UInt8.ofNat (v / 262144 % 8 + 240))
        (UInt8.ofNat (v / 4096 % 64 + 128) :: UInt8.ofNat (v / 64 % 64 + 128)
          :: UInt8.ofNat (v % 64 + 128) :: l)
      = (some (Char.ofNat v), l) := by
  have hv : ((v / 262144 % 8 * 64 + v / 4096 % 64) * 64 + v / 64 % 64) * 64 + v % 64 = v := by
    omega
  have hlo : (if v / 262144 % 8 = 0 then (0x90 : UInt8) else 0x80).toNat
      ≤ v / 4096 % 64 + 128 := by
    split
    · show 144 ≤ _
      omega
    · show 128 ≤ _
      omega
  have hhi : v / 4096 % 64 + 128
      ≤ (if v / 262144 % 8 = 4 then (0x8F : UInt8) else 0xBF).toNat := by
    split
    · show _ ≤ 143
      omega
    · show _ ≤ 191
      omega
  rw [step, lead?_four (by omega)]
  dsimp only
  rw [readTail_ofNat hlo hhi, readTail_any, readTail_any, hv]
  rfl

/-- A character is read back from its octets, whatever follows them. -/
theorem pieces_utf8EncodeChar (c : Char) (l : List UInt8) :
    pieces (String.utf8EncodeChar c ++ l) = some c :: pieces l := by
  have hchar : Char.ofNat c.val.toNat = c := Char.ofNat_toNat c
  have hvalid : c.val.toNat < 0xD800 ∨ 0xDFFF < c.val.toNat ∧ c.val.toNat < 0x110000 := c.valid
  rw [String.utf8EncodeChar]
  generalize c.val.toNat = v at hchar hvalid
  subst hchar
  split
  · rw [List.singleton_append, pieces, step, lead?_one (by omega)]
    rfl
  · split
    · rw [List.cons_append, pieces, List.singleton_append, step_two (by omega) (by omega)]
    · split
      · rw [List.cons_append, pieces, List.cons_append, List.singleton_append,
          step_three (by omega) (by omega) (by omega)]
      · rw [List.cons_append, pieces, List.cons_append, List.cons_append, List.singleton_append,
          step_four (by omega) (by omega)]

theorem encodeUtf8_append (a b : List Char) :
    encodeUtf8 (a ++ b) = encodeUtf8 a ++ encodeUtf8 b := List.flatMap_append

theorem pieces_encodeUtf8 (cs : List Char) : pieces (encodeUtf8 cs) = cs.map some := by
  induction cs with
  | nil =>
    rw [encodeUtf8, List.flatMap_nil, pieces]
    rfl
  | cons c rest ih =>
    show pieces (String.utf8EncodeChar c ++ encodeUtf8 rest) = some c :: rest.map some
    rw [pieces_utf8EncodeChar, ih]

/-- **A text is read back from its octets.** -/
theorem decodeUtf8?_encodeUtf8 (cs : List Char) :
    decodeUtf8? (encodeUtf8 cs) = some (String.ofList cs) := by
  rw [decodeUtf8?, pieces_encodeUtf8]
  have hall : (cs.map some).mapM id = some cs := by
    induction cs with
    | nil => rfl
    | cons c rest ih => rw [List.map_cons, List.mapM_cons, ih]; rfl
  rw [hall]
  rfl

end Rendezvous.Text

namespace Rendezvous.Json

open Text

variable {l : List UInt8}

/-! ### Strings -/

theorem Scan.push_push (o o' : List UInt8) (s : Scan) : (s.push o').push o = s.push (o ++ o') := by
  rcases s with _ | ⟨_ | octets, rest⟩
  · rfl
  · rfl
  · show some (some (o ++ (o' ++ octets)), rest) = some (some (o ++ o' ++ octets), rest)
    rw [List.append_assoc]

/-- An octet that stands for itself between quotes. -/
def IsPlain (b : UInt8) : Prop := 32 ≤ b.toNat ∧ b ≠ 34 ∧ b ≠ 92

theorem readString_cons {b : UInt8} (h : IsPlain b) :
    readString (b :: l) = (readString l).push [b] := by
  obtain ⟨hlo, hquote, hback⟩ := h
  have hnot : ¬ b < 32 := by
    rw [UInt8.lt_iff_toNat_lt]
    exact Nat.not_lt.mpr hlo
  rw [readString]
  · rw [if_neg hquote, if_neg hnot]
  · exact fun _ _ _ _ _ h _ => hback h
  · exact fun h _ => hback h
  · exact fun _ _ h _ => hback h

theorem readString_append {o : List UInt8} (h : ∀ b ∈ o, IsPlain b) (hne : o ≠ []) :
    readString (o ++ l) = (readString l).push o := by
  induction o with
  | nil => exact absurd rfl hne
  | cons b rest ih =>
    rw [List.cons_append, readString_cons (h b (List.mem_cons_self ..))]
    rcases rest with _ | ⟨c, rest⟩
    · rfl
    · rw [ih (fun d hd => h d (List.mem_cons_of_mem _ hd)) nofun, Scan.push_push]
      rfl

theorem readString_letter {e b : UInt8} (h : letter? e = some b) :
    readString (92 :: e :: l) = (readString l).push [b] := by
  rw [readString]
  · rw [h]
  · -- the letter of the longer escapes stands for no octet
    rintro _ _ _ _ _ rfl _
    cases h

theorem readString_unit {a b c d : UInt8} {n : Nat} (h : unit? a b c d = some n)
    (hn : n < 0xD800) :
    readString (92 :: 117 :: a :: b :: c :: d :: l) = (readString l).push (octetsOfNumber n) := by
  have hhigh : isHigh n = false := by
    rw [isHigh, Bool.and_eq_false_iff]
    exact Or.inl (decide_eq_false (by omega))
  have hlow : isLow n = false := by
    rw [isLow, Bool.and_eq_false_iff]
    exact Or.inl (decide_eq_false (by omega))
  rw [readString, h]
  dsimp only
  rw [if_neg (Bool.eq_false_iff.mp hhigh), if_neg (Bool.eq_false_iff.mp hlow)]

theorem isPlain_ofNat {n : Nat} (hlo : 32 ≤ n) (hhi : n < 256) (hquote : n ≠ 34)
    (hback : n ≠ 92) : IsPlain (UInt8.ofNat n) := by
  have hnat : (UInt8.ofNat n).toNat = n := by rw [UInt8.toNat_ofNat', Nat.mod_eq_of_lt hhi]
  refine ⟨by rwa [hnat], ?_, ?_⟩
  · intro h
    exact hquote (hnat.symm.trans (congrArg UInt8.toNat h))
  · intro h
    exact hback (hnat.symm.trans (congrArg UInt8.toNat h))

/-- A character that is not escaped has no octet that would have to be. -/
theorem isPlain_of_mem {c : Char} (hlo : 32 ≤ c.toNat) (hquote : c ≠ '"') (hback : c ≠ '\\')
    {b : UInt8} (h : b ∈ String.utf8EncodeChar c) : IsPlain b := by
  have hnum : ∀ {d : Char}, c ≠ d → c.toNat ≠ d.toNat := by
    intro d hne heq
    exact hne (Char.toNat_inj.mp heq)
  have hq : c.val.toNat ≠ 34 := hnum hquote
  have hb : c.val.toNat ≠ 92 := hnum hback
  have hlo' : 32 ≤ c.val.toNat := hlo
  rw [String.utf8EncodeChar] at h
  split at h
  · rw [List.mem_singleton.mp h]
    exact isPlain_ofNat hlo' (by omega) hq hb
  -- octets of longer forms are above every octet that is escaped
  split at h
  · simp only [List.mem_cons, List.not_mem_nil, or_false] at h
    rcases h with rfl | rfl <;> exact isPlain_ofNat (by omega) (by omega) (by omega) (by omega)
  split at h
  · simp only [List.mem_cons, List.not_mem_nil, or_false] at h
    rcases h with rfl | rfl | rfl <;>
      exact isPlain_ofNat (by omega) (by omega) (by omega) (by omega)
  · simp only [List.mem_cons, List.not_mem_nil, or_false] at h
    rcases h with rfl | rfl | rfl | rfl <;>
      exact isPlain_ofNat (by omega) (by omega) (by omega) (by omega)

theorem octets_hexPadded {n : Nat} (h : n < 32) :
    ∃ a b c d, encodeUtf8 (hexPadded 4 n) = [a, b, c, d] ∧ unit? a b c d = some n := by
  have hall : ∀ n < 32,
      let l := encodeUtf8 (hexPadded 4 n)
      l = [l.getD 0 0, l.getD 1 0, l.getD 2 0, l.getD 3 0]
        ∧ unit? (l.getD 0 0) (l.getD 1 0) (l.getD 2 0) (l.getD 3 0) = some n := by decide
  exact ⟨_, _, _, _, hall n h⟩

/-- A character is read back from between quotes. -/
theorem readString_escapeChar (c : Char) :
    readString (encodeUtf8 (escapeChar c) ++ l)
      = (readString l).push (String.utf8EncodeChar c) := by
  rw [escapeChar]
  split
  · subst c
    exact readString_letter rfl
  split
  · subst c
    exact readString_letter rfl
  split
  · subst c
    exact readString_letter rfl
  split
  · subst c
    exact readString_letter rfl
  split
  · subst c
    exact readString_letter rfl
  have hchar : Char.ofNat c.toNat = c := Char.ofNat_toNat c
  split
  · rename_i h
    rw [h] at hchar
    subst hchar
    exact readString_letter rfl
  split
  · rename_i h
    rw [h] at hchar
    subst hchar
    exact readString_letter rfl
  split
  · rename_i hlow
    obtain ⟨a, b, d, e, hdigits, hunit⟩ := octets_hexPadded hlow
    show readString (92 :: 117 :: (encodeUtf8 (hexPadded 4 c.toNat) ++ l)) = _
    rw [hdigits]
    show readString (92 :: 117 :: a :: b :: d :: e :: l) = _
    rw [readString_unit hunit (by omega), octetsOfNumber, hchar]
  · rename_i hquote hback _ _ _ _ _ hlow
    show readString (String.utf8EncodeChar c ++ [] ++ l) = _
    rw [List.append_nil]
    refine readString_append (fun b => isPlain_of_mem (by omega) hquote hback) ?_
    exact String.utf8EncodeChar_ne_nil

/-- **A string is read back from between quotes.** -/
theorem readString_escaped (s : List Char) (l : List UInt8) :
    readString (encodeUtf8 (s.flatMap escapeChar ++ ['"']) ++ l)
      = some (some (encodeUtf8 s), l) := by
  induction s with
  | nil =>
    show readString (34 :: l) = some (some [], l)
    rw [readString]
    · rfl
    · exact fun _ _ _ _ _ h _ => absurd h (by decide)
    · exact fun h _ => absurd h (by decide)
    · exact fun _ _ h _ => absurd h (by decide)
  | cons c rest ih =>
    have hcut : encodeUtf8 ((c :: rest).flatMap escapeChar ++ ['"']) ++ l
        = encodeUtf8 (escapeChar c) ++ (encodeUtf8 (rest.flatMap escapeChar ++ ['"']) ++ l) := by
      simp only [encodeUtf8, List.flatMap_cons, List.flatMap_append, List.append_assoc]
    rw [hcut, readString_escapeChar, ih]
    rfl

/-- A string is one word. -/
theorem readToken_escaped (s : String) (l : List UInt8) :
    readToken 34 (encodeUtf8 (s.toList.flatMap escapeChar ++ ['"']) ++ l)
      = (.text (.plain s), l) := by
  simp only [readToken, readString_escaped, quotedOf, decodeUtf8?_encodeUtf8, String.ofList_toList]
  rfl

end Rendezvous.Json

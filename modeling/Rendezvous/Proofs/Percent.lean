/-
Rendezvous/Proofs/Percent.lean

Percent-encoded text.

What a text stands for in a path (`Percent.octets`) is read off it from left to
right: a percent sign with two hexadecimal digits is one octet, and anything
else is itself.  Percent-encoding other characters on the way does not change it
(`decodeOctets_escapeBy`), for no octet that is written instead of them can be
taken for a digit behind an earlier percent sign.

A text stands for itself if no percent sign in it has two digits behind it
(`octets_of_verbatim`), and otherwise for fewer octets than it has
(`verbatim_of_length`).  Nor does strict reading make a text longer
(`length_of_decodeUtf8?`).
-/
import Mathlib.Algebra.Group.Nat.Defs
import Rendezvous.Http.Url
import Rendezvous.Proofs.Base64
import Rendezvous.Proofs.Json
import Rendezvous.Proofs.Outcome

namespace Rendezvous

/-! ### Octets of characters -/

namespace Text

variable {c : Char} {b : UInt8} {l rest : List UInt8}

theorem utf8EncodeChar_of_lt (h : c.toNat < 128) :
    String.utf8EncodeChar c = [UInt8.ofNat c.toNat] := by
  have hnat : (UInt8.ofNat c.toNat).toNat = c.toNat := by
    rw [UInt8.toNat_ofNat', Nat.mod_eq_of_lt (by omega)]
  have hone := utf8EncodeChar_ofNat (b := UInt8.ofNat c.toNat) (by omega)
  rwa [hnat, Char.ofNat_toNat] at hone

/-- A character beyond ASCII has octets beyond ASCII only. -/
theorem le_of_mem_utf8EncodeChar (h : 128 ≤ c.toNat) (hb : b ∈ String.utf8EncodeChar c) :
    128 ≤ b.toNat := by
  have hc : 128 ≤ c.val.toNat := h
  have hall : ∀ n < 256, 128 ≤ n → 128 ≤ (UInt8.ofNat n).toNat := by
    intro n hn hle
    rwa [UInt8.toNat_ofNat', Nat.mod_eq_of_lt hn]
  rw [String.utf8EncodeChar] at hb
  split at hb
  · omega
  split at hb
  · simp only [List.mem_cons, List.not_mem_nil, or_false] at hb
    rcases hb with rfl | rfl <;> exact hall _ (by omega) (by omega)
  split at hb
  · simp only [List.mem_cons, List.not_mem_nil, or_false] at hb
    rcases hb with rfl | rfl | rfl <;> exact hall _ (by omega) (by omega)
  · simp only [List.mem_cons, List.not_mem_nil, or_false] at hb
    rcases hb with rfl | rfl | rfl | rfl <;> exact hall _ (by omega) (by omega)

theorem length_encodeUtf8_cons (c : Char) (s : List Char) :
    (encodeUtf8 (c :: s)).length = (String.utf8EncodeChar c).length + (encodeUtf8 s).length :=
  List.length_append

theorem length_encodeUtf8_le {s t : List Char} (h : s.Sublist t) :
    (encodeUtf8 s).length ≤ (encodeUtf8 t).length := by
  induction h with
  | slnil => exact Nat.le_refl _
  | cons c h ih =>
    rw [length_encodeUtf8_cons]
    omega
  | cons_cons c h ih =>
    rw [length_encodeUtf8_cons, length_encodeUtf8_cons]
    omega

/-- A part of a text that has as many octets is all of it. -/
theorem eq_of_sublist_of_length {s t : List Char} (h : s.Sublist t)
    (hle : (encodeUtf8 t).length ≤ (encodeUtf8 s).length) : s = t := by
  induction h with
  | slnil => rfl
  | cons c h ih =>
    have hpos : 0 < (String.utf8EncodeChar c).length :=
      List.length_pos_iff.mpr String.utf8EncodeChar_ne_nil
    have hmono := length_encodeUtf8_le h
    rw [length_encodeUtf8_cons] at hle
    omega
  | cons_cons c h ih =>
    rw [length_encodeUtf8_cons, length_encodeUtf8_cons] at hle
    rw [ih (by omega)]

/-! ### Strict reading never makes a text longer -/

theorem readTail_eq_some {n acc v : Nat} {lo hi : UInt8}
    (h : readTail n lo hi acc l = (some v, rest)) :
    l.length = n + rest.length ∧ v < (acc + 1) * 64 ^ n := by
  induction n generalizing lo hi acc l with
  | zero =>
    cases h
    exact ⟨by omega, by omega⟩
  | succ n ih =>
    cases l with
    | nil => cases h
    | cons b l =>
      rw [readTail] at h
      split at h
      · obtain ⟨hlength, hv⟩ := ih h
        have hmod : b.toNat % 64 < 64 := Nat.mod_lt _ (by decide)
        refine ⟨by rw [List.length_cons]; omega, Nat.lt_of_lt_of_le hv ?_⟩
        rw [Nat.pow_succ', ← Nat.mul_assoc]
        exact Nat.mul_le_mul_right _ (by omega)
      · cases h

/-- The first octet bounds the value by the number of octets. -/
theorem lead?_eq_some {v n : Nat} {lo hi : UInt8} (h : lead? b = some (v, n, lo, hi)) :
    n = 0 ∧ v < 128 ∨ n = 1 ∧ v < 32 ∨ n = 2 ∧ v < 16 ∨ n = 3 := by
  rw [lead?] at h
  split at h
  · rename_i hlt
    cases h
    exact Or.inl ⟨rfl, UInt8.lt_iff_toNat_lt.mp hlt⟩
  have hmod : ∀ m, 0 < m → b.toNat % m < m := fun m hm => Nat.mod_lt _ hm
  split at h
  · cases h
    exact Or.inr (Or.inl ⟨rfl, hmod 32 (by decide)⟩)
  split at h
  · cases h
    exact Or.inr (Or.inr (Or.inl ⟨rfl, by decide⟩))
  split at h
  · cases h
    exact Or.inr (Or.inr (Or.inl ⟨rfl, by decide⟩))
  split at h
  · cases h
    exact Or.inr (Or.inr (Or.inl ⟨rfl, hmod 16 (by decide)⟩))
  split at h
  · cases h
    exact Or.inr (Or.inr (Or.inr rfl))
  split at h
  · cases h
    exact Or.inr (Or.inr (Or.inr rfl))
  split at h
  · cases h
    exact Or.inr (Or.inr (Or.inr rfl))
  · cases h

theorem length_utf8EncodeChar_le (c : Char) :
    (String.utf8EncodeChar c).length ≤ 4
      ∧ (c.toNat < 65536 → (String.utf8EncodeChar c).length ≤ 3)
      ∧ (c.toNat < 2048 → (String.utf8EncodeChar c).length ≤ 2)
      ∧ (c.toNat < 128 → (String.utf8EncodeChar c).length ≤ 1) := by
  show _ ∧ (c.val.toNat < _ → _) ∧ (c.val.toNat < _ → _) ∧ (c.val.toNat < _ → _)
  rw [String.utf8EncodeChar]
  split
  · simp only [List.length_cons, List.length_nil]
    omega
  split
  · simp only [List.length_cons, List.length_nil]
    omega
  split
  · simp only [List.length_cons, List.length_nil]
    omega
  · simp only [List.length_cons, List.length_nil]
    omega

/-- A character has no more octets than are taken for it. -/
theorem length_step (h : step b l = (some c, rest)) :
    (String.utf8EncodeChar c).length + rest.length ≤ l.length + 1 := by
  obtain ⟨hfour, hthree, htwo, hone⟩ := length_utf8EncodeChar_le c
  rw [step] at h
  split at h
  · cases h
  · rename_i v n lo hi hlead
    rcases htail : readTail n lo hi v l with ⟨value, rest'⟩
    rw [htail] at h
    obtain ⟨hchar, rfl⟩ := Prod.mk.inj h
    obtain ⟨u, rfl, rfl⟩ := Option.map_eq_some_iff.mp hchar
    obtain ⟨hlength, hu⟩ := readTail_eq_some htail
    have hle : (Char.ofNat u).toNat ≤ u := by
      by_cases hvalid : u.isValidChar
      · rw [Char.ofNat, dif_pos hvalid]
        exact Nat.le_refl u
      · rw [Char.ofNat, dif_neg hvalid]
        exact Nat.zero_le _
    rcases lead?_eq_some hlead with ⟨rfl, hv⟩ | ⟨rfl, hv⟩ | ⟨rfl, hv⟩ | rfl
    · have := hone (by omega)
      omega
    · have := htwo (by omega)
      omega
    · have := hthree (by omega)
      omega
    · omega

theorem length_pieces {cs : List Char} (h : (pieces l).mapM id = some cs) :
    (encodeUtf8 cs).length ≤ l.length := by
  induction hn : l.length using Nat.strongRecOn generalizing l cs with
  | ind n ih =>
    cases l with
    | nil =>
      rw [pieces] at h
      cases h
      exact Nat.zero_le _
    | cons b l =>
      rcases hstep : step b l with ⟨_ | c, rest⟩
      · rw [pieces, hstep, List.mapM_cons] at h
        cases h
      · rw [pieces, hstep, List.mapM_cons] at h
        obtain ⟨cs', hcs', rfl⟩ : ∃ cs', (pieces rest).mapM id = some cs' ∧ cs = c :: cs' := by
          rcases hrest : (pieces rest).mapM id with _ | cs'
          · rw [hrest] at h
            cases h
          · rw [hrest] at h
            cases h
            exact ⟨cs', rfl, rfl⟩
        have hle := length_step hstep
        have hlen : l.length + 1 = n := hn
        have hshort : rest.length < n := by
          have := step_length b l
          rw [hstep] at this
          dsimp only at this
          omega
        have hmore := ih rest.length hshort hcs' rfl
        show (String.utf8EncodeChar c ++ encodeUtf8 cs').length ≤ n
        rw [List.length_append]
        omega

theorem length_of_decodeUtf8? {s : String} (h : decodeUtf8? l = some s) :
    (encodeUtf8 s.toList).length ≤ l.length := by
  obtain ⟨cs, hcs, rfl⟩ := Option.map_eq_some_iff.mp h
  rw [String.toList_ofList]
  exact length_pieces hcs

end Text

namespace Http.Percent

open Text

variable {a b c : Char} {l o : List UInt8}

/-! ### Hexadecimal digits -/

/-- A character that is a hexadecimal digit. -/
def IsHex (c : Char) : Prop := (digit? 16 c).isSome

theorem digit?_of_le (h : 128 ≤ c.toNat) : digit? 16 c = none := by
  rw [digit?, if_neg (by omega), if_neg (by omega), if_neg (by omega)]
  rfl

theorem IsHex.lt (h : IsHex c) : c.toNat < 128 := by
  refine Nat.lt_of_not_le fun hle => ?_
  rw [IsHex, digit?_of_le hle] at h
  cases h

theorem isHex_of_eq {d : Nat} (h : digit? 16 c = some d) : IsHex c := by
  rw [IsHex, h]
  rfl

theorem eq_none_of_not_isHex (h : ¬ IsHex c) : digit? 16 c = none :=
  Option.not_isSome_iff_eq_none.mp h

theorem hexOctet?_ofNat (h : c.toNat < 128) :
    hexOctet? (UInt8.ofNat c.toNat) = digit? 16 c := by
  rw [hexOctet?, UInt8.toNat_ofNat', Nat.mod_eq_of_lt (by omega), Char.ofNat_toNat]

theorem hexOctet?_eq_none {x : UInt8} (h : 128 ≤ x.toNat) : hexOctet? x = none := by
  have hnat : (Char.ofNat x.toNat).toNat = x.toNat := by
    have hlt := x.toNat_lt
    rw [Char.ofNat, dif_pos (Or.inl (by omega))]
    rfl
  exact digit?_of_le (by rwa [hnat])

/-! ### Octets that are written with a percent sign -/

theorem decodeOctets_cons {x : UInt8} (h : x ≠ 37) :
    decodeOctets (x :: l) = x :: decodeOctets l := by
  rw [decodeOctets]
  exact fun _ _ _ hx _ => h hx

theorem decodeOctets_append (h : ∀ x ∈ o, x ≠ 37) :
    decodeOctets (o ++ l) = o ++ decodeOctets l := by
  induction o with
  | nil => rfl
  | cons x o ih =>
    rw [List.cons_append, decodeOctets_cons (h x (List.mem_cons_self ..)),
      ih fun y hy => h y (List.mem_cons_of_mem _ hy)]
    rfl

/-- A percent sign without two digits behind it stands for itself. -/
theorem decodeOctets_percent
    (h : l.head?.bind hexOctet? = none ∨ l.tail.head?.bind hexOctet? = none) :
    decodeOctets (37 :: l) = 37 :: decodeOctets l := by
  rcases l with _ | ⟨x, _ | ⟨y, l⟩⟩
  · rfl
  · rw [decodeOctets]
    nofun
  · rw [decodeOctets]
    rcases h with (h : hexOctet? x = none) | (h : hexOctet? y = none)
    · rw [h]
    · rw [h]
      cases hexOctet? x <;> rfl

/-- The digit that is written for a value below sixteen. -/
theorem digit?_toUpper_digitChar {n : Nat} (h : n < 16) :
    (digitChar n).toUpper.toNat < 128 ∧ digit? 16 (digitChar n).toUpper = some n := by
  have hall : ∀ n < 16, (digitChar n).toUpper.toNat < 128
      ∧ digit? 16 (digitChar n).toUpper = some n := by decide
  exact hall n h

theorem decodeOctets_encodeOctet (x : UInt8) (l : List UInt8) :
    decodeOctets (encodeUtf8 (encodeOctet x) ++ l) = x :: decodeOctets l := by
  have hx := x.toNat_lt
  obtain ⟨hhigh, hhi⟩ := digit?_toUpper_digitChar (n := x.toNat / 16) (by omega)
  obtain ⟨hlow, hlo⟩ := digit?_toUpper_digitChar (n := x.toNat % 16) (by omega)
  have htext : encodeUtf8 (encodeOctet x)
      = [37, UInt8.ofNat (digitChar (x.toNat / 16)).toUpper.toNat,
        UInt8.ofNat (digitChar (x.toNat % 16)).toUpper.toNat] := by
    rw [encodeOctet, encodeUtf8, List.flatMap_cons, List.flatMap_cons, List.flatMap_cons,
      utf8EncodeChar_of_lt hhigh, utf8EncodeChar_of_lt hlow]
    rfl
  rw [htext, List.cons_append, List.cons_append, List.singleton_append, decodeOctets,
    hexOctet?_ofNat hhigh, hexOctet?_ofNat hlow, hhi, hlo]
  show UInt8.ofNat (x.toNat / 16 * 16 + x.toNat % 16) :: decodeOctets l = _
  rw [Nat.div_add_mod', UInt8.ofNat_toNat]

/-- A character that is percent-encoded stands for itself. -/
theorem decodeOctets_encodeChar (c : Char) (l : List UInt8) :
    decodeOctets (encodeUtf8 (encodeChar c) ++ l)
      = String.utf8EncodeChar c ++ decodeOctets l := by
  have hall : ∀ o : List UInt8, decodeOctets (encodeUtf8 (o.flatMap encodeOctet) ++ l)
      = o ++ decodeOctets l := by
    intro o
    induction o with
    | nil => rfl
    | cons x o ih =>
      rw [List.flatMap_cons, encodeUtf8_append, List.append_assoc, decodeOctets_encodeOctet, ih]
      rfl
  have hone : encodeUtf8 [c] = String.utf8EncodeChar c := List.append_nil _
  rw [encodeChar, hall, hone]

/-! ### What a text stands for -/

/-- The octets for which characters stand. -/
def octets : List Char → List UInt8
  | '%' :: a :: b :: rest =>
    match digit? 16 a, digit? 16 b with
    | some hi, some lo => UInt8.ofNat (hi * 16 + lo) :: octets rest
    | _, _ => 37 :: octets (a :: b :: rest)
  | c :: rest => String.utf8EncodeChar c ++ octets rest
  | [] => []

section Escaping

variable {escapes : Char → Bool}

theorem encodeUtf8_escapeBy_cons (c : Char) (rest : List Char) :
    encodeUtf8 (Url.escapeBy escapes (c :: rest))
      = encodeUtf8 (if escapes c then encodeChar c else [c])
        ++ encodeUtf8 (Url.escapeBy escapes rest) := by
  rw [Url.escapeBy, List.flatMap_cons, encodeUtf8_append]
  rfl

/-- A character that is not escaped is written as it is. -/
theorem encodeUtf8_escapeBy_spared (hc : escapes c = false) (rest : List Char) :
    encodeUtf8 (Url.escapeBy escapes (c :: rest))
      = String.utf8EncodeChar c ++ encodeUtf8 (Url.escapeBy escapes rest) := by
  rw [encodeUtf8_escapeBy_cons, hc]
  exact congrArg (· ++ _) (List.append_nil _)

/-- A text begins with the octet of a digit only if it begins with a digit. -/
theorem hexOctet?_head?_escapeBy (hdigits : ∀ c, IsHex c → escapes c = false) (c : Char)
    (rest : List Char) :
    (encodeUtf8 (Url.escapeBy escapes (c :: rest))).head?.bind hexOctet? = digit? 16 c := by
  obtain ⟨x, xs, hx⟩ : ∃ x xs, String.utf8EncodeChar c = x :: xs :=
    List.exists_cons_of_ne_nil String.utf8EncodeChar_ne_nil
  by_cases hc : escapes c
  · have hnone : digit? 16 c = none := by
      refine eq_none_of_not_isHex fun hex => ?_
      rw [hdigits c hex] at hc
      cases hc
    have hone : encodeUtf8 [c] = x :: xs := (List.append_nil _).trans hx
    rw [hnone, encodeUtf8_escapeBy_cons, if_pos hc, encodeChar, hone]
    rfl
  · rw [encodeUtf8_escapeBy_spared (Bool.eq_false_iff.mpr hc), hx]
    show hexOctet? x = _
    rcases Nat.lt_or_ge c.toNat 128 with hlt | hge
    · rw [utf8EncodeChar_of_lt hlt] at hx
      obtain ⟨rfl, -⟩ := List.cons.inj hx
      exact hexOctet?_ofNat hlt
    · have hmem : x ∈ String.utf8EncodeChar c := hx ▸ List.mem_cons_self ..
      rw [hexOctet?_eq_none (le_of_mem_utf8EncodeChar hge hmem), digit?_of_le hge]

/-- No octet of another character is a percent sign. -/
theorem ne_percent_of_mem {x : UInt8} (hc : c ≠ '%') (hx : x ∈ String.utf8EncodeChar c) :
    x ≠ 37 := by
  rintro rfl
  rcases Nat.lt_or_ge c.toNat 128 with hlt | hge
  · rw [utf8EncodeChar_of_lt hlt] at hx
    have hnat := congrArg UInt8.toNat (List.mem_singleton.mp hx)
    rw [UInt8.toNat_ofNat', Nat.mod_eq_of_lt (by omega)] at hnat
    exact hc (Char.toNat_inj.mp hnat.symm)
  · exact absurd (le_of_mem_utf8EncodeChar hge hx) (by decide)

/-- A percent sign that has not two digits behind it has not two octets of
digits behind it. -/
theorem decodeOctets_percent_escapeBy (hdigits : ∀ c, IsHex c → escapes c = false)
    {rest : List Char} (h : ∀ a b more, rest = a :: b :: more → IsHex a → ¬ IsHex b) :
    decodeOctets (37 :: encodeUtf8 (Url.escapeBy escapes rest))
      = 37 :: decodeOctets (encodeUtf8 (Url.escapeBy escapes rest)) := by
  refine decodeOctets_percent ?_
  rcases rest with _ | ⟨a, rest⟩
  · exact Or.inl rfl
  · by_cases ha : IsHex a
    · right
      rw [encodeUtf8_escapeBy_spared (hdigits a ha), utf8EncodeChar_of_lt ha.lt,
        List.singleton_append, List.tail_cons]
      rcases rest with _ | ⟨b, rest⟩
      · rfl
      · rw [hexOctet?_head?_escapeBy hdigits]
        exact eq_none_of_not_isHex (h a b rest rfl ha)
    · left
      rw [hexOctet?_head?_escapeBy hdigits]
      exact eq_none_of_not_isHex ha

/-- **What a text stands for is not changed** by percent-encoding characters that
are neither digits nor percent signs. -/
theorem decodeOctets_escapeBy (hdigits : ∀ c, IsHex c → escapes c = false)
    (hpercent : escapes '%' = false) (s : List Char) :
    decodeOctets (encodeUtf8 (Url.escapeBy escapes s)) = octets s := by
  have hsign : ∀ rest : List Char, encodeUtf8 (Url.escapeBy escapes ('%' :: rest))
      = 37 :: encodeUtf8 (Url.escapeBy escapes rest) :=
    fun rest => encodeUtf8_escapeBy_spared hpercent rest
  fun_induction octets s with
  | case1 a b rest hi lo hb ha ih =>
    have hexa := isHex_of_eq ha
    have hexb := isHex_of_eq hb
    rw [hsign, encodeUtf8_escapeBy_spared (hdigits a hexa),
      encodeUtf8_escapeBy_spared (hdigits b hexb), utf8EncodeChar_of_lt hexa.lt,
      utf8EncodeChar_of_lt hexb.lt, List.singleton_append, List.singleton_append, decodeOctets,
      hexOctet?_ofNat hexa.lt, hexOctet?_ofNat hexb.lt, ha, hb]
    dsimp only
    rw [ih]
  | case2 a b rest hnot ih =>
    rw [hsign, decodeOctets_percent_escapeBy hdigits, ih]
    rintro _ _ _ ⟨⟩ ha hb
    obtain ⟨hi, hi_eq⟩ := Option.isSome_iff_exists.mp ha
    obtain ⟨lo, lo_eq⟩ := Option.isSome_iff_exists.mp hb
    exact hnot hi lo hi_eq lo_eq
  | case3 c rest hshort ih =>
    by_cases hc : c = '%'
    · subst hc
      rw [hsign, decodeOctets_percent_escapeBy hdigits, ih]
      · rfl
      · exact fun a b more heq => (hshort a b more rfl heq).elim
    · by_cases hesc : escapes c
      · rw [encodeUtf8_escapeBy_cons, if_pos hesc, decodeOctets_encodeChar, ih]
      · rw [encodeUtf8_escapeBy_spared (Bool.eq_false_iff.mpr hesc),
          decodeOctets_append fun x hx => ne_percent_of_mem hc hx, ih]
  | case4 => rfl

end Escaping

/-! ### Texts that stand for themselves -/

/-- No percent sign of a text has two digits behind it. -/
def Verbatim (s : List Char) : Prop := ∀ a b, IsHex a → IsHex b → ¬ ['%', a, b] <:+: s

theorem Verbatim.tail {s : List Char} (h : Verbatim (c :: s)) : Verbatim s :=
  fun a b ha hb hin => h a b ha hb (List.infix_cons hin)

theorem verbatim_cons {s : List Char} (hs : Verbatim s)
    (h : ∀ a b more, c = '%' → s = a :: b :: more → IsHex a → ¬ IsHex b) : Verbatim (c :: s) := by
  intro a b ha hb hin
  rcases List.infix_cons_iff.mp hin with ⟨more, heq⟩ | hin
  · obtain ⟨hc, hrest⟩ := List.cons.inj heq
    exact h a b more hc.symm hrest.symm ha hb
  · exact hs a b ha hb hin

/-- Three characters that stand for one octet are three octets themselves. -/
theorem length_encodeUtf8_escape (ha : IsHex a) (hb : IsHex b) (rest : List Char) :
    (encodeUtf8 ('%' :: a :: b :: rest)).length = (encodeUtf8 rest).length + 3 := by
  rw [length_encodeUtf8_cons, length_encodeUtf8_cons, length_encodeUtf8_cons,
    utf8EncodeChar_of_lt ha.lt, utf8EncodeChar_of_lt hb.lt]
  show 1 + (1 + (1 + _)) = _
  omega

/-- A text stands for no more octets than it has. -/
theorem length_octets_le (s : List Char) : (octets s).length ≤ (encodeUtf8 s).length := by
  fun_induction octets s with
  | case1 a b rest hi lo hb ha ih =>
    rw [length_encodeUtf8_escape (isHex_of_eq ha) (isHex_of_eq hb), List.length_cons]
    omega
  | case2 a b rest hnot ih => exact Nat.succ_le_succ ih
  | case3 c rest hshort ih =>
    rw [length_encodeUtf8_cons, List.length_append]
    exact Nat.add_le_add_left ih _
  | case4 => exact Nat.le_refl _

/-- A text that stands for as many octets as it has stands for itself. -/
theorem verbatim_of_length {s : List Char} (h : (encodeUtf8 s).length ≤ (octets s).length) :
    Verbatim s := by
  fun_induction octets s with
  | case1 a b rest hi lo hb ha ih =>
    rw [length_encodeUtf8_escape (isHex_of_eq ha) (isHex_of_eq hb), List.length_cons] at h
    have hle := length_octets_le rest
    omega
  | case2 a b rest hnot ih =>
    refine verbatim_cons (ih (Nat.le_of_succ_le_succ h)) ?_
    rintro _ _ _ - ⟨⟩ ha hb
    obtain ⟨hi, hi_eq⟩ := Option.isSome_iff_exists.mp ha
    obtain ⟨lo, lo_eq⟩ := Option.isSome_iff_exists.mp hb
    exact hnot hi lo hi_eq lo_eq
  | case3 c rest hshort ih =>
    rw [length_encodeUtf8_cons, List.length_append] at h
    refine verbatim_cons (ih (Nat.le_of_add_le_add_left h)) ?_
    exact fun a b more hc heq => (hshort a b more hc heq).elim
  | case4 => exact fun a b _ _ hin => absurd (List.infix_nil.mp hin) nofun

theorem octets_of_verbatim {s : List Char} (h : Verbatim s) : octets s = encodeUtf8 s := by
  fun_induction octets s with
  | case1 a b rest hi lo hb ha ih =>
    exact absurd (List.infix_append [] ['%', a, b] rest) (h a b (isHex_of_eq ha) (isHex_of_eq hb))
  | case2 a b rest hnot ih =>
    rw [ih h.tail]
    rfl
  | case3 c rest hshort ih =>
    rw [ih h.tail]
    rfl
  | case4 => rfl

end Http.Percent

end Rendezvous

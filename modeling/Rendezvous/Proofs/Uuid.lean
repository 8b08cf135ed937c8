/-
Rendezvous/Proofs/Uuid.lean

The text of an identifier is read back as that identifier (`parse_text`), and
the order of identifiers is total.

The hyphenated text has no characters but hexadecimal digits and hyphens, so
nothing is stripped from it; cutting it at the hyphens gives the five groups
again, and the groups together are the digits.
-/
import Rendezvous.Peer

namespace Rendezvous

/-! ### Hexadecimal digits -/

namespace Text

theorem digit?_digitChar {d : Nat} (h : d < 16) : digit? 16 (digitChar d) = some d := by
  have hall : ∀ d < 16, digit? 16 (digitChar d) = some d := by decide
  exact hall d h

/-- The digits are letters and decimal digits. -/
theorem digitChar_isAlphanum {d : Nat} (h : d < 16) : (digitChar d).isAlphanum := by
  have hall : ∀ d < 16, (digitChar d).isAlphanum := by decide
  exact hall d h

theorem digitChar_toLower {d : Nat} (h : d < 16) : (digitChar d).toLower = digitChar d := by
  have hall : ∀ d < 16, (digitChar d).toLower = digitChar d := by decide
  exact hall d h

theorem hexPadded_two (b : UInt8) :
    hexPadded 2 b.toNat = [digitChar (b.toNat / 16), digitChar (b.toNat % 16)] := by
  have hb := b.toNat_lt
  show [digitChar (b.toNat / 16 % 16), digitChar (b.toNat % 16)] = _
  rw [Nat.mod_eq_of_lt (by omega : b.toNat / 16 < 16)]

theorem mem_hexPadded_two {b : UInt8} {c : Char} (h : c ∈ hexPadded 2 b.toNat) :
    ∃ d < 16, c = digitChar d := by
  have hb := b.toNat_lt
  rw [hexPadded_two] at h
  rcases List.mem_cons.mp h with rfl | h
  · exact ⟨_, by omega, rfl⟩
  · exact ⟨_, by omega, List.mem_singleton.mp h⟩

/-! ### Cutting -/

theorem cutAt_ne_nil {p : Char → Bool} {l : List Char} : cutAt p l ≠ [] := by
  cases l with
  | nil => exact List.cons_ne_nil _ _
  | cons c l =>
    rw [cutAt]
    split
    · exact List.cons_ne_nil _ _
    · split <;> exact List.cons_ne_nil _ _

/-- A stretch without characters of the class, up to the first that follows. -/
theorem cutAt_append {p : Char → Bool} {w : List Char} (hw : ∀ c ∈ w, p c = false)
    {c : Char} (hc : p c) (rest : List Char) :
    cutAt p (w ++ c :: rest) = w :: cutAt p rest := by
  induction w with
  | nil => rw [List.nil_append, cutAt, if_pos hc]
  | cons d w ih =>
    have hd : p d = false := hw d (List.mem_cons_self ..)
    have hrest := ih fun e he => hw e (List.mem_cons_of_mem _ he)
    rw [List.cons_append, cutAt, hrest, hd]
    rfl

/-- A text without characters of the class is one stretch. -/
theorem cutAt_eq_self {p : Char → Bool} {w : List Char} (hw : ∀ c ∈ w, p c = false) :
    cutAt p w = [w] := by
  induction w with
  | nil => rfl
  | cons d w ih =>
    have hd : p d = false := hw d (List.mem_cons_self ..)
    have hrest := ih fun e he => hw e (List.mem_cons_of_mem _ he)
    rw [cutAt, hrest, hd]
    rfl

end Text

namespace Octets

variable {n : Nat}

theorem ofList?_toList (a : Octets n) : ofList? n a.toList = some a := by
  rw [ofList?, dif_pos a.length_toList]

theorem ofList?_eq_some_iff {l : List UInt8} {a : Octets n} :
    ofList? n l = some a ↔ l = a.toList := by
  constructor
  · intro h
    rw [ofList?] at h
    split at h
    · cases h
      rfl
    · cases h
  · rintro rfl
    exact ofList?_toList a

theorem toList_injective {a b : Octets n} (h : a.toList = b.toList) : a = b := by
  cases a
  cases b
  cases h
  rfl

end Octets

namespace Uuid

/-! ### Digits -/

theorem length_digits (l : List UInt8) : (digits l).length = 2 * l.length := by
  induction l with
  | nil => rfl
  | cons b rest ih =>
    show (Text.hexPadded 2 b.toNat ++ digits rest).length = _
    rw [List.length_append, ih, Text.hexPadded_two, List.length_cons]
    simp only [List.length_cons, List.length_nil]
    omega

theorem mem_digits {l : List UInt8} {c : Char} (h : c ∈ digits l) :
    ∃ d < 16, c = Text.digitChar d := by
  obtain ⟨b, -, hc⟩ := List.mem_flatMap.mp h
  exact Text.mem_hexPadded_two hc

theorem ne_of_mem_digits {l : List UInt8} {c : Char} (h : c ∈ digits l) {e : Char}
    (he : e.isAlphanum = false) : c ≠ e := by
  obtain ⟨d, hd, rfl⟩ := mem_digits h
  rintro rfl
  rw [Text.digitChar_isAlphanum hd] at he
  cases he

theorem octetsOfDigits?_digits (l : List UInt8) : octetsOfDigits? (digits l) = some l := by
  induction l with
  | nil => rfl
  | cons b rest ih =>
    have hb := b.toNat_lt
    have hsplit : b.toNat / 16 * 16 + b.toNat % 16 = b.toNat := by omega
    show octetsOfDigits? (Text.hexPadded 2 b.toNat ++ digits rest) = _
    rw [Text.hexPadded_two, List.cons_append, List.cons_append, List.nil_append,
      octetsOfDigits?, Text.digit?_digitChar (by omega), Text.digit?_digitChar (by omega), ih]
    show some (UInt8.ofNat (b.toNat / 16 * 16 + b.toNat % 16) :: rest) = _
    rw [hsplit, UInt8.ofNat_toNat]

theorem ofDigits?_digits (u : Uuid) : ofDigits? (digits u.octets.toList) = some u := by
  rw [ofDigits?, octetsOfDigits?_digits]
  show (Octets.ofList? 16 u.octets.toList).bind _ = _
  rw [Octets.ofList?_toList]
  rfl

/-! ### The hyphenated text -/

/-- The digits in five groups. -/
theorem cutAt_chars (u : Uuid) :
    let d := digits u.octets.toList
    Text.cutAt (· == '-') u.chars
      = [d.take 8, (d.drop 8).take 4, (d.drop 12).take 4, (d.drop 16).take 4, d.drop 20] := by
  intro d
  -- digits are no hyphens, so each group ends at the hyphen after it
  have hd : ∀ c ∈ d, (c == '-') = false := fun c hc =>
    beq_eq_false_iff_ne.mpr (ne_of_mem_digits hc rfl)
  have hgroup : ∀ m n, ∀ c ∈ (d.drop m).take n, (c == '-') = false := fun m n c hc =>
    hd c (List.mem_of_mem_drop (List.mem_of_mem_take hc))
  have hfirst : ∀ c ∈ d.take 8, (c == '-') = false := fun c hc => hd c (List.mem_of_mem_take hc)
  have hlast : ∀ c ∈ d.drop 20, (c == '-') = false := fun c hc => hd c (List.mem_of_mem_drop hc)
  show Text.cutAt (· == '-') (d.take 8 ++ '-' :: (d.drop 8).take 4 ++ '-' :: (d.drop 12).take 4
    ++ '-' :: (d.drop 16).take 4 ++ '-' :: d.drop 20) = _
  simp only [List.append_assoc, List.cons_append]
  rw [Text.cutAt_append hfirst rfl, Text.cutAt_append (hgroup 8 4) rfl,
    Text.cutAt_append (hgroup 12 4) rfl, Text.cutAt_append (hgroup 16 4) rfl,
    Text.cutAt_eq_self hlast]

theorem ofHyphenated?_chars (u : Uuid) : ofHyphenated? u.chars = some u := by
  have hlen : (digits u.octets.toList).length = 32 := by
    rw [length_digits, u.octets.length_toList]
  rw [ofHyphenated?, cutAt_chars]
  generalize hd : digits u.octets.toList = d at hlen
  have hlens : [d.take 8, (d.drop 8).take 4, (d.drop 12).take 4, (d.drop 16).take 4,
      d.drop 20].map List.length = [8, 4, 4, 4, 12] := by
    simp [hlen]
  have hflat : [d.take 8, (d.drop 8).take 4, (d.drop 12).take 4, (d.drop 16).take 4,
      d.drop 20].flatten = d := by
    -- the groups are joined from the last one on
    have h16 : (d.drop 16).take 4 ++ d.drop 20 = d.drop 16 := by
      rw [← List.drop_drop (i := 4) (j := 16), List.take_append_drop]
    have h12 : (d.drop 12).take 4 ++ d.drop 16 = d.drop 12 := by
      rw [← List.drop_drop (i := 4) (j := 12), List.take_append_drop]
    have h8 : (d.drop 8).take 4 ++ d.drop 12 = d.drop 8 := by
      rw [← List.drop_drop (i := 4) (j := 8), List.take_append_drop]
    simp only [List.flatten_cons, List.flatten_nil, List.append_nil]
    rw [h16, h12, h8, List.take_append_drop]
  show (if _ then _ else none) = _
  rw [if_pos hlens, hflat, ← hd, ofDigits?_digits]

theorem mem_chars {u : Uuid} {c : Char} (h : c ∈ u.chars) :
    c ∈ digits u.octets.toList ∨ c = '-' := by
  simp only [chars, List.mem_append, List.mem_cons] at h
  rcases h with (((h | h | h) | h | h) | h | h) | h | h
  · exact Or.inl (List.mem_of_mem_take h)
  · exact Or.inr h
  · exact Or.inl (List.mem_of_mem_drop (List.mem_of_mem_take h))
  · exact Or.inr h
  · exact Or.inl (List.mem_of_mem_drop (List.mem_of_mem_take h))
  · exact Or.inr h
  · exact Or.inl (List.mem_of_mem_drop (List.mem_of_mem_take h))
  · exact Or.inr h
  · exact Or.inl (List.mem_of_mem_drop h)

/-- There are neither braces nor colons in the text. -/
theorem ne_of_mem_chars {u : Uuid} {c : Char} (h : c ∈ u.chars) {e : Char}
    (he : e.isAlphanum = false) (hhyphen : e ≠ '-') : c ≠ e := by
  rcases mem_chars h with hc | rfl
  · exact ne_of_mem_digits hc he
  · exact hhyphen.symm

theorem toLower_of_mem_chars {u : Uuid} {c : Char} (h : c ∈ u.chars) : c.toLower = c := by
  rcases mem_chars h with hc | rfl
  · obtain ⟨d, hd, rfl⟩ := mem_digits hc
    exact Text.digitChar_toLower hd
  · rfl

theorem strip_chars (u : Uuid) : strip u.chars = ⟨u.chars, 0, 0⟩ := by
  have hbrace : u.chars.head? ≠ some '\x7b' := by
    intro h
    exact ne_of_mem_chars (List.mem_of_mem_head? h) rfl (by decide) rfl
  have hmark : (u.chars.take 9).map Char.toLower ≠ "urn:uuid:".toList := by
    intro h
    -- the mark has a colon, the text has none
    have hmem : ':' ∈ (u.chars.take 9).map Char.toLower := by
      rw [h]
      decide
    obtain ⟨c, hc, heq⟩ := List.mem_map.mp hmem
    have hin : c ∈ u.chars := List.mem_of_mem_take hc
    rw [toLower_of_mem_chars hin] at heq
    exact ne_of_mem_chars hin rfl (by decide) heq
  rw [strip, if_neg fun h => hbrace h.1, if_neg hmark]

/-- **The text of an identifier is read back as that identifier.** -/
theorem parse_text (u : Uuid) : parse u.text = .ok u := by
  have hread : ofChars? u.chars = some u := by
    rw [ofChars?, strip_chars, ofHyphenated?_chars]
    rfl
  rw [parse, text, String.toList_ofList, hread]

/-! ### Order -/

/-- One identifier comes before another. -/
def Before (a b : Uuid) : Prop := a.octets.toList < b.octets.toList

theorem ext_octets {a b : Uuid} (h : a.octets.toList = b.octets.toList) : a = b := by
  cases a
  cases b
  exact congrArg _ (Octets.toList_injective h)

theorem le_iff {a b : Uuid} : a.le b ↔ Before a b ∨ a = b := by
  rw [le, Octets.compare, Before]
  split
  · simp [*]
  · split
    · rename_i heq
      simp [ext_octets heq]
    · rename_i hne
      have hab : a ≠ b := fun h => hne (h ▸ rfl)
      simp [*]

theorem Before.irrefl (a : Uuid) : ¬ Before a a := List.lt_irrefl _

theorem Before.trans {a b c : Uuid} (hab : Before a b) (hbc : Before b c) : Before a c :=
  List.lt_trans hab hbc

theorem before_or_eq_or_before (a b : Uuid) : Before a b ∨ a = b ∨ Before b a := by
  rcases List.le_total a.octets.toList b.octets.toList with h | h
  · rcases List.le_iff_lt_or_eq.mp h with h | h
    · exact Or.inl h
    · exact Or.inr (Or.inl (ext_octets h))
  · rcases List.le_iff_lt_or_eq.mp h with h | h
    · exact Or.inr (Or.inr h)
    · exact Or.inr (Or.inl (ext_octets h.symm))

theorem le_trans {a b c : Uuid} (hab : a.le b) (hbc : b.le c) : a.le c := by
  rw [le_iff] at *
  rcases hab with hab | rfl
  · rcases hbc with hbc | rfl
    · exact Or.inl (hab.trans hbc)
    · exact Or.inl hab
  · exact hbc

theorem le_antisymm {a b : Uuid} (hab : a.le b) (hba : b.le a) : a = b := by
  rw [le_iff] at hab hba
  rcases hab with hab | rfl
  · rcases hba with hba | rfl
    · exact absurd (hab.trans hba) (Before.irrefl a)
    · rfl
  · rfl

theorem le_total (a b : Uuid) : a.le b ∨ b.le a := by
  rw [le_iff, le_iff]
  rcases before_or_eq_or_before a b with h | h | h
  · exact Or.inl (Or.inl h)
  · exact Or.inl (Or.inr h)
  · exact Or.inr (Or.inl h)

end Uuid

end Rendezvous

/-
Rendezvous/Proofs/Numeral.lean

Numerals read back.

The numeral of a number is that of its quotient by the radix with the digit of the
remainder after it, so what is true of all numerals is shown by adding one digit
after the other (`toDigits_induction`).  All characters of a numeral are digits,
they stand for the number (`number_toDigits`), and only zero has a numeral that
starts with a zero.  A numeral is read back whether it is all of a text
(`port?_decimal`) or stands in front of something that is no digit
(`readNumber_toDigits`).

What else is read as a number is digits all of which stand for something
(`readDigits_eq_ok_iff`).  In hexadecimal these are the characters of two alphabets,
small and capital (`digit?_eq_some_iff`).
-/
import Mathlib.Data.List.Basic
import Rendezvous.Address

namespace Rendezvous

namespace Text

variable {radix n acc : Nat} {c : Char} {l : List Char}

/-! ### Digits -/

theorem digit?_eq_some {d : Nat} (hle : radix ≤ 16) (hd : d < radix) :
    digit? radix d.digitChar = some d := by
  have hall : ∀ radix ≤ 16, ∀ d < radix, digit? radix d.digitChar = some d := by decide
  exact hall radix hle d hd

/-- A digit in one radix is a digit in a larger one. -/
theorem digit?_mono {radix' d : Nat} (hle : radix ≤ radix') (h : digit? radix c = some d) :
    digit? radix' c = some d := by
  rw [digit?, Option.filter_eq_some_iff] at h ⊢
  obtain ⟨hvalue, hd⟩ := h
  exact ⟨hvalue, decide_eq_true (Nat.lt_of_lt_of_le (of_decide_eq_true hd) hle)⟩

/-- A hexadecimal digit of a value, in either case. -/
def HexDigit (c : Char) (n : Nat) : Prop :=
  "0123456789abcdef".toList[n]? = some c ∨ "0123456789ABCDEF".toList[n]? = some c

/-- What is true of all digits, by going through them. -/
theorem HexDigit.all {P : Char → Nat → Prop}
    (hsmall : ∀ d ∈ "0123456789abcdef".toList.zipIdx, P d.1 d.2)
    (hcapital : ∀ d ∈ "0123456789ABCDEF".toList.zipIdx, P d.1 d.2) (h : HexDigit c n) : P c n := by
  rcases h with h | h
  · exact hsmall (c, n) (List.mk_mem_zipIdx_iff_getElem?.mpr h)
  · exact hcapital (c, n) (List.mk_mem_zipIdx_iff_getElem?.mpr h)

theorem HexDigit.lt (h : HexDigit c n) : n < 16 :=
  h.all (P := fun _ n => n < 16) (by decide) (by decide)

theorem HexDigit.isAscii (h : HexDigit c n) : c.toNat < 128 :=
  h.all (P := fun c _ => c.toNat < 128) (by decide) (by decide)

/-- The digits that are read are those of the two alphabets. -/
theorem digit?_eq_some_iff : digit? 16 c = some n ↔ HexDigit c n := by
  constructor
  · intro h
    have hall : ∀ m < 103, ∀ n ∈ digit? 16 (Char.ofNat m), HexDigit (Char.ofNat m) n := by
      unfold HexDigit
      decide
    have hlow : c.toNat < 103 := by
      by_contra hhigh
      rw [digit?, if_neg (by omega), if_neg (by omega), if_neg (by omega)] at h
      cases h
    have hc := hall c.toNat hlow n
    rw [Char.ofNat_toNat] at hc
    exact hc h
  · intro h
    exact h.all (P := fun c n => digit? 16 c = some n) (by decide) (by decide)

/-- The number that digits stand for, after others that stand for `acc`. -/
def number (radix acc : Nat) (l : List Char) : Nat :=
  l.foldl (fun acc c => acc * radix + (digit? radix c).getD 0) acc

theorem number_append (acc : Nat) (l l' : List Char) :
    number radix acc (l ++ l') = number radix (number radix acc l) l' := List.foldl_append

/-- More digits make no smaller number. -/
theorem le_number (hradix : 0 < radix) (acc : Nat) (l : List Char) :
    acc ≤ number radix acc l := by
  induction l generalizing acc with
  | nil => exact Nat.le_refl acc
  | cons c l ih =>
    calc acc ≤ acc * radix := Nat.le_mul_of_pos_right acc hradix
      _ ≤ acc * radix + (digit? radix c).getD 0 := Nat.le_add_right _ _
      _ ≤ number radix acc (c :: l) := ih _

/-! ### Numerals -/

/-- What is true of single digits, and of a numeral with one more digit if it is
true of the numeral, is true of all numerals. -/
theorem toDigits_induction {P : Nat → List Char → Prop} (hradix : 1 < radix)
    (single : ∀ d < radix, P d [d.digitChar])
    (further : ∀ m d, 0 < m → d < radix → P m (Nat.toDigits radix m) →
      P (radix * m + d) (Nat.toDigits radix m ++ [d.digitChar]))
    (n : Nat) : P n (Nat.toDigits radix n) := by
  induction n using Nat.strongRecOn with
  | ind n ih =>
    rcases Nat.lt_or_ge n radix with hn | hn
    · rw [Nat.toDigits_of_lt_base hn]
      exact single n hn
    · -- the last digit is that of the remainder, the others are those of the quotient
      have hmod : n % radix < radix := Nat.mod_lt n (by omega)
      have hpos : 0 < n / radix := Nat.div_pos hn (by omega)
      have hstep := further _ _ hpos hmod (ih _ (Nat.div_lt_self (by omega) hradix))
      rw [Nat.div_add_mod] at hstep
      rwa [Nat.toDigits_of_base_le hradix hn]

theorem isSome_digit?_of_mem_toDigits (hradix : 1 < radix) (hle : radix ≤ 16)
    (h : c ∈ Nat.toDigits radix n) : (digit? radix c).isSome := by
  refine toDigits_induction (P := fun _ l => ∀ c ∈ l, (digit? radix c).isSome) hradix ?_ ?_ n
    c h
  · intro d hd c hc
    rw [List.mem_singleton.mp hc, digit?_eq_some hle hd]
    rfl
  · intro m d _ hd ih c hc
    rcases List.mem_append.mp hc with hc | hc
    · exact ih c hc
    · rw [List.mem_singleton.mp hc, digit?_eq_some hle hd]
      rfl

/-- **The digits of a numeral stand for its number.** -/
theorem number_toDigits (hradix : 1 < radix) (hle : radix ≤ 16) (n : Nat) :
    number radix 0 (Nat.toDigits radix n) = n := by
  refine toDigits_induction (P := fun n l => number radix 0 l = n) hradix ?_ ?_ n
  · intro d hd
    rw [number, List.foldl_cons, List.foldl_nil, digit?_eq_some hle hd, Option.getD_some,
      Nat.zero_mul, Nat.zero_add]
  · intro m d _ hd ih
    rw [number_append, ih, number, List.foldl_cons, List.foldl_nil, digit?_eq_some hle hd,
      Option.getD_some, Nat.mul_comm]

/-- Only zero has a numeral that starts with a zero. -/
theorem eq_zero_of_head?_toDigits (hradix : 1 < radix)
    (h : (Nat.toDigits radix n).head? = some '0') : n = 0 := by
  refine toDigits_induction (P := fun n l => l.head? = some '0' → n = 0) hradix ?_ ?_ n h
  · intro d _ hhead
    exact Nat.digitChar_eq_zero.mp (Option.some.inj hhead)
  · intro m d hm _ ih hhead
    rw [List.head?_append_of_ne_nil _ Nat.toDigits_ne_nil] at hhead
    exact absurd (ih hhead) (Nat.ne_of_gt hm)

/-! ### Reading all of a text -/

/-- Digits are read as their number, if that is below the bound. -/
theorem readDigits_eq_ok {bound : Nat} (hradix : 0 < radix)
    (hl : ∀ c ∈ l, (digit? radix c).isSome) (hbound : number radix acc l < bound) :
    readDigits radix bound acc l = .ok (number radix acc l) := by
  induction l generalizing acc with
  | nil => rfl
  | cons c l ih =>
    obtain ⟨d, hd⟩ := Option.isSome_iff_exists.mp (hl c List.mem_cons_self)
    have hnumber : number radix acc (c :: l) = number radix (acc * radix + d) l := by
      rw [number, List.foldl_cons, hd, Option.getD_some, ← number]
    rw [hnumber] at hbound ⊢
    -- what the further digits come to bounds what the first ones do
    have hfits : acc * radix + d < bound := Nat.lt_of_le_of_lt (le_number hradix _ l) hbound
    simp only [readDigits, hd, if_pos hfits]
    exact ih (fun c hc => hl c (List.mem_cons_of_mem _ hc)) hbound

/-- Reading digits gives their number, if all of them are digits and it fits. -/
theorem readDigits_eq_ok_iff {bound : Nat} (hradix : 0 < radix)
    (hacc : acc < bound) : readDigits radix bound acc l = .ok n
      ↔ (∀ c ∈ l, (digit? radix c).isSome) ∧ number radix acc l = n ∧ n < bound := by
  constructor
  · intro h
    induction l generalizing acc with
    | nil =>
      cases h
      exact ⟨nofun, rfl, hacc⟩
    | cons c l ih =>
      rw [readDigits] at h
      rcases hc : digit? radix c with _ | d
      · rw [hc] at h
        cases h
      · simp only [hc] at h
        split at h
        · rename_i hfits
          obtain ⟨hl, hnumber, hn⟩ := ih hfits h
          refine ⟨List.forall_mem_cons.mpr ⟨Option.isSome_of_eq_some hc, hl⟩, ?_, hn⟩
          rw [number, List.foldl_cons, hc, Option.getD_some]
          exact hnumber
        · cases h
  · rintro ⟨hl, rfl, hn⟩
    exact readDigits_eq_ok hradix hl hn

theorem readNumeral_toDigits {bound : Nat} (hradix : 1 < radix) (hle : radix ≤ 16)
    (hn : n < bound) : readNumeral radix bound (Nat.toDigits radix n) = .ok n := by
  have hdigits : ∀ c ∈ Nat.toDigits radix n, (digit? radix c).isSome :=
    fun c hc => isSome_digit?_of_mem_toDigits hradix hle hc
  have hsign : '+' ∉ Nat.toDigits radix n := fun hmem => nomatch hdigits _ hmem
  have hnumber := number_toDigits hradix hle n
  have hread := readDigits_eq_ok (by omega) hdigits (hnumber.symm ▸ hn)
  rw [hnumber] at hread
  rw [readNumeral]
  · exact hread
  · exact Nat.toDigits_ne_nil
  · intro heq
    exact hsign (heq ▸ List.mem_cons_self)
  · intro rest heq
    exact hsign (heq ▸ List.mem_cons_self)

/-- **A port is read back from its numeral.** -/
theorem port?_decimal (p : UInt16) : port? (decimal p.toNat) = some p := by
  rw [port?, decimal, String.toList_ofList,
    readNumeral_toDigits (by decide) (by decide) p.toNat_lt]
  exact congrArg some UInt16.ofNat_toNat

/-! ### Reading the front of a text -/

/-- No numeral starts at the front of a text. -/
def NoNumeral (radix : Nat) (s : List Char) : Prop := ∀ c ∈ s.head?, digit? radix c = none

theorem noNumeral_nil : NoNumeral radix [] := nofun

theorem noNumeral_cons (h : digit? radix c = none) (s : List Char) : NoNumeral radix (c :: s) := by
  rintro _ ⟨⟩
  exact h

/-- What is no hexadecimal numeral is no decimal numeral either. -/
theorem NoNumeral.mono {radix' : Nat} (h : NoNumeral radix' l) (hle : radix ≤ radix') :
    NoNumeral radix l := by
  intro c hc
  cases hdigit : digit? radix c with
  | none => rfl
  | some d => exact nomatch (h c hc).symm.trans (digit?_mono hle hdigit)

/-- A list is cut after what has a property, before what has not. -/
theorem takeWhile_dropWhile_append {p : Char → Bool} {rest : List Char} (hl : ∀ c ∈ l, p c)
    (hrest : ∀ c ∈ rest.head?, p c = false) :
    (l ++ rest).takeWhile p = l ∧ (l ++ rest).dropWhile p = rest := by
  rw [List.takeWhile_append_of_pos hl, List.dropWhile_append_of_pos hl]
  cases rest with
  | nil => exact ⟨List.append_nil l, rfl⟩
  | cons c rest =>
    have hc : ¬ p c = true := by simp [hrest c rfl]
    rw [List.takeWhile_cons_of_neg hc, List.dropWhile_cons_of_neg hc, List.append_nil]
    exact ⟨rfl, rfl⟩

end Text

namespace Address

open Text

variable {radix bound n : Nat} {width : Option Nat} {zeros : Bool} {s rest : List Char}

/-- **A numeral is read back from the front of a text**, up to where no digit
follows. -/
theorem readNumber_toDigits (hradix : 1 < radix) (hle : radix ≤ 16) (hn : n < bound)
    (hwidth : ∀ w ∈ width, 0 < w ∧ n < Nat.pow radix w) (hrest : NoNumeral radix rest) :
    readNumber radix width zeros bound (Nat.toDigits radix n ++ rest) = some (n, rest) := by
  have hdigits : ∀ c ∈ Nat.toDigits radix n, (digit? radix c).isSome :=
    fun c hc => isSome_digit?_of_mem_toDigits hradix hle hc
  obtain ⟨htake, hdrop⟩ := takeWhile_dropWhile_append hdigits fun c hc => by
    rw [hrest c hc, Option.isSome_none]
  have hnumber := number_toDigits hradix hle n
  rw [number] at hnumber
  simp only [readNumber, htake, hdrop, hnumber]
  refine if_neg ?_
  rintro (hempty | hlong | ⟨-, hzero, hmany⟩ | hlarge)
  · exact Nat.toDigits_ne_nil (List.isEmpty_iff.mp hempty)
  · obtain ⟨w, hw, hlt⟩ := (Option.any_eq_true ..).mp hlong
    obtain ⟨hpos, hfits⟩ := hwidth w hw
    exact absurd ((Nat.length_toDigits_le_iff hradix hpos).mpr hfits)
      (Nat.not_le_of_gt (of_decide_eq_true hlt))
  · -- only zero starts with a zero, and its numeral has one digit
    rw [eq_zero_of_head?_toDigits hradix hzero, Nat.toDigits_zero] at hmany
    exact absurd hmany (Nat.lt_irrefl 1)
  · exact Nat.not_le_of_gt hn hlarge

theorem readNumber_eq_none (h : NoNumeral radix s) :
    readNumber radix width zeros bound s = none := by
  have htake : s.takeWhile (fun c => (digit? radix c).isSome) = [] := by
    cases s with
    | nil => rfl
    | cons c s => rw [List.takeWhile_cons_of_neg (by simp [h c rfl])]
  simp only [readNumber, htake]
  exact if_pos (Or.inl rfl)

theorem readNumber_suffix (h : readNumber radix width zeros bound s = some (n, rest)) :
    rest <:+ s := by
  rw [readNumber] at h
  split at h
  · cases h
  · cases h
    exact List.dropWhile_suffix _

end Address

end Rendezvous

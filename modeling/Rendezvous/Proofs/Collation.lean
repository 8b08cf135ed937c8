/-
Rendezvous/Proofs/Collation.lean

Texts in the order of their octets.

Texts are compared character by character, and octet strings octet by octet.
The encoding of characters was made so that both come to the same: where two
characters differ, their octets first differ in the same direction
(`append_lt_append`), whatever stands behind them, so

    octetsOf s < octetsOf t  ↔  s < t

for all texts (`octetsOf_lt_iff`).  Names that are sorted as texts are therefore
sorted as octet strings.
-/
import Mathlib.Data.String.Basic
import Rendezvous.Proofs.Base64

namespace Rendezvous.Text

variable {m n v w : Nat} {c c' : Char} {cs cs' : List Char} {s t : String} {l l' : List UInt8}

/-! ### One character -/

/-- The first octets decide unless they are the same. -/
theorem ofNat_cons_lt (hm : m < 256) (hn : n < 256) (h : m < n ∨ m = n ∧ l < l') :
    UInt8.ofNat m :: l < UInt8.ofNat n :: l' := by
  rw [List.cons_lt_cons_iff, UInt8.ofNat_lt_iff_lt hm hn]
  rcases h with hlt | ⟨rfl, hrest⟩
  · exact Or.inl hlt
  · exact Or.inr ⟨rfl, hrest⟩

/-! Continuation octets carry six bits each, the highest first, so they compare
as the numbers do whose bits before them are the same. -/

theorem tail_one_lt (hlt : v < w) (hsame : v / 64 = w / 64) :
    UInt8.ofNat (v % 64 + 128) :: l < UInt8.ofNat (w % 64 + 128) :: l' :=
  ofNat_cons_lt (by omega) (by omega) (Or.inl (by omega))

theorem tail_two_lt (hlt : v < w) (hsame : v / 4096 = w / 4096) :
    UInt8.ofNat (v / 64 % 64 + 128) :: UInt8.ofNat (v % 64 + 128) :: l
      < UInt8.ofNat (w / 64 % 64 + 128) :: UInt8.ofNat (w % 64 + 128) :: l' := by
  refine ofNat_cons_lt (by omega) (by omega) ?_
  rcases Nat.lt_or_ge (v / 64) (w / 64) with hnext | hnext
  · exact Or.inl (by omega)
  · exact Or.inr ⟨by omega, tail_one_lt hlt (by omega)⟩

theorem tail_three_lt (hlt : v < w) (hsame : v / 262144 = w / 262144) :
    UInt8.ofNat (v / 4096 % 64 + 128) :: UInt8.ofNat (v / 64 % 64 + 128)
        :: UInt8.ofNat (v % 64 + 128) :: l
      < UInt8.ofNat (w / 4096 % 64 + 128) :: UInt8.ofNat (w / 64 % 64 + 128)
        :: UInt8.ofNat (w % 64 + 128) :: l' := by
  refine ofNat_cons_lt (by omega) (by omega) ?_
  rcases Nat.lt_or_ge (v / 4096) (w / 4096) with hnext | hnext
  · exact Or.inl (by omega)
  · exact Or.inr ⟨by omega, tail_two_lt hlt (by omega)⟩

/-- **The smaller of two characters has the smaller octets**, whatever follows
them. -/
theorem append_lt_append (h : c < c') (l l' : List UInt8) :
    String.utf8EncodeChar c ++ l < String.utf8EncodeChar c' ++ l' := by
  have hlt : c.val.toNat < c'.val.toNat := h
  have hmax : c'.val.toNat < 0x110000 := c'.valid.elim (by omega) And.right
  rw [String.utf8EncodeChar, String.utf8EncodeChar]
  generalize c.val.toNat = v at hlt
  generalize c'.val.toNat = w at hlt hmax
  -- one case for each number of octets that the smaller one has; of those of the
  -- larger one, more make its first octet larger and as many are compared in turn
  split
  · split
    · exact ofNat_cons_lt (by omega) (by omega) (Or.inl hlt)
    split
    · exact ofNat_cons_lt (by omega) (by omega) (Or.inl (by omega))
    split
    · exact ofNat_cons_lt (by omega) (by omega) (Or.inl (by omega))
    · exact ofNat_cons_lt (by omega) (by omega) (Or.inl (by omega))
  rw [if_neg (show ¬ w ≤ 127 by omega)]
  split
  · split
    · refine ofNat_cons_lt (by omega) (by omega) ?_
      rcases Nat.lt_or_ge (v / 64) (w / 64) with hnext | hnext
      · exact Or.inl (by omega)
      · exact Or.inr ⟨by omega, tail_one_lt hlt (by omega)⟩
    split
    · exact ofNat_cons_lt (by omega) (by omega) (Or.inl (by omega))
    · exact ofNat_cons_lt (by omega) (by omega) (Or.inl (by omega))
  rw [if_neg (show ¬ w ≤ 2047 by omega)]
  split
  · split
    · refine ofNat_cons_lt (by omega) (by omega) ?_
      rcases Nat.lt_or_ge (v / 4096) (w / 4096) with hnext | hnext
      · exact Or.inl (by omega)
      · exact Or.inr ⟨by omega, tail_two_lt hlt (by omega)⟩
    · exact ofNat_cons_lt (by omega) (by omega) (Or.inl (by omega))
  rw [if_neg (show ¬ w ≤ 65535 by omega)]
  refine ofNat_cons_lt (by omega) (by omega) ?_
  rcases Nat.lt_or_ge (v / 262144) (w / 262144) with hnext | hnext
  · exact Or.inl (by omega)
  · exact Or.inr ⟨by omega, tail_three_lt hlt (by omega)⟩

/-! ### Whole texts -/

theorem encodeUtf8_lt (h : cs < cs') : encodeUtf8 cs < encodeUtf8 cs' := by
  induction h with
  | @nil c rest =>
    rcases henc : encodeUtf8 (c :: rest) with _ | ⟨b, l⟩
    · have hempty : c :: rest = [] := encodeUtf8_injective henc
      cases hempty
    · exact List.nil_lt_cons b l
  | @cons c rest rest' _ ih => exact List.append_left_lt ih
  | @rel c rest c' rest' hlt => exact append_lt_append hlt _ _

/-- **Texts are in the order of their octets.** -/
theorem octetsOf_lt_iff : octetsOf s < octetsOf t ↔ s < t := by
  have himp : ∀ {s t : String}, s < t → octetsOf s < octetsOf t :=
    fun h => encodeUtf8_lt (String.lt_iff_toList_lt.mp h)
  refine ⟨fun h => ?_, himp⟩
  rcases lt_trichotomy s t with hlt | rfl | hgt
  · exact hlt
  · exact absurd h (List.lt_irrefl _)
  · exact absurd h (List.lt_asymm (himp hgt))

theorem octetsOf_le_iff : octetsOf s ≤ octetsOf t ↔ s ≤ t := by
  rw [← List.not_lt, octetsOf_lt_iff, String.not_lt]

end Rendezvous.Text

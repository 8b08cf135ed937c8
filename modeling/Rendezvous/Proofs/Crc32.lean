/-
Rendezvous/Proofs/Crc32.lean

Short changes of a message.

One bit of the check is linear and loses nothing (`shift_xor`, `shift_injective`),
and it only halves an even register, so it can be traced back: registers that
become equal by taking in `n` octets each can have differed in their lowest
`8 * n` bits only, and they were equal before only if the octets are the same
(`eq_of_foldl_feed`).  A register has room for four octets, so

    x ≠ y  →  checksum (front ++ x ++ back) ≠ checksum (front ++ y ++ back)

whenever `x` and `y` are of one length of at most four (`checksum_ne_of_burst`).
-/
import Mathlib.Algebra.Group.Nat.Defs
import Mathlib.Logic.Function.Iterate
import Rendezvous.Crc32

namespace Rendezvous.Crc32

variable {a b r s : UInt32}

/-! ### One bit -/

theorem and_one_eq_one_iff : a &&& 1 = 1 ↔ a.toNat % 2 = 1 := by
  rw [← UInt32.toNat_inj, UInt32.toNat_and]
  exact Eq.congr_left (Nat.and_one_is_mod a.toNat)

theorem shift_of_odd (h : a.toNat % 2 = 1) : shift a = (a >>> 1) ^^^ 0xEDB88320 :=
  if_pos (and_one_eq_one_iff.mpr h)

theorem shift_of_even (h : a.toNat % 2 = 0) : shift a = a >>> 1 := by
  refine if_neg fun hodd => ?_
  rw [and_one_eq_one_iff, h] at hodd
  cases hodd

/-- The check is linear. -/
theorem shift_xor (a b : UInt32) : shift (a ^^^ b) = shift a ^^^ shift b := by
  have hlow : (a ^^^ b).toNat % 2 = a.toNat % 2 ^^^ b.toNat % 2 := by
    rw [UInt32.toNat_xor]
    exact Nat.xor_mod_two_pow (n := 1)
  rcases Nat.mod_two_eq_zero_or_one a.toNat with ha | ha <;>
    rcases Nat.mod_two_eq_zero_or_one b.toNat with hb | hb <;> rw [ha, hb] at hlow
  · rw [shift_of_even hlow, shift_of_even ha, shift_of_even hb, UInt32.shiftRight_xor]
  · rw [shift_of_odd hlow, shift_of_even ha, shift_of_odd hb, UInt32.shiftRight_xor,
      UInt32.xor_assoc]
  · rw [shift_of_odd hlow, shift_of_odd ha, shift_of_even hb, UInt32.shiftRight_xor,
      UInt32.xor_assoc, UInt32.xor_assoc, UInt32.xor_comm (b >>> 1)]
  · -- the polynomial is taken off twice
    rw [shift_of_even hlow, shift_of_odd ha, shift_of_odd hb, UInt32.shiftRight_xor,
      UInt32.xor_assoc, UInt32.xor_comm (b >>> 1), ← UInt32.xor_assoc 0xEDB88320,
      UInt32.xor_self, UInt32.zero_xor]

/-- The highest bit of the polynomial is set, so nothing but zero is lost. -/
theorem eq_zero_of_shift (h : shift a = 0) : a = 0 := by
  have hhalf : (a >>> 1).toNat = a.toNat / 2 := by
    rw [UInt32.toNat_shiftRight]
    exact Nat.shiftRight_eq_div_pow a.toNat 1
  have hlt := a.toNat_lt
  rcases Nat.mod_two_eq_zero_or_one a.toNat with ha | ha
  · rw [shift_of_even ha] at h
    rw [h] at hhalf
    refine UInt32.toNat_inj.mp ?_
    show a.toNat = 0
    change 0 = a.toNat / 2 at hhalf
    omega
  · rw [shift_of_odd ha, UInt32.xor_eq_zero_iff] at h
    rw [h] at hhalf
    change 3988292384 = a.toNat / 2 at hhalf
    omega

theorem shift_injective : Function.Injective shift := by
  intro a b h
  rw [← UInt32.xor_eq_zero_iff] at h ⊢
  rw [← shift_xor] at h
  exact eq_zero_of_shift h

theorem shift_ofNat_two_mul {n : Nat} (h : 2 * n < 2 ^ 32) :
    shift (UInt32.ofNat (2 * n)) = UInt32.ofNat n := by
  have hdouble : (UInt32.ofNat (2 * n)).toNat = 2 * n := UInt32.toNat_ofNat_of_lt h
  have hhalf : (UInt32.ofNat n).toNat = n :=
    UInt32.toNat_ofNat_of_lt (Nat.lt_of_le_of_lt (Nat.le_mul_of_pos_left n Nat.zero_lt_two) h)
  have heven : (UInt32.ofNat (2 * n)).toNat % 2 = 0 := by rw [hdouble, Nat.mul_mod_right]
  rw [shift_of_even heven, ← UInt32.toNat_inj, UInt32.toNat_shiftRight, hdouble, hhalf]
  show (2 * n) >>> 1 = n
  rw [Nat.shiftRight_eq_div_pow, Nat.pow_one, Nat.mul_div_cancel_left n Nat.zero_lt_two]

/-! ### Several bits -/

theorem iterate_shift_xor (n : Nat) (a b : UInt32) :
    shift^[n] (a ^^^ b) = shift^[n] a ^^^ shift^[n] b := by
  induction n generalizing a b with
  | zero => rfl
  | succ n ih =>
    rw [Function.iterate_succ_apply, Function.iterate_succ_apply, Function.iterate_succ_apply,
      shift_xor, ih]

/-- Bits that are not there are shifted away. -/
theorem iterate_shift_ofNat {n m : Nat} (h : 2 ^ n * m < 2 ^ 32) :
    shift^[n] (UInt32.ofNat (2 ^ n * m)) = UInt32.ofNat m := by
  induction n with
  | zero => rw [Nat.pow_zero, Nat.one_mul, Function.iterate_zero_apply]
  | succ n ih =>
    have hdouble : 2 ^ (n + 1) * m = 2 * (2 ^ n * m) := by
      rw [Nat.pow_succ, Nat.mul_comm (2 ^ n), Nat.mul_assoc]
    rw [hdouble] at h ⊢
    rw [Function.iterate_succ_apply, shift_ofNat_two_mul h, ih (by omega)]

/-! ### Octets -/

theorem feed_eq (r : UInt32) (b : UInt8) : feed r b = shift^[8] (r ^^^ b.toUInt32) := rfl

theorem feed_left_injective (b : UInt8) : Function.Injective fun r => feed r b := by
  intro r s h
  have hxor := shift_injective.iterate 8 h
  rwa [UInt32.xor_left_inj] at hxor

/-- Registers that are different stay different as long as the octets are the
same. -/
theorem foldl_feed_injective (l : List UInt8) : Function.Injective fun r => l.foldl feed r := by
  induction l with
  | nil => exact Function.injective_id
  | cons b l ih => exact ih.comp (feed_left_injective b)

/-- How registers differed before an octet, if afterwards they differ in their
lower bits only. -/
theorem xor_eq_of_feed {b c : UInt8} (hroom : (feed r b ^^^ feed s c).toNat < 2 ^ 24) :
    r ^^^ s = UInt32.ofNat (2 ^ 8 * (feed r b ^^^ feed s c).toNat)
      ^^^ (b.toUInt32 ^^^ c.toUInt32) := by
  have hback : (r ^^^ s) ^^^ (b.toUInt32 ^^^ c.toUInt32)
      = UInt32.ofNat (2 ^ 8 * (feed r b ^^^ feed s c).toNat) := by
    refine shift_injective.iterate 8 ?_
    rw [iterate_shift_ofNat (by omega), UInt32.ofNat_toNat, feed_eq, feed_eq, ← iterate_shift_xor]
    congr 1
    ac_rfl
  rw [← hback, UInt32.xor_assoc, UInt32.xor_self, UInt32.xor_zero]

/-- **Tracing back.**  Registers that become equal by taking in octets differed
in as many of their lowest bits at most, and not at all only if the octets are
the same. -/
theorem eq_of_foldl_feed {x y : List UInt8} (hlength : x.length = y.length) (hfour : x.length ≤ 4)
    (h : x.foldl feed r = y.foldl feed s) :
    (r ^^^ s).toNat < 2 ^ (8 * x.length) ∧ (r = s → x = y) := by
  induction x generalizing y r s with
  | nil =>
    obtain rfl := List.length_eq_zero_iff.mp hlength.symm
    obtain rfl : r = s := h
    rw [UInt32.xor_self]
    exact ⟨Nat.zero_lt_one, fun _ => rfl⟩
  | cons b x ih =>
    rcases y with _ | ⟨c, y⟩
    · cases hlength
    rw [List.length_cons] at hfour ⊢
    obtain ⟨hlow, hrest⟩ := ih (Nat.succ.inj hlength) (Nat.le_of_succ_le hfour) h
    have hroom : (feed r b ^^^ feed s c).toNat < 2 ^ 24 :=
      Nat.lt_of_lt_of_le hlow (Nat.pow_le_pow_right Nat.zero_lt_two (by omega))
    have hdiff := xor_eq_of_feed hroom
    have hhigh : (UInt32.ofNat (2 ^ 8 * (feed r b ^^^ feed s c).toNat)).toNat
        = 2 ^ 8 * (feed r b ^^^ feed s c).toNat :=
      UInt32.toNat_ofNat_of_lt (Nat.mul_lt_mul_of_pos_left hroom (Nat.two_pow_pos 8))
    have hoctet : (b.toUInt32 ^^^ c.toUInt32).toNat < 2 ^ 8 := by
      rw [UInt32.toNat_xor]
      exact Nat.xor_lt_two_pow b.toNat_lt c.toNat_lt
    constructor
    · rw [hdiff, UInt32.toNat_xor, hhigh]
      refine Nat.xor_lt_two_pow ?_ (Nat.lt_of_lt_of_le hoctet ?_)
      · rw [Nat.mul_succ, Nat.add_comm, Nat.pow_add]
        exact Nat.mul_lt_mul_of_pos_left hlow (Nat.two_pow_pos 8)
      · exact Nat.pow_le_pow_right Nat.zero_lt_two (by omega)
    · rintro rfl
      -- the octets differ below the eighth bit, what comes after them above it
      rw [UInt32.xor_self] at hdiff
      have hsame := UInt32.xor_eq_zero_iff.mp hdiff.symm
      rw [← hsame, hhigh] at hoctet
      have hzero : (feed r b ^^^ feed r c).toNat = 0 := by omega
      rw [hzero, Nat.mul_zero] at hsame
      have hword : b.toUInt32 = c.toUInt32 := UInt32.xor_eq_zero_iff.mp hsame.symm
      obtain rfl : b = c := UInt8.toNat_inj.mp (congrArg UInt32.toNat hword)
      rw [hrest rfl]

/-- **A change of up to four octets in a row is noticed.** -/
theorem checksum_ne_of_burst {x y : List UInt8} (hlength : x.length = y.length)
    (hfour : x.length ≤ 4) (hne : x ≠ y) (front back : List UInt8) :
    checksum (front ++ x ++ back) ≠ checksum (front ++ y ++ back) := by
  intro h
  rw [checksum, checksum, UInt32.xor_left_inj] at h
  simp only [List.foldl_append] at h
  exact hne ((eq_of_foldl_feed hlength hfour (foldl_feed_injective back h)).2 rfl)

end Rendezvous.Crc32

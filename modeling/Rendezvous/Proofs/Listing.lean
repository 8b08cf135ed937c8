/-
Rendezvous/Proofs/Listing.lean

Addresses in ascending order, each once.

The order of addresses is total and tells any two of them apart.  So a listing of
some addresses ascends strictly (`ascending_listing`) and has exactly these
(`mem_listing`), and there is only one such list.  It is shorter than what it lists as
soon as an address is there twice (`length_listing_eq_iff`).
-/
import Mathlib.Algebra.BigOperators.Group.List.Lemmas
import Mathlib.Algebra.GroupWithZero.Nat
import Mathlib.Order.Defs.LinearOrder
import Rendezvous.Address

namespace Rendezvous

/-! ### The order of addresses -/

namespace Octets

variable {n : Nat}

instance : Std.TransCmp (compare (n := n)) :=
  have _hlists : Std.TransCmp fun x y : List UInt8 => compareOfLessAndEq x y :=
    Std.TransOrd.compareOfLessAndEq_of_antisymm_of_trans_of_total_of_not_le
      List.le_antisymm List.le_trans List.le_total List.not_le
  inferInstanceAs
    (Std.TransCmp (Ordering.byKey (toList (n := n)) fun x y => compareOfLessAndEq x y))

theorem isLE_compare_trans {a b c : Octets n} (hab : (a.compare b).isLE)
    (hbc : (b.compare c).isLE) : (a.compare c).isLE := Std.TransCmp.isLE_trans hab hbc

theorem eq_of_compare {a b : Octets n} (h : a.compare b = .eq) : a = b := by
  rw [compare] at h
  split at h
  · cases h
  · split at h
    · rename_i heq
      cases a
      cases b
      cases heq
      rfl
    · cases h

end Octets

namespace IpAddr

instance : Std.TransCmp compare where
  eq_swap := by
    rintro (a | a) (b | b)
    · exact (Std.OrientedCmp.eq_swap : a.compare b = (b.compare a).swap)
    · rfl
    · rfl
    · exact (Std.OrientedCmp.eq_swap : a.compare b = (b.compare a).swap)
  isLE_trans := by
    rintro (a | a) (b | b) (c | c) hab hbc
    · exact Octets.isLE_compare_trans hab hbc
    · rfl
    · cases hbc
    · rfl
    · cases hab
    · cases hab
    · cases hbc
    · exact Octets.isLE_compare_trans hab hbc

theorem eq_of_compare {a b : IpAddr} (h : a.compare b = .eq) : a = b := by
  rcases a with a | a <;> rcases b with b | b
  · rw [Octets.eq_of_compare h]
  · cases h
  · cases h
  · rw [Octets.eq_of_compare h]

end IpAddr

namespace SocketAddr

/-- One address comes before another. -/
def Before (a b : SocketAddr) : Prop := a.compare b = .lt

instance : Std.TransCmp compare :=
  inferInstanceAs (Std.TransCmp (compareLex (Ordering.byKey ip IpAddr.compare)
    (compareLex (compareOn fun a : SocketAddr => a.port.toNat)
      (compareOn fun a : SocketAddr => a.scope.toNat))))

instance : Std.LawfulEqCmp compare where
  eq_of_compare := by
    rintro ⟨ip, port, scope⟩ ⟨ip', port', scope'⟩ h
    rw [compare, Ordering.then_eq_eq, Ordering.then_eq_eq, Nat.compare_eq_eq,
      Nat.compare_eq_eq] at h
    obtain ⟨hip, hport, hscope⟩ := h
    obtain rfl := IpAddr.eq_of_compare hip
    obtain rfl := UInt16.toNat_inj.mp hport
    obtain rfl := UInt32.toNat_inj.mp hscope
    rfl

variable {a b c : SocketAddr}

theorem le_iff : a.le b ↔ (a.compare b).isLE := by
  rw [le]
  cases a.compare b <;> decide

theorem le_antisymm (hab : a.le b) (hba : b.le a) : a = b :=
  Std.LawfulEqCmp.eq_of_compare (Std.OrientedCmp.isLE_antisymm (le_iff.mp hab) (le_iff.mp hba))

theorem before_of_le_of_ne (h : a.le b) (hne : a ≠ b) : a.Before b := by
  rw [le_iff] at h
  rw [Before]
  cases hcompare : a.compare b with
  | lt => rfl
  | eq => exact absurd (Std.LawfulEqCmp.eq_of_compare hcompare) hne
  | gt =>
    rw [hcompare] at h
    cases h

theorem Before.ne (h : a.Before b) : a ≠ b := by
  rintro rfl
  cases Std.ReflCmp.compare_self.symm.trans h

/-! ### Listings -/

theorem mem_collapse {l : List SocketAddr} : a ∈ collapse l ↔ a ∈ l := by
  fun_induction collapse l with
  | case1 b rest ih =>
    rw [ih, List.mem_cons, List.mem_cons (l := b :: rest), List.mem_cons, or_self_left]
  | case2 b c rest hne ih => rw [List.mem_cons, ih, ← List.mem_cons]
  | case3 l => rfl

/-- What repetitions are taken out of ascends strictly if it ascended. -/
theorem pairwise_collapse {l : List SocketAddr} (h : l.Pairwise fun a b => a.le b) :
    (collapse l).Pairwise Before := by
  fun_induction collapse l with
  | case1 b rest ih => exact ih h.of_cons
  | case2 b c rest hne ih =>
    refine List.pairwise_cons.mpr ⟨fun d hd => ?_, ih h.of_cons⟩
    have hle : b.le d := List.rel_of_pairwise_cons h (mem_collapse.mp hd)
    refine before_of_le_of_ne hle ?_
    rintro rfl
    -- the next one would be the same as this
    have hbc : b.le c := List.rel_of_pairwise_cons h List.mem_cons_self
    rcases List.mem_cons.mp (mem_collapse.mp hd) with heq | hmem
    · exact hne heq
    · exact hne (le_antisymm hbc (List.rel_of_pairwise_cons h.of_cons hmem))
  | case3 l hshort =>
    rcases l with _ | ⟨b, _ | ⟨c, rest⟩⟩
    · exact List.Pairwise.nil
    · exact List.pairwise_singleton _ _
    · exact absurd rfl (hshort b c rest)

/-- **A listing ascends strictly.** -/
theorem ascending_listing (l : List SocketAddr) : (listing l).Pairwise Before := by
  refine pairwise_collapse (List.pairwise_mergeSort ?_ ?_ l)
  · intro a b c hab hbc
    exact le_iff.mpr (Std.TransCmp.isLE_trans (le_iff.mp hab) (le_iff.mp hbc))
  · intro a b
    have hswap : b.compare a = (a.compare b).swap := Std.OrientedCmp.eq_swap
    rw [Bool.or_eq_true, le_iff, le_iff, hswap]
    cases a.compare b <;> simp

/-- A listing has what it lists. -/
theorem mem_listing {l : List SocketAddr} : a ∈ listing l ↔ a ∈ l := by
  rw [listing, mem_collapse, List.mem_mergeSort]

theorem nodup_listing (l : List SocketAddr) : (listing l).Nodup :=
  (ascending_listing l).imp Before.ne

/-- A listing has each of the different addresses. -/
theorem listing_perm_dedup (l : List SocketAddr) : (listing l).Perm l.dedup := by
  rw [List.perm_ext_iff_of_nodup (nodup_listing l) l.nodup_dedup]
  intro a
  rw [mem_listing, List.mem_dedup]

/-- Every address of a list is counted once, with others like it. -/
theorem sum_count_listing (l : List SocketAddr) : ((listing l).map l.count).sum = l.length := by
  rw [((listing_perm_dedup l).map l.count).sum_eq]
  exact List.sum_map_count_dedup_eq_length l

theorem length_listing_le (l : List SocketAddr) : (listing l).length ≤ l.length := by
  rw [(listing_perm_dedup l).length_eq]
  exact l.dedup_sublist.length_le

/-- A listing is as long as what it lists if no address is there twice. -/
theorem length_listing_eq_iff {l : List SocketAddr} : (listing l).length = l.length ↔ l.Nodup := by
  rw [(listing_perm_dedup l).length_eq]
  constructor
  · intro h
    exact List.dedup_eq_self.mp (l.dedup_sublist.eq_of_length h)
  · intro h
    rw [h.dedup]

/-- The address of a port, where the host makes no difference. -/
def atPort (port : UInt16) : SocketAddr := ⟨.v4 (.zero 4), port, 0⟩

end SocketAddr

end Rendezvous

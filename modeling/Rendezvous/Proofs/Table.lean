/-
Rendezvous/Proofs/Table.lean

Tables as maps.

What a table gives under each key after one of its operations
(`get?_insert`, `get?_erase`, `get?_insertAll`), and that this is all there is
to a table (`ext_get?`).

A map may also be met as a list of its entries in some order.  Such an
enumeration is a permutation of the entries of the table, and looking a key up
in it gives the same value (`lookup_enumeration`).
-/
import Mathlib.Data.List.Nodup
import Rendezvous.Table

namespace Rendezvous

variable {α β : Type}

/-! ### Entry lists -/

theorem lookup_cons_eq_ite (k k₀ : String) (v₀ : α) (l : List (String × α)) :
    ((k₀, v₀) :: l).lookup k = if k = k₀ then some v₀ else l.lookup k := by
  rw [List.lookup_cons]
  by_cases h : k = k₀
  · rw [if_pos h, beq_iff_eq.mpr h]
  · rw [if_neg h, beq_eq_false_iff_ne.mpr h]

theorem lookup_insertEntry (k k' : String) (v : α) (l : List (String × α)) :
    (insertEntry k v l).lookup k' = if k' = k then some v else l.lookup k' := by
  induction l with
  | nil => exact lookup_cons_eq_ite k' k v []
  | cons e rest ih =>
    obtain ⟨k₀, v₀⟩ := e
    rw [insertEntry]
    split
    · exact lookup_cons_eq_ite k' k v _
    · split
      · -- the entry is replaced
        rename_i heq
        subst heq
        rw [lookup_cons_eq_ite, lookup_cons_eq_ite]
        by_cases h : k' = k <;> simp [h]
      · -- the entry comes first
        rename_i hne
        rw [lookup_cons_eq_ite, lookup_cons_eq_ite, ih]
        by_cases h₀ : k' = k₀
        · have hk : k' ≠ k := fun h => hne (h.symm.trans h₀)
          rw [if_pos h₀, if_neg hk, if_pos h₀]
        · rw [if_neg h₀, if_neg h₀]

/-- The keys of an ascending list are pairwise different. -/
theorem Ascending.nodup_keys {l : List (String × α)} (h : Ascending l) :
    (l.map Prod.fst).Nodup := by
  refine List.pairwise_map.mpr (h.imp ?_)
  intro a b hab heq
  exact String.lt_irrefl _ (heq ▸ hab)

/-- Where keys are pairwise different, looking up finds exactly the entries. -/
theorem lookup_eq_some_iff_mem {l : List (String × α)} (h : (l.map Prod.fst).Nodup)
    (k : String) (v : α) : l.lookup k = some v ↔ (k, v) ∈ l := by
  induction l with
  | nil => simp
  | cons e rest ih =>
    obtain ⟨k₀, v₀⟩ := e
    rw [List.map_cons, List.nodup_cons] at h
    obtain ⟨hfresh, hrest⟩ := h
    rw [lookup_cons_eq_ite, List.mem_cons, Prod.mk.injEq]
    by_cases hk : k = k₀
    · subst hk
      have hnot : (k, v) ∉ rest := fun hm => hfresh (List.mem_map.mpr ⟨_, hm, rfl⟩)
      simp [hnot, eq_comm]
    · simp [hk, ih hrest]

/-- Two ascending lists with the same entries are equal. -/
theorem Ascending.ext {l l' : List (String × α)} (h : Ascending l) (h' : Ascending l')
    (hmem : ∀ e, e ∈ l ↔ e ∈ l') : l = l' := by
  have irrefl : ∀ a b : String × α, a.1 < b.1 → a ≠ b := by
    intro a b hab heq
    exact String.lt_irrefl _ (heq ▸ hab)
  have hperm : l.Perm l' :=
    (List.perm_ext_iff_of_nodup (h.imp (irrefl _ _)) (h'.imp (irrefl _ _))).mpr hmem
  refine hperm.eq_of_pairwise ?_ h h'
  intro a b _ _ hab hba
  exact absurd hba (String.lt_asymm hab)

/-! ### Sorting by name

Whatever has pairwise different names is sorted in one way only. -/

theorem pairwise_sortByName (f : α → String) (l : List α) :
    (l.mergeSort fun a b => decide (f a ≤ f b)).Pairwise fun a b => f a ≤ f b := by
  have hsort : (l.mergeSort fun a b => decide (f a ≤ f b)).Pairwise
      fun a b => decide (f a ≤ f b) := by
    refine List.pairwise_mergeSort ?_ ?_ l
    · intro a b c hab hbc
      rw [decide_eq_true_eq] at *
      exact String.le_trans hab hbc
    · intro a b
      rw [Bool.or_eq_true, decide_eq_true_eq, decide_eq_true_eq]
      exact String.le_total _ _
  exact hsort.imp fun h => of_decide_eq_true h

/-- Pairwise different names are sorted strictly. -/
theorem ascending_sortByName (f : α → String) {l : List α} (h : (l.map f).Nodup) :
    ((l.mergeSort fun a b => decide (f a ≤ f b)).map f).Pairwise (· < ·) := by
  have hnodup : ((l.mergeSort fun a b => decide (f a ≤ f b)).map f).Nodup :=
    ((List.mergeSort_perm l _).map f).nodup_iff.mpr h
  refine ((List.pairwise_map.mpr (pairwise_sortByName f l)).and hnodup).imp ?_
  rintro k k' ⟨hle, hne⟩
  by_contra hnot
  exact hne (String.le_antisymm hle (String.not_lt.mp hnot))

theorem sortByName_eq_of_perm (f : α → String) {l l' : List α} (hperm : l.Perm l')
    (h : (l.map f).Nodup) :
    (l.mergeSort fun a b => decide (f a ≤ f b))
      = l'.mergeSort fun a b => decide (f a ≤ f b) := by
  have hsorted : ((l.mergeSort fun a b => decide (f a ≤ f b)).map f).Nodup :=
    ((List.mergeSort_perm l _).map f).nodup_iff.mpr h
  have hinj := List.inj_on_of_nodup_map hsorted
  have hboth : (l.mergeSort fun a b => decide (f a ≤ f b)).Perm
      (l'.mergeSort fun a b => decide (f a ≤ f b)) :=
    (List.mergeSort_perm l _).trans (hperm.trans (List.mergeSort_perm l' _).symm)
  refine hboth.eq_of_pairwise ?_ (pairwise_sortByName f l) (pairwise_sortByName f l')
  intro a b ha hb hab hba
  exact hinj ha (hboth.mem_iff.mpr hb) (String.le_antisymm hab hba)

/-! ### What a table gives -/

namespace Table

theorem get?_eq_some_iff {t : Table α} {k : String} {v : α} :
    t.get? k = some v ↔ (k, v) ∈ t.toList :=
  lookup_eq_some_iff_mem t.ascending.nodup_keys k v

/-- A table is what it gives under each key. -/
theorem ext_get? {t t' : Table α} (h : ∀ k, t.get? k = t'.get? k) : t = t' := by
  have hlist : t.toList = t'.toList := by
    refine t.ascending.ext t'.ascending ?_
    rintro ⟨k, v⟩
    rw [← get?_eq_some_iff, ← get?_eq_some_iff, h k]
  cases t
  cases t'
  subst hlist
  rfl

@[simp] theorem get?_empty (k : String) : (empty : Table α).get? k = none := rfl

theorem get?_insert (t : Table α) (k k' : String) (v : α) :
    (t.insert k v).get? k' = if k' = k then some v else t.get? k' :=
  lookup_insertEntry k k' v t.toList

@[simp] theorem get?_insert_self (t : Table α) (k : String) (v : α) :
    (t.insert k v).get? k = some v := by
  rw [get?_insert, if_pos rfl]

theorem get?_insert_ne (t : Table α) {k k' : String} (v : α) (h : k' ≠ k) :
    (t.insert k v).get? k' = t.get? k' := by
  rw [get?_insert, if_neg h]

theorem mem_toList_erase {t : Table α} {k : String} {e : String × α} :
    e ∈ (t.erase k).toList ↔ e ∈ t.toList ∧ e.1 ≠ k := by
  show e ∈ t.toList.filter (fun e => e.1 != k) ↔ _
  rw [List.mem_filter, bne_iff_ne]

theorem get?_erase (t : Table α) (k k' : String) :
    (t.erase k).get? k' = if k' = k then none else t.get? k' := by
  ext v
  rw [get?_eq_some_iff, mem_toList_erase]
  by_cases h : k' = k
  · simp [h]
  · simp [h, get?_eq_some_iff]

/-- A table of one entry has no other key. -/
theorem contains_insert_empty {k k' : String} {v : α} :
    (empty.insert k v).contains k' ↔ k' = k := by
  rw [contains, get?_insert]
  by_cases h : k' = k
  · rw [if_pos h]
    exact ⟨fun _ => h, fun _ => rfl⟩
  · rw [if_neg h]
    exact ⟨nofun, fun h' => absurd h' h⟩

/-! ### Several entries at once -/

/-- Of entries with pairwise different keys each stands, and under any other
key nothing changes. -/
theorem get?_insertAll (t : Table α) {l : List (String × α)} (h : (l.map Prod.fst).Nodup)
    (k : String) : (t.insertAll l).get? k = (l.lookup k).or (t.get? k) := by
  induction l generalizing t with
  | nil => rfl
  | cons e rest ih =>
    obtain ⟨k₀, v₀⟩ := e
    rw [List.map_cons, List.nodup_cons] at h
    obtain ⟨hfresh, hrest⟩ := h
    show ((t.insert k₀ v₀).insertAll rest).get? k = _
    rw [ih _ hrest, get?_insert, lookup_cons_eq_ite]
    by_cases hk : k = k₀
    · subst hk
      have hnone : rest.lookup k = none := by
        rw [List.lookup_eq_none_iff]
        intro e he
        have hne : k ≠ e.1 := fun heq => hfresh (List.mem_map.mpr ⟨e, he, heq.symm⟩)
        simpa using hne
      simp [hnone]
    · simp [hk]

/-- The values of one table over those of another. -/
theorem get?_insertAll_toList (t s : Table α) (k : String) :
    (t.insertAll s.toList).get? k = (s.get? k).or (t.get? k) :=
  get?_insertAll t s.ascending.nodup_keys k

/-- As before, with the values changed on the way. -/
theorem get?_insertAll_map (t : Table β) (s : Table α) (f : α → β) (k : String) :
    (t.insertAll (s.toList.map fun e => (e.1, f e.2))).get? k
      = ((s.get? k).map f).or (t.get? k) := by
  have hmap : (s.map f).get? k = (s.get? k).map f := by
    ext w
    rw [get?_eq_some_iff, Option.map_eq_some_iff]
    simp only [get?_eq_some_iff]
    constructor
    · intro hw
      obtain ⟨⟨k', v⟩, he, heq⟩ := List.mem_map.mp hw
      obtain ⟨rfl, rfl⟩ := Prod.mk.inj heq
      exact ⟨v, he, rfl⟩
    · rintro ⟨v, he, rfl⟩
      exact List.mem_map.mpr ⟨(k, v), he, rfl⟩
  rw [← hmap]
  exact get?_insertAll_toList t (s.map f) k

/-! ### Enumerations -/

theorem mem_keys_iff {t : Table α} {k : String} : k ∈ t.keys ↔ (t.get? k).isSome := by
  rw [keys, List.mem_map, Option.isSome_iff_exists]
  constructor
  · rintro ⟨⟨k, v⟩, he, rfl⟩
    exact ⟨v, get?_eq_some_iff.mpr he⟩
  · rintro ⟨v, hv⟩
    exact ⟨(k, v), get?_eq_some_iff.mp hv, rfl⟩

theorem enumeration_nodup_keys {t : Table α} {l : List (String × α)} (h : l.Perm t.toList) :
    (l.map Prod.fst).Nodup :=
  (h.map Prod.fst).nodup_iff.mpr t.ascending.nodup_keys

/-- In whichever order the entries of a table come, a key has the same value. -/
theorem lookup_enumeration {t : Table α} {l : List (String × α)} (h : l.Perm t.toList)
    (k : String) : l.lookup k = t.get? k := by
  ext v
  rw [lookup_eq_some_iff_mem (enumeration_nodup_keys h), h.mem_iff, get?_eq_some_iff]

end Table

end Rendezvous

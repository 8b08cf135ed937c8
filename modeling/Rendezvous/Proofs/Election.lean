/-
Rendezvous/Proofs/Election.lean

Who wins the vote.

A group of responders is known by its head, the one with the lowest name in it.
Which groups count, which of them is the largest and which of several largest ones
holds the lowest name can all be said of the heads, and without a word about the
order in which the responders come (`Wins`).  There is one winner unless there is
nobody (`exists_wins`, `Wins.unique`).

The vote sorts the responders, so the groups stand in the order of their heads
(`pairwise_groups`), and of the largest groups it takes the first
(`exists_of_largest_eq_some`).  Both together make that group the winner's
(`wins_iff`), and

    choose quorum l = some r  ↔  r wins, and at least `quorum` agree with it

whatever the order of `l` (`choose_exact`).
-/
import Rendezvous.Proofs.Vote

namespace Rendezvous.Reconciler

variable {quorum : Nat} {l l' rest : List Responder} {r s : Responder}
  {gs : List (List Responder)} {g : List Responder}

/-! ### Winning -/

/-- A responder heads those that agree with it: none of them has a lower name. -/
def Heads (l : List Responder) (r : Responder) : Prop :=
  r ∈ l ∧ ∀ s ∈ agreeing r l, r.1 ≤ s.1

/-- A responder heads a group that counts: its own tags unseal, or those of no
responder do that heads a group. -/
def Counts (l : List Responder) (r : Responder) : Prop :=
  Heads l r ∧ (Unseals r ∨ ∀ s, Heads l s → ¬ Unseals s)

/-- A responder heads the largest of the groups that count, and of several largest
ones that with the lowest name in it. -/
structure Wins (l : List Responder) (r : Responder) : Prop where
  counts : Counts l r
  largest : ∀ s, Counts l s → (agreeing s l).length ≤ (agreeing r l).length
  lowest : ∀ s, Counts l s → (agreeing s l).length = (agreeing r l).length →
    ∀ t ∈ agreeing s l, r.1 ≤ t.1

theorem mem_agreeing_self (h : r ∈ l) : r ∈ agreeing r l := mem_agreeing.mpr ⟨h, rfl⟩

theorem Wins.mem (h : Wins l r) : r ∈ l := h.counts.1.1

/-- **There are no two winners.** -/
theorem Wins.unique (hnames : (l.map Prod.fst).Nodup) (h : Wins l r) (h' : Wins l s) : r = s := by
  have hsize : (agreeing s l).length = (agreeing r l).length :=
    Nat.le_antisymm (h.largest s h'.counts) (h'.largest r h.counts)
  have hle : r.1 ≤ s.1 := h.lowest s h'.counts hsize s (mem_agreeing_self h'.mem)
  have hge : s.1 ≤ r.1 := h'.lowest r h.counts hsize.symm r (mem_agreeing_self h.mem)
  exact List.inj_on_of_nodup_map hnames h.mem h'.mem (String.le_antisymm hle hge)

/-! ### Groups and their heads -/

/-- A group of the sorted list begins with its head. -/
theorem heads_of_mem_groups (h : r :: rest ∈ groups (sortResponders l)) :
    Heads l r ∧ agreeing r (sortResponders l) = r :: rest := by
  obtain ⟨q, -, hq⟩ := mem_groups_iff.mp h
  have hr : r ∈ agreeing q (sortResponders l) := hq ▸ List.mem_cons_self ..
  -- the group is that of its first member
  have hballot : ballot r = ballot q := (mem_agreeing.mp hr).2
  have hself : agreeing r (sortResponders l) = r :: rest := (agreeing_congr hballot _).trans hq.symm
  have hmem : r ∈ l := (mem_agreeing.mp ((agreeing_sort_perm q l).mem_iff.mp hr)).1
  exact ⟨⟨hmem, le_of_agreeing_sort hself⟩, hself⟩

theorem ne_nil_of_mem_groups (h : g ∈ groups l) : g ≠ [] := by
  obtain ⟨r, hr, rfl⟩ := mem_groups_iff.mp h
  exact List.ne_nil_of_mem (mem_agreeing_self hr)

/-- Whoever heads a group begins one of the sorted list. -/
theorem exists_group_of_heads (hnames : (l.map Prod.fst).Nodup) (h : Heads l r) :
    ∃ rest, r :: rest ∈ groups (sortResponders l) ∧ agreeing r (sortResponders l) = r :: rest := by
  obtain ⟨rest, hgroup⟩ := agreeing_sort_of_lowest hnames h.1 h.2
  have hmem : r ∈ sortResponders l := (List.mergeSort_perm l _).mem_iff.mpr h.1
  exact ⟨rest, mem_groups_iff.mpr ⟨r, hmem, hgroup.symm⟩, hgroup⟩

theorem length_group (h : agreeing r (sortResponders l) = r :: rest) :
    rest.length + 1 = (agreeing r l).length := by
  rw [← (agreeing_sort_perm r l).length_eq, h, List.length_cons]

/-- **Groups come in the order of their heads**: the first of a group has a lower
name than all members of the groups behind. -/
theorem pairwise_groups (h : l.Pairwise fun a b => a.1 < b.1) :
    (groups l).Pairwise fun g k => ∀ r ∈ g.head?, ∀ s ∈ k, r.1 < s.1 := by
  induction l using groups.induct with
  | case1 =>
    rw [groups]
    exact List.Pairwise.nil
  | case2 r rest ih =>
    obtain ⟨hfirst, hrest⟩ := List.pairwise_cons.mp h
    rw [groups]
    refine List.pairwise_cons.mpr ⟨?_, ih (hrest.filter _)⟩
    intro k hk q hq s hs
    obtain rfl : r = q := Option.some.inj hq
    obtain ⟨q, -, rfl⟩ := mem_groups_iff.mp hk
    exact hfirst s (mem_dissenting.mp (mem_agreeing.mp hs).1).1

theorem pairwise_groups_sort (hnames : (l.map Prod.fst).Nodup) :
    (groups (sortResponders l)).Pairwise fun g k => ∀ r ∈ g.head?, ∀ s ∈ k, r.1 < s.1 :=
  pairwise_groups (List.pairwise_map.mp (ascending_sortByName Prod.fst hnames))

/-! ### Groups that count -/

theorem candidates_sublist (gs : List (List Responder)) : (candidates gs).Sublist gs := by
  show (if (gs.filter isSound).isEmpty then gs else gs.filter isSound).Sublist gs
  split
  · exact List.Sublist.refl _
  · exact List.filter_sublist

/-- Where no group is sound, all of them count. -/
theorem candidates_of_unsound (h : ∀ g ∈ gs, ¬ isSound g) : candidates gs = gs := by
  have hnone : gs.filter isSound = [] := List.filter_eq_nil_iff.mpr h
  rw [candidates, hnone]
  rfl

theorem mem_candidates_iff (hnames : (l.map Prod.fst).Nodup) :
    r :: rest ∈ candidates (groups (sortResponders l))
      ↔ r :: rest ∈ groups (sortResponders l) ∧ Counts l r := by
  by_cases hsound : ∃ s, Heads l s ∧ Unseals s
  · obtain ⟨s, hs, hunseals⟩ := hsound
    obtain ⟨others, hmem, -⟩ := exists_group_of_heads hnames hs
    rw [candidates_of_sound hmem (isSound_cons_iff.mpr hunseals), List.mem_filter, isSound_cons_iff]
    refine and_congr_right fun hgroup => ?_
    constructor
    · intro hr
      exact ⟨(heads_of_mem_groups hgroup).1, Or.inl hr⟩
    · rintro ⟨-, hr | hnobody⟩
      · exact hr
      · exact absurd hunseals (hnobody s hs)
  · have hnobody : ∀ s, Heads l s → ¬ Unseals s := fun s hs hunseals => hsound ⟨s, hs, hunseals⟩
    rw [candidates_of_unsound]
    · exact ⟨fun hgroup => ⟨hgroup, (heads_of_mem_groups hgroup).1, Or.inr hnobody⟩, And.left⟩
    · intro g hg
      rcases g with _ | ⟨s, others⟩
      · exact absurd rfl (ne_nil_of_mem_groups hg)
      · rw [isSound_cons_iff]
        exact hnobody s (heads_of_mem_groups hg).1

/-- Whoever heads a group that counts begins one of the candidates. -/
theorem exists_candidate_of_counts (hnames : (l.map Prod.fst).Nodup) (h : Counts l r) :
    ∃ rest, r :: rest ∈ candidates (groups (sortResponders l))
      ∧ agreeing r (sortResponders l) = r :: rest := by
  obtain ⟨rest, hmem, hgroup⟩ := exists_group_of_heads hnames h.1
  exact ⟨rest, (mem_candidates_iff hnames).mpr ⟨hmem, h⟩, hgroup⟩

/-! ### The first of the largest -/

/-- Of the groups before the one that is taken each is smaller, of those behind it
none is larger. -/
theorem exists_of_largest_eq_some (h : largest gs = some g) :
    ∃ front back, gs = front ++ g :: back ∧ (∀ k ∈ front, k.length < g.length)
      ∧ ∀ k ∈ back, k.length ≤ g.length := by
  induction gs generalizing g with
  | nil => cases h
  | cons k rest ih =>
    rcases hrest : largest rest with _ | m
    · have hk : largest (k :: rest) = some k := by rw [largest, hrest]
      cases hk.symm.trans h
      rw [largest_eq_none_iff.mp hrest]
      exact ⟨[], [], rfl, by simp, by simp⟩
    · have hk : largest (k :: rest) = if k.length < m.length then some m else some k := by
        rw [largest, hrest]
      obtain ⟨front, back, rfl, hfront, hback⟩ := ih hrest
      rw [hk] at h
      split at h
      · -- the first group is smaller than the one taken from the rest
        rename_i hlt
        cases h
        refine ⟨k :: front, back, rfl, ?_, hback⟩
        simpa using ⟨hlt, hfront⟩
      · rename_i hge
        cases h
        refine ⟨[], front ++ m :: back, rfl, by simp, ?_⟩
        intro j hj
        exact Nat.le_trans ((largest_spec hrest).2 j hj) (Nat.le_of_not_lt hge)

/-- The head of the group that is taken wins. -/
theorem wins_of_largest (hnames : (l.map Prod.fst).Nodup)
    (h : largest (candidates (groups (sortResponders l))) = some (r :: rest)) : Wins l r := by
  obtain ⟨front, back, hsplit, hfront, hback⟩ := exists_of_largest_eq_some h
  have hmem : r :: rest ∈ candidates (groups (sortResponders l)) := (largest_spec h).1
  obtain ⟨hgroup, hcounts⟩ := (mem_candidates_iff hnames).mp hmem
  have hself := (heads_of_mem_groups hgroup).2
  refine ⟨hcounts, ?_, ?_⟩
  · intro s hs
    obtain ⟨others, hcandidate, hothers⟩ := exists_candidate_of_counts hnames hs
    rw [← length_group hself, ← length_group hothers]
    exact (largest_spec h).2 _ hcandidate
  · intro s hs hsize t ht
    obtain ⟨others, hcandidate, hothers⟩ := exists_candidate_of_counts hnames hs
    rw [← length_group hself, ← length_group hothers] at hsize
    have ht' : t ∈ s :: others := hothers ▸ (agreeing_sort_perm s l).mem_iff.mpr ht
    -- a group of the same size is the one that is taken, or stands behind it
    rw [hsplit, List.mem_append, List.mem_cons] at hcandidate
    rcases hcandidate with hbefore | heq | hbehind
    · exact absurd hsize (Nat.ne_of_lt (hfront _ hbefore))
    · obtain ⟨rfl, rfl⟩ := List.cons.inj heq
      exact hcounts.1.2 t ht
    · have hordered := (pairwise_groups_sort hnames).sublist (candidates_sublist _)
      rw [hsplit] at hordered
      have hrest := (List.pairwise_cons.mp (List.pairwise_append.mp hordered).2.1).1
      exact Std.le_of_lt (hrest _ hbehind r rfl t ht')

theorem exists_largest (h : g ∈ candidates (groups (sortResponders l))) :
    ∃ r rest, largest (candidates (groups (sortResponders l))) = some (r :: rest) := by
  rcases hlargest : largest (candidates (groups (sortResponders l))) with _ | k
  · rw [largest_eq_none_iff.mp hlargest] at h
    cases h
  · have hk := (candidates_sublist _).subset (largest_spec hlargest).1
    obtain ⟨r, rest, rfl⟩ := List.exists_cons_of_ne_nil (ne_nil_of_mem_groups hk)
    exact ⟨r, rest, rfl⟩

/-- **The winner's group is the one that is taken.** -/
theorem wins_iff (hnames : (l.map Prod.fst).Nodup) :
    Wins l r ↔ ∃ rest, largest (candidates (groups (sortResponders l))) = some (r :: rest) := by
  constructor
  · intro hr
    obtain ⟨rest, hmem, -⟩ := exists_candidate_of_counts hnames hr.counts
    obtain ⟨s, others, hlargest⟩ := exists_largest hmem
    obtain rfl : r = s := hr.unique hnames (wins_of_largest hnames hlargest)
    exact ⟨others, hlargest⟩
  · rintro ⟨rest, h⟩
    exact wins_of_largest hnames h

theorem exists_counts (hne : l ≠ []) : ∃ r, Counts l r := by
  by_cases hsound : ∃ s, Heads l s ∧ Unseals s
  · obtain ⟨s, hs, hunseals⟩ := hsound
    exact ⟨s, hs, Or.inl hunseals⟩
  · -- any group will do, such as that of any responder
    obtain ⟨q, hq⟩ := List.exists_mem_of_ne_nil l hne
    have hgroup : agreeing q (sortResponders l) ∈ groups (sortResponders l) :=
      mem_groups_iff.mpr ⟨q, (List.mergeSort_perm l _).mem_iff.mpr hq, rfl⟩
    obtain ⟨r, rest, hr⟩ := List.exists_cons_of_ne_nil (ne_nil_of_mem_groups hgroup)
    rw [hr] at hgroup
    refine ⟨r, (heads_of_mem_groups hgroup).1, Or.inr fun s hs hunseals => hsound ⟨s, hs, hunseals⟩⟩

/-- **Somebody wins** unless there is nobody. -/
theorem exists_wins (hnames : (l.map Prod.fst).Nodup) (hne : l ≠ []) : ∃ r, Wins l r := by
  obtain ⟨q, hq⟩ := exists_counts hne
  obtain ⟨_, hmem, -⟩ := exists_candidate_of_counts hnames hq
  obtain ⟨r, rest, hlargest⟩ := exists_largest hmem
  exact ⟨r, wins_of_largest hnames hlargest⟩

/-! ### The choice -/

theorem choose_eq_of_perm (hperm : l'.Perm l) (hnames : (l.map Prod.fst).Nodup) :
    choose quorum l' = choose quorum l := by
  have hsort : sortResponders l = sortResponders l' :=
    sortByName_eq_of_perm Prod.fst hperm.symm hnames
  rw [choose, choose, hsort]

theorem choose_eq_some_iff_wins (hnames : (l.map Prod.fst).Nodup) :
    choose quorum l = some r ↔ Wins l r ∧ quorum ≤ (agreeing r l).length := by
  rw [choose_eq_some_iff, wins_iff hnames, ← exists_and_right]
  refine exists_congr fun rest => ?_
  rw [and_comm]
  refine and_congr_right fun hlargest => ?_
  have hgroup := ((mem_candidates_iff hnames).mp (largest_spec hlargest).1).1
  rw [length_group (heads_of_mem_groups hgroup).2]

/-- **The vote is settled by what the responders advertise.**

In whichever order they come, the same one is chosen.  Nobody is chosen exactly if
there is nobody, or fewer than the quorum agree with the winner; otherwise the
winner is, with its own tags. -/
theorem choose_exact {l : List Responder} (hnames : (l.map Prod.fst).Nodup) (quorum : Nat) :
    (∀ l', l'.Perm l → choose quorum l' = choose quorum l)
    ∧ (choose quorum l = none
      ↔ l = [] ∨ ∃ r, Wins l r ∧ (agreeing r l).length < quorum)
    ∧ ∀ r, choose quorum l = some r ↔ Wins l r ∧ quorum ≤ (agreeing r l).length := by
  refine ⟨fun l' hperm => choose_eq_of_perm hperm hnames, ?_,
    fun r => choose_eq_some_iff_wins hnames⟩
  rw [Option.eq_none_iff_forall_ne_some]
  constructor
  · intro hnobody
    by_cases hne : l = []
    · exact Or.inl hne
    · obtain ⟨r, hr⟩ := exists_wins hnames hne
      refine Or.inr ⟨r, hr, Nat.lt_of_not_le fun henough => ?_⟩
      exact hnobody r ((choose_eq_some_iff_wins hnames).mpr ⟨hr, henough⟩)
  · rintro hcases s hs
    obtain ⟨hwins, henough⟩ := (choose_eq_some_iff_wins hnames).mp hs
    rcases hcases with rfl | ⟨r, hr, hfew⟩
    · cases hwins.mem
    · rw [hwins.unique hnames hr] at henough
      exact absurd hfew (Nat.not_lt.mpr henough)

/-- Two responders that disagree, of which that with the lower name carries no
checksum. -/
def uneven : List Responder := [("b", lone.sealed), ("a", Table.empty)]

theorem not_unseals_empty : ¬ Unseals ("a", Table.empty) := by
  rintro ⟨t, ht⟩
  obtain ⟨-, v, hv, -⟩ := TagSet.unsealed_eq_ok_iff.mp ht
  cases hv

theorem wins_uneven : Wins uneven ("b", lone.sealed) := by
  have hb : ("b", lone.sealed) ∈ uneven := List.mem_cons_self ..
  have hunseals : Unseals ("b", lone.sealed) := ⟨_, lone.unsealed_sealed⟩
  have halone : agreeing ("b", lone.sealed) uneven = [("b", lone.sealed)] := by
    rw [uneven, agreeing_cons_self]
    exact congrArg _ (List.filter_eq_nil_iff.mpr (by decide))
  have hheads : Heads uneven ("b", lone.sealed) := by
    refine ⟨hb, fun s hs => ?_⟩
    rw [halone, List.mem_singleton] at hs
    exact Std.le_of_eq (congrArg Prod.fst hs.symm)
  -- as `b` carries the right checksum, `a` does not count
  have honly : ∀ s, Counts uneven s → s = ("b", lone.sealed) := by
    rintro s ⟨⟨hs, -⟩, hsound | hnobody⟩
    · rcases List.mem_cons.mp hs with rfl | hs
      · rfl
      · rw [List.mem_singleton.mp hs] at hsound
        exact absurd hsound not_unseals_empty
    · exact absurd hunseals (hnobody _ hheads)
  refine ⟨⟨hheads, Or.inl hunseals⟩, ?_, ?_⟩
  · intro s hs
    exact Nat.le_of_eq (by rw [honly s hs])
  · intro s hs _ t ht
    rw [honly s hs, halone, List.mem_singleton] at ht
    exact Std.le_of_eq (congrArg Prod.fst ht.symm)

/-- Of two groups of one size the one with the lower name yields to the one that
carries the right checksum. -/
theorem choose_exact_uneven : (uneven.map Prod.fst).Nodup
    ∧ choose 1 uneven = some ("b", lone.sealed)
    ∧ choose 1 uneven.reverse = some ("b", lone.sealed)
    ∧ choose 2 uneven = none := by
  have hnames : (uneven.map Prod.fst).Nodup := by decide
  have henough : 1 ≤ (agreeing ("b", lone.sealed) uneven).length :=
    List.length_pos_of_mem (mem_agreeing_self wins_uneven.mem)
  have hchosen : choose 1 uneven = some ("b", lone.sealed) :=
    ((choose_exact hnames 1).2.2 _).mpr ⟨wins_uneven, henough⟩
  refine ⟨hnames, hchosen, ?_, ?_⟩
  · rw [(choose_exact hnames 1).1 _ (List.reverse_perm _), hchosen]
  · refine (choose_exact hnames 2).2.1.mpr (Or.inr ⟨_, wins_uneven, ?_⟩)
    rw [uneven, agreeing_cons_self]
    decide

end Rendezvous.Reconciler

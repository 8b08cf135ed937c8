/-
Rendezvous/Proofs/Vote.lean

Who speaks for the responders.

The groups of a list of responders are the classes of those that agree
(`mem_groups_iff`), and only the first of each class, by name, is verified.
Hence the exact condition under which what is chosen unseals: the lowest name
among those that advertise one checksum and one cluster must belong to a set
that unseals, and they must be enough (`choose_unseals_iff`).

That a set unseals is not a matter of its checksum and cluster alone.  A
responder that copies these two from others, changes another tag and has the
lowest name among them spoils the group, and what is chosen then does not
unseal although enough responders are right (`copied_ballot_displaces`).
-/
import Rendezvous.Gossip.Reconciler
import Rendezvous.Proofs.Seal

namespace Rendezvous.Reconciler

/-! ### Groups -/

theorem mem_agreeing {q r : Responder} {l : List Responder} :
    q ∈ agreeing r l ↔ q ∈ l ∧ ballot q = ballot r := by
  rw [agreeing, List.mem_filter, decide_eq_true_eq]

theorem mem_dissenting {q r : Responder} {l : List Responder} :
    q ∈ dissenting r l ↔ q ∈ l ∧ ballot q ≠ ballot r := by
  rw [dissenting, List.mem_filter, decide_eq_true_eq]

theorem agreeing_congr {q r : Responder} (h : ballot q = ballot r) (l : List Responder) :
    agreeing q l = agreeing r l := by
  rw [agreeing, agreeing, h]

theorem agreeing_cons_self (r : Responder) (l : List Responder) :
    agreeing r (r :: l) = r :: agreeing r l := by
  rw [agreeing, List.filter_cons_of_pos (by simp), agreeing]

/-- Who does not agree with the first loses nobody when the first's group goes. -/
theorem agreeing_dissenting {q r : Responder} (h : ballot q ≠ ballot r) (l : List Responder) :
    agreeing q (dissenting r l) = agreeing q (r :: l) := by
  have hfirst : agreeing q (r :: l) = agreeing q l :=
    List.filter_cons_of_neg (by simpa using h.symm)
  rw [hfirst, agreeing, dissenting, List.filter_filter]
  refine List.filter_congr fun s _ => ?_
  by_cases hs : ballot s = ballot q
  · simp [hs, h]
  · simp [hs]

/-- **The groups of a list are the classes of its members.** -/
theorem mem_groups_iff {l g : List Responder} : g ∈ groups l ↔ ∃ r ∈ l, g = agreeing r l := by
  induction l using groups.induct with
  | case1 => simp [groups]
  | case2 r rest ih =>
    rw [groups, List.mem_cons, ih, ← agreeing_cons_self]
    constructor
    · rintro (rfl | ⟨q, hq, rfl⟩)
      · exact ⟨r, List.mem_cons_self .., rfl⟩
      · -- the later groups are classes in the whole list as well
        obtain ⟨hmem, hne⟩ := mem_dissenting.mp hq
        exact ⟨q, List.mem_cons_of_mem _ hmem, agreeing_dissenting hne rest⟩
    · rintro ⟨q, hq, rfl⟩
      by_cases heq : ballot q = ballot r
      · exact Or.inl (agreeing_congr heq _)
      · rcases List.mem_cons.mp hq with rfl | hmem
        · exact absurd rfl heq
        · exact Or.inr ⟨q, mem_dissenting.mpr ⟨hmem, heq⟩, (agreeing_dissenting heq rest).symm⟩

/-! ### The largest group -/

theorem largest_eq_none_iff {gs : List (List Responder)} : largest gs = none ↔ gs = [] := by
  rcases gs with _ | ⟨g, rest⟩
  · exact ⟨fun _ => rfl, fun _ => rfl⟩
  · refine ⟨fun h => ?_, nofun⟩
    rw [largest] at h
    split at h
    · split at h <;> cases h
    · cases h

theorem largest_spec {gs : List (List Responder)} {g : List Responder}
    (h : largest gs = some g) : g ∈ gs ∧ ∀ k ∈ gs, k.length ≤ g.length := by
  induction gs generalizing g with
  | nil => cases h
  | cons k rest ih =>
    rw [largest] at h
    split at h
    · rename_i m hm
      obtain ⟨hmem, hle⟩ := ih hm
      split at h
      · rename_i hlt
        cases h
        refine ⟨List.mem_cons_of_mem _ hmem, ?_⟩
        intro j hj
        rcases List.mem_cons.mp hj with rfl | hj
        · exact Nat.le_of_lt hlt
        · exact hle j hj
      · rename_i hlt
        cases h
        refine ⟨List.mem_cons_self .., ?_⟩
        intro j hj
        rcases List.mem_cons.mp hj with rfl | hj
        · exact Nat.le_refl _
        · exact Nat.le_trans (hle j hj) (Nat.le_of_not_lt hlt)
    · rename_i hnone
      cases h
      rw [largest_eq_none_iff.mp hnone]
      refine ⟨List.mem_singleton_self _, ?_⟩
      intro j hj
      rcases List.mem_singleton.mp hj with rfl
      exact Nat.le_refl _

/-! ### Groups that count -/

/-- The tags of a responder unseal. -/
def Unseals (r : Responder) : Prop := ∃ t, r.2.unsealed = .ok t

theorem isSound_cons_iff {r : Responder} {rest : List Responder} :
    isSound (r :: rest) ↔ Unseals r := by
  show (TagSet.unsealed r.2).toBool ↔ _
  rw [Unseals]
  rcases r.2.unsealed with e | t
  · exact ⟨nofun, nofun⟩
  · exact ⟨fun _ => ⟨t, rfl⟩, fun _ => rfl⟩

/-- As soon as one group is sound, only the sound ones count. -/
theorem candidates_of_sound {gs : List (List Responder)} {g : List Responder} (hg : g ∈ gs)
    (hsound : isSound g) : candidates gs = gs.filter isSound := by
  have hmem : g ∈ gs.filter isSound := List.mem_filter.mpr ⟨hg, hsound⟩
  have hne : ¬ (gs.filter isSound).isEmpty := by
    rw [List.isEmpty_iff]
    exact List.ne_nil_of_mem hmem
  show (if (gs.filter isSound).isEmpty then gs else gs.filter isSound) = _
  rw [if_neg hne]

theorem mem_of_mem_candidates {gs : List (List Responder)} {g : List Responder}
    (h : g ∈ candidates gs) : g ∈ gs := by
  have hcases : g ∈ if (gs.filter isSound).isEmpty then gs else gs.filter isSound := h
  split at hcases
  · exact hcases
  · exact (List.mem_filter.mp hcases).1

/-- Where a group is sound, the largest that counts is sound and no smaller. -/
theorem largest_of_sound {gs : List (List Responder)} {g : List Responder} (hg : g ∈ gs)
    (hsound : isSound g) : ∃ s others, largest (candidates gs) = some (s :: others)
      ∧ Unseals s ∧ g.length ≤ others.length + 1 := by
  have hin : g ∈ gs.filter isSound := List.mem_filter.mpr ⟨hg, hsound⟩
  have hcand : candidates gs = gs.filter isSound := candidates_of_sound hg hsound
  rcases hlargest : largest (candidates gs) with _ | k
  · rw [largest_eq_none_iff, hcand] at hlargest
    rw [hlargest] at hin
    cases hin
  · obtain ⟨hk, hmax⟩ := largest_spec hlargest
    rw [hcand] at hk hmax
    have hksound : isSound k := (List.mem_filter.mp hk).2
    rcases k with _ | ⟨s, others⟩
    · cases hksound
    · exact ⟨s, others, rfl, isSound_cons_iff.mp hksound, hmax g hin⟩

/-! ### The choice -/

theorem choose_eq_some_iff {quorum : Nat} {l : List Responder} {r : Responder} :
    choose quorum l = some r ↔ ∃ rest, quorum ≤ rest.length + 1
      ∧ largest (candidates (groups (sortResponders l))) = some (r :: rest) := by
  rw [choose]
  split
  · rename_i s rest hlargest
    rw [hlargest]
    split
    · rename_i hfew
      refine ⟨nofun, ?_⟩
      rintro ⟨rest', henough, heq⟩
      cases heq
      exact absurd hfew (Nat.not_lt.mpr henough)
    · rename_i henough
      constructor
      · intro h
        cases h
        exact ⟨rest, Nat.le_of_not_lt henough, rfl⟩
      · rintro ⟨rest', -, heq⟩
        cases heq
        rfl
  · rename_i hno
    refine ⟨nofun, ?_⟩
    rintro ⟨rest, -, heq⟩
    exact absurd heq (hno r rest)

/-- In the list sorted by name the same responders agree. -/
theorem agreeing_sort_perm (r : Responder) (l : List Responder) :
    (agreeing r (sortResponders l)).Perm (agreeing r l) :=
  (List.mergeSort_perm l _).filter _

/-- The first of a group has the lowest name in it. -/
theorem le_of_agreeing_sort {q r : Responder} {l rest : List Responder}
    (h : agreeing q (sortResponders l) = r :: rest) : ∀ s ∈ agreeing q l, r.1 ≤ s.1 := by
  intro s hs
  have hsorted : (r :: rest).Pairwise fun a b => a.1 ≤ b.1 :=
    h ▸ (pairwise_sortByName Prod.fst l).filter _
  have hmem : s ∈ r :: rest := h ▸ (agreeing_sort_perm q l).mem_iff.mpr hs
  rcases List.mem_cons.mp hmem with rfl | hrest
  · exact String.le_refl _
  · exact (List.pairwise_cons.mp hsorted).1 s hrest

/-- The responder with the lowest name in a group comes first in it. -/
theorem agreeing_sort_of_lowest {r : Responder} {l : List Responder}
    (h : (l.map Prod.fst).Nodup) (hr : r ∈ l) (hlow : ∀ s ∈ agreeing r l, r.1 ≤ s.1) :
    ∃ rest, agreeing r (sortResponders l) = r :: rest := by
  have hperm := agreeing_sort_perm r l
  have hself : r ∈ agreeing r (sortResponders l) :=
    hperm.mem_iff.mpr (mem_agreeing.mpr ⟨hr, rfl⟩)
  rcases hgroup : agreeing r (sortResponders l) with _ | ⟨first, rest⟩
  · rw [hgroup] at hself
    cases hself
  · -- the first has the name of `r`, so it is `r`
    have hfirst : first ∈ agreeing r l := hperm.mem_iff.mp (hgroup ▸ List.mem_cons_self ..)
    have hle : first.1 ≤ r.1 := le_of_agreeing_sort hgroup r (hperm.mem_iff.mp hself)
    have hname : first.1 = r.1 := String.le_antisymm hle (hlow first hfirst)
    have heq : first = r := List.inj_on_of_nodup_map h (mem_agreeing.mp hfirst).1 hr hname
    exact ⟨rest, by rw [heq]⟩

/-- What is chosen has the lowest name in its group, and the group is large
enough. -/
theorem lowest_of_choose {quorum : Nat} {l : List Responder} {r : Responder}
    (h : choose quorum l = some r) :
    r ∈ l ∧ (∀ s ∈ agreeing r l, r.1 ≤ s.1) ∧ quorum ≤ (agreeing r l).length := by
  obtain ⟨rest, henough, hlargest⟩ := choose_eq_some_iff.mp h
  have hgroup := mem_of_mem_candidates (largest_spec hlargest).1
  obtain ⟨q, -, hq⟩ := mem_groups_iff.mp hgroup
  have hperm := agreeing_sort_perm q l
  -- the group is that of its own first member
  have hr : r ∈ agreeing q (sortResponders l) := hq ▸ List.mem_cons_self ..
  have hclass : agreeing r l = agreeing q l := agreeing_congr (mem_agreeing.mp hr).2 l
  rw [hclass]
  refine ⟨(mem_agreeing.mp (hperm.mem_iff.mp hr)).1, le_of_agreeing_sort hq.symm, ?_⟩
  rw [← hperm.length_eq, ← hq]
  exact henough

/-- **What is chosen unseals** exactly if, among those that advertise the
checksum and the cluster of some responder, that responder has the lowest name,
its own tags unseal, and they are enough. -/
theorem choose_unseals_iff {quorum : Nat} {l : List Responder} (h : (l.map Prod.fst).Nodup) :
    (∃ r, choose quorum l = some r ∧ Unseals r) ↔
      ∃ r ∈ l, Unseals r ∧ (∀ s ∈ agreeing r l, r.1 ≤ s.1) ∧ quorum ≤ (agreeing r l).length := by
  constructor
  · rintro ⟨r, hchoose, hvalid⟩
    obtain ⟨hmem, hlow, henough⟩ := lowest_of_choose hchoose
    exact ⟨r, hmem, hvalid, hlow, henough⟩
  · rintro ⟨r, hr, hvalid, hlow, henough⟩
    -- the group of `r` is sound, so the one that wins is sound and as large
    obtain ⟨rest, hgroup⟩ := agreeing_sort_of_lowest h hr hlow
    have hmem : r :: rest ∈ groups (sortResponders l) :=
      mem_groups_iff.mpr ⟨r, (List.mergeSort_perm l _).mem_iff.mpr hr, hgroup.symm⟩
    obtain ⟨s, others, hlargest, hs, hlen⟩ := largest_of_sound hmem (isSound_cons_iff.mpr hvalid)
    refine ⟨s, choose_eq_some_iff.mpr ⟨others, ?_, hlargest⟩, hs⟩
    rw [← (agreeing_sort_perm r l).length_eq, hgroup] at henough
    exact Nat.le_trans henough hlen

/-! ### A copied checksum

One tag set as it was sealed, and the same with a tag added afterwards.
-/

/-- The tags of a node that names its cluster and nothing else. -/
def lone : TagSet := Table.empty.insert Tag.cluster "5c1e8ee0-0b8c-4f0e-9d3c-6f6a2b7c1d11"

/-- A tag added behind the checksum's back. -/
def altered : TagSet := lone.sealed.insert Tag.rpcPort "1"

theorem bare_altered : altered.bare = lone.insert Tag.rpcPort "1" := by
  refine Table.ext_get? fun k => ?_
  rw [TagSet.get?_bare, altered, Table.get?_insert, Table.get?_insert]
  by_cases hk : k = Tag.checksum
  · subst hk
    rfl
  · rw [if_neg hk, lone.get?_sealed_ne hk]

/-- The checksum notices. -/
theorem checksum_bare_altered : Checksum.of altered.bare ≠ Checksum.of lone.bare := by
  have hlone : Checksum.lines lone.bare.toList
      = ["RU5c1e8ee0-0b8c-4f0e-9d3c-6f6a2b7c1d11"] := by
    show ([_].mergeSort _).map _ = _
    rw [List.mergeSort_singleton]
    rfl
  have haltered : Checksum.lines altered.bare.toList
      = ["RU5c1e8ee0-0b8c-4f0e-9d3c-6f6a2b7c1d11", "Rport1"] := by
    rw [bare_altered, Checksum.lines, List.mergeSort_of_pairwise (by decide)]
    decide
  rw [Checksum.of, Checksum.of, Checksum.ofEntries, Checksum.ofEntries, Checksum.message,
    Checksum.message, hlone, haltered]
  decide +kernel

theorem not_unseals_altered (name : String) : ¬ Unseals (name, altered) := by
  rintro ⟨t, ht⟩
  obtain ⟨-, v, hv, hparse⟩ := TagSet.unsealed_eq_ok_iff.mp ht
  have htext : altered.get? Tag.checksum = some (Checksum.of lone.bare).text :=
    (Table.get?_insert_ne _ _ (by decide)).trans (Table.get?_insert_self ..)
  rw [htext] at hv
  cases hv
  rw [Checksum.parse_text] at hparse
  exact checksum_bare_altered (Except.ok.inj hparse).symm

/-- The checksum and the cluster are those of the set as it was sealed. -/
theorem ballot_altered (name name' : String) :
    ballot (name, altered) = ballot (name', lone.sealed) := by
  rw [ballot, ballot, altered, Table.get?_insert_ne _ _ (by decide),
    Table.get?_insert_ne _ _ (by decide)]

/-- A copy under a later name does no harm, and is counted with those it copies. -/
theorem later_copy_displaces_nobody :
    ¬ Unseals ("c", altered)
      ∧ ∃ r, choose 2 [("c", altered), ("b", lone.sealed)] = some r ∧ Unseals r := by
  have hgroup : agreeing ("b", lone.sealed) [("c", altered), ("b", lone.sealed)]
      = [("c", altered), ("b", lone.sealed)] := by
    rw [agreeing, List.filter_eq_self]
    intro s hs
    rcases List.mem_pair.mp hs with rfl | rfl
    · exact decide_eq_true (ballot_altered ..)
    · exact decide_eq_true rfl
  refine ⟨not_unseals_altered "c", (choose_unseals_iff (by decide)).mpr
    ⟨("b", lone.sealed), List.mem_cons_of_mem _ List.mem_cons_self, ?_, ?_, ?_⟩⟩
  · exact ⟨_, lone.unsealed_sealed⟩
  · rw [hgroup]
    intro s hs
    rcases List.mem_pair.mp hs with rfl | rfl
    · show "b" ≤ "c"
      decide
    · exact String.le_refl _
  · rw [hgroup]
    exact Nat.le_refl 2

/-- **Enough responders that are right do not suffice.**  A responder with a
lower name that has copied their checksum and cluster displaces them. -/
theorem copied_ballot_displaces :
    ¬ ∀ (quorum : Nat) (l : List Responder), (l.map Prod.fst).Nodup → 1 ≤ quorum →
      (∃ b, ∃ valid : List Responder, valid.Sublist l ∧ quorum ≤ valid.length
        ∧ ∀ r ∈ valid, Unseals r ∧ ballot r = b) →
      ∃ r, choose quorum l = some r ∧ Unseals r := by
  intro hclaim
  have henough : ∃ b, ∃ valid : List Responder,
      valid.Sublist [("a", altered), ("b", lone.sealed)] ∧ 1 ≤ valid.length
      ∧ ∀ r ∈ valid, Unseals r ∧ ballot r = b := by
    refine ⟨ballot ("b", lone.sealed), [("b", lone.sealed)], List.sublist_cons_self ..,
      Nat.le_refl 1, ?_⟩
    intro r hr
    rw [List.mem_singleton.mp hr]
    exact ⟨⟨_, lone.unsealed_sealed⟩, rfl⟩
  obtain ⟨r, hchoose, hvalid⟩ := hclaim 1 _ (by decide) (Nat.le_refl 1) henough
  obtain ⟨hr, hlow, -⟩ := lowest_of_choose hchoose
  rcases List.mem_cons.mp hr with rfl | hr
  · exact not_unseals_altered "a" hvalid
  · -- the other one has not the lowest name among those that agree
    rw [List.mem_singleton.mp hr] at hlow
    have hle := hlow ("a", altered) (mem_agreeing.mpr ⟨List.mem_cons_self, ballot_altered ..⟩)
    exact absurd hle (by decide)

end Rendezvous.Reconciler

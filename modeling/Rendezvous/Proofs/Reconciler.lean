/-
Rendezvous/Proofs/Reconciler.lean

What comes of an attempt at reconciliation.

An attempt goes through the entries of a tag set in some order.  The order makes
no difference (`reconcileEntries_enumeration`), since the checksum sorts what it
is over and the snapshot sorts its peers, whose identifiers differ because each
is read from one name only.

On any tag set whatsoever an attempt succeeds exactly if the set carries the
right checksum and names a cluster, and the peers of the snapshot are exactly
those whose tags are in the set (`reconcile_exact`).  Reconciling what a
configuration advertises gives the configuration back (`reconcile_build`).
-/
import Rendezvous.Gossip.Reconciler
import Rendezvous.Proofs.Publisher

namespace Rendezvous.Reconciler

/-! ### Peers among entries -/

/-- An entry counts as a peer exactly if it is the tag of that peer. -/
theorem read_entry_iff {e : String × String} {p : Peer} :
    (if Peer.isCompactId e.1 then (Peer.expand e.2 e.1).toOption else none) = some p
      ↔ e = p.tag := by
  rw [← Peer.expand_eq_ok_iff_tag]
  rcases hread : Peer.expand e.2 e.1 with f | q
  · refine ⟨fun h => ?_, nofun⟩
    split at h <;> cases h
  · -- what can be read has a name of the right shape
    have hkey : e.1 = Peer.compactId q.id := (Peer.expand_eq_ok_iff.mp hread).1
    rw [if_pos (Peer.isCompactId_iff.mpr ⟨q.id, hkey⟩)]
    show some q = some p ↔ _
    rw [Option.some.injEq, Except.ok.injEq]

/-- The peers are those whose tags are among the entries. -/
theorem mem_peersOf {l : List (String × String)} {p : Peer} : p ∈ peersOf l ↔ p.tag ∈ l := by
  rw [peersOf, List.mem_filterMap]
  simp only [read_entry_iff, exists_eq_right]

/-- Under different names stand peers with different identifiers. -/
theorem nodup_ids_peersOf {l : List (String × String)} (h : (l.map Prod.fst).Nodup) :
    ((peersOf l).map Peer.id).Nodup := by
  refine List.pairwise_map.mpr (List.pairwise_filterMap.mpr ?_)
  refine (List.pairwise_map.mp h).imp ?_
  intro e f hne p hp q hq hid
  rw [read_entry_iff] at hp hq
  apply hne
  -- one identifier makes one name
  rw [hp, hq]
  exact congrArg Peer.compactId hid

/-- The peers of a tag set, sorted, from any enumeration of its entries. -/
theorem sort_peersOf_enumeration {tags : TagSet} {l : List (String × String)}
    (h : l.Perm tags.toList) : Peer.sort (peersOf l) = Peer.sort (peersOf tags.toList) :=
  Peer.sort_eq_of_perm (h.filterMap _) (nodup_ids_peersOf (Table.enumeration_nodup_keys h))

/-! ### One attempt -/

/-- **The order in which the entries come makes no difference.** -/
theorem reconcileEntries_enumeration {tags : TagSet} {entries : List (String × String)}
    (h : entries.Perm tags.toList) (moment : Timestamp) :
    reconcileEntries entries moment = reconcile tags moment := by
  -- without the checksum the entries still come in some order
  have hbare : (TagSet.bareEntries entries).Perm tags.bare.toList := TagSet.bareEntries_perm h
  have hcluster : (TagSet.bareEntries entries).lookup Tag.cluster
      = (TagSet.bareEntries tags.toList).lookup Tag.cluster :=
    Table.lookup_enumeration hbare Tag.cluster
  have hpeers : Peer.sort (peersOf (TagSet.bareEntries entries))
      = Peer.sort (peersOf (TagSet.bareEntries tags.toList)) :=
    sort_peersOf_enumeration hbare
  rw [reconcile, reconcileEntries, reconcileEntries, TagSet.unsealedEntries_enumeration h]
  rcases hun : TagSet.unsealedEntries tags.toList with e | rest
  · rfl
  · obtain ⟨rfl, -⟩ := TagSet.unsealedEntries_eq_ok_iff.mp hun
    simp only [Except.map, bind, Except.bind, hcluster]
    rcases clusterOf ((TagSet.bareEntries tags.toList).lookup Tag.cluster) with e | id
    · rfl
    · show (⟨_, .ok (Snapshot.ofPeers id _ moment)⟩ : Attempt) = _
      rw [Snapshot.ofPeers, hpeers]
      rfl

theorem clusterOf_eq_ok_iff {value : Option String} {id : Uuid} :
    clusterOf value = .ok id ↔ ∃ v, value = some v ∧ Uuid.parse v = .ok id := by
  rcases value with _ | v
  · constructor
    · nofun
    · rintro ⟨v, hv, -⟩
      cases hv
  · rw [clusterOf]
    rcases hparse : Uuid.parse v with f | u
    · constructor
      · nofun
      · rintro ⟨w, hw, hok⟩
        cases hw
        rw [hparse] at hok
        cases hok
    · constructor
      · intro h
        cases h
        exact ⟨v, rfl, hparse⟩
      · rintro ⟨w, hw, hok⟩
        cases hw
        rw [hparse] at hok
        cases hok
        rfl

/-- An attempt at a set without the right checksum fails. -/
theorem reconcile_of_not_isSealed {tags : TagSet} (h : ¬ tags.IsSealed) (moment : Timestamp) :
    ∃ e, reconcile tags moment = ⟨[.validating, .failed], .error e⟩ := by
  rw [reconcile, reconcileEntries]
  rcases hun : TagSet.unsealedEntries tags.toList with e | rest
  · exact ⟨e, rfl⟩
  · exact absurd (TagSet.unsealedEntries_eq_ok_iff.mp hun).2 h

/-- With the right checksum all depends on the cluster. -/
theorem reconcile_of_isSealed {tags : TagSet} (h : tags.IsSealed) (moment : Timestamp) :
    reconcile tags moment = match clusterOf (tags.get? Tag.cluster) with
      | .error e => ⟨[.validating, .failed], .error e⟩
      | .ok id => ⟨[.validating, .expanding, .ready],
          .ok (.ofPeers id (peersOf tags.bare.toList) moment)⟩ := by
  have hun : TagSet.unsealedEntries tags.toList = .ok tags.bare.toList :=
    TagSet.unsealedEntries_eq_ok_iff.mpr ⟨rfl, h⟩
  have hcluster : tags.bare.toList.lookup Tag.cluster = tags.get? Tag.cluster :=
    (tags.get?_bare Tag.cluster).trans (if_neg (by decide))
  rw [reconcile, reconcileEntries, hun]
  simp only [bind, Except.bind, hcluster]
  rcases clusterOf (tags.get? Tag.cluster) with e | id
  · rfl
  · rfl

/-! ### Exactness -/

/-- The peers of a tag set. -/
theorem mem_peersOf_bare {tags : TagSet} {p : Peer} :
    p ∈ peersOf tags.bare.toList ↔ tags.get? (Peer.compactId p.id) = some p.compactBody := by
  have hname : Peer.compactId p.id ≠ Tag.checksum := Peer.compactId_ne (by decide) p.id
  rw [mem_peersOf, Peer.tag, ← Table.get?_eq_some_iff, tags.get?_bare, if_neg hname]

theorem ascending_peersOf_bare (tags : TagSet) :
    Peer.Ascending (Peer.sort (peersOf tags.bare.toList)) :=
  Peer.ascending_sort (nodup_ids_peersOf tags.bare.ascending.nodup_keys)

/-- **Reconciliation is exact on every tag set.**  The order of its entries
makes no difference.  It succeeds exactly if the set carries the checksum of its
other tags and names a cluster that can be read.  Then the snapshot is of that cluster, its peers ascend strictly, and a
peer is among them exactly if the set has what follows the identifier in its
compact record under the compact identifier.  No other states are entered than
those of a success or of a failure. -/
theorem reconcile_exact (tags : TagSet) (moment : Timestamp) :
    (∀ entries, entries.Perm tags.toList →
      reconcileEntries entries moment = reconcile tags moment)
    ∧ ((∃ s, (reconcile tags moment).result = .ok s) ↔
      (∃ v, tags.get? Tag.checksum = some v ∧ Checksum.parse v = .ok (Checksum.of tags.bare))
      ∧ ∃ v id, tags.get? Tag.cluster = some v ∧ Uuid.parse v = .ok id)
    ∧ (∀ s, (reconcile tags moment).result = .ok s →
      (reconcile tags moment).states = [.validating, .expanding, .ready]
      ∧ (∃ v, tags.get? Tag.cluster = some v ∧ Uuid.parse v = .ok s.clusterId)
      ∧ Peer.Ascending s.peers
      ∧ ∀ r, r ∈ s.peers ↔ tags.get? (Peer.compactId r.id)
          = some (String.ofList (r.compact.toList.drop Peer.compactWidth)))
    ∧ ∀ e, (reconcile tags moment).result = .error e →
      (reconcile tags moment).states = [.validating, .failed] := by
  refine ⟨fun entries h => reconcileEntries_enumeration h moment, ?_⟩
  by_cases hsealed : tags.IsSealed
  · rw [reconcile_of_isSealed hsealed]
    rcases hc : clusterOf (tags.get? Tag.cluster) with e | id
    · refine ⟨⟨nofun, ?_⟩, nofun, fun _ _ => rfl⟩
      -- a cluster that can be read makes no error
      rintro ⟨-, v, id, hv, hid⟩
      rw [clusterOf_eq_ok_iff.mpr ⟨v, hv, hid⟩] at hc
      cases hc
    · obtain ⟨v, hv, hid⟩ := clusterOf_eq_ok_iff.mp hc
      refine ⟨⟨fun _ => ⟨hsealed, v, id, hv, hid⟩, fun _ => ⟨_, rfl⟩⟩, ?_, nofun⟩
      rintro s hs
      cases hs
      refine ⟨rfl, ⟨v, hv, hid⟩, ascending_peersOf_bare tags, fun r => ?_⟩
      rw [Peer.ofList_drop_compact, ← mem_peersOf_bare]
      exact (Peer.sort_perm _).mem_iff
  · obtain ⟨e, he⟩ := reconcile_of_not_isSealed hsealed moment
    rw [he]
    exact ⟨⟨nofun, fun h => absurd h.1 hsealed⟩, nofun, fun _ _ => rfl⟩

/-! ### Round trip -/

section RoundTrip

variable {a : Advertised}

/-- What a configuration advertises under the compact identifier of a peer, if
neither a port nor a changing value has that name. -/
theorem value?_compactId (hids : (a.peers.map Peer.id).Nodup) {p : Peer}
    (hports : a.ports.get? (Peer.compactId p.id) = none)
    (hdynamic : a.dynamic.get? (Peer.compactId p.id) = none) :
    a.value? (Peer.compactId p.id) = some p.compactBody ↔ p ∈ a.peers := by
  have hcluster : Peer.compactId p.id ≠ Tag.cluster := Peer.compactId_ne (by decide) p.id
  have hrole : Peer.compactId p.id ≠ Tag.role := Peer.compactId_ne (by decide) p.id
  rw [Advertised.value?, hports, hdynamic, if_neg hcluster, if_neg hrole,
    ← Peer.lookup_tags_iff hids]
  rfl

/-- What it advertises as its cluster, if neither has that name. -/
theorem value?_cluster (hports : a.ports.get? Tag.cluster = none)
    (hdynamic : a.dynamic.get? Tag.cluster = none) :
    a.value? Tag.cluster = a.clusterId.map Uuid.text := by
  have hrole : Tag.cluster ≠ Tag.role := by decide
  have hnone : (a.peers.map Peer.tag).lookup Tag.cluster = none := by
    rw [List.lookup_eq_none_iff]
    intro e he
    obtain ⟨p, -, rfl⟩ := List.mem_map.mp he
    exact bne_iff_ne.mpr (Peer.compactId_ne (by decide) p.id).symm
  rw [Advertised.value?, hports, hdynamic, if_pos rfl, if_neg hrole, hnone]
  rcases a.clusterId with _ | id
  · rfl
  · rfl

/-- A name that a table does not use. -/
theorem get?_eq_none_of_free {β : Type} {t : Table β} {P : String → Prop}
    (h : ∀ k, t.contains k → P k) {k : String} (hk : ¬ P k) : t.get? k = none := by
  by_contra hne
  exact hk (h k (Option.isSome_iff_ne_none.mpr hne))

/-- **Publishing and reconciling loses nothing.**  The tags of a configuration
with different peers, in which neither a port nor a changing value takes the
name of the cluster or of a peer, bring its cluster and its peers back, in
whichever order the entries come.  Without a cluster the attempt fails. -/
theorem reconcile_build (hids : (a.peers.map Peer.id).Nodup)
    (hports : ∀ k, a.ports.contains k → k ≠ Tag.cluster ∧ Peer.isCompactId k = false)
    (hdynamic : ∀ k, a.dynamic.contains k → k ≠ Tag.cluster ∧ Peer.isCompactId k = false)
    (moment : Timestamp) :
    ∃ tags, a.build = .ok tags ∧ ∀ entries, entries.Perm tags.toList →
      match a.clusterId with
      | some id => ∃ peers, peers.Perm a.peers ∧ Peer.Ascending peers
          ∧ reconcileEntries entries moment
            = ⟨[.validating, .expanding, .ready], .ok ⟨id, peers, moment⟩⟩
      | none => ∃ e, reconcileEntries entries moment = ⟨[.validating, .failed], .error e⟩ := by
  obtain ⟨tags, hbuild, hsealed, hget⟩ := Advertised.build_eq_ok hids
  have hcluster : tags.get? Tag.cluster = a.clusterId.map Uuid.text := by
    have hfree : ¬ (Tag.cluster ≠ Tag.cluster ∧ Peer.isCompactId Tag.cluster = false) :=
      fun h => h.1 rfl
    rw [hget _ (by decide)]
    exact value?_cluster (get?_eq_none_of_free hports hfree) (get?_eq_none_of_free hdynamic hfree)
  have hmem : ∀ p, p ∈ peersOf tags.bare.toList ↔ p ∈ a.peers := by
    intro p
    have hfree : ¬ (Peer.compactId p.id ≠ Tag.cluster
        ∧ Peer.isCompactId (Peer.compactId p.id) = false) := by
      rintro ⟨-, hshape⟩
      rw [Peer.isCompactId_iff.mpr ⟨p.id, rfl⟩] at hshape
      cases hshape
    rw [mem_peersOf_bare, hget _ (Peer.compactId_ne (by decide) p.id)]
    exact value?_compactId hids (get?_eq_none_of_free hports hfree)
      (get?_eq_none_of_free hdynamic hfree)
  -- both lists are without repetition, so one is a permutation of the other
  have hperm : (peersOf tags.bare.toList).Perm a.peers := by
    have hread := nodup_ids_peersOf tags.bare.ascending.nodup_keys
    exact (List.perm_ext_iff_of_nodup hread.of_map hids.of_map).mpr hmem
  refine ⟨tags, hbuild, fun entries hentries => ?_⟩
  rw [reconcileEntries_enumeration hentries, reconcile_of_isSealed hsealed, hcluster]
  rcases a.clusterId with _ | id
  · exact ⟨_, rfl⟩
  · refine ⟨Peer.sort (peersOf tags.bare.toList), (Peer.sort_perm _).trans hperm,
      ascending_peersOf_bare tags, ?_⟩
    -- the cluster is read from its own text
    have hread : clusterOf (some id.text) = .ok id :=
      clusterOf_eq_ok_iff.mpr ⟨id.text, rfl, Uuid.parse_text id⟩
    rw [Option.map_some, hread]
    rfl

end RoundTrip

/-- Two peers out of order, one on each address family, a port and a value that
changes. -/
def twoPeers : Advertised :=
  { role := .server
    clusterId := some ⟨⟨List.replicate 16 7, rfl⟩⟩
    ports := Table.empty.insert Tag.httpPort 8080
    peers :=
      [⟨⟨⟨List.replicate 16 2, rfl⟩⟩, .v6 (.zero 16), 6000, 7000⟩,
        ⟨⟨⟨List.replicate 16 1, rfl⟩⟩, .v4 ⟨[127, 0, 0, 1], rfl⟩, 6001, 7001⟩]
    dynamic := Table.empty.insert Tag.leader "none yet" }

theorem reconcile_build_twoPeers :
    ∃ tags, twoPeers.build = .ok tags ∧ ∀ entries, entries.Perm tags.toList →
      ∃ peers, peers.Perm twoPeers.peers ∧ Peer.Ascending peers
        ∧ reconcileEntries entries default
          = ⟨[.validating, .expanding, .ready],
            .ok ⟨⟨⟨List.replicate 16 7, rfl⟩⟩, peers, default⟩⟩ := by
  refine reconcile_build (a := twoPeers) ?_ ?_ ?_ default
  · decide
  · intro k hk
    rw [Table.contains_insert_empty.mp hk]
    decide
  · intro k hk
    rw [Table.contains_insert_empty.mp hk]
    decide

end Rendezvous.Reconciler

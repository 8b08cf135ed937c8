/-
Rendezvous/Proofs/Publisher.lean

The tags of a configuration.

A configuration whose peers have pairwise different identifiers has a tag set
(`tags_eq_ok`).  What the set gives under a name is the first value there is
among

    changing value, port, cluster, role, peer record

(`value?`).  Sealing puts the checksum on top (`build_eq_ok`), so this is all there
is to the set (`build_eq_ok_iff`), and the order of the peers makes no difference
(`build_eq_of_perm`).  If two peers have one identifier there is no tag set, and the
fault names the first peer whose identifier has been before (`build_eq_error_iff`).
Nothing else can go wrong (`build_exact`).
-/
import Mathlib.Data.List.Induction
import Rendezvous.Gossip.Publisher
import Rendezvous.Proofs.Outcome
import Rendezvous.Proofs.Peer
import Rendezvous.Proofs.Seal

namespace Rendezvous

namespace Advertised

/-! ### Records of peers -/

theorem insertPeer_eq (t : TagSet) (p : Peer) :
    insertPeer t p = .ok (t.insert (Peer.compactId p.id) p.compactBody) := by
  rw [insertPeer, Peer.splitCompact_compact]
  rfl

/-- Peers that differ from each other and from those before are all put in. -/
theorem insertPeers_eq_ok {seen : List Uuid} {t : TagSet} {l : List Peer}
    (h : (l.map Peer.id).Nodup) (hseen : ∀ p ∈ l, p.id ∉ seen) :
    insertPeers seen t l = .ok (t.insertAll (l.map Peer.tag)) := by
  induction l generalizing seen t with
  | nil => rfl
  | cons p rest ih =>
    rw [List.map_cons, List.nodup_cons] at h
    obtain ⟨hfresh, hrest⟩ := h
    have hp : p.id ∉ seen := hseen p (List.mem_cons_self ..)
    -- the first peer is seen from here on
    have hseen' : ∀ q ∈ rest, q.id ∉ p.id :: seen := by
      intro q hq hmem
      rcases List.mem_cons.mp hmem with heq | hold
      · exact hfresh (heq ▸ List.mem_map_of_mem hq)
      · exact hseen q (List.mem_cons_of_mem _ hq) hold
    rw [insertPeers, if_neg hp, insertPeer_eq]
    exact ih hrest hseen'

/-! ### All tags -/

/-- What a configuration has under a name, other than the checksum. -/
def value? (a : Advertised) (k : String) : Option String :=
  (a.dynamic.get? k).or <|
  ((a.ports.get? k).map fun port => Text.decimal port.toNat).or <|
  (if k = Tag.cluster then a.clusterId.map Uuid.text else none).or <|
  (if k = Tag.role then some a.role.text else none).or <|
  (a.peers.map Peer.tag).lookup k

theorem tags_eq_ok {a : Advertised} (h : (a.peers.map Peer.id).Nodup) :
    ∃ t, a.tags = .ok t ∧ ∀ k, t.get? k = a.value? k := by
  have hpeers : insertPeers [] Table.empty a.peers
      = .ok (Table.empty.insertAll (a.peers.map Peer.tag)) :=
    insertPeers_eq_ok h fun _ _ => List.not_mem_nil
  rw [tags, hpeers]
  refine ⟨_, rfl, fun k => ?_⟩
  -- the values and the ports stand before what the other three make
  rw [Table.get?_insertAll_toList,
    Table.get?_insertAll_map _ a.ports fun port => Text.decimal port.toNat, value?]
  congr 2
  have hrecords : (Table.empty.insertAll (a.peers.map Peer.tag)).get? k
      = (a.peers.map Peer.tag).lookup k := by
    rw [Table.get?_insertAll _ (Peer.nodup_tags h), Table.get?_empty, Option.or_none]
  have hrole : ((Table.empty.insertAll (a.peers.map Peer.tag)).insert Tag.role a.role.text).get? k
      = (if k = Tag.role then some a.role.text else none).or
        ((a.peers.map Peer.tag).lookup k) := by
    rw [Table.get?_insert, hrecords]
    by_cases hk : k = Tag.role
    · rw [if_pos hk, if_pos hk, Option.some_or]
    · rw [if_neg hk, if_neg hk, Option.none_or]
  rcases a.clusterId with _ | id
  · rw [hrole, Option.map_none, ite_self, Option.none_or]
  · rw [Table.get?_insert, hrole, Option.map_some]
    by_cases hk : k = Tag.cluster
    · rw [if_pos hk, if_pos hk, Option.some_or]
    · rw [if_neg hk, if_neg hk, Option.none_or]

/-- **A configuration with different peers has a sealed tag set**, which gives
its values under every name but that of the checksum. -/
theorem build_eq_ok {a : Advertised} (h : (a.peers.map Peer.id).Nodup) :
    ∃ t, a.build = .ok t ∧ t.IsSealed ∧ ∀ k ≠ Tag.checksum, t.get? k = a.value? k := by
  obtain ⟨t, htags, hget⟩ := tags_eq_ok h
  refine ⟨t.sealed, ?_, t.isSealed_sealed, ?_⟩
  · rw [build, htags]
    rfl
  · intro k hk
    rw [t.get?_sealed_ne hk, hget]

/-- What a tag set gives under a name, if it is sealed over the values of a
configuration. -/
def under? (a : Advertised) (t : TagSet) (k : String) : Option String :=
  if k = Tag.checksum then some (Checksum.of t.bare).text else a.value? k

theorem get?_sealed {a : Advertised} {t : TagSet} (h : ∀ k, t.get? k = a.value? k) (k : String) :
    t.sealed.get? k = a.under? t.sealed k := by
  rw [under?, TagSet.bare_sealed]
  split
  · rename_i hk
    rw [hk]
    exact Table.get?_insert_self ..
  · rename_i hk
    rw [t.get?_sealed_ne hk, h]

/-- The checksum is over the values, so sets that give them have the same one. -/
theorem eq_of_under? {a : Advertised} {t u : TagSet} (ht : ∀ k, t.get? k = a.under? t k)
    (hu : ∀ k, u.get? k = a.under? u k) : t = u := by
  have hbare : t.bare = u.bare := by
    refine Table.ext_get? fun k => ?_
    rw [TagSet.get?_bare, TagSet.get?_bare]
    by_cases hk : k = Tag.checksum
    · rw [if_pos hk, if_pos hk]
    · rw [if_neg hk, if_neg hk, ht, hu, under?, under?, if_neg hk, if_neg hk]
  refine Table.ext_get? fun k => ?_
  rw [ht, hu, under?, under?, hbare]

/-! ### Peers with one identifier -/

/-- What is wrong with peers of which two have one identifier. -/
def duplicateId (id : Uuid) : Error :=
  .configuration ("Duplicate peer id " ++ id.text ++ " in advertised config")

/-- The first of some peers whose identifier has been before. -/
def FirstRepeated (l : List Peer) (p : Peer) : Prop :=
  ∃ before after, l = before ++ p :: after ∧ (before.map Peer.id).Nodup
    ∧ p.id ∈ before.map Peer.id

theorem FirstRepeated.not_nodup {l : List Peer} {p : Peer} (h : FirstRepeated l p) :
    ¬ (l.map Peer.id).Nodup := by
  obtain ⟨before, after, rfl, -, hp⟩ := h
  rw [List.map_append, List.map_cons]
  intro hnodup
  exact (List.nodup_append.mp hnodup).2.2 _ hp _ List.mem_cons_self rfl

theorem exists_firstRepeated {l : List Peer} (h : ¬ (l.map Peer.id).Nodup) :
    ∃ p, FirstRepeated l p := by
  induction l using List.reverseRecOn with
  | nil => exact absurd List.nodup_nil h
  | append_singleton l p ih =>
    by_cases hl : (l.map Peer.id).Nodup
    · -- the last peer is the first that repeats
      refine ⟨p, l, [], rfl, hl, ?_⟩
      by_contra hp
      refine h ?_
      rw [List.map_append]
      exact hl.append (List.nodup_singleton _) (List.disjoint_singleton.mpr hp)
    · obtain ⟨q, before, after, rfl, hq⟩ := ih hl
      exact ⟨q, before, after ++ [p], by rw [List.append_assoc, List.cons_append], hq⟩

/-- Peers are put in up to the first whose identifier has been before. -/
theorem insertPeers_eq_error {seen : List Uuid} {t : TagSet} {before after : List Peer} {p : Peer}
    (h : (before.map Peer.id).Nodup) (hseen : ∀ q ∈ before, q.id ∉ seen)
    (hp : p.id ∈ seen ∨ p.id ∈ before.map Peer.id) :
    insertPeers seen t (before ++ p :: after) = .error (duplicateId p.id) := by
  induction before generalizing seen t with
  | nil =>
    have hmem : p.id ∈ seen := hp.resolve_right List.not_mem_nil
    rw [List.nil_append, insertPeers, if_pos hmem]
    rfl
  | cons q before ih =>
    rw [List.map_cons, List.nodup_cons] at h
    obtain ⟨hfresh, hrest⟩ := h
    have hq : q.id ∉ seen := hseen q List.mem_cons_self
    have hseen' : ∀ r ∈ before, r.id ∉ q.id :: seen := by
      intro r hr hmem
      rcases List.mem_cons.mp hmem with heq | hold
      · exact hfresh (heq ▸ List.mem_map_of_mem hr)
      · exact hseen r (List.mem_cons_of_mem _ hr) hold
    -- from here on the first peer counts as seen
    have hp' : p.id ∈ q.id :: seen ∨ p.id ∈ before.map Peer.id := by
      rcases hp with hold | hnew
      · exact Or.inl (List.mem_cons_of_mem _ hold)
      · rcases List.mem_cons.mp hnew with heq | hmem
        · exact Or.inl (heq ▸ List.mem_cons_self)
        · exact Or.inr hmem
    rw [List.cons_append, insertPeers, if_neg hq, insertPeer_eq]
    exact ih hrest hseen' hp'

theorem build_eq_error {a : Advertised} {p : Peer} (h : FirstRepeated a.peers p) :
    a.build = .error (duplicateId p.id) := by
  obtain ⟨before, after, hpeers, hbefore, hp⟩ := h
  have hinsert : insertPeers [] Table.empty a.peers = .error (duplicateId p.id) := by
    rw [hpeers]
    exact insertPeers_eq_error hbefore (fun _ _ => List.not_mem_nil) (Or.inr hp)
  rw [build, tags, hinsert]
  rfl

/-! ### When there is a tag set -/

variable {a : Advertised} {t : TagSet} {e : Error}

/-- **A tag set is that of a configuration exactly if** the peers have different
identifiers and it gives, under every name, what it should. -/
theorem build_eq_ok_iff :
    a.build = .ok t ↔ (a.peers.map Peer.id).Nodup ∧ ∀ k, t.get? k = a.under? t k := by
  by_cases hnodup : (a.peers.map Peer.id).Nodup
  · obtain ⟨u, hu, hget⟩ := tags_eq_ok hnodup
    have hbuild : a.build = .ok u.sealed := by
      rw [build, hu]
      rfl
    have hentry := get?_sealed hget
    rw [hbuild]
    constructor
    · intro h
      cases h
      exact ⟨hnodup, hentry⟩
    · rintro ⟨-, ht⟩
      rw [eq_of_under? ht hentry]
  · obtain ⟨p, hp⟩ := exists_firstRepeated hnodup
    rw [build_eq_error hp]
    exact ⟨nofun, fun h => absurd h.1 hnodup⟩

/-- **The fault is that of the first peer whose identifier has been before.** -/
theorem build_eq_error_iff :
    a.build = .error e ↔ ∃ p, FirstRepeated a.peers p ∧ e = duplicateId p.id := by
  constructor
  · intro h
    by_cases hnodup : (a.peers.map Peer.id).Nodup
    · obtain ⟨t, ht, -⟩ := build_eq_ok hnodup
      rw [h] at ht
      cases ht
    · obtain ⟨p, hp⟩ := exists_firstRepeated hnodup
      rw [build_eq_error hp] at h
      exact ⟨p, hp, (Except.error.inj h).symm⟩
  · rintro ⟨p, hp, rfl⟩
    exact build_eq_error hp

/-- The records of peers do not depend on the order of the peers. -/
theorem lookup_tags_of_perm {l l' : List Peer} (hperm : l.Perm l') (h : (l.map Peer.id).Nodup)
    (k : String) : (l.map Peer.tag).lookup k = (l'.map Peer.tag).lookup k := by
  have h' : (l'.map Peer.id).Nodup := (hperm.map Peer.id).nodup_iff.mp h
  ext v
  rw [lookup_eq_some_iff_mem (Peer.nodup_tags h), lookup_eq_some_iff_mem (Peer.nodup_tags h'),
    (hperm.map Peer.tag).mem_iff]

/-- **The order of the peers makes no difference.** -/
theorem build_eq_of_perm {peers : List Peer} (hperm : peers.Perm a.peers)
    (h : (a.peers.map Peer.id).Nodup) : { a with peers }.build = a.build := by
  have hpeers : (peers.map Peer.id).Nodup := (hperm.map Peer.id).nodup_iff.mpr h
  obtain ⟨t, ht, -⟩ := build_eq_ok h
  rw [ht, build_eq_ok_iff]
  refine ⟨hpeers, fun k => ?_⟩
  rw [(build_eq_ok_iff.mp ht).2 k, under?, under?, value?, value?, lookup_tags_of_perm hperm hpeers]

/-- Under the name of a peer's tag stands the record of that peer. -/
theorem lookup_tags_eq (l : List Peer) (k : String) : (l.map Peer.tag).lookup k
    = (l.find? fun p => Peer.compactId p.id = k).map Peer.compactBody := by
  induction l with
  | nil => rfl
  | cons p rest ih =>
    rw [List.map_cons, List.find?_cons, Peer.tag, lookup_cons_eq_ite, ih]
    by_cases hk : Peer.compactId p.id = k
    · simp [hk]
    · simp [hk, Ne.symm hk]

/-- **What a configuration advertises.**  Every peer has a record that falls apart
into name and value.  There is no tag set exactly if two peers have one identifier,
and the fault names the first that repeats; otherwise the tag set is the one that
gives under every name the checksum over all else, or else the changing value, or
else the port, or else the cluster, or else the role, or else the record of the peer
with that compact identifier.  The order of the peers makes no difference. -/
theorem build_exact (a : Advertised) :
    (∀ p ∈ a.peers, Peer.splitCompact p.compact = .ok (Peer.compactId p.id, p.compactBody))
    ∧ ((∃ e, a.build = .error e) ↔ ¬ (a.peers.map Peer.id).Nodup)
    ∧ (∀ e, a.build = .error e ↔ ∃ p, FirstRepeated a.peers p ∧ e = duplicateId p.id)
    ∧ ((a.peers.map Peer.id).Nodup → ∃ t, a.build = .ok t)
    ∧ (∀ t, a.build = .ok t ↔ (a.peers.map Peer.id).Nodup ∧ ∀ k, t.get? k =
        if k = Tag.checksum then some (Checksum.of t.bare).text
        else (a.dynamic.get? k).or <|
          ((a.ports.get? k).map fun port => Text.decimal port.toNat).or <|
          (if k = Tag.cluster then a.clusterId.map Uuid.text else none).or <|
          (if k = Tag.role then some a.role.text else none).or <|
          (a.peers.find? fun p => Peer.compactId p.id = k).map Peer.compactBody)
    ∧ ∀ peers, peers.Perm a.peers → (a.peers.map Peer.id).Nodup →
        { a with peers }.build = a.build := by
  have hfails : (∃ e, a.build = .error e) ↔ ¬ (a.peers.map Peer.id).Nodup := by
    constructor
    · rintro ⟨e, he⟩
      obtain ⟨p, hp, -⟩ := build_eq_error_iff.mp he
      exact hp.not_nodup
    · intro hnodup
      obtain ⟨p, hp⟩ := exists_firstRepeated hnodup
      exact ⟨_, build_eq_error hp⟩
  refine ⟨fun p _ => Peer.splitCompact_compact p, hfails, fun e => build_eq_error_iff,
    fun hnodup => ?_, fun t => ?_, fun peers hperm hnodup => build_eq_of_perm hperm hnodup⟩
  · obtain ⟨t, ht, -⟩ := build_eq_ok hnodup
    exact ⟨t, ht⟩
  · simp only [build_eq_ok_iff, under?, value?, lookup_tags_eq]

/-- A configuration in which one name often means several things. -/
def crowded : Advertised where
  role := .proxy
  clusterId := some Uuid.nil
  ports := Table.ofList [(Tag.httpPort, 8080), (Tag.role, 80)]
  peers := [⟨Uuid.nil, .v4 (.zero 4), 6001, 9001⟩,
    ⟨⟨⟨List.replicate 16 3, rfl⟩⟩, .v6 (.zero 16), 6002, 9002⟩]
  dynamic := Table.ofList [(Tag.checksum, "00000000"), (Tag.httpPort, "none"),
    (Peer.compactId Uuid.nil, "gone")]

/-- It has a tag set, the same for the other order of the peers, and none if the
peers are all there twice. -/
theorem build_exact_crowded :
    (∃ t, crowded.build = .ok t ∧ { crowded with peers := crowded.peers.reverse }.build = .ok t
      ∧ t.get? Tag.checksum = some (Checksum.of t.bare).text
      ∧ t.get? Tag.httpPort = some "none" ∧ t.get? Tag.role = some "80"
      ∧ t.get? (Peer.compactId Uuid.nil) = some "gone")
    ∧ { crowded with peers := crowded.peers ++ crowded.peers }.build
      = .error (duplicateId Uuid.nil) := by
  have hnodup : (crowded.peers.map Peer.id).Nodup := by decide
  obtain ⟨-, -, -, hbuilds, hbuild, hperm⟩ := build_exact crowded
  obtain ⟨t, ht⟩ := hbuilds hnodup
  have hget := ((hbuild t).mp ht).2
  have hreverse := hperm crowded.peers.reverse (List.reverse_perm _) hnodup
  have hrepeated : FirstRepeated (crowded.peers ++ crowded.peers)
      ⟨Uuid.nil, .v4 (.zero 4), 6001, 9001⟩ :=
    ⟨crowded.peers, crowded.peers.tail, rfl, hnodup, by decide⟩
  obtain ⟨-, -, hfails, -⟩ := build_exact { crowded with peers := crowded.peers ++ crowded.peers }
  refine ⟨⟨t, ht, hreverse.trans ht, ?_, ?_, ?_, ?_⟩, (hfails _).mpr ⟨_, hrepeated, rfl⟩⟩
  · rw [hget, if_pos rfl]
  · rw [hget, if_neg (by decide)]
    rfl
  · rw [hget, if_neg (by decide)]
    rfl
  · rw [hget, if_neg (by decide)]
    rfl

end Advertised

end Rendezvous

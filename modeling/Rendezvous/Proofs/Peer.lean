/-
Rendezvous/Proofs/Peer.lean

Peers in ascending order, and peers in the space of a tag.

Sorting peers whose identifiers are pairwise different gives the one strictly
ascending list with the same peers (`ascending_sort`, `sort_eq_of_perm`).

The compact forms are read exactly:

    expandId key = .ok id       ↔  key = compactId id
    expand body key = .ok p     ↔  key = compactId p.id ∧ body = p.compactBody

and a compact record falls apart into these two (`splitCompact_compact`).  So
a name has the shape of a compact identifier for one identifier at most, and
compact forms are in bijection with what they stand for (`compaction_exact`).
-/
import Rendezvous.Peer.Compact
import Rendezvous.Proofs.Address
import Rendezvous.Proofs.Base64
import Rendezvous.Proofs.Table

namespace Rendezvous

namespace Peer

/-! ### Order -/

/-- The identifiers of a list of peers ascend strictly. -/
def Ascending (l : List Peer) : Prop := l.Pairwise fun p q => p.id.Before q.id

theorem sort_perm (l : List Peer) : (sort l).Perm l := List.mergeSort_perm l _

theorem pairwise_sort (l : List Peer) : (sort l).Pairwise fun p q => p.id.le q.id := by
  refine List.pairwise_mergeSort ?_ ?_ l
  · intro p q r hpq hqr
    exact Uuid.le_trans hpq hqr
  · intro p q
    rw [Bool.or_eq_true]
    exact Uuid.le_total p.id q.id

/-- Peers with pairwise different identifiers are sorted strictly. -/
theorem ascending_sort {l : List Peer} (h : (l.map id).Nodup) : Ascending (sort l) := by
  have hne : (sort l).Pairwise fun p q => p.id ≠ q.id :=
    List.pairwise_map.mp (((sort_perm l).map id).nodup_iff.mpr h)
  refine ((pairwise_sort l).and hne).imp ?_
  rintro p q ⟨hle, hneq⟩
  rcases Uuid.le_iff.mp hle with hlt | heq
  · exact hlt
  · exact absurd heq hneq

/-- Two strictly ascending lists with the same peers are equal. -/
theorem Ascending.eq_of_perm {l l' : List Peer} (h : Ascending l) (h' : Ascending l')
    (hperm : l.Perm l') : l = l' := by
  refine hperm.eq_of_pairwise ?_ h h'
  intro p q _ _ hpq hqp
  exact absurd (hpq.trans hqp) (Uuid.Before.irrefl _)

/-- Sorting does not depend on the order in which the peers come. -/
theorem sort_eq_of_perm {l l' : List Peer} (hperm : l.Perm l') (h : (l.map id).Nodup) :
    sort l = sort l' := by
  have h' : (l'.map id).Nodup := (hperm.map id).nodup_iff.mp h
  refine (ascending_sort h).eq_of_perm (ascending_sort h') ?_
  exact (sort_perm l).trans (hperm.trans (sort_perm l').symm)

/-! ### Identifiers -/

theorem octetsOf_compactId (id : Uuid) :
    Text.octetsOf (compactId id) = Base64.encode id.octets.toList :=
  Base64.octetsOf_text _

theorem length_encode_octets (id : Uuid) :
    (Base64.encode id.octets.toList).length = compactWidth := by
  rw [Base64.length_encode, id.octets.length_toList]
  rfl

theorem expandId_compactId (id : Uuid) : expandId (compactId id) = .ok id := by
  have hlen : ¬ (Base64.encode id.octets.toList).length ≠ compactWidth :=
    not_not_intro (length_encode_octets id)
  have hread : Base64.decode (Base64.encode id.octets.toList) = .ok id.octets.toList :=
    Base64.decode_eq_ok_iff.mpr rfl
  rw [expandId, octetsOf_compactId]
  show (if _ then _ else _) = _
  rw [if_neg hlen, hread]
  simp only [Octets.ofList?_toList]

/-- A name is read as an identifier exactly if it is its compact form. -/
theorem expandId_eq_ok_iff {key : String} {id : Uuid} :
    expandId key = .ok id ↔ key = compactId id := by
  constructor
  · intro h
    rw [expandId] at h
    split at h
    · cases h
    · split at h
      · cases h
      · rename_i l hread
        split at h
        · rename_i o hlist
          cases h
          rw [Octets.ofList?_eq_some_iff] at hlist
          rw [Base64.decode_octetsOf_iff] at hread
          rw [hread, hlist]
          rfl
        · cases h
  · rintro rfl
    exact expandId_compactId id

theorem isCompactId_iff {key : String} : isCompactId key ↔ ∃ id, key = compactId id := by
  simp only [← expandId_eq_ok_iff]
  rw [isCompactId]
  rcases expandId key with e | id
  · exact ⟨nofun, nofun⟩
  · exact ⟨fun _ => ⟨id, rfl⟩, fun _ => rfl⟩

/-- Different identifiers have different compact forms. -/
theorem compactId_injective {a b : Uuid} (h : compactId a = compactId b) : a = b := by
  have hb := expandId_eq_ok_iff.mpr h
  rw [expandId_compactId] at hb
  exact Except.ok.inj hb

/-! ### Address and ports -/

theorem ports?_eq_some_iff {l : List UInt8} {s c : UInt16} :
    ports? l = some (s, c) ↔ l = octetsOfWord s ++ octetsOfWord c := by
  constructor
  · intro h
    match l with
    | [a, b, c, d] =>
      cases h
      rw [octetsOfWord_wordOfOctets, octetsOfWord_wordOfOctets]
      rfl
    | [] | [_] | [_, _] | [_, _, _] | _ :: _ :: _ :: _ :: _ :: _ => cases h
  · rintro rfl
    show some (wordOfOctets _ _, wordOfOctets _ _) = _
    rw [wordOfOctets_octetsOfWord, wordOfOctets_octetsOfWord]

/-- An address of so many octets, and the ports after it. -/
theorem address_ports_iff {n : Nat} {rest : List UInt8} {o : Octets n} {s c : UInt16} :
    (Octets.ofList? n (rest.take n) = some o ∧ ports? (rest.drop n) = some (s, c))
      ↔ rest = o.toList ++ (octetsOfWord s ++ octetsOfWord c) := by
  rw [Octets.ofList?_eq_some_iff, ports?_eq_some_iff]
  constructor
  · rintro ⟨htake, hdrop⟩
    rw [← htake, ← hdrop, List.take_append_drop]
  · rintro rfl
    rw [List.take_left' o.length_toList, List.drop_left' o.length_toList]
    exact ⟨rfl, rfl⟩

/-- An address and the ports after it, as they are read behind a mark. -/
theorem read_address_iff {n : Nat} {wrap : Octets n → IpAddr} {rest : List UInt8}
    {ip : IpAddr} {s c : UInt16} :
    (do
      let o ← Octets.ofList? n (rest.take n)
      let ports ← ports? (rest.drop n)
      some (wrap o, ports)) = some (ip, s, c)
    ↔ ∃ o, wrap o = ip ∧ rest = o.toList ++ (octetsOfWord s ++ octetsOfWord c) := by
  simp only [← address_ports_iff, Option.bind_eq_bind, Option.bind_eq_some_iff,
    Option.some.injEq, Prod.mk.injEq]
  constructor
  · rintro ⟨o, ho, _, hports, rfl, rfl⟩
    exact ⟨o, rfl, ho, hports⟩
  · rintro ⟨o, rfl, ho, hports⟩
    exact ⟨o, ho, (s, c), hports, rfl, rfl⟩

theorem bodyOctets_v4 (id : Uuid) (o : Octets 4) (s c : UInt16) :
    bodyOctets ⟨id, .v4 o, s, c⟩
      = familyV4 :: (o.toList ++ (octetsOfWord s ++ octetsOfWord c)) := by
  simp only [bodyOctets, List.cons_append, List.append_assoc]

theorem bodyOctets_v6 (id : Uuid) (o : Octets 16) (s c : UInt16) :
    bodyOctets ⟨id, .v6 o, s, c⟩
      = familyV6 :: (o.toList ++ (octetsOfWord s ++ octetsOfWord c)) := by
  simp only [bodyOctets, List.cons_append, List.append_assoc]

/-- What follows the mark of the address family in a record. -/
theorem readBody?_eq_some_iff (id : Uuid) {family : UInt8} {rest : List UInt8} {ip : IpAddr}
    {s c : UInt16} : readBody? family rest = some (ip, s, c)
      ↔ bodyOctets ⟨id, ip, s, c⟩ = family :: rest := by
  have hmarks : familyV4 ≠ familyV6 := by decide
  rw [readBody?]
  split
  · rename_i hv4
    rw [read_address_iff, hv4]
    rcases ip with o | o
    · rw [bodyOctets_v4]
      simp [eq_comm]
    · rw [bodyOctets_v6]
      simp [hmarks.symm]
  · rename_i hv4
    split
    · rename_i hv6
      rw [read_address_iff, hv6]
      rcases ip with o | o
      · rw [bodyOctets_v4]
        simp [hmarks]
      · rw [bodyOctets_v6]
        simp [eq_comm]
    · rename_i hv6
      rcases ip with o | o
      · rw [bodyOctets_v4]
        simp [Ne.symm hv4]
      · rw [bodyOctets_v6]
        simp [Ne.symm hv6]

/-- The octets of a record are read exactly. -/
theorem ofOctets_eq_ok_iff {id : Uuid} {l : List UInt8} {p : Peer} :
    ofOctets id l = .ok p ↔ p.id = id ∧ l = p.bodyOctets := by
  obtain ⟨pid, ip, s, c⟩ := p
  constructor
  · intro h
    rcases l with _ | ⟨family, rest⟩
    · cases h
    · rw [ofOctets] at h
      split at h
      · rename_i hread
        cases h
        exact ⟨rfl, ((readBody?_eq_some_iff _).mp hread).symm⟩
      · cases h
  · rintro ⟨rfl, rfl⟩
    rcases hbody : bodyOctets ⟨pid, ip, s, c⟩ with _ | ⟨family, rest⟩
    · cases ip <;> cases hbody
    · rw [ofOctets, (readBody?_eq_some_iff pid).mpr hbody]

/-! ### Records -/

/-- **A tag is read as a peer exactly if it is the tag of that peer.** -/
theorem expand_eq_ok_iff {body key : String} {p : Peer} :
    expand body key = .ok p ↔ key = compactId p.id ∧ body = p.compactBody := by
  rw [expand]
  rcases hid : expandId key with e | id
  · refine ⟨nofun, ?_⟩
    rintro ⟨rfl, -⟩
    rw [expandId_compactId] at hid
    cases hid
  · rw [expandId_eq_ok_iff] at hid
    subst hid
    simp only [bind, Except.bind]
    rcases hread : Base64.decode (Text.octetsOf body) with f | l
    · refine ⟨nofun, ?_⟩
      rintro ⟨-, rfl⟩
      have hok := Base64.decode_octetsOf_iff.mpr (rfl : p.compactBody = Base64.text p.bodyOctets)
      rw [hread] at hok
      cases hok
    · rw [Base64.decode_octetsOf_iff] at hread
      subst hread
      show ofOctets id l = _ ↔ _
      rw [ofOctets_eq_ok_iff]
      constructor
      · rintro ⟨rfl, rfl⟩
        exact ⟨rfl, rfl⟩
      · rintro ⟨hkey, hbody⟩
        exact ⟨(compactId_injective hkey).symm, Base64.text_injective hbody⟩

/-! ### Cutting a compact record -/

/-- ASCII characters are cut off one octet each. -/
theorem splitOctets_append {w : List Char} (hw : ∀ c ∈ w, c.utf8Size = 1) (rest : List Char) :
    splitOctets w.length (w ++ rest) = some (w, rest) := by
  induction w with
  | nil => rw [List.length_nil, splitOctets]; rfl
  | cons c w ih =>
    have hc : c.utf8Size = 1 := hw c (List.mem_cons_self ..)
    have hrest := ih fun d hd => hw d (List.mem_cons_of_mem _ hd)
    rw [List.length_cons, List.cons_append, splitOctets, hc, if_pos (by omega),
      Nat.add_sub_cancel, hrest]
    rfl

theorem length_compactId (id : Uuid) : (compactId id).toList.length = compactWidth := by
  rw [compactId, Base64.text, String.toList_ofList, List.length_map, length_encode_octets]

theorem utf8Size_of_mem_compactId {id : Uuid} {c : Char} (h : c ∈ (compactId id).toList) :
    c.utf8Size = 1 := by
  rw [compactId, Base64.text, String.toList_ofList, List.mem_map] at h
  obtain ⟨b, hb, rfl⟩ := h
  exact Text.utf8Size_ofNat (Base64.encode_lt _ b hb)

/-- A compact record falls apart into the name and the value of its tag. -/
theorem splitCompact_compact (p : Peer) :
    splitCompact p.compact = .ok (compactId p.id, p.compactBody) := by
  have hcut := splitOctets_append (w := (compactId p.id).toList)
    (fun c hc => utf8Size_of_mem_compactId hc) p.compactBody.toList
  rw [length_compactId] at hcut
  rw [splitCompact, compact, String.toList_append, hcut]
  show Except.ok (String.ofList _, String.ofList _) = _
  rw [String.ofList_toList, String.ofList_toList]

/-- Nothing is lost where a list of characters is cut. -/
theorem append_of_splitOctets {n : Nat} {l w rest : List Char}
    (h : splitOctets n l = some (w, rest)) : w ++ rest = l := by
  fun_induction splitOctets n l generalizing w with
  | case1 l =>
    cases h
    rfl
  | case2 => cases h
  | case3 n c l hfits ih =>
    obtain ⟨⟨w', rest'⟩, hcut, heq⟩ := Option.map_eq_some_iff.mp h
    cases heq
    rw [List.cons_append, ih hcut]
  | case4 => cases h

/-- Nor where a text is. -/
theorem append_of_splitCompact {s key body : String} (h : splitCompact s = .ok (key, body)) :
    key ++ body = s := by
  rw [splitCompact] at h
  split at h
  · rename_i w rest hcut
    cases h
    rw [← String.ofList_append, append_of_splitOctets hcut, String.ofList_toList]
  · cases h

/-- The value of a peer's tag is what follows the identifier in its record. -/
theorem ofList_drop_compact (p : Peer) :
    String.ofList (p.compact.toList.drop compactWidth) = p.compactBody := by
  rw [compact, String.toList_append, List.drop_left' (length_compactId p.id), String.ofList_toList]

/-- A text falls apart into a name and a value that are read as a peer exactly if
it is the compact form of that peer. -/
theorem splitCompact_expand_iff {s : String} {p : Peer} :
    (∃ key body, splitCompact s = .ok (key, body) ∧ expand body key = .ok p) ↔ s = p.compact := by
  constructor
  · rintro ⟨key, body, hsplit, hread⟩
    obtain ⟨rfl, rfl⟩ := expand_eq_ok_iff.mp hread
    exact (append_of_splitCompact hsplit).symm
  · rintro rfl
    exact ⟨_, _, splitCompact_compact p, expand_eq_ok_iff.mpr ⟨rfl, rfl⟩⟩

/-- **Compact forms are in bijection with what they stand for.**  A record falls
apart into the name and the value of its tag, and they are read as that record; a
value and a name are read as a record only if its compact form is the one after
the other.  A name is read as an identifier exactly if it is its compact form, so
different identifiers have different names, and the names that have the shape of a
compact identifier are the compact identifiers. -/
theorem compaction_exact (p : Peer) (id : Uuid) (s key body : String) :
    (splitCompact p.compact = .ok (compactId p.id, p.compactBody)
      ∧ expand p.compactBody (compactId p.id) = .ok p)
    ∧ (expand body key = .ok p
      ↔ p.compact = key ++ body ∧ splitCompact (key ++ body) = .ok (key, body))
    ∧ ((∃ key body, splitCompact s = .ok (key, body) ∧ expand body key = .ok p) ↔ s = p.compact)
    ∧ (expandId key = .ok id ↔ key = compactId id)
    ∧ (compactId p.id = compactId id ↔ p.id = id)
    ∧ (isCompactId key ↔ ∃ id, key = compactId id) := by
  have hread : expand p.compactBody (compactId p.id) = .ok p := expand_eq_ok_iff.mpr ⟨rfl, rfl⟩
  refine ⟨⟨splitCompact_compact p, hread⟩, ⟨?_, ?_⟩, splitCompact_expand_iff,
    expandId_eq_ok_iff, ⟨compactId_injective, congrArg compactId⟩, isCompactId_iff⟩
  · intro h
    obtain ⟨rfl, rfl⟩ := expand_eq_ok_iff.mp h
    exact ⟨rfl, splitCompact_compact p⟩
  · rintro ⟨hcompact, hsplit⟩
    -- the compact form falls apart in one way only
    rw [← hcompact, splitCompact_compact] at hsplit
    cases hsplit
    exact hread

/-! ### Tags of peers -/

/-- The name and the value of a peer's tag. -/
def tag (p : Peer) : String × String := (compactId p.id, p.compactBody)

theorem expand_eq_ok_iff_tag {e : String × String} {p : Peer} :
    expand e.2 e.1 = .ok p ↔ e = p.tag := by
  rw [expand_eq_ok_iff, Prod.ext_iff]
  rfl

/-- Different peers have different tags. -/
theorem tag_injective {p q : Peer} (h : p.tag = q.tag) : p = q := by
  have hp : expand p.tag.2 p.tag.1 = .ok p := expand_eq_ok_iff_tag.mpr rfl
  have hq : expand p.tag.2 p.tag.1 = .ok q := expand_eq_ok_iff_tag.mpr h
  exact Except.ok.inj (hp.symm.trans hq)

/-- The name of a peer's tag is none of the short names. -/
theorem compactId_ne {k : String} (hk : k.toList.length ≠ compactWidth) (id : Uuid) :
    compactId id ≠ k := by
  intro heq
  exact hk (heq ▸ length_compactId id)

theorem nodup_tags {l : List Peer} (h : (l.map id).Nodup) : ((l.map tag).map Prod.fst).Nodup := by
  have hnames : (l.map tag).map Prod.fst = (l.map id).map compactId := by
    rw [List.map_map, List.map_map]
    rfl
  rw [hnames]
  exact h.map fun _ _ => compactId_injective

/-- The tags of peers, by name. -/
theorem lookup_tags_iff {l : List Peer} (h : (l.map id).Nodup) {p : Peer} :
    (l.map tag).lookup (compactId p.id) = some p.compactBody ↔ p ∈ l := by
  rw [lookup_eq_some_iff_mem (nodup_tags h), List.mem_map]
  constructor
  · rintro ⟨q, hq, heq⟩
    exact tag_injective heq ▸ hq
  · intro hp
    exact ⟨p, hp, rfl⟩

end Peer

end Rendezvous

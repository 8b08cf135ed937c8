/-
Rendezvous/Proofs/Member.lean

What members of a cluster do with requests.

A member that leads takes every write that it can read, and any other member
takes none (`serve_write`); a read is answered from the store (`serve_read`),
which holds under each key the value that was put there last (`get?_putAll`).
A member that was started knows itself and the first of the peers
(`member_of_start`), and names the latter to all who ask
(`namedLeader?_serve_query`).
-/
import Mathlib.Data.List.Induction
import Rendezvous.Node.Server
import Rendezvous.Proofs.Calls
import Rendezvous.Proofs.Lines
import Rendezvous.Proofs.Message
import Rendezvous.Proofs.Outcome
import Rendezvous.Proofs.Peer
import Rendezvous.Proofs.Publishing

namespace Rendezvous

/-! ### The store -/

namespace Kv.Store

variable {key : String}

/-- Carry out decoded writes, one after the other. -/
def putAll (s : Store) (l : List Request) : Store := l.foldl put s

/-- The value of the last of some writes to a key. -/
def lastValue? (key : String) (l : List Request) : Option (List UInt8) :=
  (l.reverse.find? fun r => r.key = key).map Request.value

/-- A store holds what was put there last, or else what was there before. -/
theorem get?_putAll (s : Store) (l : List Request) :
    (s.putAll l).get? key = (lastValue? key l).or (s.get? key) := by
  induction l using List.reverseRecOn with
  | nil => rfl
  | append_singleton before r ih =>
    have hput : s.putAll (before ++ [r]) = (s.putAll before).insert r.key r.value := by
      rw [putAll, List.foldl_append]
      rfl
    rw [hput, Table.get?_insert, lastValue?, List.reverse_append]
    show _ = Option.or (Option.map _ (List.find? _ (r :: before.reverse))) _
    by_cases h : r.key = key
    · rw [if_pos h.symm, List.find?_cons_of_pos (by simpa using h)]
      rfl
    · rw [if_neg (Ne.symm h), List.find?_cons_of_neg (by simpa using h), ih]
      rfl

/-- The reply to a read, when some writes are all that was carried out. -/
def replyAfter (l : List Request) (r : Request) : Response :=
  match lastValue? r.key l with
  | some value => .ok value
  | none => .err "key not found"

theorem reply_putAll (l : List Request) (r : Request) :
    (putAll Table.empty l).reply r = replyAfter l r := by
  have hget : (putAll Table.empty l).get? r.key = lastValue? r.key l := by
    rw [get?_putAll, Table.get?_empty, Option.or_none]
  rw [reply, hget]
  rfl

end Kv.Store

namespace Http

/-- No cause is reported as a success. -/
theorem Reply.isSuccess_error (e : Error) : (Reply.error e).isSuccess = false := by
  cases e <;> rfl

end Http

namespace ClusterMember

open Engine Http

variable {m : ClusterMember} {bytes : List UInt8}

/-! ### Serving -/

theorem serve_eq_answer {l : Letter} {e : Endpoint}
    (h : resolve routes l.request = .endpoint e "") :
    m.serve l.request = m.answer e l.request.body := by
  have hwhole : ∀ p : Reply, p.toMethod l.request.method = p := fun p => if_neg l.method_ne_head
  rw [serve, h]
  dsimp only
  rw [hwhole]

/-- A member names the leader that it knows. -/
theorem serve_query (m : ClusterMember) :
    m.serve Letter.query.request = (.json 200 (Json.Tree.ofString m.leader.text), m) :=
  serve_eq_answer (m := m) (l := .query) (e := .leader) rfl

/-- The name of the leader can be read. -/
theorem namedLeader?_serve_query (m : ClusterMember) :
    Cluster.namedLeader? (m.serve Letter.query.request).1 = some m.leader := by
  have hread : (Uuid.parse m.leader.text).toOption = some m.leader := by
    rw [Uuid.parse_text]
    rfl
  have hbody : Uuid.decoder.decode (Text.encodeUtf8 (Json.Tree.ofString m.leader.text).chars)
      = .ok m.leader := Json.decode_ofString hread
  rw [serve_query]
  show (Uuid.decoder.decode (Text.encodeUtf8 _)).toOption = _
  rw [hbody]
  rfl

theorem serve_write_request (m : ClusterMember) (bytes : List UInt8) :
    m.serve (Letter.order (.write bytes)).request = m.answer .apply bytes := by
  have hroute : resolve routes (Letter.order (.write bytes)).request = .endpoint .apply "" := by
    rw [Letter.request, resolve_of_target, Order.path]
    rfl
  exact serve_eq_answer hroute

/-- **A write is taken by the leader only**, if it can be read. -/
theorem serve_write (m : ClusterMember) (bytes : List UInt8) :
    (∃ r, m.id = m.leader ∧ Kv.Request.decode bytes = .ok r
      ∧ m.serve (Letter.order (.write bytes)).request
        = (.empty 204, { m with store := m.store.put r }))
    ∨ ∃ e, m.serve (Letter.order (.write bytes)).request = (.error e, m) := by
  have hserve := m.serve_write_request bytes
  by_cases hleads : m.id = m.leader
  · rcases hdecode : Kv.Request.decode bytes with e | r
    · have happly : m.apply bytes = .error e := by
        rw [apply, if_pos hleads, Kv.Store.apply, hdecode]
        rfl
      exact Or.inr ⟨e, by rw [hserve, answer, happly]⟩
    · have happly : m.apply bytes = .ok { m with store := m.store.put r } := by
        rw [apply, if_pos hleads, Kv.Store.apply, hdecode]
        rfl
      exact Or.inl ⟨r, hleads, rfl, by rw [hserve, answer, happly]⟩
  · refine Or.inr ⟨.engine (m.id.text ++ " is not the leader, " ++ m.leader.text ++ " is"), ?_⟩
    rw [hserve, answer, apply, if_neg hleads]

/-- **A read is answered from the store** and changes nothing. -/
theorem serve_read (m : ClusterMember) (bytes : List UInt8) :
    (∃ r, Kv.Request.decode bytes = .ok r
      ∧ m.serve (Letter.order (.read bytes)).request = (.octets (m.store.reply r).encode, m))
    ∨ ∃ e, m.serve (Letter.order (.read bytes)).request = (.error e, m) := by
  have hroute : resolve routes (Letter.order (.read bytes)).request = .endpoint .read "" := by
    rw [Letter.request, resolve_of_target, Order.path]
    rfl
  have hserve : m.serve (Letter.order (.read bytes)).request = m.answer .read bytes :=
    serve_eq_answer hroute
  rcases hdecode : Kv.Request.decode bytes with e | r
  · have hread : m.store.read bytes = .error e := by
      rw [Kv.Store.read, hdecode]
      rfl
    exact Or.inr ⟨e, by rw [hserve, answer, hread]⟩
  · have hread : m.store.read bytes = .ok (m.store.reply r).encode := by
      rw [Kv.Store.read, hdecode]
      rfl
    exact Or.inl ⟨r, rfl, by rw [hserve, answer, hread]⟩

end ClusterMember

/-! ### Starting -/

namespace ServerNode

variable {σ : Type} {v : Volume} {settings : ServerSettings} {send : Send σ} {listen : Listen}
  {s s' : σ} {peers : List Peer} {node : ServerNode}

/-- Definitions are loaded in ascending order. -/
theorem pairwise_loadPeers (h : loadPeers v settings = .ok peers) :
    peers.Pairwise fun p q => p.id.le q.id := by
  obtain ⟨l, hread, hload⟩ := Except.bind_eq_ok_iff.mp h
  have hsorted : l.Pairwise fun p q => p.id.le q.id := by
    rw [Peer.readVolume] at hread
    split at hread
    · cases hread
    · rename_i d _
      obtain ⟨found, -, rfl⟩ := Except.map_eq_ok_iff.mp hread
      exact Peer.pairwise_sort found
  split at hload
  · cases hload
  · cases hload
    exact hsorted

/-- A member at its start. -/
def memberOf (peers : List Peer) (own : Peer) : ClusterMember where
  id := own.id
  leader := leaderOf own peers

/-- A member that was started is one of the peers and knows the first. -/
theorem member_of_start (hload : loadPeers v settings = .ok peers)
    (hstart : start v settings send listen s = (.ok node, s')) :
    ∃ own ∈ peers, own.id = settings.peerId ∧ node.member = memberOf peers own := by
  rw [start] at hstart
  split at hstart
  · cases hstart
  rename_i l own hprepare
  obtain ⟨l', hl, hprepare⟩ := Except.bind_eq_ok_iff.mp hprepare
  obtain rfl : peers = l' := Except.ok.inj (hload.symm.trans hl)
  obtain ⟨own', hown, hprepare⟩ := Except.bind_eq_ok_iff.mp hprepare
  cases hprepare
  split at hstart
  · cases hstart
  · obtain ⟨hnode, -⟩ := Prod.mk.inj hstart
    obtain ⟨addr, -, rfl⟩ := Except.map_eq_ok_iff.mp hnode
    rw [ownPeer] at hown
    split at hown
    · rename_i p hfind
      cases hown
      refine ⟨own, List.mem_of_find?_eq_some hfind, ?_, rfl⟩
      simpa using List.find?_some hfind
    · cases hown

/-- A member starts if it has a definition, can advertise and can listen. -/
theorem start_eq_ok (hload : loadPeers v settings = .ok peers) (hids : (peers.map Peer.id).Nodup)
    (hown : ∃ p ∈ peers, p.id = settings.peerId) (hsend : ∀ t s, ∃ s', send t s = (.ok (), s'))
    (hlisten : ∀ addr, ∃ addr', listen addr = .ok addr') (s : σ) :
    ∃ node s', start v settings send listen s = (.ok node, s') := by
  obtain ⟨own, hfind⟩ : ∃ own, ownPeer settings peers = .ok own := by
    obtain ⟨p, hp, hid⟩ := hown
    rw [ownPeer]
    rcases hfind : peers.find? fun p => p.id = settings.peerId with _ | own
    · exact absurd hid (by simpa using List.find?_eq_none.mp hfind p hp)
    · exact ⟨own, by rw [hfind]⟩
  obtain ⟨tags, hbuild, -⟩ := Advertised.build_eq_ok (a := advertised settings peers) hids
  obtain ⟨s', hsent⟩ := hsend tags s
  have hprepare : prepare v settings = .ok (peers, own) := by
    simp only [prepare, hload, hfind, bind, Except.bind]
  obtain ⟨publisher, hadvertise⟩ : ∃ publisher, advertise settings peers send s
      = (.ok publisher, s') := by
    rw [advertise, Publisher.publish_taken hbuild hsent]
    exact ⟨_, rfl⟩
  obtain ⟨addr, haddr⟩ := hlisten own.clientAddr
  simp only [start, hprepare, hadvertise, haddr, Except.map]
  exact ⟨_, _, rfl⟩

/-! ### Leading -/

/-- The first of all peers by their identifiers. -/
def Leads (peers : List Peer) (p : Peer) : Prop := p ∈ peers ∧ ∀ q ∈ peers, p.id.le q.id

variable {p q : Peer}

theorem Leads.unique (hids : (peers.map Peer.id).Nodup) (hp : Leads peers p)
    (hq : Leads peers q) : p = q :=
  List.inj_on_of_nodup_map hids hp.1 hq.1 (Uuid.le_antisymm (hp.2 q hq.1) (hq.2 p hp.1))

/-- In ascending order the peer that leads is the first, whoever looks. -/
theorem leads_leaderOf (hsorted : peers.Pairwise fun p q => p.id.le q.id) (hp : p ∈ peers) :
    ∃ q, Leads peers q ∧ leaderOf p peers = q.id := by
  cases peers with
  | nil => cases hp
  | cons first rest =>
    refine ⟨first, ⟨List.mem_cons_self .., fun q hq => ?_⟩, rfl⟩
    rcases List.mem_cons.mp hq with rfl | hrest
    · exact Uuid.le_iff.mpr (Or.inr rfl)
    · exact (List.pairwise_cons.mp hsorted).1 q hrest

/-- A peer knows that it leads if it does. -/
theorem leads_iff (hsorted : peers.Pairwise fun p q => p.id.le q.id)
    (hids : (peers.map Peer.id).Nodup) (hp : p ∈ peers) :
    Leads peers p ↔ p.id = leaderOf p peers := by
  obtain ⟨q, hq, hid⟩ := leads_leaderOf hsorted hp
  rw [hid]
  constructor
  · intro h
    rw [h.unique hids hq]
  · intro h
    rw [List.inj_on_of_nodup_map hids hp hq.1 h]
    exact hq

end ServerNode

end Rendezvous

/-
Rendezvous/Proofs/Routing.lean

Where the orders of a client go.

A network may reply to each request as it likes, or not at all.  Beside its state goes a
list of all that was sent over it, with the replies (`Exchange.noting`); whoever uses the
network does not see that list, so a call over a noted network is the call itself.

Peers are asked for the leader in the order of the list.  A reply names a leader if its
status is 200 and its body is read as an identifier, and any other is passed over: one
peer after the other, this is the relation `Asks`, and from it follows that all but the
last of those that were asked have named nobody and that the others were not asked
(`Asks.named_of_some`, `Asks.unnamed_of_none`).  After that there is one order at most,
and what becomes of the call is told case by case (`Routed`, `calls_routed`).
-/
import Rendezvous.Proofs.Calls
import Rendezvous.Proofs.Outcome

namespace Rendezvous

/-! ### Noting -/

namespace Http

/-- A request that was sent, with what came back. -/
structure Note where
  addr : SocketAddr
  request : Request
  reply : Option Reply
  deriving DecidableEq

def Note.isPost (n : Note) : Bool := n.request.method = Request.post

/-- A network, beside which is noted what goes over it. -/
def Exchange.noting {σ : Type} (net : Exchange σ) : Exchange (σ × List Note) :=
  fun addr request s =>
    let (reply, s') := net addr request s.1
    (reply, s', s.2 ++ [⟨addr, request, reply⟩])

end Http

namespace Engine

open Http

/-! ### What is sent -/

/-- A reply names a leader. -/
def Names (reply : Option Reply) (id : Uuid) : Prop :=
  ∃ r, reply = some r ∧ r.status = 200 ∧ Uuid.decoder.decode r.body = .ok id

/-- Peers are asked one after the other: those that were asked, with their replies, and
the leader that was named in the end. -/
inductive Asks : List Peer → List (Peer × Option Reply) → Option Uuid → Prop
  | nobody : Asks [] [] none
  | named {p rest reply id} (h : Names reply id) : Asks (p :: rest) [(p, reply)] (some id)
  | passed {p rest reply asked id?} (h : ∀ id, ¬ Names reply id) (hrest : Asks rest asked id?) :
      Asks (p :: rest) ((p, reply) :: asked) id?

/-- Nobody has named a leader. -/
def Unnamed (asked : List (Peer × Option Reply)) : Prop := ∀ a ∈ asked, ∀ id, ¬ Names a.2 id

/-- The last of those that were asked names a leader, and none before it does; the peers
after it in the list were not asked. -/
inductive Named (peers : List Peer) : List (Peer × Option Reply) → Uuid → Prop
  | last (before) {p reply rest id} (hpeers : peers = before.map Prod.fst ++ p :: rest)
      (hbefore : Unnamed before) (hlast : Names reply id) : Named peers (before ++ [(p, reply)]) id

/-- The first peer of a list with an identifier. -/
def FirstWith (peers : List Peer) (id : Uuid) (q : Peer) : Prop :=
  ∃ before after, peers = before ++ q :: after ∧ q.id = id ∧ ∀ p ∈ before, p.id ≠ id

/-- The question who leads, as it is noted. -/
def query (a : Peer × Option Reply) : Note := ⟨a.1.clientAddr, Cluster.leaderRequest, a.2⟩

/-- An order to a peer, as it is noted. -/
def orderTo (q : Peer) (o : Order) (reply : Option Reply) : Note :=
  ⟨q.clientAddr, (Letter.order o).request, reply⟩

/-- All that is sent for an order, and what it comes to. -/
inductive Routed (peers : List Peer) (o : Order) :
    List Note → Except Error (List UInt8) → Prop
  /-- All peers are asked, and none names a leader. -/
  | leaderless {asked} (hall : asked.map Prod.fst = peers) (hnone : Unnamed asked) :
      Routed peers o (asked.map query) (.error (.engine
        ("none of " ++ Text.decimal peers.length ++ " peers reported a leader")))
  /-- The leader that was named is no peer. -/
  | stranger {asked id} (hnamed : Named peers asked id) (hid : ∀ q ∈ peers, q.id ≠ id) :
      Routed peers o (asked.map query) (.error (.engine
        ("leader " ++ id.text ++ " is not a known peer")))
  /-- The order goes to the leader, and nothing comes back or a refusal. -/
  | refused {asked id q reply message} (hnamed : Named peers asked id)
      (hleader : FirstWith peers id q) (hreply : ∀ r, reply = some r → r.isSuccess = false) :
      Routed peers o (asked.map query ++ [orderTo q o reply]) (.error (.engine message))
  /-- The order goes to the leader, and success comes back. -/
  | granted {asked id q r} (hnamed : Named peers asked id) (hleader : FirstWith peers id q)
      (hreply : r.isSuccess = true) :
      Routed peers o (asked.map query ++ [orderTo q o (some r)]) (.ok r.body)

variable {σ : Type} {net : Exchange σ} {peers : List Peer} {q : Peer} {id : Uuid} {s : σ}
  {l : List Note} {reply : Option Reply} {asked : List (Peer × Option Reply)} {o : Order}
  {result : Except Error (List UInt8)}

/-! ### Asking for the leader -/

theorem bind_namedLeader?_eq_some_iff :
    reply.bind Cluster.namedLeader? = some id ↔ Names reply id := by
  rw [Option.bind_eq_some_iff]
  refine exists_congr fun r => and_congr_right fun _ => ?_
  rw [Cluster.namedLeader?]
  by_cases hstatus : r.status = 200
  · rw [if_pos hstatus, Except.toOption_eq_some_iff]
    exact ⟨fun h => ⟨hstatus, h⟩, And.right⟩
  · rw [if_neg hstatus]
    exact ⟨nofun, fun h => absurd h.1 hstatus⟩

theorem bind_namedLeader?_eq_none_iff :
    reply.bind Cluster.namedLeader? = none ↔ ∀ id, ¬ Names reply id := by
  rw [Option.eq_none_iff_forall_ne_some]
  exact forall_congr' fun id => not_congr bind_namedLeader?_eq_some_iff

/-- **Asking for the leader** is asking one peer after the other, and nothing else. -/
theorem asks_askLeader (net : Exchange σ) (peers : List Peer) (s : σ) (l : List Note) :
    ∃ asked, Asks peers asked (Cluster.askLeader net peers s).1
      ∧ Cluster.askLeader net.noting peers (s, l) = ((Cluster.askLeader net peers s).1,
        (Cluster.askLeader net peers s).2, l ++ asked.map query) := by
  induction peers generalizing s l with
  | nil =>
    refine ⟨[], Asks.nobody, ?_⟩
    rw [List.map_nil, List.append_nil]
    rfl
  | cons p rest ih =>
    rcases hnet : net p.clientAddr Cluster.leaderRequest s with ⟨reply, s₁⟩
    simp only [Cluster.askLeader, Exchange.noting, hnet]
    rcases hnamed : reply.bind Cluster.namedLeader? with _ | id
    · obtain ⟨asked, hasks, hrest⟩ := ih s₁ (l ++ [query (p, reply)])
      refine ⟨(p, reply) :: asked, Asks.passed (bind_namedLeader?_eq_none_iff.mp hnamed) hasks, ?_⟩
      refine hrest.trans ?_
      rw [List.map_cons, List.append_assoc, List.singleton_append]
    · exact ⟨[(p, reply)], Asks.named (bind_namedLeader?_eq_some_iff.mp hnamed), rfl⟩

/-- If no leader is named in the end, all were asked and nobody has named one. -/
theorem Asks.unnamed_of_none (h : Asks peers asked none) :
    asked.map Prod.fst = peers ∧ Unnamed asked := by
  generalize hid : (none : Option Uuid) = id? at h
  induction h with
  | nobody => exact ⟨rfl, nofun⟩
  | named _ => cases hid
  | passed hreply _ ih =>
    obtain ⟨hpeers, hothers⟩ := ih hid
    exact ⟨congrArg _ hpeers, List.forall_mem_cons.mpr ⟨hreply, hothers⟩⟩

/-- A leader is named by the last of those that were asked. -/
theorem Asks.named_of_some (h : Asks peers asked (some id)) : Named peers asked id := by
  generalize hid : some id = id? at h
  induction h with
  | nobody => cases hid
  | named hreply =>
    cases hid
    exact Named.last [] rfl nofun hreply
  | passed hreply _ ih =>
    obtain ⟨before, rfl, hbefore, hlast⟩ := ih hid
    exact Named.last ((_, _) :: before) rfl (List.forall_mem_cons.mpr ⟨hreply, hbefore⟩) hlast

/-! ### The order -/

theorem find?_eq_some_iff_firstWith :
    (peers.find? fun p => p.id = id) = some q ↔ FirstWith peers id q := by
  rw [List.find?_eq_some_iff_append]
  constructor
  · rintro ⟨hq, before, after, hpeers, hbefore⟩
    exact ⟨before, after, hpeers, of_decide_eq_true hq, fun p hp => by simpa using hbefore p hp⟩
  · rintro ⟨before, after, hpeers, hq, hbefore⟩
    exact ⟨decide_eq_true hq, before, after, hpeers, fun p hp => by simpa using hbefore p hp⟩

/-- What the leader replies is what the call comes to. -/
theorem routed_accepted (hnamed : Named peers asked id) (hleader : FirstWith peers id q)
    (reply : Option Reply) : Routed peers o (asked.map query ++ [orderTo q o reply])
      (Cluster.accepted q.clientAddr reply) := by
  rcases reply with _ | r
  · exact Routed.refused hnamed hleader nofun
  · rw [Cluster.accepted]
    split
    · rename_i hsuccess
      exact Routed.granted hnamed hleader hsuccess
    · rename_i hrefused
      refine Routed.refused hnamed hleader fun r' hr' => ?_
      cases hr'
      exact Bool.eq_false_iff.mpr hrefused

/-- **A call over a noted network** is the call itself, and what is noted is its route. -/
theorem post_noting (net : Exchange σ) (peers : List Peer) (o : Order) (s : σ) :
    ∃ notes, Cluster.post net.noting peers o.path o.bytes (s, [])
        = ((Cluster.post net peers o.path o.bytes s).1,
          (Cluster.post net peers o.path o.bytes s).2, notes)
      ∧ Routed peers o notes (Cluster.post net peers o.path o.bytes s).1 := by
  obtain ⟨asked, hasks, hnoted⟩ := asks_askLeader net peers s []
  rw [List.nil_append] at hnoted
  simp only [Cluster.post, Cluster.leaderAddr, Cluster.leader, hnoted]
  rcases hask : Cluster.askLeader net peers s with ⟨_ | id, s₁⟩
  · rw [hask] at hasks
    obtain ⟨hall, hnone⟩ := hasks.unnamed_of_none
    exact ⟨_, rfl, Routed.leaderless hall hnone⟩
  · rw [hask] at hasks
    have hnamed := hasks.named_of_some
    dsimp only
    rcases hfind : peers.find? fun p => p.id = id with _ | q
    · rw [hfind]
      refine ⟨_, rfl, Routed.stranger hnamed fun q hq => ?_⟩
      simpa using List.find?_eq_none.mp hfind q hq
    · rw [hfind]
      exact ⟨_, rfl, routed_accepted hnamed (find?_eq_some_iff_firstWith.mp hfind) _⟩

/-- Of all that is sent for an order one thing at most may change something. -/
theorem Routed.countP_isPost {notes : List Note} (h : Routed peers o notes result) :
    notes.countP Note.isPost ≤ 1 := by
  have hqueries : ∀ asked : List (Peer × Option Reply),
      (asked.map query).countP Note.isPost = 0 := by
    intro asked
    refine List.countP_eq_zero.mpr fun n hn => ?_
    obtain ⟨a, -, rfl⟩ := List.mem_map.mp hn
    show ¬ decide (Request.get = Request.post)
    decide
  cases h with
  | leaderless | stranger => rw [hqueries]; exact Nat.zero_le 1
  | refused | granted =>
    rw [List.countP_append, hqueries, Nat.zero_add]
    exact List.countP_le_length

/-- **Orders go to the leader that was named first, and to nobody else.**  Over any network
a call asks the peers for the leader in the order of the list, up to the first that replies
with status 200 and a body that is read as an identifier.  It then sends its order, and
sends it once, to the client address of the first peer that has this identifier.  If no
peer names a leader, or no peer is the one named, there is no order and the call fails with
an error of the engine, as it does if the order brings back nothing or no success;
otherwise it succeeds, and a read with the body of the reply. -/
theorem calls_routed (net : Exchange σ) (peers : List Peer) (bytes : List UInt8) (s : σ) :
    let w := (ofPeers net.noting peers).write bytes (s, [])
    let r := (ofPeers net.noting peers).read bytes (s, [])
    ((w.1, w.2.1) = (ofPeers net peers).write bytes s
      ∧ (r.1, r.2.1) = (ofPeers net peers).read bytes s)
    ∧ (w.2.2.countP Note.isPost ≤ 1 ∧ r.2.2.countP Note.isPost ≤ 1)
    ∧ (∃ result, Routed peers (.write bytes) w.2.2 result ∧ w.1 = result.map fun _ => ())
    ∧ Routed peers (.read bytes) r.2.2 r.1 := by
  intro w r
  obtain ⟨wrote, hwrite, hwrote⟩ := post_noting net peers (.write bytes) s
  obtain ⟨read, hread, hrouted⟩ := post_noting net peers (.read bytes) s
  have hw : w = (((ofPeers net peers).write bytes s).1, ((ofPeers net peers).write bytes s).2,
      wrote) :=
    congrArg (fun x : Except Error (List UInt8) × σ × List Note => (x.1.map fun _ => (), x.2))
      hwrite
  have hr : r = (((ofPeers net peers).read bytes s).1, ((ofPeers net peers).read bytes s).2,
      read) := hread
  rw [hw, hr]
  exact ⟨⟨rfl, rfl⟩, ⟨hwrote.countP_isPost, hrouted.countP_isPost⟩, ⟨_, hwrote, rfl⟩, hrouted⟩

end Engine

end Rendezvous

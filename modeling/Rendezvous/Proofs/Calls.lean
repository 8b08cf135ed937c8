/-
Rendezvous/Proofs/Calls.lean

Calls of the client library, one exchange at a time.

A call asks one peer after the other for the leader, until one names it, and
then sends its order to the client address of the peer with that name.  At any
time it waits for the reply to one letter (`Call.pending?`), or is done;
whatever comes back, a reply or nothing, takes it to its next stage
(`Call.next`).

Taken from its start to its end over a network, a call is what the handle on
the cluster does at one stroke (`runs_write`, `runs_read`).  So several calls
can be interleaved without a word about how the handle is written.
-/
import Rendezvous.Engine.Cluster

namespace Rendezvous.Engine

open Http

/-! ### Letters -/

/-- What is wanted of the leader. -/
inductive Order where
  | write (bytes : List UInt8)
  | read (bytes : List UInt8)
  deriving DecidableEq

namespace Order

def path : Order → String
  | write _ => Path.apply
  | read _ => Path.read

def bytes : Order → List UInt8
  | write bytes => bytes
  | read bytes => bytes

end Order

/-- What is sent to a member: the question who leads, or an order. -/
inductive Letter where
  | query
  | order (o : Order)

namespace Letter

def request : Letter → Request
  | query => Cluster.leaderRequest
  | order o => { method := Request.post, target := o.path, body := o.bytes }

/-- Replies to letters come with their bodies. -/
theorem method_ne_head (l : Letter) : l.request.method ≠ Request.head := by
  cases l with
  | query =>
    show Request.get ≠ Request.head
    decide
  | order o =>
    show Request.post ≠ Request.head
    decide

end Letter

/-! ### Stages -/

/-- Where a call stands. -/
inductive Stage where
  /-- It has asked a peer for the leader and has others to ask. -/
  | asking (p : Peer) (rest : List Peer)
  /-- It has sent its order to an address. -/
  | posting (addr : SocketAddr)
  | done (result : Except Error (List UInt8))

namespace Stage

/-- Ask the first of the peers that are left. -/
def ask (peers : List Peer) : List Peer → Stage
  | [] =>
    done (.error (.engine ("none of " ++ Text.decimal peers.length ++ " peers reported a leader")))
  | p :: rest => asking p rest

/-- Send the order to the peer that leads. -/
def post (peers : List Peer) (id : Uuid) : Stage :=
  match peers.find? fun p => p.id = id with
  | some p => posting p.clientAddr
  | none => done (.error (.engine ("leader " ++ id.text ++ " is not a known peer")))

/-- The stage after a reply, or after none. -/
def next (peers : List Peer) (reply : Option Reply) : Stage → Stage
  | asking _ rest =>
    match reply.bind Cluster.namedLeader? with
    | some id => post peers id
    | none => ask peers rest
  | posting addr => done (Cluster.accepted addr reply)
  | done result => done result

variable {peers rest : List Peer} {reply : Option Reply} {p : Peer}

theorem next_asking_of_named {id : Uuid} (h : reply.bind Cluster.namedLeader? = some id) :
    (asking p rest).next peers reply = post peers id := by
  rw [next, h]

theorem next_asking_of_unnamed (h : reply.bind Cluster.namedLeader? = none) :
    (asking p rest).next peers reply = ask peers rest := by
  rw [next, h]

end Stage

/-- A call of the handle. -/
structure Call where
  order : Order
  stage : Stage

namespace Call

variable {σ : Type}

/-- A call that was just made. -/
def begin (peers : List Peer) (o : Order) : Call := ⟨o, Stage.ask peers peers⟩

/-- The letter to which a call waits for a reply. -/
def pending? (c : Call) : Option (SocketAddr × Letter) :=
  match c.stage with
  | .asking p _ => some (p.clientAddr, .query)
  | .posting addr => some (addr, .order c.order)
  | .done _ => none

/-- A call after a reply, or after none. -/
def next (peers : List Peer) (reply : Option Reply) (c : Call) : Call :=
  { c with stage := c.stage.next peers reply }

/-! ### At one stroke -/

/-- A call goes on to its end over a network. -/
inductive Runs (net : Exchange σ) (peers : List Peer) :
    Call → σ → Except Error (List UInt8) → σ → Prop
  | done {o result s} : Runs net peers ⟨o, .done result⟩ s result s
  | step {c addr l s result s'} (h : c.pending? = some (addr, l))
      (hrest : Runs net peers (c.next peers (net addr l.request s).1) (net addr l.request s).2
        result s') : Runs net peers c s result s'

variable {net : Exchange σ} {peers rest : List Peer} {o : Order} {s s₁ s' : σ}
  {result : Except Error (List UInt8)}

/-- The peers that are left are asked until one names the leader. -/
theorem runs_ask {id? : Option Uuid} (h : Cluster.askLeader net rest s = (id?, s₁))
    (hrun : Runs net peers ⟨o, (id?.map (Stage.post peers)).getD (Stage.ask peers [])⟩ s₁
      result s') : Runs net peers ⟨o, Stage.ask peers rest⟩ s result s' := by
  induction rest generalizing s with
  | nil =>
    cases h
    exact hrun
  | cons p rest ih =>
    refine Runs.step (l := .query) rfl ?_
    rcases hnet : net p.clientAddr Letter.query.request s with ⟨reply, s₂⟩
    rw [Cluster.askLeader, show Cluster.leaderRequest = Letter.query.request from rfl, hnet] at h
    dsimp only at h
    show Runs net peers ⟨o, (Stage.asking p rest).next peers reply⟩ s₂ result s'
    rcases hid : reply.bind Cluster.namedLeader? with _ | id
    · rw [hid] at h
      rw [Stage.next_asking_of_unnamed hid]
      exact ih h
    · rw [hid] at h
      cases h
      rw [Stage.next_asking_of_named hid]
      exact hrun

/-- **A call that goes on to its end** does what is done at one stroke. -/
theorem runs_begin (net : Exchange σ) (peers : List Peer) (o : Order) (s : σ) :
    Runs net peers (begin peers o) s (Cluster.post net peers o.path o.bytes s).1
      (Cluster.post net peers o.path o.bytes s).2 := by
  rcases hask : Cluster.askLeader net peers s with ⟨id?, s₁⟩
  refine runs_ask hask ?_
  rw [Cluster.post, Cluster.leaderAddr, Cluster.leader, hask]
  cases id? with
  | none => exact Runs.done
  | some id =>
    show Runs net peers ⟨o, Stage.post peers id⟩ s₁ _ _
    rw [Stage.post]
    dsimp only
    rcases hfind : peers.find? fun p => p.id = id with _ | p
    · rw [hfind]
      exact Runs.done
    · rw [hfind]
      exact Runs.step (l := .order o) rfl Runs.done

theorem runs_write (net : Exchange σ) (peers : List Peer) (bytes : List UInt8) (s : σ) :
    ∃ result s', Runs net peers (begin peers (.write bytes)) s result s'
      ∧ (ofPeers net peers).write bytes s = (result.map fun _ => (), s') :=
  ⟨_, _, runs_begin net peers (.write bytes) s, rfl⟩

theorem runs_read (net : Exchange σ) (peers : List Peer) (bytes : List UInt8) (s : σ) :
    ∃ result s', Runs net peers (begin peers (.read bytes)) s result s'
      ∧ (ofPeers net peers).read bytes s = (result, s') :=
  ⟨_, _, runs_begin net peers (.read bytes) s, rfl⟩

end Call

end Rendezvous.Engine

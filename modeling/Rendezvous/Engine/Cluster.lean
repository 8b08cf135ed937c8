/-
Rendezvous/Engine/Cluster.lean

The cluster as seen over a network.

The first peer that answers with an identifier names the leader; peers that do
not are passed over.  A write or a read asks for the leader first and then goes
to the client address of the peer with that identifier, and to no other.
-/
import Rendezvous.Engine
import Rendezvous.Http.Exchange
import Rendezvous.Peer.Json

namespace Rendezvous.Engine

namespace Cluster

open Http

variable {σ : Type}

/-! ### The leader -/

def leaderRequest : Request := { method := Request.get, target := Path.leader }

/-- The leader that a reply names. -/
def namedLeader? (r : Reply) : Option Uuid :=
  if r.status = 200 then (Uuid.decoder.decode r.body).toOption else none

/-- Ask peers for the leader until one names it. -/
def askLeader (net : Exchange σ) : List Peer → σ → Option Uuid × σ
  | [], s => (none, s)
  | p :: rest, s =>
    let (reply, s) := net p.clientAddr leaderRequest s
    match reply.bind namedLeader? with
    | some id => (some id, s)
    | none => askLeader net rest s

/-- The leader of the cluster. -/
def leader (net : Exchange σ) (peers : List Peer) (s : σ) : Except Error Uuid × σ :=
  match askLeader net peers s with
  | (some id, s) => (.ok id, s)
  | (none, s) =>
    (.error (.engine ("none of " ++ Text.decimal peers.length ++ " peers reported a leader")), s)

/-- The address at which the leader takes requests. -/
def leaderAddr (net : Exchange σ) (peers : List Peer) (s : σ) : Except Error SocketAddr × σ :=
  match leader net peers s with
  | (.error e, s) => (.error e, s)
  | (.ok id, s) =>
    match peers.find? fun p => p.id = id with
    | some p => (.ok p.clientAddr, s)
    | none => (.error (.engine ("leader " ++ id.text ++ " is not a known peer")), s)

/-! ### Requests -/

/-- The body of a successful reply. -/
def accepted (addr : SocketAddr) : Option Reply → Except Error (List UInt8)
  | none => .error (.engine (addr.text ++ " unreachable: " ++ notSent))
  | some r =>
    if r.isSuccess then .ok r.body
    else .error (.engine (addr.text ++ " answered " ++ statusText r.status ++ ": " ++ r.bodyText))

/-- Send bytes to a path of the leader. -/
def post (net : Exchange σ) (peers : List Peer) (path : String) (bytes : List UInt8) (s : σ) :
    Except Error (List UInt8) × σ :=
  match leaderAddr net peers s with
  | (.error e, s) => (.error e, s)
  | (.ok addr, s) =>
    let (reply, s) := net addr { method := Request.post, target := path, body := bytes } s
    (accepted addr reply, s)

end Cluster

/-- The handle on the cluster of some peers. -/
def ofPeers {σ : Type} (net : Http.Exchange σ) (peers : List Peer) : Engine σ where
  write bytes s :=
    let (r, s) := Cluster.post net peers Http.Path.apply bytes s
    (r.map fun _ => (), s)
  read bytes s := Cluster.post net peers Http.Path.read bytes s
  leader s := Cluster.leader net peers s

end Rendezvous.Engine

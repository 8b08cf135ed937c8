/-
Rendezvous/Service/Member.lean

What a member of the cluster serves.

Everyone may read from a member and ask it for the leader; it takes writes only
if it leads.
-/
import Rendezvous.Http.Router
import Rendezvous.Kv.Store

namespace Rendezvous

open Http

/-- A member of the cluster that serves its state machine. -/
structure ClusterMember where
  id : Uuid
  leader : Uuid
  store : Kv.Store := Table.empty
  deriving DecidableEq, Repr, Inhabited

namespace ClusterMember

/-- What a member can be asked for. -/
inductive Endpoint where
  | health
  | apply
  | read
  | leader
  deriving DecidableEq, Repr

def routes : List (Route Endpoint) :=
  [⟨.path Path.health, Request.get, .health⟩, ⟨.path Path.apply, Request.post, .apply⟩,
    ⟨.path Path.read, Request.post, .read⟩, ⟨.path Path.leader, Request.get, .leader⟩]

/-- Take a write. -/
def apply (m : ClusterMember) (bytes : List UInt8) : Except Error ClusterMember :=
  if m.id = m.leader then (m.store.apply bytes).map fun store => { m with store }
  else .error (.engine (m.id.text ++ " is not the leader, " ++ m.leader.text ++ " is"))

/-- Answer at an endpoint. -/
def answer (m : ClusterMember) (e : Endpoint) (body : List UInt8) : Reply × ClusterMember :=
  match e with
  | .health => (.text 200 "OK", m)
  | .apply =>
    match m.apply body with
    | .ok m' => (.empty 204, m')
    | .error e => (.error e, m)
  | .read =>
    match m.store.read body with
    | .ok bytes => (.octets bytes, m)
    | .error e => (.error e, m)
  | .leader => (.json 200 (Json.Tree.ofString m.leader.text), m)

/-- Serve one request. -/
def serve (m : ClusterMember) (r : Request) : Reply × ClusterMember :=
  match resolve routes r with
  | .endpoint e _ =>
    let (reply, m) := m.answer e r.body
    (reply.toMethod r.method, m)
  | .wrongMethod _ allow => (.wrongMethod allow, m)
  | .unknown => (.unknownPath, m)

end ClusterMember

end Rendezvous

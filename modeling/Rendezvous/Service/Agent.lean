/-
Rendezvous/Service/Agent.lean

What an agent serves.

Anyone may list the members.  Another agent sends all its records and gets all
of ours, with its own taken in already.
-/
import Rendezvous.Gossip.Agent
import Rendezvous.Http.Router

namespace Rendezvous.Agent

open Http

/-- What an agent can be asked for. -/
inductive Endpoint where
  | members
  | sync
  deriving DecidableEq, Repr

def routes : List (Route Endpoint) :=
  [⟨.path Path.members, Request.get, .members⟩, ⟨.path Path.sync, Request.post, .sync⟩]

/-- The JSON form of members. -/
def membersTree (l : List Member) : Json.Tree := Json.Tree.ofList (l.map Member.tree)

/-- Answer at an endpoint. -/
def answer (a : Agent) (time : Nat) (r : Request) : Endpoint → Reply × Agent
  | .members => (.json 200 (membersTree (a.view time)), a)
  | .sync =>
    match r.json recordsDecoder with
    | .ok l =>
      let a := a.merge time l
      (.json 200 (recordsTree a.records), a)
    | .error refused => (refused, a)

/-- Serve one request. -/
def serve (a : Agent) (time : Nat) (r : Request) : Reply × Agent :=
  match resolve routes r with
  | .endpoint e _ =>
    let (reply, a) := a.answer time r e
    (reply.toMethod r.method, a)
  | .wrongMethod _ allow => (.wrongMethod allow, a)
  | .unknown => (.unknownPath, a)

end Rendezvous.Agent

/-
Rendezvous/Gossip/Query.lean

Asking agents for members.

A client that is no member asks one agent after the other for all members and
believes the first that answers.  It cannot publish.
-/
import Rendezvous.Error
import Rendezvous.Http.Exchange
import Rendezvous.Member

namespace Rendezvous.Query

open Http

variable {σ : Type}

def membersRequest : Request := { method := Request.get, target := Path.members }

def membersDecoder : Json.Decoder (List Member) := Json.Decoder.list Member.decoder

/-- What went wrong with an agent. -/
def failure (agent : SocketAddr) (words : String) : Error :=
  .gossip (.query (agent.text ++ ": " ++ words))

/-- The words for a status that reports a failure. -/
def statusWords (agent : SocketAddr) (status : Nat) : String :=
  let side := if status < 500 then "client" else "server"
  "HTTP status " ++ side ++ " error (" ++ statusText status ++ ") for url (http://"
    ++ agent.text ++ Path.members ++ ")"

/-- The members that the reply of an agent lists. -/
def readReply (agent : SocketAddr) : Option Reply → Except Error (List Member)
  | none => .error (failure agent notSent)
  | some r =>
    if 400 ≤ r.status ∧ r.status < 600 then .error (failure agent (statusWords agent r.status))
    else (membersDecoder.decode r.body).mapError fun _ => failure agent notDecoded

/-- Ask agents until one answers; `last` is what went wrong before. -/
def askFrom (net : Exchange σ) (last : Error) : List SocketAddr → σ →
    Except Error (List Member) × σ
  | [], s => (.error last, s)
  | agent :: rest, s =>
    let (reply, s) := net agent membersRequest s
    match readReply agent reply with
    | .ok l => (.ok l, s)
    | .error e => askFrom net e rest s

/-- The members that advertise a tag with a value. -/
def membersWithTag (net : Exchange σ) (agents : List SocketAddr) (tag value : String) (s : σ) :
    Except Error (List Member) × σ :=
  let (result, s) := askFrom net (.gossip (.query "no gossip agents configured")) agents s
  (result.map fun l => l.filter fun m => m.hasTag tag value, s)

/-- The alive members that advertise a tag with a value. -/
def responders (net : Exchange σ) (agents : List SocketAddr) (tag value : String) (s : σ) :
    Except Error (List (String × TagSet)) × σ :=
  let (result, s) := membersWithTag net agents tag value s
  (result.map Member.responders, s)

/-- Publishing is refused. -/
def publish (node : String) : Except Error Unit :=
  .error (.gossip (.publish (node ++ " is connected as a query-only client")))

end Rendezvous.Query

/-
Rendezvous/Client/Smart.lean

Requests through any live proxy.

A client writes and reads through the proxies of its pool and tries again
elsewhere when one fails.  Whatever is wrong with an answer counts as a failure
of the way to the proxy that gave it.
-/
import Rendezvous.Client.Balancer
import Rendezvous.Http.Exchange
import Rendezvous.Http.Url

namespace Rendezvous.Smart

open Http

variable {σ : Type}

/-- The key-value reply that an answer carries. -/
def readReply (addr : SocketAddr) : Option Reply → Except Error Kv.Response
  | none => .error (.transport addr notSent)
  | some r =>
    if r.status = 503 then .error (.transport addr "server timed out")
    else if r.isSuccess then
      (Kv.Response.decode r.body).mapError fun _ => .transport addr notDecoded
    else .error (.transport addr ("status " ++ statusText r.status ++ ": " ++ r.bodyText))

/-- An attempt that sends one request. -/
def attempt (net : Exchange σ) (request : Request) : Balancer.Attempt σ Kv.Response :=
  fun addr (pool, s) =>
    let (reply, s) := net addr request s
    (readReply addr reply, (pool, s))

/-- The request that writes a key. -/
def putRequest (r : Kv.Request) : Request := .withJson Request.put Path.kv r.tree

/-- The request that reads a key, which becomes part of a URL. -/
def getRequest (key : String) : Request := { method := Request.get, target := Url.target (keyPath key) }

/-- Carry out a request against the candidates of a pool. -/
def send (net : Exchange σ) (d : Draws) (maxAttempts : UInt32) (request : Request)
    (used : Nat) (pool : Pool) (s : σ) : Balancer.Outcome σ Kv.Response :=
  Balancer.execute d (attempt net request) maxAttempts used pool s

end Rendezvous.Smart

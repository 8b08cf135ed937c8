/-
Rendezvous/Service/Proxy.lean

What a proxy serves.

A request is first read and turned into a plan: a reply, or a call of the
engine whose outcome makes the reply.  Writes are decoded and encoded anew;
the key of a read is the percent-decoded last segment of its path.

A gate stands before each endpoint.  It turns away requests while as many as
allowed are under way at the same endpoint, and gives up on one that takes too
long; what that one has asked of the engine is not taken back.
-/
import Rendezvous.Engine
import Rendezvous.Http.About
import Rendezvous.Http.Percent
import Rendezvous.Http.Router

namespace Rendezvous

open Http

/-- What a proxy knows when it serves. -/
structure FrontEnd where
  node : String
  snapshot : Snapshot
  deriving DecidableEq, Repr, Inhabited

namespace FrontEnd

variable {σ : Type}

/-! ### Plans -/

/-- What a proxy can be asked for. -/
inductive Endpoint where
  | root
  | health
  | about
  | config
  | put
  | get
  deriving DecidableEq, Repr

def routes : List (Route Endpoint) :=
  [⟨.path Path.root, Request.get, .root⟩, ⟨.path Path.health, Request.get, .health⟩,
    ⟨.path Path.about, Request.get, .about⟩, ⟨.path Path.config, Request.get, .config⟩,
    ⟨.path Path.kv, Request.put, .put⟩, ⟨.below Path.kv, Request.get, .get⟩]

/-- What is to be done about a request. -/
inductive Plan where
  | reply (r : Reply)
  | write (r : Kv.Request)
  | read (key : String)
  deriving DecidableEq, Repr

/-- The JSON form of the peers that a proxy knows. -/
def configTree (f : FrontEnd) : Json.Tree :=
  Json.Tree.ofFields (f.snapshot.peerMap.toList.map fun e => (e.1, e.2.tree))

def badKey : Reply := .text 400 "Invalid URL: Invalid UTF-8 in \x60key\x60"

/-- The plan for an endpoint. -/
def plan (f : FrontEnd) (r : Request) (segment : String) : Endpoint → Plan
  | .root => .reply (.text 200 (programName ++ " proxy"))
  | .health => .reply (.text 200 "OK")
  | .about => .reply (.json 200 (About.ofSnapshot f.node f.snapshot).tree)
  | .config => .reply (.json 200 f.configTree)
  | .put =>
    match r.json Kv.Request.decoder with
    | .ok q => .write q
    | .error refused => .reply refused
  | .get =>
    match Percent.decode? segment with
    | some key => .read key
    | none => .reply badKey

/-! ### Calls -/

/-- The reply to a call that ended in a key-value reply or a cause. -/
def replyOf : Except Error Kv.Response → Reply
  | .ok k => .json 200 k.tree
  | .error e => .error e

/-- Carry out a plan. -/
def run (engine : Engine σ) (s : σ) : Plan → Reply × σ
  | .reply r => (r, s)
  | .write q =>
    let (result, s) := engine.write q.encode s
    (replyOf (result.map fun _ => .ok []), s)
  | .read key =>
    let (result, s) := engine.read (Kv.Request.read key).encode s
    (replyOf (result.bind Kv.Response.decode), s)

/-- How long a plan keeps its caller waiting. -/
def paceOf (engine : Engine σ) : Plan → Pace
  | .reply _ => .atOnce
  | _ => engine.pace

/-! ### The gate -/

/-- How many requests an endpoint takes at a time, and for how long. -/
structure Gate where
  connections : Nat := 16
  timeout : Elapsed := .ofMillis 5000
  deriving DecidableEq, Repr, Inhabited

/-- The queue to which a request belongs. -/
abbrev Lane := Target Endpoint

/-- The lane of a request: that of its endpoint, whatever its key. -/
def lane (r : Request) : Lane :=
  match resolve routes r with
  | .endpoint e _ => .endpoint e ""
  | t => t

def overloaded : Reply := .text 503 "service is overloaded, try again later"
def timedOut : Reply := .text 503 "server timed out"

/-- Serve a request while others are under way in the lanes of a list. -/
def serveWith (f : FrontEnd) (gate : Gate) (engine : Engine σ) (busy : List Lane) (r : Request)
    (s : σ) : Reply × List Lane × σ :=
  let lane := lane r
  if gate.connections ≤ busy.count lane then
    match lane with
    | .endpoint .. => (overloaded.toMethod r.method, busy, s)
    | _ => (overloaded, busy, s)
  else match resolve routes r with
    | .endpoint e segment =>
      let plan := f.plan r segment e
      let pace := paceOf engine plan
      let (reply, s) := run engine s plan
      let reply := if pace.exceeds gate.timeout then timedOut else reply
      (reply.toMethod r.method, if pace.waits then lane :: busy else busy, s)
    | .wrongMethod _ allow => (.wrongMethod allow, busy, s)
    | .unknown => (.unknownPath, busy, s)

/-- Serve a request while no other is under way. -/
def serve (f : FrontEnd) (gate : Gate) (engine : Engine σ) (r : Request) (s : σ) : Reply × σ :=
  let (reply, _, s) := f.serveWith gate engine [] r s
  (reply, s)

/-- Serve requests one after the other. -/
def serveAll (f : FrontEnd) (gate : Gate) (engine : Engine σ) : List Request → σ → List Reply × σ
  | [], s => ([], s)
  | r :: rest, s =>
    let (reply, s) := f.serve gate engine r s
    let (replies, s) := serveAll f gate engine rest s
    (reply :: replies, s)

/-- Serve requests that come all at once, in their order. -/
def serveTogether (f : FrontEnd) (gate : Gate) (engine : Engine σ) :
    List Lane → List Request → σ → List Reply × σ
  | _, [], s => ([], s)
  | busy, r :: rest, s =>
    let (reply, busy, s) := f.serveWith gate engine busy r s
    let (replies, s) := serveTogether f gate engine busy rest s
    (reply :: replies, s)

end FrontEnd

end Rendezvous

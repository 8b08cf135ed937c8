/-
Rendezvous/Http/Router.lean

From requests to endpoints.

A route joins a path, or a path with one segment more, with a method and an
endpoint.  Whatever may be asked for by GET may be asked for by HEAD, which is
answered without a body.  No path has two routes.
-/
import Rendezvous.Http.Request

namespace Rendezvous.Http

/-! ### Patterns -/

/-- The paths that a route serves. -/
inductive Pattern where
  | path (s : String)
  | below (s : String)
  deriving DecidableEq, Repr, Inhabited

namespace Pattern

/-- What is left of a list after another list in front of it. -/
def after? : List Char → List Char → Option (List Char)
  | [], l => some l
  | a :: front, b :: l => if a = b then after? front l else none
  | _ :: _, [] => none

/-- The segment that a path names under a pattern; under a path that is served
as it is there is none. -/
def match? (p : Pattern) (path : String) : Option String :=
  match p with
  | .path s => if path = s then some "" else none
  | .below s =>
    match after? (s.toList ++ ['/']) path.toList with
    | some l => if l.isEmpty ∨ '/' ∈ l then none else some (String.ofList l)
    | none => none

end Pattern

/-! ### Routes -/

/-- A route to an endpoint. -/
structure Route (ε : Type) where
  pattern : Pattern
  method : String
  endpoint : ε

/-- Whether a route takes requests of a method. -/
def Route.accepts {ε : Type} (r : Route ε) (method : String) : Bool :=
  method = r.method || (method = Request.head && r.method = Request.get)

/-- The methods that a route takes. -/
def Route.allow {ε : Type} (r : Route ε) : String :=
  if r.method = Request.get then Request.get ++ "," ++ Request.head else r.method

/-- Where a request leads. -/
inductive Target (ε : Type) where
  | endpoint (e : ε) (segment : String)
  | wrongMethod (pattern : Pattern) (allow : String)
  | unknown
  deriving DecidableEq, Repr

/-- Where a request leads under some routes. -/
def resolve {ε : Type} (routes : List (Route ε)) (r : Request) : Target ε :=
  match routes.findSome? fun t => (t.pattern.match? r.path).map fun s => (t, s) with
  | some (t, segment) =>
    if t.accepts r.method then .endpoint t.endpoint segment else .wrongMethod t.pattern t.allow
  | none => .unknown

/-- Leave out the body of a reply to a HEAD request. -/
def Reply.toMethod (method : String) (p : Reply) : Reply :=
  if method = Request.head then { p with body := [] } else p

/-- The reply to a request that leads to no endpoint. -/
def Reply.wrongMethod (allow : String) : Reply := { status := 405, allow := some allow }

def Reply.unknownPath : Reply := .empty 404

end Rendezvous.Http

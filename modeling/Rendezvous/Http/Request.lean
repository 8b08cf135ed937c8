/-
Rendezvous/Http/Request.lean

Requests.

A request has a method, a target, headers and a body.  Of the target the path
alone decides what is asked for; a query after a question mark and a fragment
after a number sign do not, nor do a scheme and a host in front of the path.
-/
import Rendezvous.Http.MediaType
import Rendezvous.Http.Path
import Rendezvous.Http.Reply

namespace Rendezvous.Http

open Json

/-- A request. -/
structure Request where
  method : String
  target : String
  headers : List (String × String) := []
  body : List UInt8 := []
  deriving DecidableEq, Repr, Inhabited

namespace Request

def get : String := "GET"
def head : String := "HEAD"
def post : String := "POST"
def put : String := "PUT"

def isSchemeChar (c : Char) : Bool := c.isAlphanum || c = '+' || c = '-' || c = '.'

/-- What follows the scheme of a target, if it has one. -/
def afterScheme? : List Char → Option (List Char)
  | ':' :: '/' :: '/' :: rest => some rest
  | c :: rest => if isSchemeChar c then afterScheme? rest else none
  | [] => none

/-- The path of a target; behind a host it may be missing. -/
def path (r : Request) : String :=
  let t := r.target.toList.takeWhile fun c => c ≠ '?' && c ≠ '#'
  match (afterScheme? t).map (List.dropWhile (· ≠ '/')) with
  | none => String.ofList t
  | some [] => Path.root
  | some p => String.ofList p

/-- The value of a header, whose name is the same in either case. -/
def header? (r : Request) (name : String) : Option String :=
  (r.headers.find? fun e => MediaType.lower e.1.toList = name).map Prod.snd

/-- Whether a request says that its body is JSON. -/
def hasJson (r : Request) : Bool :=
  ((r.header? "content-type").bind MediaType.parse?).any MediaType.isJson

/-- A request that carries a JSON value. -/
def withJson (method target : String) (t : Tree) : Request :=
  ⟨method, target, [("content-type", Reply.jsonType)], Text.encodeUtf8 t.chars⟩

/-! ### JSON bodies -/

/-- The refusal of a body that is not what was expected. -/
def refusal : Fault → Reply
  | .grammar => .text 400 "Failed to parse the request body as JSON"
  | .shape => .text 422 "Failed to deserialize the JSON body into the target type"

/-- The refusal of a body that is not said to be JSON. -/
def notJson : Reply :=
  .text 415 "Expected request with \x60Content-Type: application/json\x60"

/-- The value that a body starts with; what stands after it does not matter. -/
def json {α : Type} (r : Request) (d : Decoder α) : Except Reply α :=
  if r.hasJson then (d (Json.read r.body).root).mapError refusal else .error notJson

end Request

end Rendezvous.Http

/-
Rendezvous/Http/Reply.lean

Replies to HTTP requests.

A reply has a status, a body and the two headers that callers look at.  A
cause is answered with its status and a JSON object that gives its code,
wording and kind.
-/
import Rendezvous.Http.Path
import Rendezvous.Kv.Message

namespace Rendezvous.Http

open Json

/-- A reply. -/
structure Reply where
  status : Nat
  contentType : Option String := none
  allow : Option String := none
  body : List UInt8 := []
  deriving DecidableEq, Repr, Inhabited

/-- The JSON form of a cause. -/
def errorTree (e : Error) : Tree :=
  Tree.ofFields [("error", Tree.ofFields [("code", Tree.ofNat e.status),
    ("message", Tree.ofString e.message), ("type", Tree.ofString e.kind)])]

namespace Reply

def textType : String := "text/plain; charset=utf-8"
def jsonType : String := "application/json"
def octetsType : String := "application/octet-stream"

/-- A reply without a body. -/
def empty (status : Nat) : Reply := { status }

/-- A plain text. -/
def text (status : Nat) (s : String) : Reply :=
  { status, contentType := some textType, body := Text.octetsOf s }

/-- A JSON value. -/
def json (status : Nat) (t : Tree) : Reply :=
  { status, contentType := some jsonType, body := Text.encodeUtf8 t.chars }

/-- Octets as they are. -/
def octets (l : List UInt8) : Reply := { status := 200, contentType := some octetsType, body := l }

/-- The reply to a request that failed. -/
def error (e : Error) : Reply := json e.status (errorTree e)

/-- Whether a reply reports success. -/
def isSuccess (r : Reply) : Bool := 200 ≤ r.status && r.status < 300

end Reply

end Rendezvous.Http

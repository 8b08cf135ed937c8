/-
Rendezvous/Http/Url.lean

URL text.

A URL that stands after a host is read as text: tabs and line ends are left
out, and so are control characters and spaces at its end; a number sign ends
it; what follows a question mark is the query.  In the path a backslash counts
as a slash, a segment `.` is left out and `..` takes back the segment before it,
also when their dots are percent-encoded.  Characters that may not stand in a
path are percent-encoded.
-/
import Rendezvous.Http.Percent
import Rendezvous.Text.Blank

namespace Rendezvous.Http.Url

/-! ### Characters -/

def isControl (c : Char) : Bool := c.toNat < 32 || 127 ≤ c.toNat

/-- Characters that are percent-encoded in a query. -/
def queryEscapes (c : Char) : Bool := isControl c || " \"'#<>".toList.contains c

/-- Characters that are percent-encoded in a path. -/
def pathEscapes (c : Char) : Bool := isControl c || " \"#<>?\x60\x7b\x7d".toList.contains c

def escapeBy (escapes : Char → Bool) (l : List Char) : List Char :=
  l.flatMap fun c => if escapes c then Percent.encodeChar c else [c]

/-- Leave out what no URL contains. -/
def clean (l : List Char) : List Char :=
  let ended := (l.reverse.dropWhile fun c => c.toNat ≤ 32).reverse
  ended.filter fun c => c ≠ '\t' && c ≠ '\n' && c ≠ '\r'

/-! ### Segments -/

/-- A segment with its encoded dots as they are. -/
def plainDots : List Char → List Char
  | '%' :: '2' :: e :: l =>
    if e = 'e' ∨ e = 'E' then '.' :: plainDots l else '%' :: plainDots ('2' :: e :: l)
  | c :: l => c :: plainDots l
  | [] => []

/-- Settle the segments of a path from left to right; `done` holds those before
in reverse.  Only the last segment can be followed by nothing. -/
def settle : (done : List (List Char)) → List (List Char) → List (List Char)
  | done, [] => done.reverse
  | done, s :: rest =>
    let more := if rest.isEmpty then [[]] else []
    if plainDots s = ['.', '.'] then settle (more ++ done.tail) rest
    else if plainDots s = ['.'] then settle (more ++ done) rest
    else settle (escapeBy pathEscapes s :: done) rest

/-- A path out of its segments. -/
def joinSegments (l : List (List Char)) : List Char := l.flatMap fun s => '/' :: s

/-- The path of a text that starts with a slash. -/
def readPath (l : List Char) : List Char :=
  joinSegments (settle [] (Text.cutAt (fun c => c = '/' || c = '\\') l).tail)

/-- What a client asks a host for when its URL goes on with a text. -/
def target (s : String) : String :=
  let l := (clean s.toList).takeWhile (· ≠ '#')
  let path := l.takeWhile (· ≠ '?')
  let query := escapeBy queryEscapes (l.dropWhile (· ≠ '?'))
  String.ofList (readPath path ++ query)

end Rendezvous.Http.Url

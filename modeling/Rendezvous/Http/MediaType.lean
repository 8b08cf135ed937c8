/-
Rendezvous/Http/MediaType.lean

Media types.

A media type is `type/subtype`, both of token characters, and may be followed
by parameters.  What stands after the last plus sign of a subtype, unless that
is its first character, is the suffix.  The names are the same in either case.
-/

namespace Rendezvous.Http

/-- Characters of which the names in a media type consist. -/
def isTokenChar (c : Char) : Bool :=
  c.isAlphanum || "!#$%&'*+-.^_\x60|~".toList.contains c

/-- Characters that may stand between quotes in a parameter. -/
def isQuotedChar (c : Char) : Bool := 32 ≤ c.toNat && c.toNat < 127

/-! ### Parameters -/

/-- Where a reader stands in a list of parameters. -/
inductive ParamState where
  | start
  | name
  | firstOfValue
  | value
  | firstQuoted
  | quoted
  | afterQuoted
  deriving DecidableEq, Repr

namespace ParamState

/-- Read one character of a list of parameters. -/
def next (s : ParamState) (c : Char) : Option ParamState :=
  match s with
  | start => if c = ' ' then some start else if isTokenChar c then some name else none
  | name => if c = '=' then some firstOfValue else if isTokenChar c then some name else none
  | firstOfValue =>
    if c = '"' then some firstQuoted else if isTokenChar c then some value else none
  | value => if c = ';' then some start else if isTokenChar c then some value else none
  | firstQuoted => if isQuotedChar c then some quoted else none
  | quoted => if c = '"' then some afterQuoted else if isQuotedChar c then some quoted else none
  | afterQuoted =>
    if c = ';' then some start else if c = ' ' then some afterQuoted else none

/-- Whether a list of parameters may end here. -/
def isEnd : ParamState → Bool
  | name | firstQuoted | quoted => false
  | start | firstOfValue | value | afterQuoted => true

end ParamState

/-- Whether what stands after a semicolon is a list of parameters. -/
def isParams (l : List Char) : Bool := (l.foldlM ParamState.next .start).any ParamState.isEnd

/-! ### Types -/

/-- A media type without its parameters, in lower case. -/
structure MediaType where
  main : String
  sub : String
  suffix : Option String := none
  deriving DecidableEq, Repr

namespace MediaType

/-- A subtype apart from its suffix. -/
def splitSuffix (l : List Char) : List Char × Option (List Char) :=
  let after := (l.reverse.takeWhile (· ≠ '+')).reverse
  let before := l.take (l.length - after.length - 1)
  if after.length < l.length ∧ ¬before.isEmpty then (before, some after) else (l, none)

def lower (l : List Char) : String := String.ofList (l.map Char.toLower)

/-- The media type that a text names. -/
def parse? (s : String) : Option MediaType :=
  let l := s.toList
  let main := l.takeWhile isTokenChar
  match l.dropWhile isTokenChar with
  | '/' :: rest =>
    let (sub, suffix) := splitSuffix (rest.takeWhile isTokenChar)
    let whole : MediaType := ⟨lower main, lower sub, suffix.map lower⟩
    if main.isEmpty then none
    else match rest.dropWhile isTokenChar with
      | [] => some whole
      | ';' :: params => if isParams params ∧ ¬sub.isEmpty then some whole else none
      | _ => none
  | _ => none

/-- Whether a media type is JSON or made of JSON. -/
def isJson (t : MediaType) : Bool :=
  t.main = "application" && (t.sub = "json" || t.suffix = some "json")

end MediaType

end Rendezvous.Http

/-
Rendezvous/Json/Tree.lean

JSON texts as trees.

A tree shows what a text says up to the place where it stops being JSON: the
containers that are open there are marked as not closed, and a value that
cannot be read at all is `broken`.  A reader that knows what it expects can so
report whichever comes first, a value of the wrong shape or the end of the
JSON, and a value it has no use for need only be complete.

For the same reason a string that is well quoted but is no Unicode text, and a
number that is too large for any use, are leaves of their own.
-/
import Rendezvous.Text.Escaped

namespace Rendezvous.Json

/-- A string as it was found. -/
inductive Quoted where
  | plain (s : String)
  | garbled
  deriving DecidableEq, Repr, Inhabited

/-- A number as it was found: an integer, a finite number written in another
way, or one beyond every finite number. -/
inductive Number where
  | int (i : Int)
  | real
  | huge
  deriving DecidableEq, Repr, Inhabited

/-- What a JSON text says. -/
inductive Tree where
  | null
  | bool (b : Bool)
  | number (n : Number)
  | text (s : Quoted)
  | array (items : List Tree) (closed : Bool)
  | object (fields : List (Quoted × Tree)) (closed : Bool)
  | broken
  deriving Repr, Inhabited

namespace Tree

/-! ### Building -/

def ofString (s : String) : Tree := text (.plain s)
def ofNat (n : Nat) : Tree := number (.int n)
def ofInt (i : Int) : Tree := number (.int i)
def ofList (l : List Tree) : Tree := array l true

/-- An object of named fields. -/
def ofFields (l : List (String × Tree)) : Tree :=
  object (l.map fun e => (.plain e.1, e.2)) true

/-! ### Completeness -/

mutual

/-- Whether a value is complete JSON. -/
def complete : Tree → Bool
  | broken => false
  | array items closed => closed && completeItems items
  | object fields closed => closed && completeFields fields
  | _ => true

def completeItems : List Tree → Bool
  | [] => true
  | t :: rest => complete t && completeItems rest

def completeFields : List (Quoted × Tree) → Bool
  | [] => true
  | (_, t) :: rest => complete t && completeFields rest

end

/-! ### Writing -/

mutual

/-- The text of a tree, without blanks; what has no text is left out. -/
def chars : Tree → List Char
  | null => "null".toList
  | bool b => (if b then "true" else "false").toList
  | number (.int i) =>
    (if i < 0 then ['-'] else []) ++ Nat.toDigits 10 i.natAbs
  | number _ => []
  | text s => quotedChars s
  | array items _ => '[' :: itemsChars items ++ [']']
  | object fields _ => '\x7b' :: fieldsChars fields ++ ['\x7d']
  | broken => []

def quotedChars : Quoted → List Char
  | .plain s => Text.escaped s.toList
  | .garbled => []

def itemsChars : List Tree → List Char
  | [] => []
  | [t] => chars t
  | t :: rest => chars t ++ ',' :: itemsChars rest

def fieldsChars : List (Quoted × Tree) → List Char
  | [] => []
  | [(k, t)] => quotedChars k ++ ':' :: chars t
  | (k, t) :: rest => quotedChars k ++ ':' :: chars t ++ ',' :: fieldsChars rest

end

/-- The text of a tree. -/
def write (t : Tree) : String := String.ofList t.chars

end Tree

end Rendezvous.Json

/-
Rendezvous/Json/Decoder.lean

Values of known types out of trees.

A decoder walks a tree from left to right and stops at the first fault: a
value of the wrong shape, or the place where the text stops being JSON.  A
record is an object of named fields in any order, or a list of the fields in
their own order; it may not name a field twice, and of fields it does not know
it asks only that they be complete.
-/
import Rendezvous.Json.Reader
import Rendezvous.Table

namespace Rendezvous.Json

/-- Why a text has no value of the expected type. -/
inductive Fault where
  | grammar
  | shape
  deriving DecidableEq, Repr

/-- A reading of trees as values of one type. -/
abbrev Decoder (α : Type) := Tree → Except Fault α

variable {α β : Type}

/-- The fault of a value that is not what was expected. -/
def Tree.mismatch : Tree → Fault
  | .broken => .grammar
  | .number .huge => .grammar
  | .text .garbled => .grammar
  | _ => .shape

/-- What is read is only used if a container was closed. -/
def ifClosed (closed : Bool) (a : α) : Except Fault α :=
  if closed then .ok a else .error .grammar

namespace Decoder

/-! ### Leaves -/

def string : Decoder String
  | .text (.plain s) => .ok s
  | t => .error t.mismatch

def bool : Decoder Bool
  | .bool b => .ok b
  | t => .error t.mismatch

/-- An integer from `lo` up to but not including `hi`. -/
def int (lo hi : Int) : Decoder Int
  | .number (.int i) => if lo ≤ i ∧ i < hi then .ok i else .error .shape
  | t => .error t.mismatch

/-- A natural number below a bound. -/
def nat (bound : Nat) : Decoder Nat := fun t => (int 0 bound t).map Int.toNat

/-- A string that some reader accepts. -/
def stringOf (read : String → Option α) : Decoder α := fun t => do
  let s ← string t
  match read s with
  | some a => .ok a
  | none => .error .shape

/-! ### Containers -/

/-- A list of values of one type. -/
def list (item : Decoder α) : Decoder (List α)
  | .array items closed => do
    let l ← items.mapM item
    ifClosed closed l
  | t => .error t.mismatch

/-- A value or null. -/
def optional (d : Decoder α) : Decoder (Option α)
  | .null => .ok none
  | t => (d t).map some

/-- The plain form of a key. -/
def key : Quoted → Except Fault String
  | .plain s => .ok s
  | .garbled => .error .grammar

/-- Names with values of one type; of two with one name the later counts. -/
def table (value : Decoder α) : Decoder (Table α)
  | .object fields closed => do
    let l ← fields.mapM fun e => do
      let k ← key e.1
      let v ← value e.2
      .ok (k, v)
    ifClosed closed (Table.ofList l)
  | t => .error t.mismatch

/-- One of several names, alone or as the only field of an object with null
under it. -/
def name (read : String → Option α) : Decoder α
  | .text s => do
    let s ← key s
    match read s with
    | some a => .ok a
    | none => .error .shape
  | .object ((k, t) :: more) closed => do
    let s ← key k
    match read s, t with
    | none, _ => .error .shape
    | some a, .null => if more.isEmpty then ifClosed closed a else .error .grammar
    | some _, t => .error t.mismatch
  | _ => .error .grammar

/-! ### Records -/

/-- The fields that a record knows, each with a check of its value. -/
abbrev Fields := List (String × (Tree → Except Fault Unit))

/-- A field of a record, checked by a decoder. -/
def field (name : String) (d : Decoder α) : String × (Tree → Except Fault Unit) :=
  (name, fun t => (d t).map fun _ => ())

/-- Check the fields of an object from left to right. -/
def checkFields (known : Fields) : (seen : List String) → List (Quoted × Tree) →
    Except Fault (List (String × Tree))
  | _, [] => .ok []
  | seen, (k, t) :: rest => do
    let k ← key k
    match known.lookup k with
    | some check =>
      if k ∈ seen then .error .shape
      else
        check t
        let more ← checkFields known (k :: seen) rest
        .ok ((k, t) :: more)
    | none =>
      if t.complete then checkFields known seen rest else .error .grammar

/-- Check the items of a list against the fields in their own order. -/
def checkItems : Fields → List Tree → Except Fault (List (String × Tree))
  | _, [] => .ok []
  | [], _ :: _ => .error .grammar
  | (k, check) :: known, t :: rest => do
    check t
    let more ← checkItems known rest
    .ok ((k, t) :: more)

/-- The known fields of a record, each found at most once. -/
def record (known : Fields) : Decoder (List (String × Tree))
  | .object fields closed => do
    let l ← checkFields known [] fields
    ifClosed closed l
  | .array items closed => do
    let l ← checkItems known items
    ifClosed closed l
  | t => .error t.mismatch

/-- A field that a record must have. -/
def required (l : List (String × Tree)) (name : String) (d : Decoder α) : Except Fault α :=
  match l.lookup name with
  | some t => d t
  | none => .error .shape

/-- A field that a record may do without. -/
def defaulted (l : List (String × Tree)) (name : String) (d : Decoder α) (a : α) :
    Except Fault α :=
  match l.lookup name with
  | some t => d t
  | none => .ok a

/-! ### Whole texts -/

/-- Decode a whole text. -/
def decode (d : Decoder α) (l : List UInt8) : Except Fault α := do
  let document := read l
  let a ← d document.root
  ifClosed document.clean a

end Decoder

end Rendezvous.Json

/-
Rendezvous/Json/Reader.lean

From words to trees.

A value is a name, a number, a string, or a list or object of values.  Every
step takes at least one word, so twice the number of words bounds the depth of
the recursion.
-/
import Rendezvous.Json.Token

namespace Rendezvous.Json

mutual

/-- A value off the front; no rest means that the text stops being JSON in it. -/
def readValue : Nat → List Token → Tree × Option (List Token)
  | _ + 1, .openList :: .closeList :: l => (.array [] true, some l)
  | n + 1, .openList :: l =>
    let (items, rest) := readItems n l
    (.array items rest.isSome, rest)
  | _ + 1, .openObject :: .closeObject :: l => (.object [] true, some l)
  | n + 1, .openObject :: l =>
    let (fields, rest) := readFields n l
    (.object fields rest.isSome, rest)
  | _ + 1, .null :: l => (.null, some l)
  | _ + 1, .bool b :: l => (.bool b, some l)
  | _ + 1, .number x :: l => (.number x, some l)
  | _ + 1, .text s :: l => (.text s, some l)
  | _, _ => (.broken, none)

/-- The items of a list, up to its end. -/
def readItems : Nat → List Token → List Tree × Option (List Token)
  | n + 1, l =>
    match readValue n l with
    | (t, some (.comma :: l)) =>
      let (items, rest) := readItems n l
      (t :: items, rest)
    | (t, some (.closeList :: l)) => ([t], some l)
    | (t, _) => ([t], none)
  | 0, _ => ([], none)

/-- The fields of an object, up to its end. -/
def readFields : Nat → List Token → List (Quoted × Tree) × Option (List Token)
  | n + 1, .text k :: .colon :: l =>
    match readValue n l with
    | (t, some (.comma :: l)) =>
      let (fields, rest) := readFields n l
      ((k, t) :: fields, rest)
    | (t, some (.closeObject :: l)) => ([(k, t)], some l)
    | (t, _) => ([(k, t)], none)
  | _ + 1, .text k :: _ => ([(k, .broken)], none)
  | _, _ => ([], none)

end

/-- What a text says, and whether nothing stands after it. -/
structure Document where
  root : Tree
  clean : Bool
  deriving Inhabited

/-- Read a whole text. -/
def read (l : List UInt8) : Document :=
  let words := tokens l
  let (root, rest) := readValue (2 * words.length + 2) words
  ⟨root, rest.any List.isEmpty⟩

end Rendezvous.Json

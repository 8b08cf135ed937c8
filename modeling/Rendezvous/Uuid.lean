/-
Rendezvous/Uuid.lean

Identifiers of 128 bits and their text.

An identifier is written as 32 lower-case hexadecimal digits in five groups.
It is read from that form in any case, from the digits alone, from the form in
braces and from the form after `urn:uuid:`.  For any other text the fault
reported is the first foreign character, else the number of digits or groups,
else the first group of the wrong length.  In a text as long as one of the
hyphenated forms places are counted within the part where the groups must
stand; in any other text they are counted from the start.
-/
import Rendezvous.Octets
import Rendezvous.Text.Numeral
import Rendezvous.Text.Blank
import Rendezvous.Text.Utf8

namespace Rendezvous

/-- A universally unique identifier. -/
structure Uuid where
  octets : Octets 16
  deriving DecidableEq, Repr, Inhabited

namespace Uuid

/-- The identifier of zeros. -/
def nil : Uuid := ⟨Octets.zero 16⟩

/-- Identifiers are ordered by their octets. -/
def le (a b : Uuid) : Bool := a.octets.compare b.octets != .gt

/-- The version that an identifier claims. -/
def version (u : Uuid) : Nat := ((u.octets.toList[6]?).getD 0).toNat / 16

/-- The identifier of a random draw: all but six bits, which mark version 4,
are those of the draw. -/
def ofDraw (draw : Octets 16) : Uuid :=
  let stamped := (draw.toList.modify 6 fun b => b &&& 0x0F ||| 0x40).modify 8
    fun b => b &&& 0x3F ||| 0x80
  ⟨⟨stamped, by simp [stamped, draw.length_toList]⟩⟩

/-! ### Writing -/

/-- The hexadecimal digits of an octet list. -/
def digits (l : List UInt8) : List Char :=
  l.flatMap fun b => Text.hexPadded 2 b.toNat

/-- The hyphenated text. -/
def chars (u : Uuid) : List Char :=
  let d := digits u.octets.toList
  d.take 8 ++ '-' :: (d.drop 8).take 4 ++ '-' :: (d.drop 12).take 4
    ++ '-' :: (d.drop 16).take 4 ++ '-' :: d.drop 20

/-- The hyphenated text, as it is printed. -/
def text (u : Uuid) : String := String.ofList u.chars

/-! ### Reading -/

/-- Why a text is no identifier. -/
inductive Fault where
  | character (c : Char) (offset : Nat)
  | length (n : Nat)
  | groupCount (n : Nat)
  | groupLength (group expected found : Nat)
  deriving DecidableEq, Repr

/-- Wording of a fault. -/
def Fault.message : Fault → String
  | character c n => "invalid character: found \x60" ++ c.toString ++ "\x60 at " ++ toString n
  | length n => "invalid length: found " ++ toString n
  | groupCount n => "invalid group count: expected 5, found " ++ toString n
  | groupLength g e n =>
    "invalid group length in group " ++ toString g ++ ": expected " ++ toString e
      ++ ", found " ++ toString n

/-- Octets of a list of hexadecimal digits, two by two. -/
def octetsOfDigits? : List Char → Option (List UInt8)
  | [] => some []
  | [_] => none
  | a :: b :: rest => do
    let hi ← Text.digit? 16 a
    let lo ← Text.digit? 16 b
    let more ← octetsOfDigits? rest
    some (UInt8.ofNat (hi * 16 + lo) :: more)

/-- An identifier from its digits alone. -/
def ofDigits? (s : List Char) : Option Uuid := do
  let l ← octetsOfDigits? s
  let o ← Octets.ofList? 16 l
  some ⟨o⟩

/-- An identifier from its hyphenated form. -/
def ofHyphenated? (s : List Char) : Option Uuid :=
  let groups := Text.cutAt (· == '-') s
  if groups.map List.length = [8, 4, 4, 4, 12] then ofDigits? groups.flatten else none

/-- A text without the braces around it or the mark before it, how many octets
were in front of it, and how many are gone in all. -/
structure Stripped where
  body : List Char
  offset : Nat
  lost : Nat

/-- Take off braces, or else the mark `urn:uuid:` in any case. -/
def strip (s : List Char) : Stripped :=
  if s.head? = some '\x7b' ∧ s.getLast? = some '\x7d' ∧ 2 ≤ s.length then
    ⟨s.tail.dropLast, 1, 2⟩
  else if (s.take 9).map Char.toLower = "urn:uuid:".toList then ⟨s.drop 9, 9, 9⟩
  else ⟨s, 0, 0⟩

/-- The first character that is neither a digit nor a hyphen, with its place
in octets. -/
def foreign? (offset : Nat) : List Char → Option (Char × Nat)
  | [] => none
  | c :: rest =>
    if c = '-' ∨ (Text.digit? 16 c).isSome then foreign? (offset + c.utf8Size) rest
    else some (c, offset)

/-- The first of the leading groups whose length is wrong. -/
def wrongGroup? (i : Nat) : List Nat → List Nat → Option Fault
  | expected :: es, found :: fs =>
    if expected = found then wrongGroup? (i + 1) es fs
    else some (.groupLength i expected found)
  | _, _ => none

/-- Length of the hyphenated text. -/
def hyphenatedLength : Nat := 36

/-- The part of a text that is as long as one of the hyphenated forms in which
the groups must stand; any other text is taken as a whole. -/
def groupsOf (s : List Char) : List Char :=
  let t := strip s
  if (Text.encodeUtf8 s).length = hyphenatedLength + t.lost then t.body else s

/-- What is wrong with a text, once it is known to be no identifier. -/
def faultIn (s : List Char) : Fault :=
  let size := (Text.encodeUtf8 s).length
  let t := strip s
  match foreign? t.offset t.body with
  | some (c, n) => .character c n
  | none =>
    let lengths := (Text.cutAt (· == '-') t.body).map List.length
    if lengths.length = 1 ∧ t.lost = 0 ∧ size ≠ hyphenatedLength then .length size
    else if lengths.length ≠ 5 then .groupCount lengths.length
    else (wrongGroup? 0 [8, 4, 4, 4] lengths).getD (.groupLength 4 12 (size - 24))

/-- What is wrong with a text that is no identifier. -/
def faultOf (s : List Char) : Fault :=
  let size := (Text.encodeUtf8 s).length
  if size = 0 ∨ 45 < size then .length size else faultIn (groupsOf s)

/-- An identifier from any of its forms. -/
def ofChars? (s : List Char) : Option Uuid :=
  let t := strip s
  (ofHyphenated? t.body).or (if t.lost = 0 then ofDigits? t.body else none)

/-- Read an identifier, or tell what is wrong with the text. -/
def parse (s : String) : Except Fault Uuid :=
  match ofChars? s.toList with
  | some u => .ok u
  | none => .error (faultOf s.toList)

end Uuid

end Rendezvous

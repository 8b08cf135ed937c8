/-
Rendezvous/Seal.lean

Checksums over tag sets.

The checksum of a tag set is the CRC-32 of a JSON array of strings: every key
with its value appended, in ascending key order.  Sealing puts it under its own
tag, unsealing takes it off again and verifies it over what is left.

The digest is defined on lists of entries and sorts them itself, so it is the
same for every order in which a set may be enumerated.
-/
import Rendezvous.Crc32
import Rendezvous.Error
import Rendezvous.Tag
import Rendezvous.Text.Escaped
import Rendezvous.Text.Utf8

namespace Rendezvous

/-- A checksum over a tag set. -/
structure Checksum where
  value : UInt32
  deriving DecidableEq, Repr

namespace Checksum

/-! ### Text of a checksum -/

/-- The four octets of a checksum, the least significant first. -/
def octets (c : Checksum) : List UInt8 :=
  [c.value.toUInt8, (c.value >>> 8).toUInt8, (c.value >>> 16).toUInt8,
    (c.value >>> 24).toUInt8]

/-- The checksum of four octets. -/
def ofOctets (a b c d : UInt8) : Checksum :=
  ⟨a.toUInt32 ||| (b.toUInt32 <<< 8) ||| (c.toUInt32 <<< 16) ||| (d.toUInt32 <<< 24)⟩

/-- The tag value: eight lower-case hexadecimal digits. -/
def text (c : Checksum) : String :=
  String.ofList (c.octets.flatMap fun b => Text.hexPadded 2 b.toNat)

/-- One octet as two characters; the first may be a plus sign. -/
def octet? (a b : Char) : Option UInt8 :=
  (Text.readNumeral 16 256 [a, b]).toOption.map UInt8.ofNat

/-- The checksum of a tag value. -/
def ofText? (s : String) : Option Checksum :=
  match s.toList with
  | [a, b, c, d, e, f, g, h] => do
    let w ← octet? a b
    let x ← octet? c d
    let y ← octet? e f
    let z ← octet? g h
    some (ofOctets w x y z)
  | _ => none

/-- Read a tag value, or tell that it is malformed. -/
def parse (s : String) : Except Error Checksum :=
  match ofText? s with
  | some c => .ok c
  | none => .error (.integrity (.malformedChecksum s))

/-! ### The digest -/

/-- The strings under the checksum, in ascending key order. -/
def lines (l : List (String × String)) : List String :=
  (l.mergeSort fun a b => decide (a.1 ≤ b.1)).map fun e => e.1 ++ e.2

/-- A list of strings as a JSON array. -/
def array (l : List String) : List Char :=
  '[' :: [','].intercalate (l.map fun s => Text.escaped s.toList) ++ [']']

/-- The octets under the checksum. -/
def message (l : List (String × String)) : List UInt8 := Text.encodeUtf8 (array (lines l))

/-- The checksum over a list of entries. -/
def ofEntries (l : List (String × String)) : Checksum := ⟨Crc32.checksum (message l)⟩

/-- The checksum over a tag set. -/
def of (tags : TagSet) : Checksum := ofEntries tags.toList

end Checksum

/-! ### Sealing

Sets are sealed and unsealed by their entries, in whichever order these come.
-/

namespace TagSet

/-- Entries without the checksum. -/
def bareEntries (l : List (String × String)) : List (String × String) :=
  l.filter fun e => e.1 != Tag.checksum

/-- Whether a checksum is that of the other entries. -/
def validateEntries (l : List (String × String)) (c : Checksum) : Except Error Unit :=
  let computed := Checksum.ofEntries (bareEntries l)
  if computed = c then .ok () else .error (.integrity (.mismatch c.value computed.value))

/-- Take the checksum off a list of entries, if it is right. -/
def unsealedEntries (l : List (String × String)) : Except Error (List (String × String)) :=
  match l.lookup Tag.checksum with
  | none => .error (.integrity .missingChecksum)
  | some advertised => do
    let c ← Checksum.parse advertised
    validateEntries (bareEntries l) c
    .ok (bareEntries l)

/-- A tag set without its checksum. -/
def bare (tags : TagSet) : TagSet := tags.erase Tag.checksum

/-- Whether a checksum is that of the other tags. -/
def validate (tags : TagSet) (c : Checksum) : Except Error Unit := validateEntries tags.toList c

/-- Put the checksum of all other tags under its own. -/
def sealed (tags : TagSet) : TagSet :=
  tags.insert Tag.checksum (Checksum.of (bare tags)).text

/-- Take the checksum off, if it is right. -/
def unsealed (tags : TagSet) : Except Error TagSet := do
  let _ ← unsealedEntries tags.toList
  .ok (bare tags)

end TagSet

end Rendezvous

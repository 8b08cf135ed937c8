/-
Rendezvous/Http/Percent.lean

Percent-encoded octets.

In a path an octet may be written as a percent sign and two hexadecimal
digits.  A percent sign that is not followed by two of them stands for itself.
-/
import Rendezvous.Text.Numeral
import Rendezvous.Text.Utf8

namespace Rendezvous.Http.Percent

/-- The value of an octet that is a hexadecimal digit. -/
def hexOctet? (b : UInt8) : Option Nat := Text.digit? 16 (Char.ofNat b.toNat)

/-- Resolve the octets that are written with a percent sign. -/
def decodeOctets : List UInt8 → List UInt8
  | 37 :: a :: b :: rest =>
    match hexOctet? a, hexOctet? b with
    | some hi, some lo => UInt8.ofNat (hi * 16 + lo) :: decodeOctets rest
    | _, _ => 37 :: decodeOctets (a :: b :: rest)
  | x :: rest => x :: decodeOctets rest
  | [] => []

/-- The text that a percent-encoded text stands for, if it is UTF-8. -/
def decode? (s : String) : Option String := Text.decodeUtf8? (decodeOctets (Text.octetsOf s))

/-- An octet with a percent sign. -/
def encodeOctet (b : UInt8) : List Char :=
  ['%', (Text.digitChar (b.toNat / 16)).toUpper, (Text.digitChar (b.toNat % 16)).toUpper]

/-- A character with its octets percent-encoded. -/
def encodeChar (c : Char) : List Char := (Text.encodeUtf8 [c]).flatMap encodeOctet

end Rendezvous.Http.Percent

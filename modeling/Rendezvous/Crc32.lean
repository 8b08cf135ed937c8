/-
Rendezvous/Crc32.lean

The cyclic redundancy check CRC-32 of IEEE 802.3.

The register starts with all bits set, takes in the octets from left to right
with the least significant bit first, and is inverted at the end.  Each octet
is eight divisions by the reversed polynomial, so the check of a whole message
is a left fold of one step.
-/

namespace Rendezvous.Crc32

/-- One bit: divide by the reversed polynomial. -/
def shift (r : UInt32) : UInt32 :=
  if r &&& 1 = 1 then (r >>> 1) ^^^ 0xEDB88320 else r >>> 1

/-- Take one octet into the register. -/
def feed (r : UInt32) (b : UInt8) : UInt32 :=
  (shift ∘ shift ∘ shift ∘ shift ∘ shift ∘ shift ∘ shift ∘ shift) (r ^^^ b.toUInt32)

/-- The check value of a message. -/
def checksum (message : List UInt8) : UInt32 :=
  message.foldl feed 0xFFFFFFFF ^^^ 0xFFFFFFFF

end Rendezvous.Crc32

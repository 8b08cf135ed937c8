/-
Rendezvous/Peer/Compact.lean

Peers in the space of a tag.

Tags are small, so an identifier is shrunk to the 22 base64 symbols of its
octets, and a peer to those symbols followed by the base64 text of its address
and ports.  The identifier becomes the name of a tag and the rest its value;
reading puts them together again.  Exactly the written forms can be read.
-/
import Rendezvous.Base64
import Rendezvous.Error
import Rendezvous.Peer
import Rendezvous.Text.Utf8

namespace Rendezvous.Peer

/-! ### Identifiers -/

/-- Width of a compact identifier. -/
def compactWidth : Nat := 22

/-- The compact form of an identifier. -/
def compactId (id : Uuid) : String := Base64.text id.octets.toList

/-- The identifier of a compact form. -/
def expandId (key : String) : Except Error Uuid :=
  let refusal := Text.quoted key ++ " is not a compacted identifier"
  if (Text.octetsOf key).length ≠ compactWidth then .error (.codec refusal)
  else match Base64.decode (Text.octetsOf key) with
    | .error f => .error (.codec (refusal ++ ": " ++ f.message))
    | .ok l =>
      match Octets.ofList? 16 l with
      | some o => .ok ⟨o⟩
      | none => .error (.codec ("invalid uuid: invalid length: expected 16 bytes, found "
          ++ toString l.length))

/-- Whether a tag name has the shape of a compact identifier. -/
def isCompactId (key : String) : Bool := (expandId key).toBool

/-! ### Address and ports -/

/-- Mark of an address of four octets. -/
def familyV4 : UInt8 := 4

/-- Mark of an address of sixteen octets. -/
def familyV6 : UInt8 := 6

/-- Address and ports as octets, after the mark of the address family. -/
def bodyOctets (p : Peer) : List UInt8 :=
  (match p.ip with
    | .v4 o => familyV4 :: o.toList
    | .v6 o => familyV6 :: o.toList)
  ++ octetsOfWord p.servicePort ++ octetsOfWord p.clientPort

/-- The two ports at the end of a record. -/
def ports? : List UInt8 → Option (UInt16 × UInt16)
  | [a, b, c, d] => some (wordOfOctets a b, wordOfOctets c d)
  | _ => none

/-- Address and ports after the mark of an address family. -/
def readBody? (family : UInt8) (rest : List UInt8) : Option (IpAddr × UInt16 × UInt16) :=
  if family = familyV4 then do
    let o ← Octets.ofList? 4 (rest.take 4)
    let ports ← ports? (rest.drop 4)
    some (.v4 o, ports)
  else if family = familyV6 then do
    let o ← Octets.ofList? 16 (rest.take 16)
    let ports ← ports? (rest.drop 16)
    some (.v6 o, ports)
  else none

/-- The peer of an identifier and the octets of its record. -/
def ofOctets (id : Uuid) : List UInt8 → Except Error Peer
  | [] => .error (.codec ("empty record for " ++ id.text))
  | family :: rest =>
    match readBody? family rest with
    | some (ip, service, client) => .ok ⟨id, ip, service, client⟩
    | none =>
      .error (.codec ("bad record for " ++ id.text ++ ": family " ++ toString family.toNat
        ++ " with " ++ toString rest.length ++ " bytes"))

/-! ### Records -/

/-- The value of a peer's tag. -/
def compactBody (p : Peer) : String := Base64.text p.bodyOctets

/-- The compact form of a peer. -/
def compact (p : Peer) : String := compactId p.id ++ p.compactBody

/-- The peer of a tag's value and name. -/
def expand (body key : String) : Except Error Peer := do
  let id ← expandId key
  match Base64.decode (Text.octetsOf body) with
  | .error f =>
    .error (.codec ("record for " ++ id.text ++ " is not valid base64: " ++ f.message))
  | .ok l => ofOctets id l

/-- Cut a list of characters after so many octets, if a character ends there. -/
def splitOctets : Nat → List Char → Option (List Char × List Char)
  | 0, l => some ([], l)
  | _ + 1, [] => none
  | n + 1, c :: rest =>
    if c.utf8Size ≤ n + 1 then
      (splitOctets (n + 1 - c.utf8Size) rest).map fun r => (c :: r.1, r.2)
    else none
  termination_by _ l => l.length

/-- Cut a compact form into the identifier and the rest. -/
def splitCompact (s : String) : Except Error (String × String) :=
  match splitOctets compactWidth s.toList with
  | some (key, body) => .ok (String.ofList key, String.ofList body)
  | none => .error (.codec "compacted record shorter than its identifier prefix")

end Rendezvous.Peer

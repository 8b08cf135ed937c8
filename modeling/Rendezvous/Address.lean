/-
Rendezvous/Address.lean

Network addresses and their text.

An address is four or sixteen octets; with a port it is the address of a
socket.  Reading follows the textual grammar: four decimal parts without
leading zeros, or up to eight groups of hexadecimal digits of which one run
may be left out and the last two may be written as four decimal parts.
Writing is in the recommended form: the longest run of two or more zero groups
is left out, the first such run on ties, and only mapped IPv4 addresses keep
the decimal parts.
-/
import Rendezvous.Octets
import Rendezvous.Text.Numeral

namespace Rendezvous

/-! ### Types -/

/-- An Internet address. -/
inductive IpAddr where
  | v4 (octets : Octets 4)
  | v6 (octets : Octets 16)
  deriving DecidableEq, Repr

instance : Inhabited IpAddr := ⟨.v4 (.zero 4)⟩

/-- The address of a socket; `scope` is the number of the interface to which a
link-local address belongs, zero for none. -/
structure SocketAddr where
  ip : IpAddr
  port : UInt16
  scope : UInt32 := 0
  deriving DecidableEq, Repr, Inhabited

/-! ### Order -/

/-- Addresses of four octets come first. -/
def IpAddr.compare : IpAddr → IpAddr → Ordering
  | v4 a, v4 b => a.compare b
  | v4 _, v6 _ => .lt
  | v6 _, v4 _ => .gt
  | v6 a, v6 b => a.compare b

/-- By address, then port, then scope. -/
def SocketAddr.compare (a b : SocketAddr) : Ordering :=
  (a.ip.compare b.ip).then
    ((Ord.compare a.port.toNat b.port.toNat).then
      (Ord.compare a.scope.toNat b.scope.toNat))

/-- The order in which sockets are listed. -/
def SocketAddr.le (a b : SocketAddr) : Bool := a.compare b != .gt

/-- Drop the repetitions from a list in which equal addresses stand together. -/
def SocketAddr.collapse : List SocketAddr → List SocketAddr
  | a :: b :: rest => if a = b then collapse (b :: rest) else a :: collapse (b :: rest)
  | l => l

/-- Addresses in ascending order, each once. -/
def SocketAddr.listing (addrs : List SocketAddr) : List SocketAddr :=
  collapse (addrs.mergeSort SocketAddr.le)

namespace Address

/-! ### Reading numbers -/

/-- Take a number off the front: at most `width` digits if a width is given,
below `bound`, and without a leading zero unless `zeros`. -/
def readNumber (radix : Nat) (width : Option Nat) (zeros : Bool) (bound : Nat)
    (s : List Char) : Option (Nat × List Char) :=
  let isDigit := fun c => (Text.digit? radix c).isSome
  let digits := s.takeWhile isDigit
  let n := digits.foldl (fun acc c => acc * radix + (Text.digit? radix c).getD 0) 0
  if digits.isEmpty ∨ (width.any (· < digits.length))
      ∨ (!zeros ∧ digits.head? = some '0' ∧ 1 < digits.length) ∨ bound ≤ n then none
  else some (n, s.dropWhile isDigit)

/-- Take a given character off the front. -/
def readChar (c : Char) : List Char → Option (List Char)
  | c' :: rest => if c = c' then some rest else none
  | [] => none

/-- Take a colon off the front, unless this is the first group. -/
def readColon (first : Bool) (s : List Char) : Option (List Char) :=
  if first then some s else readChar ':' s

/-! ### Reading addresses -/

/-- One decimal part. -/
def readPart (s : List Char) : Option (UInt8 × List Char) := do
  let (n, s) ← readNumber 10 (some 3) false 256 s
  some (UInt8.ofNat n, s)

/-- Four decimal parts. -/
def readV4 (s : List Char) : Option (Octets 4 × List Char) := do
  let (a, s) ← readPart s
  let s ← readChar '.' s
  let (b, s) ← readPart s
  let s ← readChar '.' s
  let (c, s) ← readPart s
  let s ← readChar '.' s
  let (d, s) ← readPart s
  some (⟨[a, b, c, d], rfl⟩, s)

/-- Groups taken off the front, and whether decimal parts ended them. -/
structure Groups where
  octets : List UInt8
  decimal : Bool

/-- Take up to `room` groups off the front; decimal parts need room for two. -/
def readGroups : (room : Nat) → (first : Bool) → List Char → Groups × List Char
  | 0, _, s => (⟨[], false⟩, s)
  | room + 1, first, s =>
    let parts := if room = 0 then none else readColon first s >>= readV4
    match parts with
    | some (a, rest) => (⟨a.toList, true⟩, rest)
    | none =>
      match readColon first s >>= readNumber 16 (some 4) true 65536 with
      | some (g, rest) =>
        let (more, rest) := readGroups room false rest
        (⟨octetsOfWord (UInt16.ofNat g) ++ more.octets, more.decimal⟩, rest)
      | none => (⟨[], false⟩, s)

/-- Sixteen octets in groups. -/
def readV6 (s : List Char) : Option (Octets 16 × List Char) := do
  let (head, s) := readGroups 8 true s
  if head.octets.length = 16 then
    let o ← Octets.ofList? 16 head.octets
    some (o, s)
  else if head.decimal then none
  else
    let s ← readChar ':' s
    let s ← readChar ':' s
    let (tail, s) := readGroups (7 - head.octets.length / 2) true s
    let zeros := List.replicate (16 - head.octets.length - tail.octets.length) 0
    let o ← Octets.ofList? 16 (head.octets ++ zeros ++ tail.octets)
    some (o, s)

/-- A port and nothing after it. -/
def readPort (s : List Char) : Option UInt16 := do
  let s ← readChar ':' s
  let (n, s) ← readNumber 10 none true 65536 s
  if s.isEmpty then some (UInt16.ofNat n) else none

/-- The scope of an address, when it has one. -/
def readScope (s : List Char) : Option (UInt32 × List Char) :=
  match readChar '%' s with
  | none => some (0, s)
  | some s => do
    let (n, s) ← readNumber 10 none true (Nat.pow 2 32) s
    some (UInt32.ofNat n, s)

/-! ### Writing addresses -/

/-- Four decimal parts. -/
def partsText (l : List UInt8) : String :=
  ".".intercalate (l.map fun b => Text.decimal b.toNat)

/-- Hexadecimal groups between colons. -/
def groupsText (l : List UInt16) : String :=
  ":".intercalate (l.map fun w => Text.hex w.toNat)

/-- Length of the run of zeros at the front. -/
def zeroRun (l : List UInt16) : Nat := (l.takeWhile (· == 0)).length

/-- Where the longest run of zeros starts and how long it is; the first on
ties.  `i` is the place of the list in the whole. -/
def longestRun : (i : Nat) → List UInt16 → Nat × Nat
  | _, [] => (0, 0)
  | i, w :: rest =>
    let here := zeroRun (w :: rest)
    let later := longestRun (i + 1) rest
    if later.2 ≤ here then (i, here) else later

/-- The text of sixteen octets. -/
def v6Text (l : List UInt8) : String :=
  if l.take 12 = List.replicate 10 0 ++ [0xFF, 0xFF] then
    "::ffff:" ++ partsText (l.drop 12)
  else
    let groups := wordsOfOctets l
    let (start, count) := longestRun 0 groups
    if 2 ≤ count then
      groupsText (groups.take start) ++ "::" ++ groupsText (groups.drop (start + count))
    else groupsText groups

end Address

/-! ### Text of addresses -/

/-- The text of an address. -/
def IpAddr.text : IpAddr → String
  | v4 o => Address.partsText o.toList
  | v6 o => Address.v6Text o.toList

/-- An address read from the whole of a text. -/
def IpAddr.parse? (s : String) : Option IpAddr :=
  let cs := s.toList
  let r := ((Address.readV4 cs).map fun r => (v4 r.1, r.2)).or
    ((Address.readV6 cs).map fun r => (v6 r.1, r.2))
  r.bind fun r => if r.2.isEmpty then some r.1 else none

/-- The text of a socket's address. -/
def SocketAddr.text (a : SocketAddr) : String :=
  let port := ":" ++ Text.decimal a.port.toNat
  match a.ip with
  | .v4 _ => a.ip.text ++ port
  | .v6 _ =>
    let scope := if a.scope = 0 then "" else "%" ++ Text.decimal a.scope.toNat
    "[" ++ a.ip.text ++ scope ++ "]" ++ port

/-- The address of a socket read from the whole of a text. -/
def SocketAddr.parse? (s : String) : Option SocketAddr :=
  let cs := s.toList
  let plain : Option SocketAddr := do
    let (o, rest) ← Address.readV4 cs
    let port ← Address.readPort rest
    some ⟨.v4 o, port, 0⟩
  let bracketed : Option SocketAddr := do
    let rest ← Address.readChar '[' cs
    let (o, rest) ← Address.readV6 rest
    let (scope, rest) ← Address.readScope rest
    let rest ← Address.readChar ']' rest
    let port ← Address.readPort rest
    some ⟨.v6 o, port, scope⟩
  plain.or bracketed

end Rendezvous

/-
Rendezvous/Octets.lean

Octet strings of a fixed length.

Identifiers and addresses are octet strings whose length belongs to their
type.  They are ordered octet by octet from the left.
-/

namespace Rendezvous

/-- A string of `n` octets. -/
structure Octets (n : Nat) where
  toList : List UInt8
  length_toList : toList.length = n
  deriving DecidableEq, Repr

namespace Octets

variable {n : Nat}

/-- A list of octets, if its length is right. -/
def ofList? (n : Nat) (l : List UInt8) : Option (Octets n) :=
  if h : l.length = n then some ⟨l, h⟩ else none

/-- The octet string of zeros. -/
def zero (n : Nat) : Octets n := ⟨List.replicate n 0, List.length_replicate⟩

instance : Inhabited (Octets n) := ⟨zero n⟩

/-- Octet by octet from the left. -/
def compare (a b : Octets n) : Ordering :=
  if a.toList < b.toList then .lt else if a.toList = b.toList then .eq else .gt

/-- The number whose octets these are, the first the most significant. -/
def toNat (a : Octets n) : Nat :=
  a.toList.foldl (fun acc b => acc * 256 + b.toNat) 0

end Octets

/-! ### Words as octets -/

/-- The two octets of a word, the most significant first. -/
def octetsOfWord (w : UInt16) : List UInt8 :=
  [UInt8.ofNat (w.toNat / 256), UInt8.ofNat (w.toNat % 256)]

/-- The word of two octets. -/
def wordOfOctets (hi lo : UInt8) : UInt16 := UInt16.ofNat (hi.toNat * 256 + lo.toNat)

/-- Octets taken in pairs, as words. -/
def wordsOfOctets : List UInt8 → List UInt16
  | hi :: lo :: rest => wordOfOctets hi lo :: wordsOfOctets rest
  | _ => []

end Rendezvous

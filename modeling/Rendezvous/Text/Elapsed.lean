/-
Rendezvous/Text/Elapsed.lean

Lengths of time and their text.

A length of time counts nanoseconds.  Its text uses the largest of the units
s, ms, µs and ns in which it has a whole part, with as many decimals as are
needed and no more.
-/
import Rendezvous.Text.Numeral

namespace Rendezvous

/-- A length of time. -/
structure Elapsed where
  nanos : Nat
  deriving DecidableEq, Repr, Inhabited

namespace Elapsed

def ofMillis (n : Nat) : Elapsed := ⟨n * 1000000⟩

def ofParts (secs nanos : Nat) : Elapsed := ⟨secs * 1000000000 + nanos⟩

/-- No wait lasts longer than thirty years. -/
def longestWait : Elapsed := ofMillis 946080000000

/-- How long a wait lasts that is to last for some time. -/
def wait (e : Elapsed) : Elapsed := ⟨min e.nanos longestWait.nanos⟩

/-- Decimals of `rest` parts in `10 ^ width`, without zeros at the end. -/
def decimals (width rest : Nat) : List Char :=
  let digits := Nat.toDigits 10 rest
  let padded := List.replicate (width - digits.length) '0' ++ digits
  (padded.reverse.dropWhile (· == '0')).reverse

/-- `n` nanoseconds in a unit of `10 ^ width` nanoseconds. -/
def inUnit (width : Nat) (unit : String) (n : Nat) : String :=
  let fraction := decimals width (n % Nat.pow 10 width)
  let point := if fraction.isEmpty then [] else ['.']
  Text.decimal (n / Nat.pow 10 width) ++ String.ofList (point ++ fraction) ++ unit

/-- The text of a length of time. -/
def text (e : Elapsed) : String :=
  if 1000000000 ≤ e.nanos then inUnit 9 "s" e.nanos
  else if 1000000 ≤ e.nanos then inUnit 6 "ms" e.nanos
  else if 1000 ≤ e.nanos then inUnit 3 "µs" e.nanos
  else inUnit 0 "ns" e.nanos

end Elapsed

end Rendezvous

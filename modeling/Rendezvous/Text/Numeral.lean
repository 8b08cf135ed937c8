/-
Rendezvous/Text/Numeral.lean

Numerals in decimal and hexadecimal.

Reading a numeral goes from left to right and stops at the first thing wrong
with it: a character that is no digit, or a value that no longer fits below
the bound.  A single leading plus sign is allowed, and leading zeros are.
Writing uses lower-case digits.
-/

namespace Rendezvous.Text

/-! ### Digits -/

/-- The value of a digit in radix ten or sixteen, letters in either case. -/
def digit? (radix : Nat) (c : Char) : Option Nat :=
  let n := c.toNat
  let d :=
    if 48 ≤ n ∧ n ≤ 57 then some (n - 48)
    else if 97 ≤ n ∧ n ≤ 102 then some (n - 87)
    else if 65 ≤ n ∧ n ≤ 70 then some (n - 55)
    else none
  d.filter (· < radix)

/-- The lower-case digit of a value below sixteen. -/
def digitChar (d : Nat) : Char :=
  if d < 10 then Char.ofNat (48 + d) else Char.ofNat (87 + d)

/-! ### Reading -/

/-- What can be wrong with a numeral. -/
inductive NumeralError where
  | empty
  | invalidDigit
  | tooLarge
  deriving DecidableEq, Repr

/-- Wording of a numeral's fault. -/
def NumeralError.message : NumeralError → String
  | empty => "cannot parse integer from empty string"
  | invalidDigit => "invalid digit found in string"
  | tooLarge => "number too large to fit in target type"

/-- Take in further digits; `bound` is the first value that does not fit. -/
def readDigits (radix bound : Nat) : Nat → List Char → Except NumeralError Nat
  | acc, [] => .ok acc
  | acc, c :: rest =>
    match digit? radix c with
    | none => .error .invalidDigit
    | some d =>
      if acc * radix + d < bound then readDigits radix bound (acc * radix + d) rest
      else .error .tooLarge

/-- Read a whole text as a numeral below `bound`. -/
def readNumeral (radix bound : Nat) : List Char → Except NumeralError Nat
  | [] => .error .empty
  | ['+'] => .error .invalidDigit
  | '+' :: rest => readDigits radix bound 0 rest
  | s => readDigits radix bound 0 s

/-- A port number as it stands in definition files and tags. -/
def port? (s : String) : Option UInt16 :=
  (readNumeral 10 65536 s.toList).toOption.map UInt16.ofNat

/-! ### Writing -/

/-- The decimal numeral of a number. -/
def decimal (n : Nat) : String := String.ofList (Nat.toDigits 10 n)

/-- The hexadecimal numeral of a number, without leading zeros. -/
def hex (n : Nat) : String := String.ofList (Nat.toDigits 16 n)

/-- The last `width` hexadecimal digits of a number, zeros in front. -/
def hexPadded : Nat → Nat → List Char
  | 0, _ => []
  | width + 1, n => hexPadded width (n / 16) ++ [digitChar (n % 16)]

end Rendezvous.Text

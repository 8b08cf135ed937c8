/-
Rendezvous/Json/Token.lean

The words of JSON.

A text is cut into marks, names, numbers and strings from left to right.  Where
no word begins the list of tokens ends with `broken`.  Cutting needs no
knowledge of what the words are for.
-/
import Rendezvous.Json.Tree
import Rendezvous.Text.Utf8

namespace Rendezvous.Json

/-- One word of a JSON text. -/
inductive Token where
  | openList
  | closeList
  | openObject
  | closeObject
  | comma
  | colon
  | null
  | bool (b : Bool)
  | number (n : Number)
  | text (s : Quoted)
  | broken
  deriving DecidableEq, Repr

/-! ### Numbers -/

def isDigit (b : UInt8) : Bool := 48 ≤ b && b ≤ 57

/-- The value of a run of decimal digits. -/
def digitsValue (l : List UInt8) : Nat :=
  l.foldl (fun acc b => acc * 10 + (b.toNat - 48)) 0

/-- The double nearest to a number; a half goes to the even neighbour. -/
def nearestDouble (n : Nat) : Nat :=
  let unit := Nat.pow 2 (Nat.log2 n - 52)
  let q := n / unit
  let r := n % unit
  if unit < 2 * r ∨ unit = 2 * r ∧ q % 2 = 1 then (q + 1) * unit else q * unit

/-- The least number that rounds to no finite double. -/
def infinity : Nat := Nat.pow 2 1024 - Nat.pow 2 970

/-- A number as it is read: a significand of one machine word and a power of ten. -/
structure Magnitude where
  significand : Nat
  exponent : Int
  deriving DecidableEq, Repr

/-- Take digits into a significand while it fits one word, and leave the rest. -/
def fill (n : Nat) : List UInt8 → Nat × List UInt8
  | [] => (n, [])
  | b :: l =>
    let more := n * 10 + (b.toNat - 48)
    if more < Nat.pow 2 64 then fill more l else (n, b :: l)

/-- The magnitude of the digits before a point, those after it and a power of
ten.  Digits before the point that do not fit still count for the power. -/
def Magnitude.ofDigits (whole fraction : List UInt8) (exponent : Int) : Magnitude :=
  let (n, beyond) := fill 0 whole
  let (n, dropped) := fill n fraction
  ⟨n, beyond.length - (fraction.length - dropped.length) + exponent⟩

/-- Whether a magnitude is beyond every finite double, its two parts being
rounded before they are multiplied. -/
def Magnitude.isHuge (m : Magnitude) : Bool :=
  if m.significand = 0 ∨ m.exponent < 0 then false
  else if 308 < m.exponent then true
  else infinity ≤ nearestDouble m.significand * nearestDouble (Nat.pow 10 m.exponent.toNat)

/-- A run of digits at the front. -/
def takeDigits (l : List UInt8) : List UInt8 × List UInt8 :=
  (l.takeWhile isDigit, l.dropWhile isDigit)

/-- The digits after a point, if there is one. -/
def readFraction : List UInt8 → Option (Option (List UInt8) × List UInt8)
  | 46 :: l =>
    let (digits, rest) := takeDigits l
    if digits.isEmpty then none else some (some digits, rest)
  | l => some (none, l)

/-- The exponent, if there is one. -/
def readExponent (l : List UInt8) : Option (Option Int × List UInt8) :=
  match l with
  | [] => some (none, [])
  | b :: l' =>
    if b = 101 ∨ b = 69 then
      let (negative, l') := match l' with
        | 45 :: r => (true, r)
        | 43 :: r => (false, r)
        | r => (false, r)
      let (digits, rest) := takeDigits l'
      if digits.isEmpty then none
      else
        let e : Int := digitsValue digits
        some (some (if negative then -e else e), rest)
    else some (none, l)

/-- A number without its sign. -/
def readUnsigned (negative : Bool) (l : List UInt8) : Option (Number × List UInt8) := do
  let (whole, l) := takeDigits l
  if whole.isEmpty ∨ (whole.head? = some 48 ∧ 1 < whole.length) then none
  else
    let (fraction, l) ← readFraction l
    let (exponent, l) ← readExponent l
    let digits := fraction.getD []
    let n := digitsValue (whole ++ digits)
    if (Magnitude.ofDigits whole digits (exponent.getD 0)).isHuge then some (.huge, l)
    else if fraction.isSome ∨ exponent.isSome ∨ (negative ∧ n = 0) then some (.real, l)
    else some (.int (if negative then -(n : Int) else n), l)

/-- A number off the front. -/
def readNumber : List UInt8 → Option (Number × List UInt8)
  | 45 :: l => readUnsigned true l
  | l => readUnsigned false l

/-! ### Strings -/

/-- What is found up to a closing quote: the octets of the string, unless it is
no Unicode text, and what follows the quote. -/
abbrev Scan := Option (Option (List UInt8) × List UInt8)

/-- Put octets in front of those found. -/
def Scan.push (o : List UInt8) (s : Scan) : Scan :=
  s.map fun r => (r.1.map (o ++ ·), r.2)

/-- Note that the string is no Unicode text. -/
def Scan.spoil (s : Scan) : Scan := s.map fun r => (none, r.2)

/-- The value of a hexadecimal digit. -/
def hexValue? (b : UInt8) : Option Nat := Text.digit? 16 (Char.ofNat b.toNat)

/-- The unit written by four hexadecimal digits. -/
def unit? (a b c d : UInt8) : Option Nat := do
  let a ← hexValue? a
  let b ← hexValue? b
  let c ← hexValue? c
  let d ← hexValue? d
  some (((a * 16 + b) * 16 + c) * 16 + d)

/-- What a letter after a backslash stands for. -/
def letter? (b : UInt8) : Option UInt8 :=
  if b = 34 ∨ b = 92 ∨ b = 47 then some b
  else if b = 98 then some 8
  else if b = 102 then some 12
  else if b = 110 then some 10
  else if b = 114 then some 13
  else if b = 116 then some 9
  else none

def isHigh (n : Nat) : Bool := 0xD800 ≤ n && n ≤ 0xDBFF
def isLow (n : Nat) : Bool := 0xDC00 ≤ n && n ≤ 0xDFFF

/-- A low unit off the front, behind its escape. -/
def readLow : List UInt8 → Option (Nat × List UInt8)
  | 92 :: 117 :: a :: b :: c :: d :: l => do
    let n ← unit? a b c d
    if isLow n then some (n, l) else none
  | _ => none

theorem readLow_length {l : List UInt8} {n : Nat} {rest : List UInt8}
    (h : readLow l = some (n, rest)) : rest.length < l.length := by
  unfold readLow at h
  split at h
  · rename_i a b c d r
    cases hu : unit? a b c d with
    | none => simp [hu] at h
    | some m =>
      simp only [hu, Option.bind_eq_bind, Option.bind_some] at h
      split at h
      · simp only [Option.some.injEq, Prod.mk.injEq] at h
        simp only [← h.2, List.length_cons]
        omega
      · simp at h
  · simp at h

/-- The octets of the character with a number. -/
def octetsOfNumber (n : Nat) : List UInt8 := String.utf8EncodeChar (Char.ofNat n)

/-- Read up to the closing quote. -/
def readString : List UInt8 → Scan
  | [] => none
  | 92 :: 117 :: a :: b :: c :: d :: l =>
    match unit? a b c d with
    | none => none
    | some n =>
      if isHigh n then
        match h : readLow l with
        | some (m, rest) =>
          have := readLow_length h
          (readString rest).push (octetsOfNumber (0x10000 + (n - 0xD800) * 1024 + (m - 0xDC00)))
        | none => (readString l).spoil
      else if isLow n then (readString l).spoil
      else (readString l).push (octetsOfNumber n)
  | [92] => none
  | 92 :: e :: l =>
    match letter? e with
    | some b => (readString l).push [b]
    | none => none
  | b :: l =>
    if b = 34 then some (some [], l)
    else if b < 32 then none
    else (readString l).push [b]
  termination_by l => l.length
  decreasing_by all_goals simp only [List.length_cons]; omega

/-- The string of a scan. -/
def quotedOf : Option (List UInt8) → Quoted
  | none => .garbled
  | some octets =>
    match Text.decodeUtf8? octets with
    | some s => .plain s
    | none => .garbled

/-! ### Words -/

/-- Take a name off the front, its first letter being done. -/
def readName (rest : String) (t : Token) (l : List UInt8) : Token × List UInt8 :=
  let name := Text.octetsOf rest
  if l.take name.length = name then (t, l.drop name.length) else (.broken, [])

/-- The word that begins with octet `b`, and what follows it. -/
def readToken (b : UInt8) (l : List UInt8) : Token × List UInt8 :=
  if b = 91 then (.openList, l)
  else if b = 93 then (.closeList, l)
  else if b = 123 then (.openObject, l)
  else if b = 125 then (.closeObject, l)
  else if b = 44 then (.comma, l)
  else if b = 58 then (.colon, l)
  else if b = 110 then readName "ull" .null l
  else if b = 116 then readName "rue" (.bool true) l
  else if b = 102 then readName "alse" (.bool false) l
  else if b = 34 then
    match readString l with
    | some (s, rest) => (.text (quotedOf s), rest)
    | none => (.broken, [])
  else
    match readNumber (b :: l) with
    | some (n, rest) => (.number n, rest)
    | none => (.broken, [])

def isBlank (b : UInt8) : Bool := b = 32 || b = 10 || b = 13 || b = 9

/-- Cut a text into words; no text has more of them than octets. -/
def tokensFrom : Nat → List UInt8 → List Token
  | 0, _ => []
  | _ + 1, [] => []
  | n + 1, b :: l =>
    if isBlank b then tokensFrom n l
    else
      let (t, rest) := readToken b l
      t :: tokensFrom n rest

/-- The words of a text. -/
def tokens (l : List UInt8) : List Token := tokensFrom l.length l

end Rendezvous.Json

/-
Rendezvous/Timestamp.lean

Moments in universal time and their text.

A moment counts seconds from the start of 1970 and nanoseconds within the
second; a leap second is the second before it with more than a whole second of
nanoseconds.  Texts follow RFC 3339: they are read with any offset from
universal time and written without one, with as many groups of three decimals
as are needed.

Reading is lenient.  Blanks may stand before every number and every mark but
the one between date and time, a number may have fewer digits than are written,
a year may have a sign and then any number of digits, and in an offset the
colon may be missing or be blanks.
-/
import Rendezvous.Text.Blank
import Rendezvous.Text.Numeral

namespace Rendezvous

/-- A moment in universal time. -/
structure Timestamp where
  seconds : Int
  nanos : Nat
  deriving DecidableEq, Repr, Inhabited

namespace Timestamp

/-! ### The calendar -/

def isLeap (year : Int) : Bool := year % 4 = 0 && (year % 100 ≠ 0 || year % 400 = 0)

def daysInMonth (year : Int) (month : Nat) : Nat :=
  if month = 2 then if isLeap year then 29 else 28
  else if month = 4 ∨ month = 6 ∨ month = 9 ∨ month = 11 then 30
  else 31

/-- Days from the start of 1970 to a date.  Years are counted from March, so
that the day a leap year adds is its last. -/
def daysOfDate (year : Int) (month day : Nat) : Int :=
  let y := if month ≤ 2 then year - 1 else year
  let era := y / 400
  let yearOfEra := y - era * 400
  let m : Int := if month > 2 then month - 3 else month + 9
  let dayOfYear := (153 * m + 2) / 5 + day - 1
  era * 146097 + yearOfEra * 365 + yearOfEra / 4 - yearOfEra / 100 + dayOfYear - 719468

/-- The date of a day counted from the start of 1970. -/
def dateOfDays (days : Int) : Int × Nat × Nat :=
  let z := days + 719468
  let era := z / 146097
  let dayOfEra := z - era * 146097
  let yearOfEra := (dayOfEra - dayOfEra / 1460 + dayOfEra / 36524 - dayOfEra / 146096) / 365
  let dayOfYear := dayOfEra - (365 * yearOfEra + yearOfEra / 4 - yearOfEra / 100)
  let m := (5 * dayOfYear + 2) / 153
  let day := dayOfYear - (153 * m + 2) / 5 + 1
  let month := if m < 10 then m + 3 else m - 9
  let year := yearOfEra + era * 400 + (if month ≤ 2 then 1 else 0)
  (year, month.toNat, day.toNat)

/-! ### Writing -/

/-- A number in at least `width` digits. -/
def padded (width n : Nat) : String :=
  let d := Nat.toDigits 10 n
  String.ofList (List.replicate (width - d.length) '0' ++ d)

/-- The year of a text: a sign is written outside the years 0 to 9999. -/
def yearText (year : Int) : String :=
  if 0 ≤ year ∧ year ≤ 9999 then padded 4 year.toNat
  else (if year < 0 then "-" else "+") ++ padded 4 year.natAbs

/-- The decimals of a second. -/
def fractionText (nanos : Nat) : String :=
  if nanos = 0 then ""
  else if nanos % 1000000 = 0 then "." ++ padded 3 (nanos / 1000000)
  else if nanos % 1000 = 0 then "." ++ padded 6 (nanos / 1000)
  else "." ++ padded 9 nanos

/-- The text of a moment. -/
def text (t : Timestamp) : String :=
  let (year, month, day) := dateOfDays (t.seconds / 86400)
  let s := (t.seconds % 86400).toNat
  let leap := t.nanos / 1000000000
  yearText year ++ "-" ++ padded 2 month ++ "-" ++ padded 2 day ++ "T"
    ++ padded 2 (s / 3600) ++ ":" ++ padded 2 (s / 60 % 60) ++ ":"
    ++ padded 2 (s % 60 + leap) ++ fractionText (t.nanos % 1000000000) ++ "Z"

/-! ### Reading -/

def isDigit (c : Char) : Bool := (Text.digit? 10 c).isSome

def skipBlanks (s : List Char) : List Char := s.dropWhile Text.isBlank

/-- The number that some digits make. -/
def numberOf (d : List Char) : Nat :=
  d.foldl (fun acc c => acc * 10 + (Text.digit? 10 c).getD 0) 0

/-- A number off the front, of one digit at least and `most` at most. -/
def readNumber (most : Nat) (s : List Char) : Option (Nat × List Char) :=
  let d := (s.take most).takeWhile isDigit
  if d.isEmpty then none else some (numberOf d, s.drop d.length)

/-- A field of two digits at most, after blanks. -/
def readField (s : List Char) : Option (Nat × List Char) := readNumber 2 (skipBlanks s)

/-- A year: four digits at most, or a sign and any number of them. -/
def readYear (s : List Char) : Option (Int × List Char) :=
  match skipBlanks s with
  | '-' :: s => (readNumber s.length s).map fun r => (-(r.1 : Int), r.2)
  | '+' :: s => (readNumber s.length s).map fun r => ((r.1 : Int), r.2)
  | s => (readNumber 4 s).map fun r => ((r.1 : Int), r.2)

/-- A mark after blanks. -/
def readMark (mark : Char) (s : List Char) : Option (List Char) :=
  match skipBlanks s with
  | c :: s => if c = mark then some s else none
  | [] => none

/-- The nanoseconds after a point; digits after the ninth are dropped. -/
def readFraction : List Char → Option (Nat × List Char)
  | '.' :: s =>
    let d := s.takeWhile isDigit
    let nine := (d ++ List.replicate 9 '0').take 9
    if d.isEmpty then none else some (numberOf nine, s.dropWhile isDigit)
  | s => some (0, s)

/-- Exactly two digits off the front. -/
def readPair : List Char → Option (Nat × List Char)
  | a :: b :: s => if isDigit a ∧ isDigit b then some (numberOf [a, b], s) else none
  | _ => none

/-- Whether an offset is behind universal time, by its sign. -/
def readSign : List Char → Option (Bool × List Char)
  | '+' :: s => some (false, s)
  | '-' :: s => some (true, s)
  | '−' :: s => some (true, s)
  | _ => none

/-- The seconds by which a text is ahead of universal time, by a sign, hours and
minutes. -/
def readSignedOffset (s : List Char) : Option (Int × List Char) := do
  let (behind, s) ← readSign s
  let (hours, s) ← readPair s
  let (minutes, s) ← readPair (s.dropWhile fun c => c == ':' || Text.isBlank c)
  let ahead : Int := hours * 3600 + minutes * 60
  if 59 < minutes ∨ 23 < hours then none
  else some (if behind then -ahead else ahead, s)

/-- The seconds by which a text is ahead of universal time. -/
def readOffset (s : List Char) : Option (Int × List Char) :=
  match skipBlanks s with
  | 'Z' :: s => some (0, s)
  | 'z' :: s => some (0, s)
  | u :: t :: c :: s =>
    if [u, t, c].map Char.toUpper = ['U', 'T', 'C'] then some (0, s)
    else readSignedOffset (u :: t :: c :: s)
  | _ => none

/-- The first year that is out of reach, and the last one that is. -/
def yearBound : Int := 262143

/-- The first second within reach, and the first one after it that is not. -/
def earliest : Int := daysOfDate (-yearBound) 1 1 * 86400

@[inherit_doc earliest]
def latest : Int := daysOfDate yearBound 1 1 * 86400

/-- The moment of a text.  The date must be within reach as it is written, and
as it is in universal time. -/
def parse? (s : String) : Option Timestamp := do
  let (year, s) ← readYear s.toList
  let (month, s) ← readField (← readMark '-' s)
  let (day, s) ← readField (← readMark '-' s)
  let s ← match s with
    | 'T' :: s | 't' :: s | ' ' :: s => some s
    | _ => none
  let (hour, s) ← readField s
  let (minute, s) ← readField (← readMark ':' s)
  let (second, s) ← readField (← readMark ':' s)
  let (nanos, s) ← readFraction s
  let (ahead, s) ← readOffset s
  if month = 0 ∨ 12 < month ∨ day = 0 ∨ daysInMonth year month < day ∨ 23 < hour ∨ 59 < minute
      ∨ 60 < second ∨ yearBound ≤ year ∨ year < -yearBound ∨ !(skipBlanks s).isEmpty then none
  else
    let (second, nanos) := if second = 60 then (59, nanos + 1000000000) else (second, nanos)
    let days := daysOfDate year month day
    let seconds := days * 86400 + hour * 3600 + minute * 60 + second - ahead
    if earliest ≤ seconds ∧ seconds < latest then some ⟨seconds, nanos⟩ else none

end Timestamp

end Rendezvous

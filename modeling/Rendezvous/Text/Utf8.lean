/-
Rendezvous/Text/Utf8.lean

Text as octets.

Request bodies and files are lists of octets.  `step` takes one character off
the front of such a list, or else the longest stretch that could have begun
one; strict reading stops at such a stretch and lossy reading puts U+FFFD in
its place.  Both are the same walk, so they agree on well-formed input.
-/

namespace Rendezvous.Text

/-- The UTF-8 octets of a list of characters. -/
def encodeUtf8 (cs : List Char) : List UInt8 := cs.flatMap String.utf8EncodeChar

/-- The UTF-8 octets of a text. -/
def octetsOf (s : String) : List UInt8 := encodeUtf8 s.toList

/-! ### One character -/

/-- Take `n` more octets of a character, the next of them between `lo` and
`hi`; those after it may be any continuation octet. -/
def readTail : Nat → UInt8 → UInt8 → Nat → List UInt8 → Option Nat × List UInt8
  | 0, _, _, acc, l => (some acc, l)
  | _ + 1, _, _, _, [] => (none, [])
  | n + 1, lo, hi, acc, b :: l =>
    if lo ≤ b ∧ b ≤ hi then
      readTail n 0x80 0xBF (acc * 64 + b.toNat % 64) l
    else (none, b :: l)

/-- What a first octet announces: its share of the value, the number of
octets to come, and the range of the next one. -/
def lead? (b : UInt8) : Option (Nat × Nat × UInt8 × UInt8) :=
  if b < 0x80 then some (b.toNat, 0, 0, 0)
  else if 0xC2 ≤ b ∧ b ≤ 0xDF then some (b.toNat % 32, 1, 0x80, 0xBF)
  else if b = 0xE0 then some (0, 2, 0xA0, 0xBF)
  else if b = 0xED then some (0xD, 2, 0x80, 0x9F)
  else if 0xE1 ≤ b ∧ b ≤ 0xEF then some (b.toNat % 16, 2, 0x80, 0xBF)
  else if b = 0xF0 then some (0, 3, 0x90, 0xBF)
  else if 0xF1 ≤ b ∧ b ≤ 0xF3 then some (b.toNat % 8, 3, 0x80, 0xBF)
  else if b = 0xF4 then some (4, 3, 0x80, 0x8F)
  else none

/-- The character that starts with octet `b`, if there is one, and what
follows it. -/
def step (b : UInt8) (l : List UInt8) : Option Char × List UInt8 :=
  match lead? b with
  | none => (none, l)
  | some (v, n, lo, hi) =>
    let (value, rest) := readTail n lo hi v l
    (value.map Char.ofNat, rest)

theorem readTail_length (n : Nat) (lo hi : UInt8) (acc : Nat) (l : List UInt8) :
    (readTail n lo hi acc l).2.length ≤ l.length := by
  induction n generalizing lo hi acc l with
  | zero => simp [readTail]
  | succ n ih =>
    cases l with
    | nil => simp [readTail]
    | cons b l =>
      rw [readTail]
      split
      · exact Nat.le_succ_of_le (ih ..)
      · simp

theorem step_length (b : UInt8) (l : List UInt8) :
    (step b l).2.length ≤ l.length := by
  unfold step
  split
  · exact Nat.le_refl _
  · exact readTail_length ..

/-! ### Whole texts -/

/-- The characters of an octet list, with `none` for each stretch that is no
character. -/
def pieces : List UInt8 → List (Option Char)
  | [] => []
  | b :: l =>
    have := step_length b l
    (step b l).1 :: pieces (step b l).2
  termination_by l => l.length
  decreasing_by simp only [List.length_cons]; omega

/-- The text an octet list encodes, if all of it does. -/
def decodeUtf8? (l : List UInt8) : Option String :=
  ((pieces l).mapM id).map String.ofList

/-- The text of an octet list, U+FFFD standing for what is no character. -/
def decodeLossy (l : List UInt8) : String :=
  String.ofList ((pieces l).map fun c => c.getD '\uFFFD')

end Rendezvous.Text

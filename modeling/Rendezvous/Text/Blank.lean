/-
Rendezvous/Text/Blank.lean

Lines and blank-separated fields.

The definition files of a cluster are plain text: a line ends at a line feed,
with a carriage return before it dropped, and a line falls into fields at
runs of blanks.  Blank means the Unicode property White_Space.  Cutting a
list of characters at a class of characters is the one operation behind both;
it never loses a character other than those it cuts at.
-/

namespace Rendezvous.Text

/-! ### Blanks -/

/-- The characters with the Unicode property White_Space. -/
def isBlank (c : Char) : Bool :=
  let n := c.toNat
  (0x9 ≤ n && n ≤ 0xD) || n == 0x20 || n == 0x85 || n == 0xA0 || n == 0x1680
    || (0x2000 ≤ n && n ≤ 0x200A) || n == 0x2028 || n == 0x2029 || n == 0x202F
    || n == 0x205F || n == 0x3000

/-! ### Cutting -/

/-- The stretches between the characters of a class, empty ones included. -/
def cutAt (p : Char → Bool) : List Char → List (List Char)
  | [] => [[]]
  | c :: rest =>
    if p c then [] :: cutAt p rest
    else match cutAt p rest with
      | [] => [[c]]
      | w :: ws => (c :: w) :: ws

/-- Drop one character from the end, if it is the given one. -/
def dropEnding (c : Char) (w : List Char) : List Char :=
  if w.getLast? = some c then w.dropLast else w

/-- Lines of a text: all but the last piece have ended in a line feed, and a
text that ends in one has no empty line after it. -/
def linesOf : List (List Char) → List (List Char)
  | [] => []
  | [w] => if w.isEmpty then [] else [w]
  | w :: ws => dropEnding '\r' w :: linesOf ws

/-- The lines of a text. -/
def lines (s : String) : List String :=
  (linesOf (cutAt (· == '\n') s.toList)).map String.ofList

/-- The blank-separated fields of a text. -/
def fields (s : String) : List String :=
  ((cutAt isBlank s.toList).filter fun w => !w.isEmpty).map String.ofList

end Rendezvous.Text

/-
Rendezvous/Text/Escaped.lean

Strings between quotes, as JSON writes them.

Only the quote, the backslash and the control characters below the space are
escaped; five of the latter have a letter and the others stand as four
hexadecimal digits.  Every other character stands for itself.
-/
import Rendezvous.Text.Numeral

namespace Rendezvous.Text

/-- One character between quotes. -/
def escapeChar (c : Char) : List Char :=
  if c = '"' then ['\\', '"']
  else if c = '\\' then ['\\', '\\']
  else if c = '\n' then ['\\', 'n']
  else if c = '\r' then ['\\', 'r']
  else if c = '\t' then ['\\', 't']
  else if c.toNat = 8 then ['\\', 'b']
  else if c.toNat = 12 then ['\\', 'f']
  else if c.toNat < 32 then '\\' :: 'u' :: hexPadded 4 c.toNat
  else [c]

/-- A string between quotes. -/
def escaped (s : List Char) : List Char := '"' :: s.flatMap escapeChar ++ ['"']

end Rendezvous.Text

/-
Rendezvous/Text/Quoted.lean

Texts quoted in messages.

An offending value is shown between double quotes, so that its blanks and
invisible characters can be told apart.  The quote and the backslash get a
backslash, four control characters have a letter, and every other character
that cannot be seen stands as its hexadecimal number in braces.
-/
import Rendezvous.Text.Numeral
import Rendezvous.Text.Unprintable

namespace Rendezvous.Text

/-- One character of a quoted text. -/
def quoteChar (c : Char) : List Char :=
  if c = '"' then ['\\', '"']
  else if c = '\\' then ['\\', '\\']
  else if c = '\t' then ['\\', 't']
  else if c = '\r' then ['\\', 'r']
  else if c = '\n' then ['\\', 'n']
  else if c.toNat = 0 then ['\\', '0']
  else if isUnprintable c then
    ['\\', 'u', '\x7b'] ++ Nat.toDigits 16 c.toNat ++ ['\x7d']
  else [c]

/-- A text in double quotes, with what cannot be seen spelled out. -/
def quoted (s : String) : String :=
  String.ofList (['"'] ++ s.toList.flatMap quoteChar ++ ['"'])

end Rendezvous.Text

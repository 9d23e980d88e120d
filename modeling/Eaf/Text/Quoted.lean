import Eaf.Text.Visible

/-!
# Texts between quotes

A text that is named in a message stands between double quotes. Double quotes and backslashes in it
are escaped, and so is every character that is not seen on its own, so that the reader can tell
where the text ends and what it holds.

## Main definitions

* `Eaf.Text.quoted` — a text between quotes.
-/

namespace Eaf.Text

/-- How a character is written between quotes. -/
def quotedChar (c : Char) : List Char :=
  if c = '\x00' then ['\\', '0']
  else if c = '\t' then ['\\', 't']
  else if c = '\n' then ['\\', 'n']
  else if c = '\r' then ['\\', 'r']
  else if c = '\x22' then ['\\', '\x22']
  else if c = '\\' then ['\\', '\\']
  else if isVisible c then [c]
  else ['\\', 'u', '\x7b'] ++ Nat.toDigits 16 c.toNat ++ ['\x7d']

/-- A text between quotes. -/
def quoted (s : String) : String :=
  String.ofList ('\x22' :: s.toList.flatMap quotedChar ++ ['\x22'])

end Eaf.Text

import Eaf.Json.Value

/-!
# Writing JSON

A value is written with its items and fields on lines of their own, indented by two spaces for
every level. Empty lists and records stay on one line.

## Main definitions

* `Eaf.Json.quote` — a string as a quoted text.
* `Eaf.Json.Value.toText` — a value as a text.
-/

namespace Eaf.Json

/-- How a character is written in a quoted text. The quote, the backslash and the control
characters are escaped. -/
def escapeChar (c : Char) : List Char :=
  if c = '\x22' then ['\\', '\x22']
  else if c = '\\' then ['\\', '\\']
  else if c = '\x08' then ['\\', 'b']
  else if c = '\x0c' then ['\\', 'f']
  else if c = '\n' then ['\\', 'n']
  else if c = '\r' then ['\\', 'r']
  else if c = '\t' then ['\\', 't']
  else if c.toNat < 0x20 then
    ['\\', 'u', '0', '0', Nat.digitChar (c.toNat / 16), Nat.digitChar (c.toNat % 16)]
  else [c]

/-- Characters as a quoted text. -/
def quote (cs : List Char) : List Char :=
  '\x22' :: cs.flatMap escapeChar ++ ['\x22']

/-- The beginning of a line at a given level. -/
def newLine (level : Nat) : List Char :=
  '\n' :: List.replicate (2 * level) ' '

namespace Value

mutual

/-- A value as it is written at a given level. A text that stands for no string is written as the
empty one. -/
def write (level : Nat) : Value → List Char
  | null => "null".toList
  | bool true => "true".toList
  | bool false => "false".toList
  | number numeral => numeral.toList
  | text content => quote (content.getD "").toList
  | list [] => ['[', ']']
  | list (item :: items) =>
    '[' :: writeItems (level + 1) (item :: items) ++ newLine level ++ [']']
  | record [] => ['\x7b', '\x7d']
  | record (field :: fields) =>
    '\x7b' :: writeFields (level + 1) (field :: fields) ++ newLine level ++ ['\x7d']

/-- The items of a list, each on a line of its own. -/
def writeItems (level : Nat) : List Value → List Char
  | [] => []
  | item :: items =>
    newLine level ++ item.write level ++ (if items.isEmpty then [] else [',']) ++
      writeItems level items

/-- The fields of a record, each on a line of its own. -/
def writeFields (level : Nat) : List (Option String × Value) → List Char
  | [] => []
  | (key, value) :: fields =>
    newLine level ++ quote (key.getD "").toList ++ [':', ' '] ++ value.write level ++
      (if fields.isEmpty then [] else [',']) ++ writeFields level fields

end

/-- A value as a text. -/
def toText (value : Value) : String :=
  String.ofList (value.write 0)

end Value

end Eaf.Json

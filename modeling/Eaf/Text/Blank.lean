/-!
# Blank characters and trimming

Ids, times and annotation values are read after the blanks around them are dropped. A blank is a
character with the Unicode property `White_Space`: the space, the five ASCII controls from tab to
carriage return, the next-line control, the no-break space and the spaces and separators of the
punctuation blocks. The zero-width space and the byte order mark do not have the property.

## Main definitions

* `Eaf.Text.isBlank` — the property, as a table.
* `Eaf.Text.trim` — a text without the blanks at its two ends.
-/

namespace Eaf.Text

/-- Whether a character has the Unicode property `White_Space`. -/
def isBlank (c : Char) : Bool :=
  let n := c.toNat
  (0x09 ≤ n && n ≤ 0x0D) || n == 0x20 || n == 0x85 || n == 0xA0 || n == 0x1680 ||
    (0x2000 ≤ n && n ≤ 0x200A) || n == 0x2028 || n == 0x2029 || n == 0x202F || n == 0x205F ||
    n == 0x3000

/-- A text without the blanks at its end. -/
def trimEnd (cs : List Char) : List Char :=
  (cs.reverse.dropWhile isBlank).reverse

/-- A text without the blanks at its beginning and at its end. -/
def trim (cs : List Char) : List Char :=
  trimEnd (cs.dropWhile isBlank)

/-- A string without the blanks at its two ends. -/
def trimmed (s : String) : String :=
  String.ofList (trim s.toList)

end Eaf.Text

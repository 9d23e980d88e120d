/-!
# Character classes of XML

The characters that may occur in an XML document, the white space between its parts, and the
characters of names. The class of names is that of XML 1.0, fifth edition.

## Main definitions

* `Eaf.Xml.isAllowed` — the characters that may occur at all.
* `Eaf.Xml.isSpace` — white space between the parts of a tag.
* `Eaf.Xml.isNameStart`, `Eaf.Xml.isNameChar` — the first and the further characters of a name.
-/

namespace Eaf.Xml

/-- Whether a number lies in a closed range. -/
def inRange (n low high : Nat) : Bool :=
  low ≤ n && n ≤ high

/-- Whether a character is white space between the parts of a tag. -/
def isSpace (c : Char) : Bool :=
  c == ' ' || c == '\t' || c == '\n' || c == '\r'

/-- Whether a character may occur in a document: all but the controls below the space, of which
tab, line feed and carriage return are allowed, and the last two characters of the first plane. -/
def isAllowed (c : Char) : Bool :=
  if c.toNat < 0x20 then c == '\t' || c == '\n' || c == '\r'
  else c.toNat != 0xFFFE && c.toNat != 0xFFFF

/-- Whether a character may begin a name. -/
def isNameStart (c : Char) : Bool :=
  let n := c.toNat
  inRange n 0x41 0x5A || inRange n 0x61 0x7A || c == ':' || c == '_' || inRange n 0xC0 0xD6 ||
    inRange n 0xD8 0xF6 || inRange n 0xF8 0x2FF || inRange n 0x370 0x37D ||
    inRange n 0x37F 0x1FFF || inRange n 0x200C 0x200D || inRange n 0x2070 0x218F ||
    inRange n 0x2C00 0x2FEF || inRange n 0x3001 0xD7FF || inRange n 0xF900 0xFDCF ||
    inRange n 0xFDF0 0xFFFD || inRange n 0x10000 0xEFFFF

/-- Whether a character may occur in a name. -/
def isNameChar (c : Char) : Bool :=
  let n := c.toNat
  isNameStart c || c == '-' || c == '.' || inRange n 0x30 0x39 || n == 0xB7 ||
    inRange n 0x300 0x36F || inRange n 0x203F 0x2040

/-- White space is allowed. -/
theorem isAllowed_of_isSpace {c : Char} (h : isSpace c = true) : isAllowed c = true := by
  simp only [isSpace, Bool.or_eq_true, beq_iff_eq] at h
  rcases h with ((rfl | rfl) | rfl) | rfl <;> decide

end Eaf.Xml

import Eaf.Xml.Reference

/-!
# Writing XML

A document is written as a sequence of pieces: the declaration, tags and texts. With an indent,
every tag begins on a line of its own, unless a text stands before it; without one, nothing stands
between the pieces.

## Main definitions

* `Eaf.Xml.Piece` — a piece of a document.
* `Eaf.Xml.Piece.layout` — pieces one after the other, with line breaks and indentation.
* `Eaf.Xml.write` — a document as a text.
-/

namespace Eaf.Xml

/-- A piece of a document that is written. -/
inductive Piece
  | declaration
  | openTag (name : String) (attributes : List (String × String))
  | emptyTag (name : String) (attributes : List (String × String))
  | closeTag (name : String)
  | text (content : String)
  deriving DecidableEq, Repr

namespace Piece

/-- The attributes of a tag, each with a space before it. -/
def writeAttributes (attributes : List (String × String)) : List Char :=
  attributes.flatMap fun (name, value) =>
    ' ' :: name.toList ++ ['=', '\x22'] ++ escape value.toList ++ ['\x22']

/-- A piece as it is written. -/
def write : Piece → List Char
  | declaration => "<?xml version=\"1.0\" encoding=\"UTF-8\"?>".toList
  | openTag name attributes => '<' :: name.toList ++ writeAttributes attributes ++ ['>']
  | emptyTag name attributes => '<' :: name.toList ++ writeAttributes attributes ++ ['/', '>']
  | closeTag name => '<' :: '/' :: name.toList ++ ['>']
  | text content => escape content.toList

/-- Whether a piece is a text. -/
def isText : Piece → Bool
  | text _ => true
  | _ => false

/-- Whether a piece closes an element that another piece opened. -/
def closes : Piece → Bool
  | closeTag _ => true
  | _ => false

/-- The depth after a piece. -/
def depthAfter (depth : Nat) : Piece → Nat
  | openTag _ _ => depth + 1
  | closeTag _ => depth - 1
  | _ => depth

/-- The line break and the indentation before a piece. There are none before a text, after a text,
at the beginning and without an indent. -/
def gap (indent depth : Nat) (broken : Bool) (piece : Piece) : List Char :=
  if indent = 0 ∨ broken = false ∨ piece.isText then []
  else
    '\n' :: List.replicate (indent * if piece.closes then depth - 1 else depth) ' '

/-- Pieces one after the other, from a given depth on. A line is broken before the first one, if
it is no text, only if `broken` says so. -/
def layout (indent : Nat) : (depth : Nat) → (broken : Bool) → List Piece → List Char
  | _, _, [] => []
  | depth, broken, piece :: pieces =>
    piece.gap indent depth broken ++ piece.write ++
      layout indent (piece.depthAfter depth) (!piece.isText) pieces

end Piece

/-- A document as a text. -/
def write (indent : Nat) (pieces : List Piece) : String :=
  String.ofList (Piece.layout indent 0 false pieces)

end Eaf.Xml

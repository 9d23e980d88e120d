import Eaf.Order.Dictionary
import Eaf.Text.Quoted

/-!
# Paths

A path is a text in which slashes separate the names of directories and, at its end, of a file. A
slash at the front begins at the root. Slashes in a row count as one, and a dot stands for the
directory that has been reached, so that neither adds a component, except for a dot at the very
front. Two dots lead to the directory above and are kept.

The extension of a name is what follows its last dot, and the stem is what precedes it; a dot at
the front of a name begins no extension.

## Main definitions

* `Eaf.Path` — a path.
* `Eaf.Path.components` — the steps that a path takes.
* `Eaf.Path.name?`, `Eaf.Path.stem?`, `Eaf.Path.extension?`, `Eaf.Path.parent?` — its parts.
* `Eaf.Path.join` — a path continued by another one.
* `Eaf.Path.marked` — the path of a file named after another one.
* `Eaf.Path.le` — the order of paths by their components.
-/

namespace Eaf

/-- A path to a file or a directory. -/
structure Path where
  text : String
  deriving DecidableEq, Repr, Inhabited

namespace Path

/-- The parts of a text between its slashes. -/
def splitSlashes : List Char → List (List Char)
  | [] => [[]]
  | c :: cs =>
    if c = '/' then [] :: splitSlashes cs
    else
      match splitSlashes cs with
      | part :: parts => (c :: part) :: parts
      | [] => [[c]]

/-- Parts with a slash between any two of them. -/
def joinSlashes : List (List Char) → List Char
  | [] => []
  | [part] => part
  | part :: parts => part ++ '/' :: joinSlashes parts

/-! ### Components -/

/-- A step that a path takes. -/
inductive Component
  | root
  | current
  | above
  | name (text : String)
  deriving DecidableEq, Repr

/-- Whether a part between slashes takes no step. -/
def isIdle (part : List Char) : Bool :=
  part == [] || part == ['.']

/-- The step that a part between slashes takes, if it is not idle. -/
def stepOf (part : List Char) : Component :=
  if part = ['.', '.'] then .above else .name (String.ofList part)

/-- A path taken apart: how it begins, and the parts between its slashes after that. -/
structure Anatomy where
  /-- The root or the dot with which the path begins. -/
  start : Option Component
  parts : List (List Char)

/-- A path taken apart. -/
def anatomy (path : Path) : Anatomy :=
  match splitSlashes path.text.toList with
  | [] :: part :: parts => { start := some .root, parts := part :: parts }
  | ['.'] :: parts => { start := some .current, parts }
  | parts => { start := none, parts }

/-- The steps that a path takes. -/
def components (path : Path) : List Component :=
  path.anatomy.start.toList ++
    (path.anatomy.parts.filter (!isIdle ·)).map stepOf

/-- The name of the file or directory that a path leads to. -/
def name? (path : Path) : Option String :=
  match path.components.getLast? with
  | some (.name text) => some text
  | _ => none

/-- The parts of a name before and after its last dot. A dot at the front does not count. -/
def splitDot (name : List Char) : List Char × Option (List Char) :=
  match name.reverse.dropWhile (· ≠ '.') with
  | [] => (name, none)
  | [_] => (name, none)
  | _ :: stem => (stem.reverse, some (name.reverse.takeWhile (· ≠ '.')).reverse)

/-- The name at the end of a path without its extension. -/
def stem? (path : Path) : Option String :=
  path.name?.map fun name => String.ofList (splitDot name.toList).1

/-- The extension of the name at the end of a path. -/
def extension? (path : Path) : Option String :=
  path.name?.bind fun name => (splitDot name.toList).2.map String.ofList

/-- Parts without the idle ones at the end. -/
def trimIdle (parts : List (List Char)) : List (List Char) :=
  (parts.reverse.dropWhile isIdle).reverse

/-- The text of a path that begins in a given way. -/
def assemble (start : Option Component) (parts : List (List Char)) : List Char :=
  match start with
  | some .root => '/' :: joinSlashes parts
  | some _ => joinSlashes (['.'] :: parts)
  | none => joinSlashes parts

/-- The path without its last step. The root and the empty path have no such path. -/
def parent? (path : Path) : Option Path :=
  let anatomy := path.anatomy
  let parts := trimIdle anatomy.parts
  if parts.isEmpty then
    if anatomy.start = some .current then some { text := "" } else none
  else
    some { text := String.ofList (assemble anatomy.start (trimIdle parts.dropLast)) }

/-! ### Building paths -/

/-- A path continued by another one. A continuation that begins at the root stands alone. -/
def join (path : Path) (continuation : String) : Path :=
  if continuation.startsWith "/" then { text := continuation }
  else if path.text.isEmpty || path.text.endsWith "/" then { text := path.text ++ continuation }
  else { text := path.text ++ "/" ++ continuation }

/-- The path of a file in a directory that is named after another file: its stem, a mark and an
extension, with dots between them. -/
def marked (file directory : Path) (mark extension : String) : Path :=
  directory.join ((file.stem?.getD "") ++ "." ++ mark ++ "." ++ extension)

/-- A path as it is named in messages. -/
def quoted (path : Path) : String :=
  Text.quoted path.text

/-! ### Order and extensions -/

/-- The numbers by which components are compared: root, dot, two dots, and names by their
characters. A zero ends them, so that no key is the beginning of another one. -/
def Component.key : Component → List Nat
  | root => [1, 0]
  | current => [2, 0]
  | above => [3, 0]
  | name text => 4 :: text.toList.map (·.toNat + 1) ++ [0]

/-- The numbers by which paths are compared, component by component. -/
def key (path : Path) : List Nat :=
  path.components.flatMap Component.key

/-- The order of paths: component by component. -/
def le (a b : Path) : Bool :=
  dictionaryLe a.key b.key

/-- Whether a path has a given extension. The case of ASCII letters does not matter. -/
def hasExtension (path : Path) (extension : String) : Bool :=
  path.extension?.any fun found =>
    found.toList.map Char.toLower == extension.toList.map Char.toLower

end Path

end Eaf

import Eaf.Storage.Basic

/-!
# File trees

A file tree is a storage in a value: files with their bytes, and directories with what is in them.
Paths are followed from its root, where every path begins. Whoever follows a path can only go on
from a directory; the last step of a path may lead to a file, or to nothing yet.

## Main definitions

* `Eaf.FileTree` — a file, or a directory with its entries.
* `Eaf.FileTree.atPlace` — what stands at a place in a tree.
* `Eaf.FileTree.placeOf` — the place to which a path leads.
* `Eaf.FileTree.read`, `Eaf.FileTree.write`, `Eaf.FileTree.makeDirectory` — a tree as a storage.
* `Eaf.FileTree.files` — all files of a tree.
-/

namespace Eaf

/-- A file with its bytes, or a directory with what is in it. -/
inductive FileTree
  | file (bytes : ByteArray)
  | directory (entries : List (String × FileTree))

namespace FileTree

/-- The tree of a directory in which there is nothing. -/
def empty : FileTree :=
  directory []

instance : Inhabited FileTree := ⟨empty⟩

/-- A file with a text in it. -/
def ofText (text : String) : FileTree :=
  file text.toUTF8

/-! ### Places -/

/-- The largest number of bytes in the name of an entry. -/
def maxNameBytes : Nat := 255

/-- What stands under a name. -/
def lookUp (name : String) : FileTree → Except StorageError FileTree
  | file _ => .error .notDirectory
  | directory entries =>
    if maxNameBytes < name.utf8ByteSize then
      .error .nameTooLong
    else
      match entries.lookup name with
      | some tree => .ok tree
      | none => .error .noEntry

/-- What stands at the place that names lead to. Each name is looked up in the directory that the
names before it lead to. -/
def atPlace (tree : FileTree) (place : List String) : Except StorageError FileTree :=
  place.foldlM (fun tree name => tree.lookUp name) tree

/-- Entries in which the one with a given name is changed, or added behind the others. -/
def alterEntry (name : String) (change : Option FileTree → FileTree) :
    List (String × FileTree) → List (String × FileTree)
  | [] => [(name, change none)]
  | (other, tree) :: entries =>
    if other = name then (name, change (some tree)) :: entries
    else (other, tree) :: alterEntry name change entries

/-- A tree in which what stands at a place is changed. Directories that are missing on the way are
added. A file on the way stays a file. -/
def alter (change : Option FileTree → FileTree) : List String → Option FileTree → FileTree
  | [], old => change old
  | _ :: _, some (file bytes) => file bytes
  | name :: names, some (directory entries) =>
    directory (alterEntry name (alter change names) entries)
  | name :: names, none => directory [(name, alter change names none)]

/-- A tree with something put at a place. -/
def put (tree : FileTree) (place : List String) (new : FileTree) : FileTree :=
  alter (fun _ => new) place (some tree)

/-! ### Following paths -/

/-- A step on the way along a path. -/
inductive Step
  | stay
  | up
  | down (name : String)
  deriving DecidableEq, Repr

/-- The step that a part between slashes asks for. -/
def Step.ofPart (part : List Char) : Step :=
  if part = ['.'] then stay else if part = ['.', '.'] then up else down (String.ofList part)

/-- The trail after a step. A trail lists the places that were entered on the way, the last one
first. -/
def Step.apply {α : Type} (enter : String → α) (trail : List α) : Step → List α
  | stay => trail
  | up => trail.tail
  | down name => enter name :: trail

/-- The steps along a path, a slash at its end apart. -/
def stepsOf (path : Path) : List Step :=
  ((Path.splitSlashes path.text.toList).filter (· ≠ [])).map Step.ofPart

/-- Whether a path ends with a slash. -/
def endsOpen (path : Path) : Bool :=
  path.text.endsWith "/"

/-- A place on the way along a path: its name and what stands there, if anything does. -/
structure Stop where
  name : String
  found : Except StorageError FileTree

/-- What stands at the end of a trail. -/
def endOf (tree : FileTree) : List Stop → Except StorageError FileTree
  | [] => .ok tree
  | stop :: _ => stop.found

/-- The place that is reached at the end of a trail after some more steps. Every step begins in a
directory. -/
def follow (tree : FileTree) : List Stop → List Step → Except StorageError (List String)
  | trail, [] => .ok (trail.reverse.map (·.name))
  | trail, step :: steps => do
    match ← tree.endOf trail with
    | file _ => throw .notDirectory
    | here => tree.follow (step.apply (fun name => ⟨name, here.lookUp name⟩) trail) steps

/-- The place to which a path leads, whether or not anything is there. -/
def placeOf (tree : FileTree) (path : Path) : Except StorageError (List String) :=
  match path.refusal? with
  | some error => .error error
  | none => tree.follow [] (stepsOf path)

/-- What a path leads to. A slash at the end of a path asks for a directory. -/
def entry (tree : FileTree) (path : Path) : Except StorageError FileTree := do
  match ← tree.atPlace (← tree.placeOf path) with
  | directory entries => return directory entries
  | file bytes => if endsOpen path then throw .notDirectory else return file bytes

/-! ### A tree as a storage -/

/-- The kind of what a path leads to. -/
def kind? (tree : FileTree) (path : Path) : Option EntryKind :=
  match tree.entry path with
  | .ok (file _) => some .file
  | .ok (directory _) => some .directory
  | .error _ => none

/-- The text of a file. -/
def read (tree : FileTree) (path : Path) : Except StorageError String := do
  match ← tree.entry path with
  | directory _ => throw .isDirectory
  | file bytes =>
    match String.fromUTF8? bytes with
    | some text => return text
    | none => throw .notText

/-- The tree after a text was written to a file. -/
def write (tree : FileTree) (path : Path) (text : String) : Except StorageError FileTree := do
  let place ← tree.placeOf path
  if endsOpen path then throw .isDirectory
  match tree.atPlace place with
  | .ok (directory _) => throw .isDirectory
  | .ok (file _) => return tree.put place (ofText text)
  | .error .noEntry => return tree.put place (ofText text)
  | .error error => throw error

/-- The tree after a directory was made. -/
def makeDirectory (tree : FileTree) (path : Path) : Except StorageError FileTree := do
  let place ← tree.placeOf path
  match tree.atPlace place with
  | .ok _ => throw .entryExists
  | .error .noEntry => return tree.put place empty
  | .error error => throw error

mutual

/-- All files of a tree with their bytes, the paths of which begin with the given one. -/
def files (path : Path) : FileTree → List (Path × ByteArray)
  | file bytes => [(path, bytes)]
  | directory entries => filesOf path entries

/-- All files of some entries of a directory with their bytes. -/
def filesOf (path : Path) : List (String × FileTree) → List (Path × ByteArray)
  | [] => []
  | (name, tree) :: entries => tree.files (path.join name) ++ filesOf path entries

end

/-- The paths of the files at and below a path. -/
def filesBelow (tree : FileTree) (path : Path) : Except StorageError (List Path) := do
  return ((← tree.entry path).files path).map (·.1)

/-! ### Building trees -/

/-- The place to which a path leads, were all of it there. -/
def plannedPlace (path : Path) : List String :=
  ((stepsOf path).foldl (Step.apply fun name => name) []).reverse

/-- A tree with a file, and with the directories above it. -/
def withFile (tree : FileTree) (path : Path) (bytes : ByteArray) : FileTree :=
  tree.put (plannedPlace path) (file bytes)

/-- A tree with a directory, and with the directories above it. -/
def withDirectory (tree : FileTree) (path : Path) : FileTree :=
  alter (·.getD empty) (plannedPlace path) (some tree)

end FileTree

end Eaf

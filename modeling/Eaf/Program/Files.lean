import Eaf.Document.Import
import Eaf.Document.Written
import Eaf.Order.StableSort
import Eaf.Program.Task

/-!
# Documents in files

## Main definitions

* `Eaf.Files.find` — the files of a directory with a given extension.
* `Eaf.Files.read`, `Eaf.Files.write` — the text of a file.
* `Eaf.Files.holdsDocument` — whether a file looks like an annotation document.
* `Eaf.Files.load`, `Eaf.Files.save` — the document in a file.
-/

namespace Eaf.Files

variable {m : Type → Type} [Monad m] [Storage m] [Terminal m]

/-- The extension of files that hold annotation documents. -/
def extension : String := "eaf"

/-- Makes a directory and the directories above it, unless the path leads somewhere already. -/
def ensureDirectory (path : Path) : Task m Unit := do
  unless path.text.isEmpty do
    unless ← (Storage.leadsAnywhere path : m Bool) do
      orTrouble .storage (← (Storage.makeDirectories path : m _))

/-- The files at and below a path that have a given extension, in order. The extension may be given
with dots in front. -/
def find (path : Path) (extension : String) : Task m (List Path) := do
  let wanted := String.ofList (extension.toList.dropWhile (· = '.'))
  let files ← orTrouble (fun _ => .unlistable) (← (Storage.filesBelow path : m _))
  return StableSort.sort Path.le (files.filter (·.hasExtension wanted))

/-- The text of a file. -/
def read (path : Path) : Task m String := do
  orTrouble (.unreadable path) (← (Storage.read path : m _))

/-- Writes a text to a file, and makes the directories above it if they are missing. -/
def write (path : Path) (text : String) : Task m Unit := do
  if let some parent := path.parent? then
    ensureDirectory parent
  orTrouble (.unwritable path) (← (Storage.write path text : m _))

/-- Whether a text holds another one. -/
def holds (mark : String) (text : String) : Bool :=
  (Text.splitAt? mark.toList text.toList).isSome

/-- Whether a file looks like an annotation document: it has their extension, or the tag that opens
them stands in it. -/
def holdsDocument (path : Path) : Task m Bool := do
  unless ← (Storage.leadsAnywhere path : m Bool) do
    throw (.missingFile path)
  if path.hasExtension extension then
    return true
  match ← (Storage.read path : m _) with
  | .ok text => return holds "<ANNOTATION_DOCUMENT" text
  | .error _ => return false

/-- The document in a file. -/
def load (path : Path) (options : ReadOptions) : Task m Imported := do
  let text ← read path
  let outcome := Document.empty.importText options text
  remarkAll outcome.notices
  match outcome.result with
  | .error fault => throw (.notLoaded path fault)
  | .ok imported =>
    let tally := imported.tally
    remark .debug s!"Loaded {path.quoted}: {tally.tiers} tiers, {tally.notes} annotations"
    return imported

/-- Writes a document to a file. -/
def save (document : Document) (path : Path) (options : WriteOptions) : Task m Unit := do
  let now ← (Terminal.now : m String)
  remarkAll (document.writeNotices options)
  write path (document.toText options now)

end Eaf.Files

import Eaf.Path

/-!
# Storage

A storage keeps texts in files and files in directories, and both are found by their paths. What
can be asked of a storage is stated here for any monad; the file tree in `Eaf.Storage.FileTree`
answers it by computation alone.

## Main definitions

* `Eaf.StorageError` — why a storage refuses.
* `Eaf.Path.refusal?` — why a storage refuses a path whatever it holds.
* `Eaf.Storage` — the questions and commands that a storage answers.
* `Eaf.Storage.makeDirectories` — a directory together with those above it.
-/

namespace Eaf

/-- Why a storage refuses. -/
inductive StorageError
  | noEntry
  | entryExists
  | notDirectory
  | isDirectory
  /-- A name or a whole path has more bytes than a storage takes. -/
  | nameTooLong
  /-- A path holds the character zero, which ends the names of files. -/
  | zeroInName
  /-- The bytes of a file are no text. -/
  | notText
  /-- A directory has no directory above it that could be made. -/
  | noWholeTree
  | other (reason : String)
  deriving DecidableEq, Repr, Inhabited

/-- An error in words. -/
def StorageError.message : StorageError → String
  | noEntry => "No such file or directory (os error 2)"
  | entryExists => "File exists (os error 17)"
  | notDirectory => "Not a directory (os error 20)"
  | isDirectory => "Is a directory (os error 21)"
  | nameTooLong => "File name too long (os error 36)"
  | zeroInName => "file name contained an unexpected NUL byte"
  | notText => "stream did not contain valid UTF-8"
  | noWholeTree => "failed to create whole tree"
  | other reason => reason

/-- The largest number of bytes in a path. -/
def Path.maxBytes : Nat := 4095

/-- Why a storage refuses a path whatever it holds: the path has a zero in it, is empty or is too
long. -/
def Path.refusal? (path : Path) : Option StorageError :=
  if path.text.toList.contains '\x00' then some .zeroInName
  else if path.text.isEmpty then some .noEntry
  else if Path.maxBytes < path.text.utf8ByteSize then some .nameTooLong
  else none

/-- What a path can lead to. -/
inductive EntryKind
  | file
  | directory
  deriving DecidableEq, Repr

/-- What can be asked of a storage. -/
class Storage (m : Type → Type) where
  /-- What a path leads to, if it leads anywhere. -/
  kind? : Path → m (Option EntryKind)
  /-- The text of a file. -/
  read : Path → m (Except StorageError String)
  /-- Writes a text to a file, which is made if it does not exist. -/
  write : Path → String → m (Except StorageError Unit)
  /-- Makes a directory in one that exists. -/
  makeDirectory : Path → m (Except StorageError Unit)
  /-- The files in a directory and in all directories in it; a file itself. -/
  filesBelow : Path → m (Except StorageError (List Path))

namespace Storage

variable {m : Type → Type} [Monad m] [Storage m]

/-- Whether a path leads anywhere. -/
def leadsAnywhere (path : Path) : m Bool := do
  return (← kind? path).isSome

/-- Whether a path leads to a file. -/
def isFile (path : Path) : m Bool := do
  return (← kind? path) = some .file

/-- Whether a path leads to a directory. -/
def isDirectory (path : Path) : m Bool := do
  return (← kind? path) = some .directory

end Storage

/-- The paths that are reached from a path by leaving out its last step, in as many turns as are
allowed. -/
def Path.ancestorsWithin : Nat → Path → List Path
  | 0, _ => []
  | turns + 1, path =>
    path ::
      match path.parent? with
      | some parent => ancestorsWithin turns parent
      | none => []

/-- A path and the paths that are reached from it by leaving out its last step again and again.
Each of them is shorter than the one before. -/
def Path.ancestors (path : Path) : List Path :=
  path.ancestorsWithin (path.text.length + 1)

namespace Storage

variable {m : Type → Type} [Monad m] [Storage m]

/-- An error, unless the path leads to a directory all the same. -/
def unlessDirectory (path : Path) (error : StorageError) : m (Except StorageError Unit) := do
  return if ← isDirectory path then .ok () else .error error

/-- Makes the directory at the front of a list. If the one above it is missing, which is next in
the list, it is made first. -/
def makeFirst : List Path → m (Except StorageError Unit)
  | [] => return .error .noWholeTree
  | path :: above =>
    if path.text.isEmpty then
      return .ok ()
    else do
      match ← makeDirectory path with
      | .ok () => return .ok ()
      | .error .noEntry =>
        match ← makeFirst above with
        | .error error => return .error error
        | .ok () =>
          match ← makeDirectory path with
          | .ok () => return .ok ()
          | .error error => unlessDirectory path error
      | .error error => unlessDirectory path error

/-- Makes a directory and the directories above it, as far as they are missing. -/
def makeDirectories (path : Path) : m (Except StorageError Unit) :=
  makeFirst path.ancestors

end Storage

end Eaf

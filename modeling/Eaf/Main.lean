import Eaf.Program.Run
import Std.Time

/-!
# The program

The program on the files of the machine: lines go to standard output, remarks with the time of day
and a colour to standard error.

## Main definitions

* `main` — the program.
-/

namespace Eaf

/-- The error of a storage for an error of the machine. -/
def StorageError.ofIO : IO.Error → StorageError
  | .noFileOrDirectory _ _ _ => noEntry
  | .alreadyExists _ _ _ => entryExists
  | .inappropriateType _ code details =>
    if code = 20 then notDirectory else if code = 21 then isDirectory else other details
  | .invalidArgument _ code details => if code = 36 then nameTooLong else other details
  | error => other (toString error)

/-- What an action yields, or why the storage refuses it. -/
def attempt {α : Type} (action : IO α) : IO (Except StorageError α) := do
  try
    return .ok (← action)
  catch error =>
    return .error (.ofIO error)

/-- Does an action that needs a path, unless the path is refused. -/
def attemptAt {α : Type} (path : Path) (action : IO α) : IO (Except StorageError α) :=
  match path.refusal? with
  | some error => return .error error
  | none => attempt action

/-- The kind of a file of the machine. -/
def EntryKind.ofIO? : IO.FS.FileType → Option EntryKind
  | .dir => some .directory
  | .file => some .file
  | _ => none

/-- What a path leads to on the machine. -/
def kindOnMachine? (path : Path) : IO (Option EntryKind) := do
  let found ← attemptAt path do
    return (← ((← IO.currentDir) / path.text).metadata).type
  match found with
  | .ok type => return EntryKind.ofIO? type
  | .error _ => return none

/-- The files in a directory of the machine and in all directories in it, to a given depth. -/
def filesOnMachine (path : Path) : Nat → IO (List Path)
  | 0 => return []
  | depth + 1 => do
    match ← kindOnMachine? path with
    | none => return []
    | some .file => return [path]
    | some .directory =>
      let entries ← ((← IO.currentDir) / path.text).readDir
      let files ← entries.toList.mapM fun entry =>
        filesOnMachine (path.join entry.fileName) depth
      return files.flatten

/-- The largest number of directories within each other in which files are looked for. The paths of
the machine are shorter than that. -/
def maxDepth : Nat := 4096

instance : Storage IO where
  kind? := kindOnMachine?
  read path := do
    match ← attemptAt path (IO.FS.readBinFile path.text) with
    | .error error => return .error error
    | .ok bytes =>
      match String.fromUTF8? bytes with
      | some text => return .ok text
      | none => return .error .notText
  write path text := attemptAt path (IO.FS.writeBinFile path.text text.toUTF8)
  makeDirectory path := attemptAt path (IO.FS.createDir path.text)
  filesBelow path := do
    match ← kindOnMachine? path with
    | none => return .error .noEntry
    | some _ => attempt (filesOnMachine path maxDepth)

/-- The colour of a remark. -/
def Severity.colour : Severity → String
  | error => "\x1b[1;31m"
  | warn => "\x1b[1;33m"
  | info => "\x1b[1;32m"
  | debug => "\x1b[1;36m"
  | trace => "\x1b[1;35m"

instance : Terminal IO where
  print := IO.println
  remark severity text := do
    let time := (← Std.Time.DateTime.now).format "HH:mm:ss.SSS"
    IO.eprintln s!"{severity.colour}{time} {Text.column 5 severity.label} {text}\x1b[0m"
  now := return (← Std.Time.DateTime.now).format "uuuu-MM-dd'T'HH:mm:ss.SSSSSSSSSxxx"

end Eaf

/-- The program. -/
def main (arguments : List String) : IO UInt32 := do
  let status : Eaf.ExitStatus ← Eaf.run arguments
  return status.code.toUInt32

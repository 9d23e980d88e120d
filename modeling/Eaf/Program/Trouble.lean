import Eaf.Fault
import Eaf.Settings
import Eaf.Storage.Basic

/-!
# Trouble with files and settings

Why the program cannot do what it was asked for, with the file that it was busy with. A message
begins with what was being done and ends with the reason.

## Main definitions

* `Eaf.Trouble` — what went wrong, and where.
* `Eaf.Trouble.message` — trouble in words.
-/

namespace Eaf

/-- Why the program cannot do what it was asked for. -/
inductive Trouble
  /-- The storage refuses, and there is no more to say. -/
  | storage (error : StorageError)
  | unreadable (path : Path) (error : StorageError)
  | unwritable (path : Path) (error : StorageError)
  /-- The files in a directory cannot be listed. -/
  | unlistable
  | missingFile (path : Path)
  | missingInput (path : Path)
  | missingInputFile (path : Path)
  /-- A file holds no document. -/
  | notLoaded (path : Path) (fault : Fault)
  /-- A document cannot answer. -/
  | document (fault : Fault)
  | settingsUnreadable (path : Path) (error : StorageError)
  | settingsMalformed (path : Path)
  | settingsUnwritable (path : Path) (error : StorageError)
  | settingsRejected (objection : Settings.Objection)
  deriving DecidableEq, Repr

/-- Trouble in words. -/
def Trouble.message : Trouble → String
  | storage error => error.message
  | unreadable path error => s!"Failed to read file: {path.quoted}: {error.message}"
  | unwritable path error => s!"Failed to write to file: {path.quoted}: {error.message}"
  | unlistable => "Failed to read directory entry"
  | missingFile path => s!"File does not exist: {path.quoted}"
  | missingInput path => s!"Input path does not exist: {path.quoted}"
  | missingInputFile path => s!"Input file does not exist: {path.quoted}"
  | notLoaded path fault => s!"Failed to import EAF file: {path.quoted}: {fault.message}"
  | document fault => fault.message
  | settingsUnreadable path error =>
    s!"Failed to open config file: {path.text}: {error.message}"
  | settingsMalformed path => s!"Failed to parse config file: {path.text}"
  | settingsUnwritable path error =>
    s!"Failed to write default config to file: {path.text}: {error.message}"
  | settingsRejected objection => s!"Configuration validation failed: {objection.message}"

end Eaf

import Eaf.Program.Task

/-!
# Settings in files

## Main definitions

* `Eaf.Settings.load` — the settings in a file.
* `Eaf.Settings.loadOrCreate` — the settings in a file, which is made if there is none.
-/

namespace Eaf.Settings

variable {m : Type → Type} [Monad m] [Storage m] [Terminal m]

/-- The settings in a file. -/
def load (path : Path) : Task m Settings := do
  let text ← orTrouble (.settingsUnreadable path) (← (Storage.read path : m _))
  match ofText? text with
  | some settings => return settings
  | none => throw (.settingsMalformed path)

/-- The settings in a file. If there is no such file, one with the default settings is made. -/
def loadOrCreate (path : Path) : Task m Settings := do
  if ← (Storage.leadsAnywhere path : m Bool) then
    load path
  else do
    remark .warn s!"Config file not found at '{path.text}', creating default config."
    let settings : Settings := {}
    orTrouble (.settingsUnwritable path) (← (Storage.write path settings.toText : m _))
    return settings

end Eaf.Settings

import Eaf.Program.Trouble

/-!
# Tasks

A task works on a storage, prints lines, makes remarks and may run into trouble. Remarks that
matter less than a level are not made. The level can change while a task runs, and is kept when the
task runs into trouble.

## Main definitions

* `Eaf.Terminal` — where lines are printed and remarks made.
* `Eaf.Task` — a task that a monad carries out.
* `Eaf.remark` — a remark, unless the level keeps it back.
-/

namespace Eaf

/-- Where lines are printed and remarks made. -/
class Terminal (m : Type → Type) where
  /-- Prints a line. -/
  print : String → m Unit
  /-- Makes a remark. -/
  remark : Severity → String → m Unit
  /-- The present time, as it is written in files. -/
  now : m String

/-- A task, with the level of the remarks that are made. -/
abbrev Task (m : Type → Type) :=
  ExceptT Trouble (StateT Severity m)

variable {m : Type → Type} [Monad m] [Terminal m]

/-- Makes a remark, unless it matters less than the level. -/
def remark (severity : Severity) (text : String) : Task m Unit := do
  if severity.rank ≤ (← get).rank then
    (Terminal.remark severity text : m Unit)

/-- Makes remarks of notices, in their order. -/
def remarkAll (notices : List Notice) : Task m Unit :=
  notices.forM fun notice => remark notice.severity notice.message

/-- The answer of a storage; a refusal is trouble of the given kind. -/
def orTrouble {α : Type} (trouble : StorageError → Trouble) :
    Except StorageError α → Task m α
  | .ok value => return value
  | .error error => throw (trouble error)

end Eaf

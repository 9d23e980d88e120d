import Eaf.Program.Task
import Eaf.Storage.FileTree

/-!
# Workspaces

A workspace is all that a task works with, as a value: a file tree, the lines that were printed and
the remarks that were made. What a task does to it is found by computation.

## Main definitions

* `Eaf.Workspace` — a file tree with lines and remarks.
* `Eaf.Workspace.perform` — what a task answers, and the workspace after it.
-/

namespace Eaf

/-- All that a task works with. -/
structure Workspace where
  files : FileTree
  /-- The lines that were printed, the last one first. -/
  printed : List String := []
  /-- The remarks that were made, the last one first. -/
  remarks : List (Severity × String) := []
  /-- The present time. -/
  now : String := ""

namespace Workspace

/-- An answer of the files, which stay as they are. -/
def ask {α : Type} (question : FileTree → α) : StateM Workspace α := do
  return question (← get).files

/-- A change of the files, unless they refuse it. -/
def change (command : FileTree → Except StorageError FileTree) :
    StateM Workspace (Except StorageError Unit) := do
  match command (← get).files with
  | .ok files =>
    modify fun workspace => { workspace with files }
    return .ok ()
  | .error error => return .error error

instance : Storage (StateM Workspace) where
  kind? path := ask (·.kind? path)
  read path := ask (·.read path)
  write path text := change (·.write path text)
  makeDirectory path := change (·.makeDirectory path)
  filesBelow path := ask (·.filesBelow path)

instance : Terminal (StateM Workspace) where
  print line := modify fun workspace => { workspace with printed := line :: workspace.printed }
  remark severity text :=
    modify fun workspace =>
      { workspace with remarks := (severity, text) :: workspace.remarks }
  now := return (← get).now

/-- What a task answers when remarks are made down to a given level, and the workspace after it. -/
def perform {α : Type} (workspace : Workspace) (level : Severity)
    (task : Task (StateM Workspace) α) : Except Trouble α × Workspace :=
  let ((answer, _), after) := (task.run.run level).run workspace
  (answer, after)

end Workspace

end Eaf

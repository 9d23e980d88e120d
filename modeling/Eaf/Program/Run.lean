import Eaf.Program.Command
import Eaf.Program.Guide

/-!
# Running the program

## Main definitions

* `Eaf.ExitStatus` — how the program ends.
* `Eaf.run` — the program, with its arguments.
-/

namespace Eaf

/-- How the program ends. -/
inductive ExitStatus
  | success
  /-- The command failed, or found something to complain about. -/
  | failure
  /-- The arguments are wrong. -/
  | misuse
  deriving DecidableEq, Repr

/-- The number by which the program tells how it ended. -/
def ExitStatus.code : ExitStatus → UInt8
  | success => 0
  | failure => 1
  | misuse => 2

variable {m : Type → Type} [Monad m] [Storage m] [Terminal m]

/-- Carries out a task that answers whether all went well. Trouble is remarked on. -/
def runTask (task : Task m Bool) : m ExitStatus := do
  match ← task.run.run .info with
  | (.ok true, _) => return .success
  | (.ok false, _) => return .failure
  | (.error trouble, _) =>
    Terminal.remark .error trouble.message
    return .failure

/-- Runs the program with its arguments. -/
def run (arguments : List String) : m ExitStatus := do
  match Request.ofArguments arguments with
  | .error .misuse =>
    Terminal.remark .error misuseLine
    return .misuse
  | .error .help =>
    helpLines.forM Terminal.print
    return .success
  | .error .version =>
    Terminal.print versionLine
    return .success
  | .ok (.completions shell) =>
    Terminal.print shell.script
    return .success
  | .ok (.run invocation) => runTask invocation.perform

end Eaf

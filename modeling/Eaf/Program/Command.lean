import Eaf.Document.Overview
import Eaf.Hierarchy
import Eaf.Program.CommandLine
import Eaf.Program.Files
import Eaf.Program.SettingsFile

/-!
# Commands

Every command answers whether it found nothing to complain about. The settings are loaded first;
the options on the command line prevail over them.

## Main definitions

* `Eaf.inspect`, `Eaf.validate`, `Eaf.normalize`, `Eaf.showTree` — the commands.
* `Eaf.Command.perform`, `Eaf.Invocation.perform` — a command with the settings given or loaded.
-/

namespace Eaf

variable {m : Type → Type} [Monad m] [Storage m] [Terminal m]

/-- Prints a line. -/
def printLine (line : String) : Task m Unit :=
  (Terminal.print line : m Unit)

/-! ### Overviews and trees -/

/-- Prints the figures of the document in a file. Problems with references count if they are looked
for. -/
def inspect (settings : Settings) (file : Path) (asJson : Bool) : Task m Bool := do
  let imported ← Files.load file settings.reading
  let overview := imported.document.overview
  if asJson then
    printLine overview.toJson.toText
  else
    (overview.lines file.text).forM printLine
  return imported.issues.isEmpty

/-- Prints the tiers of the document in a file below their parents, and warns of tiers that have no
place there. -/
def showTree (settings : Settings) (file : Path) : Task m Bool := do
  let imported ← Files.load file settings.reading
  match imported.document.forest with
  | .error fault => throw (.document fault)
  | .ok forest =>
    (TierTree.levelsOf 0 forest).forM fun (depth, tree) => printLine (tree.line depth)
    let outside := imported.document.tiersOutside forest
    if outside ≠ 0 then
      remark .warn s!"{outside} tier(s) name a parent that does not exist"
    return true

/-! ### Checking references -/

/-- Checks the references of the document in a file, and answers whether they are sound. A file
without a document is not. -/
def validateFile (settings : Settings) (file : Path) : Task m Bool := do
  match ← observing (Files.load file settings.reading) with
  | .error trouble =>
    remark .error s!"{file.quoted}: {trouble.message}"
    return false
  | .ok imported =>
    let report := imported.document.report
    remarkAll [report.notice]
    if report.passed then
      remark .info s!"OK {file.quoted} ({report.notes} annotations)"
    else do
      remark .warn s!"{file.quoted}: {report.issues.length} issue(s)"
      report.issues.forM fun issue => printLine s!"{file.text}: {issue.message}"
    return report.passed

/-- The files that a path names: those in a directory with the extension of documents, or a file
that looks like a document. There are none to speak of if the path names another file. -/
def filesToValidate (path : Path) : Task m (Option (List Path)) := do
  if ← (Storage.isDirectory path : m Bool) then
    return some (← Files.find path Files.extension)
  else if ← (Storage.isFile path : m Bool) then
    return if ← Files.holdsDocument path then some [path] else none
  else
    throw (.missingInput path)

/-- Checks the references of the documents that a path names. -/
def validate (settings : Settings) (path : Path) : Task m Bool := do
  match ← filesToValidate path with
  | none =>
    remark .error s!"{path.quoted} is not an ELAN annotation document"
    return false
  | some [] =>
    remark .warn s!"No .{Files.extension} files found in {path.quoted}"
    return true
  | some files => do
    let answers ← files.mapM (validateFile settings)
    let failed := answers.countP (!·)
    remark .info s!"Validated {files.length} file(s), {failed} with problems"
    return failed = 0

/-! ### Writing documents anew -/

/-- Where a document that is written anew goes unless an option says otherwise: beside its file,
under a name of its own. -/
def normalizedPath (input : Path) : Path :=
  input.marked (input.parent?.getD ⟨"."⟩) "normalized" Files.extension

/-- Writes the document in a file anew. References to slots that are not written count as
problems, and so do problems with references that are found while the file is read. -/
def normalize (settings : Settings) (input : Path) (output : Option Path) (overwrite : Bool) :
    Task m Bool := do
  unless ← (Storage.isFile input : m Bool) do
    throw (.missingInputFile input)
  let output := output.getD (normalizedPath input)
  if !overwrite && (← (Storage.leadsAnywhere output : m Bool)) then
    remark .warn s!"Output file already exists: {output.quoted}. Use -f to force overwrite."
    return false
  else do
    let imported ← Files.load input settings.reading
    let document := imported.document
    let dangling := document.unwrittenSlotRefs
    dangling.forM fun (note, slot) =>
      remark .warn <|
        s!"Annotation {note} keeps reference to {slot}, which is not written to TIME_ORDER"
    Files.save document output settings.writing
    remark .info s!"Wrote {output.quoted} ({document.prunedSlots} orphan time slots pruned)"
    return imported.issues.isEmpty && dangling.isEmpty

/-! ### Any command -/

/-- Carries out a command. -/
def Command.perform (settings : Settings) : Command → Task m Bool
  | inspect file asJson => Eaf.inspect settings file asJson
  | validate path => Eaf.validate settings path
  | normalize input output overwrite includeReferring =>
    let writing := settings.writing
    let writing :=
      { writing with includeReferring := writing.includeReferring || includeReferring }
    Eaf.normalize { settings with writing } input output overwrite
  | tree file => showTree settings file

/-- The settings that hold for an invocation. -/
def Invocation.adjust (invocation : Invocation) (settings : Settings) : Settings :=
  let reading := settings.reading
  { settings with
    reading := { reading with strict := reading.strict || invocation.strict }
    level := invocation.level.getD settings.level }

/-- Loads the settings and carries out the command. -/
def Invocation.perform (invocation : Invocation) : Task m Bool := do
  if let some level := invocation.level then
    set level
  let settings := invocation.adjust (← Settings.loadOrCreate invocation.settingsPath)
  if let some objection := settings.objection? then
    throw (.settingsRejected objection)
  set settings.level
  invocation.command.perform settings

end Eaf

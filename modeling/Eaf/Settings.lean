import Eaf.Json.Layout
import Eaf.Json.Read
import Eaf.Json.Record
import Eaf.Notice
import Eaf.Options
import Eaf.Text.Blank

/-!
# Settings

The settings say how files are read and written and which remarks are shown. They are kept in a
JSON text. What the text leaves out has its default, and what it says of other things is passed
over.

## Main definitions

* `Eaf.Settings` — the settings.
* `Eaf.Settings.ofText?`, `Eaf.Settings.toText` — the settings as a JSON text.
* `Eaf.Settings.objection?` — why settings cannot be used.
-/

namespace Eaf

open Json (Value)

/-- How files are read and written, and which remarks are shown. -/
structure Settings where
  reading : ReadOptions := {}
  writing : WriteOptions := {}
  /-- Remarks are shown down to this severity. -/
  level : Severity := .info
  deriving DecidableEq, Repr, Inhabited

/-! ### Reading -/

/-- The severity that a value names, as a text or as the only key of a record. -/
def Severity.ofJson? : Value → Option Severity
  | .text (some name) => ofName? name
  | .record [(some name, .null)] => ofName? name
  | _ => none

/-- The options for reading that a value gives. -/
def ReadOptions.ofJson? (value : Value) : Option ReadOptions := do
  let given ← value.entries? ["resync_counters", "strict", "replace_soft_hyphens"]
  return {
    resyncCounters := ← given.read? "resync_counters" Value.toBool? true
    strict := ← given.read? "strict" Value.toBool? false
    replaceSoftHyphens := ← given.read? "replace_soft_hyphens" Value.toBool? true }

/-- The options for writing that a value gives. -/
def WriteOptions.ofJson? (value : Value) : Option WriteOptions := do
  let given ← value.entries?
    ["include_reference_annotations", "emit_linguistic_types", "author", "date", "indent"]
  return {
    includeReferring := ← given.read? "include_reference_annotations" Value.toBool? false
    declareTypes := ← given.read? "emit_linguistic_types" Value.toBool? true
    author := ← given.read? "author" Value.toString? ""
    date := ← given.read? "date" Value.toOptionalString? none
    indent := ← given.read? "indent" Value.toWord? 4 }

namespace Settings

/-- The settings that a value gives. -/
def ofJson? (value : Value) : Option Settings := do
  let given ← value.entries? ["import", "export", "log_level"]
  return {
    reading := ← given.read? "import" ReadOptions.ofJson? {}
    writing := ← given.read? "export" WriteOptions.ofJson? {}
    level := ← given.read? "log_level" Severity.ofJson? .info }

/-- The settings that a text gives. -/
def ofText? (text : String) : Option Settings :=
  (Value.read? text).bind ofJson?

end Settings

/-! ### Writing -/

/-- The options for reading as a value. -/
def ReadOptions.toJson (options : ReadOptions) : Value :=
  .ofFields
    [("resync_counters", .bool options.resyncCounters),
     ("strict", .bool options.strict),
     ("replace_soft_hyphens", .bool options.replaceSoftHyphens)]

/-- The options for writing as a value. A date is given only if there is one. -/
def WriteOptions.toJson (options : WriteOptions) : Value :=
  .ofFields <|
    [("include_reference_annotations", .bool options.includeReferring),
     ("emit_linguistic_types", .bool options.declareTypes),
     ("author", .ofString options.author)] ++
    (options.date.map fun date => ("date", Value.ofString date)).toList ++
    [("indent", .ofNat options.indent.toNat)]

namespace Settings

/-- The settings as a value. -/
def toJson (settings : Settings) : Value :=
  .ofFields
    [("import", settings.reading.toJson),
     ("export", settings.writing.toJson),
     ("log_level", .ofString settings.level.name)]

/-- The settings as a text. -/
def toText (settings : Settings) : String :=
  settings.toJson.toText

/-! ### Objections -/

/-- The largest number of spaces by which a level may be indented. -/
def maxIndent : UInt64 := 16

/-- Why settings cannot be used. -/
inductive Objection
  | wideIndent (indent : UInt64)
  | blankDate
  deriving DecidableEq, Repr

/-- An objection in words. -/
def Objection.message : Objection → String
  | wideIndent indent => s!"Export indent must be at most {maxIndent} spaces, got {indent}"
  | blankDate => "Export date must not be blank when set"

/-- The first reason, if there is one, why settings cannot be used. -/
def objection? (settings : Settings) : Option Objection :=
  if maxIndent < settings.writing.indent then
    some (.wideIndent settings.writing.indent)
  else if settings.writing.date.any fun date => date.toList.all Text.isBlank then
    some .blankDate
  else
    none

end Settings

end Eaf

import Eaf.Identifier
import Eaf.Reference.Issue

/-!
# Notices

While it works on a document the library takes notice of things that are no faults: a counter
that starts over, an element that is skipped, a reference that will dangle. Every operation hands
its notices back to its caller, in the order in which they arise; nothing is printed here.

## Main definitions

* `Eaf.Severity` — how much a notice matters, with an order and names.
* `Eaf.Tally` — what reading a file into a document added and passed over.
* `Eaf.Notice` — one notice, with `Eaf.Notice.severity` and `Eaf.Notice.message`.
-/

namespace Eaf

/-- How much a notice matters, the most urgent first. -/
inductive Severity
  | error
  | warn
  | info
  | debug
  | trace
  deriving DecidableEq, Repr, Inhabited

namespace Severity

/-- The place of a severity in the order, the most urgent first. -/
def rank : Severity → Nat
  | error => 0
  | warn => 1
  | info => 2
  | debug => 3
  | trace => 4

/-- All severities, the most urgent first. -/
def all : List Severity :=
  [error, warn, info, debug, trace]

/-- The name of a severity in a log. -/
def label : Severity → String
  | error => "ERROR"
  | warn => "WARN"
  | info => "INFO"
  | debug => "DEBUG"
  | trace => "TRACE"

/-- The name of a severity in settings and on the command line. -/
def name : Severity → String
  | error => "error"
  | warn => "warn"
  | info => "info"
  | debug => "debug"
  | trace => "trace"

/-- The severity with a given name. -/
def ofName? (text : String) : Option Severity :=
  all.find? (·.name == text)

theorem ofName?_name (severity : Severity) : ofName? severity.name = some severity := by
  cases severity <;> decide

end Severity

/-- What reading a file into a document added, and what it passed over. -/
structure Tally where
  /-- Time slots that were added. -/
  slots : Nat
  /-- Time slots passed over because their id was already taken. -/
  duplicateSlots : Nat
  /-- Time slots without a time value. -/
  unalignedSlots : Nat
  /-- Tiers that were added. -/
  tiers : Nat
  /-- Tiers passed over because their id was already taken. -/
  duplicateTiers : Nat
  /-- Annotations on the tiers that were added. -/
  notes : Nat
  deriving DecidableEq, Repr, Inhabited

/-- Something that an operation on a document reports and that does not stop it. -/
inductive Notice
  /-- The counter of a family passed the largest word and starts over. -/
  | counterRestarted (family : IdFamily)
  /-- A time slot element without an id was skipped. -/
  | slotWithoutId
  /-- A tier was skipped because its id is taken. -/
  | duplicateTier (id : String)
  /-- A file was read into the document. -/
  | absorbed (tally : Tally)
  /-- All references of the document were followed. -/
  | referencesChecked (notes issues : Nat)
  /-- A problem of the reference graph. -/
  | problem (issue : Issue)
  /-- References are written to time slots that are not written. -/
  | danglingReferences (count : Nat)
  /-- Referring annotations are not written. -/
  | referringLeftOut (count : Nat)
  deriving DecidableEq, Repr

namespace Notice

/-- How much a notice matters. -/
def severity : Notice → Severity
  | counterRestarted _ => .warn
  | slotWithoutId => .debug
  | duplicateTier _ => .warn
  | absorbed _ => .debug
  | referencesChecked _ _ => .debug
  | problem _ => .warn
  | danglingReferences _ => .warn
  | referringLeftOut _ => .debug

/-- A notice in words. -/
def message : Notice → String
  | counterRestarted family => s!"{family.stem} id counter exhausted, restarting at 0"
  | slotWithoutId => "Skipping TIME_SLOT without TIME_SLOT_ID"
  | duplicateTier id => s!"Skipping duplicate tier id: {id}"
  | absorbed tally =>
    s!"Imported {tally.slots} time slots ({tally.duplicateSlots} duplicate, " ++
      s!"{tally.unalignedSlots} unaligned), {tally.tiers} tiers " ++
      s!"({tally.duplicateTiers} duplicate), {tally.notes} annotations"
  | referencesChecked notes issues =>
    s!"Reference validation: {notes} annotations, {issues} issues"
  | problem issue => issue.message
  | danglingReferences count =>
    s!"Export writes {count} time slot reference(s) missing from TIME_ORDER"
  | referringLeftOut count => s!"Export left out {count} referential annotations"

end Notice

end Eaf

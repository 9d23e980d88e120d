import Eaf.Document.Interval
import Eaf.Notice

/-!
# Following every reference of a document

A look-up in a document is lenient: a dangling id names nothing. The report on a document follows
every reference once and lists the problems, tier by tier in document order.

## Main definitions

* `Eaf.Document.onCycle` — whether references lead from an id back to it.
* `Eaf.Report` — the problems of a document and the number of annotations looked at.
* `Eaf.Document.report` — the report on a document.
* `Eaf.Report.firstUnresolved?`, `Eaf.Report.ensureResolved` — the first dangling reference.
-/

namespace Eaf

namespace Document

variable (document : Document)

/-- Whether at most `links` references lead from an annotation to the one with id `goal`. -/
def leadsTo (goal : String) : (links : Nat) → (id : String) → Bool
  | 0, _ => false
  | links + 1, id =>
    match (document.note? id).bind Note.target? with
    | none => false
    | some target => target == goal || leadsTo goal links target

/-- Whether references lead from the annotation with an id back to that id. A chain that only
runs into a circle further along does not. -/
def onCycle (id : String) : Bool :=
  document.leadsTo id document.notes.length id

/-! ### The problems of one object -/

/-- The problem of a tier whose parent does not exist. -/
def parentIssues (tier : Tier) : List Issue :=
  match tier.parent with
  | none => []
  | some parent =>
    if (document.tier? parent).isSome then [] else [.missingParentTier tier.id parent]

/-- The problems of an annotation anchored between two slots. -/
def alignedIssues (note : Note) (start stop : String) : List Issue :=
  let first := document.slot? start
  let last := document.slot? stop
  (if first.isNone then [.missingTimeSlot note.id start] else []) ++
    (if last.isNone then [.missingTimeSlot note.id stop] else []) ++
    match first, last with
    | some first, some last =>
      if first.value > last.value then [.invertedInterval note.id first.value last.value]
      else []
    | _, _ => []

/-- The problems of an annotation that refers to another. -/
def referringIssues (note : Note) (target : String) : List Issue :=
  if (document.note? target).isNone then [.missingTarget note.id target]
  else if document.onCycle note.id then [.referenceCycle note.id]
  else []

/-- The problems of the anchor of an annotation. -/
def anchorIssues (note : Note) : List Issue :=
  match note.anchor with
  | .aligned start stop => document.alignedIssues note start stop
  | .refers target => document.referringIssues note target

/-! ### The report -/

/-- The problems of a list of annotations, of which those with the ids `seen` came before. -/
def noteIssues (seen : List String) : List Note → List Issue
  | [] => []
  | note :: rest =>
    (if seen.contains note.id then [.duplicateNoteId note.id] else []) ++
      document.anchorIssues note ++ noteIssues (note.id :: seen) rest

/-- The problems of a list of tiers, of which those with annotations of ids `seen` came before. -/
def tierIssues (seen : List String) : List Tier → List Issue
  | [] => []
  | tier :: rest =>
    document.parentIssues tier ++ document.noteIssues seen tier.notes ++
      tierIssues (tier.notes.foldl (fun ids note => note.id :: ids) seen) rest

end Document

/-- The outcome of following every reference of a document. -/
structure Report where
  /-- The problems in the order in which they are met. -/
  issues : List Issue
  /-- The number of annotations looked at. -/
  notes : Nat
  deriving DecidableEq, Repr, Inhabited

namespace Report

/-- Whether a report lists no problem. -/
def passed (report : Report) : Bool :=
  report.issues.isEmpty

/-- The reference that a problem leaves unresolved. An interval that is inverted and an id that is
used twice leave none. -/
def unresolved? : Issue → Option (IdFamily × String)
  | .missingTimeSlot _ slot => some (.timeSlot, slot)
  | .missingTarget _ target => some (.note, target)
  | .missingParentTier _ parent => some (.tier, parent)
  | .referenceCycle note => some (.note, note)
  | .invertedInterval _ _ _ => none
  | .duplicateNoteId _ => none

/-- The first reference that a report finds unresolved. -/
def firstUnresolved? (report : Report) : Option (IdFamily × String) :=
  report.issues.findSome? unresolved?

/-- Nothing, or the fault of the first reference that a report finds unresolved. -/
def ensureResolved (report : Report) : Except Fault Unit :=
  match report.firstUnresolved? with
  | some (family, id) => .error (.unresolved family id)
  | none => .ok ()

/-- What is noticed when a report is drawn up. -/
def notice (report : Report) : Notice :=
  .referencesChecked report.notes report.issues.length

end Report

/-- The report on a document. -/
def Document.report (document : Document) : Report :=
  { issues := document.tierIssues [] document.tiers
    notes := document.notes.length }

end Eaf

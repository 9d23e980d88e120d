import Eaf.Document.Content
import Eaf.Reference.Report
import Eaf.Xml.Tree

/-!
# Reading files into documents

The content of a file joins a document: slots and tiers are added behind the ones that are there,
unless their id is taken, and the first object with an id wins. What the file says of the recording
replaces what the document said. The counters move past the ids that were added, and past the one
that the file records. A file that cannot be read leaves the document as it was.

## Main definitions

* `Eaf.Timeline.insertNew` — a timeline with the slots of a list whose ids are new.
* `Eaf.splitNew` — the tiers of a list whose ids are new, and the ids of the others.
* `Eaf.Document.absorb` — a document joined by the content of a file.
* `Eaf.Document.importTree`, `Eaf.Document.importText` — a document joined by a file.
* `Eaf.Document.ofText` — the document that a file alone makes.
-/

namespace Eaf

/-- An answer, or the fault that stands for it, with what was noticed on the way. -/
structure Outcome (α : Type) where
  result : Except Fault α
  notices : List Notice := []

/-- A timeline with those slots of a list whose ids are new, and these slots. -/
def Timeline.insertNew (timeline : Timeline) : List TimeSlot → Timeline × List TimeSlot
  | [] => (timeline, [])
  | slot :: rest =>
    match timeline.insert? slot with
    | some extended =>
      let (final, added) := extended.insertNew rest
      (final, slot :: added)
    | none => timeline.insertNew rest

/-- The tiers of a list whose ids are neither taken nor met before in the list, and the ids of the
other tiers. -/
def splitNew (taken : List String) : List Tier → List Tier × List String
  | [] => ([], [])
  | tier :: rest =>
    if taken.contains tier.id then
      let (added, skipped) := splitNew taken rest
      (added, tier.id :: skipped)
    else
      let (added, skipped) := splitNew (tier.id :: taken) rest
      (tier :: added, skipped)

/-- A document that the content of a file has joined. -/
structure Absorbed where
  document : Document
  tally : Tally
  /-- The ids of the tiers that were passed over. -/
  skipped : List String

namespace Document

/-- The ids of all tiers, in document order. -/
def tierIds (document : Document) : List String :=
  document.tiers.map (·.id)

/-- All ids that a list of tiers carries, on the tiers and on their annotations. -/
def idsOf (tiers : List Tier) : List String :=
  tiers.flatMap fun tier => tier.id :: tier.notes.map (·.id)

/-- A document joined by the content of a file. -/
def absorb (document : Document) (resync : Bool) (content : Content) : Absorbed :=
  let (timeline, slots) := document.timeline.insertNew content.slots
  let (tiers, skipped) := splitNew document.tierIds content.tiers
  let counters :=
    match content.lastUsed with
    | some value => document.counters.raise .note value
    | none => document.counters
  { document :=
      { media := content.media
        timeline
        tiers := document.tiers ++ tiers
        counters :=
          if resync then counters.observeAll (slots.map (·.id) ++ idsOf tiers) else counters }
    tally :=
      { slots := slots.length
        duplicateSlots := content.slots.length - slots.length
        unalignedSlots := content.unaligned
        tiers := tiers.length
        duplicateTiers := skipped.length
        notes := (tiers.flatMap (·.notes)).length }
    skipped }

end Document

/-- A document after a file was read into it. -/
structure Imported where
  document : Document
  tally : Tally
  /-- The problems of the document, if they were asked for. -/
  issues : List Issue

namespace Document

/-- A document joined by the file with a given root element. -/
def importTree (document : Document) (options : ReadOptions) (root : Xml.Node) :
    Outcome Imported :=
  match Content.ofRoot? options root with
  | .error fault => { result := .error fault, notices := Content.notices root }
  | .ok content =>
    let absorbed := document.absorb options.resyncCounters content
    let joined := absorbed.document
    let notices :=
      Content.notices root ++ absorbed.skipped.map .duplicateTier ++ [.absorbed absorbed.tally]
    if options.strict then
      let report := joined.report
      { result := .ok { document := joined, tally := absorbed.tally, issues := report.issues }
        notices := notices ++ report.notice :: report.issues.map .problem }
    else
      { result := .ok { document := joined, tally := absorbed.tally, issues := [] }
        notices }

/-- A document joined by a file. -/
def importText (document : Document) (options : ReadOptions) (text : String) : Outcome Imported :=
  match Xml.read? text with
  | none => { result := .error .notXml }
  | some root => document.importTree options root

/-- The document that a file alone makes. -/
def ofText (text : String) : Outcome Imported :=
  empty.importText {} text

end Document

end Eaf

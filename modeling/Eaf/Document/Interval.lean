import Eaf.Document.Lookup
import Eaf.Number.Clock
import Eaf.Order.StableSort

/-!
# Times of annotations

An aligned annotation extends between the times of its two slots; an annotation that refers to
another extends as that one does. A document whose links dangle or run in circles leaves some
annotations without an extent.

## Main definitions

* `Eaf.Document.alignedInterval?` — the extent of an aligned annotation.
* `Eaf.Document.interval?` — the extent of any annotation, found along its references.
* `Eaf.Document.validSlots` — the slots between which annotations extend, by time.
* `Eaf.Document.unwrittenSlotRefs` — the references to slots that are not among them.
* `Eaf.Document.displayOrder` — the aligned annotations with their extents, outer ones first.
-/

namespace Eaf

namespace Document

variable (document : Document)

/-- The two slots of an aligned annotation, if both exist. -/
def endpoints? (note : Note) : Option (TimeSlot × TimeSlot) :=
  match note.slotRefs? with
  | none => none
  | some (start, stop) =>
    match document.slot? start, document.slot? stop with
    | some first, some last => some (first, last)
    | _, _ => none

/-- The extent of an aligned annotation, if both of its slots exist. -/
def alignedInterval? (note : Note) : Option (Int64 × Int64) :=
  (document.endpoints? note).map fun (first, last) => (first.value, last.value)

/-- The extent of an annotation, if at most `links` look-ups along references reach one that is
aligned. -/
def intervalWithin? : (links : Nat) → (id : String) → Option (Int64 × Int64)
  | 0, _ => none
  | links + 1, id =>
    match document.note? id with
    | none => none
    | some note =>
      match note.anchor with
      | .aligned _ _ => document.alignedInterval? note
      | .refers target => intervalWithin? links target

/-- The extent of an annotation. References are followed until an aligned annotation is reached;
a chain that is longer than the document has annotations never reaches one. -/
def interval? (id : String) : Option (Int64 × Int64) :=
  document.intervalWithin? document.notes.length id

/-! ### Slots in use -/

/-- The slots of the aligned annotations whose two slots exist, in document order. -/
def usedSlots : List TimeSlot :=
  document.notes.flatMap fun note =>
    match document.endpoints? note with
    | some (first, last) => [first, last]
    | none => []

/-- The slots of the aligned annotations whose two slots exist, each once, by time. Slots of equal
time stand in the order in which the annotations name them first. -/
def validSlots : List TimeSlot :=
  StableSort.sort (fun a b => a.value ≤ b.value) (distinctBy TimeSlot.id document.usedSlots)

/-- The references of aligned annotations to slots that are not valid, each with the id of its
annotation. A file that is written holds these references and not their slots. -/
def unwrittenSlotRefs : List (String × String) :=
  let written := document.validSlots.map (·.id)
  document.notes.flatMap fun note =>
    match note.slotRefs? with
    | none => []
    | some (start, stop) =>
      [(note.id, start), (note.id, stop)].filter fun (_, ref) => !written.contains ref

/-- The number of slots that are not written, since no annotation extends between them. -/
def prunedSlots : Nat :=
  document.timeline.size - document.validSlots.length

/-! ### Display -/

/-- An aligned annotation with its tier and its extent. -/
structure Placed where
  tier : Tier
  note : Note
  start : Int64
  stop : Int64
  deriving DecidableEq, Repr

/-- Whether one extent may be shown before another: it starts earlier, or at the same time and
does not end earlier. -/
def Placed.mayPrecede (a b : Placed) : Bool :=
  a.start < b.start || (a.start == b.start && b.stop ≤ a.stop)

/-- The aligned annotations with an extent, in document order. -/
def placed : List Placed :=
  document.tiers.flatMap fun tier =>
    tier.notes.filterMap fun note =>
      (document.alignedInterval? note).map fun (start, stop) =>
        { tier, note, start, stop }

/-- The aligned annotations with an extent, by start and, of equal start, the longer first. -/
def displayOrder : List Placed :=
  StableSort.sort Placed.mayPrecede document.placed

end Document

/-- The time of the slot with a given id, in seconds. -/
def Document.seconds? (document : Document) (id : String) : Option Binary64 :=
  (document.slot? id).map fun slot => secondsOf slot.value

end Eaf

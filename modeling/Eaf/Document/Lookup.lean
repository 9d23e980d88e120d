import Eaf.Document.Basic
import Eaf.Fault

/-!
# Looking objects up by id

Ids of tiers and annotations need not be unique; a look-up answers with the first object in
document order. A look-up that must not fail answers with a fault instead.

## Main definitions

* `Eaf.Document.slot?`, `Eaf.Document.tier?`, `Eaf.Document.note?` — the object with an id.
* `Eaf.Document.slot`, `Eaf.Document.tier`, `Eaf.Document.note` — the same, or a fault.
* `Eaf.Document.hasTier`, `Eaf.Document.hasNote` — whether an id is in use.
-/

namespace Eaf.Document

variable (document : Document) (id : String)

/-- The time slot with a given id. -/
def slot? : Option TimeSlot :=
  document.timeline.find? id

/-- The first tier with a given id. -/
def tier? : Option Tier :=
  document.tiers.find? (·.id == id)

/-- The first annotation with a given id, with the tier that holds it. -/
def located? : Option (Tier × Note) :=
  document.tiers.findSome? fun tier => (tier.find? id).map (tier, ·)

/-- The first annotation with a given id. -/
def note? : Option Note :=
  (document.located? id).map Prod.snd

/-- Whether some tier has the id. -/
def hasTier : Bool :=
  document.tiers.any (·.id == id)

/-- Whether some annotation on some tier has the id. -/
def hasNote : Bool :=
  document.tiers.any fun tier => tier.notes.any (·.id == id)

/-! ### Look-ups that must not fail -/

/-- The time slot with a given id, or the fault that none has it. -/
def slot : Except Fault TimeSlot :=
  match document.slot? id with
  | some slot => .ok slot
  | none => .error (.unresolved .timeSlot id)

/-- The first tier with a given id, or the fault that none has it. -/
def tier : Except Fault Tier :=
  match document.tier? id with
  | some tier => .ok tier
  | none => .error (.tierNotFound id)

/-- The first annotation with a given id, or the fault that none has it. -/
def note : Except Fault Note :=
  match document.note? id with
  | some note => .ok note
  | none => .error (.unresolved .note id)

end Eaf.Document

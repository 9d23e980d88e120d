import Eaf.Document.Interval

/-!
# New tiers and annotations

A new object takes the next free id of its family. A new annotation extends between two times; a
slot at one of these times is used if there is one, and made otherwise.

## Main definitions

* `Eaf.Document.createTier` — a document with a new tier at its end.
* `Eaf.Document.createNote` — a document with a new annotation at the end of a tier.
* `Eaf.Document.modifyTier?` — a document with one tier changed.
-/

namespace Eaf

/-- Why no object was made. -/
inductive Refusal
  /-- No tier has the id. -/
  | noSuchTier
  /-- Every numbered id of the family is taken. -/
  | idsExhausted (family : IdFamily)
  deriving DecidableEq, Repr

/-- A new object: its id and the document with it. -/
structure Created where
  id : String
  document : Document
  notices : List Notice

namespace Document

/-- The locale of a tier that is made without one. -/
def defaultLocale : String :=
  "default-locale"

/-- A document with a new tier at its end. -/
def createTier (document : Document) (linguisticType : String)
    (locale : String := defaultLocale) : Except Refusal Created :=
  match document.counters.mint? .tier document.hasTier with
  | none => .error (.idsExhausted .tier)
  | some mint =>
    let tier : Tier := { id := mint.id, linguisticType, locale := some locale }
    .ok
      { id := mint.id
        document := { document with tiers := document.tiers ++ [tier], counters := mint.counters }
        notices := mint.notices }

/-- The first slot at a time and the document that has it: the document itself, or the one with a
new slot at its end. -/
def slotForTime (document : Document) (value : Int64) : Except Refusal Created :=
  match document.timeline.findAt? value with
  | some slot => .ok { id := slot.id, document, notices := [] }
  | none =>
    match document.counters.mint? .timeSlot document.timeline.contains with
    | none => .error (.idsExhausted .timeSlot)
    | some mint =>
      let slot : TimeSlot := { id := mint.id, value }
      let timeline := (document.timeline.insert? slot).getD document.timeline
      .ok
        { id := mint.id
          document := { document with timeline, counters := mint.counters }
          notices := mint.notices }

/-- The tiers of a document with the first one of a given id changed, if there is one. -/
def modifyFirst (id : String) (f : Tier → Tier) : List Tier → Option (List Tier)
  | [] => none
  | tier :: rest =>
    if tier.id = id then some (f tier :: rest)
    else (modifyFirst id f rest).map (tier :: ·)

/-- A document with the first tier of a given id changed, if there is one. -/
def modifyTier? (document : Document) (id : String) (f : Tier → Tier) : Option Document :=
  (modifyFirst id f document.tiers).map fun tiers => { document with tiers }

/-- A document with a new annotation at the end of the first tier of a given id. The annotation
extends from one time to another, in whatever order they are. -/
def createNote (document : Document) (tierId value : String) (start stop : Int64) :
    Except Refusal Created :=
  if document.hasTier tierId then do
    let first ← document.slotForTime start
    let last ← first.document.slotForTime stop
    match last.document.counters.mint? .note last.document.hasNote with
    | none => .error (.idsExhausted .note)
    | some mint =>
      let note : Note := { id := mint.id, value, anchor := .aligned first.id last.id }
      match last.document.modifyTier? tierId (·.append note) with
      | none => .error .noSuchTier
      | some grown =>
        .ok
          { id := mint.id
            document := { grown with counters := mint.counters }
            notices := first.notices ++ last.notices ++ mint.notices }
  else
    .error .noSuchTier

end Document

end Eaf

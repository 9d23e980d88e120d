import Eaf.Counters
import Eaf.Document.Timeline

/-!
# Annotation documents

A document describes a recording. Its timeline names points in media time; its tiers are named
tracks of annotations. An annotation is anchored between two time slots or refers to another
annotation, whose extent it shares. All links are ids, which need not name anything.

## Main definitions

* `Eaf.Note`, `Eaf.Anchor` — a labelled annotation and how it is anchored in time.
* `Eaf.Tier` — a named track of annotations.
* `Eaf.Media` — what is known of the recording.
* `Eaf.Document` — media, timeline, tiers and counters for new ids.
-/

namespace Eaf

/-- How an annotation is anchored in time. -/
inductive Anchor
  /-- Between two time slots. -/
  | aligned (start stop : String)
  /-- As another annotation is. -/
  | refers (target : String)
  deriving DecidableEq, Repr, Inhabited

/-- A labelled annotation, a note for short. -/
structure Note where
  id : String
  value : String
  anchor : Anchor
  deriving DecidableEq, Repr, Inhabited

namespace Note

/-- The time slots between which an annotation is anchored. -/
def slotRefs? (note : Note) : Option (String × String) :=
  match note.anchor with
  | .aligned start stop => some (start, stop)
  | .refers _ => none

/-- The annotation to which an annotation refers. -/
def target? (note : Note) : Option String :=
  match note.anchor with
  | .aligned _ _ => none
  | .refers target => some target

/-- Whether an annotation is anchored between two time slots. -/
def isAligned (note : Note) : Bool :=
  note.slotRefs?.isSome

end Note

/-- A named track of annotations, in document order. -/
structure Tier where
  id : String
  /-- A tag that classifies the tier. -/
  linguisticType : String
  locale : Option String := none
  /-- The id of the parent tier; a tier without one is a root. -/
  parent : Option String := none
  notes : List Note := []
  deriving DecidableEq, Repr, Inhabited

namespace Tier

/-- Whether a tier names no parent. -/
def isRoot (tier : Tier) : Bool :=
  tier.parent.isNone

/-- The first annotation of a tier with a given id. -/
def find? (tier : Tier) (id : String) : Option Note :=
  tier.notes.find? (·.id == id)

/-- A tier with one more annotation at its end. -/
def append (tier : Tier) (note : Note) : Tier :=
  { tier with notes := tier.notes ++ [note] }

/-- A tier with the annotation at one place changed. -/
def modifyAt (tier : Tier) (place : Nat) (f : Note → Note) : Tier :=
  { tier with notes := tier.notes.modify place f }

/-- A tier without the annotation at one place. -/
def eraseAt (tier : Tier) (place : Nat) : Tier :=
  { tier with notes := tier.notes.eraseIdx place }

end Tier

/-- What is known of the recording that a document describes. -/
structure Media where
  url : Option String := none
  /-- The MIME type of the recording. -/
  mimeType : Option String := none
  file : Option String := none
  deriving DecidableEq, Repr, Inhabited

/-- An annotation document. -/
structure Document where
  media : Media := {}
  timeline : Timeline := {}
  /-- The tiers in document order. -/
  tiers : List Tier := []
  counters : Counters := {}
  deriving Inhabited

namespace Document

/-- The document that holds nothing. -/
def empty : Document :=
  {}

/-- All annotations, tier by tier in document order. -/
def notes (document : Document) : List Note :=
  document.tiers.flatMap (·.notes)

end Document

end Eaf

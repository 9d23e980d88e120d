/-!
# Problems of the reference graph

Annotations refer to time slots or to other annotations, and tiers refer to parent tiers, all by
id. This module lists what can be wrong with these references and how each problem is worded.

## Main definitions

* `Eaf.Issue` — one problem, with the ids that it concerns.
* `Eaf.Issue.message` — the problem in words.
-/

namespace Eaf

/-- A single problem of the reference graph of a document. -/
inductive Issue
  /-- An aligned annotation refers to a time slot that does not exist. -/
  | missingTimeSlot (note slot : String)
  /-- A referring annotation refers to an annotation that does not exist. -/
  | missingTarget (note target : String)
  /-- A tier names a parent that does not exist. -/
  | missingParentTier (tier parent : String)
  /-- An aligned annotation ends before it starts. -/
  | invertedInterval (note : String) (start stop : Int64)
  /-- An annotation carries an id that an earlier annotation carries. -/
  | duplicateNoteId (note : String)
  /-- Following references from an annotation leads back to it. -/
  | referenceCycle (note : String)
  deriving DecidableEq, Repr, Inhabited

namespace Issue

/-- A problem in words. -/
def message : Issue → String
  | missingTimeSlot note slot =>
    s!"Annotation {note} refers to missing time slot {slot}"
  | missingTarget note target =>
    s!"Annotation {note} refers to missing annotation {target}"
  | missingParentTier tier parent =>
    s!"Tier {tier} refers to missing parent tier {parent}"
  | invertedInterval note start stop =>
    s!"Annotation {note} ends before it starts: {start.toInt}ms > {stop.toInt}ms"
  | duplicateNoteId note =>
    s!"Annotation id {note} is used more than once"
  | referenceCycle note =>
    s!"Annotation {note} is part of a reference cycle"

end Issue

end Eaf

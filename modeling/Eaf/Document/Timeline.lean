import Std.Data.TreeMap

/-!
# Timelines

A timeline lists the named points in media time of a document, in the order in which they were
added, and keeps the position of each name at hand. Names are unique: a slot whose name is taken
is not added.

## Main definitions

* `Eaf.TimeSlot` — a named point in media time.
* `Eaf.Timeline` — time slots in the order of their insertion, with the positions of their ids.
* `Eaf.Timeline.find?`, `Eaf.Timeline.findAt?` — a slot by its id or by its time.
* `Eaf.Timeline.insert?` — the timeline with one more slot.
-/

namespace Eaf

/-- A named point in media time, in milliseconds from the start of the media. -/
structure TimeSlot where
  id : String
  value : Int64
  deriving DecidableEq, Repr, Inhabited

/-- The time slots of a document in the order of their insertion, with the position of each id. -/
structure Timeline where
  slots : Array TimeSlot := #[]
  positions : Std.TreeMap String Nat := ∅
  deriving Inhabited

namespace Timeline

/-- The number of time slots. -/
def size (timeline : Timeline) : Nat :=
  timeline.slots.size

/-- The time slots in the order of their insertion. -/
def toList (timeline : Timeline) : List TimeSlot :=
  timeline.slots.toList

/-- Whether some slot has the id. -/
def contains (timeline : Timeline) (id : String) : Bool :=
  timeline.positions.contains id

/-- The slot with a given id. -/
def find? (timeline : Timeline) (id : String) : Option TimeSlot :=
  timeline.positions[id]?.bind fun position => timeline.slots[position]?

/-- The first slot at exactly the given time. -/
def findAt? (timeline : Timeline) (value : Int64) : Option TimeSlot :=
  timeline.slots.find? (·.value == value)

/-- The timeline with one more slot at its end, unless the id of the slot is taken. -/
def insert? (timeline : Timeline) (slot : TimeSlot) : Option Timeline :=
  if timeline.contains slot.id then
    none
  else
    some
      { slots := timeline.slots.push slot
        positions := timeline.positions.insert slot.id timeline.slots.size }

theorem toList_insert? {timeline extended : Timeline} {slot : TimeSlot}
    (h : timeline.insert? slot = some extended) :
    extended.toList = timeline.toList ++ [slot] := by
  unfold insert? at h
  split at h
  · cases h
  · cases h
    simp [toList]

end Timeline

end Eaf

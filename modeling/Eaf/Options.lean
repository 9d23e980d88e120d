/-!
# How files are read and written

## Main definitions

* `Eaf.ReadOptions` — how a file is read into a document.
* `Eaf.WriteOptions` — how a document is written.
-/

namespace Eaf

/-- How a file is read into a document. -/
structure ReadOptions where
  /-- Move the counters past the numbered ids that are read. -/
  resyncCounters : Bool := true
  /-- Follow every reference afterwards and report the problems. -/
  strict : Bool := false
  /-- Put spaces for the soft hyphens in annotation values. -/
  replaceSoftHyphens : Bool := true
  deriving DecidableEq, Repr, Inhabited

/-- How a document is written. -/
structure WriteOptions where
  /-- Write the annotations that refer to others. -/
  includeReferring : Bool := false
  /-- Declare the linguistic types of the tiers. -/
  declareTypes : Bool := true
  author : String := ""
  /-- The date to write; the time of writing if there is none. -/
  date : Option String := none
  /-- The number of spaces by which a level is indented. -/
  indent : UInt64 := 4
  deriving DecidableEq, Repr, Inhabited

end Eaf

import Eaf.Identifier

/-!
# Faults of annotation documents

What can go wrong when a document is read from a file or asked for something that it does not
hold, and how each fault is worded.

## Main definitions

* `Eaf.Defect` — how a file departs from the required element structure.
* `Eaf.Fault` — why a document could not be read or could not answer.
* `Eaf.Failure` — a fault, or any other reason for which the program gives up.
-/

namespace Eaf

/-- How an XML document departs from the element structure of an annotation document. -/
inductive Defect
  | wrongRoot (found : String)
  | missingHeader
  | missingMediaDescriptor
  | tierWithoutId
  | noteWithoutId (element : String)
  deriving DecidableEq, Repr

/-- A defect in words. -/
def Defect.message : Defect → String
  | wrongRoot found => s!"expected root element ANNOTATION_DOCUMENT, found {found}"
  | missingHeader => "missing HEADER"
  | missingMediaDescriptor => "missing MEDIA_DESCRIPTOR"
  | tierWithoutId => "TIER without TIER_ID"
  | noteWithoutId element => s!"{element} without ANNOTATION_ID"

/-- Why a document could not be read or could not answer a question. -/
inductive Fault
  /-- The text is not a well-formed XML document. -/
  | notXml
  /-- The XML document does not have the structure of an annotation document. -/
  | malformed (reason : String)
  /-- A time slot carries a time value that is no finite number. -/
  | invalidTimeValue (slot value : String)
  /-- An id was looked up and no object of the family carries it. -/
  | unresolved (family : IdFamily) (id : String)
  /-- A tier was asked for by an id that no tier carries. -/
  | tierNotFound (id : String)
  /-- A tier is an ancestor of itself. -/
  | cyclicHierarchy (id : String)
  deriving DecidableEq, Repr, Inhabited

namespace Fault

/-- The fault of a file with a structural defect. -/
def ofDefect (defect : Defect) : Fault :=
  malformed defect.message

/-- A fault in words. -/
def message : Fault → String
  | notXml => "Failed to parse XML"
  | malformed reason => s!"Malformed EAF document: {reason}"
  | invalidTimeValue slot value => s!"Invalid TIME_VALUE '{value}' on time slot {slot}"
  | unresolved family id => s!"Unresolved {family.noun} reference: {id}"
  | tierNotFound id => s!"Tier not found: {id}"
  | cyclicHierarchy id => s!"Cyclic tier hierarchy detected at tier {id}"

end Fault

/-- Why the program gives up, sorted by the part of it that gives up. -/
inductive Failure
  | file (text : String)
  | document (fault : Fault)
  | configuration (text : String)
  | unknown (text : String)
  deriving DecidableEq, Repr

namespace Failure

/-- What sort of failure it is, in words. -/
def heading : Failure → String
  | file _ => "File error"
  | document _ => "Document error"
  | configuration _ => "Configuration error"
  | unknown _ => "Unknown error"

/-- What a failure says of its cause. -/
def cause : Failure → String
  | file text => text
  | document fault => fault.message
  | configuration text => text
  | unknown text => text

/-- A failure in words. -/
def message (failure : Failure) : String :=
  s!"{failure.heading}: {failure.cause}"

/-- The failure for an error of no known sort. An explanation of what was being done, if there is
one, stands for the error itself. -/
def ofError (explanation : Option String) (text : String) : Failure :=
  unknown (explanation.getD text)

end Failure

end Eaf

import Eaf.Document.Content
import Eaf.Document.Interval
import Eaf.Xml.Layout

/-!
# Writing documents

A document is written as an annotation file in format 3.0. Times are in milliseconds. Of the slots
only those between which some annotation extends are written, by time; annotations that refer to
others are written on demand. References to slots that are not written stay as they are.

## Main definitions

* `Eaf.Tier.written` — the annotations of a tier that are written.
* `Eaf.Document.declaredTypes` — the linguistic types that a file declares.
* `Eaf.Document.pieces` — the pieces of the file.
* `Eaf.Document.toText` — the file.
* `Eaf.Document.writeNotices` — what is noticed while a document is written.
-/

namespace Eaf

open Xml (Piece)

/-! ### Fixed texts of the format -/

/-- The name of the format in every file. -/
def eafUrn : String :=
  "urn:nl-mpi-tools-elan-eaf:dd04600d-3cc3-41a3-a102-548c7b8c0e45"

/-- The number of the format. -/
def formatNumber : String :=
  "3.0"

/-- The namespace of the attribute that names the schema. -/
def schemaInstance : String :=
  "http://www.w3.org/2001/XMLSchema-instance"

/-- The place of the schema of the format. -/
def schemaPlace : String :=
  "http://www.mpi.nl/tools/elan/EAFv3.0.xsd"

/-! ### Annotations and tiers -/

namespace Note

/-- The name of the element of an annotation. -/
def elementName (note : Note) : String :=
  match note.anchor with
  | .aligned _ _ => "ALIGNABLE_ANNOTATION"
  | .refers _ => "REF_ANNOTATION"

/-- The attributes of the element of an annotation. -/
def attributes (note : Note) : List (String × String) :=
  ("ANNOTATION_ID", note.id) ::
    match note.anchor with
    | .aligned start stop => [("TIME_SLOT_REF1", start), ("TIME_SLOT_REF2", stop)]
    | .refers target => [("ANNOTATION_REF", target)]

/-- The pieces of an annotation. -/
def pieces (note : Note) : List Piece :=
  [ .openTag "ANNOTATION" [],
    .openTag note.elementName note.attributes,
    .openTag "ANNOTATION_VALUE" [],
    .text note.value,
    .closeTag "ANNOTATION_VALUE",
    .closeTag note.elementName,
    .closeTag "ANNOTATION" ]

end Note

namespace Tier

/-- The annotations of a tier that are written. -/
def written (options : WriteOptions) (tier : Tier) : List Note :=
  tier.notes.filter fun note => note.isAligned || options.includeReferring

/-- The attribute of a given name, if there is a value for it. -/
def optional (name : String) (value : Option String) : List (String × String) :=
  (value.map (name, ·)).toList

/-- The attributes of the element of a tier. -/
def attributes (tier : Tier) : List (String × String) :=
  [("TIER_ID", tier.id), ("LINGUISTIC_TYPE_REF", tier.linguisticType)] ++
    optional "DEFAULT_LOCALE" tier.locale ++ optional "PARENT_REF" tier.parent

/-- The pieces of a tier. -/
def pieces (options : WriteOptions) (tier : Tier) : List Piece :=
  .openTag "TIER" tier.attributes ::
    ((tier.written options).flatMap (·.pieces) ++ [.closeTag "TIER"])

end Tier

/-! ### The parts of a file -/

namespace Document

variable (document : Document) (options : WriteOptions)

/-- The pieces of a property of the header. -/
def propertyPieces (name value : String) : List Piece :=
  [.openTag "PROPERTY" [("NAME", name)], .text value, .closeTag "PROPERTY"]

/-- The pieces of the header. -/
def headerPieces : List Piece :=
  [ .openTag "HEADER"
      [("MEDIA_FILE", document.media.file.getD ""), ("TIME_UNITS", "milliseconds")],
    .emptyTag "MEDIA_DESCRIPTOR"
      (("MEDIA_URL", document.media.url.getD "") ::
        Tier.optional "MIME_TYPE" document.media.mimeType) ] ++
    propertyPieces "URN" eafUrn ++
    propertyPieces Header.lastUsedProperty
      (String.ofList (Numeral.write document.counters.note.toNat)) ++
    [.closeTag "HEADER"]

/-- The piece of a time slot. -/
def slotPiece (slot : TimeSlot) : Piece :=
  .emptyTag "TIME_SLOT"
    [ ("TIME_SLOT_ID", slot.id),
      ("TIME_VALUE", String.ofList (Numeral.writeInt slot.value.toInt)) ]

/-- The pieces of the time order. -/
def timeOrderPieces : List Piece :=
  .openTag "TIME_ORDER" [] :: (document.validSlots.map slotPiece ++ [.closeTag "TIME_ORDER"])

/-- The annotations that are written on the tiers of a linguistic type. -/
def writtenOfType (type : String) : List Note :=
  (document.tiers.filter (·.linguisticType == type)).flatMap (·.written options)

/-- Whether a linguistic type is declared as aligned in time. Only a type whose tiers have
annotations, none of them aligned, is not. -/
def isTypeAligned (type : String) : Bool :=
  let notes := document.writtenOfType options type
  notes.isEmpty || notes.any (·.isAligned)

/-- The linguistic types that a file declares, in the order of the first tier of each. -/
def declaredTypes : List String :=
  distinctBy (fun type => type) (document.tiers.map (·.linguisticType))

/-- The piece that declares a linguistic type. -/
def typePiece (type : String) : Piece :=
  .emptyTag "LINGUISTIC_TYPE"
    [ ("LINGUISTIC_TYPE_ID", type),
      ("TIME_ALIGNABLE", if document.isTypeAligned options type then "true" else "false"),
      ("GRAPHIC_REFERENCES", "false") ]

/-- The pieces that declare the linguistic types. -/
def typePieces : List Piece :=
  if options.declareTypes then document.declaredTypes.map (document.typePiece options) else []

/-- The attributes of the root element. -/
def rootAttributes (now : String) : List (String × String) :=
  [ ("AUTHOR", options.author),
    ("DATE", options.date.getD now),
    ("FORMAT", formatNumber),
    ("VERSION", formatNumber),
    ("xmlns:xsi", schemaInstance),
    ("xsi:noNamespaceSchemaLocation", schemaPlace) ]

/-- The pieces of a file that is written at a given time. -/
def pieces (now : String) : List Piece :=
  [.declaration, .openTag "ANNOTATION_DOCUMENT" (rootAttributes options now)] ++
    document.headerPieces ++ document.timeOrderPieces ++
    document.tiers.flatMap (·.pieces options) ++ document.typePieces options ++
    [.closeTag "ANNOTATION_DOCUMENT"]

/-- The file of a document, written at a given time. -/
def toText (now : String) : String :=
  Xml.write options.indent.toNat (document.pieces options now)

/-- The number of annotations that refer to others and are not written. -/
def leftOut : Nat :=
  document.notes.countP fun note => !(note.isAligned || options.includeReferring)

/-- What is noticed while a document is written. -/
def writeNotices : List Notice :=
  let dangling := document.unwrittenSlotRefs.length
  let leftOut := document.leftOut options
  (if dangling = 0 then [] else [.danglingReferences dangling]) ++
    if leftOut = 0 then [] else [.referringLeftOut leftOut]

end Document

end Eaf

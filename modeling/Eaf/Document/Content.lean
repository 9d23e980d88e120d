import Eaf.Document.Basic
import Eaf.Fault
import Eaf.Number.Clock
import Eaf.Options
import Eaf.Xml.Node

/-!
# What a file says

The content of an annotation file, read from its XML tree before any document is touched. Elements
are told by their local names. A file has a header with a media descriptor; its times are in
milliseconds if the header says so and in seconds otherwise. Time slots may lack an id, which makes
them useless, or a time, which leaves them unaligned.

## Main definitions

* `Eaf.Content` — media, the counter of annotation ids, time slots and tiers of a file.
* `Eaf.Header.ofRoot?` — the header and the media descriptor of a file.
* `Eaf.SlotEntry` — what one time slot element says.
* `Eaf.Tier.ofElement?`, `Eaf.Note.ofElement?` — tiers and annotations from their elements.
* `Eaf.Content.ofRoot?` — the content of a file.
* `Eaf.Content.notices` — what is noticed while a file is read.
-/

namespace Eaf

open Xml (Node)

/-! ### The header -/

/-- The header of a file and its media descriptor. -/
structure Header where
  element : Node
  media : Node

namespace Header

/-- The header and the media descriptor of a file, or what the file lacks. -/
def ofRoot? (root : Node) : Except Fault Header :=
  if root.isElement "ANNOTATION_DOCUMENT" then
    match root.child? "HEADER" with
    | none => .error (.ofDefect .missingHeader)
    | some element =>
      match element.child? "MEDIA_DESCRIPTOR" with
      | none => .error (.ofDefect .missingMediaDescriptor)
      | some media => .ok { element, media }
  else
    .error (.ofDefect (.wrongRoot root.name))

/-- The unit of the times in a file. -/
def timeUnit (header : Header) : TimeUnit :=
  if header.element.attribute? "TIME_UNITS" = some "milliseconds" then .milliseconds else .seconds

/-- The name of the property that holds the counter of annotation ids. -/
def lastUsedProperty : String :=
  "lastUsedAnnotationId"

/-- The counter of annotation ids that a header records. Only the first property of the name
counts, and only if the text with which it begins is a numeral. -/
def lastUsed? (header : Header) : Option UInt64 :=
  let properties := header.element.childrenNamed "PROPERTY"
  ((properties.find? fun p => p.attribute? "NAME" = some lastUsedProperty).bind
    Node.leadingText?).bind fun text => Numeral.readSignedWord? (Text.trim text.toList)

/-- The value of an attribute that is there and not empty. -/
def filled? (node : Node) (name : String) : Option String :=
  (node.attribute? name).filter (· ≠ "")

/-- What a header says about the recording. -/
def mediaInfo (header : Header) : Media :=
  { url := filled? header.media "MEDIA_URL"
    mimeType := filled? header.media "MIME_TYPE"
    file := filled? header.element "MEDIA_FILE" }

end Header

/-! ### Time slots -/

/-- What one time slot element says. -/
inductive SlotEntry
  /-- The element has no id. -/
  | nameless
  /-- The element has no time. -/
  | unaligned (id : String)
  /-- The element has an id and a time. -/
  | aligned (slot : TimeSlot)
  /-- The time of the element is no finite number. -/
  | invalid (id value : String)
  deriving DecidableEq, Repr

namespace SlotEntry

/-- What a time slot element says, with its time in the given unit. -/
def ofElement (unit : TimeUnit) (node : Node) : SlotEntry :=
  match node.attribute? "TIME_SLOT_ID" with
  | none => nameless
  | some id =>
    match node.attribute? "TIME_VALUE" with
    | none => unaligned id
    | some value =>
      match unit.read? value with
      | none => invalid id value
      | some time => aligned { id, value := time }

/-- The time slot elements of a file, at any depth below the time orders of its root. -/
def elements (root : Node) : List Node :=
  (root.childrenNamed "TIME_ORDER").flatMap (·.descendantsNamed "TIME_SLOT")

/-- What the time slot elements of a file say. -/
def ofRoot (unit : TimeUnit) (root : Node) : List SlotEntry :=
  (elements root).map (ofElement unit)

/-- The time slots of a list of entries, or the first time that is no finite number. -/
def slots? : List SlotEntry → Except Fault (List TimeSlot)
  | [] => .ok []
  | nameless :: rest => slots? rest
  | unaligned _ :: rest => slots? rest
  | invalid id value :: _ => .error (.invalidTimeValue id value)
  | aligned slot :: rest => (slots? rest).map (slot :: ·)

/-- Whether an entry has an id and no time. -/
def isUnaligned : SlotEntry → Bool
  | unaligned _ => true
  | _ => false

/-- Whether an entry stops the reading of a file. -/
def isInvalid : SlotEntry → Bool
  | invalid _ _ => true
  | _ => false

/-- What is noticed about a list of entries, up to one that stops the reading. -/
def notices (entries : List SlotEntry) : List Notice :=
  ((entries.takeWhile (!·.isInvalid)).filter (· = nameless)).map fun _ => .slotWithoutId

end SlotEntry

/-! ### Tiers -/

/-- A text with spaces for its soft hyphens. -/
def replaceSoftHyphens (cs : List Char) : List Char :=
  cs.map fun c => if c = '\u00AD' then ' ' else c

namespace Note

/-- The value of an annotation element: all texts in it, without the blanks around them. -/
def valueOf (options : ReadOptions) (node : Node) : String :=
  let text := ((node.child? "ANNOTATION_VALUE").map Node.textContent).getD ""
  let trimmed := Text.trim text.toList
  String.ofList (if options.replaceSoftHyphens then replaceSoftHyphens trimmed else trimmed)

/-- Whether an element is an annotation of one of the two kinds. -/
def isElement (node : Node) : Bool :=
  node.isElement "ALIGNABLE_ANNOTATION" || node.isElement "REF_ANNOTATION"

/-- How the annotation of an element is anchored. A reference that is not given is empty. -/
def anchorOf (node : Node) : Anchor :=
  let ref (name : String) := (node.attribute? name).getD ""
  if node.isElement "ALIGNABLE_ANNOTATION" then
    .aligned (ref "TIME_SLOT_REF1") (ref "TIME_SLOT_REF2")
  else
    .refers (ref "ANNOTATION_REF")

/-- The annotation of an element, which must have an id. -/
def ofElement? (options : ReadOptions) (node : Node) : Except Fault Note :=
  match node.attribute? "ANNOTATION_ID" with
  | none => .error (.ofDefect (.noteWithoutId node.name))
  | some id => .ok { id, value := valueOf options node, anchor := anchorOf node }

/-- The annotation elements at any depth below a node. -/
def elements (node : Node) : List Node :=
  node.descendants.filter isElement

end Note

namespace Tier

/-- The tier of an element, which must have an id, as must all annotations in it. -/
def ofElement? (options : ReadOptions) (node : Node) : Except Fault Tier :=
  match node.attribute? "TIER_ID" with
  | none => .error (.ofDefect .tierWithoutId)
  | some id =>
    ((Note.elements node).mapM (Note.ofElement? options)).map fun notes =>
      { id
        linguisticType := (node.attribute? "LINGUISTIC_TYPE_REF").getD ""
        locale := node.attribute? "DEFAULT_LOCALE"
        parent := Header.filled? node "PARENT_REF"
        notes := notes }

end Tier

/-! ### The file -/

/-- The content of an annotation file. -/
structure Content where
  media : Media
  /-- The counter of annotation ids that the file records. -/
  lastUsed : Option UInt64
  /-- The time slots that have an id and a time. -/
  slots : List TimeSlot
  /-- The number of time slots that have an id and no time. -/
  unaligned : Nat
  tiers : List Tier
  deriving Repr

namespace Content

/-- The content of a file with a given root element, or why it has none. -/
def ofRoot? (options : ReadOptions) (root : Node) : Except Fault Content := do
  let header ← Header.ofRoot? root
  let entries := SlotEntry.ofRoot header.timeUnit root
  let slots ← SlotEntry.slots? entries
  let tiers ← (root.descendantsNamed "TIER").mapM (Tier.ofElement? options)
  return {
    media := header.mediaInfo
    lastUsed := header.lastUsed?
    slots
    unaligned := entries.countP (·.isUnaligned)
    tiers }

/-- What is noticed while a file is read, whether or not the reading succeeds. -/
def notices (root : Node) : List Notice :=
  match Header.ofRoot? root with
  | .ok header => SlotEntry.notices (SlotEntry.ofRoot header.timeUnit root)
  | .error _ => []

end Content

end Eaf

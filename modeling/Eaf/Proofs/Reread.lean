import Eaf.Proofs.Growth
import Eaf.Proofs.Run
import Eaf.Proofs.Saved

/-!
# What a written file says

A file that was written says what is written of its document: the media, the counter of annotation
ids, the valid slots and the tiers with the annotations that are written. Ids and references read
as attribute values do, and the values of annotations as texts do, without the blanks around them.
Times read as the nearest times that a file can say; steady ones are these themselves.

## Main definitions

* `Eaf.normalValue` — the value of an annotation as it is read from a text.
* `Eaf.Note.reread`, `Eaf.Tier.reread` — annotations and tiers after they were written and read.
* `Eaf.Document.saved` — what the file of a document with steady times says.
* `Eaf.Document.rounded` — what the file of any document says.

## Main results

* `Eaf.Document.ofRoot?_rootNode` — the content of the tree of a file.
* `Eaf.Document.exists_importText_toText` — a file is read, and says what is written.
-/

namespace Eaf

open Xml (Markup Node rereadValue rereadText rereadAttributes)

/-- The value of an annotation whose element holds a text: the text without the blanks around it
and, on demand, with spaces for its soft hyphens. -/
def normalValue (options : ReadOptions) (text : String) : String :=
  let trimmed := Text.trim text.toList
  String.ofList (if options.replaceSoftHyphens then replaceSoftHyphens trimmed else trimmed)

/-- An anchor after it was written and read. -/
def Anchor.reread : Anchor → Anchor
  | .aligned start stop => .aligned (rereadValue start) (rereadValue stop)
  | .refers target => .refers (rereadValue target)

/-- An annotation after it was written and read. -/
def Note.reread (reading : ReadOptions) (note : Note) : Note :=
  { id := rereadValue note.id
    value := normalValue reading (rereadText note.value)
    anchor := note.anchor.reread }

/-- A tier after it was written and read. -/
def Tier.reread (reading : ReadOptions) (writing : WriteOptions) (tier : Tier) : Tier :=
  { id := rereadValue tier.id
    linguisticType := rereadValue tier.linguisticType
    locale := tier.locale.map rereadValue
    parent := (tier.parent.map rereadValue).filter (· ≠ "")
    notes := (tier.written writing).map (Note.reread reading) }

/-- A time slot after it was written and read. -/
def TimeSlot.reread (slot : TimeSlot) : TimeSlot :=
  { slot with id := rereadValue slot.id }

/-- A time slot with whatever time after it was written and read. -/
def TimeSlot.rounded (slot : TimeSlot) : TimeSlot :=
  { id := rereadValue slot.id, value := rereadTime slot.value }

theorem TimeSlot.rounded_eq_reread {slot : TimeSlot} (h : SteadyTime slot.value) :
    slot.rounded = slot.reread := by
  rw [rounded, reread, h.rereadTime_eq]

/-- Media after they were written and read. -/
def Media.reread (media : Media) : Media :=
  { url := (media.url.map rereadValue).filter (· ≠ "")
    mimeType := (media.mimeType.map rereadValue).filter (· ≠ "")
    file := (media.file.map rereadValue).filter (· ≠ "") }

/-- What the file of a document with steady times says. -/
def Document.saved (document : Document) (reading : ReadOptions) (writing : WriteOptions) :
    Content :=
  { media := document.media.reread
    lastUsed := some document.counters.note
    slots := document.validSlots.map TimeSlot.reread
    unaligned := 0
    tiers := document.tiers.map (Tier.reread reading writing) }

/-- What the file of any document says. -/
def Document.rounded (document : Document) (reading : ReadOptions) (writing : WriteOptions) :
    Content :=
  { document.saved reading writing with slots := document.validSlots.map TimeSlot.rounded }

theorem Document.rounded_eq_saved {document : Document} (reading : ReadOptions)
    (writing : WriteOptions) (h : ∀ slot ∈ document.validSlots, SteadyTime slot.value) :
    document.rounded reading writing = document.saved reading writing := by
  have hslots : document.validSlots.map TimeSlot.rounded =
      document.validSlots.map TimeSlot.reread :=
    List.map_congr_left fun slot hslot => TimeSlot.rounded_eq_reread (h slot hslot)
  rw [rounded, hslots]
  rfl

variable {indent depth : Nat}

/-! ### Annotations -/

namespace Note

/-- The element in which an annotation is written. -/
def inner (note : Note) : Markup :=
  .enclosing note.elementName note.attributes [.labelled "ANNOTATION_VALUE" [] note.value]

theorem isElement_eq_isNamed :
    isElement = Node.isNamed fun name =>
      name == "ALIGNABLE_ANNOTATION" || name == "REF_ANNOTATION" := by
  funext node
  cases node <;> rfl

/-- The value of an annotation is read from the text in its element. -/
theorem valueOf_inner (options : ReadOptions) (note : Note) :
    valueOf options (note.inner.node indent depth) =
      normalValue options (rereadText note.value) := by
  rw [valueOf, inner, Markup.node, Xml.Markup.child?_node, List.find?_cons_of_pos (by rfl),
    Option.map_some, Option.map_some, Xml.Markup.textContent_labelled]
  rfl

theorem anchorOf_inner (note : Note) :
    anchorOf (note.inner.node indent depth) = note.anchor.reread := by
  unfold anchorOf
  rw [inner, Markup.node]
  cases hanchor : note.anchor <;>
    simp [Node.isElement, elementName, hanchor, attributes, Xml.attribute?_rereadAttributes,
      Anchor.reread, List.lookup_cons]

/-- An annotation is read from its element. -/
theorem ofElement?_inner (options : ReadOptions) (note : Note) :
    ofElement? options (note.inner.node indent depth) = .ok (note.reread options) := by
  have hid : (note.inner.node indent depth).attribute? "ANNOTATION_ID" =
      some (rereadValue note.id) := by
    rw [inner, Markup.node, Xml.attribute?_rereadAttributes]
    rfl
  rw [ofElement?, hid, valueOf_inner, anchorOf_inner]
  rfl

/-- In the element around an annotation there is the element of the annotation. -/
theorem select_markup (note : Note) (q : String → Bool) :
    note.markup.select q indent depth =
      (if q "ANNOTATION" then [note.markup.node indent depth] else []) ++
        ((if q note.elementName then [note.inner.node indent (depth + 1)] else []) ++
          if q "ANNOTATION_VALUE" then
            [(Markup.labelled "ANNOTATION_VALUE" [] note.value).node indent (depth + 2)]
          else []) := by
  simp [markup, inner]

end Note

/-! ### Tiers -/

namespace Tier

/-- The annotations of a tier are read from the elements in its element. -/
theorem elements_markup (writing : WriteOptions) (tier : Tier) :
    Note.elements ((tier.markup writing).node indent depth) =
      (tier.written writing).map fun note => note.inner.node indent (depth + 2) := by
  have hnote (note : Note) : note.markup.select (fun name =>
      name == "ALIGNABLE_ANNOTATION" || name == "REF_ANNOTATION") indent (depth + 1) =
        [note.inner.node indent (depth + 2)] := by
    rw [Note.select_markup]
    cases hanchor : note.anchor <;> simp [Note.elementName, hanchor]
  rw [Note.elements, Note.isElement_eq_isNamed, ← Markup.select, markup,
    Xml.Markup.select_enclosing, List.flatMap_map]
  simp only [hnote, List.map_eq_flatMap]
  rfl

/-- A tier is read from its element. -/
theorem ofElement?_markup (reading : ReadOptions) (writing : WriteOptions) (tier : Tier) :
    ofElement? reading ((tier.markup writing).node indent depth) =
      .ok (tier.reread reading writing) := by
  have hnotes : (Note.elements ((tier.markup writing).node indent depth)).mapM
      (Note.ofElement? reading) = .ok ((tier.written writing).map (Note.reread reading)) := by
    rw [elements_markup, List.mapM_map]
    exact mapM_eq_ok fun note _ => Note.ofElement?_inner reading note
  have hattribute (key : String) : ((tier.markup writing).node indent depth).attribute? key =
      (tier.attributes.lookup key).map rereadValue := by
    rw [markup, Markup.node, Xml.attribute?_rereadAttributes]
  simp only [ofElement?, hattribute, Header.filled?, hnotes]
  cases hlocale : tier.locale <;> cases hparent : tier.parent <;>
    simp [attributes, optional, hlocale, hparent, List.lookup_cons, Except.map, reread]

/-- The element of a tier holds no other. -/
theorem select_markup (writing : WriteOptions) (tier : Tier) :
    (tier.markup writing).select (· == "TIER") indent depth =
      [(tier.markup writing).node indent depth] := by
  have hnote (note : Note) : note.markup.select (· == "TIER") indent (depth + 1) = [] := by
    rw [Note.select_markup]
    cases hanchor : note.anchor <;> simp [Note.elementName, hanchor]
  rw [markup, Xml.Markup.select_enclosing, List.flatMap_map]
  simp [hnote]

end Tier

namespace Document

variable (document : Document) (reading : ReadOptions) (writing : WriteOptions)

/-! ### The header -/

/-- The node of the media descriptor. -/
def descriptorNode (indent : Nat) : Node :=
  (Markup.bare "MEDIA_DESCRIPTOR" document.descriptorAttributes).node indent 2

/-- The header of a file that was written. -/
def readHeader (indent : Nat) : Header :=
  { element := document.header.node indent 1, media := document.descriptorNode indent }

theorem attribute?_header (key : String) :
    (document.header.node indent 1).attribute? key =
      ([("MEDIA_FILE", document.media.file.getD ""), ("TIME_UNITS", "milliseconds")].lookup
        key).map rereadValue := by
  rw [header, Markup.node, Xml.attribute?_rereadAttributes]

theorem attribute?_descriptor (key : String) :
    (document.descriptorNode indent).attribute? key =
      (document.descriptorAttributes.lookup key).map rereadValue := by
  rw [descriptorNode, Markup.node, Xml.attribute?_rereadAttributes]

theorem child?_header :
    (document.header.node indent 1).child? "MEDIA_DESCRIPTOR" =
      some (document.descriptorNode indent) := by
  rw [header, Markup.node, Xml.Markup.child?_node, List.find?_cons_of_pos (by rfl)]
  rfl

/-- Times are written in milliseconds. -/
theorem timeUnit_readHeader : (document.readHeader indent).timeUnit = .milliseconds := by
  have hunit : rereadValue "milliseconds" = "milliseconds" := by decide
  have hattribute : (document.header.node indent 1).attribute? "TIME_UNITS" =
      some "milliseconds" := by
    rw [attribute?_header]
    simp [List.lookup_cons, hunit]
  rw [Header.timeUnit, readHeader, if_pos hattribute]

theorem mediaInfo_readHeader : (document.readHeader indent).mediaInfo = document.media.reread := by
  have hempty : rereadValue "" = "" := rfl
  have hfilled (value : Option String) : (some (rereadValue (value.getD ""))).filter (· ≠ "") =
      (value.map rereadValue).filter (· ≠ "") := by
    cases value with
    | none => rw [Option.getD_none, hempty]; rfl
    | some value => rfl
  simp only [Header.mediaInfo, Header.filled?, readHeader, attribute?_header, attribute?_descriptor,
    Media.reread, Media.mk.injEq, ← hfilled]
  cases hmime : document.media.mimeType <;>
    simp [descriptorAttributes, Tier.optional, List.lookup_cons, hmime]

/-- The counter of annotation ids is read as it was written. -/
theorem lastUsed?_readHeader :
    (document.readHeader indent).lastUsed? = some document.counters.note := by
  have hname (name value : String) : ((property name value).node indent 2).attribute? "NAME" =
      some (rereadValue name) := by
    rw [property, Markup.node, Xml.attribute?_rereadAttributes]
    rfl
  have hurn : rereadValue "URN" ≠ Header.lastUsedProperty := by decide
  have hcounter : rereadValue Header.lastUsedProperty = Header.lastUsedProperty := by decide
  have hproperties : (document.header.node indent 1).childrenNamed "PROPERTY" =
      [ (property "URN" eafUrn).node indent 2,
        (property Header.lastUsedProperty document.counterText).node indent 2 ] := by
    rw [header, Markup.node, Xml.Markup.childrenNamed_node]
    rfl
  have hdigits : ∀ c ∈ document.counterText.toList, c.isDigit = true := fun c hc =>
    Numeral.isDigit_of_mem_write (by simpa [counterText] using hc)
  have htext : rereadText document.counterText = document.counterText := by
    refine Xml.rereadText_eq_self fun c hc => ?_
    rintro rfl
    exact absurd (hdigits _ hc) (by decide)
  have hne : document.counterText ≠ "" := by
    simpa [counterText] using Numeral.write_ne_nil document.counters.note.toNat
  have hfind : [ (property "URN" eafUrn).node indent 2,
      (property Header.lastUsedProperty document.counterText).node indent 2 ].find?
        (fun p => p.attribute? "NAME" = some Header.lastUsedProperty) =
      some ((property Header.lastUsedProperty document.counterText).node indent 2) := by
    simp [hname, hurn, hcounter]
  have hleading : ((property Header.lastUsedProperty document.counterText).node indent
      2).leadingText? = some document.counterText := by
    rw [property, Xml.Markup.leadingText?_labelled _ _ hne, htext]
  rw [Header.lastUsed?, readHeader]
  dsimp only
  rw [hproperties, hfind, Option.bind_some, hleading, Option.bind_some, counterText,
    String.toList_ofList, Numeral.trim_write, Numeral.readSignedWord?_write]

/-! ### Time slots -/

variable {document} {reading writing}

/-- A numeral is read back as an attribute value. -/
theorem unbroken_writeInt (n : Int) : Xml.Unbroken (String.ofList (Numeral.writeInt n)) := by
  intro c hc
  rw [String.toList_ofList] at hc
  cases n with
  | ofNat n => exact Xml.unbroken_of_isDigit (Numeral.isDigit_of_mem_write hc)
  | negSucc n =>
    rcases List.mem_cons.1 hc with rfl | hc
    · decide
    · exact Xml.unbroken_of_isDigit (Numeral.isDigit_of_mem_write hc)

/-- A time slot is read from its element. -/
theorem ofElement_slot (slot : TimeSlot) :
    SlotEntry.ofElement .milliseconds
        ((Markup.bare "TIME_SLOT" (slotAttributes slot)).node indent depth) =
      .aligned slot.rounded := by
  have hattribute (key : String) :
      ((Markup.bare "TIME_SLOT" (slotAttributes slot)).node indent depth).attribute? key =
        ((slotAttributes slot).lookup key).map rereadValue := by
    rw [Markup.node, Xml.attribute?_rereadAttributes]
  have hid : ((slotAttributes slot).lookup "TIME_SLOT_ID").map rereadValue =
      some (rereadValue slot.id) := rfl
  have htime : ((slotAttributes slot).lookup "TIME_VALUE").map rereadValue =
      some (String.ofList (Numeral.writeInt slot.value.toInt)) :=
    congrArg some (Xml.rereadValue_eq_self (unbroken_writeInt slot.value.toInt))
  rw [SlotEntry.ofElement, hattribute, hid, hattribute, htime]
  dsimp only
  rw [TimeUnit.read?_writeInt]
  rfl

/-- The entries of slots that all have times are these slots. -/
theorem slots?_aligned (slots : List TimeSlot) :
    SlotEntry.slots? (slots.map .aligned) = .ok slots := by
  induction slots with
  | nil => rfl
  | cons slot slots ih => simp [SlotEntry.slots?, ih, Except.map]

theorem countP_isUnaligned (slots : List TimeSlot) :
    (slots.map SlotEntry.aligned).countP (·.isUnaligned) = 0 := by
  simp [List.countP_eq_zero, SlotEntry.isUnaligned]

/-! ### The file -/

variable {name : String} {attributes : List Xml.Attribute}

/-- The root element of a file that was written, with whatever attributes. -/
def rootNode (document : Document) (writing : WriteOptions) (indent : Nat)
    (attributes : List Xml.Attribute) : Node :=
  .element "ANNOTATION_DOCUMENT" attributes
    (Markup.nodesOf indent 1 (document.body writing) ++ Xml.gapNodes indent 0)

/-- The time slot elements of a file are those of the valid slots. -/
theorem elements_rootNode :
    SlotEntry.elements (document.rootNode writing indent attributes) =
      document.validSlots.map fun slot =>
        (Markup.bare "TIME_SLOT" (slotAttributes slot)).node indent 2 := by
  have horders :
      (document.body writing).filter (·.name == "TIME_ORDER") = [document.timeOrder] := by
    have htiers :
        (document.tiers.map (Tier.markup writing)).filter (·.name == "TIME_ORDER") = [] := by
      simp [Tier.markup, Markup.name]
    have htypes : (document.types writing).filter (·.name == "TIME_ORDER") = [] := by
      unfold types
      split <;> simp [Markup.name]
    rw [body, List.filter_cons_of_neg (by simp [header, Markup.name]),
      List.filter_cons_of_pos (by rfl), List.filter_append, htiers, htypes]
    rfl
  rw [SlotEntry.elements, rootNode, Xml.Markup.childrenNamed_node, horders]
  simp only [List.map_cons, List.map_nil, List.flatMap_cons, List.flatMap_nil, List.append_nil]
  rw [timeOrder, Markup.node, Xml.Markup.descendantsNamed_element _ _ _ _ (by decide),
    List.flatMap_map, List.map_eq_flatMap]
  simp

/-- The tier elements of a file are those of the tiers. -/
theorem tiers_rootNode :
    (document.rootNode writing indent attributes).descendantsNamed "TIER" =
      document.tiers.map fun tier => (tier.markup writing).node indent 1 := by
  have hheader : document.header.select (· == "TIER") indent 1 = [] := by
    simp [header, property]
  have horder : document.timeOrder.select (· == "TIER") indent 1 = [] := by
    simp [timeOrder]
  have htypes : (document.types writing).flatMap (Markup.select (· == "TIER") indent 1) = [] := by
    unfold types
    split <;> simp
  rw [rootNode, Xml.Markup.descendantsNamed_element _ _ _ _ (by decide), body, List.flatMap_cons,
    List.flatMap_cons, List.flatMap_append, hheader, horder, htypes, List.flatMap_map]
  simp [Tier.select_markup, List.map_eq_flatMap]

/-- **A file says what is written of its document.** -/
theorem ofRoot?_rootNode :
    Content.ofRoot? reading (document.rootNode writing indent attributes) =
      .ok (document.rounded reading writing) := by
  have hheader : Header.ofRoot? (document.rootNode writing indent attributes) =
      .ok (document.readHeader indent) := by
    have hchild : (document.rootNode writing indent attributes).child? "HEADER" =
        some (document.header.node indent 1) := by
      rw [rootNode, Xml.Markup.child?_node, body, List.find?_cons_of_pos (by rfl), Option.map_some]
    have hname : (document.rootNode writing indent attributes).isElement "ANNOTATION_DOCUMENT" =
        true := beq_self_eq_true _
    simp only [Header.ofRoot?, hname, if_true, hchild, child?_header]
    rfl
  have hentries : SlotEntry.ofRoot .milliseconds (document.rootNode writing indent attributes) =
      (document.validSlots.map TimeSlot.rounded).map .aligned := by
    rw [SlotEntry.ofRoot, elements_rootNode, List.map_map, List.map_map]
    refine List.map_congr_left fun slot _ => ?_
    rw [Function.comp_apply, Function.comp_apply, ofElement_slot]
  have htiers : ((document.rootNode writing indent attributes).descendantsNamed "TIER").mapM
      (Tier.ofElement? reading) = .ok (document.tiers.map (Tier.reread reading writing)) := by
    rw [tiers_rootNode, List.mapM_map]
    exact mapM_eq_ok fun tier _ => Tier.ofElement?_markup reading writing tier
  generalize document.rootNode writing indent attributes = root at hheader hentries htiers
  simp only [Content.ofRoot?, hheader, bind, Except.bind, pure, Except.pure, timeUnit_readHeader,
    hentries, slots?_aligned, htiers, mediaInfo_readHeader, lastUsed?_readHeader,
    countP_isUnaligned, rounded, saved]

/-! ### Reading a file -/

/-- The root element of a file can be read: its attributes declare the one namespace they use. -/
theorem exists_resolve?_rootAttributes (writing : WriteOptions) (now : String) :
    ∃ resolved scope, Xml.resolve? [] (Xml.QName.ofName "ANNOTATION_DOCUMENT")
      ((rootAttributes writing now).map Xml.RawAttribute.ofPair) = some (resolved, scope) := by
  simp only [Xml.resolve?, Xml.Declared.ofAttributes?, rootAttributes, List.map_cons, List.map_nil,
    List.foldlM_cons, List.foldlM_nil, Xml.RawAttribute.ofPair, Xml.decodeValue?_escape,
    Option.bind_some, Option.bind_eq_bind]
  exact ⟨_, _, rfl⟩

theorem attributesFit_rootAttributes {now : String} (hauthor : Xml.Allowed writing.author)
    (hdate : Xml.Allowed (writing.date.getD now)) :
    Xml.AttributesFit (rootAttributes writing now) := by
  simp only [Xml.AttributesFit, rootAttributes, List.forall_mem_cons]
  refine ⟨⟨by decide, hauthor⟩, ⟨by decide, hdate⟩, ?_⟩
  decide

/-- The tree of a file that is legible. -/
theorem exists_read?_toText {now : String} (hauthor : Xml.Allowed writing.author)
    (hdate : Xml.Allowed (writing.date.getD now))
    (hbody : ∀ piece ∈ document.bodyPieces writing, piece.Legible) :
    ∃ attributes, Xml.read? (document.toText writing now) =
      some (document.rootNode writing writing.indent.toNat attributes) := by
  obtain ⟨resolved, scope, hresolve⟩ := exists_resolve?_rootAttributes writing now
  have hname : Xml.PlainName "ANNOTATION_DOCUMENT" := by decide
  refine ⟨resolved, ?_⟩
  rw [toText, pieces_eq, Xml.read?_write hname (attributesFit_rootAttributes hauthor hdate) hresolve
    (fitsAll_body hbody), rootNode]

/-- **A file that is legible is read into any document**, which what it says joins. -/
theorem exists_importText_toText (other : Document) (reading : ReadOptions) {now : String}
    (hauthor : Xml.Allowed writing.author) (hdate : Xml.Allowed (writing.date.getD now))
    (hbody : ∀ piece ∈ document.bodyPieces writing, piece.Legible) :
    ∃ imported, (other.importText reading (document.toText writing now)).result = .ok imported ∧
      imported.document =
        (other.absorb reading.resyncCounters (document.rounded reading writing)).document ∧
      imported.tally =
        (other.absorb reading.resyncCounters (document.rounded reading writing)).tally := by
  obtain ⟨attributes, hread⟩ := exists_read?_toText hauthor hdate hbody
  rw [importText_of_read? hread]
  exact importTree_of_content ofRoot?_rootNode other

end Document

end Eaf

import Eaf.Document.Written
import Eaf.Proofs.Times
import Eaf.Proofs.Xml.Lookup

/-!
# The elements of a written file

The file of a document is a tree of elements, and its pieces are those of the tree. If the texts
and the attribute values in the pieces may occur in a document at all, the tree can be read back.

## Main definitions

* `Eaf.Document.body` — the elements of a file in its root element.
* `Eaf.Xml.Piece.Legible` — pieces whose texts may occur in a document.

## Main results

* `Eaf.Document.pieces_eq` — the pieces of a file are those of its elements.
* `Eaf.Document.fitsAll_body` — elements of legible pieces can be written and read.
-/

namespace Eaf

open Xml (Markup Node Piece)

/-! ### The elements of a file -/

/-- The element around an annotation. -/
def Note.markup (note : Note) : Markup :=
  .enclosing "ANNOTATION" []
    [.enclosing note.elementName note.attributes [.labelled "ANNOTATION_VALUE" [] note.value]]

/-- The element of a tier. -/
def Tier.markup (options : WriteOptions) (tier : Tier) : Markup :=
  .enclosing "TIER" tier.attributes ((tier.written options).map Note.markup)

namespace Document

variable (document : Document) (options : WriteOptions)

/-- The element of a property of the header. -/
def property (name value : String) : Markup :=
  .labelled "PROPERTY" [("NAME", name)] value

/-- The attributes of the media descriptor. -/
def descriptorAttributes : List (String × String) :=
  ("MEDIA_URL", document.media.url.getD "") :: Tier.optional "MIME_TYPE" document.media.mimeType

/-- The counter of annotation ids as it is written. -/
def counterText : String :=
  String.ofList (Numeral.write document.counters.note.toNat)

/-- The header. -/
def header : Markup :=
  .enclosing "HEADER"
    [("MEDIA_FILE", document.media.file.getD ""), ("TIME_UNITS", "milliseconds")]
    [ .bare "MEDIA_DESCRIPTOR" document.descriptorAttributes,
      property "URN" eafUrn,
      property Header.lastUsedProperty document.counterText ]

/-- The attributes of the element of a time slot. -/
def slotAttributes (slot : TimeSlot) : List (String × String) :=
  [ ("TIME_SLOT_ID", slot.id),
    ("TIME_VALUE", String.ofList (Numeral.writeInt slot.value.toInt)) ]

/-- The time order. -/
def timeOrder : Markup :=
  .enclosing "TIME_ORDER" []
    (document.validSlots.map fun slot => .bare "TIME_SLOT" (slotAttributes slot))

/-- The attributes of the element that declares a linguistic type. -/
def typeAttributes (type : String) : List (String × String) :=
  [ ("LINGUISTIC_TYPE_ID", type),
    ("TIME_ALIGNABLE", if document.isTypeAligned options type then "true" else "false"),
    ("GRAPHIC_REFERENCES", "false") ]

/-- The elements that declare the linguistic types. -/
def types : List Markup :=
  if options.declareTypes then
    document.declaredTypes.map fun type =>
      .bare "LINGUISTIC_TYPE" (document.typeAttributes options type)
  else []

/-- The elements of a file in its root element. -/
def body : List Markup :=
  document.header :: document.timeOrder ::
    (document.tiers.map (Tier.markup options) ++ document.types options)

/-- The pieces of a file between the tags of its root element. -/
def bodyPieces : List Piece :=
  document.headerPieces ++ document.timeOrderPieces ++ document.tiers.flatMap (·.pieces options) ++
    document.typePieces options

end Document

/-! ### The pieces of the elements -/

theorem Xml.Markup.piecesOf_append (elements more : List Markup) :
    Markup.piecesOf (elements ++ more) = Markup.piecesOf elements ++ Markup.piecesOf more := by
  induction elements with
  | nil => rfl
  | cons markup others ih => simp [Markup.piecesOf, ih]

theorem Xml.Markup.piecesOf_map {α : Type} (f : α → Markup) (xs : List α) :
    Markup.piecesOf (xs.map f) = xs.flatMap fun x => (f x).pieces := by
  induction xs with
  | nil => rfl
  | cons x xs ih => simp [Markup.piecesOf, ih]

theorem Note.pieces_markup (note : Note) : note.markup.pieces = note.pieces :=
  rfl

theorem Tier.pieces_markup (options : WriteOptions) (tier : Tier) :
    (tier.markup options).pieces = tier.pieces options := by
  rw [markup, Markup.pieces, Markup.piecesOf_map, Tier.pieces]
  simp only [Note.pieces_markup]

namespace Document

variable (document : Document) (options : WriteOptions)

theorem pieces_timeOrder : document.timeOrder.pieces = document.timeOrderPieces := by
  rw [timeOrder, Markup.pieces, Markup.piecesOf_map, timeOrderPieces, List.map_eq_flatMap]
  rfl

theorem piecesOf_types :
    Markup.piecesOf (document.types options) = document.typePieces options := by
  unfold types typePieces
  split
  · rw [Markup.piecesOf_map, List.map_eq_flatMap]
    rfl
  · rfl

theorem piecesOf_body : Markup.piecesOf (document.body options) = document.bodyPieces options := by
  have hheader : document.header.pieces = document.headerPieces := rfl
  rw [body, Markup.piecesOf, Markup.piecesOf, Markup.piecesOf_append, Markup.piecesOf_map,
    pieces_timeOrder, piecesOf_types, hheader, bodyPieces]
  simp only [Tier.pieces_markup, List.append_assoc]

/-- The pieces of a file are those of its elements, behind the declaration. -/
theorem pieces_eq (now : String) :
    document.pieces options now =
      .declaration :: Markup.pieces (.enclosing "ANNOTATION_DOCUMENT" (rootAttributes options now)
        (document.body options)) := by
  rw [Markup.pieces, piecesOf_body, pieces, bodyPieces]
  simp only [List.cons_append, List.nil_append, List.append_assoc]

end Document

/-! ### The pieces of an object -/

namespace Document

variable {document : Document} {options : WriteOptions} {piece : Piece}

theorem mem_bodyPieces_of_header (h : piece ∈ document.headerPieces) :
    piece ∈ document.bodyPieces options := by
  simp [bodyPieces, h]

theorem mem_bodyPieces_of_slot {slot : TimeSlot} (h : slot ∈ document.validSlots) :
    slotPiece slot ∈ document.bodyPieces options := by
  have hslot : slotPiece slot ∈ document.timeOrderPieces :=
    List.mem_cons_of_mem _ (List.mem_append_left _ (List.mem_map_of_mem h))
  simp [bodyPieces, hslot]

theorem mem_bodyPieces_of_tier {tier : Tier} (h : tier ∈ document.tiers)
    (hpiece : piece ∈ tier.pieces options) : piece ∈ document.bodyPieces options := by
  have htier : piece ∈ document.tiers.flatMap (·.pieces options) :=
    List.mem_flatMap.2 ⟨tier, h, hpiece⟩
  simp [bodyPieces, htier]

theorem mem_bodyPieces_of_note {tier : Tier} {note : Note} (htier : tier ∈ document.tiers)
    (hnote : note ∈ tier.written options) (hpiece : piece ∈ note.pieces) :
    piece ∈ document.bodyPieces options := by
  refine mem_bodyPieces_of_tier htier (List.mem_cons_of_mem _ (List.mem_append_left _ ?_))
  exact List.mem_flatMap.2 ⟨note, hnote, hpiece⟩

/-- The texts of a file are the two properties of the header and the values of annotations. -/
theorem text_mem_bodyPieces {content : String} (h : .text content ∈ document.bodyPieces options) :
    content = eafUrn ∨ content = document.counterText ∨
      ∃ tier ∈ document.tiers, ∃ note ∈ tier.written options, content = note.value := by
  simp only [bodyPieces, List.mem_append] at h
  obtain ((hheader | htimes) | htiers) | htypes := h
  · simp only [headerPieces, propertyPieces, List.cons_append, List.nil_append, List.mem_cons,
      Piece.text.injEq, reduceCtorEq, false_or, or_false, List.not_mem_nil] at hheader
    exact hheader.imp_right Or.inl
  · simp [timeOrderPieces, slotPiece] at htimes
  · obtain ⟨tier, htier, hpiece⟩ := List.mem_flatMap.1 htiers
    simp only [Tier.pieces, List.mem_cons, List.mem_append, List.mem_flatMap, reduceCtorEq,
      false_or, or_false, List.not_mem_nil] at hpiece
    obtain ⟨note, hnote, hpiece⟩ := hpiece
    refine Or.inr (Or.inr ⟨tier, htier, note, hnote, ?_⟩)
    simpa [Note.pieces] using hpiece
  · unfold typePieces at htypes
    split at htypes <;> simp [typePiece] at htypes

end Document

/-! ### Elements that can be written and read -/

namespace Xml

/-- The text and the attribute values of a piece may occur in a document. -/
def Piece.Legible (piece : Piece) : Prop :=
  (∀ pair ∈ piece.attributes, Allowed pair.2) ∧ ∀ content, piece = .text content → Allowed content

/-- A name of an element and names of attributes that need no qualifiers and can be told apart. -/
def TagShape (name : String) (keys : List String) : Prop :=
  PlainName name ∧ (∀ key ∈ keys, PlainName key ∧ key ≠ "xmlns") ∧ keys.Nodup

instance (name : String) (keys : List String) : Decidable (TagShape name keys) :=
  inferInstanceAs (Decidable (_ ∧ _ ∧ _))

/-- A tag of a given shape fits, of whose attributes some may be left out. -/
theorem TagShape.fits {name : String} {keys : List String} {attributes : List (String × String)}
    (h : TagShape name keys) (hkeys : (attributes.map Prod.fst).Sublist keys)
    (hvalues : ∀ pair ∈ attributes, Allowed pair.2) : TagFits name attributes where
  name := h.1
  names := fun _ hpair => h.2.1 _ (hkeys.subset (List.mem_map_of_mem hpair))
  distinct := hkeys.nodup h.2.2
  values := hvalues

end Xml

theorem Note.fits_markup {note : Note} (h : ∀ piece ∈ note.pieces, piece.Legible) :
    note.markup.Fits := by
  have hvalues : ∀ pair ∈ note.attributes, Xml.Allowed pair.2 :=
    (h (.openTag note.elementName note.attributes) (by simp [pieces])).1
  have hcontent : Xml.Allowed note.value := (h (.text note.value) (by simp [pieces])).2 _ rfl
  have htag : Xml.TagFits note.elementName note.attributes := by
    cases hanchor : note.anchor with
    | aligned start stop =>
      have hshape : Xml.TagShape "ALIGNABLE_ANNOTATION"
          ["ANNOTATION_ID", "TIME_SLOT_REF1", "TIME_SLOT_REF2"] := by decide
      rw [elementName, hanchor]
      exact hshape.fits (by simp [attributes, hanchor]) hvalues
    | refers target =>
      have hshape : Xml.TagShape "REF_ANNOTATION" ["ANNOTATION_ID", "ANNOTATION_REF"] := by decide
      rw [elementName, hanchor]
      exact hshape.fits (by simp [attributes, hanchor]) hvalues
  have houter : Xml.TagShape "ANNOTATION" [] := by decide
  have hvalue : Xml.TagShape "ANNOTATION_VALUE" [] := by decide
  exact ⟨houter.fits (.refl _) (by simp),
    ⟨htag, ⟨hvalue.fits (.refl _) (by simp), hcontent⟩, trivial⟩, trivial⟩

theorem Tier.fits_markup {options : WriteOptions} {tier : Tier}
    (h : ∀ piece ∈ tier.pieces options, piece.Legible) : (tier.markup options).Fits := by
  have hshape : Xml.TagShape "TIER"
      ["TIER_ID", "LINGUISTIC_TYPE_REF", "DEFAULT_LOCALE", "PARENT_REF"] := by decide
  have hkeys : (tier.attributes.map Prod.fst).Sublist
      ["TIER_ID", "LINGUISTIC_TYPE_REF", "DEFAULT_LOCALE", "PARENT_REF"] := by
    cases hlocale : tier.locale <;> cases hparent : tier.parent <;>
      simp [attributes, optional, hlocale, hparent]
  refine ⟨hshape.fits hkeys (h (.openTag "TIER" tier.attributes) (by simp [pieces])).1, ?_⟩
  refine Xml.Markup.fitsAll_iff.2 fun markup hmarkup => ?_
  obtain ⟨note, hnote, rfl⟩ := List.mem_map.1 hmarkup
  refine Note.fits_markup fun piece hpiece => h piece ?_
  rw [pieces]
  refine List.mem_cons_of_mem _ (List.mem_append_left _ ?_)
  exact List.mem_flatMap.2 ⟨note, hnote, hpiece⟩

namespace Document

variable {document : Document} {options : WriteOptions}

theorem fits_header (h : ∀ piece ∈ document.headerPieces, piece.Legible) :
    document.header.Fits := by
  have hshape : Xml.TagShape "HEADER" ["MEDIA_FILE", "TIME_UNITS"] := by decide
  have hdescriptor : Xml.TagShape "MEDIA_DESCRIPTOR" ["MEDIA_URL", "MIME_TYPE"] := by decide
  have hproperty : Xml.TagShape "PROPERTY" ["NAME"] := by decide
  have hkeys : (document.descriptorAttributes.map Prod.fst).Sublist ["MEDIA_URL", "MIME_TYPE"] := by
    cases hmime : document.media.mimeType <;> simp [descriptorAttributes, Tier.optional, hmime]
  have hmember : ∀ piece ∈ document.header.pieces, piece.Legible := h
  simp only [header, property, Markup.pieces, Markup.piecesOf, List.cons_append, List.nil_append,
    List.forall_mem_cons] at hmember
  obtain ⟨houter, hbare, hurn, hurnText, -, hcounter, hcounterText, -⟩ := hmember
  exact ⟨hshape.fits (.refl _) houter.1, hdescriptor.fits hkeys hbare.1,
    ⟨hproperty.fits (.refl _) hurn.1, hurnText.2 _ rfl⟩,
    ⟨hproperty.fits (.refl _) hcounter.1, hcounterText.2 _ rfl⟩, trivial⟩

theorem fits_timeOrder (h : ∀ piece ∈ document.timeOrderPieces, piece.Legible) :
    document.timeOrder.Fits := by
  have hshape : Xml.TagShape "TIME_ORDER" [] := by decide
  have hslot : Xml.TagShape "TIME_SLOT" ["TIME_SLOT_ID", "TIME_VALUE"] := by decide
  refine ⟨hshape.fits (.refl _) (by simp), Xml.Markup.fitsAll_iff.2 fun markup hmarkup => ?_⟩
  obtain ⟨slot, hmem, rfl⟩ := List.mem_map.1 hmarkup
  refine hslot.fits (.refl _) (h (slotPiece slot) ?_).1
  exact List.mem_cons_of_mem _ (List.mem_append_left _ (List.mem_map_of_mem hmem))

theorem fitsAll_types (h : ∀ piece ∈ document.typePieces options, piece.Legible) :
    Markup.FitsAll (document.types options) := by
  have hshape : Xml.TagShape "LINGUISTIC_TYPE"
      ["LINGUISTIC_TYPE_ID", "TIME_ALIGNABLE", "GRAPHIC_REFERENCES"] := by decide
  by_cases hdeclare : options.declareTypes = true
  · rw [typePieces, if_pos hdeclare] at h
    rw [types, if_pos hdeclare]
    refine Xml.Markup.fitsAll_iff.2 fun markup hmarkup => ?_
    obtain ⟨type, hmem, rfl⟩ := List.mem_map.1 hmarkup
    exact hshape.fits (.refl _) (h _ (List.mem_map_of_mem hmem)).1
  · rw [types, if_neg hdeclare]
    trivial

/-- The elements of a file whose pieces are legible can be written and read. -/
theorem fitsAll_body (h : ∀ piece ∈ document.bodyPieces options, piece.Legible) :
    Markup.FitsAll (document.body options) := by
  simp only [bodyPieces, List.forall_mem_append] at h
  obtain ⟨⟨⟨hheader, htimes⟩, htiers⟩, htypes⟩ := h
  refine ⟨fits_header hheader, fits_timeOrder htimes, ?_⟩
  refine Xml.Markup.fitsAll_iff.2 (List.forall_mem_append.2 ⟨fun markup hmarkup => ?_, ?_⟩)
  · obtain ⟨tier, htier, rfl⟩ := List.mem_map.1 hmarkup
    exact Tier.fits_markup fun piece hpiece =>
      htiers piece (List.mem_flatMap.2 ⟨tier, htier, hpiece⟩)
  · exact Xml.Markup.fitsAll_iff.1 (fitsAll_types htypes)

end Document

end Eaf

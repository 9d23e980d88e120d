import Eaf.Proofs.Elements
import Eaf.Proofs.Reload
import Eaf.Proofs.Value
import Eaf.Proofs.Xml.Legible

/-!
# The texts of a document

The ids, references and media fields of a document may all be texts of one kind, and the values of
its annotations of another. What a file says is of characters that may occur in a document, and its
times are steady. The attribute values of a file that is written are texts of its document, beside
numerals and fixed texts.

## Main definitions

* `Eaf.Document.Spells`, `Eaf.Content.Spells` — documents and content whose texts are of given
  kinds.

## Main results

* `Eaf.Content.spells_of_ofRoot?` — the texts that a file says.
* `Eaf.Document.attributes_bodyPieces` — the attribute values of a file.
-/

namespace Eaf

open Xml (Allowed Unbroken Node)

/-! ### Texts of given kinds -/

section Spells

variable (A V : String → Prop)

/-- The ids and references of an annotation are of one kind, its value of another. -/
structure Note.Spells (note : Note) : Prop where
  attributes : ∀ pair ∈ note.attributes, A pair.2
  value : V note.value

/-- The texts of a tier and its annotations are of given kinds, and its parent is not empty. -/
structure Tier.Spells (tier : Tier) : Prop where
  attributes : ∀ pair ∈ tier.attributes, A pair.2
  parent : tier.parent ≠ some ""
  notes : ∀ note ∈ tier.notes, note.Spells A V

/-- The fields of media are of a given kind and not empty. -/
structure Media.Spells (media : Media) : Prop where
  url : ∀ s ∈ media.url, A s ∧ s ≠ ""
  mimeType : ∀ s ∈ media.mimeType, A s ∧ s ≠ ""
  file : ∀ s ∈ media.file, A s ∧ s ≠ ""

/-- The texts of content are of given kinds, and its times are steady. -/
structure Content.Spells (content : Content) : Prop where
  media : content.media.Spells A
  slots : ∀ slot ∈ content.slots, A slot.id ∧ SteadyTime slot.value
  tiers : ∀ tier ∈ content.tiers, tier.Spells A V

/-- The texts of a document are of given kinds, and its times are steady. -/
structure Document.Spells (document : Document) : Prop where
  media : document.media.Spells A
  slots : ∀ slot ∈ document.timeline.toList, A slot.id ∧ SteadyTime slot.value
  tiers : ∀ tier ∈ document.tiers, tier.Spells A V

end Spells

/-! ### What is read from a tree -/

variable {reading : ReadOptions} {root node : Node} {content : Content}

theorem filled?_spells (h : node.Legible) (name : String) :
    ∀ s ∈ Header.filled? node name, Allowed s ∧ s ≠ "" := by
  intro s hs
  obtain ⟨hs, hne⟩ := Option.filter_eq_some_iff.1 hs
  exact ⟨h.attribute? hs, by simpa using hne⟩

theorem Note.IsOf.spells {note : Note} (hnote : note.IsOf reading node) (h : node.Legible) :
    note.Spells Allowed (ReadValue reading) := by
  have href (name : String) : Allowed ((node.attribute? name).getD "") := by
    cases hvalue : node.attribute? name with
    | none => exact nofun
    | some value => exact h.attribute? hvalue
  have htext : Allowed (((node.child? "ANNOTATION_VALUE").map Node.textContent).getD "") := by
    cases hchild : node.child? "ANNOTATION_VALUE" with
    | none => exact nofun
    | some child => exact (h.child? hchild).textContent
  refine ⟨List.forall_mem_cons.2 ⟨h.attribute? hnote.id, ?_⟩, ?_⟩
  · rw [hnote.anchor]
    by_cases haligned : node.isElement "ALIGNABLE_ANNOTATION" = true
    · simp [Note.anchorOf, haligned, href]
    · simp [Note.anchorOf, haligned, href]
  · rw [hnote.value]
    exact readValue_normalValue reading htext

theorem Tier.IsOf.spells {tier : Tier} (htier : tier.IsOf reading node) (h : node.Legible) :
    tier.Spells Allowed (ReadValue reading) := by
  have htype : Allowed tier.linguisticType := by
    rw [htier.linguisticType]
    cases hvalue : node.attribute? "LINGUISTIC_TYPE_REF" with
    | none => exact nofun
    | some value => exact h.attribute? hvalue
  have hparent : ∀ s ∈ tier.parent, Allowed s ∧ s ≠ "" := by
    rw [htier.parent]
    exact filled?_spells h "PARENT_REF"
  refine ⟨?_, fun hempty => (hparent "" hempty).2 rfl, fun note hnote => ?_⟩
  · simp only [Tier.attributes, Tier.optional, List.forall_mem_append, List.forall_mem_cons]
    refine ⟨⟨⟨h.attribute? htier.id, htype, List.forall_mem_nil _⟩, fun pair hpair => ?_⟩,
      fun pair hpair => ?_⟩
    · obtain ⟨s, hs, rfl⟩ := Option.map_eq_some_iff.1 (Option.mem_toList.1 hpair)
      exact h.attribute? (htier.locale ▸ hs)
    · obtain ⟨s, hs, rfl⟩ := Option.map_eq_some_iff.1 (Option.mem_toList.1 hpair)
      exact (hparent s hs).1
  · obtain ⟨below, hbelow, hread⟩ := exists_of_mem_forall₂ htier.notes hnote
    exact hread.spells (Node.Legible.of_mem_descendants node h below (List.mem_filter.1 hbelow).1)

theorem TimeSlot.IsOf.spells {unit : TimeUnit} {slot : TimeSlot} (hslot : slot.IsOf unit node)
    (h : node.Legible) : Allowed slot.id ∧ SteadyTime slot.value := by
  obtain ⟨text, -, htime⟩ := hslot.value
  exact ⟨h.attribute? hslot.id, TimeUnit.steadyTime_of_read? htime⟩

/-- What a file says is of characters that may occur in a document. -/
theorem Content.spells_of_ofRoot? (h : root.Legible)
    (hcontent : Content.ofRoot? reading root = .ok content) :
    content.Spells Allowed (ReadValue reading) := by
  obtain ⟨header, hheader, hmedia, -⟩ := ofRoot?_ok hcontent
  obtain ⟨-, helement, hdescriptor⟩ := Header.ofRoot?_ok hheader
  have hlegible := h.child? helement
  refine ⟨?_, fun slot hslot => ?_, fun tier htier => ?_⟩
  · rw [hmedia]
    exact ⟨filled?_spells (hlegible.child? hdescriptor) _,
      filled?_spells (hlegible.child? hdescriptor) _, filled?_spells hlegible _⟩
  · obtain ⟨node, hnode, hread⟩ := exists_of_mem_forall₂ (forall₂_slots hcontent hheader) hslot
    obtain ⟨order, horder, hnode⟩ := List.mem_flatMap.1 (List.mem_filter.1 hnode).1
    have horder := h.of_mem_children (List.mem_filter.1 horder).1
    exact hread.spells
      (Node.Legible.of_mem_descendants order horder node (List.mem_filter.1 hnode).1)
  · obtain ⟨node, hnode, hread⟩ := exists_of_mem_forall₂ (forall₂_tiers hcontent) htier
    exact hread.spells
      (Node.Legible.of_mem_descendants root h node (List.mem_filter.1 hnode).1)

/-! ### What is written -/

theorem Tier.Spells.attributes_pieces {A V : String → Prop} {writing : WriteOptions} {tier : Tier}
    (h : tier.Spells A V) : ∀ piece ∈ tier.pieces writing, ∀ pair ∈ piece.attributes, A pair.2 := by
  have hnone : ∀ pair ∈ ([] : List (String × String)), A pair.2 := List.forall_mem_nil _
  rw [pieces]
  refine List.forall_mem_cons.2
    ⟨h.attributes, List.forall_mem_append.2 ⟨fun piece hpiece => ?_, ?_⟩⟩
  · obtain ⟨note, hnote, hpiece⟩ := List.mem_flatMap.1 hpiece
    have hattributes := (h.notes note (List.mem_filter.1 hnote).1).attributes
    have hpieces : ∀ piece ∈ note.pieces, ∀ pair ∈ piece.attributes, A pair.2 := by
      simp only [Note.pieces, List.forall_mem_cons, Xml.Piece.attributes]
      exact ⟨hnone, hattributes, hnone, hnone, hnone, hnone, hnone, List.forall_mem_nil _⟩
    exact hpieces piece hpiece
  · exact List.forall_mem_cons.2 ⟨hnone, List.forall_mem_nil _⟩

namespace Document

variable {document : Document} {A V : String → Prop} {writing : WriteOptions}

section Attributes

variable (hA : ∀ s, Unbroken s → A s)

include hA

theorem attributes_headerPieces (hurl : ∀ s ∈ document.media.url, A s)
    (hmime : ∀ s ∈ document.media.mimeType, A s) (hfile : ∀ s ∈ document.media.file, A s) :
    ∀ piece ∈ document.headerPieces, ∀ pair ∈ piece.attributes, A pair.2 := by
  have hfilled (value : Option String) (hvalue : ∀ s ∈ value, A s) : A (value.getD "") := by
    cases value with
    | none => exact hA "" (by decide)
    | some s => exact hvalue s rfl
  have hoptional : ∀ pair ∈ Tier.optional "MIME_TYPE" document.media.mimeType, A pair.2 := by
    intro pair hpair
    obtain ⟨s, hs, rfl⟩ := Option.map_eq_some_iff.1 (Option.mem_toList.1 hpair)
    exact hmime s hs
  have hnone : ∀ pair ∈ ([] : List (String × String)), A pair.2 := List.forall_mem_nil _
  simp only [headerPieces, propertyPieces, List.cons_append, List.nil_append,
    List.forall_mem_cons, Xml.Piece.attributes]
  exact ⟨⟨hfilled _ hfile, hA _ (by decide), hnone⟩, ⟨hfilled _ hurl, hoptional⟩,
    ⟨hA _ (by decide), hnone⟩, hnone, hnone, ⟨hA _ (by decide), hnone⟩, hnone, hnone, hnone,
    List.forall_mem_nil _⟩

theorem attributes_timeOrderPieces (h : ∀ slot ∈ document.validSlots, A slot.id) :
    ∀ piece ∈ document.timeOrderPieces, ∀ pair ∈ piece.attributes, A pair.2 := by
  have hnone : ∀ pair ∈ ([] : List (String × String)), A pair.2 := List.forall_mem_nil _
  rw [timeOrderPieces]
  refine List.forall_mem_cons.2 ⟨hnone, List.forall_mem_append.2 ⟨fun piece hpiece => ?_, ?_⟩⟩
  · obtain ⟨slot, hslot, rfl⟩ := List.mem_map.1 hpiece
    have htime := hA _ (unbroken_writeInt slot.value.toInt)
    exact List.forall_mem_cons.2 ⟨h slot hslot, List.forall_mem_cons.2 ⟨htime, hnone⟩⟩
  · exact List.forall_mem_cons.2 ⟨hnone, List.forall_mem_nil _⟩

theorem attributes_typePieces (h : ∀ tier ∈ document.tiers, A tier.linguisticType) :
    ∀ piece ∈ document.typePieces writing, ∀ pair ∈ piece.attributes, A pair.2 := by
  unfold typePieces
  split
  · intro piece hpiece
    obtain ⟨type, htype, rfl⟩ := List.mem_map.1 hpiece
    obtain ⟨tier, htier, rfl⟩ := List.mem_map.1 (mem_of_mem_distinctBy _ htype)
    have haligned : A (if document.isTypeAligned writing tier.linguisticType then "true"
        else "false") := by
      split
      · exact hA _ (by decide)
      · exact hA _ (by decide)
    exact List.forall_mem_cons.2 ⟨h tier htier, List.forall_mem_cons.2 ⟨haligned,
      List.forall_mem_cons.2 ⟨hA _ (by decide), List.forall_mem_nil _⟩⟩⟩
  · exact List.forall_mem_nil _

/-- The attribute values in a file are texts of its document, numerals and fixed texts. -/
theorem attributes_bodyPieces (hurl : ∀ s ∈ document.media.url, A s)
    (hmime : ∀ s ∈ document.media.mimeType, A s) (hfile : ∀ s ∈ document.media.file, A s)
    (hslots : ∀ slot ∈ document.validSlots, A slot.id)
    (htiers : ∀ tier ∈ document.tiers, tier.Spells A V) :
    ∀ piece ∈ document.bodyPieces writing, ∀ pair ∈ piece.attributes, A pair.2 := by
  simp only [bodyPieces, List.forall_mem_append]
  refine ⟨⟨⟨attributes_headerPieces hA hurl hmime hfile, attributes_timeOrderPieces hA hslots⟩,
    fun piece hpiece => ?_⟩, attributes_typePieces hA fun tier htier => ?_⟩
  · obtain ⟨tier, htier, hpiece⟩ := List.mem_flatMap.1 hpiece
    exact (htiers tier htier).attributes_pieces piece hpiece
  · exact (htiers tier htier).attributes ("LINGUISTIC_TYPE_REF", tier.linguisticType)
      (by simp [Tier.attributes])

end Attributes

theorem Spells.attributes_bodyPieces (h : document.Spells A V)
    (hfaithful : document.timeline.Faithful) (hA : ∀ s, Unbroken s → A s) :
    ∀ piece ∈ document.bodyPieces writing, ∀ pair ∈ piece.attributes, A pair.2 :=
  Document.attributes_bodyPieces hA (fun s hs => (h.media.url s hs).1)
    (fun s hs => (h.media.mimeType s hs).1) (fun s hs => (h.media.file s hs).1)
    (fun slot hslot => (h.slots slot (mem_timeline_of_mem_validSlots hfaithful hslot)).1) h.tiers

end Document

end Eaf

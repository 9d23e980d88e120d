import Eaf.Proofs.Counting
import Eaf.Proofs.Spelling

/-!
# Documents that were read from files

A document that a file alone makes holds what a file can say, and its counter of annotation ids is
ahead of all numbered ids if it was moved past them. A file of such a document can be read again:
what is read is such a document, whose attribute values hold no line ends and whose values read
back.

## Main definitions

* `Eaf.Document.FromFile` — documents that a file alone makes.

## Main results

* `Eaf.Document.fromFile_of_importText` — a file makes such a document of the empty one.
* `Eaf.Document.FromFile.exists_again` — the file of such a document makes one.
-/

namespace Eaf

open Xml (Allowed Unbroken rereadValue)

variable {reading : ReadOptions}

namespace Document

variable {document : Document} {content : Content} {A V : String → Prop} {writing : WriteOptions}

/-! ### The document that a file alone makes -/

theorem timeline_absorb_empty (resync : Bool) (content : Content) :
    (empty.absorb resync content).document.timeline.toList =
      (({} : Timeline).insertNew content.slots).2 :=
  Timeline.toList_insertNew {} content.slots

/-- The texts of the document that a file alone makes are texts of the file. -/
theorem spells_absorb_empty (h : content.Spells A V) (resync : Bool) :
    (empty.absorb resync content).document.Spells A V where
  media := h.media
  slots := by
    intro slot hslot
    rw [timeline_absorb_empty] at hslot
    exact h.slots slot ((Timeline.insertNew_sublist _ _).subset hslot)
  tiers := by
    intro tier htier
    exact h.tiers tier ((splitNew_sublist [] content.tiers).subset htier)

/-- A document that a file alone makes: its texts are those of a file, slots and tiers are told
apart by their ids, and the counter of annotation ids is past all of them on demand. -/
structure FromFile (reading : ReadOptions) (document : Document) : Prop where
  spells : document.Spells Allowed (ReadValue reading)
  faithful : document.timeline.Faithful
  tierIds : document.tierIds.Nodup
  covers : reading.resyncCounters = true →
    ∀ id ∈ document.timeline.toList.map (·.id) ++ idsOf document.tiers,
      document.counters.Covers id

/-- A file that is read into the empty document makes a document of this kind. -/
theorem fromFile_of_importText {text : String} {imported : Imported}
    (h : (empty.importText reading text).result = .ok imported) :
    imported.document.FromFile reading := by
  obtain ⟨root, hread, htree⟩ := importText_ok h
  obtain ⟨content, hcontent, hdocument, -⟩ := importTree_ok htree
  have hspells := Content.spells_of_ofRoot? (Xml.legible_of_read? hread) hcontent
  rw [hdocument]
  refine ⟨spells_absorb_empty hspells _, absorb_faithful Timeline.faithful_empty _ _,
    absorb_tierIds_nodup (show empty.tierIds.Nodup from List.nodup_nil) _ _,
    fun hresync id hid => ?_⟩
  rw [timeline_absorb_empty] at hid
  show (if reading.resyncCounters then Counters.observeAll _
    ((({} : Timeline).insertNew content.slots).2.map (·.id) ++
      idsOf (splitNew [] content.tiers).1) else _).Covers id
  rw [if_pos hresync]
  exact Counters.covers_observeAll _ hid

/-- The file of a document that a file alone makes is legible. -/
theorem FromFile.legible_bodyPieces (h : document.FromFile reading) :
    ∀ piece ∈ document.bodyPieces writing, piece.Legible :=
  legible_of_allowed (h.spells.attributes_bodyPieces h.faithful fun _ hs => hs.allowed)
    fun tier htier note hnote =>
      ((h.spells.tiers tier htier).notes note (List.mem_filter.1 hnote).1).value.allowed

end Document

/-! ### What is read again -/

theorem Note.attributes_reread (note : Note) :
    (note.reread reading).attributes =
      note.attributes.map fun pair => (pair.1, rereadValue pair.2) := by
  cases hanchor : note.anchor <;> simp [reread, attributes, Anchor.reread, hanchor]

theorem Note.spells_reread {note : Note} (h : note.Spells Allowed (ReadValue reading)) :
    (note.reread reading).Spells Unbroken ReadsBack where
  attributes := by
    intro pair hpair
    rw [Note.attributes_reread] at hpair
    obtain ⟨other, hother, rfl⟩ := List.mem_map.1 hpair
    exact Xml.rereadValue_unbroken (h.attributes other hother)
  value := readsBack_normalValue h.value.hyphens

/-- The attribute values of a tier that was read again are those of the tier, read again. -/
theorem Tier.exists_of_mem_attributes_reread {writing : WriteOptions} {tier : Tier}
    {pair : String × String} (h : pair ∈ (tier.reread reading writing).attributes) :
    ∃ other ∈ tier.attributes, pair.2 = rereadValue other.2 := by
  simp only [attributes, optional, reread, List.mem_append, List.mem_cons, List.not_mem_nil,
    or_false, Option.mem_toList, Option.map_eq_some_iff, Option.filter_eq_some_iff] at h ⊢
  rcases h with ((rfl | rfl) | ⟨s, ⟨other, hother, rfl⟩, rfl⟩) |
    ⟨s, ⟨⟨other, hother, rfl⟩, -⟩, rfl⟩
  · exact ⟨_, Or.inl (Or.inl (Or.inl rfl)), rfl⟩
  · exact ⟨_, Or.inl (Or.inl (Or.inr rfl)), rfl⟩
  · exact ⟨("DEFAULT_LOCALE", other), Or.inl (Or.inr ⟨other, hother, rfl⟩), rfl⟩
  · exact ⟨("PARENT_REF", other), Or.inr ⟨other, hother, rfl⟩, rfl⟩

theorem Tier.spells_reread {writing : WriteOptions} {tier : Tier}
    (h : tier.Spells Allowed (ReadValue reading)) :
    (tier.reread reading writing).Spells Unbroken ReadsBack where
  attributes := by
    intro pair hpair
    obtain ⟨other, hother, heq⟩ := Tier.exists_of_mem_attributes_reread hpair
    rw [heq]
    exact Xml.rereadValue_unbroken (h.attributes other hother)
  parent := by
    intro hempty
    exact absurd rfl (of_decide_eq_true (Option.filter_eq_some_iff.1 hempty).2)
  notes := by
    intro note hnote
    obtain ⟨other, hother, rfl⟩ := List.mem_map.1 hnote
    exact Note.spells_reread (h.notes other (List.mem_filter.1 hother).1)

theorem Media.spells_reread {media : Media} (h : media.Spells Allowed) :
    media.reread.Spells Unbroken := by
  have hfilled (value : Option String) (hvalue : ∀ s ∈ value, Allowed s ∧ s ≠ "") :
      ∀ s ∈ (value.map rereadValue).filter (· ≠ ""), Unbroken s ∧ s ≠ "" := by
    intro s hs
    obtain ⟨hs, hne⟩ := Option.filter_eq_some_iff.1 hs
    obtain ⟨other, hother, rfl⟩ := Option.map_eq_some_iff.1 hs
    exact ⟨Xml.rereadValue_unbroken (hvalue other hother).1, of_decide_eq_true hne⟩
  exact ⟨hfilled _ h.url, hfilled _ h.mimeType, hfilled _ h.file⟩

namespace Document

variable {document : Document} {writing : WriteOptions}

/-- What the file of such a document says has no broken attribute value, and its values read
back. -/
theorem FromFile.spells_saved (h : document.FromFile reading) :
    (document.saved reading writing).Spells Unbroken ReadsBack where
  media := Media.spells_reread h.spells.media
  slots := by
    intro slot hslot
    obtain ⟨other, hother, rfl⟩ := List.mem_map.1 hslot
    obtain ⟨hid, htime⟩ :=
      h.spells.slots other (mem_timeline_of_mem_validSlots h.faithful hother)
    exact ⟨Xml.rereadValue_unbroken hid, htime⟩
  tiers := by
    intro tier htier
    obtain ⟨other, hother, rfl⟩ := List.mem_map.1 htier
    exact Tier.spells_reread (h.spells.tiers other hother)

/-- **A document that a file alone makes can be written and read again.** What is read is such a
document, no attribute value of its file is broken, and its values read back. -/
theorem FromFile.exists_again (h : document.FromFile reading) (now : String)
    (hauthor : Allowed writing.author) (hdate : Allowed (writing.date.getD now)) :
    ∃ again, (empty.importText reading (document.toText writing now)).result = .ok again ∧
      again.document.FromFile reading ∧ again.document.Spells Unbroken ReadsBack := by
  obtain ⟨again, hread, hdocument, -⟩ :=
    exists_importText_toText empty reading hauthor hdate h.legible_bodyPieces
  have htimes : ∀ slot ∈ document.validSlots, SteadyTime slot.value := fun slot hslot =>
    (h.spells.slots slot (mem_timeline_of_mem_validSlots h.faithful hslot)).2
  rw [rounded_eq_saved reading writing htimes] at hdocument
  refine ⟨again, hread, fromFile_of_importText hread, ?_⟩
  rw [hdocument]
  exact spells_absorb_empty h.spells_saved _

end Document

end Eaf

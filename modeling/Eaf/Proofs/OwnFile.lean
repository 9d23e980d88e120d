import Eaf.Proofs.Absorption
import Eaf.Proofs.Built
import Eaf.Proofs.Normal

/-!
# A document and its own file

The file of a document leaves things out: slots between which nothing extends, annotations that
refer to others, the blanks around values. It has nothing to say that the document does not know.
The ids of its slots and tiers are ids of the document, its media are those of the document, and the
counter that it records is the one that the document has. So a document that reads its own file
passes over all of it, whatever the options of writing and of reading.

## Main results

* `Eaf.Document.unbroken_bodyPieces` — where no attribute value of a file is broken.
* `Eaf.Document.knows_rounded` — a document knows what its own file says.
* `Eaf.Document.read_own_file` — a document that reads its own file.
-/

namespace Eaf

open Xml (Allowed Unbroken)

/-- Media without an empty field are reloaded as they are. -/
theorem Media.reloaded_eq_self {media : Media} (h : "" ∉ media.texts) : media.reloaded = media := by
  simp only [texts, List.mem_append, Option.mem_toList, not_or] at h
  obtain ⟨⟨hurl, hmime⟩, hfile⟩ := h
  rw [reloaded, filter_ne_empty hurl, filter_ne_empty hmime, filter_ne_empty hfile]

namespace Document

variable {document : Document} {reading : ReadOptions} {writing : WriteOptions} {now : String}

/-- The attribute values of a file are those of its root element and those in it. -/
theorem unbroken_bodyPieces
    (h : ∀ piece ∈ document.pieces writing now, ∀ pair ∈ piece.attributes, Unbroken pair.2) :
    (Unbroken writing.author ∧ Unbroken (writing.date.getD now)) ∧
      ∀ piece ∈ document.bodyPieces writing, ∀ pair ∈ piece.attributes, Unbroken pair.2 := by
  rw [pieces_eq, Xml.Markup.pieces, piecesOf_body, List.forall_mem_cons, List.forall_mem_cons,
    List.forall_mem_append] at h
  obtain ⟨-, hroot, hbody, -⟩ := h
  exact ⟨⟨hroot ("AUTHOR", writing.author) List.mem_cons_self,
    hroot ("DATE", writing.date.getD now) (List.mem_cons_of_mem _ List.mem_cons_self)⟩, hbody⟩

/-- A document knows what its own file says, if no attribute value in it is broken and no field of
its media is empty. -/
theorem knows_rounded (hfaithful : document.timeline.Faithful)
    (hbody : ∀ piece ∈ document.bodyPieces writing, ∀ pair ∈ piece.attributes, Unbroken pair.2)
    (hmedia : "" ∉ document.media.texts) : document.Knows (document.rounded reading writing) where
  media := (media_reread_eq_reloaded hbody).trans (Media.reloaded_eq_self hmedia)
  slots := by
    intro slot hslot
    obtain ⟨written, hwritten, rfl⟩ := List.mem_map.1 hslot
    have hid : Unbroken written.id := hbody _ (mem_bodyPieces_of_slot hwritten)
      ("TIME_SLOT_ID", written.id) (by simp [slotPiece, Xml.Piece.attributes])
    have hsame : written.rounded.id = written.id := Xml.rereadValue_eq_self hid
    rw [hsame, hfaithful.contains_iff]
    exact List.mem_map_of_mem (mem_timeline_of_mem_validSlots hfaithful hwritten)
  tiers := by
    intro id hid
    obtain ⟨_, hread, rfl⟩ := List.mem_map.1 hid
    obtain ⟨tier, htier, rfl⟩ := List.mem_map.1 hread
    have hid : Unbroken tier.id := hbody _ (mem_bodyPieces_of_tier htier List.mem_cons_self)
      ("TIER_ID", tier.id) (by simp [Xml.Piece.attributes, Tier.attributes])
    have hsame : (tier.reread reading writing).id = tier.id := Xml.rereadValue_eq_self hid
    rw [hsame]
    exact List.mem_map_of_mem htier
  lastUsed := by
    rintro value ⟨⟩
    exact UInt64.le_refl _

/-- **A document that reads its own file stays as it is.** Let a document be reachable by any work
on it, let no attribute value of its file hold a character that may not occur, a tab or a part of a
line end, let the values of its annotations be of allowed characters, and let no field of its media
be empty. Then it reads its file, however this one was written and is read, and is afterwards what
it was, with the slots and annotations that the file leaves out and the values as they stood. All
valid slots and all tiers are passed over. -/
theorem read_own_file (h : document.Reachable) (reading : ReadOptions) (writing : WriteOptions)
    (now : String)
    (hattributes : ∀ piece ∈ document.pieces writing now, ∀ pair ∈ piece.attributes,
      Unbroken pair.2)
    (hvalues : ∀ note ∈ document.notes, Allowed note.value)
    (hmedia : "" ∉ document.media.texts) :
    ∃ imported, (document.importText reading (document.toText writing now)).result = .ok imported ∧
      imported.document = document ∧
      imported.tally =
        { slots := 0
          duplicateSlots := document.validSlots.length
          unalignedSlots := 0
          tiers := 0
          duplicateTiers := document.tiers.length
          notes := 0 } := by
  obtain ⟨⟨hauthor, hdate⟩, hbody⟩ := unbroken_bodyPieces hattributes
  have hlegible : ∀ piece ∈ document.bodyPieces writing, piece.Legible := by
    refine legible_of_allowed
      (fun piece hpiece pair hpair => (hbody piece hpiece pair hpair).allowed) ?_
    intro tier htier note hnote
    exact hvalues note (List.mem_flatMap.2 ⟨tier, htier, (List.mem_filter.1 hnote).1⟩)
  obtain ⟨imported, hread, hdocument, htally⟩ :=
    exists_importText_toText document reading hauthor.allowed hdate.allowed hlegible
  have hknows : document.Knows (document.rounded reading writing) :=
    knows_rounded h.faithful hbody hmedia
  refine ⟨imported, hread, hdocument.trans (hknows.document_absorb _), ?_⟩
  rw [htally, hknows.tally_absorb]
  simp [rounded, saved]

/-- A document with two tiers of one id, a slot that is not written, blanks around a value and an
annotation that its file leaves out reads its file with its counters standing anywhere. -/
theorem read_own_file_of_edited_document :
    let document := empty.run
      [ .createTier "text" "en", .createNote "tier0" " word\u00AD" 500 250,
        .createNote "tier0" "gone" 0 9007199254740993, .createTier "gloss" "en",
        .editTier "tier0" fun tier =>
          { tier with
            notes := tier.notes.take 1 ++
              [{ id := "half", value := "", anchor := .aligned "ts2" "nowhere" }] },
        .editTier "tier1" fun tier =>
          { tier with
            id := "tier0"
            notes := [{ id := "an99", value := "noun", anchor := .refers "an0" }] },
        .assignMedia { url := some "file:///a.wav" } ]
    document.timeline.size = 4 ∧ document.Reachable ∧
      ∃ imported, (document.importText { strict := true }
        (document.toText {} "2024-01-01")).result = .ok imported ∧ imported.document = document ∧
      imported.tally = { slots := 0, duplicateSlots := 2, unalignedSlots := 0, tiers := 0,
                         duplicateTiers := 2, notes := 0 } := by
  intro document
  have hreachable : document.Reachable := ⟨_, rfl⟩
  obtain ⟨imported, hread, hsame, htally⟩ :=
    read_own_file hreachable { strict := true } {} "2024-01-01" (by decide +kernel)
      (by decide +kernel) (by decide +kernel)
  refine ⟨by decide +kernel, hreachable, imported, hread, hsame, htally.trans ?_⟩
  decide +kernel

end Document

end Eaf

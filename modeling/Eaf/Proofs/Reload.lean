import Eaf.Proofs.Representation
import Eaf.Proofs.Reread
import Eaf.Proofs.ValidSlots

/-!
# Saving and reloading

A document that is saved and reloaded is the document again, up to what is not written: annotations
that refer to others, if the file leaves them out, and slots between which nothing extends. Values
of annotations are read without the blanks around them and, on demand, without soft hyphens, and
an empty parent or medium reads as none.

## Main definitions

* `Eaf.Tier.reloaded`, `Eaf.Media.reloaded` — tiers and media after they were saved and reloaded.

## Main results

* `Eaf.Timeline.Faithful.insertNew_of_nodup`, `Eaf.splitNew_of_nodup` — all that is new is added.
* `Eaf.Document.reload` — a document that is saved and reloaded.
-/

namespace Eaf

open Xml (Unbroken rereadValue rereadText)

/-! ### Content whose ids are new and distinct -/

/-- Slots whose ids are distinct and new are all added. -/
theorem Timeline.Faithful.insertNew_of_nodup {timeline : Timeline} (h : timeline.Faithful)
    {slots : List TimeSlot} (hnodup : (slots.map (·.id)).Nodup)
    (hnew : ∀ slot ∈ slots, timeline.contains slot.id = false) :
    (timeline.insertNew slots).2 = slots := by
  induction slots generalizing timeline with
  | nil => rfl
  | cons slot slots ih =>
    obtain ⟨hslot, hslots⟩ := List.forall_mem_cons.1 hnew
    obtain ⟨hfirst, hnodup⟩ := List.nodup_cons.1 hnodup
    obtain ⟨extended, hinsert⟩ := Timeline.insert?_of_not_contains slot hslot
    have hextended := h.insert? hinsert
    have hrest : ∀ other ∈ slots, extended.contains other.id = false := by
      intro other hother
      rw [← Bool.not_eq_true, hextended.contains_iff, toList_insert? hinsert, List.map_append,
        List.mem_append, not_or, ← h.contains_iff, Bool.not_eq_true]
      refine ⟨hslots other hother, fun hmem => hfirst ?_⟩
      rw [← List.mem_singleton.1 hmem]
      exact List.mem_map_of_mem hother
    rw [Timeline.insertNew, hinsert]
    dsimp only
    rw [ih hextended hnodup hrest]

/-- Tiers whose ids are distinct and new are all added. -/
theorem splitNew_of_nodup {taken : List String} {tiers : List Tier}
    (hnodup : (tiers.map (·.id)).Nodup) (hnew : ∀ tier ∈ tiers, tier.id ∉ taken) :
    splitNew taken tiers = (tiers, []) := by
  induction tiers generalizing taken with
  | nil => rfl
  | cons tier tiers ih =>
    obtain ⟨htier, htiers⟩ := List.forall_mem_cons.1 hnew
    obtain ⟨hfirst, hnodup⟩ := List.nodup_cons.1 hnodup
    have hrest : ∀ other ∈ tiers, other.id ∉ tier.id :: taken := by
      intro other hother
      rw [List.mem_cons, not_or]
      exact ⟨fun heq => hfirst (List.mem_map.2 ⟨other, hother, heq⟩), htiers other hother⟩
    rw [splitNew, if_neg (by simpa using htier), ih hnodup hrest]

/-- Content whose ids are distinct makes up the document that it joins if this one is empty. -/
theorem Document.absorb_empty_of_nodup (resync : Bool) (content : Content)
    (hslots : (content.slots.map (·.id)).Nodup) (htiers : (content.tiers.map (·.id)).Nodup) :
    let absorbed := empty.absorb resync content
    absorbed.document.media = content.media ∧ absorbed.document.timeline.toList = content.slots ∧
      absorbed.document.tiers = content.tiers ∧
      absorbed.document.counters =
        (let counters := match content.lastUsed with
          | some value => ({} : Counters).raise .note value
          | none => {}
        if resync then counters.observeAll (content.slots.map (·.id) ++ idsOf content.tiers)
        else counters) ∧
      absorbed.tally =
        { slots := content.slots.length
          duplicateSlots := 0
          unalignedSlots := content.unaligned
          tiers := content.tiers.length
          duplicateTiers := 0
          notes := (content.tiers.flatMap (·.notes)).length } := by
  have hadded : (({} : Timeline).insertNew content.slots).2 = content.slots :=
    Timeline.faithful_empty.insertNew_of_nodup hslots fun _ _ => rfl
  have hlist := Timeline.toList_insertNew {} content.slots
  rw [hadded] at hlist
  have hsplit : splitNew [] content.tiers = (content.tiers, []) :=
    splitNew_of_nodup htiers fun _ _ => List.not_mem_nil
  intro absorbed
  refine ⟨rfl, hlist, ?_, ?_, ?_⟩
  · show [] ++ (splitNew [] content.tiers).1 = content.tiers
    rw [hsplit, List.nil_append]
  · show (if resync then Counters.observeAll _ ((({} : Timeline).insertNew content.slots).2.map
      (·.id) ++ idsOf (splitNew [] content.tiers).1) else _) = _
    rw [hadded, hsplit]
    rfl
  · show Tally.mk (({} : Timeline).insertNew content.slots).2.length
      (content.slots.length - (({} : Timeline).insertNew content.slots).2.length) _
      (splitNew [] content.tiers).1.length (splitNew [] content.tiers).2.length
      ((splitNew [] content.tiers).1.flatMap (·.notes)).length = _
    rw [hadded, hsplit, Nat.sub_self]
    rfl

/-! ### Content that reads as it was written -/

/-- A tier after its document was saved and reloaded. -/
def Tier.reloaded (reading : ReadOptions) (writing : WriteOptions) (tier : Tier) : Tier :=
  { tier with
    parent := tier.parent.filter (· ≠ "")
    notes := (tier.written writing).map fun note =>
      { note with value := normalValue reading note.value } }

/-- Media after their document was saved and reloaded. -/
def Media.reloaded (media : Media) : Media :=
  { url := media.url.filter (· ≠ "")
    mimeType := media.mimeType.filter (· ≠ "")
    file := media.file.filter (· ≠ "") }

theorem map_rereadValue {value : Option String} (h : ∀ s ∈ value, Unbroken s) :
    value.map rereadValue = value := by
  cases value with
  | none => rfl
  | some s => rw [Option.map_some, Xml.rereadValue_eq_self (h s rfl)]

theorem TimeSlot.reread_eq_self {slot : TimeSlot}
    (h : ∀ pair ∈ Document.slotAttributes slot, Unbroken pair.2) : slot.reread = slot := by
  have hid : Unbroken slot.id := h ("TIME_SLOT_ID", slot.id) (by simp [Document.slotAttributes])
  rw [reread, Xml.rereadValue_eq_self hid]

theorem Note.anchor_reread {note : Note} (h : ∀ pair ∈ note.attributes, Unbroken pair.2) :
    note.anchor.reread = note.anchor := by
  cases hanchor : note.anchor with
  | aligned start stop =>
    have hstart : Unbroken start := h ("TIME_SLOT_REF1", start) (by simp [attributes, hanchor])
    have hstop : Unbroken stop := h ("TIME_SLOT_REF2", stop) (by simp [attributes, hanchor])
    rw [Anchor.reread, Xml.rereadValue_eq_self hstart, Xml.rereadValue_eq_self hstop]
  | refers target =>
    have htarget : Unbroken target := h ("ANNOTATION_REF", target) (by simp [attributes, hanchor])
    rw [Anchor.reread, Xml.rereadValue_eq_self htarget]

/-- An annotation whose ids and references are unbroken keeps all but its value. -/
theorem Note.reread_eq {reading : ReadOptions} {note : Note}
    (h : ∀ pair ∈ note.attributes, Unbroken pair.2) :
    note.reread reading = { note with value := normalValue reading (rereadText note.value) } := by
  have hid : Unbroken note.id := h ("ANNOTATION_ID", note.id) (by simp [attributes])
  rw [reread, Xml.rereadValue_eq_self hid, Note.anchor_reread h]

theorem Tier.reread_eq_reloaded {reading : ReadOptions} {writing : WriteOptions} {tier : Tier}
    (h : ∀ pair ∈ tier.attributes, Unbroken pair.2)
    (hnotes : ∀ note ∈ tier.written writing, note.reread reading =
      { note with value := normalValue reading note.value }) :
    tier.reread reading writing = tier.reloaded reading writing := by
  have hid : Unbroken tier.id := h ("TIER_ID", tier.id) (by simp [attributes])
  have htype : Unbroken tier.linguisticType :=
    h ("LINGUISTIC_TYPE_REF", tier.linguisticType) (by simp [attributes])
  have hlocale : ∀ s ∈ tier.locale, Unbroken s := fun s hs =>
    h ("DEFAULT_LOCALE", s) (by simp [attributes, optional, Option.mem_def.1 hs])
  have hparent : ∀ s ∈ tier.parent, Unbroken s := fun s hs =>
    h ("PARENT_REF", s) (by simp [attributes, optional, Option.mem_def.1 hs])
  rw [reread, reloaded, Xml.rereadValue_eq_self hid, Xml.rereadValue_eq_self htype,
    map_rereadValue hlocale, map_rereadValue hparent, List.map_congr_left hnotes]

theorem Media.reread_eq_reloaded {media : Media} (hurl : ∀ s ∈ media.url, Unbroken s)
    (hmime : ∀ s ∈ media.mimeType, Unbroken s) (hfile : ∀ s ∈ media.file, Unbroken s) :
    media.reread = media.reloaded := by
  rw [reread, reloaded, map_rereadValue hurl, map_rereadValue hmime, map_rereadValue hfile]

namespace Document

variable {document : Document} {reading : ReadOptions} {writing : WriteOptions}

/-- The attribute values of a header are those of the media. -/
theorem media_reread_eq_reloaded
    (h : ∀ piece ∈ document.bodyPieces writing, ∀ pair ∈ piece.attributes, Unbroken pair.2) :
    document.media.reread = document.media.reloaded := by
  have hheader := h (.openTag "HEADER"
    [("MEDIA_FILE", document.media.file.getD ""), ("TIME_UNITS", "milliseconds")])
    (mem_bodyPieces_of_header (by simp [headerPieces]))
  have hdescriptor := h (.emptyTag "MEDIA_DESCRIPTOR" document.descriptorAttributes)
    (mem_bodyPieces_of_header (by simp [headerPieces, descriptorAttributes]))
  refine Media.reread_eq_reloaded (fun s hs => ?_) (fun s hs => ?_) fun s hs => ?_
  · exact hdescriptor ("MEDIA_URL", s)
      (by simp [Xml.Piece.attributes, descriptorAttributes, Option.mem_def.1 hs])
  · exact hdescriptor ("MIME_TYPE", s)
      (by simp [Xml.Piece.attributes, descriptorAttributes, Tier.optional, Option.mem_def.1 hs])
  · exact hheader ("MEDIA_FILE", s) (by simp [Xml.Piece.attributes, Option.mem_def.1 hs])

/-- What a file says of a document whose texts read as they were written. -/
def kept (document : Document) (reading : ReadOptions) (writing : WriteOptions) : Content :=
  { media := document.media.reloaded
    lastUsed := some document.counters.note
    slots := document.validSlots
    unaligned := 0
    tiers := document.tiers.map (Tier.reloaded reading writing) }

/-- What a file says reads as it was written, if no attribute value is broken and the values of
annotations read as they were written. -/
theorem saved_eq_kept
    (h : ∀ piece ∈ document.bodyPieces writing, ∀ pair ∈ piece.attributes, Unbroken pair.2)
    (hvalues : ∀ tier ∈ document.tiers, ∀ note ∈ tier.written writing,
      rereadText note.value = note.value) :
    document.saved reading writing = document.kept reading writing := by
  have hslots : document.validSlots.map TimeSlot.reread = document.validSlots := by
    refine (List.map_congr_left fun slot hslot => ?_).trans (List.map_id _)
    exact TimeSlot.reread_eq_self (h (slotPiece slot) (mem_bodyPieces_of_slot hslot))
  have htiers : document.tiers.map (Tier.reread reading writing) =
      document.tiers.map (Tier.reloaded reading writing) := by
    refine List.map_congr_left fun tier htier => ?_
    have hopen := h _ (mem_bodyPieces_of_tier htier List.mem_cons_self)
    refine Tier.reread_eq_reloaded hopen fun note hnote => ?_
    rw [Note.reread_eq (h (.openTag note.elementName note.attributes)
      (mem_bodyPieces_of_note htier hnote (by simp [Note.pieces]))), hvalues tier htier note hnote]
  rw [saved, media_reread_eq_reloaded h, hslots, htiers, kept]

/-- The pieces of a file are legible if its attribute values and the values of its annotations may
occur in a document. -/
theorem legible_of_allowed
    (h : ∀ piece ∈ document.bodyPieces writing, ∀ pair ∈ piece.attributes, Xml.Allowed pair.2)
    (hvalues : ∀ tier ∈ document.tiers, ∀ note ∈ tier.written writing, Xml.Allowed note.value) :
    ∀ piece ∈ document.bodyPieces writing, piece.Legible := by
  refine fun piece hpiece => ⟨h piece hpiece, ?_⟩
  rintro content rfl
  rcases text_mem_bodyPieces hpiece with rfl | rfl | ⟨tier, htier, note, hnote, rfl⟩
  · decide
  · intro c hc
    rw [counterText, String.toList_ofList] at hc
    exact (Xml.unbroken_of_isDigit (Numeral.isDigit_of_mem_write hc)).1
  · exact hvalues tier htier note hnote

/-- The counters of a document that was saved and reloaded. -/
def reloadedCounters (document : Document) (reading : ReadOptions) (writing : WriteOptions) :
    Counters :=
  let counters := ({} : Counters).raise .note document.counters.note
  if reading.resyncCounters then
    counters.observeAll (document.validSlots.map (·.id) ++
      idsOf (document.tiers.map (Tier.reloaded reading writing)))
  else counters

/-- How a document is reloaded from its file, if its texts read as they were written. -/
structure Reloads (document : Document) (reading : ReadOptions) (writing : WriteOptions)
    (again : Document) : Prop where
  media : again.media = document.media.reloaded
  slots : again.timeline.toList = document.validSlots
  tiers : again.tiers = document.tiers.map (Tier.reloaded reading writing)
  counters : again.counters = document.reloadedCounters reading writing

/-- A document whose texts read as they were written is reloaded from its file. -/
theorem exists_reloads (now : String) (htiers : document.tierIds.Nodup)
    (hauthor : Xml.Allowed writing.author) (hdate : Xml.Allowed (writing.date.getD now))
    (hbody : ∀ piece ∈ document.bodyPieces writing, ∀ pair ∈ piece.attributes, Unbroken pair.2)
    (hvalues : ∀ tier ∈ document.tiers, ∀ note ∈ tier.written writing,
      Xml.Allowed note.value ∧ rereadText note.value = note.value)
    (htimes : ∀ slot ∈ document.validSlots, SteadyTime slot.value) :
    ∃ imported, (empty.importText reading (document.toText writing now)).result = .ok imported ∧
      document.Reloads reading writing imported.document ∧
      imported.tally =
        { slots := document.validSlots.length
          duplicateSlots := 0
          unalignedSlots := 0
          tiers := document.tiers.length
          duplicateTiers := 0
          notes := (document.tiers.flatMap (·.written writing)).length } := by
  have hlegible := legible_of_allowed
    (fun piece hpiece pair hpair => (hbody piece hpiece pair hpair).allowed)
    fun tier htier note hnote => (hvalues tier htier note hnote).1
  obtain ⟨imported, hread, hdocument, htally⟩ :=
    exists_importText_toText empty reading hauthor hdate hlegible
  rw [rounded_eq_saved reading writing htimes] at hdocument htally
  have hsaved : document.saved reading writing = document.kept reading writing :=
    saved_eq_kept hbody fun tier htier note hnote => (hvalues tier htier note hnote).2
  have hids : (document.kept reading writing).tiers.map (·.id) = document.tierIds := by
    rw [kept, List.map_map]
    rfl
  obtain ⟨hmedia, hslots, hnew, hcounters, hcounts⟩ :=
    absorb_empty_of_nodup reading.resyncCounters (document.kept reading writing)
      document.nodup_validSlots (hids ▸ htiers)
  rw [hsaved] at hdocument htally
  rw [← hdocument] at hmedia hslots hnew hcounters
  refine ⟨imported, hread, ⟨hmedia, hslots, hnew, hcounters⟩, ?_⟩
  rw [htally, hcounts, kept, List.length_map, List.flatMap_map]
  simp [List.length_flatMap, Tier.reloaded]

/-- **Saving and reloading keeps a document.** Let the ids of its tiers be distinct, let no
attribute value of its file hold a character that may not occur, a tab or a part of a line end, let
no value of an annotation hold a character that may not occur or a carriage return, and let the
times that are written have at most 53 bits. Then the file is read into an empty document, and
makes it have the media, the valid slots in their order, the tiers in theirs with the annotations
that are written, and counters that are ahead of all ids; nothing is passed over. -/
theorem reload (document : Document) (reading : ReadOptions) (writing : WriteOptions)
    (now : String) (htiers : document.tierIds.Nodup)
    (hattributes : ∀ piece ∈ document.pieces writing now, ∀ pair ∈ piece.attributes,
      Unbroken pair.2)
    (hvalues : ∀ tier ∈ document.tiers, ∀ note ∈ tier.written writing,
      ∀ c ∈ note.value.toList, Xml.isAllowed c = true ∧ c ≠ '\r')
    (htimes : ∀ slot ∈ document.validSlots,
      -2 ^ 53 ≤ slot.value.toInt ∧ slot.value.toInt ≤ 2 ^ 53) :
    ∃ imported, (empty.importText reading (document.toText writing now)).result = .ok imported ∧
      imported.document.media = document.media.reloaded ∧
      imported.document.timeline.toList = document.validSlots ∧
      imported.document.tiers = document.tiers.map (Tier.reloaded reading writing) ∧
      imported.document.counters = document.reloadedCounters reading writing ∧
      imported.tally =
        { slots := document.validSlots.length
          duplicateSlots := 0
          unalignedSlots := 0
          tiers := document.tiers.length
          duplicateTiers := 0
          notes := (document.tiers.flatMap (·.written writing)).length } := by
  have hroot : ∀ pair ∈ rootAttributes writing now, Unbroken pair.2 :=
    hattributes (.openTag "ANNOTATION_DOCUMENT" (rootAttributes writing now)) (by simp [pieces])
  have hbody : ∀ piece ∈ document.bodyPieces writing, ∀ pair ∈ piece.attributes,
      Unbroken pair.2 := by
    intro piece hpiece
    refine hattributes piece ?_
    rw [pieces_eq, Xml.Markup.pieces, piecesOf_body]
    exact List.mem_cons_of_mem _ (List.mem_cons_of_mem _ (List.mem_append_left _ hpiece))
  obtain ⟨imported, hread, hreloads, htally⟩ := exists_reloads now htiers
    (hroot ("AUTHOR", writing.author) (by simp [rootAttributes])).allowed
    (hroot ("DATE", writing.date.getD now) (by simp [rootAttributes])).allowed hbody
    (fun tier htier note hnote =>
      ⟨fun c hc => (hvalues tier htier note hnote c hc).1,
        Xml.rereadText_eq_self fun c hc => (hvalues tier htier note hnote c hc).2⟩)
    fun slot hslot => steadyTime_of_le (htimes slot hslot).1 (htimes slot hslot).2
  exact ⟨imported, hread, hreloads.media, hreloads.slots, hreloads.tiers, hreloads.counters, htally⟩

/-- A document with a tier, an annotation with blanks around its value and a second tier that is
left empty. -/
theorem reload_of_new_document :
    let document := empty.run
      [.createTier "text" "en", .createTier "gloss" "en", .createNote "tier0" " word " 500 250]
    ∃ imported, (empty.importText {} (document.toText {} "2024-01-01")).result = .ok imported ∧
      imported.document.timeline.toList =
        [{ id := "ts1", value := 250 }, { id := "ts0", value := 500 }] ∧
      imported.document.tiers =
        [ { id := "tier0"
            linguisticType := "text"
            locale := some "en"
            notes := [{ id := "an0", value := "word", anchor := .aligned "ts0" "ts1" }] },
          { id := "tier1", linguisticType := "gloss", locale := some "en" } ] ∧
      imported.document.counters = { tier := 2, note := 1, timeSlot := 2 } := by
  intro document
  obtain ⟨imported, hread, -, hslots, htiers, hcounters, -⟩ :=
    reload document {} {} "2024-01-01" (by decide +kernel) (by decide +kernel) (by decide +kernel)
      (by decide +kernel)
  refine ⟨imported, hread, hslots.trans ?_, htiers.trans ?_, hcounters.trans ?_⟩ <;>
    decide +kernel

end Document

end Eaf

import Eaf.Proofs.FromFile
import Eaf.Proofs.Xml.SameText

/-!
# Normalising files

A file is normalised by reading it into the empty document and writing this one. The file that was
written can be read, and writing what is read gives the same text exactly if no attribute value of
it holds a tab or a part of a line end and every value of an annotation in it reads back: such
characters are not escaped, and a value is trimmed before its soft hyphens become spaces. Whatever
the file, what was normalised twice is normal.

## Main definitions

* `Eaf.Document.Normal` — documents whose files read back as they were written.

## Main results

* `Eaf.Document.Reloads.toText_eq` — a normal document has the file of what is read from its file.
* `Eaf.Document.normal_of_toText_eq` — a document with the file of one that was read is normal.
* `Eaf.Document.normalise` — normalising a file twice and three times.
-/

namespace Eaf

open Xml (Allowed Unbroken)

/-! ### What is written of a tier -/

/-- A text that may be missing stays as it is if it is not empty. -/
theorem filter_ne_empty {value : Option String} (h : value ≠ some "") :
    value.filter (· ≠ "") = value := by
  cases value with
  | none => rfl
  | some s =>
    have hne : s ≠ "" := fun hempty => h (hempty ▸ rfl)
    rw [Option.filter_some, if_pos (decide_eq_true hne)]

namespace Tier

variable {reading : ReadOptions} {writing : WriteOptions} {tier : Tier}

/-- A tier without the annotations that are not written. -/
def onlyWritten (writing : WriteOptions) (tier : Tier) : Tier :=
  { tier with notes := tier.written writing }

@[simp] theorem written_onlyWritten :
    (tier.onlyWritten writing).written writing = tier.written writing := by
  simp [written, onlyWritten]

theorem pieces_onlyWritten : (tier.onlyWritten writing).pieces writing = tier.pieces writing := by
  rw [pieces, written_onlyWritten]
  rfl

/-- A tier whose values read back is reloaded with the annotations that are written. -/
theorem reloaded_eq_onlyWritten (hparent : tier.parent ≠ some "")
    (hvalues : ∀ note ∈ tier.written writing, normalValue reading note.value = note.value) :
    tier.reloaded reading writing = tier.onlyWritten writing := by
  have hnotes : (tier.written writing).map (fun note : Note =>
      { note with value := normalValue reading note.value }) = tier.written writing := by
    refine (List.map_congr_left fun note hnote => ?_).trans (List.map_id _)
    rw [hvalues note hnote]
    rfl
  rw [reloaded, filter_ne_empty hparent, hnotes, onlyWritten]

end Tier

theorem Media.Spells.reloaded_eq {A : String → Prop} {media : Media} (h : media.Spells A) :
    media.reloaded = media := by
  have hsame {value : Option String} (hvalue : ∀ s ∈ value, A s ∧ s ≠ "") :
      value.filter (· ≠ "") = value :=
    filter_ne_empty fun hempty => (hvalue "" hempty).2 rfl
  rw [reloaded, hsame h.url, hsame h.mimeType, hsame h.file]

namespace Document

variable {document again : Document} {reading : ReadOptions} {writing : WriteOptions}

/-- No attribute value in the file of a document holds a tab or a part of a line end, and the
values of the annotations in it read back. -/
structure Normal (document : Document) (writing : WriteOptions) : Prop where
  attributes : ∀ piece ∈ document.bodyPieces writing, ∀ pair ∈ piece.attributes, Unbroken pair.2
  values : ∀ tier ∈ document.tiers, ∀ note ∈ tier.written writing, ReadsBack note.value

instance (document : Document) (writing : WriteOptions) : Decidable (document.Normal writing) :=
  decidable_of_iff
    ((∀ piece ∈ document.bodyPieces writing, ∀ pair ∈ piece.attributes, Unbroken pair.2) ∧
      ∀ tier ∈ document.tiers, ∀ note ∈ tier.written writing, ReadsBack note.value)
    ⟨fun h => ⟨h.1, h.2⟩, fun h => ⟨h.attributes, h.values⟩⟩

/-! ### The file of what is read from a file -/

section SameTiers

variable (htiers : again.tiers = document.tiers.map (Tier.onlyWritten writing))

include htiers

theorem notes_of_onlyWritten :
    again.notes =
      document.notes.filter fun note => note.isAligned || writing.includeReferring := by
  rw [notes, notes, htiers, List.flatMap_map, List.filter_flatMap]
  rfl

/-- Documents with the same written annotations declare the same types alike. -/
theorem typePieces_of_onlyWritten : again.typePieces writing = document.typePieces writing := by
  have hdeclared : again.declaredTypes = document.declaredTypes := by
    rw [declaredTypes, declaredTypes, htiers, List.map_map]
    rfl
  have haligned (type : String) :
      again.isTypeAligned writing type = document.isTypeAligned writing type := by
    have hwritten : again.writtenOfType writing type = document.writtenOfType writing type := by
      rw [writtenOfType, writtenOfType, htiers, List.filter_map, List.flatMap_map]
      simp only [Tier.written_onlyWritten]
      rfl
    rw [isTypeAligned, isTypeAligned, hwritten]
  have hpiece : again.typePiece writing = document.typePiece writing := by
    funext type
    rw [typePiece, typePiece, haligned]
  rw [typePieces, typePieces, hdeclared, hpiece]

end SameTiers

/-- The counter of annotation ids that a file records is past the ids in the file, if it is past
those of the document. -/
theorem FromFile.note_reloadedCounters (h : document.FromFile reading) :
    (document.reloadedCounters reading writing).note = document.counters.note := by
  unfold reloadedCounters
  have hraise := Counters.note_raise_empty document.counters.note
  split
  next hresync =>
    refine (Counters.note_observeAll_of_covers fun id hid n hn => ?_).trans hraise
    rw [hraise]
    refine h.covers hresync id ?_ n hn
    rcases List.mem_append.1 hid with hid | hid
    · obtain ⟨slot, hslot, rfl⟩ := List.mem_map.1 hid
      exact List.mem_append_left _
        (List.mem_map_of_mem (mem_timeline_of_mem_validSlots h.faithful hslot))
    · obtain ⟨_, hreloaded, hid⟩ := List.mem_flatMap.1 hid
      obtain ⟨tier, htier, rfl⟩ := List.mem_map.1 hreloaded
      refine List.mem_append_right _ (List.mem_flatMap.2 ⟨tier, htier, ?_⟩)
      rcases List.mem_cons.1 hid with rfl | hid
      · exact List.mem_cons_self
      · obtain ⟨_, hvalued, rfl⟩ := List.mem_map.1 hid
        obtain ⟨note, hnote, rfl⟩ := List.mem_map.1 hvalued
        exact List.mem_cons_of_mem _
          (List.mem_map.2 ⟨note, (List.mem_filter.1 hnote).1, rfl⟩)
  next => exact hraise

/-- The values of a normal document that was read are read as they are. -/
theorem FromFile.normalValue_eq (h : document.FromFile reading) (hnormal : document.Normal writing)
    {tier : Tier} (htier : tier ∈ document.tiers) {note : Note}
    (hnote : note ∈ tier.written writing) : normalValue reading note.value = note.value := by
  have hback := hnormal.values tier htier note hnote
  have hread := ((h.spells.tiers tier htier).notes note (List.mem_filter.1 hnote).1).value
  have hvalue := hback.normalValue_rereadText hread.hyphens
  rwa [rereadText_of_guarded hback.2] at hvalue

/-- A normal document has the file of what is reloaded from its file. -/
theorem Reloads.toText_eq (hreloads : document.Reloads reading writing again)
    (h : document.FromFile reading) (hagain : again.timeline.Faithful)
    (hnormal : document.Normal writing) (now : String) :
    again.toText writing now = document.toText writing now := by
  have htiers : again.tiers = document.tiers.map (Tier.onlyWritten writing) := by
    refine hreloads.tiers.trans (List.map_congr_left fun tier htier => ?_)
    exact Tier.reloaded_eq_onlyWritten (h.spells.tiers tier htier).parent
      fun note hnote => h.normalValue_eq hnormal htier hnote
  have hmedia : again.media = document.media :=
    hreloads.media.trans h.spells.media.reloaded_eq
  have hcounter : again.counters.note = document.counters.note := by
    rw [hreloads.counters, h.note_reloadedCounters]
  have hslots : again.validSlots = document.validSlots := by
    refine validSlots_eq h.faithful hagain hreloads.slots (notes_of_onlyWritten htiers) ?_
    intro note haligned
    rw [haligned, Bool.true_or]
  have hheader : again.headerPieces = document.headerPieces := by
    rw [headerPieces, headerPieces, hmedia, hcounter]
  have horder : again.timeOrderPieces = document.timeOrderPieces := by
    rw [timeOrderPieces, timeOrderPieces, hslots]
  have hpieces : again.tiers.flatMap (·.pieces writing) =
      document.tiers.flatMap (·.pieces writing) := by
    rw [htiers, List.flatMap_map]
    simp only [Tier.pieces_onlyWritten]
  rw [toText, toText, pieces, pieces, hheader, horder, hpieces, typePieces_of_onlyWritten htiers]

/-- Writing what is read from the file of a normal document gives the file. -/
theorem FromFile.exists_toText_eq (h : document.FromFile reading)
    (hnormal : document.Normal writing) (now : String) (hauthor : Allowed writing.author)
    (hdate : Allowed (writing.date.getD now)) :
    ∃ again, (empty.importText reading (document.toText writing now)).result = .ok again ∧
      ∀ later, again.document.toText writing later = document.toText writing later := by
  have hread (tier : Tier) (htier : tier ∈ document.tiers) (note : Note)
      (hnote : note ∈ tier.written writing) :
      Allowed note.value ∧ Xml.rereadText note.value = note.value :=
    ⟨((h.spells.tiers tier htier).notes note (List.mem_filter.1 hnote).1).value.allowed,
      rereadText_of_guarded (hnormal.values tier htier note hnote).2⟩
  obtain ⟨again, hagain, hreloads, -⟩ :=
    exists_reloads now h.tierIds hauthor hdate hnormal.attributes hread fun slot hslot =>
      (h.spells.slots slot (mem_timeline_of_mem_validSlots h.faithful hslot)).2
  exact ⟨again, hagain,
    fun later => hreloads.toText_eq h (fromFile_of_importText hagain).faithful hnormal later⟩

/-! ### Documents with the file of one that was read -/

/-- A document is normal if its attribute values are unbroken and its values read back. -/
theorem normal_of_spells (h : document.Spells Unbroken ReadsBack)
    (hfaithful : document.timeline.Faithful) : document.Normal writing where
  attributes := h.attributes_bodyPieces hfaithful fun _ hs => hs
  values tier htier note hnote :=
    ((h.tiers tier htier).notes note (List.mem_filter.1 hnote).1).value

theorem readsBack_counterText (document : Document) : ReadsBack document.counterText := by
  rw [ReadsBack, counterText, String.toList_ofList]
  refine ⟨Text.trim_eq_self_iff.1 (Numeral.trim_write _), guarded_of_not_mem fun c hc => ?_⟩
  have hdigit := Numeral.isDigit_of_mem_write hc
  rintro rfl
  exact absurd hdigit (by decide)

/-- A document with the file of a document that was written and read again is normal. -/
theorem normal_of_toText_eq (h : document.FromFile reading) (hagain : again.FromFile reading)
    (hspells : again.Spells Unbroken ReadsBack) {now : String} (hauthor : Allowed writing.author)
    (hdate : Allowed (writing.date.getD now))
    (heq : document.toText writing now = again.toText writing now) : document.Normal writing := by
  have hnormal : again.Normal writing := normal_of_spells hspells hagain.faithful
  rw [toText, toText, pieces_eq, pieces_eq] at heq
  have hname : Xml.PlainName "ANNOTATION_DOCUMENT" := by decide
  have hmarks := Xml.tokensOf_eq_of_write_eq hname (attributesFit_rootAttributes hauthor hdate)
    (fitsAll_body h.legible_bodyPieces) (fitsAll_body hagain.legible_bodyPieces) heq
  constructor
  · intro piece hpiece pair hpair
    rw [← piecesOf_body] at hpiece
    obtain ⟨other, hother, found, hfound, hsame⟩ :=
      Xml.exists_attribute_of_tokensOf_eq hmarks hpiece hpair
    rw [piecesOf_body] at hother
    exact hsame ▸ hnormal.attributes other hother found hfound
  · intro tier htier note hnote
    by_cases hempty : note.value = ""
    · rw [hempty]
      decide
    have hmem : .text note.value ∈ document.bodyPieces writing :=
      mem_bodyPieces_of_note htier hnote (by simp [Note.pieces])
    have hread := ((h.spells.tiers tier htier).notes note (List.mem_filter.1 hnote).1).value
    rw [← piecesOf_body] at hmem
    have hother := Xml.text_mem_of_tokensOf_eq hmarks hmem hempty hread.start
    rw [piecesOf_body] at hother
    rcases text_mem_bodyPieces hother with hurn | hcounter | ⟨tier, htier, other, hother, hsame⟩
    · rw [hurn]
      decide
    · rw [hcounter]
      exact readsBack_counterText again
    · rw [hsame]
      exact hnormal.values tier htier other hother

/-! ### Normalising -/

/-- The file of a document does not depend on the time of writing if the date in it is given. -/
theorem toText_eq_of_date {date : String} (h : writing.date = some date)
    (document : Document) (now later : String) :
    document.toText writing now = document.toText writing later := by
  rw [toText, toText, pieces, pieces, rootAttributes, rootAttributes, h]
  rfl

/-- The file of a document that a file alone makes is read as a normal document, which has the
same file exactly if the document was normal. -/
theorem FromFile.exists_normal (h : document.FromFile reading) {date : String}
    (hauthor : Allowed writing.author) (hfixed : writing.date = some date) (hdate : Allowed date)
    (now later : String) :
    ∃ again, (empty.importText reading (document.toText writing now)).result = .ok again ∧
      again.document.FromFile reading ∧ again.document.Normal writing ∧
      (again.document.toText writing later = document.toText writing now ↔
        document.Normal writing) := by
  have hallowed : Allowed (writing.date.getD now) := by
    rw [hfixed]
    exact hdate
  obtain ⟨again, hread, hagain, hspells⟩ := h.exists_again now hauthor hallowed
  refine ⟨again, hread, hagain, normal_of_spells hspells hagain.faithful, fun heq => ?_, ?_⟩
  · rw [toText_eq_of_date hfixed again.document later now] at heq
    exact normal_of_toText_eq h hagain hspells hauthor hallowed heq.symm
  · intro hnormal
    obtain ⟨other, hother, hsame⟩ := h.exists_toText_eq hnormal now hauthor hallowed
    obtain rfl : other = again := Except.ok.inj (hother.symm.trans hread)
    rw [hsame, toText_eq_of_date hfixed document later now]

/-- A file whose characters are read as a tree that passes a test is read. -/
theorem exists_importText_of_any {text : String} {cs : List Char} (htext : String.ofList cs = text)
    {p : Imported → Bool}
    (h : (((Xml.afterDeclaration? cs).bind Xml.tokens?).bind Xml.ofTokens?).any
      (fun root => (empty.importTree reading root).result.toOption.any p) = true) :
    ∃ imported, (empty.importText reading text).result = .ok imported ∧ p imported = true := by
  obtain ⟨root, hroot, h⟩ := (Option.any_eq_true _ _).1 h
  have hread : Xml.read? text = some root := by
    rw [← htext, Xml.read?, String.toList_ofList, hroot]
  rw [importText_of_read? hread]
  cases hresult : (empty.importTree reading root).result with
  | error fault =>
    rw [hresult] at h
    cases h
  | ok imported =>
    rw [hresult] at h
    exact ⟨imported, rfl, h⟩

/-- **Normalising a file.** Let a file be read into the empty document, let this one be written
with a given author and date, and let what was written be read and written again. Both readings
succeed, and the second text is the first one exactly if the document is normal: if no attribute
value of it holds a tab or a part of a line end, no value of an annotation in it begins or ends
with a blank, and every carriage return in such a value stands before a markup character. In any
case the second text is that of what is read from it. -/
theorem normalise (reading : ReadOptions) (writing : WriteOptions) {text date : String}
    {imported : Imported} (h : (empty.importText reading text).result = .ok imported)
    (hauthor : Allowed writing.author) (hfixed : writing.date = some date) (hdate : Allowed date)
    (now later last : String) :
    ∃ again third : Imported,
      (empty.importText reading (imported.document.toText writing now)).result = .ok again ∧
      (again.document.toText writing later = imported.document.toText writing now ↔
        imported.document.Normal writing) ∧
      (empty.importText reading (again.document.toText writing later)).result = .ok third ∧
      third.document.toText writing last = again.document.toText writing later := by
  obtain ⟨again, hread, hagain, hnormal, hiff⟩ :=
    (fromFile_of_importText h).exists_normal hauthor hfixed hdate now later
  obtain ⟨third, hreread, -, -, hsame⟩ :=
    hagain.exists_normal hauthor hfixed hdate later last
  exact ⟨again, third, hread, hiff, hreread, hsame.2 hnormal⟩

/-- A file in seconds whose slots are not in order, one of them without a time, and whose one value
has blanks around it and a soft hyphen in it. -/
def fileInSeconds : String :=
  "<ANNOTATION_DOCUMENT><HEADER><MEDIA_DESCRIPTOR/></HEADER>
    <TIME_ORDER><TIME_SLOT TIME_SLOT_ID='b' TIME_VALUE='2.5'/><TIME_SLOT TIME_SLOT_ID='c'/>
      <TIME_SLOT TIME_SLOT_ID='a' TIME_VALUE='0.25'/></TIME_ORDER>
    <TIER TIER_ID='words'>
      <ALIGNABLE_ANNOTATION ANNOTATION_ID='a1' TIME_SLOT_REF1='a' TIME_SLOT_REF2='b'>
        <ANNOTATION_VALUE> so\u00ADft </ANNOTATION_VALUE></ALIGNABLE_ANNOTATION></TIER>
  </ANNOTATION_DOCUMENT>"

set_option maxRecDepth 4000 in
/-- Such a file is normal once it was written. -/
theorem normalise_file_in_seconds :
    let writing : WriteOptions := { date := some "2024-01-01" }
    ∃ imported again : Imported, (empty.importText {} fileInSeconds).result = .ok imported ∧
      (empty.importText {} (imported.document.toText writing "")).result = .ok again ∧
      again.document.toText writing "" = imported.document.toText writing "" := by
  intro writing
  obtain ⟨imported, hread, hnormal⟩ :
      ∃ imported, (empty.importText {} fileInSeconds).result = .ok imported ∧
        decide (imported.document.Normal writing) = true :=
    exists_importText_of_any (show String.ofList _ = fileInSeconds from rfl) (by decide +kernel)
  obtain ⟨again, _, hagain, hiff, -⟩ :=
    normalise {} writing hread (by decide) rfl (by decide) "" "" ""
  exact ⟨imported, again, hread, hagain, hiff.2 (of_decide_eq_true hnormal)⟩

/-- A file with a soft hyphen at the end of a value. -/
def softHyphenFile : String :=
  "<ANNOTATION_DOCUMENT><HEADER TIME_UNITS='milliseconds'><MEDIA_DESCRIPTOR/></HEADER>
    <TIME_ORDER/>
    <TIER TIER_ID='words'>
      <ALIGNABLE_ANNOTATION ANNOTATION_ID='a' TIME_SLOT_REF1='s' TIME_SLOT_REF2='t'>
        <ANNOTATION_VALUE>word\u00AD</ANNOTATION_VALUE></ALIGNABLE_ANNOTATION></TIER>
  </ANNOTATION_DOCUMENT>"

set_option maxRecDepth 4000 in
/-- A soft hyphen at the end of a value becomes a space, and this is a blank to be trimmed when the
file is read again: normalising a second time gives another text. -/
theorem normalise_soft_hyphen_twice :
    let writing : WriteOptions := { date := some "2024-01-01" }
    ∃ imported again : Imported, (empty.importText {} softHyphenFile).result = .ok imported ∧
      (empty.importText {} (imported.document.toText writing "")).result = .ok again ∧
      again.document.toText writing "" ≠ imported.document.toText writing "" := by
  intro writing
  obtain ⟨imported, hread, hnormal⟩ :
      ∃ imported, (empty.importText {} softHyphenFile).result = .ok imported ∧
        decide (¬ imported.document.Normal writing) = true :=
    exists_importText_of_any (show String.ofList _ = softHyphenFile from rfl) (by decide +kernel)
  have hauthor : Allowed writing.author := by decide
  have hdate : Allowed "2024-01-01" := by decide
  obtain ⟨again, hagain, -, -, hiff⟩ :=
    (fromFile_of_importText hread).exists_normal hauthor rfl hdate "" ""
  exact ⟨imported, again, hread, hagain, fun heq => of_decide_eq_true hnormal (hiff.1 heq)⟩

end Document

end Eaf

import Eaf.Proofs.Readable

/-!
# Times of documents that were built

A document that was built is written with all its annotations and all slots between which they
stand, and ids and references read as they were written. So every annotation extends, after the
file was read, between the times that are read where its times were written: these are its times if
they are steady, and otherwise times at most 512 milliseconds away.

## Main results

* `Eaf.Document.Built.interval?_again` — extents in a document that has what a file says.
* `Eaf.Document.extents_of_builds` — extents after a document was saved and reloaded.
-/

namespace Eaf

open Xml (Allowed Unbroken rereadText)

/-- An extent after it was written and read. -/
def rereadExtent (extent : Int64 × Int64) : Int64 × Int64 :=
  (rereadTime extent.1, rereadTime extent.2)

/-- Exactly the extents between steady times are read back. -/
theorem rereadExtent_eq_self_iff {extent : Int64 × Int64} :
    rereadExtent extent = extent ↔ SteadyTime extent.1 ∧ SteadyTime extent.2 := by
  rw [rereadExtent, Prod.ext_iff, rereadTime_eq_self_iff, rereadTime_eq_self_iff]

namespace Document

variable {document again : Document} {reading : ReadOptions} {writing : WriteOptions}

namespace Built

/-- The annotations that are read are those of the document, with whatever values. -/
theorem notes_again (h : document.Built)
    (htiers : again.tiers = document.tiers.map (Tier.reread reading writing)) :
    again.notes = document.notes.map fun note =>
      { note with value := normalValue reading (rereadText note.value) } := by
  rw [Document.notes, Document.notes, htiers, List.flatMap_map, List.map_flatMap]
  refine List.flatMap_congr fun tier htier => ?_
  rw [Tier.reread, h.written_eq writing htier]
  refine List.map_congr_left fun note hnote => ?_
  exact Note.reread_eq (h.attributes_unbroken (List.mem_flatMap.2 ⟨tier, htier, hnote⟩))

/-- A slot in use is read under its id, with the time that is read where its time was written. -/
theorem slot?_again (h : document.Built) (hagain : again.timeline.Faithful)
    (hslots : again.timeline.toList = document.validSlots.map TimeSlot.rounded) {ref : String}
    {slot : TimeSlot} (hslot : document.slot? ref = some slot) (hused : slot ∈ document.usedSlots) :
    again.slot? ref = some { slot with value := rereadTime slot.value } := by
  obtain ⟨hmem, rfl⟩ := h.faithful.find?_eq_some_iff.1 hslot
  have hrounded : slot.rounded = { slot with value := rereadTime slot.value } := by
    rw [TimeSlot.rounded, Xml.rereadValue_eq_self (h.slots slot hmem)]
  refine hagain.find?_eq_some_iff.2 ⟨?_, rfl⟩
  rw [hslots, ← hrounded]
  exact List.mem_map_of_mem (mem_validSlots_of_mem_usedSlots h.faithful hused)

/-- In a document that has what a file says every annotation extends between the times that are
read where its times were written. -/
theorem interval?_again (h : document.Built) (hagain : again.timeline.Faithful)
    (hslots : again.timeline.toList = document.validSlots.map TimeSlot.rounded)
    (htiers : again.tiers = document.tiers.map (Tier.reread reading writing)) (id : String) :
    again.interval? id = (document.interval? id).map rereadExtent := by
  have hfind : again.note? id = (document.note? id).map fun note =>
      { note with value := normalValue reading (rereadText note.value) } := by
    rw [note?_eq_find?, note?_eq_find?, h.notes_again htiers, List.find?_map]
    rfl
  cases hnote : document.note? id with
  | none =>
    rw [hnote] at hfind
    rw [interval?_of_note?_eq_none hnote, interval?_of_note?_eq_none hfind]
    rfl
  | some note =>
    rw [hnote] at hfind
    have hmem := (note?_eq_some hnote).1
    obtain ⟨start, stop, first, last, hanchor, hfirst, hlast⟩ := h.exists_slots hmem
    have htarget : note.target? = none := by rw [Note.target?, hanchor]
    have hends := endpoints?_eq_some_iff.2 ⟨start, stop, hanchor, hfirst, hlast⟩
    obtain ⟨hfirstUsed, hlastUsed⟩ := mem_usedSlots_of_endpoints? hmem hends
    have hends' : again.endpoints?
        { note with value := normalValue reading (rereadText note.value) } = some _ :=
      endpoints?_eq_some_iff.2 ⟨start, stop, hanchor,
        h.slot?_again hagain hslots hfirst hfirstUsed,
        h.slot?_again hagain hslots hlast hlastUsed⟩
    rw [interval?_of_target?_eq_none hnote htarget, interval?_of_target?_eq_none hfind htarget,
      alignedInterval?, alignedInterval?, hends, hends']
    simp only [Option.map_some, rereadExtent]

/-- A document that was built is read from its file if its texts are of allowed characters, and its
annotations extend between the times that are read where its times were written. -/
theorem exists_again (h : document.Built) (htexts : ∀ text ∈ document.texts, Allowed text)
    (reading : ReadOptions) (writing : WriteOptions) (now : String)
    (hauthor : Allowed writing.author) (hdate : Allowed (writing.date.getD now)) :
    ∃ imported, (empty.importText reading (document.toText writing now)).result = .ok imported ∧
      ∀ id, imported.document.interval? id = (document.interval? id).map rereadExtent := by
  obtain ⟨imported, himported, hdocument, -⟩ :=
    exists_importText_toText empty reading hauthor hdate (h.legible_bodyPieces htexts)
  have hslotIds : (document.validSlots.map TimeSlot.rounded).map (·.id) =
      document.validSlots.map (·.id) := by
    rw [List.map_map]
    refine List.map_congr_left fun slot hslot => Xml.rereadValue_eq_self ?_
    exact h.slots slot (mem_timeline_of_mem_validSlots h.faithful hslot)
  have htierIds : (document.tiers.map (Tier.reread reading writing)).map (·.id) =
      document.tierIds := by
    rw [List.map_map]
    exact List.map_congr_left fun tier htier => Xml.rereadValue_eq_self (h.tiers tier htier).1
  obtain ⟨-, hslots, htiers, -, -⟩ := absorb_empty_of_nodup reading.resyncCounters
    (document.rounded reading writing) (hslotIds ▸ document.nodup_validSlots)
    (htierIds ▸ h.tierIds)
  rw [← hdocument] at hslots htiers
  refine ⟨imported, himported, h.interval?_again ?_ hslots htiers⟩
  rw [hdocument]
  exact absorb_faithful Timeline.faithful_empty _ _

end Built

/-- **A document that was built keeps its steady times.** Let it be written and read, its texts
being of allowed characters. An annotation that had no extent has none, and every other extends
between the times that are read where its times were written. It keeps its extent exactly if both
times are steady, which all times of at most 53 bits are; other times move by at most 512
milliseconds. -/
theorem extents_of_builds {acts : List Act} (hbuilds : ∀ act ∈ acts, act.Builds)
    (htexts : ∀ act ∈ acts, ∀ text ∈ act.texts, Allowed text) (reading : ReadOptions)
    (writing : WriteOptions) (now : String) (hauthor : Allowed writing.author)
    (hdate : Allowed (writing.date.getD now)) :
    let document := empty.run acts
    ∃ imported, (empty.importText reading (document.toText writing now)).result = .ok imported ∧
      ∀ id, (document.interval? id = none → imported.document.interval? id = none) ∧
        ∀ start stop, document.interval? id = some (start, stop) →
          imported.document.interval? id = some (rereadTime start, rereadTime stop) ∧
          (imported.document.interval? id = some (start, stop) ↔
            SteadyTime start ∧ SteadyTime stop) ∧
          ((rereadTime start).toInt - start.toInt).natAbs ≤ 512 ∧
          ((rereadTime stop).toInt - stop.toInt).natAbs ≤ 512 := by
  intro document
  have hallowed : ∀ text ∈ document.texts, Allowed text := by
    intro text htext
    obtain ⟨act, hact, hgiven⟩ := texts_of_builds hbuilds text htext
    exact htexts act hact text hgiven
  obtain ⟨imported, himported, hextents⟩ :=
    (built_of_builds hbuilds).exists_again hallowed reading writing now hauthor hdate
  refine ⟨imported, himported, fun id => ⟨fun hnone => ?_, fun start stop hsome => ?_⟩⟩
  · rw [hextents, hnone]
    rfl
  · have hextent : imported.document.interval? id = some (rereadExtent (start, stop)) := by
      rw [hextents, hsome, Option.map_some]
    refine ⟨hextent, ?_, rereadTime_near start, rereadTime_near stop⟩
    rw [hextent, Option.some_inj]
    exact rereadExtent_eq_self_iff

/-- Times at the ends of the range of integers of 64 bits are kept. -/
theorem extents_at_ends_of_range :
    let acts : List Act := [.createTier "text" "en",
      .createNote "tier0" "word" (-9223372036854775808) 9223372036854775807]
    let document := empty.run acts
    (∀ act ∈ acts, act.Builds) ∧ (∀ act ∈ acts, ∀ text ∈ act.texts, Allowed text) ∧
      Allowed "" ∧ Allowed "2024-01-01" ∧
      document.interval? "an0" = some (-9223372036854775808, 9223372036854775807) ∧
      ∃ imported, (empty.importText {} (document.toText {} "2024-01-01")).result = .ok imported ∧
        imported.document.interval? "an0" =
          some (-9223372036854775808, 9223372036854775807) := by
  intro acts document
  have hbuilds : ∀ act ∈ acts, act.Builds := by simp [acts, Act.Builds]
  have htexts : ∀ act ∈ acts, ∀ text ∈ act.texts, Allowed text := by decide +kernel
  have hextent : document.interval? "an0" =
      some (-9223372036854775808, 9223372036854775807) := by decide +kernel
  obtain ⟨imported, himported, hextents⟩ :=
    extents_of_builds hbuilds htexts {} {} "2024-01-01" (by decide) (by decide)
  have hmin : Int64.minValue = -9223372036854775808 := by decide
  have hsteady : SteadyTime (-9223372036854775808) ∧ SteadyTime 9223372036854775807 :=
    ⟨hmin ▸ steadyTime_minValue, Or.inl (by decide)⟩
  exact ⟨hbuilds, htexts, by decide, by decide, hextent, imported, himported,
    ((hextents "an0").2 _ _ hextent).2.1.2 hsteady⟩

/-- **Times of more than 53 bits are not kept.** The annotation begins one millisecond after a power
of two and ends two later, and after the file was read it begins earlier and ends later. -/
theorem extent_beyond_53_bits_moves :
    let acts : List Act := [.createTier "text" "en",
      .createNote "tier0" "word" 9007199254740993 9007199254740995]
    let document := empty.run acts
    (∀ act ∈ acts, act.Builds) ∧ (∀ act ∈ acts, ∀ text ∈ act.texts, Unbroken text) ∧
      document.interval? "an0" = some (9007199254740993, 9007199254740995) ∧
      ∃ imported, (empty.importText {} (document.toText {} "2024-01-01")).result = .ok imported ∧
        imported.document.interval? "an0" = some (9007199254740992, 9007199254740996) := by
  intro acts document
  have hbuilds : ∀ act ∈ acts, act.Builds := by simp [acts, Act.Builds]
  have hextent : document.interval? "an0" = some (9007199254740993, 9007199254740995) := by
    decide +kernel
  obtain ⟨imported, himported, hextents⟩ :=
    (built_of_builds hbuilds).exists_again (by decide +kernel) {} {} "2024-01-01" (by decide)
      (by decide)
  refine ⟨hbuilds, by decide +kernel, hextent, imported, himported, ?_⟩
  rw [hextents, hextent]
  decide +kernel

end Document

end Eaf

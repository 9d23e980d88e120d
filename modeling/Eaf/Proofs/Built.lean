import Eaf.Proofs.Capture
import Eaf.Proofs.Spelling

/-!
# Documents that were built

A document that was only built, by making tiers and annotations and assigning media, is as well
formed as a document can be. Its ids are numbered ones, so that a file says them as they are; no
tier has a parent, no annotation refers to another, and every annotation has its two slots. Its
other texts are those that were given to the acts that built it.

## Main definitions

* `Eaf.Act.texts`, `Eaf.Document.texts` — the texts that an act is given and that a document holds
  beside its ids and references.
* `Eaf.Document.Built` — what holds of documents that were built.

## Main results

* `Eaf.Document.texts_of_builds` — the texts of a document that was built.
* `Eaf.Document.built_of_builds` — what building preserves.
* `Eaf.Document.Built.exists_slots` — every annotation stands between two slots.
-/

namespace Eaf

open Xml (Unbroken)

/-! ### Texts -/

/-- The texts of media. -/
def Media.texts (media : Media) : List String :=
  media.url.toList ++ media.mimeType.toList ++ media.file.toList

/-- The texts of a tier, beside its ids and its annotations. -/
def Tier.texts (tier : Tier) : List String :=
  tier.linguisticType :: tier.locale.toList

/-- The texts of a document, beside its ids and references. -/
def Document.texts (document : Document) : List String :=
  document.media.texts ++ document.tiers.flatMap Tier.texts ++ document.notes.map (·.value)

/-- The texts that an act adds to a document that it builds on. -/
def Act.texts : Act → List String
  | .createTier linguisticType locale => [linguisticType, locale]
  | .createNote _ value _ _ => [value]
  | .assignMedia media => media.texts
  | _ => []

namespace Document

variable {document : Document} {created : Created} {acts : List Act}

/-- The texts of a document that was built were given to the acts that built it. -/
theorem texts_of_builds (hbuilds : ∀ act ∈ acts, act.Builds) :
    ∀ text ∈ (empty.run acts).texts, ∃ act ∈ acts, text ∈ act.texts := by
  have hgiven {texts : List String} {act : Act} (hact : act ∈ acts) (htexts : texts ⊆ act.texts) :
      ∀ text ∈ texts, ∃ act ∈ acts, text ∈ act.texts :=
    fun text htext => ⟨act, hact, htexts htext⟩
  refine build_induction (P := fun d => ∀ text ∈ d.texts, ∃ act ∈ acts, text ∈ act.texts) hbuilds
    (List.forall_mem_nil _) ?_ ?_ ?_
  · intro d linguisticType locale created hact hd hcreate
    obtain ⟨-, -, counters, hdocument⟩ := createTier_ok hcreate
    simp only [texts, List.forall_mem_append] at hd ⊢
    refine ⟨⟨by simpa [hdocument] using hd.1.1, ?_⟩, by simpa [hdocument, notes] using hd.2⟩
    simp only [hdocument, List.flatMap_append, List.flatMap_singleton]
    exact List.forall_mem_append.2 ⟨hd.1.2, hgiven hact fun _ => id⟩
  · intro d tierId value start stop created hact hd hcreate
    obtain ⟨_, _, -, -, -, -, before, rest, hold, hgrown⟩ := createNote_notes hcreate
    obtain ⟨_, _, -, -, -, -, front, tier, back, _, hsplit, -, -, hdocument⟩ :=
      createNote_ok hcreate
    have hmedia : created.document.media = d.media := createNote_media hcreate
    have htiers : created.document.tiers.flatMap Tier.texts = d.tiers.flatMap Tier.texts := by
      simp [hdocument, hsplit, Tier.append, Tier.texts]
    simp only [texts, List.forall_mem_append, hmedia, htiers, hold, hgrown, List.map_append,
      List.map_cons, List.forall_mem_cons] at hd ⊢
    exact ⟨hd.1, hd.2.1, ⟨_, hact, List.mem_singleton_self value⟩, hd.2.2⟩
  · intro d media hact hd
    simp only [texts, List.forall_mem_append] at hd ⊢
    exact ⟨⟨hgiven hact fun _ => id, hd.1.2⟩, hd.2⟩

/-! ### What building preserves -/

/-- A numbered id is read back as an attribute value. -/
theorem unbroken_number (family : IdFamily) (n : UInt64) : Unbroken (family.number n) := by
  have hstem : Unbroken family.stem := by cases family <;> decide
  intro c hc
  rw [IdFamily.number, String.toList_ofList, List.mem_append] at hc
  rcases hc with hc | hc
  · exact hstem c hc
  · exact Xml.unbroken_of_isDigit (Numeral.isDigit_of_mem_write hc)

/-- What holds of documents that were built. -/
structure Built (document : Document) : Prop where
  faithful : document.timeline.Faithful
  tierIds : document.tierIds.Nodup
  tiers : ∀ tier ∈ document.tiers, Unbroken tier.id ∧ tier.parent = none
  slots : ∀ slot ∈ document.timeline.toList, Unbroken slot.id
  notes : ∀ note ∈ document.notes, Unbroken note.id ∧ (document.endpoints? note).isSome

theorem built_empty : Built empty where
  faithful := Timeline.faithful_empty
  tierIds := List.nodup_nil
  tiers := List.forall_mem_nil _
  slots := List.forall_mem_nil _
  notes := List.forall_mem_nil _

theorem Built.createTier {linguisticType locale : String} (h : document.Built)
    (hcreate : document.createTier linguisticType locale = .ok created) :
    created.document.Built := by
  have htierIds := createTier_tierIds_nodup h.tierIds hcreate
  obtain ⟨⟨n, hid⟩, -, counters, hdocument⟩ := createTier_ok hcreate
  rw [hdocument] at htierIds ⊢
  refine ⟨h.faithful, htierIds, ?_, h.slots, ?_⟩
  · refine List.forall_mem_append.2 ⟨h.tiers, List.forall_mem_singleton.2 ⟨?_, rfl⟩⟩
    exact hid ▸ unbroken_number .tier n
  · have hnotes (tier : Tier) (hempty : tier.notes = []) :
        Document.notes { document with tiers := document.tiers ++ [tier], counters } =
          document.notes := by simp [Document.notes, hempty]
    rw [hnotes _ rfl]
    exact h.notes

/-- A slot that is found or made has an unbroken id if all slots have. -/
theorem slots_slotForTime {value : Int64} (h : ∀ slot ∈ document.timeline.toList, Unbroken slot.id)
    (hcreate : document.slotForTime value = .ok created) :
    ∀ slot ∈ created.document.timeline.toList, Unbroken slot.id := by
  obtain ⟨hdocument, -⟩ | ⟨⟨n, hid⟩, -, timeline, counters, hinsert, hdocument⟩ :=
    slotForTime_ok hcreate
  · rwa [hdocument]
  · rw [hdocument, Timeline.toList_insert? hinsert]
    exact List.forall_mem_append.2
      ⟨h, List.forall_mem_singleton.2 (hid ▸ unbroken_number .timeSlot n)⟩

/-- The two slots of an annotation stay its slots while a document grows. -/
theorem GrowsBy.endpoints?_isSome {grown : Document} {minted : Minted}
    (h : document.GrowsBy grown minted) {note : Note} (hsome : (document.endpoints? note).isSome) :
    (grown.endpoints? note).isSome := by
  obtain ⟨ends, hends⟩ := Option.isSome_iff_exists.1 hsome
  exact Option.isSome_iff_exists.2
    ⟨ends, endpoints?_eq_some_of_mono (fun _ _ => h.slot?_eq_some) hends⟩

/-- A new annotation stands among the others and has its two slots. -/
theorem createNote_endpoints? {tierId value : String} {start stop : Int64}
    (h : document.timeline.Faithful)
    (hcreate : document.createNote tierId value start stop = .ok created) :
    ∃ note before rest, note.id = created.id ∧ (created.document.endpoints? note).isSome ∧
      document.notes = before ++ rest ∧ created.document.notes = before ++ note :: rest := by
  obtain ⟨note, before, rest, hid, hextent, hold, hgrown⟩ := createNote_alignedInterval? h hcreate
  obtain ⟨ends, hends, -⟩ := Option.map_eq_some_iff.1 hextent
  exact ⟨note, before, rest, hid, Option.isSome_iff_exists.2 ⟨ends, hends⟩, hold, hgrown⟩

theorem Built.createNote {tierId value : String} {start stop : Int64} (h : document.Built)
    (hcreate : document.createNote tierId value start stop = .ok created) :
    created.document.Built := by
  obtain ⟨slots, hgrows⟩ := createNote_growsBy h.faithful hcreate
  obtain ⟨note, before, rest, hid, hends, hold, hgrown⟩ := createNote_endpoints? h.faithful hcreate
  obtain ⟨first, last, hfirst, hlast, ⟨n, hnumber⟩, -, front, tier, back, _, hsplit, -, -,
    hdocument⟩ := createNote_ok hcreate
  refine ⟨createNote_faithful h.faithful hcreate, createNote_tierIds hcreate ▸ h.tierIds, ?_, ?_,
    ?_⟩
  · have htiers := h.tiers
    rw [hsplit] at htiers
    rw [hdocument]
    simpa only [List.forall_mem_append, List.forall_mem_cons, Tier.append] using htiers
  · rw [hdocument]
    exact slots_slotForTime (slots_slotForTime h.slots hfirst) hlast
  · have hkept : ∀ other ∈ document.notes,
        Unbroken other.id ∧ (created.document.endpoints? other).isSome := fun other hother =>
      ⟨(h.notes other hother).1, hgrows.endpoints?_isSome (h.notes other hother).2⟩
    have hnew : Unbroken note.id ∧ (created.document.endpoints? note).isSome :=
      ⟨hid ▸ hnumber ▸ unbroken_number .note n, hends⟩
    rw [hold] at hkept
    rw [hgrown]
    simp only [List.forall_mem_append, List.forall_mem_cons] at hkept ⊢
    exact ⟨hkept.1, hnew, hkept.2⟩

/-- **Building keeps a document as well formed as the empty one.** -/
theorem built_of_builds (hbuilds : ∀ act ∈ acts, act.Builds) : (empty.run acts).Built :=
  build_induction (P := Built) hbuilds built_empty (fun _ _ _ _ _ hd => hd.createTier)
    (fun _ _ _ _ _ _ _ hd => hd.createNote)
    fun _ _ _ hd => ⟨hd.faithful, hd.tierIds, hd.tiers, hd.slots, hd.notes⟩

/-! ### The annotations of a document that was built -/

namespace Built

variable {note : Note}

/-- Every annotation stands between two slots. -/
theorem exists_slots (h : document.Built) (hnote : note ∈ document.notes) :
    ∃ start stop first last, note.anchor = .aligned start stop ∧
      document.slot? start = some first ∧ document.slot? stop = some last := by
  obtain ⟨⟨first, last⟩, hends⟩ := Option.isSome_iff_exists.1 (h.notes note hnote).2
  obtain ⟨start, stop, hslots⟩ := endpoints?_eq_some_iff.1 hends
  exact ⟨start, stop, first, last, hslots⟩

theorem unbroken_of_slot? (h : document.Built) {ref : String} {slot : TimeSlot}
    (href : document.slot? ref = some slot) : Unbroken ref := by
  obtain ⟨hmem, rfl⟩ := h.faithful.find?_eq_some_iff.1 href
  exact h.slots slot hmem

/-- The ids and references of an annotation are read back as attribute values. -/
theorem attributes_unbroken (h : document.Built) (hnote : note ∈ document.notes) :
    ∀ pair ∈ note.attributes, Unbroken pair.2 := by
  obtain ⟨start, stop, first, last, hanchor, hfirst, hlast⟩ := h.exists_slots hnote
  simp only [Note.attributes, hanchor, List.forall_mem_cons]
  exact ⟨(h.notes note hnote).1, h.unbroken_of_slot? hfirst, h.unbroken_of_slot? hlast,
    List.forall_mem_nil _⟩

/-- All annotations are written. -/
theorem written_eq (h : document.Built) (writing : WriteOptions) {tier : Tier}
    (htier : tier ∈ document.tiers) : tier.written writing = tier.notes := by
  refine List.filter_eq_self.2 fun note hnote => ?_
  obtain ⟨start, stop, _, _, hanchor, -, -⟩ :=
    h.exists_slots (List.mem_flatMap.2 ⟨tier, htier, hnote⟩)
  simp [Note.isAligned, Note.slotRefs?, hanchor]

end Built

end Document

end Eaf

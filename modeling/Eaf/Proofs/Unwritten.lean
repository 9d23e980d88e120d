import Eaf.Proofs.Discovery
import Eaf.Proofs.Findings

/-!
# References to slots that are not written

Two passes over the annotations look for references to slots that lead nowhere. A report lists
those to slots that do not exist. Writing a file also loses slots that do exist, when no annotation
extends between them and another one, so that the references to them lead nowhere in the file. Both
passes choose from one list, the references of all annotations in document order, and the choice of
a report is the narrower one: a slot that an annotation names next to a missing one may be in use
elsewhere.

## Main definitions

* `Eaf.Issue.missingSlot?` — the reference to a missing slot that a problem is about.
* `Eaf.Note.slotPairs`, `Eaf.Document.slotPairs` — the references to slots in document order.
* `Eaf.Document.Spans` — slots between which an annotation extends.

## Main results

* `Eaf.Document.mem_validSlotIds_iff` — which slots are written.
* `Eaf.Document.missingSlots_eq_filter` — which references a report lists, in order.
* `Eaf.Document.unwritten_of_report` — references that are not written, and what a report lists.
-/

namespace Eaf

/-- The reference to a missing slot that a problem is about, with the id of its annotation. -/
def Issue.missingSlot? : Issue → Option (String × String)
  | missingTimeSlot note slot => some (note, slot)
  | missingTarget _ _ => none
  | missingParentTier _ _ => none
  | invertedInterval _ _ _ => none
  | duplicateNoteId _ => none
  | referenceCycle _ => none

/-- The references of an annotation to slots, each with the id of the annotation. -/
def Note.slotPairs (note : Note) : List (String × String) :=
  match note.slotRefs? with
  | none => []
  | some (start, stop) => [(note.id, start), (note.id, stop)]

namespace Document

variable {document : Document} {note : Note} {id ref : String}

/-- The references of all annotations to slots, in document order. -/
def slotPairs (document : Document) : List (String × String) :=
  document.notes.flatMap Note.slotPairs

theorem mem_slotPairs_iff :
    (id, ref) ∈ document.slotPairs ↔ ∃ note ∈ document.notes, note.id = id ∧
      ∃ other, note.anchor = .aligned ref other ∨ note.anchor = .aligned other ref := by
  rw [slotPairs, List.mem_flatMap]
  refine exists_congr fun note => and_congr_right fun _ => ?_
  unfold Note.slotPairs Note.slotRefs?
  cases note.anchor with
  | refers target => simp
  | aligned start stop =>
    simp only [List.mem_cons, List.not_mem_nil, or_false, Prod.mk.injEq, Anchor.aligned.injEq]
    grind

/-! ### What is written -/

/-- An annotation extends between the slot of an id and another one: both slots exist. -/
def Spans (document : Document) (ref : String) : Prop :=
  ∃ note ∈ document.notes, ∃ start stop, note.anchor = .aligned start stop ∧
    (document.slot? start).isSome ∧ (document.slot? stop).isSome ∧ (ref = start ∨ ref = stop)

/-- The slots that are written are those between which annotations extend. -/
theorem mem_validSlotIds_iff (h : document.timeline.Faithful) :
    ref ∈ document.validSlots.map (·.id) ↔ document.Spans ref := by
  rw [List.mem_map]
  constructor
  · rintro ⟨slot, hslot, rfl⟩
    have hused := mem_of_mem_distinctBy TimeSlot.id ((StableSort.mem_sort _).1 hslot)
    obtain ⟨note, hnote, first, last, hends, hside⟩ := mem_usedSlots_iff.1 hused
    obtain ⟨start, stop, hanchor, hfirst, hlast⟩ := endpoints?_eq_some_iff.1 hends
    refine ⟨note, hnote, start, stop, hanchor, by rw [hfirst]; rfl, by rw [hlast]; rfl, ?_⟩
    rcases hside with rfl | rfl
    · exact Or.inl (h.id_of_find? hfirst)
    · exact Or.inr (h.id_of_find? hlast)
  · rintro ⟨note, hnote, start, stop, hanchor, hstart, hstop, hside⟩
    obtain ⟨first, hfirst⟩ := Option.isSome_iff_exists.1 hstart
    obtain ⟨last, hlast⟩ := Option.isSome_iff_exists.1 hstop
    have hends := endpoints?_eq_some_iff.2 ⟨start, stop, hanchor, hfirst, hlast⟩
    obtain ⟨hfirstUsed, hlastUsed⟩ := mem_usedSlots_of_endpoints? hnote hends
    rcases hside with rfl | rfl
    · exact ⟨first, mem_validSlots_of_mem_usedSlots h hfirstUsed, h.id_of_find? hfirst⟩
    · exact ⟨last, mem_validSlots_of_mem_usedSlots h hlastUsed, h.id_of_find? hlast⟩

theorem unwrittenSlotRefs_eq_filter (document : Document) :
    document.unwrittenSlotRefs =
      document.slotPairs.filter fun pair => pair.2 ∉ document.validSlots.map (·.id) := by
  rw [slotPairs, List.filter_flatMap, unwrittenSlotRefs]
  refine List.flatMap_congr fun note _ => ?_
  unfold Note.slotPairs
  cases note.slotRefs? with
  | none => rfl
  | some refs => exact List.filter_congr fun pair _ => by simp [-List.mem_map]

/-! ### What a report lists -/

/-- Of the problems of an anchor those of missing slots are about the references that dangle. -/
theorem missingSlots_anchorIssues (document : Document) (note : Note) :
    (document.anchorIssues note).filterMap Issue.missingSlot? =
      note.slotPairs.filter fun pair => document.slot? pair.2 = none := by
  unfold anchorIssues Note.slotPairs Note.slotRefs?
  cases note.anchor with
  | aligned start stop =>
    dsimp only [alignedIssues]
    cases hfirst : document.slot? start <;> cases hlast : document.slot? stop <;>
      simp [hfirst, hlast, Issue.missingSlot?]
  | refers target =>
    dsimp only [referringIssues]
    split
    · simp [Issue.missingSlot?]
    · split <;> simp [Issue.missingSlot?]

theorem missingSlots_noteIssues (document : Document) (seen : List String) (notes : List Note) :
    (document.noteIssues seen notes).filterMap Issue.missingSlot? =
      (notes.flatMap Note.slotPairs).filter fun pair => document.slot? pair.2 = none := by
  induction notes generalizing seen with
  | nil => rfl
  | cons note notes ih =>
    have hrepeated : (if seen.contains note.id then [Issue.duplicateNoteId note.id]
        else []).filterMap Issue.missingSlot? = [] := by
      split <;> rfl
    rw [noteIssues, List.filterMap_append, List.filterMap_append, hrepeated, List.nil_append,
      missingSlots_anchorIssues, ih, List.flatMap_cons, List.filter_append]

theorem missingSlots_tierIssues (document : Document) (seen : List String) (tiers : List Tier) :
    (document.tierIssues seen tiers).filterMap Issue.missingSlot? =
      ((tiers.flatMap (·.notes)).flatMap Note.slotPairs).filter fun pair =>
        document.slot? pair.2 = none := by
  induction tiers generalizing seen with
  | nil => rfl
  | cons tier tiers ih =>
    have hparent : (document.parentIssues tier).filterMap Issue.missingSlot? = [] := by
      refine List.filterMap_eq_nil_iff.2 fun issue hissue => ?_
      obtain ⟨parent, rfl⟩ := exists_of_mem_parentIssues hissue
      rfl
    rw [tierIssues, List.filterMap_append, List.filterMap_append, hparent, List.nil_append,
      missingSlots_noteIssues, ih, List.flatMap_cons, List.flatMap_append, List.filter_append]

/-- A report lists the references to slots that do not exist, in document order. -/
theorem missingSlots_eq_filter (document : Document) :
    document.report.issues.filterMap Issue.missingSlot? =
      document.slotPairs.filter fun pair => document.slot? pair.2 = none :=
  document.missingSlots_tierIssues [] document.tiers

/-! ### Both together -/

theorem slot?_isSome_iff (h : document.timeline.Faithful) :
    (document.slot? ref).isSome = true ↔ ref ∈ document.timeline.toList.map (·.id) := by
  rw [← not_iff_not, ← slot?_eq_none_iff h, Option.not_isSome_iff_eq_none]

theorem Spans.slot?_isSome (h : document.Spans ref) : (document.slot? ref).isSome := by
  obtain ⟨_, -, start, stop, -, hstart, hstop, rfl | rfl⟩ := h
  · exact hstart
  · exact hstop

/-- What a report lists is what is not written, but for the slots that exist. -/
theorem missingSlots_eq_filter_unwritten (h : document.timeline.Faithful) :
    document.report.issues.filterMap Issue.missingSlot? =
      document.unwrittenSlotRefs.filter fun pair => document.slot? pair.2 = none := by
  rw [missingSlots_eq_filter, unwrittenSlotRefs_eq_filter, List.filter_filter]
  refine List.filter_congr fun pair _ => ?_
  rw [← Bool.decide_and, decide_eq_decide, iff_self_and, mem_validSlotIds_iff h]
  intro hnone hspans
  have hsome := hspans.slot?_isSome
  rw [hnone] at hsome
  cases hsome

/-- An annotation that names a slot which is not written either names one that does not exist, or
names one at its other end. -/
theorem exists_missing_of_mem_slotPairs (hpair : (id, ref) ∈ document.slotPairs)
    (hspans : ¬ document.Spans ref) (hslot : (document.slot? ref).isSome = true) :
    ∃ note ∈ document.notes, note.id = id ∧ ∃ other, document.slot? other = none ∧
      (note.anchor = .aligned ref other ∨ note.anchor = .aligned other ref) := by
  obtain ⟨note, hnote, hid, other, hanchor⟩ := mem_slotPairs_iff.1 hpair
  refine ⟨note, hnote, hid, other, ?_, hanchor⟩
  rw [← Option.not_isSome_iff_eq_none]
  intro hother
  refine hspans ⟨note, hnote, ?_⟩
  rcases hanchor with hanchor | hanchor
  · exact ⟨ref, other, hanchor, hslot, hother, Or.inl rfl⟩
  · exact ⟨other, ref, hanchor, hother, hslot, Or.inr rfl⟩

/-- No reference goes unwritten exactly if no slot is missing. -/
theorem unwrittenSlotRefs_eq_nil_iff (h : document.timeline.Faithful) :
    document.unwrittenSlotRefs = [] ↔
      document.report.issues.filterMap Issue.missingSlot? = [] := by
  rw [missingSlots_eq_filter, unwrittenSlotRefs_eq_filter, List.filter_eq_nil_iff,
    List.filter_eq_nil_iff]
  simp only [decide_eq_true_eq, mem_validSlotIds_iff h]
  constructor
  · exact fun hall pair hpair hnone => hall pair hpair fun hspans => by
      simpa [hnone] using hspans.slot?_isSome
  · rintro hall ⟨id, ref⟩ hpair hspans
    have hslot : (document.slot? ref).isSome = true :=
      Option.isSome_iff_ne_none.2 (hall _ hpair)
    obtain ⟨note, hnote, hid, other, hother, hanchor⟩ :=
      exists_missing_of_mem_slotPairs hpair hspans hslot
    refine hall (note.id, other) (mem_slotPairs_iff.2 ⟨note, hnote, rfl, ref, ?_⟩) hother
    exact hanchor.symm

/-- **What is not written is what a report misses, and what stands next to it.** The references to
missing slots that a report lists are, in order and as often, those of the unwritten ones whose slot
does not exist. There is no unwritten reference exactly if the report misses no slot. The other
unwritten references are exactly those to slots that exist and between which no annotation extends,
on annotations whose other end is missing. -/
theorem unwritten_of_report (h : document.Reachable) :
    let slotIds := document.timeline.toList.map (·.id)
    let missing := document.report.issues.filterMap Issue.missingSlot?
    missing.Sublist document.unwrittenSlotRefs ∧
    missing = document.unwrittenSlotRefs.filter (fun pair => pair.2 ∉ slotIds) ∧
    (document.unwrittenSlotRefs = [] ↔
      ∀ id slot, .missingTimeSlot id slot ∉ document.report.issues) ∧
    ∀ id ref, (id, ref) ∈ document.unwrittenSlotRefs ∧ (id, ref) ∉ missing ↔
      ref ∈ slotIds ∧
      (¬ ∃ note ∈ document.notes, ∃ start stop, note.anchor = .aligned start stop ∧
        start ∈ slotIds ∧ stop ∈ slotIds ∧ (ref = start ∨ ref = stop)) ∧
      ∃ note ∈ document.notes, note.id = id ∧ ∃ other, other ∉ slotIds ∧
        (note.anchor = .aligned ref other ∨ note.anchor = .aligned other ref) := by
  intro slotIds missing
  have hfilter : missing = document.unwrittenSlotRefs.filter (fun pair => pair.2 ∉ slotIds) := by
    simp only [slotIds, ← slot?_eq_none_iff h.faithful]
    exact missingSlots_eq_filter_unwritten h.faithful
  refine ⟨hfilter ▸ List.filter_sublist, hfilter, ?_, fun id ref => ?_⟩
  · rw [unwrittenSlotRefs_eq_nil_iff h.faithful, List.filterMap_eq_nil_iff]
    constructor
    · exact fun hnone id slot hissue => nomatch hnone _ hissue
    · intro hnone issue hissue
      cases issue with
      | missingTimeSlot id slot => exact absurd hissue (hnone id slot)
      | _ => rfl
  · have hlisted : (id, ref) ∈ document.unwrittenSlotRefs ∧ (id, ref) ∉ missing ↔
        ((id, ref) ∈ document.slotPairs ∧ ¬ document.Spans ref) ∧ ref ∈ slotIds := by
      rw [hfilter, List.mem_filter, unwrittenSlotRefs_eq_filter, List.mem_filter]
      simp only [decide_eq_true_eq, mem_validSlotIds_iff h.faithful]
      tauto
    rw [hlisted]
    simp only [slotIds, ← slot?_isSome_iff h.faithful, Option.not_isSome_iff_eq_none]
    constructor
    · rintro ⟨⟨hpair, hspans⟩, hslot⟩
      exact ⟨hslot, hspans, exists_missing_of_mem_slotPairs hpair hspans hslot⟩
    · rintro ⟨hslot, hspans, note, hnote, hid, other, -, hanchor⟩
      exact ⟨⟨mem_slotPairs_iff.2 ⟨note, hnote, hid, other, hanchor⟩, hspans⟩, hslot⟩

/-- Of the slots that stand next to a missing one, one is in use elsewhere and is written, and one
is not. A report lists a missing slot as often as it is named. -/
theorem unwritten_of_report_shared_slot :
    let document := empty.run
      [ .createTier "text" "en", .createNote "tier0" "word" 100 250,
        .createNote "tier0" "word" 250 400,
        .editTier "tier0" fun tier =>
          { tier with
            notes :=
              [ { id := "whole", value := "word", anchor := .aligned "ts0" "ts1" },
                { id := "open", value := "word", anchor := .aligned "ts1" "none" },
                { id := "half", value := "word", anchor := .aligned "void" "ts2" },
                { id := "half", value := "word", anchor := .aligned "void" "ts0" } ] } ]
    document.Reachable ∧
      document.unwrittenSlotRefs =
        [("open", "none"), ("half", "void"), ("half", "ts2"), ("half", "void")] ∧
      document.report.issues.filterMap Issue.missingSlot? =
        [("open", "none"), ("half", "void"), ("half", "void")] ∧
      "ts2" ∈ document.timeline.toList.map (·.id) ∧ ("half", "ts0") ∉ document.unwrittenSlotRefs ∧
      ¬ ∀ id slot, .missingTimeSlot id slot ∉ document.report.issues := by
  intro document
  have hreachable : document.Reachable := ⟨_, rfl⟩
  obtain ⟨-, hfilter, hnone, hothers⟩ := unwritten_of_report hreachable
  have hunwritten : document.unwrittenSlotRefs =
      [("open", "none"), ("half", "void"), ("half", "ts2"), ("half", "void")] := by
    decide +kernel
  have hids : document.timeline.toList.map (·.id) = ["ts0", "ts1", "ts2"] := by decide +kernel
  rw [hids, hunwritten] at hfilter
  have hmissing : document.report.issues.filterMap Issue.missingSlot? =
      [("open", "none"), ("half", "void"), ("half", "void")] := hfilter
  have hother := (hothers "half" "ts2").1 (by rw [hunwritten, hmissing]; decide)
  refine ⟨hreachable, hunwritten, hmissing, hother.1, by rw [hunwritten]; decide, ?_⟩
  rw [← hnone, hunwritten]
  exact List.cons_ne_nil _ _

end Document

end Eaf

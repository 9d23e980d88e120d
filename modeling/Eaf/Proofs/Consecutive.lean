import Eaf.Proofs.Built
import Eaf.Proofs.CleanReport
import Eaf.Proofs.History

/-!
# Documents that are built from nothing

In a document that is built from nothing the counters stand where the numbers of the ids in use
end. So a new object takes the next number, and an act that is refused takes none: the tiers, the
slots and the annotations, each in the order in which they were made, are numbered without gaps.
A slot is made for a time only if there is none yet, and only for an annotation, so that times are
distinct and all slots are in use. Hence nothing is wrong with the references of such a document,
but for annotations that are asked to end before they start.

## Main definitions

* `Eaf.grantedTimes` — the times of the annotations that a run makes.
* `Eaf.Document.SlotsInLine`, `Eaf.Document.InLine` — what holds of documents that are built from
  nothing.

## Main results

* `Eaf.Document.InLine.after`, `Eaf.Document.InLine.run` — what an act and what a run preserves.
* `Eaf.Document.InLine.issues_perm` — the problems of a document that is built from nothing.
* `Eaf.Document.shape_of_builds` — the shape of documents that are built from nothing.
-/

namespace Eaf

/-! ### Numbers without gaps -/

/-- A counter that does not stand at the largest word goes up by one step. -/
theorem toNat_add_one {n : UInt64} {count : Nat} (hn : n.toNat = count)
    (hroom : count + 1 < UInt64.size) : (n + 1).toNat = count + 1 := by
  have hnext : (n + 1).toNat = (n.toNat + 1) % 18446744073709551616 := UInt64.toNat_add n 1
  have hsize : UInt64.size = 18446744073709551616 := rfl
  omega

/-! ### What acts ask for -/

/-- Whether an act makes a tier. -/
def Act.makesTier : Act → Bool
  | .createTier _ _ => true
  | _ => false

/-- The times of the annotation that an act makes, if so many tiers were made before: one is made on
any of these tiers, and none on another. -/
def Act.granted (tiers : Nat) : Act → List (Int64 × Int64)
  | .createNote tierId _ start stop =>
    if tierId ∈ IdFamily.tier.numbers tiers then [(start, stop)] else []
  | _ => []

/-- The times of the annotations that acts make one after another, if so many tiers were made
before. -/
def grantedTimes (tiers : Nat) : List Act → List (Int64 × Int64)
  | [] => []
  | act :: acts =>
    act.granted tiers ++ grantedTimes (tiers + if act.makesTier then 1 else 0) acts

/-- An act makes one object at most, but for slots. -/
theorem Act.granted_length_le (act : Act) (tiers : Nat) :
    (act.granted tiers).length + (if act.makesTier then 1 else 0) ≤ 1 := by
  cases act with
  | createNote tierId value start stop =>
    rw [granted]
    split <;> simp [makesTier]
  | _ => simp [granted, makesTier]

namespace Document

variable {document : Document} {created : Created} {value : Int64}

/-! ### Slots -/

/-- The slots of a document are numbered in the order in which they were made, and their times are
distinct. -/
structure SlotsInLine (document : Document) : Prop where
  faithful : document.timeline.Faithful
  ids : document.timeline.toList.map (·.id) = IdFamily.timeSlot.numbers document.timeline.size
  counter : document.counters.timeSlot.toNat = document.timeline.size
  values : (document.timeline.toList.map (·.value)).Nodup

/-- Slots stay in line if one is found or made for a time, and no slot is made but for that time. -/
theorem SlotsInLine.slotForTime (h : document.SlotsInLine)
    (hroom : document.timeline.size + 1 < UInt64.size)
    (hcreate : document.slotForTime value = .ok created) :
    created.document.SlotsInLine ∧
      created.document.timeline.size ≤ document.timeline.size + 1 ∧
      ∀ slot ∈ created.document.timeline.toList,
        slot ∈ document.timeline.toList ∨ slot.value = value := by
  have hfaithful := slotForTime_faithful h.faithful hcreate
  have hfree : document.timeline.contains
      (IdFamily.timeSlot.number (document.counters.get .timeSlot)) = false := by
    rw [← Bool.not_eq_true, h.faithful.contains_iff, h.ids]
    exact IdFamily.number_notMem_numbers h.counter
  obtain ⟨notices, hmint⟩ := Counters.mint?_of_free hfree
  rw [Document.slotForTime, hmint] at hcreate
  split at hcreate
  next =>
    cases hcreate
    exact ⟨h, Nat.le_succ _, fun _ => Or.inl⟩
  next hnone =>
    obtain ⟨timeline, hinsert⟩ := Timeline.insert?_of_not_contains
      { id := IdFamily.timeSlot.number (document.counters.get .timeSlot), value } hfree
    simp only [hinsert, Option.getD_some] at hcreate
    cases hcreate
    have hslots := Timeline.toList_insert? hinsert
    have hsize : timeline.size = document.timeline.size + 1 := Timeline.size_of_append hslots
    have hnew : value ∉ document.timeline.times := Timeline.findAt?_eq_none_iff.1 hnone
    refine ⟨⟨hfaithful, ?_, ?_, ?_⟩, hsize.le, fun slot hslot => ?_⟩
    · change timeline.toList.map (·.id) = IdFamily.timeSlot.numbers timeline.size
      rw [hslots, hsize, IdFamily.numbers_succ h.counter, List.map_append, h.ids]
      rfl
    · change (document.counters.timeSlot + 1).toNat = timeline.size
      rw [hsize]
      exact toNat_add_one h.counter hroom
    · change (timeline.toList.map (·.value)).Nodup
      rw [hslots, List.map_append, List.nodup_append_comm]
      exact List.nodup_cons.2 ⟨hnew, h.values⟩
    · change slot ∈ timeline.toList at hslot
      rw [hslots, List.mem_append, List.mem_singleton] at hslot
      exact hslot.imp_right (congrArg TimeSlot.value)

/-- Slots stay in line with a new annotation, and none are made but for its times. -/
theorem SlotsInLine.createNote (h : document.SlotsInLine)
    (hroom : document.timeline.size + 2 < UInt64.size) {tierId text : String} {start stop : Int64}
    (hcreate : document.createNote tierId text start stop = .ok created) :
    created.document.SlotsInLine ∧
      created.document.timeline.size ≤ document.timeline.size + 2 ∧
      ∀ slot ∈ created.document.timeline.toList,
        slot ∈ document.timeline.toList ∨ slot.value = start ∨ slot.value = stop := by
  obtain ⟨first, last, mint, hfirst, hlast, -, hmint, -, hcounters, htimeline, -⟩ :=
    createNote_minted hcreate
  obtain ⟨_, -, rfl⟩ := Option.map_eq_some_iff.1 hmint
  obtain ⟨hslots, hsize, hmade⟩ := h.slotForTime (by omega) hfirst
  obtain ⟨hslots', hsize', hmade'⟩ := hslots.slotForTime (by omega) hlast
  refine ⟨⟨createNote_faithful h.faithful hcreate, ?_, ?_, ?_⟩, ?_, fun slot hslot => ?_⟩
  · rw [htimeline]
    exact hslots'.ids
  · rw [htimeline, hcounters]
    exact hslots'.counter
  · rw [htimeline]
    exact hslots'.values
  · rw [htimeline]
    omega
  · rcases hmade' slot (htimeline ▸ hslot) with hslot | hstop
    · exact (hmade slot hslot).imp_right Or.inl
    · exact Or.inr (Or.inr hstop)

/-! ### Documents in line -/

/-- A document is in line with the number of tiers and the times of the annotations that were made
in it: all its objects are numbered from zero in the order in which they were made, slots have
distinct times and are in use, and annotations extend between the times that were asked for. -/
structure InLine (document : Document) (tiers : Nat) (times : List (Int64 × Int64)) : Prop where
  built : document.Built
  slots : document.SlotsInLine
  tierIds : document.tierIds = IdFamily.tier.numbers tiers
  tierCounter : document.counters.tier.toNat = tiers
  noteCounter : document.counters.note.toNat = times.length
  size_le : document.timeline.size ≤ 2 * times.length
  used : ∀ slot ∈ document.timeline.toList, slot ∈ document.usedSlots
  extents : (document.notes.map fun note => (note.id, document.alignedInterval? note)).Perm
    ((IdFamily.note.numbers times.length).zip (times.map some))

variable {tiers : Nat} {times : List (Int64 × Int64)}

theorem inLine_empty : InLine empty 0 [] where
  built := built_empty
  slots := ⟨Timeline.faithful_empty, rfl, rfl, List.nodup_nil⟩
  tierIds := rfl
  tierCounter := rfl
  noteCounter := rfl
  size_le := Nat.le_refl 0
  used := List.forall_mem_nil _
  extents := .refl _

theorem InLine.noteIds_perm (h : document.InLine tiers times) :
    (document.notes.map (·.id)).Perm (IdFamily.note.numbers times.length) := by
  have hperm := h.extents.map Prod.fst
  rw [List.map_map, List.map_fst_zip (by simp)] at hperm
  exact hperm

/-- A new tier takes the next number. -/
theorem InLine.createTier (h : document.InLine tiers times) (hroom : tiers + 1 < UInt64.size)
    (linguisticType locale : String) : ∃ created,
      document.createTier linguisticType locale = .ok created ∧
        created.document.InLine (tiers + 1) times := by
  have hfree : document.hasTier (IdFamily.tier.number (document.counters.get .tier)) = false := by
    rw [← Bool.not_eq_true, hasTier_iff, h.tierIds]
    exact IdFamily.number_notMem_numbers h.tierCounter
  obtain ⟨notices, hmint⟩ := Counters.mint?_of_free hfree
  obtain ⟨created, hcreate⟩ : ∃ created,
      document.createTier linguisticType locale = .ok created := by
    rw [Document.createTier, hmint]
    exact ⟨_, rfl⟩
  refine ⟨created, hcreate, ?_⟩
  have hbuilt := h.built.createTier hcreate
  rw [Document.createTier, hmint] at hcreate
  cases hcreate
  have hnotes (tier : Tier) (hempty : tier.notes = []) (counters : Counters) :
      Document.notes { document with tiers := document.tiers ++ [tier], counters } =
        document.notes := by simp [Document.notes, hempty]
  refine ⟨hbuilt, ⟨h.slots.faithful, h.slots.ids, h.slots.counter, h.slots.values⟩, ?_, ?_,
    h.noteCounter, h.size_le, ?_, ?_⟩
  · rw [IdFamily.numbers_succ h.tierCounter, ← h.tierIds]
    exact List.map_append
  · exact toNat_add_one h.tierCounter hroom
  · rw [usedSlots, hnotes _ rfl]
    exact h.used
  · rw [hnotes _ rfl]
    exact h.extents

/-- An annotation that had two slots has them also in a document that grew, and extends as
before. -/
theorem Built.alignedInterval?_eq (h : document.Built) {grown : Document} {minted : Minted}
    (hgrows : document.GrowsBy grown minted) {note : Note} (hnote : note ∈ document.notes) :
    grown.alignedInterval? note = document.alignedInterval? note := by
  obtain ⟨ends, hends⟩ := Option.isSome_iff_exists.1 (h.notes note hnote).2
  rw [alignedInterval?, alignedInterval?, hends,
    endpoints?_eq_some_of_mono (fun _ _ => hgrows.slot?_eq_some) hends]

/-- Slots that were in use still are in a document that grew. -/
theorem GrowsBy.usedSlots_subset {grown : Document} {minted : Minted}
    (hgrows : document.GrowsBy grown minted) (hnotes : document.notes ⊆ grown.notes) :
    document.usedSlots ⊆ grown.usedSlots := by
  intro slot hslot
  obtain ⟨note, hnote, first, last, hends, heq⟩ := mem_usedSlots_iff.1 hslot
  exact mem_usedSlots_iff.2 ⟨note, hnotes hnote, first, last,
    endpoints?_eq_some_of_mono (fun _ _ => hgrows.slot?_eq_some) hends, heq⟩

/-- A slot at the start or at the end of an annotation is in use, if times are distinct. -/
theorem SlotsInLine.mem_usedSlots (h : document.SlotsInLine) {note : Note} {start stop : Int64}
    (hnote : note ∈ document.notes) (hextent : document.alignedInterval? note = some (start, stop))
    {slot : TimeSlot} (hslot : slot ∈ document.timeline.toList)
    (hvalue : slot.value = start ∨ slot.value = stop) : slot ∈ document.usedSlots := by
  obtain ⟨⟨first, last⟩, hends, heq⟩ := Option.map_eq_some_iff.1 hextent
  obtain ⟨rfl, rfl⟩ := Prod.mk.inj heq
  obtain ⟨hfirst, hlast⟩ := mem_usedSlots_of_endpoints? hnote hends
  have hsame {other : TimeSlot} (hother : other ∈ document.usedSlots)
      (hvalue : slot.value = other.value) : slot ∈ document.usedSlots := by
    have hmem := mem_timeline_of_mem_usedSlots h.faithful hother
    exact List.inj_on_of_nodup_map h.values hslot hmem hvalue ▸ hother
  exact hvalue.elim (hsame hfirst) (hsame hlast)

/-- A new annotation takes the next number. -/
theorem InLine.createNote (h : document.InLine tiers times)
    (hroom : 2 * times.length + 2 < UInt64.size) {tierId : String}
    (htier : tierId ∈ IdFamily.tier.numbers tiers) (value : String) (start stop : Int64) :
    ∃ created, document.createNote tierId value start stop = .ok created ∧
      created.id = IdFamily.note.number document.counters.note ∧
      created.document.InLine tiers (times ++ [(start, stop)]) := by
  have hlength : document.notes.length = times.length := by
    simpa using h.noteIds_perm.length_eq
  have hsize := h.size_le
  obtain ⟨created, hcreate⟩ := exists_createNote h.slots.faithful (by omega) (by omega)
    (hasTier_iff.2 (h.tierIds ▸ htier)) value start stop
  obtain ⟨n, hn, hid, hcounter, -⟩ := createNote_mint hcreate
  have hfree : document.hasNote (IdFamily.note.number document.counters.note) = false := by
    rw [← Bool.not_eq_true, hasNote_iff, h.noteIds_perm.mem_iff]
    exact IdFamily.number_notMem_numbers h.noteCounter
  obtain rfl : document.counters.note = n :=
    Option.some.inj ((firstFree_of_free (by decide) hfree).symm.trans hn)
  refine ⟨created, hcreate, hid, ?_⟩
  obtain ⟨hslots, hgrowth, hmade⟩ := h.slots.createNote (by omega) hcreate
  obtain ⟨slots, hgrows⟩ := createNote_growsBy h.slots.faithful hcreate
  obtain ⟨note, before, rest, hnote, hextent, hold, hgrown⟩ :=
    createNote_alignedInterval? h.slots.faithful hcreate
  have hperm : created.document.notes.Perm (note :: document.notes) := by
    rw [hgrown, hold]
    exact List.perm_middle
  refine ⟨h.built.createNote hcreate, hslots, ?_, ?_, ?_, ?_, fun slot hslot => ?_, ?_⟩
  · rw [createNote_tierIds hcreate, h.tierIds]
  · rw [createNote_tier hcreate, h.tierCounter]
  · rw [hcounter, List.length_append]
    exact toNat_add_one h.noteCounter (by omega)
  · rw [List.length_append, List.length_singleton]
    omega
  · have hnotes : document.notes ⊆ created.document.notes := fun _ hmem =>
      hperm.mem_iff.2 (List.mem_cons_of_mem _ hmem)
    obtain hslotOld | hvalue := hmade slot hslot
    · exact hgrows.usedSlots_subset hnotes (h.used slot hslotOld)
    · exact hslots.mem_usedSlots (hperm.mem_iff.2 List.mem_cons_self) hextent hslot hvalue
  · have hkept :
        document.notes.map (fun note => (note.id, created.document.alignedInterval? note)) =
          document.notes.map fun note => (note.id, document.alignedInterval? note) :=
      List.map_congr_left fun other hother => by rw [h.built.alignedInterval?_eq hgrows hother]
    have hnumbers : (IdFamily.note.numbers times.length).length = (times.map some).length := by simp
    have hgranted := h.extents.cons (created.id, some (start, stop))
    refine (hperm.map _).trans ?_
    rw [List.map_cons, hkept, hnote, hextent, List.length_append, List.length_singleton,
      IdFamily.numbers_succ h.noteCounter, List.map_append, List.zip_append hnumbers, ← hid]
    exact hgranted.trans (List.perm_append_singleton _ _).symm

/-- Media are assigned without a trace in all this. -/
theorem InLine.assignMedia (h : document.InLine tiers times) (media : Media) :
    InLine { document with media } tiers times where
  built := ⟨h.built.faithful, h.built.tierIds, h.built.tiers, h.built.slots, h.built.notes⟩
  slots := ⟨h.slots.faithful, h.slots.ids, h.slots.counter, h.slots.values⟩
  tierIds := h.tierIds
  tierCounter := h.tierCounter
  noteCounter := h.noteCounter
  size_le := h.size_le
  used := h.used
  extents := h.extents

/-! ### Runs -/

/-- An act that builds keeps a document in line, and an annotation that it makes has the next
number. -/
theorem InLine.after (h : document.InLine tiers times) {act : Act} (hbuilds : act.Builds)
    (hfew : tiers + times.length + 1 < 2 ^ 63) :
    (document.after act).InLine (tiers + if act.makesTier then 1 else 0)
        (times ++ act.granted tiers) ∧
      IdFamily.note.numbers (times ++ act.granted tiers).length =
        IdFamily.note.numbers times.length ++
          (document.newNote? (.work act)).toList.map (·.id) := by
  have hsize : UInt64.size = 2 * 2 ^ 63 := rfl
  have hnone : IdFamily.note.numbers (times ++ []).length =
      IdFamily.note.numbers times.length ++ [] := by rw [List.append_nil, List.append_nil]
  cases act with
  | createTier linguisticType locale =>
    obtain ⟨created, hcreate, hline⟩ := h.createTier (by omega) linguisticType locale
    refine ⟨?_, hnone⟩
    change InLine (document.orKeep _ (document.createTier linguisticType locale)) (tiers + 1)
      (times ++ [])
    rw [hcreate, List.append_nil]
    exact hline
  | createNote tierId value start stop =>
    rw [Act.granted, Document.after, newNote?]
    by_cases htier : tierId ∈ IdFamily.tier.numbers tiers
    · obtain ⟨created, hcreate, hid, hline⟩ := h.createNote (by omega) htier value start stop
      rw [if_pos htier, hcreate]
      refine ⟨hline, ?_⟩
      rw [List.length_append, List.length_singleton, IdFamily.numbers_succ h.noteCounter, ← hid]
      rfl
    · have hmissing : ¬ document.hasTier tierId = true := by rwa [hasTier_iff, h.tierIds]
      rw [if_neg htier, Document.createNote, if_neg hmissing]
      exact ⟨(List.append_nil times).symm ▸ h, hnone⟩
  | assignMedia media => exact ⟨(List.append_nil times).symm ▸ h.assignMedia media, hnone⟩
  | read => cases hbuilds
  | readTree => cases hbuilds
  | editTier => cases hbuilds

/-- **A run that builds keeps a document in line**, and the annotations that it makes have the next
numbers. -/
theorem InLine.run {acts : List Act} (hbuilds : ∀ act ∈ acts, act.Builds)
    (h : document.InLine tiers times) (hfew : tiers + times.length + acts.length < 2 ^ 63) :
    (document.run acts).InLine (tiers + acts.countP Act.makesTier)
        (times ++ grantedTimes tiers acts) ∧
      IdFamily.note.numbers (times ++ grantedTimes tiers acts).length =
        IdFamily.note.numbers times.length ++
          (document.newNotes (acts.map .work)).map (·.id) := by
  induction acts generalizing document tiers times with
  | nil =>
    rw [grantedTimes, List.append_nil]
    exact ⟨h, (List.append_nil _).symm⟩
  | cons act acts ih =>
    obtain ⟨hact, hacts⟩ := List.forall_mem_cons.1 hbuilds
    rw [List.length_cons] at hfew
    obtain ⟨hafter, hnew⟩ := h.after hact (by omega)
    have hone := act.granted_length_le tiers
    obtain ⟨hline, hnumbers⟩ := ih hacts hafter (by rw [List.length_append]; omega)
    rw [grantedTimes, ← List.append_assoc, List.countP_cons, Nat.add_comm (acts.countP _),
      ← Nat.add_assoc, List.map_cons, newNotes, List.map_append, ← List.append_assoc, ← hnew]
    exact ⟨hline, hnumbers⟩

/-! ### Slots in use -/

/-- All slots are valid. -/
theorem InLine.validSlots_perm (h : document.InLine tiers times) :
    document.validSlots.Perm document.timeline.toList := by
  refine (List.perm_ext_iff_of_nodup (List.Nodup.of_map _ document.nodup_validSlots)
    (List.Nodup.of_map _ h.slots.values)).2 fun slot => ⟨?_, fun hslot => ?_⟩
  · exact mem_timeline_of_mem_validSlots h.slots.faithful
  · exact mem_validSlots_of_mem_usedSlots h.slots.faithful (h.used slot hslot)

/-- The times of valid slots increase. -/
theorem InLine.validSlots_increase (h : document.InLine tiers times) :
    document.validSlots.Pairwise (·.value < ·.value) := by
  have hsorted : document.validSlots.Pairwise
      (fun a b : TimeSlot => decide (a.value ≤ b.value) = true) :=
    StableSort.pairwise_sort (fun a b => by simpa using Int64.le_total a.value b.value)
      (fun a b c hab hbc => by simp at hab hbc ⊢; exact Int64.le_trans hab hbc) _
  have hdistinct : document.validSlots.Pairwise (·.value ≠ ·.value) :=
    List.pairwise_map.1 ((h.validSlots_perm.map _).nodup_iff.2 h.slots.values)
  refine (hsorted.and hdistinct).imp fun ⟨hle, hne⟩ => ?_
  exact Int64.lt_of_le_of_ne (of_decide_eq_true hle) hne

/-- Every reference to a slot is to a valid one. -/
theorem InLine.unwrittenSlotRefs_eq_nil (h : document.InLine tiers times) :
    document.unwrittenSlotRefs = [] := by
  refine List.flatMap_eq_nil_iff.2 fun note hnote => ?_
  obtain ⟨start, stop, first, last, hanchor, hfirst, hlast⟩ := h.built.exists_slots hnote
  obtain ⟨hfirstUsed, hlastUsed⟩ := mem_usedSlots_of_endpoints? hnote
    (endpoints?_eq_some_iff.2 ⟨start, stop, hanchor, hfirst, hlast⟩)
  have hwritten {ref : String} {slot : TimeSlot} (hslot : document.slot? ref = some slot)
      (hused : slot ∈ document.usedSlots) : ∃ valid ∈ document.validSlots, valid.id = ref :=
    ⟨slot, mem_validSlots_of_mem_usedSlots h.slots.faithful hused,
      h.slots.faithful.id_of_find? hslot⟩
  simpa [Note.slotRefs?, hanchor] using ⟨hwritten hfirst hfirstUsed, hwritten hlast hlastUsed⟩

/-! ### The report -/

/-- The problems of a document in line are that annotations were asked to end before they start, one
for each that was. -/
theorem InLine.issues_perm (h : document.InLine tiers times) :
    document.report.issues.Perm
      (((IdFamily.note.numbers times.length).zip times).flatMap fun (id, start, stop) =>
        if start ≤ stop then [] else [.invertedInterval id start stop]) := by
  have hparents : document.tiers.flatMap document.parentIssues = [] :=
    List.flatMap_eq_nil_iff.2 fun tier htier => by rw [parentIssues, (h.built.tiers tier htier).2]
  have hcount : times.length ≤ UInt64.size := h.noteCounter ▸ (UInt64.toNat_lt _).le
  have hids : repeated [] (document.notes.map (·.id)) = [] :=
    repeated_eq_nil_iff.2 ⟨h.noteIds_perm.nodup_iff.2 (IdFamily.nodup_numbers hcount),
      fun _ _ => List.not_mem_nil⟩
  let issues (extent : String × Option (Int64 × Int64)) : List Issue :=
    match extent with
    | (id, some (start, stop)) => if start ≤ stop then [] else [.invertedInterval id start stop]
    | (_, none) => []
  have hanchors : document.notes.flatMap document.anchorIssues =
      (document.notes.map fun note =>
        (note.id, document.alignedInterval? note)).flatMap issues := by
    rw [List.flatMap_map]
    refine List.flatMap_congr fun note hnote => ?_
    obtain ⟨⟨first, last⟩, hends⟩ := Option.isSome_iff_exists.1 (h.built.notes note hnote).2
    have hextent : document.alignedInterval? note = some (first.value, last.value) := by
      rw [alignedInterval?, hends, Option.map_some]
    rw [anchorIssues_of_alignedInterval? hextent, hextent]
  have hextents := h.extents.flatMap_right issues
  rw [← hanchors, List.zip_map_right, List.flatMap_map] at hextents
  have hperm := document.issues_perm
  rw [hparents, hids, List.map_nil, List.append_nil, List.nil_append] at hperm
  exact hperm.trans hextents

/-! ### The shape of documents that are built from nothing -/

/-- **Documents that are built from nothing have no gaps and no idle slots.** After every run of
fewer than 2 ^ 63 acts that make tiers and annotations, between any times, and assign media: the
tiers, the annotations in the order in which they were made, and the slots in the order in which
they were added have the numbers from zero on, however many acts were refused. There are as many
tiers as were asked for, and as many annotations as were asked for on tiers that had been made. The
times of slots are distinct, and each slot is one of the two between which some annotation stands.
So the valid slots are all slots, by increasing time, and no reference to a slot goes unwritten. The
report lists one problem for each annotation that was asked to end before it starts, with its id and
times, and nothing else. -/
theorem shape_of_builds {acts : List Act} (hbuilds : ∀ act ∈ acts, act.Builds)
    (hfew : acts.length < 2 ^ 63) :
    let document := empty.run acts
    let times := grantedTimes 0 acts
    document.tierIds = IdFamily.tier.numbers (acts.countP Act.makesTier) ∧
    (empty.newNotes (acts.map .work)).map (·.id) = IdFamily.note.numbers times.length ∧
    (document.notes.map (·.id)).Perm (IdFamily.note.numbers times.length) ∧
    document.timeline.toList.map (·.id) = IdFamily.timeSlot.numbers document.timeline.size ∧
    (document.timeline.toList.map (·.value)).Nodup ∧
    (∀ slot ∈ document.timeline.toList, ∃ note ∈ document.notes, ∃ first last,
      document.endpoints? note = some (first, last) ∧ (slot = first ∨ slot = last)) ∧
    document.validSlots.Perm document.timeline.toList ∧
    document.validSlots.Pairwise (·.value < ·.value) ∧
    document.unwrittenSlotRefs = [] ∧
    document.report.issues.Perm
      (((IdFamily.note.numbers times.length).zip times).flatMap fun (id, start, stop) =>
        if start ≤ stop then [] else [.invertedInterval id start stop]) := by
  intro document times
  obtain ⟨h, hnumbers⟩ := inLine_empty.run hbuilds (by simpa using hfew)
  rw [List.nil_append, Nat.zero_add] at h
  refine ⟨h.tierIds, hnumbers.symm, h.noteIds_perm, h.slots.ids, h.slots.values,
    fun slot hslot => mem_usedSlots_iff.1 (h.used slot hslot), h.validSlots_perm,
    h.validSlots_increase, h.unwrittenSlotRefs_eq_nil, h.issues_perm⟩

/-- Annotations are asked for on tiers that are not there yet, share slots, end before they start
and end where they start. -/
theorem shape_of_builds_with_refusals :
    let acts : List Act :=
      [ .createNote "tier0" "early" 0 10, .createTier "text" "en",
        .createNote "tier0" "word" 100 250, .createNote "tier1" "early" 1 2,
        .createNote "tier0" "back" 250 0, .createTier "gloss" defaultLocale,
        .createNote "tier1" "point" 250 250 ]
    let document := empty.run acts
    (∀ act ∈ acts, act.Builds) ∧ acts.length < 2 ^ 63 ∧
      grantedTimes 0 acts = [(100, 250), (250, 0), (250, 250)] ∧
      document.tierIds = ["tier0", "tier1"] ∧
      (empty.newNotes (acts.map .work)).map (·.id) = ["an0", "an1", "an2"] ∧
      document.validSlots.Perm document.timeline.toList ∧
      document.validSlots.Pairwise (·.value < ·.value) ∧ document.unwrittenSlotRefs = [] ∧
      document.report.issues = [.invertedInterval "an1" 250 0] := by
  intro acts document
  have hbuilds : ∀ act ∈ acts, act.Builds := by decide
  have htimes : grantedTimes 0 acts = [(100, 250), (250, 0), (250, 250)] := by decide +kernel
  obtain ⟨htiers, hnotes, -, -, -, -, hvalid, hincrease, hrefs, hissues⟩ :=
    shape_of_builds hbuilds (by decide)
  rw [htimes] at hnotes hissues
  have hproblems : ((IdFamily.note.numbers 3).zip [(100, 250), (250, 0), (250, 250)]).flatMap
      (fun (id, (start : Int64), (stop : Int64)) =>
        if start ≤ stop then [] else [Issue.invertedInterval id start stop]) =
      [.invertedInterval "an1" 250 0] := by decide +kernel
  refine ⟨hbuilds, by decide, htimes, htiers.trans (by decide +kernel),
    hnotes.trans (by decide +kernel), hvalid, hincrease, hrefs, ?_⟩
  exact List.perm_singleton.1 (hproblems ▸ hissues)

end Document

end Eaf

import Eaf.Proofs.Unwritten

/-!
# What is shown, and in which order

Annotations are shown with their extents, outer ones first. One that has no extent is not shown, and
one that stands several times in a document is shown as many times, so that what is shown is best
said by places: an annotation stands at a place of a tier, which has a place in the document. Every
place that holds an annotation with an extent is shown once; earlier starts come first, of equal
starts the later ends, and equal extents stand as their places do.

## Main definitions

* `Eaf.NotePlace` — where an annotation stands.
* `Eaf.Document.StandsAt` — the aligned annotation at a place, with the times of its slots.
* `Eaf.Document.placedAt` — the aligned annotations with an extent, each with its place.

## Main results

* `Eaf.Document.mem_placedAt_iff`, `Eaf.Document.pairwise_placedAt` — every place once, in order.
* `Eaf.Document.displayOrder_by_place` — what is shown, and in which order.
-/

namespace Eaf

/-- Where an annotation stands: the index of its tier in the document and its own in the tier. -/
structure NotePlace where
  tier : Nat
  note : Nat
  deriving DecidableEq, Repr

/-- A place comes before another in document order. -/
def NotePlace.Before (place other : NotePlace) : Prop :=
  place.tier < other.tier ∨ place.tier = other.tier ∧ place.note < other.note

namespace Document

variable {document : Document} {place : NotePlace} {placed other : Placed}

/-- At a place of a document stands an aligned annotation, in a tier, and both of the slots that it
names exist and hold the times of its extent. -/
structure StandsAt (document : Document) (place : NotePlace) (placed : Placed) : Prop where
  tier : document.tiers[place.tier]? = some placed.tier
  note : placed.tier.notes[place.note]? = some placed.note
  slots : ∃ ref ref', placed.note.anchor = .aligned ref ref' ∧
    { id := ref, value := placed.start } ∈ document.timeline.toList ∧
    { id := ref', value := placed.stop } ∈ document.timeline.toList

/-! ### Places -/

/-- The aligned annotations with an extent, in document order, each with its place. -/
def placedAt (document : Document) : List (NotePlace × Placed) :=
  document.tiers.zipIdx.flatMap fun (tier, i) =>
    tier.notes.zipIdx.filterMap fun (note, k) =>
      (document.alignedInterval? note).map fun (start, stop) =>
        ({ tier := i, note := k }, { tier, note, start, stop })

/-- Without the places these are the annotations that are shown. -/
theorem map_snd_placedAt (document : Document) :
    document.placedAt.map Prod.snd = document.placed := by
  have hnotes (tier : Tier) (i : Nat) :
      (tier.notes.zipIdx.filterMap fun (note, k) =>
        (document.alignedInterval? note).map fun (start, stop) =>
          (({ tier := i, note := k }, { tier, note, start, stop }) : NotePlace × Placed)).map
        Prod.snd =
      tier.notes.filterMap fun note =>
        (document.alignedInterval? note).map fun (start, stop) => { tier, note, start, stop } := by
    conv_rhs => rw [← List.zipIdx_map_fst 0 tier.notes, List.filterMap_map]
    rw [List.map_filterMap]
    refine List.filterMap_congr fun pair _ => ?_
    rw [Option.map_map]
    rfl
  rw [placedAt, placed, List.map_flatMap]
  conv_rhs => rw [← List.zipIdx_map_fst 0 document.tiers, List.flatMap_map]
  exact List.flatMap_congr fun pair _ => hnotes pair.1 pair.2

theorem mem_placedAt_iff (h : document.timeline.Faithful) :
    (place, placed) ∈ document.placedAt ↔ document.StandsAt place placed := by
  rw [placedAt, List.mem_flatMap]
  constructor
  · rintro ⟨⟨tier, i⟩, htier, hplaced⟩
    obtain ⟨⟨note, k⟩, hnote, hplaced⟩ := List.mem_filterMap.1 hplaced
    obtain ⟨⟨start, stop⟩, hextent, heq⟩ := Option.map_eq_some_iff.1 hplaced
    obtain ⟨rfl, rfl⟩ := Prod.mk.inj heq
    exact ⟨List.mem_zipIdx_iff_getElem?.1 htier, List.mem_zipIdx_iff_getElem?.1 hnote,
      (alignedInterval?_eq_some_iff h).1 hextent⟩
  · rintro ⟨htier, hnote, hslots⟩
    refine ⟨(placed.tier, place.tier), List.mem_zipIdx_iff_getElem?.2 htier,
      List.mem_filterMap.2 ⟨(placed.note, place.note), List.mem_zipIdx_iff_getElem?.2 hnote, ?_⟩⟩
    rw [Option.map_eq_some_iff]
    exact ⟨(placed.start, placed.stop), (alignedInterval?_eq_some_iff h).2 hslots, rfl⟩

/-- The numbers of a numbered list ascend. -/
theorem pairwise_snd_zipIdx {α : Type} (xs : List α) :
    xs.zipIdx.Pairwise fun a b => a.2 < b.2 := by
  have hpairwise := List.pairwise_map.1
    ((List.zipIdx_map_snd 0 xs).symm ▸ List.pairwise_lt_range' (s := 0) (n := xs.length))
  exact hpairwise

/-- Annotations stand in the order of their places. -/
theorem pairwise_placedAt (document : Document) :
    document.placedAt.Pairwise fun a b => a.1.Before b.1 := by
  rw [placedAt, List.pairwise_flatMap]
  refine ⟨fun pair _ => ?_, (pairwise_snd_zipIdx document.tiers).imp fun {a b} hlt x hx y hy => ?_⟩
  · refine List.pairwise_filterMap.2 ((pairwise_snd_zipIdx _).imp fun {a b} hlt x hx y hy => ?_)
    obtain ⟨_, -, rfl⟩ := Option.map_eq_some_iff.1 hx
    obtain ⟨_, -, rfl⟩ := Option.map_eq_some_iff.1 hy
    exact Or.inr ⟨rfl, hlt⟩
  · obtain ⟨_, -, hx⟩ := List.mem_filterMap.1 hx
    obtain ⟨_, -, hy⟩ := List.mem_filterMap.1 hy
    obtain ⟨_, -, rfl⟩ := Option.map_eq_some_iff.1 hx
    obtain ⟨_, -, rfl⟩ := Option.map_eq_some_iff.1 hy
    exact Or.inl hlt

theorem nodup_places (document : Document) : (document.placedAt.map Prod.fst).Nodup := by
  refine List.pairwise_map.2 (document.pairwise_placedAt.imp fun {a b} hbefore heq => ?_)
  rw [heq] at hbefore
  rcases hbefore with hlt | ⟨-, hlt⟩ <;> exact Nat.lt_irrefl _ hlt

/-! ### The order of extents -/

/-- An extent may be shown before another exactly if it starts earlier, or at the same time and does
not end earlier. -/
theorem Placed.mayPrecede_iff : placed.mayPrecede other = true ↔
    placed.start ≤ other.start ∧ (placed.start = other.start → other.stop ≤ placed.stop) := by
  simp only [mayPrecede, Bool.or_eq_true, Bool.and_eq_true, decide_eq_true_eq, beq_iff_eq]
  constructor
  · rintro (hlt | ⟨heq, hle⟩)
    · exact ⟨Int64.le_of_lt hlt, fun heq => absurd heq (Int64.ne_of_lt hlt)⟩
    · exact ⟨heq ▸ Int64.le_refl _, fun _ => hle⟩
  · rintro ⟨hle, hstop⟩
    rcases Int64.le_iff_lt_or_eq.1 hle with hlt | heq
    · exact Or.inl hlt
    · exact Or.inr ⟨heq, hstop heq⟩

/-- What is shown is what stands in the document, sorted by extents and then by places. -/
theorem exists_shown (document : Document) : ∃ shown : List (NotePlace × Placed),
    shown.map Prod.snd = document.displayOrder ∧ shown.Perm document.placedAt ∧
      shown.Pairwise fun a b => a.2.start ≤ b.2.start ∧ (a.2.start = b.2.start →
        b.2.stop ≤ a.2.stop ∧ (a.2.stop = b.2.stop → a.1.Before b.1)) := by
  refine ⟨StableSort.sort (fun a b => a.2.mayPrecede b.2) document.placedAt, ?_,
    StableSort.sort_perm _ _, ?_⟩
  · rw [displayOrder, ← map_snd_placedAt, StableSort.sort_map]
  · refine (StableSort.pairwise_sort_stable (fun a b => ?_) (fun a b c hab hbc => ?_)
      document.pairwise_placedAt).imp fun {a b} h => ?_
    · rw [Bool.or_eq_true, Placed.mayPrecede_iff, Placed.mayPrecede_iff]
      simp only [Int64.le_iff_toInt_le, ← Int64.toInt_inj]
      omega
    · rw [Placed.mayPrecede_iff] at hab hbc ⊢
      simp only [Int64.le_iff_toInt_le, ← Int64.toInt_inj] at hab hbc ⊢
      omega
    · obtain ⟨hle, hstable⟩ := h
      rw [Placed.mayPrecede_iff] at hle hstable
      refine ⟨hle.1, fun hstart => ⟨hle.2 hstart, fun hstop => hstable ⟨?_, fun _ => ?_⟩⟩⟩
      · exact hstart ▸ Int64.le_refl _
      · exact hstop ▸ Int64.le_refl _

/-- Of what is shown the slots are those that are written. -/
theorem mem_validSlotIds_iff_shown (h : document.timeline.Faithful) {id : String} :
    id ∈ document.validSlots.map (·.id) ↔ ∃ placed ∈ document.displayOrder, ∃ ref ref',
      placed.note.anchor = .aligned ref ref' ∧ (id = ref ∨ id = ref') := by
  rw [mem_validSlotIds_iff h]
  constructor
  · rintro ⟨note, hnote, start, stop, hanchor, hstart, hstop, hside⟩
    obtain ⟨first, hfirst⟩ := Option.isSome_iff_exists.1 hstart
    obtain ⟨last, hlast⟩ := Option.isSome_iff_exists.1 hstop
    obtain ⟨tier, htier, hnote⟩ := List.mem_flatMap.1 hnote
    have hends := endpoints?_eq_some_iff.2 ⟨start, stop, hanchor, hfirst, hlast⟩
    refine ⟨{ tier, note, start := first.value, stop := last.value },
      (StableSort.mem_sort _).2 (List.mem_flatMap.2 ⟨tier, htier, List.mem_filterMap.2
        ⟨note, hnote, ?_⟩⟩), start, stop, hanchor, hside⟩
    rw [alignedInterval?, hends]
    rfl
  · rintro ⟨placed, hplaced, ref, ref', hanchor, hside⟩
    obtain ⟨tier, htier, hplaced⟩ := List.mem_flatMap.1 ((StableSort.mem_sort _).1 hplaced)
    obtain ⟨note, hnote, hplaced⟩ := List.mem_filterMap.1 hplaced
    obtain ⟨extent, hextent, rfl⟩ := Option.map_eq_some_iff.1 hplaced
    obtain ⟨⟨first, last⟩, hends, -⟩ := Option.map_eq_some_iff.1 hextent
    obtain ⟨start, stop, hanchor', hfirst, hlast⟩ := endpoints?_eq_some_iff.1 hends
    obtain ⟨rfl, rfl⟩ := Anchor.aligned.inj (hanchor.symm.trans hanchor')
    exact ⟨note, List.mem_flatMap.2 ⟨tier, htier, hnote⟩, ref, ref', hanchor, by rw [hfirst]; rfl,
      by rw [hlast]; rfl, hside⟩

/-- **Every annotation with an extent is shown once, outer ones first.** What is shown belongs to
places of the document, and every place that holds an aligned annotation whose two slots exist has
its turn exactly once, with the tier, the annotation and the times of the slots. Starts ascend, of
equal starts the stops descend, and equal extents come in document order; so of two annotations that
start at the same time the longer one comes first. The slots that are named by what is shown are the
valid ones. -/
theorem displayOrder_by_place (h : document.Reachable) :
    (∃ shown : List (NotePlace × Placed), shown.map Prod.snd = document.displayOrder ∧
      (∀ place placed, (place, placed) ∈ shown ↔ document.StandsAt place placed) ∧
      (shown.map Prod.fst).Nodup ∧
      shown.Pairwise fun a b => a.2.start ≤ b.2.start ∧ (a.2.start = b.2.start →
        b.2.stop ≤ a.2.stop ∧ (a.2.stop = b.2.stop → a.1.Before b.1))) ∧
    (∀ (i j : Nat) (a b : Placed), document.displayOrder[i]? = some a →
      document.displayOrder[j]? = some b →
      a.start = b.start → b.stop.toInt - b.start.toInt < a.stop.toInt - a.start.toInt → i < j) ∧
    ∀ id, id ∈ document.validSlots.map (·.id) ↔ ∃ placed ∈ document.displayOrder, ∃ ref ref',
      placed.note.anchor = .aligned ref ref' ∧ (id = ref ∨ id = ref') := by
  obtain ⟨shown, hshown, hperm, horder⟩ := document.exists_shown
  refine ⟨⟨shown, hshown, fun place placed => ?_, ?_, horder⟩,
    fun i j a b ha hb hstart hlonger => ?_, fun id => mem_validSlotIds_iff_shown h.faithful⟩
  · rw [hperm.mem_iff, mem_placedAt_iff h.faithful]
  · exact (hperm.map Prod.fst).nodup_iff.2 document.nodup_places
  · have hextents : document.displayOrder.Pairwise fun a b =>
        a.start ≤ b.start ∧ (a.start = b.start → b.stop ≤ a.stop) :=
      hshown ▸ List.pairwise_map.2 (horder.imp fun h => ⟨h.1, fun heq => (h.2 heq).1⟩)
    by_contra hnot
    rcases Nat.lt_or_eq_of_le (Nat.not_lt.1 hnot) with hlt | rfl
    · obtain ⟨hi, rfl⟩ := List.getElem?_eq_some_iff.1 ha
      obtain ⟨hj, rfl⟩ := List.getElem?_eq_some_iff.1 hb
      have hstop := (List.pairwise_iff_getElem.1 hextents j i hj hi hlt).2 hstart.symm
      rw [Int64.le_iff_toInt_le] at hstop
      rw [hstart] at hlonger
      omega
    · obtain rfl := Option.some.inj (ha.symm.trans hb)
      exact Int.lt_irrefl _ hlonger

/-- An annotation that stands in two tiers is shown twice, in document order, behind a longer one of
the same start and in front of one that ends before it starts; one that lacks a slot is not shown,
and neither is the slot that it has. -/
theorem displayOrder_by_place_repeated :
    let document := empty.run
      [ .createTier "text" "en", .createNote "tier0" "word" 100 250,
        .createNote "tier0" "word" 400 550, .createTier "text" "en",
        .editTier "tier0" fun tier =>
          { tier with
            notes :=
              [ { id := "back", value := "word", anchor := .aligned "ts1" "ts0" },
                { id := "part", value := "word", anchor := .aligned "ts0" "ts1" },
                { id := "lost", value := "word", anchor := .aligned "ts3" "none" } ] },
        .editTier "tier1" fun tier =>
          { tier with
            notes :=
              [ { id := "part", value := "word", anchor := .aligned "ts0" "ts1" },
                { id := "whole", value := "word", anchor := .aligned "ts0" "ts2" } ] } ]
    document.Reachable ∧
      document.displayOrder.map (fun placed => (placed.tier.id, placed.note.id)) =
        [("tier1", "whole"), ("tier0", "part"), ("tier1", "part"), ("tier0", "back")] ∧
      (∃ shown : List (NotePlace × Placed), shown.map Prod.snd = document.displayOrder ∧
        ∀ place placed, (place, placed) ∈ shown ↔ document.StandsAt place placed) ∧
      "ts3" ∉ document.validSlots.map (·.id) := by
  intro document
  have hreachable : document.Reachable := ⟨_, rfl⟩
  obtain ⟨⟨shown, hshown, hplaces, -⟩, -, hslots⟩ := displayOrder_by_place hreachable
  refine ⟨hreachable, by decide +kernel, ⟨shown, hshown, hplaces⟩, ?_⟩
  have hnone : ∀ placed ∈ document.displayOrder, ∀ refs ∈ placed.note.slotRefs?.toList,
      "ts3" ≠ refs.1 ∧ "ts3" ≠ refs.2 := by
    decide +kernel
  rw [hslots]
  rintro ⟨placed, hplaced, ref, ref', hanchor, hside⟩
  have hrefs := hnone placed hplaced (ref, ref') (by simp [Note.slotRefs?, hanchor])
  exact hside.elim hrefs.1 hrefs.2

end Document

end Eaf

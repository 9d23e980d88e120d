import Eaf.Proofs.Elements
import Eaf.Proofs.Representation
import Eaf.Proofs.ValidSlots

/-!
# The order in which slots are found

The valid slots are found by going through the annotations in document order and looking at both
ends of every one that has two slots. Each slot is kept when it is met first, and the slots that are
kept are sorted by time. So slots of one time stand in the order in which they were met first. A
place of the document says where a slot is met: at the first or at the second end of one of the
annotations.

## Main definitions

* `Eaf.Document.MetAt` — the places at which a slot is met.
* `Eaf.Document.MetBefore` — slots that are met before others.

## Main results

* `Eaf.pairwise_distinctBy` — elements that are told apart by a key stand as they were met first.
* `Eaf.exists_place_of_flatMap_eq` — places in a list that is made of lists.
* `Eaf.Document.validSlots_by_discovery` — which slots are valid, and in which order they stand.
-/

namespace Eaf

/-! ### What is met first -/

section Distinct

variable {α κ : Type} [DecidableEq κ] (key : α → κ)

theorem pairwise_distinctAfter (seen : List κ) (xs : List α) :
    (distinctAfter key seen xs).Pairwise fun a b =>
      ∃ before after, xs = before ++ a :: after ∧ ∀ c ∈ before ++ [a], key c ≠ key b := by
  induction xs generalizing seen with
  | nil => exact .nil
  | cons x xs ih =>
    -- What is kept behind an element was not met at it.
    have hlater {seen : List κ} (hx : key x ∈ seen) :
        (distinctAfter key seen xs).Pairwise fun a b =>
          ∃ before after, x :: xs = before ++ a :: after ∧ ∀ c ∈ before ++ [a], key c ≠ key b := by
      refine (ih seen).imp_of_mem fun {a b} _ hb h => ?_
      obtain ⟨before, after, rfl, hbefore⟩ := h
      have hnew := ((distinctAfter_spec key seen _).2 b hb).1
      exact ⟨x :: before, after, rfl,
        List.forall_mem_cons.2 ⟨fun heq => hnew (heq ▸ hx), hbefore⟩⟩
    unfold distinctAfter
    split
    next hmet => exact hlater (List.contains_iff_mem.1 hmet)
    next =>
      refine List.pairwise_cons.2 ⟨fun b hb => ?_, hlater List.mem_cons_self⟩
      have hnew := ((distinctAfter_spec key _ _).2 b hb).1
      exact ⟨[], xs, rfl, List.forall_mem_singleton.2 fun heq => hnew (heq ▸ List.mem_cons_self)⟩

/-- Elements that are told apart by a key stand as they were met first: when one of them is met,
none that stands behind it was. -/
theorem pairwise_distinctBy (xs : List α) :
    (distinctBy key xs).Pairwise fun a b =>
      ∃ before after, xs = before ++ a :: after ∧ ∀ c ∈ before ++ [a], key c ≠ key b :=
  pairwise_distinctAfter key [] xs

end Distinct

/-- In a list that is made of lists every element has a place, and what has an earlier place stands
before it. -/
theorem exists_place_of_flatMap_eq {α β : Type} {f : α → List β} {xs : List α} {a : β}
    {before after : List β} (h : xs.flatMap f = before ++ a :: after) :
    ∃ (i k : Nat) (x : α), xs[i]? = some x ∧ (f x)[k]? = some a ∧
      ∀ (j l : Nat) (y : α) (b : β), xs[j]? = some y → (f y)[l]? = some b →
        j < i ∨ j = i ∧ l < k → b ∈ before := by
  induction xs generalizing before with
  | nil => simp at h
  | cons x xs ih =>
    rw [List.flatMap_cons, List.append_eq_append_iff] at h
    rcases h with ⟨rest, rfl, hrest⟩ | ⟨rest, hfirst, hrest⟩
    · obtain ⟨i, k, z, hz, ha, hearlier⟩ := ih hrest
      refine ⟨i + 1, k, z, hz, ha, ?_⟩
      rintro (_ | j) l y b hy hb hplace
      · obtain rfl := Option.some.inj hy
        exact List.mem_append_left rest (List.mem_of_getElem? hb)
      · exact List.mem_append_right _ (hearlier j l y b hy hb (by omega))
    · cases rest with
      | nil =>
        rw [List.append_nil] at hfirst
        have hrest : xs.flatMap f = [] ++ a :: after := hrest.symm
        obtain ⟨i, k, z, hz, ha, hearlier⟩ := ih hrest
        refine ⟨i + 1, k, z, hz, ha, ?_⟩
        rintro (_ | j) l y b hy hb hplace
        · obtain rfl := Option.some.inj hy
          exact hfirst ▸ List.mem_of_getElem? hb
        · exact absurd (hearlier j l y b hy hb (by omega)) List.not_mem_nil
      | cons first rest =>
        obtain ⟨rfl, -⟩ := List.cons.inj hrest
        refine ⟨0, before.length, x, rfl, by simp [hfirst], ?_⟩
        rintro j l y b hy hb (hj | ⟨rfl, hl⟩)
        · exact absurd hj (Nat.not_lt_zero j)
        · obtain rfl := Option.some.inj hy
          rw [hfirst, List.getElem?_append_left hl] at hb
          exact List.mem_of_getElem? hb

namespace Document

variable {document : Document} {slot : TimeSlot} {i side : Nat}

/-! ### Places -/

/-- A slot is met at a place: at the first end (0) or at the second end (1) of the annotation of an
index in document order, both ends of which are slots of the document. -/
inductive MetAt (document : Document) : TimeSlot → Nat → Nat → Prop
  | first {i : Nat} {note : Note} {start stop : String} {first last : TimeSlot}
      (hnote : document.notes[i]? = some note) (hanchor : note.anchor = .aligned start stop)
      (hfirst : document.slot? start = some first) (hlast : document.slot? stop = some last) :
      MetAt document first i 0
  | second {i : Nat} {note : Note} {start stop : String} {first last : TimeSlot}
      (hnote : document.notes[i]? = some note) (hanchor : note.anchor = .aligned start stop)
      (hfirst : document.slot? start = some first) (hlast : document.slot? stop = some last) :
      MetAt document last i 1

/-- The slots that are met at an annotation: its two slots, if both exist. -/
def slotsOf (document : Document) (note : Note) : List TimeSlot :=
  match document.endpoints? note with
  | some (first, last) => [first, last]
  | none => []

theorem usedSlots_eq_flatMap (document : Document) :
    document.usedSlots = document.notes.flatMap document.slotsOf :=
  rfl

theorem metAt_iff : document.MetAt slot i side ↔
    ∃ note, document.notes[i]? = some note ∧ (document.slotsOf note)[side]? = some slot := by
  constructor
  · intro h
    cases h with
    | first hnote hanchor hfirst hlast =>
      have hends := endpoints?_eq_some_iff.2 ⟨_, _, hanchor, hfirst, hlast⟩
      exact ⟨_, hnote, by rw [slotsOf, hends]; rfl⟩
    | second hnote hanchor hfirst hlast =>
      have hends := endpoints?_eq_some_iff.2 ⟨_, _, hanchor, hfirst, hlast⟩
      exact ⟨_, hnote, by rw [slotsOf, hends]; rfl⟩
  · rintro ⟨note, hnote, hslot⟩
    unfold slotsOf at hslot
    split at hslot
    next first last hends =>
      obtain ⟨_, _, hanchor, hfirst, hlast⟩ := endpoints?_eq_some_iff.1 hends
      match side with
      | 0 =>
        obtain rfl := Option.some.inj hslot
        exact .first hnote hanchor hfirst hlast
      | 1 =>
        obtain rfl := Option.some.inj hslot
        exact .second hnote hanchor hfirst hlast
      | side + 2 => cases hslot
    next => cases hslot

/-- A slot is in use exactly if it is met somewhere. -/
theorem mem_usedSlots_iff_metAt :
    slot ∈ document.usedSlots ↔ ∃ i side, document.MetAt slot i side := by
  rw [usedSlots_eq_flatMap, List.mem_flatMap]
  constructor
  · rintro ⟨note, hnote, hslot⟩
    obtain ⟨i, hi⟩ := List.mem_iff_getElem?.1 hnote
    obtain ⟨side, hside⟩ := List.mem_iff_getElem?.1 hslot
    exact ⟨i, side, metAt_iff.2 ⟨note, hi, hside⟩⟩
  · rintro ⟨i, side, hmet⟩
    obtain ⟨note, hi, hside⟩ := metAt_iff.1 hmet
    exact ⟨note, List.mem_of_getElem? hi, List.mem_of_getElem? hside⟩

/-- A slot is met before another if some place of the one comes before all places of the other. -/
def MetBefore (document : Document) (slot other : TimeSlot) : Prop :=
  ∃ i side, document.MetAt slot i side ∧
    ∀ j k, document.MetAt other j k → i < j ∨ i = j ∧ side < k

/-- The slots in use stand as they are met first when they are told apart by their ids. -/
theorem pairwise_metBefore (document : Document) :
    (distinctBy TimeSlot.id document.usedSlots).Pairwise document.MetBefore := by
  refine (pairwise_distinctBy TimeSlot.id document.usedSlots).imp fun {slot other} h => ?_
  obtain ⟨before, after, hused, hnew⟩ := h
  rw [usedSlots_eq_flatMap] at hused
  obtain ⟨i, side, note, hnote, hslot, hearlier⟩ := exists_place_of_flatMap_eq hused
  refine ⟨i, side, metAt_iff.2 ⟨note, hnote, hslot⟩, fun j k hother => ?_⟩
  obtain ⟨note', hnote', hslot'⟩ := metAt_iff.1 hother
  rcases Nat.lt_trichotomy i j with hlt | rfl | hgt
  · exact Or.inl hlt
  · rcases Nat.lt_trichotomy side k with hlt | rfl | hgt
    · exact Or.inr ⟨rfl, hlt⟩
    · obtain rfl := Option.some.inj (hnote.symm.trans hnote')
      obtain rfl := Option.some.inj (hslot.symm.trans hslot')
      exact absurd rfl (hnew slot (by simp))
    · have hmem := hearlier i k note' other hnote' hslot' (Or.inr ⟨rfl, hgt⟩)
      exact absurd rfl (hnew other (List.mem_append_left _ hmem))
  · have hmem := hearlier j k note' other hnote' hslot' (Or.inl hgt)
    exact absurd rfl (hnew other (List.mem_append_left _ hmem))

/-! ### Valid slots -/

/-- There are no more valid slots than slots. -/
theorem length_validSlots_le (hfaithful : document.timeline.Faithful) :
    document.validSlots.length ≤ document.timeline.size := by
  have hnodup : document.validSlots.Nodup := .of_map _ document.nodup_validSlots
  have hsubset : document.validSlots ⊆ document.timeline.toList :=
    fun _ => mem_timeline_of_mem_validSlots hfaithful
  rw [← Timeline.length_toList]
  exact (hnodup.subperm hsubset).length_le

/-- **The valid slots are those that are met, each once, by time and then as they are met first.**
A slot is met at both ends of every annotation that has two slots. Valid slots are slots of the
document and have distinct ids, their times ascend, and of two with the same time the one in front
is met before the other. So there are at most as many as there are slots, and the slots that are
not written are the rest. -/
theorem validSlots_by_discovery (h : document.Reachable) :
    (∀ slot, slot ∈ document.validSlots ↔ ∃ i side, document.MetAt slot i side) ∧
    document.validSlots ⊆ document.timeline.toList ∧
    (document.validSlots.map (·.id)).Nodup ∧
    document.validSlots.Pairwise (fun a b =>
      a.value ≤ b.value ∧ (a.value = b.value → document.MetBefore a b)) ∧
    document.validSlots.length ≤ document.timeline.size ∧
    document.prunedSlots + document.validSlots.length = document.timeline.size := by
  have hle := length_validSlots_le h.faithful
  refine ⟨fun slot => ?_, fun _ => mem_timeline_of_mem_validSlots h.faithful,
    document.nodup_validSlots, ?_, hle, Nat.sub_add_cancel hle⟩
  · rw [← mem_usedSlots_iff_metAt]
    refine ⟨fun hslot => ?_, mem_validSlots_of_mem_usedSlots h.faithful⟩
    exact mem_of_mem_distinctBy TimeSlot.id ((StableSort.mem_sort _).1 hslot)
  · refine (StableSort.pairwise_sort_stable ?_ ?_ document.pairwise_metBefore).imp ?_
    · exact fun a b => by simpa using Int64.le_total a.value b.value
    · exact fun a b c hab hbc => by simp at hab hbc ⊢; exact Int64.le_trans hab hbc
    · rintro a b ⟨hab, hstable⟩
      refine ⟨of_decide_eq_true hab, fun heq => hstable ?_⟩
      exact decide_eq_true (heq ▸ Int64.le_refl _)

/-- A file with two slots of one time, which are met in the other order than they are listed, and
a slot at which only an annotation stands that names another slot in vain. -/
def sharedTimesFile : Xml.Node :=
  Outline.root
    { slots := [("b", some "2"), ("a", some "2"), ("half", some "1"), ("z", some "0")]
      tiers := [tierElement "words" none
        [ alignedElement "first" "z" "a" none, alignedElement "gone" "half" "none" none,
          alignedElement "second" "b" "z" none ]] }

/-- Of two slots of one time the one that is met before the other comes first, although it is listed
behind it, and a slot that is named next to one that does not exist is not written. -/
theorem validSlots_by_discovery_shared_times :
    let document := empty.run [.readTree {} sharedTimesFile]
    document.Reachable ∧ document.validSlots.map (·.id) = ["z", "a", "b"] ∧
      document.MetBefore { id := "a", value := 2000 } { id := "b", value := 2000 } ∧
      (¬ ∃ i side, document.MetAt { id := "half", value := 1000 } i side) ∧
      document.prunedSlots = 1 := by
  intro document
  have hreachable : document.Reachable := ⟨_, rfl⟩
  obtain ⟨hmet, -, -, horder, -, hsizes⟩ := validSlots_by_discovery hreachable
  have hslots : document.validSlots =
      [{ id := "z", value := 0 }, { id := "a", value := 2000 }, { id := "b", value := 2000 }] := by
    decide +kernel
  have hsize : document.timeline.size = 4 := by decide +kernel
  rw [hslots, hsize] at hsizes
  rw [hslots, List.pairwise_cons, List.pairwise_pair] at horder
  refine ⟨hreachable, by rw [hslots]; rfl, horder.2.2 rfl, ?_, Nat.add_right_cancel hsizes⟩
  rw [← hmet, hslots]
  decide

end Document

end Eaf

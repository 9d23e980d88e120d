import Mathlib.Data.List.Nodup
import Eaf.Document.Import

/-!
# The positions of a timeline

A timeline keeps the position of every id beside its slots. The positions are *faithful* when
they say exactly where each id stands: no id is missing, no key is superfluous, none is stale.
Every timeline that grows from the empty one by insertions has faithful positions, and a look-up
in it is the search through its slots.

## Main definitions

* `Eaf.Timeline.Faithful` — the positions of a timeline are those of its slots.
* `Eaf.Timeline.times` — the times that the slots hold.

## Main results

* `Eaf.Timeline.Faithful.nodup` — the ids of the slots are distinct.
* `Eaf.Timeline.Faithful.find?_eq` — a look-up finds the first slot with an id.
* `Eaf.Timeline.Faithful.insert?`, `Eaf.Timeline.Faithful.insertNew` — insertions keep positions
  faithful.
* `Eaf.Timeline.Faithful.find?_insertNew` — a look-up after the insertion of a list.
-/

namespace Eaf.Timeline

/-- The positions of a timeline say exactly where each id stands. -/
def Faithful (timeline : Timeline) : Prop :=
  ∀ (id : String) (i : Nat),
    timeline.positions[id]? = some i ↔ timeline.slots[i]?.map (·.id) = some id

variable {timeline extended : Timeline} {slot : TimeSlot} {id : String}

theorem length_toList (timeline : Timeline) : timeline.toList.length = timeline.size :=
  Array.length_toList

/-- A timeline that has more slots at its end is larger by their number. -/
theorem size_of_append {added : List TimeSlot}
    (h : extended.toList = timeline.toList ++ added) :
    extended.size = timeline.size + added.length := by
  rw [← length_toList, h, List.length_append, length_toList]

theorem faithful_empty : Faithful {} := by
  intro id i
  simp

namespace Faithful

/-- The ids of the slots are distinct. -/
theorem nodup (h : timeline.Faithful) : (timeline.toList.map (·.id)).Nodup := by
  refine List.nodup_iff_getElem?_ne_getElem?.2 fun i j hij hj heq => ?_
  simp only [toList, List.length_map, Array.length_toList] at hj
  simp only [toList, List.getElem?_map, Array.getElem?_toList] at heq
  have hslot : timeline.slots[j]?.map (·.id) = some timeline.slots[j].id := by
    rw [Array.getElem?_eq_getElem hj, Option.map_some]
  have hi := (h _ i).2 (heq.trans hslot)
  have hj' := (h _ j).2 hslot
  rw [hi] at hj'
  exact absurd (Option.some.inj hj') (Nat.ne_of_lt hij)

/-- No position is out of range. -/
theorem lt_size (h : timeline.Faithful) {i : Nat} (hi : timeline.positions[id]? = some i) :
    i < timeline.slots.size := by
  obtain ⟨_, hslot, -⟩ := Option.map_eq_some_iff.1 ((h id i).1 hi)
  exact (Array.getElem?_eq_some_iff.1 hslot).1

/-- A slot that is found has the id under which it was looked up. -/
theorem id_of_find? (h : timeline.Faithful) (hfind : timeline.find? id = some slot) :
    slot.id = id := by
  obtain ⟨i, hi, hslot⟩ := Option.bind_eq_some_iff.1 hfind
  simpa [hslot] using (h id i).1 hi

/-- A look-up finds a slot exactly if the slot is in the timeline and has the id. -/
theorem find?_eq_some_iff (h : timeline.Faithful) :
    timeline.find? id = some slot ↔ slot ∈ timeline.toList ∧ slot.id = id := by
  constructor
  · intro hfind
    obtain ⟨i, -, hslot⟩ := Option.bind_eq_some_iff.1 hfind
    exact ⟨Array.mem_toList_iff.2 (Array.mem_of_getElem? hslot), h.id_of_find? hfind⟩
  · rintro ⟨hmem, rfl⟩
    obtain ⟨i, hi⟩ := Array.mem_iff_getElem?.1 (Array.mem_toList_iff.1 hmem)
    have hpos := (h slot.id i).2 (by rw [hi, Option.map_some])
    rw [Timeline.find?, hpos, Option.bind_some, hi]

/-- A look-up by id is the search for the first slot with the id. -/
theorem find?_eq (h : timeline.Faithful) (id : String) :
    timeline.find? id = timeline.toList.find? (·.id == id) := by
  cases hsearch : timeline.toList.find? (·.id == id) with
  | some slot =>
    have hid : slot.id = id := by simpa using List.find?_some hsearch
    exact h.find?_eq_some_iff.2 ⟨List.mem_of_find?_eq_some hsearch, hid⟩
  | none =>
    refine Option.eq_none_iff_forall_ne_some.2 fun slot hslot => ?_
    obtain ⟨hmem, hid⟩ := h.find?_eq_some_iff.1 hslot
    exact List.find?_eq_none.1 hsearch slot hmem (by simpa using hid)

theorem contains_iff (h : timeline.Faithful) :
    timeline.contains id = true ↔ id ∈ timeline.toList.map (·.id) := by
  rw [Timeline.contains, Std.TreeMap.contains_eq_isSome_getElem?, Option.isSome_iff_exists]
  constructor
  · rintro ⟨i, hi⟩
    obtain ⟨slot, hslot, hid⟩ := Option.map_eq_some_iff.1 ((h id i).1 hi)
    exact List.mem_map.2 ⟨slot, Array.mem_toList_iff.2 (Array.mem_of_getElem? hslot), hid⟩
  · intro hmem
    obtain ⟨slot, hslot, rfl⟩ := List.mem_map.1 hmem
    obtain ⟨i, hi⟩ := Array.mem_iff_getElem?.1 (Array.mem_toList_iff.1 hslot)
    exact ⟨i, (h slot.id i).2 (by rw [hi, Option.map_some])⟩

theorem find?_eq_none_iff (h : timeline.Faithful) :
    timeline.find? id = none ↔ timeline.contains id = false := by
  rw [← Bool.not_eq_true, h.contains_iff, Option.eq_none_iff_forall_ne_some]
  constructor
  · intro hnone hmem
    obtain ⟨slot, hslot, hid⟩ := List.mem_map.1 hmem
    exact hnone slot (h.find?_eq_some_iff.2 ⟨hslot, hid⟩)
  · intro hmem slot hslot
    obtain ⟨hslot, hid⟩ := h.find?_eq_some_iff.1 hslot
    exact hmem (List.mem_map.2 ⟨slot, hslot, hid⟩)

end Faithful

/-! ### Times -/

/-- The times of the slots, in the order of the slots. -/
def times (timeline : Timeline) : List Int64 :=
  timeline.toList.map (·.value)

/-- There is no slot at a time exactly if no slot holds it. -/
theorem findAt?_eq_none_iff {value : Int64} :
    timeline.findAt? value = none ↔ value ∉ timeline.times := by
  rw [findAt?, ← Array.find?_toList, List.find?_eq_none, times, List.mem_map]
  constructor
  · rintro hnone ⟨slot, hslot, rfl⟩
    exact hnone slot hslot (by simp)
  · intro hmem slot hslot heq
    exact hmem ⟨slot, hslot, by simpa using heq⟩

/-! ### Insertions -/

theorem insert?_eq_none_iff : timeline.insert? slot = none ↔ timeline.contains slot.id = true := by
  unfold insert?
  split <;> simp_all

theorem insert?_of_not_contains (slot : TimeSlot) (h : timeline.contains slot.id = false) :
    ∃ extended, timeline.insert? slot = some extended := by
  rw [← Option.ne_none_iff_exists']
  simp [insert?_eq_none_iff, h]

/-- An insertion keeps positions faithful. -/
theorem Faithful.insert? (h : timeline.Faithful) (hinsert : timeline.insert? slot = some extended) :
    extended.Faithful := by
  have hfree : timeline.contains slot.id = false := by
    rw [← Bool.not_eq_true, ← insert?_eq_none_iff, hinsert]
    simp
  have hnone : timeline.positions[slot.id]? = none := by
    rw [Timeline.contains, Std.TreeMap.contains_eq_isSome_getElem?] at hfree
    exact Option.isNone_iff_eq_none.1 (by rw [← Option.not_isSome, hfree]; rfl)
  rw [Timeline.insert?, if_neg (by simp [hfree])] at hinsert
  obtain rfl := Option.some.inj hinsert
  intro id i
  dsimp only
  rw [Std.TreeMap.getElem?_insert, Array.getElem?_push]
  by_cases hid : slot.id = id
  · subst hid
    rw [if_pos (by simp)]
    by_cases hi : i = timeline.slots.size
    · simp [hi]
    · rw [if_neg hi, ← h slot.id i, hnone]
      simp [Ne.symm hi]
  · rw [if_neg (by simpa using hid)]
    by_cases hi : i = timeline.slots.size
    · rw [if_pos hi, Option.map_some, h id i, hi]
      simp [hid]
    · rw [if_neg hi, h id i]

/-- After an insertion the new slot is found under its id, and every other id names what it
named before. -/
theorem Faithful.find?_insert? (h : timeline.Faithful)
    (hinsert : timeline.insert? slot = some extended) (id : String) :
    extended.find? id = if id = slot.id then some slot else timeline.find? id := by
  have hextended := h.insert? hinsert
  rw [hextended.find?_eq, h.find?_eq, toList_insert? hinsert, List.find?_append]
  have hfree : slot.id ∉ timeline.toList.map (·.id) := by
    have hnodup := hextended.nodup
    rw [toList_insert? hinsert, List.map_append, List.nodup_append] at hnodup
    intro hmem
    exact hnodup.2.2 _ hmem slot.id (by simp) rfl
  by_cases hid : id = slot.id
  · subst hid
    have hnone : timeline.toList.find? (·.id == slot.id) = none := by
      refine List.find?_eq_none.2 fun other hother heq => hfree ?_
      exact List.mem_map.2 ⟨other, hother, by simpa using heq⟩
    simp [hnone]
  · have hne : (slot.id == id) = false := by simpa using Ne.symm hid
    simp [hid, hne]

theorem Faithful.insertNew (h : timeline.Faithful) (slots : List TimeSlot) :
    (timeline.insertNew slots).1.Faithful := by
  induction slots generalizing timeline with
  | nil => exact h
  | cons slot rest ih =>
    unfold Timeline.insertNew
    split
    next extended hinsert => exact ih (h.insert? hinsert)
    next => exact ih h

/-- After the insertion of a list an id names what it named before, or else the first slot of the
list with the id. -/
theorem Faithful.find?_insertNew (h : timeline.Faithful) (slots : List TimeSlot) (id : String) :
    (timeline.insertNew slots).1.find? id =
      (timeline.find? id).or (slots.find? (·.id == id)) := by
  induction slots generalizing timeline with
  | nil => simp [Timeline.insertNew]
  | cons slot rest ih =>
    rw [List.find?_cons]
    unfold Timeline.insertNew
    split
    next extended hinsert =>
      have hfree : timeline.find? slot.id = none := by
        rw [h.find?_eq_none_iff, ← Bool.not_eq_true, ← insert?_eq_none_iff, hinsert]
        exact Option.some_ne_none _
      dsimp only
      rw [ih (h.insert? hinsert), h.find?_insert? hinsert]
      by_cases hid : id = slot.id
      · subst hid
        simp [hfree]
      · have hne : (slot.id == id) = false := beq_false_of_ne (Ne.symm hid)
        rw [if_neg hid, hne]
    next hnone =>
      rw [ih h]
      have htaken : timeline.find? slot.id ≠ none := by
        rw [Ne, h.find?_eq_none_iff, insert?_eq_none_iff.1 hnone]
        exact Bool.noConfusion
      by_cases hid : slot.id = id
      · subst hid
        obtain ⟨old, hold⟩ := Option.ne_none_iff_exists'.1 htaken
        rw [hold, Option.some_or, Option.some_or]
      · have hne : (slot.id == id) = false := beq_false_of_ne hid
        rw [hne]

theorem toList_insertNew (timeline : Timeline) (slots : List TimeSlot) :
    (timeline.insertNew slots).1.toList = timeline.toList ++ (timeline.insertNew slots).2 := by
  induction slots generalizing timeline with
  | nil => simp [insertNew]
  | cons slot rest ih =>
    unfold insertNew
    split
    next extended hinsert =>
      dsimp only
      rw [ih, toList_insert? hinsert, List.append_assoc, List.singleton_append]
    next => exact ih timeline

/-- The slots that are added are slots of the list, in its order. -/
theorem insertNew_sublist (timeline : Timeline) (slots : List TimeSlot) :
    (timeline.insertNew slots).2.Sublist slots := by
  induction slots generalizing timeline with
  | nil => exact .refl _
  | cons slot rest ih =>
    unfold insertNew
    split
    next extended _ => exact (ih extended).cons_cons slot
    next => exact (ih timeline).cons slot

end Eaf.Timeline

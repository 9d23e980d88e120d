import Eaf.Proofs.Chain
import Eaf.Proofs.Timeline

/-!
# The slots that are written

Of the slots of a document those are valid between which some aligned annotation extends. They are
told apart by their ids and sorted by time. A document that has the valid slots of another and its
aligned annotations has the same valid slots.

## Main results

* `Eaf.nodup_distinctBy` — elements that are told apart by a key have distinct keys.
* `Eaf.Document.mem_timeline_of_mem_validSlots` — valid slots are slots.
* `Eaf.Document.validSlots_eq` — the valid slots of a document that has the valid slots of another.
-/

namespace Eaf

/-! ### Distinct elements -/

section Distinct

variable {α κ : Type} [DecidableEq κ] (key : α → κ)

/-- What is kept of a list has distinct keys, all of them new. -/
theorem distinctAfter_spec (seen : List κ) (xs : List α) :
    ((distinctAfter key seen xs).map key).Nodup ∧
      ∀ x ∈ distinctAfter key seen xs, key x ∉ seen ∧ x ∈ xs := by
  induction xs generalizing seen with
  | nil => exact ⟨List.nodup_nil, nofun⟩
  | cons x xs ih =>
    unfold distinctAfter
    split
    next =>
      obtain ⟨hnodup, hkept⟩ := ih seen
      exact ⟨hnodup, fun y hy => ⟨(hkept y hy).1, List.mem_cons_of_mem x (hkept y hy).2⟩⟩
    next hnew =>
      obtain ⟨hnodup, hkept⟩ := ih (key x :: seen)
      refine ⟨List.nodup_cons.2 ⟨fun hmem => ?_, hnodup⟩, ?_⟩
      · obtain ⟨y, hy, hkey⟩ := List.mem_map.1 hmem
        exact (hkept y hy).1 (hkey ▸ List.mem_cons_self)
      · refine List.forall_mem_cons.2 ⟨⟨by simpa using hnew, List.mem_cons_self⟩, fun y hy => ?_⟩
        exact ⟨fun hseen => (hkept y hy).1 (List.mem_cons_of_mem _ hseen),
          List.mem_cons_of_mem x (hkept y hy).2⟩

/-- Every key of a list is kept, unless it was seen. -/
theorem exists_mem_distinctAfter {seen : List κ} {xs : List α} {x : α} (h : x ∈ xs)
    (hnew : key x ∉ seen) : ∃ y ∈ distinctAfter key seen xs, key y = key x := by
  induction xs generalizing seen with
  | nil => cases h
  | cons z xs ih =>
    unfold distinctAfter
    by_cases hkey : key z = key x
    · rw [if_neg (by simpa [hkey] using hnew)]
      exact ⟨z, List.mem_cons_self, hkey⟩
    · have hmem : x ∈ xs := (List.mem_cons.1 h).resolve_left fun heq => hkey (heq ▸ rfl)
      split
      · exact ih hmem hnew
      · have hstill : key x ∉ key z :: seen := by simp [Ne.symm hkey, hnew]
        obtain ⟨y, hy, heq⟩ := ih hmem hstill
        exact ⟨y, List.mem_cons_of_mem z hy, heq⟩

/-- Elements that are told apart by a key have distinct keys. -/
theorem nodup_distinctBy (xs : List α) : ((distinctBy key xs).map key).Nodup :=
  (distinctAfter_spec key [] xs).1

theorem mem_of_mem_distinctBy {xs : List α} {x : α} (h : x ∈ distinctBy key xs) : x ∈ xs :=
  ((distinctAfter_spec key [] xs).2 x h).2

theorem exists_mem_distinctBy {xs : List α} {x : α} (h : x ∈ xs) :
    ∃ y ∈ distinctBy key xs, key y = key x :=
  exists_mem_distinctAfter key h List.not_mem_nil

end Distinct

namespace Document

variable {document : Document} {slot : TimeSlot} {note : Note}

/-- The ids of the slots that are written are distinct. -/
theorem nodup_validSlots (document : Document) : (document.validSlots.map (·.id)).Nodup := by
  have hperm := StableSort.sort_perm (fun a b : TimeSlot => a.value ≤ b.value)
    (distinctBy TimeSlot.id document.usedSlots)
  exact (hperm.map _).nodup_iff.2 (nodup_distinctBy _ _)

/-! ### Slots in use -/

theorem mem_usedSlots_iff :
    slot ∈ document.usedSlots ↔ ∃ note ∈ document.notes, ∃ first last,
      document.endpoints? note = some (first, last) ∧ (slot = first ∨ slot = last) := by
  rw [usedSlots, List.mem_flatMap]
  refine exists_congr fun note => and_congr_right fun _ => ?_
  cases document.endpoints? note with
  | none => simp
  | some ends =>
    obtain ⟨first, last⟩ := ends
    simp

/-- Both slots of an annotation are in use. -/
theorem mem_usedSlots_of_endpoints? {first last : TimeSlot} (hnote : note ∈ document.notes)
    (h : document.endpoints? note = some (first, last)) :
    first ∈ document.usedSlots ∧ last ∈ document.usedSlots :=
  ⟨mem_usedSlots_iff.2 ⟨note, hnote, first, last, h, Or.inl rfl⟩,
    mem_usedSlots_iff.2 ⟨note, hnote, first, last, h, Or.inr rfl⟩⟩

theorem mem_timeline_of_mem_usedSlots (hfaithful : document.timeline.Faithful)
    (h : slot ∈ document.usedSlots) : slot ∈ document.timeline.toList := by
  obtain ⟨note, -, first, last, hends, hslot⟩ := mem_usedSlots_iff.1 h
  obtain ⟨start, stop, -, hfirst, hlast⟩ := endpoints?_eq_some_iff.1 hends
  rcases hslot with rfl | rfl
  · exact (hfaithful.find?_eq_some_iff.1 hfirst).1
  · exact (hfaithful.find?_eq_some_iff.1 hlast).1

/-- Valid slots are slots of the timeline. -/
theorem mem_timeline_of_mem_validSlots (hfaithful : document.timeline.Faithful)
    (h : slot ∈ document.validSlots) : slot ∈ document.timeline.toList :=
  mem_timeline_of_mem_usedSlots hfaithful
    (mem_of_mem_distinctBy TimeSlot.id ((StableSort.mem_sort _).1 h))

/-- Slots in use are valid. -/
theorem mem_validSlots_of_mem_usedSlots (hfaithful : document.timeline.Faithful)
    (h : slot ∈ document.usedSlots) : slot ∈ document.validSlots := by
  obtain ⟨other, hother, hid⟩ := exists_mem_distinctBy TimeSlot.id h
  have hvalid : other ∈ document.validSlots := (StableSort.mem_sort _).2 hother
  -- Slots of the timeline are told apart by their ids, so that the one that is kept is the slot.
  have hfind := hfaithful.find?_eq_some_iff.2 ⟨mem_timeline_of_mem_usedSlots hfaithful h, rfl⟩
  have hfind' := hfaithful.find?_eq_some_iff.2
    ⟨mem_timeline_of_mem_validSlots hfaithful hvalid, hid⟩
  rw [hfind] at hfind'
  exact Option.some.inj hfind' ▸ hvalid

/-! ### Documents with the same valid slots -/

/-- Two lists are gathered alike if the elements that one leaves out add nothing to the other. -/
theorem flatMap_filter_congr {α β : Type} {p : α → Bool} {f g : α → List β} {xs : List α}
    (hsame : ∀ x ∈ xs, p x = true → f x = g x) (hnone : ∀ x ∈ xs, p x = false → g x = []) :
    (xs.filter p).flatMap f = xs.flatMap g := by
  induction xs with
  | nil => rfl
  | cons x xs ih =>
    obtain ⟨hx, hsame⟩ := List.forall_mem_cons.1 hsame
    obtain ⟨hx', hnone⟩ := List.forall_mem_cons.1 hnone
    cases hp : p x with
    | true => rw [List.filter_cons_of_pos hp, List.flatMap_cons, List.flatMap_cons, hx hp,
        ih hsame hnone]
    | false => rw [List.filter_cons_of_neg (by simp [hp]), List.flatMap_cons, hx' hp,
        List.nil_append, ih hsame hnone]

variable {again : Document}

/-- An aligned annotation has the same two slots in a document whose slots are the valid ones. -/
theorem endpoints?_eq_of_validSlots (hfaithful : document.timeline.Faithful)
    (hagain : again.timeline.Faithful) (hslots : again.timeline.toList = document.validSlots)
    (hnote : note ∈ document.notes) : again.endpoints? note = document.endpoints? note := by
  have hkept {ref : String} {slot : TimeSlot} (h : again.slot? ref = some slot) :
      document.slot? ref = some slot := by
    obtain ⟨hmem, hid⟩ := hagain.find?_eq_some_iff.1 h
    rw [hslots] at hmem
    exact hfaithful.find?_eq_some_iff.2 ⟨mem_timeline_of_mem_validSlots hfaithful hmem, hid⟩
  have hvalid {ref : String} {slot : TimeSlot} (h : document.slot? ref = some slot)
      (hused : slot ∈ document.usedSlots) : again.slot? ref = some slot := by
    refine hagain.find?_eq_some_iff.2 ⟨?_, (hfaithful.find?_eq_some_iff.1 h).2⟩
    rw [hslots]
    exact mem_validSlots_of_mem_usedSlots hfaithful hused
  refine Option.ext fun ends => ?_
  obtain ⟨first, last⟩ := ends
  constructor
  · exact endpoints?_eq_some_of_mono fun _ _ => hkept
  · intro h
    obtain ⟨hfirstUsed, hlastUsed⟩ := mem_usedSlots_of_endpoints? hnote h
    obtain ⟨start, stop, hanchor, hfirst, hlast⟩ := endpoints?_eq_some_iff.1 h
    exact endpoints?_eq_some_iff.2
      ⟨start, stop, hanchor, hvalid hfirst hfirstUsed, hvalid hlast hlastUsed⟩

/-- A document with the valid slots of another and with its aligned annotations has the same valid
slots. -/
theorem validSlots_eq (hfaithful : document.timeline.Faithful)
    (hagain : again.timeline.Faithful) (hslots : again.timeline.toList = document.validSlots)
    {p : Note → Bool} (hnotes : again.notes = document.notes.filter p)
    (hp : ∀ note : Note, note.isAligned = true → p note = true) :
    again.validSlots = document.validSlots := by
  have hused : again.usedSlots = document.usedSlots := by
    rw [usedSlots, usedSlots, hnotes]
    refine flatMap_filter_congr (fun note hnote _ => ?_) fun note _ hout => ?_
    · rw [endpoints?_eq_of_validSlots hfaithful hagain hslots hnote]
    · have hreferring : document.endpoints? note = none := by
        refine Option.eq_none_iff_forall_ne_some.2 fun ends hends => ?_
        obtain ⟨_, _, hanchor, -, -⟩ := endpoints?_eq_some_iff.1 hends
        rw [hp note (by simp [Note.isAligned, Note.slotRefs?, hanchor])] at hout
        cases hout
      rw [hreferring]
  rw [validSlots, validSlots, hused]

end Document

end Eaf

import Mathlib.Data.List.Forall2
import Eaf.Proofs.Run

/-!
# What the elements of a file say

A slot, an annotation and a tier are what an element of a file says. Reading a file turns its slot
elements with an id and a time into slots and its tier elements into tiers, one by one and in
document order. What holds of slots and tiers because of the elements that say them is shown from
this, without opening the reader again. A file of given elements is told by its outline: the parts
that every file has, such as a header with a media descriptor, are not told with it.

## Main definitions

* `Eaf.TimeSlot.IsOf`, `Eaf.Note.IsOf`, `Eaf.Tier.IsOf` — what elements say.
* `Eaf.Outline`, `Eaf.Outline.root` — a file of given elements, told in short.

## Main results

* `Eaf.forall₂_of_mapM` — what a list is read as, item by item.
* `Eaf.Content.forall₂_slots`, `Eaf.Content.forall₂_tiers` — what a file is read as.
-/

namespace Eaf

open Xml (Node)

/-! ### Elements and what they say -/

/-- A slot is what an element says, with its time in the given unit. -/
structure TimeSlot.IsOf (unit : TimeUnit) (element : Node) (slot : TimeSlot) : Prop where
  id : element.attribute? "TIME_SLOT_ID" = some slot.id
  value : ∃ text, element.attribute? "TIME_VALUE" = some text ∧ unit.read? text = some slot.value

/-- An annotation is what an element says. -/
structure Note.IsOf (options : ReadOptions) (element : Node) (note : Note) : Prop where
  id : element.attribute? "ANNOTATION_ID" = some note.id
  value : note.value = Note.valueOf options element
  anchor : note.anchor = Note.anchorOf element

/-- A tier is what an element says: its annotations are those of all annotation elements below, in
document order. -/
structure Tier.IsOf (options : ReadOptions) (element : Node) (tier : Tier) : Prop where
  id : element.attribute? "TIER_ID" = some tier.id
  linguisticType : tier.linguisticType = (element.attribute? "LINGUISTIC_TYPE_REF").getD ""
  locale : tier.locale = element.attribute? "DEFAULT_LOCALE"
  parent : tier.parent = Header.filled? element "PARENT_REF"
  notes : List.Forall₂ (Note.IsOf options)
    (element.descendants.filter fun below =>
      below.isElement "ALIGNABLE_ANNOTATION" || below.isElement "REF_ANNOTATION") tier.notes

/-- Whether an element has the id and the time of a slot. -/
def SlotEntry.isTimed (element : Node) : Bool :=
  (element.attribute? "TIME_SLOT_ID").isSome && (element.attribute? "TIME_VALUE").isSome

/-! ### Items and what they are read as -/

/-- What a list is read as, item by item. -/
theorem forall₂_of_mapM {α β ε : Type} {f : α → Except ε β} {xs : List α} {ys : List β}
    (h : xs.mapM f = .ok ys) : List.Forall₂ (fun x y => f x = .ok y) xs ys := by
  induction xs generalizing ys with
  | nil =>
    cases h
    exact .nil
  | cons x xs ih =>
    rw [List.mapM_cons] at h
    obtain ⟨y, hy, h⟩ := exceptBind_ok h
    obtain ⟨rest, hrest, h⟩ := exceptBind_ok h
    cases h
    exact .cons hy (ih hrest)

/-- What a list is read as comes from its items. -/
theorem exists_of_mem_forall₂ {α β : Type} {R : α → β → Prop} {xs : List α} {ys : List β} {y : β}
    (h : List.Forall₂ R xs ys) (hy : y ∈ ys) : ∃ x ∈ xs, R x y := by
  induction h with
  | nil => cases hy
  | @cons x _ xs _ hfirst _ ih =>
    rcases List.mem_cons.1 hy with rfl | hy
    · exact ⟨x, List.mem_cons_self, hfirst⟩
    · obtain ⟨other, hother, hread⟩ := ih hy
      exact ⟨other, List.mem_cons_of_mem x hother, hread⟩

/-- What one item is read as is one result. -/
theorem exists_eq_singleton_of_forall₂ {α β : Type} {R : α → β → Prop} {x : α} {ys : List β}
    (h : List.Forall₂ R [x] ys) : ∃ y, ys = [y] ∧ R x y := by
  obtain ⟨y, rest, hy, hrest, rfl⟩ := List.forall₂_cons_left_iff.1 h
  obtain rfl := List.forall₂_nil_left_iff.1 hrest
  exact ⟨y, rfl, hy⟩

/-! ### Reading a file -/

theorem Note.isOf_of_ofElement? {options : ReadOptions} {element : Node} {note : Note}
    (h : Note.ofElement? options element = .ok note) : note.IsOf options element := by
  unfold ofElement? at h
  split at h
  · cases h
  next id hid =>
    cases h
    exact ⟨hid, rfl, rfl⟩

theorem Tier.isOf_of_ofElement? {options : ReadOptions} {element : Node} {tier : Tier}
    (h : Tier.ofElement? options element = .ok tier) : tier.IsOf options element := by
  unfold ofElement? at h
  split at h
  · cases h
  next id hid =>
    cases hnotes : (Note.elements element).mapM (Note.ofElement? options) with
    | error fault =>
      rw [hnotes] at h
      cases h
    | ok notes =>
      rw [hnotes] at h
      cases h
      exact ⟨hid, rfl, rfl, rfl, (forall₂_of_mapM hnotes).imp fun _ _ => Note.isOf_of_ofElement?⟩

/-- The slots of a list of elements are those of the elements with an id and a time. -/
theorem SlotEntry.forall₂_slots? {unit : TimeUnit} {elements : List Node} {slots : List TimeSlot}
    (h : slots? (elements.map (ofElement unit)) = .ok slots) :
    List.Forall₂ (TimeSlot.IsOf unit) (elements.filter isTimed) slots := by
  induction elements generalizing slots with
  | nil =>
    cases h
    exact .nil
  | cons element rest ih =>
    rw [List.map_cons] at h
    cases hid : element.attribute? "TIME_SLOT_ID" with
    | none =>
      simp only [ofElement, hid] at h
      rw [List.filter_cons_of_neg (by simp [isTimed, hid])]
      exact ih h
    | some id =>
      cases htext : element.attribute? "TIME_VALUE" with
      | none =>
        simp only [ofElement, hid, htext] at h
        rw [List.filter_cons_of_neg (by simp [isTimed, htext])]
        exact ih h
      | some text =>
        rw [List.filter_cons_of_pos (by simp [isTimed, hid, htext])]
        cases hread : unit.read? text with
        | none =>
          simp only [ofElement, hid, htext, hread] at h
          cases h
        | some time =>
          simp only [ofElement, hid, htext, hread, slots?] at h
          cases hrest : slots? (rest.map (ofElement unit)) with
          | error fault =>
            rw [hrest] at h
            cases h
          | ok others =>
            rw [hrest] at h
            cases h
            exact .cons ⟨hid, text, htext, hread⟩ (ih hrest)

namespace Content

variable {options : ReadOptions} {root : Node} {content : Content} {header : Header}

/-- The slots of a file are what its slot elements with an id and a time say. -/
theorem forall₂_slots (h : ofRoot? options root = .ok content)
    (hheader : Header.ofRoot? root = .ok header) :
    List.Forall₂ (TimeSlot.IsOf header.timeUnit)
      ((SlotEntry.elements root).filter SlotEntry.isTimed) content.slots := by
  obtain ⟨own, hown, -, -, hslots, -⟩ := ofRoot?_ok h
  obtain rfl := Except.ok.inj (hown.symm.trans hheader)
  exact SlotEntry.forall₂_slots? hslots

/-- The tiers of a file are what its tier elements say. -/
theorem forall₂_tiers (h : ofRoot? options root = .ok content) :
    List.Forall₂ (Tier.IsOf options) (root.descendantsNamed "TIER") content.tiers := by
  obtain ⟨_, -, -, -, -, htiers⟩ := ofRoot?_ok h
  exact (forall₂_of_mapM htiers).imp fun _ _ => Tier.isOf_of_ofElement?

end Content

/-! ### Files of given elements -/

/-- The element of a slot, with its time if it has one. -/
def slotElement (id : String) (time : Option String) : Node :=
  .element "TIME_SLOT" ({ name := "TIME_SLOT_ID", value := id } ::
    (time.map ({ name := "TIME_VALUE", value := · })).toList) []

/-- The element of an annotation between two slots, with its value if it has one. -/
def alignedElement (id start stop : String) (value : Option String) : Node :=
  .element "ALIGNABLE_ANNOTATION"
    [ { name := "ANNOTATION_ID", value := id }, { name := "TIME_SLOT_REF1", value := start },
      { name := "TIME_SLOT_REF2", value := stop } ]
    (value.map fun text => .element "ANNOTATION_VALUE" [] [.text text]).toList

/-- The element of an annotation that refers to another, if it names one. -/
def referringElement (id : String) (target : Option String) : Node :=
  .element "REF_ANNOTATION" ({ name := "ANNOTATION_ID", value := id } ::
    (target.map ({ name := "ANNOTATION_REF", value := · })).toList) []

/-- The element of a tier with given annotations, below its parent if it names one. -/
def tierElement (id : String) (parent : Option String) (notes : List Node) : Node :=
  .element "TIER" ({ name := "TIER_ID", value := id } ::
    (parent.map ({ name := "PARENT_REF", value := · })).toList) notes

/-- What a file says, but for the parts that every file has. -/
structure Outline where
  /-- The time unit that the header names. -/
  unit : Option String := none
  /-- The counters of annotation ids that the header records, as their texts. -/
  counters : List String := []
  /-- The ids of the slots, with their times. -/
  slots : List (String × Option String) := []
  /-- The elements of the tiers. -/
  tiers : List Node := []

/-- The file of an outline. -/
def Outline.root (outline : Outline) : Node :=
  .element "ANNOTATION_DOCUMENT" [] <|
    .element "HEADER" (outline.unit.map ({ name := "TIME_UNITS", value := · })).toList
      (.element "MEDIA_DESCRIPTOR" [] [] :: outline.counters.map fun counter =>
        .element "PROPERTY" [{ name := "NAME", value := "lastUsedAnnotationId" }]
          [.text counter]) ::
    .element "TIME_ORDER" [] (outline.slots.map fun (id, time) => slotElement id time) ::
    outline.tiers

end Eaf

import Eaf.Proofs.Finite
import Eaf.Proofs.Run

/-!
# Files that are accepted

A file can be read exactly if it has the shape of an annotation file: the root, a header with a
media descriptor, times that are finite numbers wherever a slot has an id and a time, and ids of all
tiers and of all annotations in them. What lacks an attribute that may be absent is passed over. The
shape comes down to a list of conditions, which are tested in order, those on slots before those on
tiers and both in document order. The fault of a file that cannot be read is that of the first
condition that it does not meet. The document that the file is to join and the options have no part
in this.

## Main definitions

* `Eaf.Condition`, `Eaf.FirstFault` — conditions with their faults, and the first fault of a list.
* `Eaf.Tests` — readings that test conditions in order.
* `Eaf.HasShape` — the shape of an annotation file.
* `Eaf.shapeConditions` — the conditions that the shape comes down to.

## Main results

* `Eaf.Tests.bind`, `Eaf.Tests.mapM` — readings that are made of readings.
* `Eaf.forall_shapeConditions_iff` — files that meet all conditions have the shape.
* `Eaf.Content.tests_ofRoot?` — reading a file tests its conditions.
* `Eaf.Document.accepts_iff_hasShape` — which files are accepted, and the faults of the others.
-/

namespace Eaf

open Xml (Node)

/-! ### Conditions in order -/

/-- A condition on a file, with the fault of a file that does not meet it. -/
structure Condition where
  holds : Prop
  fault : Fault

/-- The fault of the first condition in a list that is not met. -/
inductive FirstFault : List Condition → Fault → Prop
  | here {condition : Condition} {rest : List Condition} (h : ¬ condition.holds) :
    FirstFault (condition :: rest) condition.fault
  | later {condition : Condition} {rest : List Condition} {fault : Fault} (h : condition.holds)
      (hrest : FirstFault rest fault) : FirstFault (condition :: rest) fault

/-- A reading tests conditions in order: it succeeds only if all of them are met, and fails only
with the fault of the first one that is not. -/
def Tests {α : Type} : Except Fault α → List Condition → Prop
  | .ok _, conditions => ∀ condition ∈ conditions, condition.holds
  | .error fault, conditions => FirstFault conditions fault

section Tests

variable {α β : Type} {conditions more : List Condition} {fault other : Fault}
  {result : Except Fault α}

theorem FirstFault.append (h : FirstFault conditions fault) :
    FirstFault (conditions ++ more) fault := by
  induction h with
  | here h => exact .here h
  | later h _ ih => exact .later h ih

theorem FirstFault.append_of_forall (h : ∀ condition ∈ conditions, condition.holds)
    (hmore : FirstFault more fault) : FirstFault (conditions ++ more) fault := by
  induction conditions with
  | nil => exact hmore
  | cons condition rest ih =>
    obtain ⟨hfirst, hrest⟩ := List.forall_mem_cons.1 h
    exact .later hfirst (ih hrest)

/-- Some condition is not met if there is a fault. -/
theorem FirstFault.not_forall (h : FirstFault conditions fault) :
    ¬ ∀ condition ∈ conditions, condition.holds := by
  induction h with
  | here h => exact fun hall => h (hall _ List.mem_cons_self)
  | later _ _ ih => exact fun hall => ih (List.forall_mem_cons.1 hall).2

/-- There is one first fault. -/
theorem FirstFault.unique (h : FirstFault conditions fault) (hother : FirstFault conditions other) :
    fault = other := by
  induction h with
  | here h =>
    cases hother with
    | here => rfl
    | later hholds => exact absurd hholds h
  | later h _ ih =>
    cases hother with
    | here hnot => exact absurd h hnot
    | later _ hrest => exact ih hrest

namespace Tests

theorem exists_ok_iff (h : Tests result conditions) :
    (∃ x, result = .ok x) ↔ ∀ condition ∈ conditions, condition.holds := by
  cases result with
  | ok x => exact iff_of_true ⟨x, rfl⟩ h
  | error fault => exact iff_of_false nofun h.not_forall

theorem eq_error_iff (h : Tests result conditions) :
    result = .error fault ↔ FirstFault conditions fault := by
  cases result with
  | ok x => exact iff_of_false nofun fun hfault => hfault.not_forall h
  | error other => exact ⟨fun heq => Except.error.inj heq ▸ h, fun hfault => h.unique hfault ▸ rfl⟩

/-- A reading whose first condition is met tests the others. -/
theorem later {condition : Condition} (hfirst : condition.holds) (h : Tests result conditions) :
    Tests result (condition :: conditions) := by
  cases result with
  | ok x => exact List.forall_mem_cons.2 ⟨hfirst, h⟩
  | error fault => exact .later hfirst h

/-- A reading that goes on after another one tests the conditions of both. -/
theorem bind {f : α → Except Fault β} (h : Tests result conditions)
    (hnext : ∀ x, result = .ok x → Tests (f x) more) :
    Tests (result >>= f) (conditions ++ more) := by
  cases result with
  | error fault => exact h.append
  | ok x =>
    have hx := hnext x rfl
    show Tests (f x) (conditions ++ more)
    cases hf : f x with
    | ok y =>
      rw [hf] at hx
      exact List.forall_mem_append.2 ⟨h, hx⟩
    | error fault =>
      rw [hf] at hx
      exact .append_of_forall h hx

theorem map {f : α → β} (h : Tests result conditions) : Tests (result.map f) conditions := by
  cases result with
  | ok x => exact h
  | error fault => exact h

/-- Reading the items of a list tests their conditions. -/
theorem mapM {f : α → Except Fault β} {conditionsOf : α → List Condition} {xs : List α}
    (h : ∀ x ∈ xs, Tests (f x) (conditionsOf x)) :
    Tests (xs.mapM f) (xs.flatMap conditionsOf) := by
  induction xs with
  | nil => exact List.forall_mem_nil _
  | cons x xs ih =>
    obtain ⟨hx, hxs⟩ := List.forall_mem_cons.1 h
    rw [List.mapM_cons, List.flatMap_cons]
    exact hx.bind fun y _ => (ih hxs).map

end Tests

end Tests

/-! ### The shape of a file -/

/-- The shape of an annotation file. -/
structure HasShape (root : Node) : Prop where
  kind : root.isElement "ANNOTATION_DOCUMENT" = true
  header : ∃ header media, root.child? "HEADER" = some header ∧
    header.child? "MEDIA_DESCRIPTOR" = some media
  times : ∀ order ∈ root.childrenNamed "TIME_ORDER", ∀ slot ∈ order.descendantsNamed "TIME_SLOT",
    ∀ id text, slot.attribute? "TIME_SLOT_ID" = some id → slot.attribute? "TIME_VALUE" = some text →
      WritesFinite text
  tierIds : ∀ tier ∈ root.descendantsNamed "TIER", ∃ id, tier.attribute? "TIER_ID" = some id
  noteIds : ∀ tier ∈ root.descendantsNamed "TIER", ∀ note ∈ tier.descendants,
    note.isElement "ALIGNABLE_ANNOTATION" = true ∨ note.isElement "REF_ANNOTATION" = true →
      ∃ id, note.attribute? "ANNOTATION_ID" = some id

/-- The conditions on the root and the header of a file. -/
def headerConditions (root : Node) : List Condition :=
  [ { holds := root.isElement "ANNOTATION_DOCUMENT" = true
      fault := .ofDefect (.wrongRoot root.name) },
    { holds := ∃ header, root.child? "HEADER" = some header
      fault := .ofDefect .missingHeader },
    { holds := ∃ header media, root.child? "HEADER" = some header ∧
        header.child? "MEDIA_DESCRIPTOR" = some media
      fault := .ofDefect .missingMediaDescriptor } ]

/-- The condition on a slot, if it has an id and a time. -/
def slotConditions (slot : Node) : List Condition :=
  match slot.attribute? "TIME_SLOT_ID", slot.attribute? "TIME_VALUE" with
  | some id, some text => [{ holds := WritesFinite text, fault := .invalidTimeValue id text }]
  | _, _ => []

/-- The conditions on a tier: it has an id, and then the annotations in it have. -/
def tierConditions (tier : Node) : List Condition :=
  { holds := ∃ id, tier.attribute? "TIER_ID" = some id, fault := .ofDefect .tierWithoutId } ::
    (Note.elements tier).map fun note =>
      { holds := ∃ id, note.attribute? "ANNOTATION_ID" = some id
        fault := .ofDefect (.noteWithoutId note.name) }

/-- The conditions on a file, in the order in which they are tested. -/
def shapeConditions (root : Node) : List Condition :=
  headerConditions root ++ ((SlotEntry.elements root).flatMap slotConditions ++
    (root.descendantsNamed "TIER").flatMap tierConditions)

theorem mem_slotConditions {slot : Node} {condition : Condition} :
    condition ∈ slotConditions slot ↔
      ∃ id text, slot.attribute? "TIME_SLOT_ID" = some id ∧
        slot.attribute? "TIME_VALUE" = some text ∧
        condition = { holds := WritesFinite text, fault := .invalidTimeValue id text } := by
  unfold slotConditions
  split
  next id text hid htext => simp [hid, htext]
  next hnone =>
    refine iff_of_false List.not_mem_nil ?_
    rintro ⟨id, text, hid, htext, -⟩
    exact hnone id text hid htext

/-- Exactly the files that meet all conditions have the shape. -/
theorem forall_shapeConditions_iff (root : Node) :
    (∀ condition ∈ shapeConditions root, condition.holds) ↔ HasShape root := by
  have hslots (slot : Node) : (∀ condition ∈ slotConditions slot, condition.holds) ↔
      ∀ id text, slot.attribute? "TIME_SLOT_ID" = some id →
        slot.attribute? "TIME_VALUE" = some text → WritesFinite text := by
    simp only [mem_slotConditions]
    constructor
    · exact fun h id text hid htext => h _ ⟨id, text, hid, htext, rfl⟩
    · rintro h condition ⟨id, text, hid, htext, rfl⟩
      exact h id text hid htext
  have htiers (tier : Node) : (∀ condition ∈ tierConditions tier, condition.holds) ↔
      (∃ id, tier.attribute? "TIER_ID" = some id) ∧ ∀ note ∈ tier.descendants,
        note.isElement "ALIGNABLE_ANNOTATION" = true ∨ note.isElement "REF_ANNOTATION" = true →
          ∃ id, note.attribute? "ANNOTATION_ID" = some id := by
    simp only [tierConditions, List.forall_mem_cons, List.forall_mem_map, Note.elements,
      List.mem_filter, Note.isElement, Bool.or_eq_true, and_imp]
  simp only [shapeConditions, headerConditions, List.forall_mem_append, List.forall_mem_cons,
    List.forall_mem_flatMap, SlotEntry.elements, hslots, htiers]
  constructor
  · rintro ⟨⟨hkind, -, hheader, -⟩, htimes, hall⟩
    exact ⟨hkind, hheader, htimes, fun tier htier => (hall tier htier).1,
      fun tier htier => (hall tier htier).2⟩
  · rintro ⟨hkind, ⟨header, media, hheader, hmedia⟩, htimes, htierIds, hnoteIds⟩
    exact ⟨⟨hkind, ⟨header, hheader⟩, ⟨header, media, hheader, hmedia⟩, List.forall_mem_nil _⟩,
      htimes, fun tier htier => ⟨htierIds tier htier, hnoteIds tier htier⟩⟩

/-! ### Reading a file -/

theorem Header.tests_ofRoot? (root : Node) :
    Tests (Header.ofRoot? root) (headerConditions root) := by
  unfold ofRoot?
  split
  next hkind =>
    refine .later hkind ?_
    split
    next hnone => exact .here (by simp [hnone])
    next header hheader =>
      refine .later ⟨header, hheader⟩ ?_
      split
      next hnone => exact .here (by simp [hheader, hnone])
      next media hmedia => exact List.forall_mem_singleton.2 ⟨header, media, hheader, hmedia⟩
  next hkind => exact .here hkind

/-- Reading the slots of a file tests the conditions on them. -/
theorem SlotEntry.tests_slots? (unit : TimeUnit) (elements : List Node) :
    Tests (slots? (elements.map (ofElement unit))) (elements.flatMap slotConditions) := by
  induction elements with
  | nil => exact List.forall_mem_nil _
  | cons element rest ih =>
    rw [List.map_cons, List.flatMap_cons]
    cases hid : element.attribute? "TIME_SLOT_ID" with
    | none =>
      simp only [ofElement, slotConditions, hid]
      exact ih
    | some id =>
      cases htext : element.attribute? "TIME_VALUE" with
      | none =>
        simp only [ofElement, slotConditions, hid, htext]
        exact ih
      | some text =>
        have hfinite : (unit.read? text).isSome ↔ WritesFinite text := TimeUnit.isSome_read?_iff
        cases hread : unit.read? text with
        | none =>
          rw [hread] at hfinite
          have hnot : ¬ WritesFinite text := fun h => Bool.false_ne_true (hfinite.2 h)
          simp only [ofElement, slotConditions, hid, htext, hread, slots?, List.singleton_append]
          exact .here hnot
        | some time =>
          rw [hread] at hfinite
          simp only [ofElement, slotConditions, hid, htext, hread, slots?, List.singleton_append]
          exact ih.map.later (hfinite.1 rfl)

/-- Reading a tier tests the conditions on it. -/
theorem Tier.tests_ofElement? (options : ReadOptions) (element : Node) :
    Tests (Tier.ofElement? options element) (tierConditions element) := by
  have hnote (note : Node) : Tests (Note.ofElement? options note)
      [{ holds := ∃ id, note.attribute? "ANNOTATION_ID" = some id
         fault := .ofDefect (.noteWithoutId note.name) }] := by
    unfold Note.ofElement?
    split
    next hnone => exact .here (by simp [hnone])
    next id hid => exact List.forall_mem_singleton.2 ⟨id, hid⟩
  have hnotes := Tests.mapM fun note (_ : note ∈ Note.elements element) => hnote note
  rw [← List.map_eq_flatMap] at hnotes
  unfold ofElement?
  split
  next hnone => exact .here (by simp [hnone])
  next id hid => exact hnotes.map.later ⟨id, hid⟩

/-- Reading a file tests its conditions. -/
theorem Content.tests_ofRoot? (options : ReadOptions) (root : Node) :
    Tests (Content.ofRoot? options root) (shapeConditions root) := by
  refine (Header.tests_ofRoot? root).bind fun header _ => ?_
  refine (SlotEntry.tests_slots? header.timeUnit (SlotEntry.elements root)).bind fun slots _ => ?_
  exact (Tests.mapM fun tier _ => Tier.tests_ofElement? options tier).map

namespace Document

theorem tests_importTree (document : Document) (options : ReadOptions) (root : Node) :
    Tests (document.importTree options root).result (shapeConditions root) := by
  have hcontent := Content.tests_ofRoot? options root
  unfold importTree
  split
  next fault hfault =>
    rw [hfault] at hcontent
    exact hcontent
  next content hok =>
    rw [hok] at hcontent
    dsimp only
    split
    · exact hcontent
    · exact hcontent

/-- **Exactly the files with the shape of annotation files are accepted**, whatever the document and
the options are. The fault of any other file is that of the first condition that it does not meet:
on the root, the header, the media descriptor, the times of the slots in document order, and then on
the tiers in document order, where the id of a tier comes before those of its annotations. -/
theorem accepts_iff_hasShape (document : Document) (options : ReadOptions) (root : Node) :
    ((∃ imported, (document.importTree options root).result = .ok imported) ↔ HasShape root) ∧
      ∀ fault, (document.importTree options root).result = .error fault ↔
        FirstFault (shapeConditions root) fault := by
  have htests := document.tests_importTree options root
  exact ⟨htests.exists_ok_iff.trans (forall_shapeConditions_iff root),
    fun fault => htests.eq_error_iff⟩

end Document

end Eaf

import Eaf.Proofs.Absorption
import Eaf.Proofs.Elements
import Eaf.Proofs.Representation

/-!
# Everything in a file is accounted for

When a file joins a document, each of its slots with an id is added, passed over because its id is
in use, or left out for want of a time, and each of its tiers is added or passed over. The tally
counts just that. What is added stands behind what was there, in the order of the file: of the
elements with an id that the document does not have the first one is added, as the file has it, and
the later ones are not.

## Main definitions

* `Eaf.newcomers` — the elements of a list with new ids.

## Main results

* `Eaf.newcomers_cons` — going through a list, the ids of its new elements are taken.
* `Eaf.Timeline.forall₂_insertNew`, `Eaf.forall₂_splitNew` — new elements are those that are added.
* `Eaf.SlotEntry.countP_id_eq` — elements with an id have a time or are counted as without one.
* `Eaf.Document.tally_of_importTree` — what is added to a document, and what is counted.
-/

namespace Eaf

open Xml (Node)

/-! ### New elements -/

/-- An element is new behind others if it has an id, in the attribute of a given name, that is
neither taken nor the id of one of the others. -/
def isNew (name : String) (taken : String → Bool) (before : List Node) (element : Node) : Bool :=
  (element.attribute? name).any fun id =>
    !taken id && before.all fun earlier => earlier.attribute? name != some id

/-- The elements of a list that are new behind those in front of them. -/
def newcomers (name : String) (taken : String → Bool) (elements : List Node) : List Node :=
  (elements.zipIdx.filter fun (element, i) =>
    isNew name taken (elements.take i) element).map Prod.fst

section Newcomers

variable {name own : String} {taken : String → Bool} {element : Node} {elements : List Node}

/-- Behind an element its id is taken. -/
theorem isNew_cons (h : element.attribute? name = some own) (before : List Node) (other : Node) :
    isNew name taken (element :: before) other =
      isNew name (fun used => own == used || taken used) before other := by
  unfold isNew
  congr 1
  funext used
  have hsame : (some own != some used) = !(own == used) := rfl
  rw [List.all_cons, h, hsame, Bool.not_or, ← Bool.and_assoc, Bool.and_comm (!taken used)]

/-- Going through a list, the id of an element is taken from then on. -/
theorem newcomers_cons (h : element.attribute? name = some own) :
    newcomers name taken (element :: elements) =
      if taken own then newcomers name taken elements
      else element :: newcomers name (fun used => own == used || taken used) elements := by
  have hfirst : isNew name taken [] element = !taken own := by
    simp [isNew, h]
  have hrest : ((elements.zipIdx.map (Prod.map id (· + 1))).filter fun (other, i) =>
        isNew name taken ((element :: elements).take i) other).map Prod.fst =
      newcomers name (fun used => own == used || taken used) elements := by
    have hpair : (fun (other, i) => isNew name taken ((element :: elements).take i) other) ∘
          Prod.map id (· + 1) =
        fun (other, i) => isNew name (fun used => own == used || taken used)
          (elements.take i) other := by
      funext pair
      exact isNew_cons h (elements.take pair.2) pair.1
    rw [List.filter_map, List.map_map, newcomers, hpair]
    rfl
  rw [newcomers, List.zipIdx_cons']
  cases htaken : taken own with
  | true =>
    have hsame : (fun used => own == used || taken used) = taken := by
      funext used
      by_cases hused : own = used
      · subst hused
        rw [htaken, Bool.or_true]
      · rw [beq_false_of_ne hused, Bool.false_or]
    rw [List.filter_cons_of_neg (by simp [hfirst, htaken]), hrest, hsame]
    rfl
  | false =>
    rw [List.filter_cons_of_pos (by simp [hfirst, htaken]), List.map_cons, hrest]
    rfl

end Newcomers

/-! ### Elements without a time -/

namespace SlotEntry

/-- An element with an id has a time or is counted as one without. -/
theorem countP_id_eq (unit : TimeUnit) (elements : List Node) :
    elements.countP (fun element => (element.attribute? "TIME_SLOT_ID").isSome) =
      (elements.filter isTimed).length + (elements.map (ofElement unit)).countP isUnaligned := by
  have hone (element : Node) : (if (element.attribute? "TIME_SLOT_ID").isSome then 1 else 0) =
      (if isTimed element then 1 else 0) +
        if (isUnaligned ∘ ofElement unit) element then 1 else 0 := by
    unfold isTimed
    rw [Function.comp_apply, ofElement]
    cases element.attribute? "TIME_SLOT_ID" with
    | none => rfl
    | some id =>
      cases element.attribute? "TIME_VALUE" with
      | none => rfl
      | some text => cases hread : unit.read? text <;> simp [hread, isUnaligned]
  rw [← List.countP_eq_length_filter, List.countP_map]
  induction elements with
  | nil => rfl
  | cons element rest ih =>
    rw [List.countP_cons, List.countP_cons, List.countP_cons, hone, ih]
    omega

end SlotEntry

/-- The slots without a time are counted in the entries of a file. -/
theorem Content.unaligned_eq {options : ReadOptions} {root : Node} {content : Content}
    {header : Header} (h : ofRoot? options root = .ok content)
    (hheader : Header.ofRoot? root = .ok header) :
    content.unaligned = (SlotEntry.ofRoot header.timeUnit root).countP (·.isUnaligned) := by
  obtain ⟨own, hown, h⟩ := exceptBind_ok h
  obtain ⟨slots, -, h⟩ := exceptBind_ok h
  obtain ⟨tiers, -, h⟩ := exceptBind_ok h
  obtain rfl := Except.ok.inj (hown.symm.trans hheader)
  cases h
  rfl

/-! ### What is added -/

section Added

variable {name : String} {elements : List Node}

/-- The slots of a list that are added are those of the new elements. -/
theorem Timeline.forall₂_insertNew {R : Node → TimeSlot → Prop} {timeline : Timeline}
    {slots : List TimeSlot} (hid : ∀ {element slot}, R element slot →
      element.attribute? name = some slot.id) (h : List.Forall₂ R elements slots) :
    List.Forall₂ R (newcomers name timeline.contains elements) (timeline.insertNew slots).2 := by
  induction h generalizing timeline with
  | nil => exact .nil
  | @cons element slot elements slots hslot _ ih =>
    rw [newcomers_cons (hid hslot)]
    unfold insertNew
    cases hinsert : timeline.insert? slot with
    | some extended =>
      have hfree : ¬ timeline.contains slot.id = true := by
        rw [← insert?_eq_none_iff, hinsert]
        exact Option.some_ne_none _
      have htaken : extended.contains = fun used => slot.id == used || timeline.contains used :=
        funext (contains_insert? hinsert)
      rw [if_neg hfree, ← htaken]
      exact .cons hslot ih
    | none =>
      rw [if_pos (insert?_eq_none_iff.1 hinsert)]
      exact ih

/-- The tiers of a list that are added are those of the new elements. -/
theorem forall₂_splitNew {R : Node → Tier → Prop} {taken : List String} {tiers : List Tier}
    (hid : ∀ {element tier}, R element tier → element.attribute? name = some tier.id)
    (h : List.Forall₂ R elements tiers) :
    List.Forall₂ R (newcomers name taken.contains elements) (splitNew taken tiers).1 := by
  induction h generalizing taken with
  | nil => exact .nil
  | @cons element tier elements tiers htier _ ih =>
    rw [newcomers_cons (hid htier)]
    unfold splitNew
    split
    next => exact ih
    next =>
      have htaken : (tier.id :: taken).contains =
          fun used => tier.id == used || taken.contains used := by
        funext used
        rw [List.contains_cons, Bool.beq_comm]
      rw [← htaken]
      exact .cons htier ih

end Added

namespace Document

/-- **Everything in a file is accounted for.** Let a file join a document. The slots that were
added, those that were passed over and those without a time are together as many as there are slot
elements with an id in the file, and likewise the tiers are as many as there are tier elements. The
document grows by just the slots, tiers and annotations that are counted as added. The added slots
stand behind the old ones and are, in document order, what the first element with a time says for
each id that is not in use; and the added tiers likewise, each with what all annotation elements
below say, in document order. -/
theorem tally_of_importTree {document : Document} {options : ReadOptions} {root : Node}
    {imported : Imported} (h : (document.importTree options root).result = .ok imported) :
    let tally := imported.tally
    let slotElements := (root.childrenNamed "TIME_ORDER").flatMap (·.descendantsNamed "TIME_SLOT")
    let tierElements := root.descendantsNamed "TIER"
    tally.slots + tally.duplicateSlots + tally.unalignedSlots =
      slotElements.countP (fun element => (element.attribute? "TIME_SLOT_ID").isSome) ∧
    tally.tiers + tally.duplicateTiers = tierElements.length ∧
    imported.document.timeline.size = document.timeline.size + tally.slots ∧
    imported.document.tiers.length = document.tiers.length + tally.tiers ∧
    imported.document.notes.length = document.notes.length + tally.notes ∧
    ∃ header slots tiers, Header.ofRoot? root = .ok header ∧
      imported.document.timeline.toList = document.timeline.toList ++ slots ∧
      List.Forall₂ (TimeSlot.IsOf header.timeUnit)
        (newcomers "TIME_SLOT_ID" document.timeline.contains
          (slotElements.filter SlotEntry.isTimed)) slots ∧
      imported.document.tiers = document.tiers ++ tiers ∧
      List.Forall₂ (Tier.IsOf options)
        (newcomers "TIER_ID" document.hasTier tierElements) tiers ∧
      (document.Reachable → ∀ id, document.timeline.contains id = true ↔
        id ∈ document.timeline.toList.map (·.id)) := by
  intro tally slotElements tierElements
  obtain ⟨content, hcontent, hdocument, htally⟩ := importTree_ok h
  obtain ⟨header, hheader, -⟩ := Content.ofRoot?_ok hcontent
  have hslots : List.Forall₂ (TimeSlot.IsOf header.timeUnit)
      (slotElements.filter SlotEntry.isTimed) content.slots :=
    Content.forall₂_slots hcontent hheader
  have htiers : List.Forall₂ (Tier.IsOf options) tierElements content.tiers :=
    Content.forall₂_tiers hcontent
  obtain ⟨hslotCount, htierCount⟩ := document.absorb_tally options.resyncCounters content
  have htimeline : imported.document.timeline.toList =
      document.timeline.toList ++ (document.timeline.insertNew content.slots).2 := by
    rw [hdocument]
    exact Timeline.toList_insertNew _ _
  have hjoined : imported.document.tiers =
      document.tiers ++ (splitNew document.tierIds content.tiers).1 := by
    rw [hdocument]
    rfl
  have htaken : document.tierIds.contains = document.hasTier := by
    funext id
    rw [Bool.eq_iff_iff, List.contains_iff_mem, hasTier_iff]
  refine ⟨?_, ?_, ?_, ?_, ?_, header, _, _, hheader, htimeline,
    Timeline.forall₂_insertNew (fun hslot => hslot.id) hslots, hjoined,
    htaken ▸ forall₂_splitNew (fun htier => htier.id) htiers,
    fun hreachable id => hreachable.faithful.contains_iff⟩
  · have hunaligned : tally.unalignedSlots = content.unaligned :=
      congrArg Tally.unalignedSlots htally
    rw [SlotEntry.countP_id_eq header.timeUnit, hslots.length_eq, ← hslotCount, ← htally,
      hunaligned, Content.unaligned_eq hcontent hheader]
    rfl
  · rw [htiers.length_eq, ← htierCount, ← htally]
  · rw [Timeline.size_of_append htimeline]
    exact congrArg (document.timeline.size + ·) (congrArg Tally.slots htally).symm
  · rw [hjoined, List.length_append]
    exact congrArg (document.tiers.length + ·) (congrArg Tally.tiers htally).symm
  · rw [notes, hjoined, List.flatMap_append, List.length_append]
    exact congrArg (document.notes.length + ·) (congrArg Tally.notes htally).symm

/-- Of two slots and two tiers with the same new id the first one is added, and what has an id of
the document is not. -/
theorem tally_of_importTree_repeating :
    let document := empty.run [.createTier "text" "en", .createNote "tier0" "word" 0 100]
    ∃ imported, (document.importTree {} repeatingFile).result = .ok imported ∧
      imported.tally.slots + imported.tally.duplicateSlots + imported.tally.unalignedSlots = 4 ∧
      imported.tally.tiers + imported.tally.duplicateTiers = 3 ∧
      imported.document.timeline.toList =
        document.timeline.toList ++ [{ id := "ts5", value := 3000 }] ∧
      ∃ tier, imported.document.tiers = document.tiers ++ [tier] ∧ tier.id = "words" ∧
        tier.notes.map (·.id) = ["an3"] := by
  intro document
  obtain ⟨imported, himport⟩ : ∃ imported,
      (document.importTree {} repeatingFile).result = .ok imported :=
    exists_ok_of_isOk (by decide +kernel)
  obtain ⟨hslotCount, htierCount, -, -, -, header, slots, tiers, hheader, htimeline, hslots,
    hjoined, htiers, -⟩ := tally_of_importTree himport
  have hnewSlots : newcomers "TIME_SLOT_ID" document.timeline.contains
      ((SlotEntry.elements repeatingFile).filter SlotEntry.isTimed) =
      [.element "TIME_SLOT"
        [{ name := "TIME_SLOT_ID", value := "ts5" }, { name := "TIME_VALUE", value := "3" }]
        []] := by
    rfl
  have hnewTiers : ∃ element, newcomers "TIER_ID" document.hasTier
      (repeatingFile.descendantsNamed "TIER") = [element] ∧
      element.attribute? "TIER_ID" = some "words" ∧
      ∃ below, element.descendants.filter (fun below =>
        below.isElement "ALIGNABLE_ANNOTATION" || below.isElement "REF_ANNOTATION") = [below] ∧
        below.attribute? "ANNOTATION_ID" = some "an3" :=
    ⟨_, rfl, rfl, _, rfl, rfl⟩
  obtain rfl := Except.ok.inj hheader
  obtain ⟨element, hnewTiers, hid, below, hnotes, hnote⟩ := hnewTiers
  obtain ⟨⟨id, value⟩, rfl, hslot⟩ := exists_eq_singleton_of_forall₂ (hnewSlots ▸ hslots)
  obtain ⟨text, htext, hread⟩ := hslot.value
  obtain rfl : "3" = text := Option.some.inj htext
  obtain rfl : "ts5" = id := Option.some.inj hslot.id
  have htime : TimeUnit.seconds.read? "3" = some 3000 := by decide +kernel
  obtain rfl : 3000 = value := Option.some.inj (htime.symm.trans hread)
  obtain ⟨tier, rfl, htier⟩ := exists_eq_singleton_of_forall₂ (hnewTiers ▸ htiers)
  obtain ⟨note, htierNotes, hnote'⟩ := exists_eq_singleton_of_forall₂ (hnotes ▸ htier.notes)
  refine ⟨imported, himport, hslotCount, htierCount, htimeline, tier, hjoined, ?_, ?_⟩
  · exact Option.some.inj (htier.id.symm.trans hid)
  · rw [htierNotes]
    exact congrArg ([·]) (Option.some.inj (hnote'.id.symm.trans hnote))

end Document

end Eaf

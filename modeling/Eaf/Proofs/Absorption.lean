import Eaf.Proofs.Counting
import Eaf.Proofs.Elements

/-!
# Reading a file twice

Once a file has joined a document, all ids of its slots and tiers are taken, what it says of the
recording is said, and the counter that it records is not ahead. So the file has nothing to add when
it is read again, whatever it repeats in itself or shares with the document. The options of the two
readings do not matter: they decide how values of annotations are read and whether counters follow
the ids that are added, and no second reading adds any.

## Main definitions

* `Eaf.Content.unlabelled` — what a file says, without the values of annotations.
* `Eaf.Document.Knows` — a document to which the content of a file is not new.

## Main results

* `Eaf.Content.ofRoot?_unlabelled` — what a file says does not depend on options otherwise.
* `Eaf.Timeline.insertNew_of_contains`, `Eaf.splitNew_of_taken` — what is there is passed over.
* `Eaf.Document.absorb_knows` — a document knows what has joined it.
* `Eaf.Document.Knows.document_absorb` — what a document knows leaves it as it is.
* `Eaf.Document.importTree_again` — a file that is read a second time.
-/

namespace Eaf

/-! ### Slots that are there -/

namespace Timeline

variable {timeline extended : Timeline} {slot : TimeSlot} {slots : List TimeSlot} {id : String}

/-- After an insertion the id of the slot is in use, and the others are as before. -/
theorem contains_insert? (h : timeline.insert? slot = some extended) (id : String) :
    extended.contains id = (slot.id == id || timeline.contains id) := by
  unfold insert? at h
  split at h
  · cases h
  · cases h
    rw [Bool.eq_iff_iff]
    simp [contains, Std.TreeMap.contains_insert]

/-- Insertions take no id away. -/
theorem contains_insertNew_of_contains (h : timeline.contains id = true) :
    (timeline.insertNew slots).1.contains id = true := by
  induction slots generalizing timeline with
  | nil => exact h
  | cons slot slots ih =>
    unfold insertNew
    split
    next extended hinsert => exact ih (by rw [contains_insert? hinsert, h, Bool.or_true])
    next => exact ih h

/-- After the insertion of a list the ids of its slots are in use. -/
theorem contains_insertNew (timeline : Timeline) (slots : List TimeSlot) :
    ∀ slot ∈ slots, (timeline.insertNew slots).1.contains slot.id = true := by
  induction slots generalizing timeline with
  | nil => exact List.forall_mem_nil _
  | cons slot slots ih =>
    unfold insertNew
    split
    next extended hinsert =>
      refine List.forall_mem_cons.2 ⟨contains_insertNew_of_contains ?_, ih extended⟩
      rw [contains_insert? hinsert, beq_self_eq_true, Bool.true_or]
    next hnone =>
      exact List.forall_mem_cons.2
        ⟨contains_insertNew_of_contains (insert?_eq_none_iff.1 hnone), ih timeline⟩

/-- Slots whose ids are in use are all passed over. -/
theorem insertNew_of_contains (h : ∀ slot ∈ slots, timeline.contains slot.id = true) :
    timeline.insertNew slots = (timeline, []) := by
  induction slots with
  | nil => rfl
  | cons slot slots ih =>
    obtain ⟨hslot, hslots⟩ := List.forall_mem_cons.1 h
    rw [insertNew, insert?_eq_none_iff.2 hslot]
    exact ih hslots

end Timeline

/-! ### Tiers that are there -/

/-- Tiers whose ids are taken are all passed over. -/
theorem splitNew_of_taken {taken : List String} {tiers : List Tier}
    (h : ∀ tier ∈ tiers, tier.id ∈ taken) : splitNew taken tiers = ([], tiers.map (·.id)) := by
  induction tiers with
  | nil => rfl
  | cons tier tiers ih =>
    obtain ⟨htier, htiers⟩ := List.forall_mem_cons.1 h
    rw [splitNew, if_pos (by simpa using htier), ih htiers]
    rfl

/-- The id of a tier was taken, or a tier is added under it. -/
theorem mem_taken_or_splitNew (taken : List String) (tiers : List Tier) :
    ∀ tier ∈ tiers, tier.id ∈ taken ∨ tier.id ∈ (splitNew taken tiers).1.map (·.id) := by
  induction tiers generalizing taken with
  | nil => exact List.forall_mem_nil _
  | cons tier tiers ih =>
    unfold splitNew
    split
    next htaken => exact List.forall_mem_cons.2 ⟨Or.inl (by simpa using htaken), ih taken⟩
    next =>
      refine List.forall_mem_cons.2 ⟨Or.inr List.mem_cons_self, fun other hother => ?_⟩
      rcases ih (tier.id :: taken) other hother with hold | hadded
      · rcases List.mem_cons.1 hold with heq | hold
        · exact Or.inr (by rw [heq]; exact List.mem_cons_self)
        · exact Or.inl hold
      · exact Or.inr (List.mem_cons_of_mem _ hadded)

/-- Every tier is added or passed over. -/
theorem length_splitNew (taken : List String) (tiers : List Tier) :
    (splitNew taken tiers).1.length + (splitNew taken tiers).2.length = tiers.length := by
  induction tiers generalizing taken with
  | nil => rfl
  | cons tier tiers ih =>
    unfold splitNew
    split
    next =>
      have hrest := ih taken
      simp only [List.length_cons]
      omega
    next =>
      have hrest := ih (tier.id :: taken)
      simp only [List.length_cons]
      omega

/-! ### What options decide -/

/-- An annotation without its value. -/
def Note.unlabelled (note : Note) : Note :=
  { note with value := "" }

/-- A tier without the values of its annotations. -/
def Tier.unlabelled (tier : Tier) : Tier :=
  { tier with notes := tier.notes.map Note.unlabelled }

/-- What a file says, without the values of annotations. -/
def Content.unlabelled (content : Content) : Content :=
  { content with tiers := content.tiers.map Tier.unlabelled }

/-- Lists are read alike up to a view if their items are. -/
theorem map_mapM_congr {α β γ ε : Type} {f g : α → Except ε β} {view : β → γ} (xs : List α)
    (h : ∀ x, (f x).map view = (g x).map view) :
    (xs.mapM f).map (List.map view) = (xs.mapM g).map (List.map view) := by
  induction xs with
  | nil => rfl
  | cons x xs ih =>
    have hx := h x
    rw [List.mapM_cons, List.mapM_cons]
    cases hf : f x <;> cases hg : g x <;> rw [hf, hg] at hx
    · cases hx
      rfl
    · cases hx
    · cases hx
    next y z =>
      have hyz := Except.ok.inj hx
      cases hfs : xs.mapM f <;> cases hgs : xs.mapM g <;> rw [hfs, hgs] at ih
      · cases ih
        rfl
      · cases ih
      · cases ih
      next ys zs =>
        have hlist : (y :: ys).map view = (z :: zs).map view := by
          rw [List.map_cons, List.map_cons, hyz, Except.ok.inj ih]
        exact congrArg Except.ok hlist

section Options

variable (first second : ReadOptions) (node : Xml.Node)

theorem Note.ofElement?_unlabelled :
    (Note.ofElement? first node).map unlabelled = (Note.ofElement? second node).map unlabelled := by
  unfold Note.ofElement?
  split <;> rfl

theorem Tier.ofElement?_unlabelled :
    (Tier.ofElement? first node).map unlabelled = (Tier.ofElement? second node).map unlabelled := by
  have hnotes := map_mapM_congr (Note.elements node) (Note.ofElement?_unlabelled first second)
  unfold Tier.ofElement?
  split
  · rfl
  · cases hfirst : (Note.elements node).mapM (Note.ofElement? first) <;>
      cases hsecond : (Note.elements node).mapM (Note.ofElement? second) <;>
      rw [hfirst, hsecond] at hnotes
    · cases hnotes
      rfl
    · cases hnotes
    · cases hnotes
    · simp only [Except.map, unlabelled, Except.ok.inj hnotes]

/-- What a file says, and whether it says anything, does not depend on the options, but for the
values of annotations. -/
theorem Content.ofRoot?_unlabelled :
    (Content.ofRoot? first node).map unlabelled = (Content.ofRoot? second node).map unlabelled := by
  have htiers := map_mapM_congr (node.descendantsNamed "TIER")
    (Tier.ofElement?_unlabelled first second)
  unfold Content.ofRoot?
  cases Header.ofRoot? node with
  | error => rfl
  | ok header =>
    cases hslots : SlotEntry.slots? (SlotEntry.ofRoot header.timeUnit node) with
    | error => simp only [bind, Except.bind, hslots]
    | ok slots =>
      simp only [bind, Except.bind, hslots]
      cases hfirst : (node.descendantsNamed "TIER").mapM (Tier.ofElement? first) <;>
        cases hsecond : (node.descendantsNamed "TIER").mapM (Tier.ofElement? second) <;>
        rw [hfirst, hsecond] at htiers
      · cases htiers
        rfl
      · cases htiers
      · cases htiers
      · simp only [pure, Except.pure, Except.map, unlabelled, Except.ok.inj htiers]

end Options

namespace Document

variable {document : Document} {content again : Content}

/-! ### Content that a document knows -/

/-- A document knows what a file says: its media are those of the file, the ids of slots and tiers
are taken, and the counter that the file records is not ahead. -/
structure Knows (document : Document) (content : Content) : Prop where
  media : content.media = document.media
  slots : ∀ slot ∈ content.slots, document.timeline.contains slot.id = true
  tiers : ∀ id ∈ content.tiers.map (·.id), id ∈ document.tierIds
  lastUsed : ∀ value, content.lastUsed = some value → value ≤ document.counters.note

theorem Knows.splitNew_eq (h : document.Knows content) :
    splitNew document.tierIds content.tiers = ([], content.tiers.map (·.id)) :=
  splitNew_of_taken fun _ htier => h.tiers _ (List.mem_map_of_mem htier)

/-- What a document knows leaves it as it is. -/
theorem Knows.document_absorb (h : document.Knows content) (resync : Bool) :
    (document.absorb resync content).document = document := by
  have hslots := Timeline.insertNew_of_contains h.slots
  have htiers := h.splitNew_eq
  have hcounters : (document.absorb resync content).document.counters = document.counters := by
    rw [absorb_counters, Content.raise_of_le h.lastUsed, hslots, htiers]
    exact ite_self _
  calc (document.absorb resync content).document
    _ = { media := content.media
          timeline := (document.timeline.insertNew content.slots).1
          tiers := document.tiers ++ (splitNew document.tierIds content.tiers).1
          counters := (document.absorb resync content).document.counters } := rfl
    _ = document := by rw [hcounters, hslots, htiers, h.media, List.append_nil]

/-- Of what a document knows nothing is added and all is passed over. -/
theorem Knows.tally_absorb (h : document.Knows content) (resync : Bool) :
    (document.absorb resync content).tally =
      { slots := 0
        duplicateSlots := content.slots.length
        unalignedSlots := content.unaligned
        tiers := 0
        duplicateTiers := content.tiers.length
        notes := 0 } := by
  simp only [absorb, Timeline.insertNew_of_contains h.slots, h.splitNew_eq, List.length_nil,
    List.length_map, List.flatMap_nil, Nat.sub_zero]

/-- A document knows what has joined it. -/
theorem absorb_knows (document : Document) (resync : Bool) (content : Content) :
    (document.absorb resync content).document.Knows content where
  media := rfl
  slots := document.timeline.contains_insertNew content.slots
  tiers := by
    intro id hid
    obtain ⟨tier, htier, rfl⟩ := List.mem_map.1 hid
    show tier.id ∈ (document.tiers ++ (splitNew document.tierIds content.tiers).1).map (·.id)
    rw [List.map_append, List.mem_append]
    exact mem_taken_or_splitNew document.tierIds content.tiers tier htier
  lastUsed := fun _ => document.lastUsed_le_absorb resync

/-- The values of annotations do not matter for what a document knows. -/
theorem Knows.of_unlabelled (h : document.Knows content)
    (hsame : content.unlabelled = again.unlabelled) : document.Knows again := by
  have hmedia : content.media = again.media := (congrArg Content.media hsame :)
  have hslots : content.slots = again.slots := (congrArg Content.slots hsame :)
  have hlast : content.lastUsed = again.lastUsed := (congrArg Content.lastUsed hsame :)
  have hids : content.tiers.map (·.id) = again.tiers.map (·.id) := by
    have htiers := congrArg (fun other => other.tiers.map (·.id)) hsame
    simpa [Content.unlabelled, Tier.unlabelled, Function.comp_def] using htiers
  exact ⟨hmedia ▸ h.media, hslots ▸ h.slots, hids ▸ h.tiers, hlast ▸ h.lastUsed⟩

/-! ### Reading twice -/

/-- Every slot and every tier of a file is added or passed over. -/
theorem absorb_tally (document : Document) (resync : Bool) (content : Content) :
    let tally := (document.absorb resync content).tally
    tally.slots + tally.duplicateSlots = content.slots.length ∧
      tally.tiers + tally.duplicateTiers = content.tiers.length :=
  ⟨Nat.add_sub_cancel' (Timeline.insertNew_sublist _ _).length_le, length_splitNew _ _⟩

/-- **Reading a file twice is reading it once.** If a file is read into a document, it can be read
into the document that results, with whatever options. It leaves this document exactly as it is and
adds nothing; what the first reading added or passed over the second passes over, and the slots
without a time are the same. -/
theorem importTree_again (document : Document) (first second : ReadOptions) (root : Xml.Node)
    {imported : Imported} (h : (document.importTree first root).result = .ok imported) :
    ∃ again, (imported.document.importTree second root).result = .ok again ∧
      again.document = imported.document ∧
      again.tally =
        { slots := 0
          duplicateSlots := imported.tally.slots + imported.tally.duplicateSlots
          unalignedSlots := imported.tally.unalignedSlots
          tiers := 0
          duplicateTiers := imported.tally.tiers + imported.tally.duplicateTiers
          notes := 0 } := by
  obtain ⟨content, hcontent, hdocument, htally⟩ := importTree_ok h
  have hsame := Content.ofRoot?_unlabelled first second root
  rw [hcontent] at hsame
  cases hagain : Content.ofRoot? second root with
  | error fault =>
    rw [hagain] at hsame
    cases hsame
  | ok other =>
    rw [hagain] at hsame
    have hsame := Except.ok.inj hsame
    have hslots : content.slots = other.slots := (congrArg Content.slots hsame :)
    have hunaligned : content.unaligned = other.unaligned :=
      (congrArg Content.unaligned hsame :)
    have hlength : content.tiers.length = other.tiers.length := by
      simpa [Content.unlabelled] using congrArg (fun other => other.tiers.length) hsame
    obtain ⟨again, hresult, hdocument', htally'⟩ := importTree_of_content hagain imported.document
    have hknows : imported.document.Knows other := by
      rw [hdocument]
      exact (document.absorb_knows _ content).of_unlabelled hsame
    obtain ⟨htotal, htotal'⟩ := document.absorb_tally first.resyncCounters content
    rw [hknows.document_absorb] at hdocument'
    rw [hknows.tally_absorb] at htally'
    refine ⟨again, hresult, hdocument', htally'.trans ?_⟩
    rw [htally, htotal, htotal', hslots, hlength, ← hunaligned]
    rfl

/-- A file that repeats a slot and a tier, shares ids with other documents, and records the largest
counter. -/
def repeatingFile : Xml.Node :=
  Outline.root
    { counters := ["18446744073709551615"]
      slots := [("ts0", some "9"), ("ts5", some "3"), ("ts5", some "4"), ("ts6", none)]
      tiers :=
        [ tierElement "words" none [alignedElement "an3" "ts0" "ts5" (some "a\u00ADb")],
          tierElement "words" none [], tierElement "tier0" none [] ] }

/-- A file is read into a document that has ids of it, and once more with all options reversed. -/
theorem importTree_again_repeating :
    let document := empty.run [.createTier "text" "en", .createNote "tier0" "word" 0 100]
    ∃ imported again,
      (document.importTree {} repeatingFile).result = .ok imported ∧
        imported.tally = { slots := 1, duplicateSlots := 2, unalignedSlots := 1, tiers := 1,
                           duplicateTiers := 2, notes := 1 } ∧
        (imported.document.importTree
          { resyncCounters := false, strict := true, replaceSoftHyphens := false }
          repeatingFile).result = .ok again ∧
        again.document = imported.document ∧
        again.tally = { slots := 0, duplicateSlots := 3, unalignedSlots := 1, tiers := 0,
                        duplicateTiers := 3, notes := 0 } := by
  intro document
  have htally : (document.importTree {} repeatingFile).result.toOption.map (·.tally) =
      some { slots := 1, duplicateSlots := 2, unalignedSlots := 1, tiers := 1,
             duplicateTiers := 2, notes := 1 } := by
    decide +kernel
  obtain ⟨imported, h⟩ : ∃ imported, (document.importTree {} repeatingFile).result = .ok imported :=
    exists_ok_of_isOk (by decide +kernel)
  rw [h] at htally
  have htally : imported.tally = _ := Option.some.inj htally
  obtain ⟨again, hagain, hdocument, htally'⟩ := importTree_again document {}
    { resyncCounters := false, strict := true, replaceSoftHyphens := false } repeatingFile h
  rw [htally] at htally'
  exact ⟨imported, again, h, htally, hagain, hdocument, htally'⟩

end Document

end Eaf

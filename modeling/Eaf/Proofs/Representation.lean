import Eaf.Proofs.Growth
import Eaf.Proofs.Run

/-!
# What holds of the parts of every document

Slots enter a document in two ways, from files and for new annotations, and each way checks by its
own means that an id is free. Both keep the positions of the timeline faithful. Tiers enter from
files and by creation under ids that no tier has, so that only an edit of an id can make two tiers
share one.

## Main results

* `Eaf.splitNew_fresh` — the tiers that a file adds have new and distinct ids.
* `Eaf.Document.Reachable.faithful` — the positions of every reachable document are faithful.
* `Eaf.Document.representation_of_run` — the positions and the tier ids at the end of every run.
-/

namespace Eaf

/-- The tiers that are kept of a list have distinct ids, none of which was taken. -/
theorem splitNew_fresh (taken : List String) (tiers : List Tier) :
    ((splitNew taken tiers).1.map (·.id)).Nodup ∧
      ∀ tier ∈ (splitNew taken tiers).1, tier.id ∉ taken := by
  induction tiers generalizing taken with
  | nil => simp [splitNew]
  | cons tier rest ih =>
    unfold splitNew
    split
    next => exact ih taken
    next hfree =>
      obtain ⟨hnodup, hfresh⟩ := ih (tier.id :: taken)
      refine ⟨List.nodup_cons.2 ⟨fun hmem => ?_, hnodup⟩, ?_⟩
      · obtain ⟨other, hother, hid⟩ := List.mem_map.1 hmem
        exact hfresh other hother (List.mem_cons.2 (Or.inl hid))
      · rintro other (_ | ⟨_, hother⟩)
        · simpa using hfree
        · exact fun hmem => hfresh other hother (List.mem_cons_of_mem _ hmem)

/-- The tiers that are added are tiers of the list, in its order. -/
theorem splitNew_sublist (taken : List String) (tiers : List Tier) :
    (splitNew taken tiers).1.Sublist tiers := by
  induction tiers generalizing taken with
  | nil => exact .refl _
  | cons tier rest ih =>
    unfold splitNew
    split
    next => exact (ih taken).cons tier
    next => exact (ih (tier.id :: taken)).cons_cons tier

namespace Document

variable {document : Document} {created : Created}

/-! ### Positions -/

theorem absorb_faithful (h : document.timeline.Faithful) (resync : Bool) (content : Content) :
    (document.absorb resync content).document.timeline.Faithful :=
  h.insertNew content.slots

theorem slotForTime_faithful {value : Int64} (h : document.timeline.Faithful)
    (hcreate : document.slotForTime value = .ok created) :
    created.document.timeline.Faithful := by
  obtain ⟨hdocument, -⟩ | ⟨-, -, timeline, _, hinsert, hdocument⟩ := slotForTime_ok hcreate
  · rwa [hdocument]
  · rw [hdocument]
    exact h.insert? hinsert

theorem createNote_faithful {tierId value : String} {start stop : Int64}
    (h : document.timeline.Faithful)
    (hcreate : document.createNote tierId value start stop = .ok created) :
    created.document.timeline.Faithful := by
  obtain ⟨first, last, hfirst, hlast, -, -, _, _, _, _, -, -, -, hdocument⟩ := createNote_ok hcreate
  rw [hdocument]
  exact slotForTime_faithful (slotForTime_faithful h hfirst) hlast

/-- Every act keeps the positions of the timeline faithful. -/
theorem after_faithful (h : document.timeline.Faithful) (act : Act) :
    (document.after act).timeline.Faithful := by
  refine after_induction (P := fun d => d.timeline.Faithful) h (absorb_faithful h) ?_ ?_ ?_ ?_
  · intro linguisticType locale created hcreate
    obtain ⟨-, -, _, hdocument⟩ := createTier_ok hcreate
    simpa only [hdocument] using h
  · exact fun _ _ _ _ created _ hcreate => createNote_faithful h hcreate
  · exact fun _ => h
  · intro tierId change edited _ hedit
    obtain ⟨_, _, _, -, -, -, rfl⟩ := modifyTier?_eq_some hedit
    exact h

theorem Reachable.faithful (h : document.Reachable) : document.timeline.Faithful :=
  h.induction (P := fun d => d.timeline.Faithful) Timeline.faithful_empty
    fun _ act hd => after_faithful hd act

/-! ### Ids of tiers -/

theorem hasTier_iff {id : String} : document.hasTier id = true ↔ id ∈ document.tierIds := by
  simp [hasTier, tierIds]

theorem absorb_tierIds_nodup (h : document.tierIds.Nodup) (resync : Bool) (content : Content) :
    (document.absorb resync content).document.tierIds.Nodup := by
  obtain ⟨hnodup, hfresh⟩ := splitNew_fresh document.tierIds content.tiers
  have htiers : (document.absorb resync content).document.tierIds =
      document.tierIds ++ (splitNew document.tierIds content.tiers).1.map (·.id) := by
    simp [absorb, tierIds]
  rw [htiers]
  refine List.nodup_append.2 ⟨h, hnodup, fun id hold other hnew heq => ?_⟩
  obtain ⟨tier, htier, rfl⟩ := List.mem_map.1 hnew
  exact hfresh tier htier (heq ▸ hold)

theorem createTier_tierIds_nodup {linguisticType locale : String} (h : document.tierIds.Nodup)
    (hcreate : document.createTier linguisticType locale = .ok created) :
    created.document.tierIds.Nodup := by
  obtain ⟨-, hfree, counters, hdocument⟩ := createTier_ok hcreate
  have hnew : created.id ∉ document.tierIds := by
    rw [← hasTier_iff, hfree]
    simp
  have htiers : created.document.tierIds = document.tierIds ++ [created.id] := by
    simp [hdocument, tierIds]
  rw [htiers]
  refine List.nodup_append.2 ⟨h, List.nodup_singleton _, fun id hold other hother heq => ?_⟩
  rw [List.mem_singleton.1 hother] at heq
  exact hnew (heq ▸ hold)

/-- A new annotation leaves the ids of all tiers alone. -/
theorem createNote_tierIds {tierId value : String} {start stop : Int64}
    (hcreate : document.createNote tierId value start stop = .ok created) :
    created.document.tierIds = document.tierIds := by
  obtain ⟨_, _, -, -, -, -, _, _, _, _, hsplit, -, -, hdocument⟩ := createNote_ok hcreate
  simp [hdocument, tierIds, hsplit, Tier.append]

/-- Every act that keeps the ids of tiers keeps them distinct. -/
theorem after_tierIds_nodup (h : document.tierIds.Nodup) {act : Act} (hkeeps : act.KeepsTierIds) :
    (document.after act).tierIds.Nodup := by
  refine after_induction (P := fun d => d.tierIds.Nodup) h (absorb_tierIds_nodup h) ?_ ?_ ?_ ?_
  · exact fun _ _ created hcreate => createTier_tierIds_nodup h hcreate
  · intro tierId value start stop created _ hcreate
    simpa only [createNote_tierIds hcreate] using h
  · exact fun _ => h
  · rintro tierId change edited rfl hedit
    obtain ⟨_, tier, _, hsplit, -, -, rfl⟩ := modifyTier?_eq_some hedit
    have hid : (change tier).id = tier.id := hkeeps tier
    simpa [tierIds, hsplit, hid] using h

/-! ### The representation at the end of a run -/

/-- **The representation is sound after every run.** Whatever files are read, objects made, media
assigned and tiers edited, the ids of the slots are distinct; the positions map exactly these ids,
each to its place, so that no position is out of range and a look-up finds the first slot with
the id; and unless an edit changed the id of a tier, the ids of the tiers are distinct. -/
theorem representation_of_run (acts : List Act) :
    let document := empty.run acts
    (document.timeline.toList.map (·.id)).Nodup ∧
      (∀ (id : String) (i : Nat), document.timeline.positions[id]? = some i ↔
        document.timeline.slots[i]?.map (·.id) = some id) ∧
      (∀ (id : String) (i : Nat), document.timeline.positions[id]? = some i →
        i < document.timeline.slots.size) ∧
      (∀ id, document.slot? id = document.timeline.toList.find? (·.id == id)) ∧
      ((∀ act ∈ acts, act.KeepsTierIds) → document.tierIds.Nodup) := by
  intro document
  have hfaithful : document.timeline.Faithful := Reachable.faithful ⟨acts, rfl⟩
  refine ⟨hfaithful.nodup, hfaithful, fun _ _ => hfaithful.lt_size, hfaithful.find?_eq, ?_⟩
  intro hkeeps
  refine run_induction (P := fun d => d.tierIds.Nodup) List.nodup_nil fun d act hact hd => ?_
  exact after_tierIds_nodup hd (hkeeps act hact)

/-- A run that makes two tiers, an annotation and a parent link keeps the ids of tiers. -/
theorem representation_of_run_with_parent :
    let acts : List Act :=
      [.createTier "text" "en", .createTier "gloss" "en", .createNote "tier0" "word" 500 250,
        .editTier "tier1" fun tier => { tier with parent := some "tier0" }]
    (∀ act ∈ acts, act.KeepsTierIds) ∧ (empty.run acts).tierIds.Nodup := by
  intro acts
  have hkeeps : ∀ act ∈ acts, act.KeepsTierIds := by simp [acts, Act.KeepsTierIds]
  exact ⟨hkeeps, (representation_of_run acts).2.2.2.2 hkeeps⟩

end Document

end Eaf

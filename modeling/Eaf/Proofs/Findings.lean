import Eaf.Proofs.CleanReport
import Eaf.Proofs.Walk

/-!
# What is wrong is what is found

A report lists every problem once for every object that has it, and lists nothing else: a missing
parent for a tier, a missing slot for either end of an annotation, a missing target or a circle for
an annotation that refers to another, an inverted interval, and for an id as many repetitions as
there are annotations with this id but one. So the number of times that a problem stands in the
report is the number of objects that have it, which is said here without the report.

## Main results

* `Eaf.Document.count_issues` — a problem is looked for among tiers, anchors or repeated ids.
* `Eaf.Report.ensureResolved_eq_ok_iff` — when no reference is unresolved.
* `Eaf.Document.findings_of_report` — how often each problem stands in a report.
-/

namespace Eaf

/-! ### Counting -/

section Counting

variable {α β : Type} [DecidableEq β] {f : α → List β} {p q : α → Prop} [DecidablePred p]
  [DecidablePred q] {y : β}

theorem count_flatMap_eq_add
    (h : ∀ x, (f x).count y = (if p x then 1 else 0) + if q x then 1 else 0) (xs : List α) :
    (xs.flatMap f).count y = xs.countP p + xs.countP q := by
  induction xs with
  | nil => rfl
  | cons x xs ih =>
    rw [List.flatMap_cons, List.count_append, ih, h, List.countP_cons, List.countP_cons]
    simp only [decide_eq_true_eq]
    omega

theorem count_flatMap_eq_countP (h : ∀ x, (f x).count y = if p x then 1 else 0) (xs : List α) :
    (xs.flatMap f).count y = xs.countP p := by
  have hadd := count_flatMap_eq_add (p := p) (q := fun _ => False) (f := f) (y := y)
    (fun x => by rw [h, if_neg not_false, Nat.add_zero]) xs
  have hnone : xs.countP (fun _ => decide False) = 0 := List.countP_eq_zero.2 (by simp)
  rw [hadd, hnone, Nat.add_zero]

/-- Of the times that an element stands in a list all are repetitions but the first, and that is
one too if the element was seen before. -/
theorem count_repeated [DecidableEq α] (seen xs : List α) (x : α) :
    (repeated seen xs).count x = xs.count x - if x ∈ seen then 0 else 1 := by
  induction xs generalizing seen with
  | nil => simp [repeated]
  | cons other xs ih =>
    have hfirst : (if other ∈ seen then [other] else []).count x =
        if other = x ∧ x ∈ seen then 1 else 0 := by
      by_cases heq : other = x
      · subst heq
        by_cases hseen : other ∈ seen <;> simp [hseen]
      · split <;> simp [heq]
    rw [repeated, List.count_append, ih, List.count_cons, hfirst]
    simp only [List.mem_cons, beq_iff_eq]
    grind

end Counting

/-! ### Unresolved references -/

/-- No reference is unresolved exactly if no slot, no target and no parent is missing and no
references run in a circle. -/
theorem Report.ensureResolved_eq_ok_iff {report : Report} :
    report.ensureResolved = .ok () ↔
      (∀ note slot, .missingTimeSlot note slot ∉ report.issues) ∧
      (∀ note target, .missingTarget note target ∉ report.issues) ∧
      (∀ tier parent, .missingParentTier tier parent ∉ report.issues) ∧
      ∀ note, .referenceCycle note ∉ report.issues := by
  have hok : report.ensureResolved = .ok () ↔
      ∀ issue ∈ report.issues, Report.unresolved? issue = none := by
    rw [ensureResolved, firstUnresolved?, ← List.findSome?_eq_none_iff]
    cases report.issues.findSome? unresolved? with
    | none => exact iff_of_true rfl rfl
    | some => exact iff_of_false nofun nofun
  rw [hok]
  constructor
  · intro h
    exact ⟨fun _ _ hmem => (nomatch h _ hmem), fun _ _ hmem => (nomatch h _ hmem),
      fun _ _ hmem => (nomatch h _ hmem), fun _ hmem => (nomatch h _ hmem)⟩
  · rintro ⟨hslots, htargets, hparents, hcircles⟩ issue hissue
    cases issue with
    | missingTimeSlot note slot => exact absurd hissue (hslots note slot)
    | missingTarget note target => exact absurd hissue (htargets note target)
    | missingParentTier tier parent => exact absurd hissue (hparents tier parent)
    | referenceCycle note => exact absurd hissue (hcircles note)
    | invertedInterval => rfl
    | duplicateNoteId => rfl

namespace Document

variable {document : Document} {tier : Tier} {note : Note} {issue : Issue}

/-! ### Where a problem is looked for -/

theorem exists_of_mem_parentIssues (h : issue ∈ document.parentIssues tier) :
    ∃ parent, issue = .missingParentTier tier.id parent := by
  unfold parentIssues at h
  split at h
  · cases h
  next parent _ =>
    split at h
    · cases h
    · exact ⟨parent, List.mem_singleton.1 h⟩

theorem ne_of_mem_anchorIssues (h : issue ∈ document.anchorIssues note) :
    (∀ tier parent, issue ≠ .missingParentTier tier parent) ∧
      ∀ id, issue ≠ .duplicateNoteId id := by
  unfold anchorIssues at h
  split at h
  next start stop _ =>
    dsimp only [alignedIssues] at h
    cases hfirst : document.slot? start <;> cases hlast : document.slot? stop <;>
      simp [hfirst, hlast] at h <;> grind
  next target _ =>
    unfold referringIssues at h
    grind

/-- A problem stands in a report as often as among the problems of tiers, among those of anchors
and among the repetitions of ids. -/
theorem count_issues (document : Document) (issue : Issue) :
    document.report.issues.count issue =
      (document.tiers.flatMap document.parentIssues).count issue +
        ((document.notes.flatMap document.anchorIssues).count issue +
          ((repeated [] (document.notes.map (·.id))).map Issue.duplicateNoteId).count issue) := by
  rw [document.issues_perm.count_eq, List.count_append, List.count_append]

theorem count_parents_eq_zero (h : ∀ tier parent, issue ≠ .missingParentTier tier parent) :
    (document.tiers.flatMap document.parentIssues).count issue = 0 := by
  refine List.count_eq_zero.2 fun hmem => ?_
  obtain ⟨tier, -, hissue⟩ := List.mem_flatMap.1 hmem
  obtain ⟨parent, heq⟩ := exists_of_mem_parentIssues hissue
  exact h _ _ heq

theorem count_anchors_eq_zero (h : ∀ note, issue ∉ document.anchorIssues note) :
    (document.notes.flatMap document.anchorIssues).count issue = 0 := by
  refine List.count_eq_zero.2 fun hmem => ?_
  obtain ⟨note, -, hissue⟩ := List.mem_flatMap.1 hmem
  exact h note hissue

theorem count_repetitions_eq_zero {ids : List String} (h : ∀ id, issue ≠ .duplicateNoteId id) :
    (ids.map Issue.duplicateNoteId).count issue = 0 := by
  refine List.count_eq_zero.2 fun hmem => ?_
  obtain ⟨id, -, heq⟩ := List.mem_map.1 hmem
  exact h id heq.symm

/-- A problem that is none of a parent and no repetition is one of an anchor. -/
theorem count_issues_of_anchor (hparent : ∀ tier parent, issue ≠ .missingParentTier tier parent)
    (hrepetition : ∀ id, issue ≠ .duplicateNoteId id) :
    document.report.issues.count issue =
      (document.notes.flatMap document.anchorIssues).count issue := by
  rw [count_issues, count_parents_eq_zero hparent, count_repetitions_eq_zero hrepetition,
    Nat.zero_add, Nat.add_zero]

/-! ### Tiers and ids -/

/-- A missing parent stands in the report once for every tier that names it. -/
theorem count_missingParentTier (document : Document) (id parent : String) :
    document.report.issues.count (.missingParentTier id parent) =
      document.tiers.countP fun tier =>
        tier.id = id ∧ tier.parent = some parent ∧ parent ∉ document.tierIds := by
  have hanchors (note : Note) : .missingParentTier id parent ∉ document.anchorIssues note :=
    fun hissue => (ne_of_mem_anchorIssues hissue).1 _ _ rfl
  rw [count_issues, count_anchors_eq_zero hanchors, count_repetitions_eq_zero (by simp)]
  refine count_flatMap_eq_countP (fun tier => ?_) document.tiers
  unfold parentIssues
  cases tier.parent with
  | none => simp
  | some named =>
    dsimp only
    by_cases hnamed : named ∈ document.tierIds
    · rw [if_pos (tier?_isSome_iff.2 hnamed)]
      grind
    · rw [if_neg fun h => hnamed (tier?_isSome_iff.1 h)]
      grind

/-- An id stands in the report as repeated once for every annotation that has it but one. -/
theorem count_duplicateNoteId (document : Document) (id : String) :
    document.report.issues.count (.duplicateNoteId id) =
      (document.notes.map (·.id)).count id - 1 := by
  have hanchors (note : Note) : .duplicateNoteId id ∉ document.anchorIssues note :=
    fun hissue => (ne_of_mem_anchorIssues hissue).2 _ rfl
  rw [count_issues, count_anchors_eq_zero hanchors, count_parents_eq_zero (by simp),
    Nat.zero_add, Nat.zero_add,
    List.count_map_of_injective _ _ fun _ _ => Issue.duplicateNoteId.inj, count_repeated,
    if_neg List.not_mem_nil]

/-! ### Anchors -/

/-- A missing slot stands in the report once for either end of every annotation that names it
there. -/
theorem count_missingTimeSlot (h : document.timeline.Faithful) (id slot : String) :
    document.report.issues.count (.missingTimeSlot id slot) =
      (document.notes.countP fun note => note.id = id ∧ note.slotRefs?.map Prod.fst = some slot ∧
        slot ∉ document.timeline.toList.map (·.id)) +
      document.notes.countP fun note => note.id = id ∧ note.slotRefs?.map Prod.snd = some slot ∧
        slot ∉ document.timeline.toList.map (·.id) := by
  rw [count_issues_of_anchor (by simp) (by simp)]
  refine count_flatMap_eq_add (fun note => ?_) document.notes
  simp only [← slot?_eq_none_iff h]
  unfold anchorIssues Note.slotRefs?
  cases note.anchor with
  | aligned start stop =>
    dsimp only [alignedIssues]
    cases hfirst : document.slot? start <;> cases hlast : document.slot? stop <;> grind
  | refers target =>
    dsimp only [referringIssues]
    grind

/-- An interval that is inverted is the extent of its annotation. -/
theorem alignedInterval?_of_mem_anchorIssues {id : String} {start stop : Int64}
    (h : .invertedInterval id start stop ∈ document.anchorIssues note) :
    document.alignedInterval? note = some (start, stop) := by
  unfold anchorIssues at h
  unfold alignedInterval? endpoints? Note.slotRefs?
  cases hanchor : note.anchor with
  | aligned ref ref' =>
    rw [hanchor] at h
    dsimp only [alignedIssues] at h
    cases hfirst : document.slot? ref <;> cases hlast : document.slot? ref' <;> grind
  | refers target =>
    rw [hanchor] at h
    dsimp only [referringIssues] at h
    grind

/-- An inverted interval stands in the report once for every annotation that has it. -/
theorem count_invertedInterval (document : Document) (id : String) (start stop : Int64) :
    document.report.issues.count (.invertedInterval id start stop) =
      document.notes.countP fun note => note.id = id ∧
        document.alignedInterval? note = some (start, stop) ∧ stop < start := by
  rw [count_issues_of_anchor (by simp) (by simp)]
  refine count_flatMap_eq_countP (fun note => ?_) document.notes
  cases hextent : document.alignedInterval? note with
  | some extent =>
    obtain ⟨first, last⟩ := extent
    rw [anchorIssues_of_alignedInterval? hextent]
    grind
  | none =>
    rw [if_neg (by simp), List.count_eq_zero]
    intro hmem
    rw [alignedInterval?_of_mem_anchorIssues hmem] at hextent
    cases hextent

theorem note?_isSome_iff {id : String} :
    (document.note? id).isSome = true ↔ id ∈ document.notes.map (·.id) := by
  rw [← hasNote_iff, ← Bool.not_eq_false (document.hasNote id), ← note?_eq_none_iff,
    Option.isSome_iff_ne_none]

/-- A missing target stands in the report once for every annotation that refers to it. -/
theorem count_missingTarget (document : Document) (id target : String) :
    document.report.issues.count (.missingTarget id target) =
      document.notes.countP fun note => note.id = id ∧ note.anchor = .refers target ∧
        target ∉ document.notes.map (·.id) := by
  rw [count_issues_of_anchor (by simp) (by simp)]
  refine count_flatMap_eq_countP (fun note => ?_) document.notes
  unfold anchorIssues
  cases note.anchor with
  | aligned start stop =>
    dsimp only [alignedIssues]
    cases hfirst : document.slot? start <;> cases hlast : document.slot? stop <;> grind
  | refers named =>
    dsimp only [referringIssues]
    have hexists : (document.note? named).isSome = true ↔ named ∈ document.notes.map (·.id) :=
      note?_isSome_iff
    cases hnamed : document.note? named <;> grind

/-- Whether references lead from an id back to it can be found out. -/
instance (document : Document) (id : String) :
    Decidable (∃ links, 0 < links ∧ document.Follows links id id) :=
  decidable_of_iff _ onCycle_iff

/-- A circle stands in the report once for every annotation of an id on it that refers to one that
exists. -/
theorem count_referenceCycle (document : Document) (id : String) :
    document.report.issues.count (.referenceCycle id) =
      document.notes.countP fun note => note.id = id ∧
        (∃ target ∈ document.notes.map (·.id), note.anchor = .refers target) ∧
        ∃ links, 0 < links ∧ document.Follows links id id := by
  rw [count_issues_of_anchor (by simp) (by simp)]
  refine count_flatMap_eq_countP (fun note => ?_) document.notes
  simp only [← onCycle_iff]
  unfold anchorIssues
  cases note.anchor with
  | aligned start stop =>
    dsimp only [alignedIssues]
    cases hfirst : document.slot? start <;> cases hlast : document.slot? stop <;> grind
  | refers named =>
    dsimp only [referringIssues]
    have hexists : (∃ target ∈ document.notes.map (·.id), Anchor.refers named = .refers target) ↔
        (document.note? named).isSome = true := by
      rw [note?_isSome_iff]
      simp
    simp only [hexists]
    cases hnamed : document.note? named <;> grind

/-! ### Everything that is found -/

/-- **A report lists exactly the problems that there are.** It counts the annotations. A missing
parent stands in it once for every tier that names the parent, an id of annotations once for every
annotation that has it but one, a missing slot once for either end of every annotation that names
it, an inverted interval once for every annotation whose two slots exist and stand in that order, a
missing target once for every annotation that refers to it; and a circle once for every annotation
whose target exists, if references lead from its id back to this id. The walk that finds this out
comes to an end on every graph of references, with that answer. No reference is unresolved exactly
if the report lists no missing slot, target or parent and no circle. -/
theorem findings_of_report (h : document.Reachable) :
    let issues := document.report.issues
    let slotIds := document.timeline.toList.map (·.id)
    let noteIds := document.notes.map (·.id)
    document.report.notes = document.notes.length ∧
    (∀ id parent, issues.count (.missingParentTier id parent) =
      document.tiers.countP fun tier =>
        tier.id = id ∧ tier.parent = some parent ∧ parent ∉ document.tierIds) ∧
    (∀ id, issues.count (.duplicateNoteId id) = noteIds.count id - 1) ∧
    (∀ id slot, issues.count (.missingTimeSlot id slot) =
      (document.notes.countP fun note =>
        note.id = id ∧ note.slotRefs?.map Prod.fst = some slot ∧ slot ∉ slotIds) +
      document.notes.countP fun note =>
        note.id = id ∧ note.slotRefs?.map Prod.snd = some slot ∧ slot ∉ slotIds) ∧
    (∀ id start stop, issues.count (.invertedInterval id start stop) =
      document.notes.countP fun note =>
        note.id = id ∧ document.alignedInterval? note = some (start, stop) ∧ stop < start) ∧
    (∀ id target, issues.count (.missingTarget id target) =
      document.notes.countP fun note =>
        note.id = id ∧ note.anchor = .refers target ∧ target ∉ noteIds) ∧
    (∀ id, issues.count (.referenceCycle id) =
      document.notes.countP fun note =>
        note.id = id ∧ (∃ target ∈ noteIds, note.anchor = .refers target) ∧
          ∃ links, 0 < links ∧ document.Follows links id id) ∧
    WellFounded document.Turns ∧
    (∀ id answer, document.Seeks id [] id answer ↔
      (answer = true ↔ ∃ links, 0 < links ∧ document.Follows links id id)) ∧
    (document.report.ensureResolved = .ok () ↔
      (∀ id slot, .missingTimeSlot id slot ∉ issues) ∧
      (∀ id target, .missingTarget id target ∉ issues) ∧
      (∀ id parent, .missingParentTier id parent ∉ issues) ∧
      ∀ id, .referenceCycle id ∉ issues) := by
  intro issues slotIds noteIds
  refine ⟨rfl, document.count_missingParentTier, document.count_duplicateNoteId,
    count_missingTimeSlot h.faithful, document.count_invertedInterval,
    document.count_missingTarget, document.count_referenceCycle, document.wellFounded_turns,
    fun id answer => ?_, Report.ensureResolved_eq_ok_iff⟩
  rw [seeks_iff, Bool.eq_iff_iff, onCycle_iff]

/-- Three annotations share an id: one names the same missing slot twice, one refers to an
annotation that is not there, and one leads into a circle which the first of them is not on. -/
theorem findings_of_report_shared_id :
    let document := empty.run
      [ .createTier "text" "en", .createNote "tier0" "word" 250 100, .createTier "gloss" "en",
        .editTier "tier1" fun tier =>
          { tier with
            parent := some "nowhere"
            notes :=
              [ { id := "a", value := "noun", anchor := .aligned "gone" "gone" },
                { id := "a", value := "noun", anchor := .refers "lost" },
                { id := "a", value := "noun", anchor := .refers "r" },
                { id := "r", value := "noun", anchor := .refers "r" } ] } ]
    let issues := document.report.issues
    document.Reachable ∧ document.report.notes = 5 ∧
      issues.count (.missingParentTier "tier1" "nowhere") = 1 ∧
      issues.count (.duplicateNoteId "a") = 2 ∧ issues.count (.missingTimeSlot "a" "gone") = 2 ∧
      issues.count (.invertedInterval "an0" 250 100) = 1 ∧
      issues.count (.missingTarget "a" "lost") = 1 ∧ issues.count (.referenceCycle "a") = 0 ∧
      issues.count (.referenceCycle "r") = 1 ∧ document.report.ensureResolved ≠ .ok () := by
  intro document issues
  have hreachable : document.Reachable := ⟨_, rfl⟩
  obtain ⟨hnotes, hparents, hrepeated, hslots, hinverted, htargets, hcircles, -, -, hresolved⟩ :=
    findings_of_report hreachable
  have hcircle : issues.count (.referenceCycle "r") = 1 := by
    rw [hcircles]
    decide +kernel
  refine ⟨hreachable, hnotes, ?_, ?_, ?_, ?_, ?_, ?_, hcircle, fun hok => ?_⟩
  · rw [hparents]
    decide +kernel
  · rw [hrepeated]
    decide +kernel
  · rw [hslots]
    decide +kernel
  · rw [hinverted]
    decide +kernel
  · rw [htargets]
    decide +kernel
  · rw [hcircles]
    decide +kernel
  · have hnone := List.count_eq_zero.2 ((hresolved.1 hok).2.2.2 "r")
    rw [hcircle] at hnone
    cases hnone

end Document

end Eaf

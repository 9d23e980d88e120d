import Eaf.Proofs.Capture
import Eaf.Proofs.Circle
import Eaf.Proofs.ValidSlots

/-!
# What a report lists

A report lists the problems of every tier, those of the anchor of every annotation and one for every
annotation whose id an earlier one carries. Three kinds of problem keep annotations from having an
extent: a slot that is missing, a target that is missing, and a circle of references. A report
without them vouches for the extents of all annotations, also of those whose chain is long and of
those that share their id with another; and where ids are distinct, a report has such a problem only
if some annotation has no extent.

## Main definitions

* `Eaf.repeated` — the elements of a list that stand in it before.
* `Eaf.Issue.hidesExtent` — the problems that keep annotations from having an extent.
* `Eaf.Document.Resolves` — an annotation whose links lead somewhere and not back.

## Main results

* `Eaf.Document.issues_perm` — what a report lists, up to order.
* `Eaf.Document.resolves_iff` — no problem hides an extent exactly if every annotation resolves.
* `Eaf.Document.extents_of_report` — reports and extents.
-/

namespace Eaf

/-! ### Elements that stand in a list before -/

section Repeated

variable {α : Type} [DecidableEq α]

/-- The elements of a list that stand before in it or were seen, once for every time that they
come again. -/
def repeated (seen : List α) : List α → List α
  | [] => []
  | x :: xs => (if x ∈ seen then [x] else []) ++ repeated (x :: seen) xs

theorem repeated_append (seen xs ys : List α) :
    repeated seen (xs ++ ys) =
      repeated seen xs ++ repeated (xs.foldl (fun seen x => x :: seen) seen) ys := by
  induction xs generalizing seen with
  | nil => rfl
  | cons x xs ih => simp [repeated, ih]

end Repeated

/-- Whether a problem keeps annotations from having an extent. -/
def Issue.hidesExtent : Issue → Bool
  | missingTimeSlot _ _ => true
  | missingTarget _ _ => true
  | referenceCycle _ => true
  | missingParentTier _ _ => false
  | invertedInterval _ _ _ => false
  | duplicateNoteId _ => false

namespace Document

variable {document : Document} {note : Note} {issue : Issue}

/-! ### The problems of a report -/

theorem noteIssues_perm (document : Document) (seen : List String) (notes : List Note) :
    (document.noteIssues seen notes).Perm
      (notes.flatMap document.anchorIssues ++
        (repeated seen (notes.map (·.id))).map .duplicateNoteId) := by
  induction notes generalizing seen with
  | nil => exact .refl _
  | cons note notes ih =>
    have hfirst : (if seen.contains note.id then [Issue.duplicateNoteId note.id] else []) =
        (if note.id ∈ seen then [note.id] else []).map .duplicateNoteId := by
      split <;> split <;> simp_all
    rw [noteIssues, hfirst]
    refine List.perm_iff_count.2 fun issue => ?_
    have hcount := (ih (note.id :: seen)).count_eq issue
    simp only [List.flatMap_cons, List.map_cons, repeated, List.map_append, List.count_append]
      at hcount ⊢
    omega

theorem tierIssues_perm (document : Document) (seen : List String) (tiers : List Tier) :
    (document.tierIssues seen tiers).Perm
      (tiers.flatMap document.parentIssues ++
        ((tiers.flatMap (·.notes)).flatMap document.anchorIssues ++
          (repeated seen ((tiers.flatMap (·.notes)).map (·.id))).map .duplicateNoteId)) := by
  induction tiers generalizing seen with
  | nil => exact .refl _
  | cons tier tiers ih =>
    rw [tierIssues]
    refine List.perm_iff_count.2 fun issue => ?_
    have hnotes := (document.noteIssues_perm seen tier.notes).count_eq issue
    have htiers := (ih (tier.notes.foldl (fun ids note => note.id :: ids) seen)).count_eq issue
    simp only [List.flatMap_cons, List.flatMap_append, List.map_append, repeated_append,
      List.foldl_map, List.count_append] at hnotes htiers ⊢
    omega

/-- A report lists the problems of the tiers and of the anchors, and one problem for every id that
comes again. -/
theorem issues_perm (document : Document) :
    document.report.issues.Perm
      (document.tiers.flatMap document.parentIssues ++
        (document.notes.flatMap document.anchorIssues ++
          (repeated [] (document.notes.map (·.id))).map .duplicateNoteId)) :=
  document.tierIssues_perm [] document.tiers

theorem mem_issues_iff :
    issue ∈ document.report.issues ↔
      (∃ tier ∈ document.tiers, issue ∈ document.parentIssues tier) ∨
        (∃ note ∈ document.notes, issue ∈ document.anchorIssues note) ∨
          ∃ id ∈ repeated [] (document.notes.map (·.id)), issue = .duplicateNoteId id := by
  rw [document.issues_perm.mem_iff]
  simp only [List.mem_append, List.mem_flatMap, List.mem_map, eq_comm (a := issue)]

/-! ### Annotations that resolve -/

/-- The links of an annotation lead somewhere: its slots exist, or its target does and no
references lead back to it. -/
def Resolves (document : Document) (note : Note) : Prop :=
  match note.anchor with
  | .aligned start stop => (document.slot? start).isSome ∧ (document.slot? stop).isSome
  | .refers target => (document.note? target).isSome ∧ document.onCycle note.id = false

theorem resolves_iff_anchorIssues :
    document.Resolves note ↔ ∀ issue ∈ document.anchorIssues note, issue.hidesExtent = false := by
  unfold Resolves anchorIssues
  cases note.anchor with
  | aligned start stop =>
    dsimp only [alignedIssues]
    cases document.slot? start <;> cases document.slot? stop <;> simp [Issue.hidesExtent]
  | refers target =>
    dsimp only [referringIssues]
    cases document.note? target <;> simp [Issue.hidesExtent]

/-- No problem hides an extent exactly if every annotation resolves. -/
theorem resolves_iff :
    (∀ issue ∈ document.report.issues, issue.hidesExtent = false) ↔
      ∀ note ∈ document.notes, document.Resolves note := by
  simp only [resolves_iff_anchorIssues, mem_issues_iff]
  constructor
  · exact fun h note hnote issue hissue => h issue (Or.inr (Or.inl ⟨note, hnote, hissue⟩))
  · rintro h issue (⟨tier, -, hissue⟩ | ⟨note, hnote, hissue⟩ | ⟨id, -, rfl⟩)
    · unfold parentIssues at hissue
      split at hissue
      · cases hissue
      · split at hissue
        · cases hissue
        · obtain rfl := List.mem_singleton.1 hissue
          rfl
    · exact h note hnote issue hissue
    · rfl

/-! ### Extents -/

/-- Where all annotations resolve, every chain from an annotation stays among annotations. -/
theorem Follows.note?_isSome {links : Nat} {id last : String}
    (h : ∀ note ∈ document.notes, document.Resolves note)
    (hfollows : document.Follows links id last) (hid : (document.note? id).isSome) :
    (document.note? last).isSome := by
  induction hfollows with
  | here => exact hid
  | link hnext _ ih =>
    refine ih ?_
    obtain ⟨note, hnote, htarget⟩ := Option.bind_eq_some_iff.1 hnext
    have hresolves := h note (note?_eq_some hnote).1
    unfold Note.target? at htarget
    split at htarget
    next => cases htarget
    next hanchor =>
      obtain rfl := Option.some.inj htarget
      rw [Resolves, hanchor] at hresolves
      exact hresolves.1

/-- An annotation that resolves and refers to none has an extent. -/
theorem Resolves.alignedInterval?_isSome (h : document.Resolves note)
    (htarget : note.target? = none) : (document.alignedInterval? note).isSome := by
  cases hanchor : note.anchor with
  | refers target => simp [Note.target?, hanchor] at htarget
  | aligned start stop =>
    rw [Resolves, hanchor] at h
    obtain ⟨first, hfirst⟩ := Option.isSome_iff_exists.1 h.1
    obtain ⟨last, hlast⟩ := Option.isSome_iff_exists.1 h.2
    simp [alignedInterval?, endpoints?, Note.slotRefs?, hanchor, hfirst, hlast]

/-- Where all annotations resolve, all have extents. -/
theorem interval?_isSome_of_resolves (h : ∀ note ∈ document.notes, document.Resolves note)
    (hnote : note ∈ document.notes) : (document.interval? note.id).isSome := by
  have hfound : (document.note? note.id).isSome := by
    rw [note?_eq_find?, List.find?_isSome]
    exact ⟨note, hnote, beq_self_eq_true _⟩
  rcases document.exists_end_or_circle note.id with
    ⟨links, last, hfollows, hend⟩ | ⟨links, last, hfollows, hcircle⟩
  · obtain ⟨found, hlast⟩ := Option.isSome_iff_exists.1 (hfollows.note?_isSome h hfound)
    have htarget : found.target? = none := by simpa [next?, hlast] using hend
    rw [hfollows.interval?_eq, interval?_of_target?_eq_none hlast htarget]
    exact (h found (note?_eq_some hlast).1).alignedInterval?_isSome htarget
  · -- The first annotation with an id on a circle refers to another and does not resolve.
    obtain ⟨_, hpos, hloop⟩ := onCycle_iff.1 hcircle
    obtain _ | ⟨hnext, -⟩ := hloop
    · exact absurd hpos (Nat.lt_irrefl 0)
    obtain ⟨found, hlast, htarget⟩ := Option.bind_eq_some_iff.1 hnext
    obtain ⟨hmem, rfl⟩ := note?_eq_some hlast
    have hresolves := h found hmem
    cases hanchor : found.anchor with
    | aligned start stop => simp [Note.target?, hanchor] at htarget
    | refers target =>
      rw [Resolves, hanchor] at hresolves
      simp [hcircle] at hresolves

/-- Where ids are distinct, every annotation is found under its id. -/
theorem note?_of_nodup (h : (document.notes.map (·.id)).Nodup) (hnote : note ∈ document.notes) :
    document.note? note.id = some note := by
  obtain ⟨found, hfound⟩ : ∃ found, document.note? note.id = some found := by
    rw [← Option.isSome_iff_exists, note?_eq_find?, List.find?_isSome]
    exact ⟨note, hnote, beq_self_eq_true _⟩
  obtain ⟨hmem, hid⟩ := note?_eq_some hfound
  rw [hfound, List.inj_on_of_nodup_map h hmem hnote hid]

/-- At the beginning of a chain that ends at an annotation there is an annotation. -/
theorem Follows.note?_isSome_of_last {links : Nat} {id last : String}
    (h : document.Follows links id last) (hlast : (document.note? last).isSome) :
    (document.note? id).isSome := by
  cases h with
  | here => exact hlast
  | link hnext _ =>
    obtain ⟨note, hnote, -⟩ := Option.bind_eq_some_iff.1 hnext
    rw [hnote]
    rfl

/-- An annotation with an extent that is found under its id resolves. -/
theorem resolves_of_interval? (hfound : document.note? note.id = some note)
    (h : (document.interval? note.id).isSome) : document.Resolves note := by
  obtain ⟨extent, hextent⟩ := Option.isSome_iff_exists.1 h
  obtain ⟨links, last, found, hfollows, hlast, haligned⟩ := interval?_eq_some_iff.1 hextent
  have hnone := target?_of_alignedInterval? haligned
  have hend : document.next? last = none := by simp [next?, hlast, hnone]
  unfold Resolves
  cases hanchor : note.anchor with
  | aligned start stop =>
    have htarget : note.target? = none := by simp [Note.target?, hanchor]
    rw [interval?_of_target?_eq_none hfound htarget] at hextent
    obtain ⟨⟨first, other⟩, hends, -⟩ := Option.map_eq_some_iff.1 hextent
    obtain ⟨_, _, hanchor', hstart, hstop⟩ := endpoints?_eq_some_iff.1 hends
    obtain ⟨rfl, rfl⟩ := Anchor.aligned.inj (hanchor.symm.trans hanchor')
    simp [hstart, hstop]
  | refers target =>
    have hnext : document.next? note.id = some target := by
      simp [next?, hfound, Note.target?, hanchor]
    refine ⟨?_, hfollows.onCycle_eq_false hend⟩
    cases hfollows with
    | here => simp [hend] at hnext
    | link hnext' hrest =>
      obtain rfl := Option.some.inj (hnext.symm.trans hnext')
      exact hrest.note?_isSome_of_last (by rw [hlast]; rfl)

/-- Where no aligned annotation ends before it starts, no extent does. -/
theorem le_of_interval? {id : String} {start stop : Int64}
    (h : ∀ issue ∈ document.report.issues, ∀ id start stop, issue ≠ .invertedInterval id start stop)
    (hextent : document.interval? id = some (start, stop)) : start ≤ stop := by
  obtain ⟨_, _, note, -, hnote, haligned⟩ := interval?_eq_some_iff.1 hextent
  obtain ⟨⟨first, last⟩, hends, heq⟩ := Option.map_eq_some_iff.1 haligned
  obtain ⟨rfl, rfl⟩ := Prod.mk.inj heq
  obtain ⟨ref, ref', hanchor, hfirst, hlast⟩ := endpoints?_eq_some_iff.1 hends
  refine Int64.not_lt.1 fun hlt => ?_
  refine h (.invertedInterval note.id first.value last.value) ?_ _ _ _ rfl
  refine mem_issues_iff.2 (Or.inr (Or.inl ⟨note, (note?_eq_some hnote).1, ?_⟩))
  simp [anchorIssues, hanchor, alignedIssues, hfirst, hlast, hlt]

/-- **A report vouches for the extents of all annotations.** If no slot and no target is missing and
no references run in a circle, then every annotation has an extent, whether or not ids are shared;
and if the report lists no problem at all, no extent ends before it starts. Where the ids of
annotations are distinct and all of them have extents, none of the three problems is listed. -/
theorem extents_of_report (document : Document) :
    ((∀ issue ∈ document.report.issues, issue.hidesExtent = false) →
      ∀ note ∈ document.notes, (document.interval? note.id).isSome) ∧
    (document.report.passed = true → ∀ note ∈ document.notes,
      ∃ start stop, document.interval? note.id = some (start, stop) ∧ start ≤ stop) ∧
    ((document.notes.map (·.id)).Nodup →
      (∀ note ∈ document.notes, (document.interval? note.id).isSome) →
      ∀ issue ∈ document.report.issues, issue.hidesExtent = false) := by
  refine ⟨fun h note hnote => ?_, fun h note hnote => ?_, fun hnodup h => ?_⟩
  · exact interval?_isSome_of_resolves (resolves_iff.1 h) hnote
  · have hnil : document.report.issues = [] := List.isEmpty_iff.1 h
    have hresolves : ∀ note ∈ document.notes, document.Resolves note :=
      resolves_iff.1 (by simp [hnil])
    obtain ⟨⟨start, stop⟩, hextent⟩ :=
      Option.isSome_iff_exists.1 (interval?_isSome_of_resolves hresolves hnote)
    exact ⟨start, stop, hextent, le_of_interval? (by simp [hnil]) hextent⟩
  · refine resolves_iff.2 fun note hnote => ?_
    exact resolves_of_interval? (note?_of_nodup hnodup hnote) (h note hnote)

/-- A report on a chain of two references, the second of which leads to an aligned annotation. -/
theorem extents_of_report_two_links :
    let document := empty.run
      [ .createTier "text" "en", .createNote "tier0" "word" 100 250, .createTier "gloss" "en",
        .editTier "tier1" fun tier =>
          { tier with
            notes :=
              [ { id := "first", value := "noun", anchor := .refers "second" },
                { id := "second", value := "word", anchor := .refers "an0" } ] } ]
    document.report.passed = true ∧ (document.notes.map (·.id)).Nodup ∧
      (∀ issue ∈ document.report.issues, issue.hidesExtent = false) ∧
      (∀ note ∈ document.notes, (document.interval? note.id).isSome) ∧
      ∀ note ∈ document.notes,
        ∃ start stop, document.interval? note.id = some (start, stop) ∧ start ≤ stop := by
  intro document
  obtain ⟨hsound, hpassed, hcomplete⟩ := extents_of_report document
  have hpass : document.report.passed = true := by decide +kernel
  have hnodup : (document.notes.map (·.id)).Nodup := by decide +kernel
  have hextents := hsound (by decide +kernel)
  exact ⟨hpass, hnodup, hcomplete hnodup hextents, hextents, hpassed hpass⟩

end Document

end Eaf

import Eaf.Proofs.Fresh
import Eaf.Proofs.Problems

/-!
# Reports without problems

A document is clean if its report lists no problem: every parent exists, every anchor is sound and
no two annotations share an id. An object that is made takes a free id, so that no look-up and no
chain of references that was sound changes its answer. A clean document therefore stays clean, but
for one problem that whoever makes an annotation can ask for: that it ends before it starts.

## Main definitions

* `Eaf.Document.Clean` — documents without a problem, object by object.

## Main results

* `Eaf.Document.issues_eq_nil_iff` — a report lists nothing exactly if the document is clean.
* `Eaf.Document.GrowsBy.anchorIssues_eq_nil` — a sound anchor stays sound.
* `Eaf.Document.report_of_creation` — the report on a clean document in which an object was made.
-/

namespace Eaf

theorem repeated_eq_nil_iff {α : Type} [DecidableEq α] {seen xs : List α} :
    repeated seen xs = [] ↔ xs.Nodup ∧ ∀ x ∈ xs, x ∉ seen := by
  induction xs generalizing seen with
  | nil => simp [repeated]
  | cons x xs ih =>
    rw [repeated, List.append_eq_nil_iff, ih, List.nodup_cons, List.forall_mem_cons]
    simp only [List.mem_cons, not_or, ite_eq_right_iff, reduceCtorEq, imp_false]
    constructor
    · rintro ⟨hx, hnodup, hxs⟩
      exact ⟨⟨fun hmem => (hxs x hmem).1 rfl, hnodup⟩, hx, fun y hy => (hxs y hy).2⟩
    · rintro ⟨⟨hfirst, hnodup⟩, hx, hxs⟩
      exact ⟨hx, hnodup, fun y hy => ⟨fun heq => hfirst (heq ▸ hy), hxs y hy⟩⟩

namespace Document

variable {document grown : Document} {minted : Minted} {created : Created} {note : Note}
  {tier : Tier} {start stop : Int64}

/-- Nothing is wrong with the references of a document. -/
structure Clean (document : Document) : Prop where
  parents : ∀ tier ∈ document.tiers, document.parentIssues tier = []
  anchors : ∀ note ∈ document.notes, document.anchorIssues note = []
  ids : (document.notes.map (·.id)).Nodup

theorem issues_eq_nil_iff : document.report.issues = [] ↔ document.Clean := by
  rw [← List.perm_nil, (document.issues_perm.congr_left []), List.perm_nil, List.append_eq_nil_iff,
    List.append_eq_nil_iff, List.flatMap_eq_nil_iff, List.flatMap_eq_nil_iff, List.map_eq_nil_iff,
    repeated_eq_nil_iff]
  constructor
  · rintro ⟨hparents, hanchors, hids, -⟩
    exact ⟨hparents, hanchors, hids⟩
  · rintro ⟨hparents, hanchors, hids⟩
    exact ⟨hparents, hanchors, hids, fun _ _ => List.not_mem_nil⟩

/-! ### What is sound stays sound -/

/-- A parent that exists goes on to exist. -/
theorem GrowsBy.parentIssues_eq_nil (h : document.GrowsBy grown minted)
    (hclean : document.parentIssues tier = []) : grown.parentIssues tier = [] := by
  unfold parentIssues at hclean ⊢
  cases hparent : tier.parent with
  | none => rfl
  | some parent =>
    simp only [hparent, ite_eq_left_iff, reduceCtorEq, imp_false, not_not] at hclean ⊢
    rw [h.tierKept parent fun hmem => by simp [(h.tierMinted parent hmem).1] at hclean, hclean]

/-- A chain of references runs in a circle exactly if it did. -/
theorem GrowsBy.onCycle_eq (h : document.GrowsBy grown minted) (id : String) :
    grown.onCycle id = document.onCycle id := by
  rw [Bool.eq_iff_iff, onCycle_iff, onCycle_iff]
  constructor
  · rintro ⟨links, hpos, hfollows⟩
    exact ⟨links, hpos, hfollows.congr h.next.symm⟩
  · rintro ⟨links, hpos, hfollows⟩
    exact ⟨links, hpos, hfollows.congr h.next⟩

/-- An anchor that was sound stays sound: its slots have their times, or its target exists and leads
into no circle. -/
theorem GrowsBy.anchorIssues_eq_nil (h : document.GrowsBy grown minted)
    (hclean : document.anchorIssues note = []) : grown.anchorIssues note = [] := by
  unfold anchorIssues at hclean ⊢
  cases hanchor : note.anchor with
  | aligned start stop =>
    simp only [hanchor, alignedIssues, List.append_eq_nil_iff] at hclean ⊢
    obtain ⟨⟨hstart, hstop⟩, horder⟩ := hclean
    cases hfirst : document.slot? start with
    | none => simp [hfirst] at hstart
    | some first =>
      cases hlast : document.slot? stop with
      | none => simp [hlast] at hstop
      | some last =>
        rw [hfirst, hlast] at horder
        rw [h.slot?_eq_some hfirst, h.slot?_eq_some hlast]
        exact ⟨⟨rfl, rfl⟩, horder⟩
  | refers target =>
    simp only [hanchor, referringIssues] at hclean ⊢
    cases htarget : document.note? target with
    | none => simp [htarget] at hclean
    | some found =>
      rw [htarget] at hclean
      rw [h.note?_eq_some htarget, h.onCycle_eq]
      exact hclean

/-- The one problem that the anchor of an annotation with two slots can have. -/
theorem anchorIssues_of_alignedInterval?
    (h : document.alignedInterval? note = some (start, stop)) :
    document.anchorIssues note =
      if start ≤ stop then [] else [.invertedInterval note.id start stop] := by
  obtain ⟨⟨first, last⟩, hends, heq⟩ := Option.map_eq_some_iff.1 h
  obtain ⟨rfl, rfl⟩ := Prod.mk.inj heq
  obtain ⟨ref, ref', hanchor, hfirst, hlast⟩ := endpoints?_eq_some_iff.1 hends
  rw [anchorIssues, hanchor]
  simp only [alignedIssues, hfirst, hlast, Option.isNone_some, Bool.false_eq_true, if_false,
    List.nil_append, gt_iff_lt]
  by_cases hle : first.value ≤ last.value
  · rw [if_pos hle, if_neg (Int64.not_lt.2 hle)]
  · rw [if_neg hle, if_pos (Int64.not_le.1 hle)]

/-! ### Objects in a clean document -/

/-- A clean document with a new tier is clean. -/
theorem Clean.createTier {linguisticType locale : String} (h : document.Clean)
    (hcreate : document.createTier linguisticType locale = .ok created) :
    created.document.report = { issues := [], notes := document.report.notes } := by
  have hgrows := createTier_growsBy hcreate
  obtain ⟨-, -, counters, hdocument⟩ := createTier_ok hcreate
  have hnotes : created.document.notes = document.notes := by simp [hdocument, notes]
  have hclean : created.document.Clean := by
    refine ⟨?_, ?_, hnotes ▸ h.ids⟩
    · have htiers : ∀ tier ∈ created.document.tiers, document.parentIssues tier = [] := by
        rw [hdocument]
        exact List.forall_mem_append.2 ⟨h.parents, List.forall_mem_singleton.2 rfl⟩
      exact fun tier htier => hgrows.parentIssues_eq_nil (htiers tier htier)
    · rw [hnotes]
      exact fun note hnote => hgrows.anchorIssues_eq_nil (h.anchors note hnote)
  rw [report, report, ← issues_eq_nil_iff.2 hclean, hnotes]
  rfl

/-- The report on a clean document with a new annotation lists at most that this one ends before it
starts. -/
theorem Clean.createNote {tierId value : String} (h : document.Clean)
    (hfaithful : document.timeline.Faithful)
    (hcreate : document.createNote tierId value start stop = .ok created) :
    created.document.report =
      { issues := if start ≤ stop then [] else [.invertedInterval created.id start stop]
        notes := document.report.notes + 1 } := by
  obtain ⟨slots, hgrows⟩ := createNote_growsBy hfaithful hcreate
  obtain ⟨note, before, rest, hid, hextent, hold, hgrown⟩ :=
    createNote_alignedInterval? hfaithful hcreate
  obtain ⟨_, _, -, -, -, -, front, changed, back, _, hsplit, -, -, hdocument⟩ :=
    createNote_ok hcreate
  have hparents : created.document.tiers.flatMap created.document.parentIssues = [] := by
    have htiers : ∀ tier ∈ created.document.tiers, document.parentIssues tier = [] := by
      -- The tier that grew keeps its id and its parent.
      have hparents := h.parents
      rw [hsplit, List.forall_mem_append, List.forall_mem_cons] at hparents
      rw [hdocument, List.forall_mem_append, List.forall_mem_cons]
      exact hparents
    exact List.flatMap_eq_nil_iff.2 fun tier htier =>
      hgrows.parentIssues_eq_nil (htiers tier htier)
  have hanchors : created.document.notes.flatMap created.document.anchorIssues =
      created.document.anchorIssues note := by
    have hanchors := h.anchors
    rw [hold, List.forall_mem_append] at hanchors
    have hsound {notes : List Note} (hnotes : ∀ note ∈ notes, document.anchorIssues note = []) :
        notes.flatMap created.document.anchorIssues = [] :=
      List.flatMap_eq_nil_iff.2 fun note hnote => hgrows.anchorIssues_eq_nil (hnotes note hnote)
    rw [hgrown, List.flatMap_append, List.flatMap_cons, hsound hanchors.1, hsound hanchors.2,
      List.nil_append, List.append_nil]
  have hids : repeated [] (created.document.notes.map (·.id)) = [] :=
    repeated_eq_nil_iff.2 ⟨createNote_ids_nodup h.ids hcreate, fun _ _ => List.not_mem_nil⟩
  have hperm := created.document.issues_perm
  rw [hparents, hanchors, hids, List.map_nil, List.append_nil, List.nil_append,
    anchorIssues_of_alignedInterval? hextent, hid] at hperm
  have hissues : created.document.report.issues =
      if start ≤ stop then [] else [.invertedInterval created.id start stop] := by
    by_cases hle : start ≤ stop
    · rw [if_pos hle] at hperm ⊢
      exact List.perm_nil.1 hperm
    · rw [if_neg hle] at hperm ⊢
      exact List.perm_singleton.1 hperm
  have hcount : created.document.notes.length = document.notes.length + 1 := by
    rw [hgrown, hold, List.length_append, List.length_append, List.length_cons, Nat.add_assoc]
  rw [report, report, ← hissues, hcount]
  rfl

/-- **A clean document stays clean.** With a new tier it has no problem. With a new annotation, on
whatever tier and between whatever times, it has none if the annotation does not end before it
starts, and that one problem otherwise, with the id and the times of the annotation. The report
counts one more annotation. -/
theorem report_of_creation (h : document.Reachable) (htiers : document.tiers.length < 2 ^ 63)
    (hnotes : document.notes.length < 2 ^ 63) (hslots : document.timeline.size < 2 ^ 63)
    (hpassed : document.report.passed = true) :
    (∀ linguisticType locale, ∃ created,
      document.createTier linguisticType locale = .ok created ∧
        created.document.report = { issues := [], notes := document.report.notes }) ∧
    ∀ tierId value start stop, document.hasTier tierId = true → ∃ created,
      document.createNote tierId value start stop = .ok created ∧
        created.document.report =
          { issues := if start ≤ stop then [] else [.invertedInterval created.id start stop]
            notes := document.report.notes + 1 } := by
  have hsize : 2 ^ 63 < UInt64.size := by decide
  have hclean : document.Clean := issues_eq_nil_iff.1 (List.isEmpty_iff.1 hpassed)
  refine ⟨fun linguisticType locale => ?_, fun tierId value start stop htier => ?_⟩
  · obtain ⟨created, hcreate⟩ :=
      exists_createTier (Nat.lt_trans htiers hsize) linguisticType locale
    exact ⟨created, hcreate, hclean.createTier hcreate⟩
  · obtain ⟨created, hcreate⟩ := exists_createNote h.faithful (Nat.lt_trans hnotes hsize)
      (Nat.lt_of_le_of_lt hslots hsize) htier value start stop
    exact ⟨created, hcreate, hclean.createNote h.faithful hcreate⟩

/-- Of a clean document with a reference, a new annotation that ends before it starts is the one
problem. -/
theorem report_of_creation_inverted :
    let document := empty.run
      [ .createTier "text" "en", .createNote "tier0" "word" 100 250, .createTier "gloss" "en",
        .editTier "tier1" fun tier =>
          { tier with
            parent := some "tier0"
            notes := [{ id := "r", value := "noun", anchor := .refers "an0" }] } ]
    document.Reachable ∧ document.tiers.length < 2 ^ 63 ∧ document.notes.length < 2 ^ 63 ∧
      document.timeline.size < 2 ^ 63 ∧ document.report.passed = true ∧
      document.hasTier "tier0" = true ∧
      ∃ created, document.createNote "tier0" "next" 250 100 = .ok created ∧
        created.document.report =
          { issues := [.invertedInterval created.id 250 100], notes := 3 } := by
  intro document
  have hreachable : document.Reachable := ⟨_, rfl⟩
  have htiers : document.tiers.length < 2 ^ 63 := by decide +kernel
  have hnotes : document.notes.length < 2 ^ 63 := by decide +kernel
  have hslots : document.timeline.size < 2 ^ 63 := by decide +kernel
  have hpassed : document.report.passed = true := by decide +kernel
  have htier : document.hasTier "tier0" = true := by decide +kernel
  obtain ⟨created, hcreate, hreport⟩ :=
    (report_of_creation hreachable htiers hnotes hslots hpassed).2 "tier0" "next" 250 100 htier
  exact ⟨hreachable, htiers, hnotes, hslots, hpassed, htier, created, hcreate, hreport⟩

end Document

end Eaf

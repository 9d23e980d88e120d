import Eaf.Program.Command
import Eaf.Proofs.Forest
import Eaf.Proofs.FromFile
import Eaf.Proofs.Normal
import Eaf.Proofs.Performed
import Eaf.Proofs.Stored

/-!
# Tiers outside the forest

A report has a problem for every tier that names a parent which does not exist. The command that
shows the forest of a document looks for such tiers in another way: it takes the size of the forest
from the number of tiers. What it finds are the strays, of which those that name a missing parent
are only the uppermost; the ones that hang below these are counted with them. So its warning comes
exactly if the report misses a parent, but tells a larger number where strays have tiers below them.

## Main definitions

* `Eaf.Hierarchy.NamesMissing` — tiers that name a parent which does not exist.

## Main results

* `Eaf.Document.countP_missingParent` — the problems of a report with missing parents.
* `Eaf.answers_showTree` — what the command that shows the forest tells.
* `Eaf.tree_tells_strays` — the warning of the command, compared with the report.
-/

namespace Eaf

namespace Hierarchy

variable {tiers : List Tier} {tier : Tier}

/-- A tier names a parent that does not exist. -/
def NamesMissing (tiers : List Tier) (tier : Tier) : Prop :=
  tier ∈ tiers ∧ ∃ missing, missing ∉ tiers.map (·.id) ∧ tier.parent = some missing

theorem NamesMissing.stray (h : NamesMissing tiers tier) : Stray tiers tier := by
  obtain ⟨htier, missing, hmissing, hparent⟩ := h
  exact ⟨missing, hmissing, htier, tier, htier, hparent, .refl⟩

theorem Stray.exists_namesMissing (h : Stray tiers tier) : ∃ top, NamesMissing tiers top := by
  obtain ⟨missing, hmissing, -, top, htop, hparent, -⟩ := h
  exact ⟨top, htop, missing, hmissing, hparent⟩

end Hierarchy

/-- Whether a problem is that a tier names a parent which does not exist. -/
def Issue.isMissingParent : Issue → Bool
  | missingParentTier _ _ => true
  | _ => false

namespace Document

open Hierarchy (NamesMissing Stray)
open TierTree (totalSize)

variable {document : Document} {tier : Tier} {trees : List TierTree}

/-! ### The report -/

/-- Whether a tier names a parent that no tier of a document is. -/
def lacksParent (document : Document) (tier : Tier) : Bool :=
  tier.parent.any fun parent => (document.tier? parent).isNone

theorem lacksParent_iff (htier : tier ∈ document.tiers) :
    document.lacksParent tier = true ↔ NamesMissing document.tiers tier := by
  have hmissing (parent : String) :
      (document.tier? parent).isNone = true ↔ parent ∉ document.tiers.map (·.id) := by
    rw [← Option.not_isSome, Bool.not_eq_true', ← Bool.not_eq_true, tier?_isSome_iff, tierIds]
  rw [lacksParent, Option.any_eq_true]
  constructor
  · rintro ⟨missing, hparent, hnone⟩
    exact ⟨htier, missing, (hmissing missing).1 hnone, hparent⟩
  · rintro ⟨-, missing, hnone, hparent⟩
    exact ⟨missing, hparent, (hmissing missing).2 hnone⟩

/-- The problems with a parent are those of tiers that lack one. -/
theorem countP_flatMap_parentIssues (document : Document) (tiers : List Tier) :
    (tiers.flatMap document.parentIssues).countP Issue.isMissingParent =
      tiers.countP document.lacksParent := by
  induction tiers with
  | nil => rfl
  | cons tier tiers ih =>
    rw [List.flatMap_cons, List.countP_append, ih, List.countP_cons, Nat.add_comm]
    congr 1
    unfold parentIssues lacksParent
    cases tier.parent with
    | none => rfl
    | some parent => cases h : document.tier? parent <;> simp [h, Issue.isMissingParent]

/-- No problem of an anchor is one with a parent. -/
theorem isMissingParent_of_mem_anchorIssues {note : Note} {issue : Issue}
    (h : issue ∈ document.anchorIssues note) : issue.isMissingParent = false := by
  revert issue
  unfold anchorIssues
  cases note.anchor with
  | aligned start stop =>
    dsimp only [alignedIssues]
    cases document.slot? start <;> cases document.slot? stop <;> simp [Issue.isMissingParent]
  | refers target =>
    dsimp only [referringIssues]
    cases document.note? target <;> simp [Issue.isMissingParent]

/-- A report has as many problems with missing parents as there are tiers that name one. -/
theorem countP_missingParent (hids : document.tierIds.Nodup) :
    document.report.issues.countP Issue.isMissingParent =
      {tier | NamesMissing document.tiers tier}.ncard := by
  have htiers : {tier | NamesMissing document.tiers tier} =
      {tier | tier ∈ document.tiers.filter document.lacksParent} := by
    refine Set.ext fun tier => ?_
    rw [Set.mem_ofPred_eq, Set.mem_ofPred_eq, List.mem_filter]
    constructor
    · exact fun h => ⟨h.1, (lacksParent_iff h.1).2 h⟩
    · exact fun ⟨htier, h⟩ => (lacksParent_iff htier).1 h
  have hanchors :
      (document.notes.flatMap document.anchorIssues).countP Issue.isMissingParent = 0 := by
    refine List.countP_eq_zero.2 fun issue hissue => Bool.not_eq_true _ ▸ ?_
    obtain ⟨note, -, hissue⟩ := List.mem_flatMap.1 hissue
    exact isMissingParent_of_mem_anchorIssues hissue
  have hduplicates (ids : List String) :
      (ids.map Issue.duplicateNoteId).countP Issue.isMissingParent = 0 := by
    refine List.countP_eq_zero.2 fun issue hissue => ?_
    obtain ⟨id, -, rfl⟩ := List.mem_map.1 hissue
    exact Bool.false_ne_true
  rw [document.issues_perm.countP_eq, List.countP_append, List.countP_append, hanchors, hduplicates,
    countP_flatMap_parentIssues, htiers, ncard_mem_of_nodup ((List.Nodup.of_map _ hids).filter _),
    List.countP_eq_length_filter]
  rfl

end Document

/-! ### Strays and missing parents -/

namespace Hierarchy

theorem finite_strays (tiers : List Tier) : {tier | Stray tiers tier}.Finite :=
  tiers.finite_toSet.subset fun _ hstray => hstray.mem

theorem namesMissing_subset (tiers : List Tier) :
    {tier | NamesMissing tiers tier} ⊆ {tier | Stray tiers tier} :=
  fun _ hmissing => hmissing.stray

/-- There are strays exactly if some tier names a parent that does not exist. -/
theorem ncard_strays_eq_zero_iff (tiers : List Tier) :
    {tier | Stray tiers tier}.ncard = 0 ↔ {tier | NamesMissing tiers tier}.ncard = 0 := by
  have hfinite := finite_strays tiers
  rw [Set.ncard_eq_zero hfinite, Set.ncard_eq_zero (hfinite.subset (namesMissing_subset tiers))]
  constructor
  · exact fun hnone => Set.subset_eq_empty (namesMissing_subset tiers) hnone
  · intro hnone
    refine Set.eq_empty_of_forall_notMem fun tier hstray => ?_
    obtain ⟨top, htop⟩ := Stray.exists_namesMissing hstray
    exact Set.notMem_empty top (hnone ▸ htop)

/-- There are as many strays as tiers that name a parent which does not exist exactly if no other
tier is a stray. -/
theorem ncard_strays_eq_iff (tiers : List Tier) :
    {tier | Stray tiers tier}.ncard = {tier | NamesMissing tiers tier}.ncard ↔
      ∀ tier, Stray tiers tier → NamesMissing tiers tier := by
  constructor
  · intro hcount tier hstray
    have hsame := Set.eq_of_subset_of_ncard_le (namesMissing_subset tiers) hcount.le
      (finite_strays tiers)
    exact hsame.symm.subset hstray
  · intro hmissing
    exact congrArg Set.ncard (Set.Subset.antisymm hmissing (namesMissing_subset tiers))

end Hierarchy

namespace Document

variable {document : Document} {trees : List TierTree}

open Hierarchy (Stray)

/-- The tiers that a forest leaves out are the strays. -/
theorem tiersOutside_eq_ncard (hids : document.tierIds.Nodup)
    (hforest : document.forest = .ok trees) :
    document.tiersOutside trees = {tier | Stray document.tiers tier}.ncard := by
  rw [tiersOutside, ← Hierarchy.totalSize_add_strays hids hforest, Nat.add_sub_cancel_left]

end Document

/-! ### The command -/

section Command

variable {file : Path} {before loaded : Task.State} {imported : Imported} {trees : List TierTree}

/-- A printed line is added to the others. -/
theorem answers_printLine {line : String} {after : Task.State} :
    Task.Answers (printLine line) before () after ↔
      after = (before.1, { before.2 with printed := line :: before.2.printed }) := by
  rw [printLine, Task.answers_lift]
  exact and_iff_right rfl

theorem onlySpeaks_printLine (line : String) : Task.OnlySpeaks (printLine line) :=
  fun _ => ⟨_, answers_printLine.2 rfl, rfl, rfl⟩

/-- Lines that are printed do not change the level or the remarks. -/
theorem keeps_printLine (line : String) :
    Task.Keeps (fun state => (state.1, state.2.remarks)) (printLine line) := by
  intro before answer after h
  rw [answers_printLine.1 h]

/-- The command that shows a forest tells the number of tiers that the forest leaves out if there
are any, unless the level keeps the remark back. -/
theorem answers_showTree {settings : Settings}
    (hload : Task.Answers (Files.load file settings.reading) before imported loaded)
    (hforest : imported.document.forest = .ok trees) :
    let outside := imported.document.tiersOutside trees
    ∃ after, Task.Answers (showTree settings file) before true after ∧
      after.2.remarks = (if outside ≠ 0 ∧ Severity.warn.rank ≤ loaded.1.rank then
        [(.warn, s!"{outside} tier(s) name a parent that does not exist")] else []) ++
          loaded.2.remarks := by
  intro outside
  have hlines : Task.OnlySpeaks ((TierTree.levelsOf 0 trees).forM
      fun item => printLine (item.2.line item.1)) :=
    Task.onlySpeaks_forM fun item _ => onlySpeaks_printLine _
  obtain ⟨shown, hshow, -⟩ := hlines loaded
  have hkeeps := Task.keeps_forM (fun _ _ => keeps_printLine _) _ _ _ hshow
  obtain ⟨hlevel, hremarks⟩ := Prod.mk.inj hkeeps
  by_cases houtside : outside = 0
  · refine ⟨shown, Task.answers_bind.2 ⟨imported, loaded, hload, ?_⟩, ?_⟩
    · rw [hforest]
      refine Task.answers_bind.2 ⟨(), shown, hshow, ?_⟩
      exact (if_neg (not_not.2 houtside)).symm ▸ Task.answers_pure.2 ⟨rfl, rfl⟩
    · rw [if_neg fun h => h.1 houtside, List.nil_append, hremarks]
  · obtain ⟨told, htold, -⟩ := Task.onlySpeaks_remark .warn
      s!"{outside} tier(s) name a parent that does not exist" shown
    refine ⟨told, Task.answers_bind.2 ⟨imported, loaded, hload, ?_⟩, ?_⟩
    · rw [hforest]
      refine Task.answers_bind.2 ⟨(), shown, hshow, ?_⟩
      dsimp only
      rw [if_pos houtside]
      exact Task.answers_bind.2 ⟨(), told, htold, Task.answers_pure.2 ⟨rfl, rfl⟩⟩
    · rw [Task.remarks_remark htold, hlevel, hremarks]
      simp only [ne_eq, houtside, not_false_eq_true, true_and]

/-- The command that shows a forest answers if a file holds a document that has one. -/
theorem perform_tree (level : Severity) (settings : Settings) {workspace : Workspace}
    {text : String}
    (hread : workspace.files.read file = .ok text)
    (himport : (Document.empty.importText settings.reading text).result = .ok imported)
    (hforest : imported.document.forest = .ok trees) :
    let outside := imported.document.tiersOutside trees
    ∃ loaded after,
      workspace.perform level (Files.load file settings.reading) = (.ok imported, loaded) ∧
      workspace.perform level ((Command.tree file).perform settings) = (.ok true, after) ∧
      after.remarks = (if outside ≠ 0 ∧ Severity.warn.rank ≤ level.rank then
        [(.warn, s!"{outside} tier(s) name a parent that does not exist")] else []) ++
          loaded.remarks := by
  intro outside
  obtain ⟨loaded, hload⟩ : ∃ loaded,
      Task.Answers (Files.load file settings.reading) (level, workspace) imported loaded :=
    Files.exists_load hread himport
  obtain ⟨after, hafter, hremarks⟩ := answers_showTree hload hforest
  have hlevel : loaded.1 = level := Files.keeps_load _ _ _ hload
  rw [hlevel] at hremarks
  exact ⟨loaded.2, after.2, Task.perform_eq_ok_iff.2 ⟨_, hload⟩,
    Task.perform_eq_ok_iff.2 ⟨_, hafter⟩, hremarks⟩

/-- **The command that shows the forest tells the number of strays.** Whatever the file, the
settings and the file tree: if the file holds a document that has a forest, the command answers, and
after the remarks that are made while the document is loaded it makes one that tells the number of
strays, if there are any and the level lets it through. The forest and the strays make up all tiers.
The problems of the report with missing parents are as many as the tiers that name one; there are no
more of them than strays, none only if there are no strays, and as many only if every stray itself
names a missing parent. -/
theorem tree_tells_strays (level : Severity) (settings : Settings) {workspace : Workspace}
    {text : String}
    (hread : workspace.files.read file = .ok text)
    (himport : (Document.empty.importText settings.reading text).result = .ok imported)
    (hforest : imported.document.forest = .ok trees) :
    let document := imported.document
    let strays := {tier | Hierarchy.Stray document.tiers tier}.ncard
    let missing := document.report.issues.countP Issue.isMissingParent
    (∃ loaded after,
      workspace.perform level (Files.load file settings.reading) = (.ok imported, loaded) ∧
      workspace.perform level ((Command.tree file).perform settings) = (.ok true, after) ∧
      after.remarks = (if strays ≠ 0 ∧ Severity.warn.rank ≤ level.rank then
        [(.warn, s!"{strays} tier(s) name a parent that does not exist")] else []) ++
          loaded.remarks) ∧
    TierTree.totalSize trees + strays = document.tiers.length ∧
    missing = {tier | Hierarchy.NamesMissing document.tiers tier}.ncard ∧ missing ≤ strays ∧
    (strays = 0 ↔ missing = 0) ∧
    (strays = missing ↔ ∀ tier, Hierarchy.Stray document.tiers tier →
      Hierarchy.NamesMissing document.tiers tier) := by
  intro document strays missing
  have hids : document.tierIds.Nodup := (Document.fromFile_of_importText himport).tierIds
  have hmissing : missing = _ := Document.countP_missingParent hids
  have hstrays : document.tiersOutside trees = strays := Document.tiersOutside_eq_ncard hids hforest
  refine ⟨?_, Hierarchy.totalSize_add_strays hids hforest, hmissing, ?_, ?_, ?_⟩
  · have hperform := perform_tree level settings hread himport hforest
    rwa [hstrays] at hperform
  · rw [hmissing]
    exact Set.ncard_le_ncard (Hierarchy.namesMissing_subset _) (Hierarchy.finite_strays _)
  · rw [hmissing]
    exact Hierarchy.ncard_strays_eq_zero_iff _
  · rw [hmissing]
    exact Hierarchy.ncard_strays_eq_iff _

end Command

/-! ### A stray below another -/

/-- A file with two strays, of which only one names a parent that does not exist. -/
def fileWithStrays : String :=
  "<ANNOTATION_DOCUMENT><HEADER><MEDIA_DESCRIPTOR/></HEADER><TIME_ORDER/><TIER TIER_ID='root'/>
    <TIER TIER_ID='o' PARENT_REF='ghost'/><TIER TIER_ID='o2' PARENT_REF='o'/>
    </ANNOTATION_DOCUMENT>"

/-- A workspace with nothing but that file. -/
def workspaceWithStrays : Workspace :=
  { files := FileTree.empty.put ["a.eaf"] (.ofText fileWithStrays) }

set_option maxRecDepth 2000 in
theorem read_workspaceWithStrays :
    workspaceWithStrays.files.read ⟨"a.eaf"⟩ = .ok fileWithStrays :=
  FileTree.read_write (FileTree.write_of_free rfl (by decide +kernel) rfl _)

set_option maxRecDepth 2000 in
/-- The file is read, its document has a forest, and the report misses one parent. -/
theorem exists_fileWithStrays : ∃ imported trees,
    (Document.empty.importText {} fileWithStrays).result = .ok imported ∧
      imported.document.forest = .ok trees ∧ TierTree.totalSize trees = 1 ∧
      imported.document.tiers.length = 3 ∧
      imported.document.report.issues.countP Issue.isMissingParent = 1 := by
  let link (id : String) (parent : Option String) : Tier := { id, linguisticType := "", parent }
  obtain ⟨imported, himport, hread⟩ : ∃ imported,
      (Document.empty.importText {} fileWithStrays).result = .ok imported ∧
        decide (imported.document.tiers =
            [link "root" none, link "o" (some "ghost"), link "o2" (some "o")] ∧
          imported.document.report.issues.countP Issue.isMissingParent = 1) = true :=
    Document.exists_importText_of_any (show String.ofList _ = fileWithStrays from rfl)
      (by decide +kernel)
  obtain ⟨htiers, hmissing⟩ := of_decide_eq_true hread
  refine ⟨imported, [.node (link "root" none) []], himport, ?_, rfl, ?_, hmissing⟩
  · rw [Document.forest, htiers]
    refine Hierarchy.forest_eq_ok_iff.2 ⟨by decide +kernel, Hierarchy.below_eq_ok_iff.2 ⟨rfl, ?_⟩⟩
    refine List.forall_mem_singleton.2 ⟨List.not_mem_nil, Hierarchy.below_eq_ok_iff.2 ⟨rfl, ?_⟩⟩
    exact List.forall_mem_nil _
  · rw [htiers]
    rfl

/-- The command tells the number of both strays in the file. -/
theorem tree_tells_strays_one_below_another :
    ∃ text imported trees, workspaceWithStrays.files.read ⟨"a.eaf"⟩ = .ok text ∧
      (Document.empty.importText {} text).result = .ok imported ∧
      imported.document.forest = .ok trees ∧
      {tier | Hierarchy.Stray imported.document.tiers tier}.ncard = 2 ∧
      {tier | Hierarchy.NamesMissing imported.document.tiers tier}.ncard = 1 ∧
      ∃ loaded after,
        workspaceWithStrays.perform .warn (Files.load ⟨"a.eaf"⟩ {}) = (.ok imported, loaded) ∧
        workspaceWithStrays.perform .warn ((Command.tree ⟨"a.eaf"⟩).perform {}) =
          (.ok true, after) ∧
        after.remarks =
          (.warn, "2 tier(s) name a parent that does not exist") :: loaded.remarks := by
  obtain ⟨imported, trees, himport, hforest, hsize, htiers, hmissing⟩ := exists_fileWithStrays
  obtain ⟨⟨loaded, after, hload, hafter, hremarks⟩, htotal, hcount, -⟩ :=
    tree_tells_strays .warn {} read_workspaceWithStrays himport hforest
  have hstrays : {tier | Hierarchy.Stray imported.document.tiers tier}.ncard = 2 := by omega
  rw [hstrays] at hremarks
  exact ⟨_, imported, trees, read_workspaceWithStrays, himport, hforest, hstrays,
    hcount.symm.trans hmissing, loaded, after, hload, hafter, hremarks⟩

/-- The command warns of two tiers where the report misses one parent. -/
theorem tree_warns_of_more_than_missing :
    ∃ imported trees after, (Document.empty.importText {} fileWithStrays).result = .ok imported ∧
      imported.document.forest = .ok trees ∧
      workspaceWithStrays.perform .warn ((Command.tree ⟨"a.eaf"⟩).perform {}) = (.ok true, after) ∧
      (.warn, "2 tier(s) name a parent that does not exist") ∈ after.remarks ∧
      imported.document.report.issues.countP Issue.isMissingParent = 1 := by
  obtain ⟨imported, trees, himport, hforest, hsize, htiers, hmissing⟩ := exists_fileWithStrays
  have houtside : imported.document.tiersOutside trees = 2 := by
    rw [Document.tiersOutside, hsize, htiers]
  obtain ⟨loaded, after, -, hafter, hremarks⟩ :=
    perform_tree .warn {} read_workspaceWithStrays himport hforest
  rw [houtside] at hremarks
  refine ⟨imported, trees, after, himport, hforest, hafter, ?_, hmissing⟩
  rw [hremarks]
  exact List.mem_cons_self

end Eaf

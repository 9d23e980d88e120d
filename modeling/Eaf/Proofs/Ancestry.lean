import Mathlib.Data.List.Nodup
import Mathlib.Logic.Relation
import Mathlib.Tactic.Choose
import Eaf.Hierarchy
import Eaf.Proofs.CleanReport
import Eaf.Proofs.Elements
import Eaf.Proofs.Representation

/-!
# Ancestors and the forest of tiers

A tier names its parent by id, and the parents of its parent are its ancestors. On its way up from
an id the hierarchy either comes to a tier without a parent that exists, or comes to some id twice;
where the ids of tiers are distinct, the second happens exactly if some tier is its own ancestor.
Where none is, every tier hangs below exactly one of those that name a given parent, so that each
is met once on the way down. A report looks at the parent of each tier but not further up: it
vouches that every tier has its place in the forest, and leaves it to the forest to find a circle.

## Main definitions

* `Eaf.Hierarchy.Names` — an id whose tier names another as its parent.
* `Eaf.Hierarchy.OwnAncestor` — an id from which parents lead back to it.
* `Eaf.Hierarchy.Climbs` — the climb from an id, with what it comes to.
* `Eaf.Hierarchy.HangsBelow` — the tiers below a parent, at any depth.
* `Eaf.Hierarchy.Stray` — the tiers below a parent that does not exist.
* `Eaf.TierTree.tiers`, `Eaf.TierTree.tiersOf` — the tiers of a tree and of a list of trees.

## Main results

* `Eaf.Hierarchy.climbs_repeated?` — every climb ends, at what is looked for.
* `Eaf.Hierarchy.cyclic?_eq_none_iff` — no circle is found exactly if no id is its own ancestor.
* `Eaf.Hierarchy.exists_below` — what hangs below a parent is built, and each tier of it once.
* `Eaf.Hierarchy.hangsBelow_none_or_stray` — every tier hangs below a root or is a stray.
* `Eaf.Document.forest_of_report` — the forest of a document whose report lists nothing.
-/

namespace Eaf

/-! ### The tiers of a tree -/

namespace TierTree

mutual

/-- The tiers of a tree, from the top down. -/
def tiers : TierTree → List Tier
  | node tier children => tier :: tiersOf children

/-- The tiers of a list of trees, from the top down. -/
def tiersOf : List TierTree → List Tier
  | [] => []
  | tree :: trees => tree.tiers ++ tiersOf trees

end

theorem tiersOf_eq_flatMap (trees : List TierTree) : tiersOf trees = trees.flatMap tiers := by
  induction trees with
  | nil => rfl
  | cons tree trees ih => rw [tiersOf, ih, List.flatMap_cons]

mutual

theorem size_eq_length : (tree : TierTree) → tree.size = tree.tiers.length
  | node tier children => by
    rw [size, tiers, List.length_cons, totalSize_eq_length children, Nat.add_comm]

theorem totalSize_eq_length : (trees : List TierTree) → totalSize trees = (tiersOf trees).length
  | [] => rfl
  | tree :: trees => by
    rw [totalSize, tiersOf, List.length_append, size_eq_length tree, totalSize_eq_length trees]

end

end TierTree

namespace Hierarchy

open Relation (TransGen ReflTransGen)

variable {tiers : List Tier} {ancestors visited : List String} {parent : Option String}
  {steps : Nat} {id last : String} {tier other : Tier}

/-- Some tier of an id names a given parent. -/
def Names (tiers : List Tier) (id parent : String) : Prop :=
  ∃ tier ∈ tiers, tier.id = id ∧ tier.parent = some parent

/-- Parents lead from an id back to it. -/
def OwnAncestor (tiers : List Tier) (id : String) : Prop :=
  TransGen (Names tiers) id id

theorem Names.mem (h : Names tiers id last) : id ∈ tiers.map (·.id) := by
  obtain ⟨tier, htier, rfl, -⟩ := h
  exact List.mem_map_of_mem htier

theorem names_of_parentOf? (h : parentOf? tiers id = some last) : Names tiers id last := by
  obtain ⟨tier, hfind, hparent⟩ := Option.bind_eq_some_iff.1 h
  refine ⟨tier, List.mem_reverse.1 (List.mem_of_find?_eq_some hfind), ?_, hparent⟩
  simpa using List.find?_some hfind

/-! ### The way up -/

/-- The climb from an id when some ids were met before. It ends at an id that was met before, or at
one whose tier has no parent or that is no tier's. -/
inductive Climbs (tiers : List Tier) : List String → String → Option String → Prop
  | again {visited : List String} {id : String} (hmet : id ∈ visited) :
      Climbs tiers visited id (some id)
  | top {visited : List String} {id : String} (hnew : id ∉ visited)
      (hend : parentOf? tiers id = none) : Climbs tiers visited id none
  | up {visited : List String} {id parent : String} {outcome : Option String} (hnew : id ∉ visited)
      (hparent : parentOf? tiers id = some parent)
      (hrest : Climbs tiers (id :: visited) parent outcome) : Climbs tiers visited id outcome

/-- A climb ends within more steps than there are tiers that were not met: all ids met on it are ids
of different tiers. -/
theorem climbs_repeatedWithin? (hnodup : visited.Nodup)
    (hvisited : ∀ v ∈ visited, v ∈ tiers.map (·.id))
    (hsteps : tiers.length < visited.length + steps) :
    Climbs tiers visited id (repeatedWithin? tiers steps visited id) := by
  induction steps generalizing visited id with
  | zero =>
    have hle := (hnodup.subperm hvisited).length_le
    rw [List.length_map] at hle
    omega
  | succ steps ih =>
    rw [repeatedWithin?]
    split
    next hmet => exact .again (List.contains_iff_mem.1 hmet)
    next hnew =>
      have hnew : id ∉ visited := fun hmem => hnew (List.contains_iff_mem.2 hmem)
      split
      next hend => exact .top hnew hend
      next parent hparent =>
        have hvisited := List.forall_mem_cons.2 ⟨(names_of_parentOf? hparent).mem, hvisited⟩
        have hsteps : tiers.length < (id :: visited).length + steps := by
          rw [List.length_cons]
          omega
        exact .up hnew hparent (ih (List.nodup_cons.2 ⟨hnew, hnodup⟩) hvisited hsteps)

/-- Every climb ends, at the id that is looked for if there is one. -/
theorem climbs_repeated? (tiers : List Tier) (id : String) :
    Climbs tiers [] id (repeated? tiers id) := by
  refine climbs_repeatedWithin? List.nodup_nil (List.forall_mem_nil _) ?_
  rw [List.length_nil, Nat.zero_add]
  exact Nat.lt_succ_self _

/-- An id that is met again on a way up is its own ancestor, if all ids met before lead to where
the way starts. -/
theorem Climbs.ownAncestor (h : Climbs tiers visited id (some last))
    (hvisited : ∀ v ∈ visited, TransGen (Names tiers) v id) : OwnAncestor tiers last := by
  generalize houtcome : some last = outcome at h
  induction h with
  | again hmet =>
    obtain rfl := Option.some.inj houtcome
    exact hvisited _ hmet
  | top => cases houtcome
  | up _ hparent _ ih =>
    have hnames := names_of_parentOf? hparent
    exact ih (List.forall_mem_cons.2 ⟨.single hnames, fun v hv => (hvisited v hv).tail hnames⟩)
      houtcome

/-- A way up on which no id is met again ends. -/
theorem Climbs.exists_end (h : Climbs tiers visited id none) :
    ∃ last, ReflTransGen (Names tiers) id last ∧ parentOf? tiers last = none := by
  generalize houtcome : none = outcome at h
  induction h with
  | again => cases houtcome
  | @top _ id _ hend => exact ⟨id, .refl, hend⟩
  | up _ hparent _ ih =>
    obtain ⟨last, hway, hend⟩ := ih houtcome
    exact ⟨last, hway.head (names_of_parentOf? hparent), hend⟩

/-- What is found to be met again on the way up from some tier is its own ancestor. -/
theorem ownAncestor_of_cyclic? (h : cyclic? tiers = some id) : OwnAncestor tiers id := by
  obtain ⟨tier, -, hrepeated⟩ := List.exists_of_findSome?_eq_some h
  have hclimbs := climbs_repeated? tiers tier.id
  rw [hrepeated] at hclimbs
  exact hclimbs.ownAncestor (List.forall_mem_nil _)

/-- Where no id is met again, the way up from every tier ends. -/
theorem exists_end_of_cyclic? (h : cyclic? tiers = none) (htier : tier ∈ tiers) :
    ∃ last, ReflTransGen (Names tiers) tier.id last ∧ parentOf? tiers last = none := by
  have hclimbs := climbs_repeated? tiers tier.id
  rw [List.findSome?_eq_none_iff.1 h tier htier] at hclimbs
  exact hclimbs.exists_end

/-! ### Distinct ids -/

section Distinct

variable (hids : (tiers.map (·.id)).Nodup)

include hids

/-- Where ids are distinct, an id belongs to one tier. -/
theorem eq_of_id (htier : tier ∈ tiers) (hother : other ∈ tiers) (h : tier.id = other.id) :
    tier = other :=
  List.inj_on_of_nodup_map hids htier hother h

theorem parentOf?_eq (htier : tier ∈ tiers) : parentOf? tiers tier.id = tier.parent := by
  cases hfind : tiers.reverse.find? (·.id == tier.id) with
  | none => simpa using List.find?_eq_none.1 hfind tier (List.mem_reverse.2 htier)
  | some other =>
    have hother := List.mem_reverse.1 (List.mem_of_find?_eq_some hfind)
    have hid : other.id = tier.id := by simpa using List.find?_some hfind
    rw [parentOf?, hfind, Option.bind_some, eq_of_id hids hother htier hid]

theorem parentOf?_eq_some_iff : parentOf? tiers id = some last ↔ Names tiers id last := by
  refine ⟨names_of_parentOf?, ?_⟩
  rintro ⟨tier, htier, rfl, hparent⟩
  rw [parentOf?_eq hids htier, hparent]

theorem names_rightUnique : Relator.RightUnique (Names tiers) := by
  intro id parent other hparent hother
  rw [← parentOf?_eq_some_iff hids] at hparent hother
  exact Option.some.inj (hparent.symm.trans hother)

/-- Whoever is on the way up from an id that is its own ancestor is its own ancestor. -/
theorem OwnAncestor.up (h : OwnAncestor tiers id) (hway : ReflTransGen (Names tiers) id last) :
    OwnAncestor tiers last := by
  induction hway with
  | refl => exact h
  | @tail middle last _ hnames ih =>
    obtain ⟨parent, hparent, hback⟩ := Relation.TransGen.head'_iff.1 ih
    obtain rfl := names_rightUnique hids hparent hnames
    exact TransGen.tail' hback hnames

/-- No circle is found exactly if no id is its own ancestor. -/
theorem cyclic?_eq_none_iff : cyclic? tiers = none ↔ ∀ id, ¬ OwnAncestor tiers id := by
  constructor
  · intro h id hown
    obtain ⟨parent, ⟨tier, htier, rfl, -⟩, -⟩ := Relation.TransGen.head'_iff.1 hown
    obtain ⟨last, hway, hend⟩ := exists_end_of_cyclic? h htier
    obtain ⟨parent, hparent, -⟩ := Relation.TransGen.head'_iff.1 (hown.up hids hway)
    rw [(parentOf?_eq_some_iff hids).2 hparent] at hend
    cases hend
  · intro h
    cases hcyclic : cyclic? tiers with
    | none => rfl
    | some id => exact absurd (ownAncestor_of_cyclic? hcyclic) (h id)

/-- A way up ends at one id only. -/
theorem end_unique (hway : ReflTransGen (Names tiers) id last) (hend : parentOf? tiers last = none)
    {last' : String} (hway' : ReflTransGen (Names tiers) id last')
    (hend' : parentOf? tiers last' = none) : last = last' := by
  wlog h : ReflTransGen (Names tiers) last last' generalizing last last'
  · have htotal := hway.total_of_right_unique (names_rightUnique hids) hway'
    exact (this hway' hend' hway hend (htotal.resolve_left h)).symm
  obtain hsame | ⟨parent, hparent, -⟩ := Relation.ReflTransGen.cases_head_iff.1 h
  · exact hsame
  · rw [(parentOf?_eq_some_iff hids).2 hparent] at hend
    cases hend

end Distinct

/-! ### The way down -/

/-- A tier hangs below a parent if it names this parent or one of its ancestors does. -/
def HangsBelow (tiers : List Tier) (parent : Option String) (tier : Tier) : Prop :=
  tier ∈ tiers ∧ ∃ top ∈ tiers, top.parent = parent ∧ ReflTransGen (Names tiers) tier.id top.id

/-- A tier is a stray if it names a parent that does not exist or one of its ancestors does. -/
def Stray (tiers : List Tier) (tier : Tier) : Prop :=
  ∃ missing, missing ∉ tiers.map (·.id) ∧ HangsBelow tiers (some missing) tier

theorem mem_childrenOf : tier ∈ childrenOf tiers parent ↔ tier ∈ tiers ∧ tier.parent = parent := by
  rw [childrenOf, List.mem_filter, beq_iff_eq]

/-- What hangs below a tier has it as an ancestor. -/
theorem HangsBelow.transGen (h : HangsBelow tiers (some id) tier) :
    TransGen (Names tiers) tier.id id := by
  obtain ⟨-, top, htop, hparent, hway⟩ := h
  exact TransGen.tail' hway ⟨top, htop, rfl, hparent⟩

section Acyclic

variable (hids : (tiers.map (·.id)).Nodup) (hacyclic : ∀ id, ¬ OwnAncestor tiers id)

include hids in
/-- A tier hangs below a parent if it is one of the tiers that name it or hangs below one. -/
theorem hangsBelow_iff : HangsBelow tiers parent tier ↔
    ∃ child ∈ childrenOf tiers parent, tier = child ∨ HangsBelow tiers (some child.id) tier := by
  constructor
  · rintro ⟨htier, top, htop, hparent, hway⟩
    refine ⟨top, mem_childrenOf.2 ⟨htop, hparent⟩, ?_⟩
    obtain hsame | ⟨middle, hway, next, hnext, rfl, hnames⟩ :=
      Relation.ReflTransGen.cases_tail_iff _ _ _ |>.1 hway
    · exact Or.inl (eq_of_id hids htier htop hsame.symm)
    · exact Or.inr ⟨htier, next, hnext, hnames, hway⟩
  · rintro ⟨child, hchild, rfl | hbelow⟩
    · obtain ⟨htier, hparent⟩ := mem_childrenOf.1 hchild
      exact ⟨htier, tier, htier, hparent, .refl⟩
    · obtain ⟨hmem, hparent⟩ := mem_childrenOf.1 hchild
      exact ⟨hbelow.1, child, hmem, hparent, hbelow.transGen.to_reflTransGen⟩

include hids hacyclic in
/-- Two tiers that name one parent have no tier below them in common. -/
theorem eq_of_reflTransGen (htier : tier ∈ childrenOf tiers parent)
    (hother : other ∈ childrenOf tiers parent) (h : ReflTransGen (Names tiers) id tier.id)
    (h' : ReflTransGen (Names tiers) id other.id) : tier = other := by
  wlog hway : ReflTransGen (Names tiers) tier.id other.id generalizing tier other
  · have htotal := h.total_of_right_unique (names_rightUnique hids) h'
    exact (this hother htier h' h (htotal.resolve_left hway)).symm
  obtain ⟨htier, hparent⟩ := mem_childrenOf.1 htier
  obtain ⟨hother, hparent'⟩ := mem_childrenOf.1 hother
  -- The way between them would begin at their parent, and from there come back to it.
  obtain hsame | ⟨middle, ⟨first, hfirst, hid, hnames⟩, hrest⟩ :=
    Relation.ReflTransGen.cases_head_iff.1 hway
  · exact eq_of_id hids htier hother hsame
  · obtain rfl := eq_of_id hids hfirst htier hid
    have hback : Names tiers other.id middle :=
      ⟨other, hother, rfl, by rw [hparent', ← hparent, hnames]⟩
    exact absurd (TransGen.tail' hrest hback) (hacyclic middle)

include hids hacyclic in
/-- Trees that hang below different tiers of one parent have no tier in common. -/
theorem nodup_flatMap_trees {trees : Tier → List TierTree}
    (hnodup : ∀ child ∈ childrenOf tiers parent, (TierTree.tiersOf (trees child)).Nodup)
    (hbelow : ∀ child ∈ childrenOf tiers parent, ∀ tier ∈ TierTree.tiersOf (trees child),
      HangsBelow tiers (some child.id) tier) :
    ((childrenOf tiers parent).flatMap fun child =>
      child :: TierTree.tiersOf (trees child)).Nodup := by
  have hway (child : Tier) (hchild : child ∈ childrenOf tiers parent) (tier : Tier)
      (h : tier ∈ child :: TierTree.tiersOf (trees child)) :
      ReflTransGen (Names tiers) tier.id child.id := by
    obtain rfl | htier := List.mem_cons.1 h
    · exact .refl
    · exact (hbelow child hchild tier htier).transGen.to_reflTransGen
  refine List.nodup_flatMap.2 ⟨fun child hchild => ?_, ?_⟩
  · refine List.nodup_cons.2 ⟨fun hmem => ?_, hnodup child hchild⟩
    exact hacyclic child.id (hbelow child hchild child hmem).transGen
  · have hchildren : (childrenOf tiers parent).Nodup := (List.Nodup.of_map _ hids).filter _
    refine hchildren.pairwise_of_forall_ne fun child hchild other hother hne tier htier htier' => ?_
    exact hne (eq_of_reflTransGen hids hacyclic hchild hother (hway child hchild tier htier)
      (hway other hother tier htier'))

/-- A way up that has led to the tiers that name a parent comes to none of them again. -/
theorem notMem_of_mem_childrenOf (hacyclic : ∀ id, ¬ OwnAncestor tiers id)
    (hancestors : ∀ a ∈ ancestors, ∃ p, parent = some p ∧ ReflTransGen (Names tiers) p a)
    (hchild : tier ∈ childrenOf tiers parent) : tier.id ∉ ancestors := by
  intro hmem
  obtain ⟨htier, hparent⟩ := mem_childrenOf.1 hchild
  obtain ⟨p, rfl, hway⟩ := hancestors tier.id hmem
  exact hacyclic tier.id (TransGen.head' ⟨tier, htier, rfl, hparent⟩ hway)

/-- If the parent that a tier names leads up to all ancestors, so does the tier itself, also once it
is one of them. -/
theorem leads_of_mem_childrenOf
    (hancestors : ∀ a ∈ ancestors, ∃ p, parent = some p ∧ ReflTransGen (Names tiers) p a)
    (hchild : tier ∈ childrenOf tiers parent) :
    ∀ a ∈ tier.id :: ancestors, ∃ p, some tier.id = some p ∧ ReflTransGen (Names tiers) p a := by
  obtain ⟨htier, hparent⟩ := mem_childrenOf.1 hchild
  refine List.forall_mem_cons.2 ⟨⟨tier.id, rfl, .refl⟩, fun a ha => ⟨tier.id, rfl, ?_⟩⟩
  obtain ⟨p, rfl, hway⟩ := hancestors a ha
  exact hway.head ⟨tier, htier, rfl, hparent⟩

include hids hacyclic in
/-- Where no id is its own ancestor, the trees below a parent are built, and they hold each tier
that hangs below it once. -/
theorem exists_below (ancestors : List String) (parent : Option String)
    (hancestors : ∀ a ∈ ancestors, ∃ p, parent = some p ∧ ReflTransGen (Names tiers) p a) :
    ∃ forest, below tiers ancestors parent = .ok forest ∧ (TierTree.tiersOf forest).Nodup ∧
      ∀ tier, tier ∈ TierTree.tiersOf forest ↔ HangsBelow tiers parent tier := by
  -- As the way down itself: fewer and fewer tiers are not among the ancestors.
  induction hn : tiers.countP (fun tier => tier.id ∉ ancestors) using Nat.strong_induction_on
    generalizing ancestors parent with
  | _ n ih =>
    have hchild : ∀ child ∈ childrenOf tiers parent, child.id ∉ ancestors ∧
        ∃ trees, below tiers (child.id :: ancestors) (some child.id) = .ok trees ∧
          (TierTree.tiersOf trees).Nodup ∧
          ∀ tier, tier ∈ TierTree.tiersOf trees ↔ HangsBelow tiers (some child.id) tier := by
      intro child hchild
      have hnew := notMem_of_mem_childrenOf hacyclic hancestors hchild
      have hfewer := hn ▸ countP_notMem_cons_lt tiers (mem_childrenOf.1 hchild).1 hnew
      exact ⟨hnew, ih _ hfewer _ _ (leads_of_mem_childrenOf hancestors hchild) rfl⟩
    choose! hnew trees htrees hnodup hmem using hchild
    have hbelow : below tiers ancestors parent =
        .ok ((childrenOf tiers parent).map fun child => .node child (trees child)) := by
      rw [below_eq]
      refine mapM_eq_ok fun child hchild => ?_
      rw [if_neg (hnew child hchild), htrees child hchild]
      rfl
    have htiers : TierTree.tiersOf
        ((childrenOf tiers parent).map fun child => .node child (trees child)) =
          (childrenOf tiers parent).flatMap fun child =>
            child :: TierTree.tiersOf (trees child) := by
      rw [TierTree.tiersOf_eq_flatMap, List.flatMap_map]
      rfl
    refine ⟨_, hbelow, ?_, fun tier => ?_⟩
    · rw [htiers]
      refine nodup_flatMap_trees hids hacyclic hnodup fun child hchild tier htier => ?_
      exact (hmem child hchild tier).1 htier
    · rw [htiers, hangsBelow_iff hids, List.mem_flatMap]
      refine exists_congr fun child => and_congr_right fun hchild => ?_
      rw [List.mem_cons, hmem child hchild]

/-! ### The forest -/

include hids hacyclic in
/-- Where no id is its own ancestor, every tier hangs below one that names no parent or is a
stray. -/
theorem hangsBelow_none_or_stray (htier : tier ∈ tiers) :
    HangsBelow tiers none tier ∨ Stray tiers tier := by
  obtain ⟨last, hway, hend⟩ := exists_end_of_cyclic? ((cyclic?_eq_none_iff hids).2 hacyclic) htier
  by_cases hlast : last ∈ tiers.map (·.id)
  · obtain ⟨top, htop, rfl⟩ := List.mem_map.1 hlast
    rw [parentOf?_eq hids htop] at hend
    exact Or.inl ⟨htier, top, htop, hend, hway⟩
  · obtain rfl | ⟨middle, hway, top, htop, rfl, hparent⟩ :=
      Relation.ReflTransGen.cases_tail_iff _ _ _ |>.1 hway
    · exact absurd (List.mem_map_of_mem htier) hlast
    · exact Or.inr ⟨last, hlast, htier, top, htop, hparent, hway⟩

include hids hacyclic in
/-- Where no id is its own ancestor and all parents exist, every tier hangs below one that names no
parent. -/
theorem hangsBelow_none (hparents : ∀ tier ∈ tiers, ∀ parent, tier.parent = some parent →
    parent ∈ tiers.map (·.id)) (htier : tier ∈ tiers) : HangsBelow tiers none tier := by
  refine (hangsBelow_none_or_stray hids hacyclic htier).resolve_right ?_
  rintro ⟨missing, hmissing, -, top, htop, hparent, -⟩
  exact hmissing (hparents top htop missing hparent)

end Acyclic

end Hierarchy

namespace Document

open Hierarchy (OwnAncestor)

variable {document : Document}

/-- Where a report lists nothing, every parent that a tier names is the id of a tier. -/
theorem Clean.parent_mem (h : document.Clean) {tier : Tier} (htier : tier ∈ document.tiers)
    {parent : String} (hparent : tier.parent = some parent) : parent ∈ document.tierIds := by
  have hissues := h.parents tier htier
  unfold parentIssues at hissues
  rw [hparent] at hissues
  dsimp only at hissues
  split at hissues
  next hsome => exact tier?_isSome_iff.1 hsome
  next => cases hissues

/-- **A report vouches for the place of every tier, not against circles.** After every run in which
files are read, objects made and media assigned, but no tier is edited, and whose report lists no
problem: if no tier is its own ancestor, there is a forest and it holds every tier once; if one is,
there is none, and the fault names a tier that is its own ancestor. -/
theorem forest_of_report (acts : List Act) (hgrows : ∀ act ∈ acts, act.Grows) :
    let document := empty.run acts
    document.report.passed = true →
      ((∀ id, ¬ OwnAncestor document.tiers id) →
        ∃ forest, document.forest = .ok forest ∧
          (TierTree.tiersOf forest).Perm document.tiers) ∧
      ((∃ id, OwnAncestor document.tiers id) →
        ∃ id, OwnAncestor document.tiers id ∧ document.forest = .error (.cyclicHierarchy id)) := by
  intro document hpassed
  have hids : document.tierIds.Nodup :=
    run_induction (P := fun d => d.tierIds.Nodup) List.nodup_nil fun d act hact hd =>
      after_tierIds_nodup hd (hgrows act hact).keepsTierIds
  have hclean : document.Clean := issues_eq_nil_iff.1 (List.isEmpty_iff.1 hpassed)
  constructor
  · intro hacyclic
    obtain ⟨forest, hbelow, hnodup, hmem⟩ := Hierarchy.exists_below hids hacyclic [] none
      fun a ha => absurd ha List.not_mem_nil
    have hforest : document.forest = .ok forest := by
      rw [Document.forest, Hierarchy.forest, (Hierarchy.cyclic?_eq_none_iff hids).2 hacyclic]
      exact hbelow
    refine ⟨forest, hforest, ?_⟩
    refine (List.perm_ext_iff_of_nodup hnodup (List.Nodup.of_map _ hids)).2 fun tier => ?_
    rw [hmem]
    refine ⟨fun hbelow => hbelow.1, fun htier => ?_⟩
    exact Hierarchy.hangsBelow_none hids hacyclic (fun _ hmem _ => hclean.parent_mem hmem) htier
  · rintro ⟨id, hown⟩
    cases hcyclic : Hierarchy.cyclic? document.tiers with
    | none => exact absurd hown ((Hierarchy.cyclic?_eq_none_iff hids).1 hcyclic id)
    | some other =>
      refine ⟨other, Hierarchy.ownAncestor_of_cyclic? hcyclic, ?_⟩
      rw [Document.forest, Hierarchy.forest, hcyclic]

/-- A file of tiers with the given ids and parents. -/
def fileOfTiers (links : List (String × Option String)) : Xml.Node :=
  Outline.root { tiers := links.map fun (id, parent) => tierElement id parent [] }

/-- Children that stand before their parents, of which the last comes from a second file. -/
theorem forest_of_report_two_files :
    let acts : List Act :=
      [ .readTree {} (fileOfTiers [("gloss", some "words"), ("words", some "text")]),
        .createTier "text" "en",
        .readTree {} (fileOfTiers [("text", none), ("words", some "words")]) ]
    let document := empty.run acts
    (∀ act ∈ acts, act.Grows) ∧ document.report.passed = true ∧
      (∀ id, ¬ OwnAncestor document.tiers id) ∧
      ∃ forest, document.forest = .ok forest ∧
        (TierTree.tiersOf forest).Perm document.tiers := by
  intro acts document
  have hgrows : ∀ act ∈ acts, act.Grows := by decide
  have hpassed : document.report.passed = true := by decide +kernel
  have hids : document.tierIds.Nodup := by decide +kernel
  have hacyclic : ∀ id, ¬ OwnAncestor document.tiers id :=
    (Hierarchy.cyclic?_eq_none_iff hids).1 (by decide +kernel)
  exact ⟨hgrows, hpassed, hacyclic, (forest_of_report acts hgrows hpassed).1 hacyclic⟩

/-- A report lists nothing for a tier that names itself as its parent, and yet there is no
forest. -/
theorem no_forest_of_own_parent :
    let acts : List Act := [.readTree {} (fileOfTiers [("a", some "a")])]
    let document := empty.run acts
    (∀ act ∈ acts, act.Grows) ∧ document.report.passed = true ∧
      document.forest = .error (.cyclicHierarchy "a") := by
  intro acts document
  have hgrows : ∀ act ∈ acts, act.Grows := by decide
  have hpassed : document.report.passed = true := by decide +kernel
  have hcyclic : Hierarchy.cyclic? document.tiers = some "a" := by decide +kernel
  refine ⟨hgrows, hpassed, ?_⟩
  rw [Document.forest, Hierarchy.forest, hcyclic]

end Document

end Eaf

import Mathlib.Data.Set.Card
import Eaf.Proofs.Descent

/-!
# The forest of tiers with distinct ids

Where no two tiers share an id, parents lead up one way only. The forest below a root is refused
exactly if on some way up a circle is gone round; else it holds each tier whose way up leads to the
root, once and under the tier that it names. With no root given, a way up that does not lead to a
tier without a parent leads to a parent that does not exist: the tiers left out are the strays.

## Main results

* `Eaf.Hierarchy.not_stray_iff` — a tier is a stray unless it hangs below one without a parent.
* `Eaf.Hierarchy.totalSize_add_strays` — every tier is in the forest or a stray.
* `Eaf.Hierarchy.forest_of_distinct_ids` — the forest, for any tiers with distinct ids and any root.
-/

namespace Eaf

/-- The items of a list without repetitions are as many as the list is long. -/
theorem ncard_mem_of_nodup {α : Type} {xs : List α} (h : xs.Nodup) :
    {x | x ∈ xs}.ncard = xs.length := by
  classical
  rw [← List.coe_toFinset, Set.ncard_coe_finset, List.toFinset_card_of_nodup h]

namespace Hierarchy

open TierTree (WayDown tiersOf totalSize)

variable {tiers : List Tier} {root : Option String} {trees : List TierTree} {tier : Tier}

/-- Who is its own ancestor is a tier. -/
theorem OwnAncestor.exists_tier {id : String} (h : OwnAncestor tiers id) :
    ∃ tier ∈ tiers, OwnAncestor tiers tier.id := by
  obtain ⟨parent, ⟨tier, htier, rfl, -⟩, -⟩ := Relation.TransGen.head'_iff.1 h
  exact ⟨tier, htier, h⟩

theorem Stray.mem (h : Stray tiers tier) : tier ∈ tiers := by
  obtain ⟨-, -, htier, -⟩ := h
  exact htier

section Distinct

variable (hids : (tiers.map (·.id)).Nodup)

include hids

/-! ### Circles -/

/-- The forest is refused exactly if some tier is its own ancestor. -/
theorem forest_eq_error_iff :
    (∃ id, forest tiers root = .error (.cyclicHierarchy id)) ↔
      ∃ tier ∈ tiers, OwnAncestor tiers tier.id := by
  constructor
  · rintro ⟨id, hforest⟩
    obtain ⟨id, -, hown⟩ := ownAncestor_of_forest hforest
    exact hown.exists_tier
  · rintro ⟨tier, -, hown⟩
    cases hcyclic : cyclic? tiers with
    | none => exact absurd hown ((cyclic?_eq_none_iff hids).1 hcyclic tier.id)
    | some id =>
      refine ⟨id, ?_⟩
      rw [forest, hcyclic]

/-- Where no tier is its own ancestor, there is a forest. -/
theorem exists_forest (hacyclic : ∀ id, ¬ OwnAncestor tiers id) (root : Option String) :
    ∃ trees, forest tiers root = .ok trees ∧ (tiersOf trees).Nodup ∧
      ∀ tier, tier ∈ tiersOf trees ↔ HangsBelow tiers root tier := by
  obtain ⟨trees, hbelow, hnodup, hmem⟩ :=
    exists_below hids hacyclic [] root (List.forall_mem_nil _)
  exact ⟨trees, forest_eq_ok_iff.2 ⟨(cyclic?_eq_none_iff hids).2 hacyclic, hbelow⟩, hnodup, hmem⟩

/-- A forest holds each tier that hangs below its root, once. -/
theorem mem_forest (hforest : forest tiers root = .ok trees) :
    (tiersOf trees).Nodup ∧ ∀ tier, tier ∈ tiersOf trees ↔ HangsBelow tiers root tier := by
  have hacyclic := (cyclic?_eq_none_iff hids).1 (forest_eq_ok_iff.1 hforest).1
  obtain ⟨trees', hforest', heach⟩ := exists_forest hids hacyclic root
  obtain rfl := Except.ok.inj (hforest.symm.trans hforest')
  exact heach

/-! ### Strays -/

/-- No way up leads both to a tier without a parent and to a parent that does not exist. -/
theorem HangsBelow.not_stray (h : HangsBelow tiers none tier) : ¬ Stray tiers tier := by
  rintro ⟨missing, hmissing, -, other, hother, hparent, hway'⟩
  obtain ⟨-, top, htop, hroot, hway⟩ := h
  have hend : parentOf? tiers top.id = none := by rw [parentOf?_eq hids htop, hroot]
  have hend' : parentOf? tiers missing = none :=
    Option.eq_none_iff_forall_ne_some.2 fun _ hsome => hmissing (names_of_parentOf? hsome).mem
  have hsame := end_unique hids hway hend (hway'.tail ⟨other, hother, rfl, hparent⟩) hend'
  exact hmissing (hsame ▸ List.mem_map_of_mem htop)

/-- Where no id is its own ancestor, a tier is no stray exactly if it hangs below one that names no
parent. -/
theorem not_stray_iff (hacyclic : ∀ id, ¬ OwnAncestor tiers id) (htier : tier ∈ tiers) :
    ¬ Stray tiers tier ↔ HangsBelow tiers none tier :=
  ⟨(hangsBelow_none_or_stray hids hacyclic htier).resolve_right, HangsBelow.not_stray hids⟩

/-- The tiers that a forest without a root leaves out are the strays. -/
theorem notMem_forest_iff (hforest : forest tiers none = .ok trees) (htier : tier ∈ tiers) :
    tier ∉ tiersOf trees ↔ Stray tiers tier := by
  have hacyclic := (cyclic?_eq_none_iff hids).1 (forest_eq_ok_iff.1 hforest).1
  rw [(mem_forest hids hforest).2, ← not_stray_iff hids hacyclic htier, not_not]

/-- Every tier is in the forest or a stray. -/
theorem totalSize_add_strays (hforest : forest tiers none = .ok trees) :
    totalSize trees + {tier | Stray tiers tier}.ncard = tiers.length := by
  have hinside : {tier | tier ∈ tiersOf trees} ⊆ {tier | tier ∈ tiers} := fun tier htier =>
    (((mem_forest hids hforest).2 tier).1 htier).1
  have houtside : {tier | Stray tiers tier} =
      {tier | tier ∈ tiers} \ {tier | tier ∈ tiersOf trees} := by
    ext tier
    constructor
    · intro hstray
      exact ⟨hstray.mem, (notMem_forest_iff hids hforest hstray.mem).2 hstray⟩
    · rintro ⟨htier, hout⟩
      exact (notMem_forest_iff hids hforest htier).1 hout
  rw [TierTree.totalSize_eq_length, ← ncard_mem_of_nodup (mem_forest hids hforest).1, houtside,
    Nat.add_comm, Set.ncard_sdiff_add_ncard_of_subset hinside tiers.finite_toSet,
    ncard_mem_of_nodup (List.Nodup.of_map _ hids)]

/-! ### The forest -/

/-- **The forest of tiers with distinct ids.** It is refused, for a circle, exactly if some tier is
its own ancestor. If none is, it holds the tiers that hang below its root, each once: at its top the
tiers that name the root, below every tier those that name it, all of them in list order. Its size
is the number of these tiers, and without a root the tiers left out are the strays. -/
theorem forest_of_distinct_ids (root : Option String) :
    ((∃ id, forest tiers root = .error (.cyclicHierarchy id)) ↔
      ∃ tier ∈ tiers, OwnAncestor tiers tier.id) ∧
    ((∀ tier ∈ tiers, ¬ OwnAncestor tiers tier.id) →
      ∃ trees, forest tiers root = .ok trees ∧
        (tiersOf trees).Nodup ∧ (∀ tier, tier ∈ tiersOf trees ↔ HangsBelow tiers root tier) ∧
        trees.map (·.tier) = childrenOf tiers root ∧
        (∀ way, WayDown trees way → ∀ tree ∈ way,
          tree.children.map (·.tier) = childrenOf tiers (some tree.tier.id)) ∧
        totalSize trees = {tier | HangsBelow tiers root tier}.ncard ∧
        (root = none → ∀ tier ∈ tiers, tier ∉ tiersOf trees ↔ Stray tiers tier)) := by
  refine ⟨forest_eq_error_iff hids, fun hacyclic => ?_⟩
  have hacyclic : ∀ id, ¬ OwnAncestor tiers id := fun id hown => by
    obtain ⟨tier, htier, hown⟩ := hown.exists_tier
    exact hacyclic tier htier hown
  obtain ⟨trees, hforest, hnodup, hmem⟩ := exists_forest hids hacyclic root
  obtain ⟨-, hbelow⟩ := forest_eq_ok_iff.1 hforest
  refine ⟨trees, hforest, hnodup, hmem, (below_eq_ok_iff.1 hbelow).1, fun way hway tree htree => ?_,
    ?_, ?_⟩
  · obtain ⟨-, hchildren⟩ := (way_of_below hbelow hway).2 tree htree
    exact (below_eq_ok_iff.1 hchildren).1
  · rw [TierTree.totalSize_eq_length, ← ncard_mem_of_nodup hnodup]
    exact congrArg Set.ncard (Set.ext hmem)
  · rintro rfl tier htier
    exact notMem_forest_iff hids hforest htier

end Distinct

/-- Children stand before their parents and two tiers are strays. With no root the forest has three
tiers, below `text` it has two. -/
theorem forest_of_distinct_ids_children_first :
    let link (id : String) (parent : Option String) : Tier :=
      { id, linguisticType := "text", parent }
    let tiers := [link "gloss" (some "words"), link "draft" (some "lost"),
      link "words" (some "text"), link "notes" (some "draft"), link "text" none]
    let words : List TierTree := [.node (link "words" (some "text"))
      [.node (link "gloss" (some "words")) []]]
    (tiers.map (·.id)).Nodup ∧ (∀ tier ∈ tiers, ¬ OwnAncestor tiers tier.id) ∧
      forest tiers none = .ok [.node (link "text" none) words] ∧
      {tier | HangsBelow tiers none tier}.ncard = 3 ∧
      Stray tiers (link "draft" (some "lost")) ∧ Stray tiers (link "notes" (some "draft")) ∧
      forest tiers (some "text") = .ok words ∧
      {tier | HangsBelow tiers (some "text") tier}.ncard = 2 := by
  intro link tiers words
  have hids : (tiers.map (·.id)).Nodup := by decide
  have hcyclic : cyclic? tiers = none := by decide +kernel
  have hacyclic : ∀ tier ∈ tiers, ¬ OwnAncestor tiers tier.id := fun tier _ =>
    (cyclic?_eq_none_iff hids).1 hcyclic tier.id
  have hgloss : below tiers ["gloss", "words", "text"] (some "gloss") = .ok [] :=
    below_eq_ok_iff.2 ⟨rfl, List.forall_mem_nil _⟩
  have hbelowWords : below tiers ["words", "text"] (some "words") =
      .ok [.node (link "gloss" (some "words")) []] :=
    below_eq_ok_iff.2 ⟨rfl, List.forall_mem_singleton.2 ⟨by decide, hgloss⟩⟩
  have hbelowText : below tiers ["text"] (some "text") = .ok words :=
    below_eq_ok_iff.2 ⟨rfl, List.forall_mem_singleton.2 ⟨by decide, hbelowWords⟩⟩
  have hnone : forest tiers none = .ok [.node (link "text" none) words] :=
    forest_eq_ok_iff.2 ⟨hcyclic, below_eq_ok_iff.2
      ⟨rfl, List.forall_mem_singleton.2 ⟨List.not_mem_nil, hbelowText⟩⟩⟩
  have htext : forest tiers (some "text") = .ok words :=
    forest_eq_ok_iff.2 ⟨hcyclic, below_eq_ok_of_subset (List.nil_subset _) hbelowText⟩
  obtain ⟨trees, hforest, -, -, -, -, hsize, hout⟩ :=
    (forest_of_distinct_ids hids none).2 hacyclic
  obtain ⟨trees', hforest', -, -, -, -, hsize', -⟩ :=
    (forest_of_distinct_ids hids (some "text")).2 hacyclic
  obtain rfl := Except.ok.inj (hforest.symm.trans hnone)
  obtain rfl := Except.ok.inj (hforest'.symm.trans htext)
  refine ⟨hids, hacyclic, hnone, hsize.symm, ?_, ?_, htext, hsize'.symm⟩
  · exact (hout rfl _ (by decide)).1 (by decide)
  · exact (hout rfl _ (by decide)).1 (by decide)

end Hierarchy

end Eaf

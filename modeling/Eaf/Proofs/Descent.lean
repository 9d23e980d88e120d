import Eaf.Proofs.Ancestry

/-!
# Ways up and ways down

The hierarchy climbs from every tier before it descends. Ids may be shared: the climb looks at the
last tier of an id, the descent at all of them, so that the descent can come to a circle which the
climb did not see, and looks out for it itself. The descent ends on every list of tiers for the
reason for which the climb does: each step adds the id of a tier to those that were met, and there
are only so many of them. What it answers is grown as the tiers say, and what it refuses is a
circle.

## Main definitions

* `Eaf.TierTree.WayDown` — ways from a tree of a list down to one below it.
* `Eaf.Hierarchy.Calls` — a descent that is made in the course of another.

## Main results

* `Eaf.Hierarchy.wellFounded_calls` — descents within descents come to an end.
* `Eaf.Hierarchy.below_eq_ok_iff` — when a descent answers, and with what.
* `Eaf.Hierarchy.forest_of_any_tiers` — the forest of any list of tiers.
-/

namespace Eaf

/-! ### Items worked through one by one -/

section Items

variable {α β ε : Type} {f : α → Except ε β} {xs : List α}

/-- Where an answer shows the item that it is the answer for, a list is worked through with some
answers exactly if they are those for its items. -/
theorem mapM_eq_ok_iff {view : β → α} {P : β → Prop}
    (h : ∀ x y, f x = .ok y ↔ view y = x ∧ P y) {ys : List β} :
    xs.mapM f = .ok ys ↔ ys.map view = xs ∧ ∀ y ∈ ys, P y := by
  induction xs generalizing ys with
  | nil =>
    rw [List.mapM_nil, List.map_eq_nil_iff]
    constructor
    · intro heq
      obtain rfl : [] = ys := Except.ok.inj heq
      exact ⟨rfl, List.forall_mem_nil _⟩
    · rintro ⟨rfl, -⟩
      rfl
  | cons x xs ih =>
    rw [List.mapM_cons]
    constructor
    · intro heq
      obtain ⟨y, hy, heq⟩ := exceptBind_ok heq
      obtain ⟨rest, hrest, heq⟩ := exceptBind_ok heq
      obtain rfl : y :: rest = ys := Except.ok.inj heq
      obtain ⟨hview, hP⟩ := (h x y).1 hy
      obtain ⟨hviews, hPs⟩ := ih.1 hrest
      exact ⟨by rw [List.map_cons, hview, hviews], List.forall_mem_cons.2 ⟨hP, hPs⟩⟩
    · rintro ⟨hviews, hPs⟩
      obtain ⟨y, rest, rfl, hview, hviews⟩ := List.map_eq_cons_iff.1 hviews
      obtain ⟨hP, hPs⟩ := List.forall_mem_cons.1 hPs
      rw [(h x y).2 ⟨hview, hP⟩, ih.2 ⟨hviews, hPs⟩]
      rfl

/-- A list that cannot be worked through has an item that is refused in the same way. -/
theorem exists_of_mapM_eq_error {fault : ε} (h : xs.mapM f = .error fault) :
    ∃ x ∈ xs, f x = .error fault := by
  induction xs with
  | nil => cases h
  | cons x xs ih =>
    rw [List.mapM_cons] at h
    cases hx : f x with
    | error other =>
      rw [hx] at h
      obtain rfl : other = fault := Except.error.inj h
      exact ⟨x, List.mem_cons_self, hx⟩
    | ok y =>
      cases hxs : xs.mapM f with
      | error other =>
        rw [hx, hxs] at h
        obtain rfl : other = fault := Except.error.inj h
        obtain ⟨x', hmem, hx'⟩ := ih hxs
        exact ⟨x', List.mem_cons_of_mem x hmem, hx'⟩
      | ok ys =>
        rw [hx, hxs] at h
        cases h

end Items

/-! ### Ways down -/

namespace TierTree

/-- A way down a list of trees: one of them, then one of its children, and so on, to any depth. -/
inductive WayDown : List TierTree → List TierTree → Prop
  | here {trees : List TierTree} {tree : TierTree} (htree : tree ∈ trees) : WayDown trees [tree]
  | down {trees way : List TierTree} {tree : TierTree} (htree : tree ∈ trees)
      (hrest : WayDown tree.children way) : WayDown trees (tree :: way)

end TierTree

namespace Hierarchy

open TierTree (WayDown)
open Relation (TransGen ReflTransGen)

variable {tiers : List Tier} {ancestors visited : List String} {parent root : Option String}
  {steps : Nat} {id last : String} {tier : Tier} {trees way : List TierTree}

/-! ### The descent ends -/

/-- The descent to the trees below a parent, with some ancestors, makes another one: to the trees
below a tier that names the parent and is none of the ancestors. -/
def Calls (tiers : List Tier) (inner outer : List String × Option String) : Prop :=
  ∃ tier ∈ childrenOf tiers outer.2, tier.id ∉ outer.1 ∧
    inner = (tier.id :: outer.1, some tier.id)

/-- Descents within descents come to an end: each leaves fewer tiers that are not among the
ancestors. -/
theorem wellFounded_calls (tiers : List Tier) : WellFounded (Calls tiers) := by
  refine Subrelation.wf ?_
    (measure fun call : List String × Option String => tiers.countP (·.id ∉ call.1)).wf
  rintro inner outer ⟨tier, htier, hnew, rfl⟩
  exact countP_notMem_cons_lt tiers (mem_childrenOf.1 htier).1 hnew

/-! ### What the descent answers -/

/-- A descent answers with some trees exactly if they stand for the tiers that name the parent, in
list order, none of them is an ancestor, and the descent below each answers with its children. -/
theorem below_eq_ok_iff : below tiers ancestors parent = .ok trees ↔
    trees.map (·.tier) = childrenOf tiers parent ∧
      ∀ tree ∈ trees, tree.tier.id ∉ ancestors ∧
        below tiers (tree.tier.id :: ancestors) (some tree.tier.id) = .ok tree.children := by
  rw [below_eq]
  refine mapM_eq_ok_iff fun tier tree => ?_
  obtain ⟨top, children⟩ := tree
  simp only [TierTree.tier, TierTree.children]
  by_cases hseen : tier.id ∈ ancestors
  · rw [if_pos hseen]
    refine iff_of_false (by simp) ?_
    rintro ⟨rfl, hnew, -⟩
    exact hnew hseen
  · rw [if_neg hseen]
    cases hbelow : below tiers (tier.id :: ancestors) (some tier.id) with
    | error fault =>
      refine iff_of_false (by simp [Except.map]) ?_
      rintro ⟨rfl, -, hok⟩
      simp [hbelow] at hok
    | ok below =>
      simp only [Except.map, Except.ok.injEq, TierTree.node.injEq]
      constructor
      · rintro ⟨rfl, rfl⟩
        exact ⟨rfl, hseen, hbelow⟩
      · rintro ⟨rfl, -, hok⟩
        exact ⟨rfl, Except.ok.inj (hbelow.symm.trans hok)⟩

theorem forest_eq_ok_iff : forest tiers root = .ok trees ↔
    cyclic? tiers = none ∧ below tiers [] root = .ok trees := by
  unfold forest
  cases cyclic? tiers <;> simp

/-- A descent is refused because of a tier that names the parent: it is an ancestor, or the descent
below it is refused in the same way. -/
theorem exists_of_below_eq_error {fault : Fault}
    (h : below tiers ancestors parent = .error fault) :
    ∃ tier ∈ childrenOf tiers parent,
      (tier.id ∈ ancestors ∧ fault = .cyclicHierarchy tier.id) ∨
        (tier.id ∉ ancestors ∧
          below tiers (tier.id :: ancestors) (some tier.id) = .error fault) := by
  rw [below_eq] at h
  obtain ⟨tier, htier, hrefused⟩ := exists_of_mapM_eq_error h
  refine ⟨tier, htier, ?_⟩
  by_cases hseen : tier.id ∈ ancestors
  · rw [if_pos hseen] at hrefused
    exact Or.inl ⟨hseen, (Except.error.inj hrefused).symm⟩
  · rw [if_neg hseen] at hrefused
    refine Or.inr ⟨hseen, ?_⟩
    cases hbelow : below tiers (tier.id :: ancestors) (some tier.id) with
    | error other =>
      rw [hbelow] at hrefused
      exact congrArg Except.error (Except.error.inj hrefused)
    | ok below =>
      rw [hbelow] at hrefused
      cases hrefused

/-- A descent that answers does so with fewer ancestors as well, and in the same way. -/
theorem below_eq_ok_of_subset {fewer : List String} (hsubset : fewer ⊆ ancestors)
    (h : below tiers ancestors parent = .ok trees) : below tiers fewer parent = .ok trees := by
  -- As the descent itself: fewer and fewer tiers are not among the ancestors.
  induction hn : tiers.countP (fun tier => tier.id ∉ ancestors) using Nat.strong_induction_on
    generalizing ancestors fewer parent trees with
  | _ n ih =>
    obtain ⟨htops, hbelow⟩ := below_eq_ok_iff.1 h
    refine below_eq_ok_iff.2 ⟨htops, fun tree htree => ?_⟩
    obtain ⟨hnew, hchildren⟩ := hbelow tree htree
    have htier : tree.tier ∈ childrenOf tiers parent := htops ▸ List.mem_map_of_mem htree
    refine ⟨fun hmem => hnew (hsubset hmem), ?_⟩
    refine ih _ ?_ (List.cons_subset_cons tree.tier.id hsubset) hchildren rfl
    exact hn ▸ countP_notMem_cons_lt tiers (mem_childrenOf.1 htier).1 hnew

/-- On a way down what a descent answered no id is met twice, and none that is an ancestor; and of
every tree on it the children are what a descent below its tier answers. -/
theorem way_of_below (h : below tiers ancestors parent = .ok trees) (hway : WayDown trees way) :
    (way.map (·.tier.id)).Nodup ∧ ∀ tree ∈ way, tree.tier.id ∉ ancestors ∧
      below tiers [] (some tree.tier.id) = .ok tree.children := by
  induction hway generalizing ancestors parent with
  | @here trees tree htree =>
    obtain ⟨hnew, hchildren⟩ := (below_eq_ok_iff.1 h).2 tree htree
    refine ⟨List.nodup_singleton _, List.forall_mem_singleton.2 ⟨hnew, ?_⟩⟩
    exact below_eq_ok_of_subset (List.nil_subset _) hchildren
  | @down trees way tree htree _ ih =>
    obtain ⟨hnew, hchildren⟩ := (below_eq_ok_iff.1 h).2 tree htree
    obtain ⟨hnodup, hrest⟩ := ih hchildren
    constructor
    · refine List.nodup_cons.2 ⟨fun hmem => ?_, hnodup⟩
      obtain ⟨lower, hlower, hid⟩ := List.mem_map.1 hmem
      exact (hrest lower hlower).1 (hid ▸ List.mem_cons_self)
    · refine List.forall_mem_cons.2 ⟨⟨hnew, ?_⟩, fun lower hlower => ?_⟩
      · exact below_eq_ok_of_subset (List.nil_subset _) hchildren
      · obtain ⟨hfar, hbelow⟩ := hrest lower hlower
        exact ⟨fun hmem => hfar (List.mem_cons_of_mem _ hmem), hbelow⟩

/-- What a descent refuses is an id that is its own ancestor, if the parent leads up to all
ancestors. -/
theorem ownAncestor_of_below {fault : Fault}
    (hancestors : ∀ a ∈ ancestors, ∃ p, parent = some p ∧ ReflTransGen (Names tiers) p a)
    (h : below tiers ancestors parent = .error fault) :
    ∃ id, fault = .cyclicHierarchy id ∧ OwnAncestor tiers id := by
  induction hn : tiers.countP (fun tier => tier.id ∉ ancestors) using Nat.strong_induction_on
    generalizing ancestors parent with
  | _ n ih =>
    obtain ⟨tier, hchild, ⟨hseen, rfl⟩ | ⟨hnew, hbelow⟩⟩ := exists_of_below_eq_error h
    · obtain ⟨htier, hparent⟩ := mem_childrenOf.1 hchild
      obtain ⟨p, rfl, hway⟩ := hancestors tier.id hseen
      exact ⟨tier.id, rfl, TransGen.head' ⟨tier, htier, rfl, hparent⟩ hway⟩
    · have hfewer := hn ▸ countP_notMem_cons_lt tiers (mem_childrenOf.1 hchild).1 hnew
      exact ih _ hfewer (leads_of_mem_childrenOf hancestors hchild) hbelow rfl

theorem ownAncestor_of_forest {fault : Fault} (h : forest tiers root = .error fault) :
    ∃ id, fault = .cyclicHierarchy id ∧ OwnAncestor tiers id := by
  unfold forest at h
  split at h
  next id hcyclic => exact ⟨id, (Except.error.inj h).symm, ownAncestor_of_cyclic? hcyclic⟩
  next => exact ownAncestor_of_below (List.forall_mem_nil _) h

/-! ### The forest of any tiers -/

/-- **The hierarchy is safe on any list of tiers**, whether or not ids are shared. Every climb ends,
and so do descents within descents. If there is a forest below a root, its trees stand for the tiers
that name the root, in list order; on no way down it is an id met twice; and the children of every
tree stand for all tiers that name its tier, in list order, and are the forest below it. If there is
none, the fault names an id that is its own ancestor. -/
theorem forest_of_any_tiers (tiers : List Tier) (root : Option String) :
    (∀ id, Climbs tiers [] id (repeated? tiers id)) ∧ WellFounded (Calls tiers) ∧
    (∀ trees, forest tiers root = .ok trees →
      trees.map (·.tier) = childrenOf tiers root ∧
      ∀ way, WayDown trees way →
        (way.map (·.tier.id)).Nodup ∧
        ∀ tree ∈ way, tree.children.map (·.tier) = childrenOf tiers (some tree.tier.id) ∧
          forest tiers (some tree.tier.id) = .ok tree.children) ∧
    ∀ fault, forest tiers root = .error fault →
      ∃ id, fault = .cyclicHierarchy id ∧ OwnAncestor tiers id := by
  refine ⟨climbs_repeated? tiers, wellFounded_calls tiers, fun trees hforest => ?_,
    fun fault => ownAncestor_of_forest⟩
  obtain ⟨hcyclic, hbelow⟩ := forest_eq_ok_iff.1 hforest
  refine ⟨(below_eq_ok_iff.1 hbelow).1, fun way hway => ?_⟩
  obtain ⟨hnodup, htrees⟩ := way_of_below hbelow hway
  refine ⟨hnodup, fun tree htree => ?_⟩
  obtain ⟨-, hchildren⟩ := htrees tree htree
  exact ⟨(below_eq_ok_iff.1 hchildren).1, forest_eq_ok_iff.2 ⟨hcyclic, hchildren⟩⟩

/-- Two tiers share an id. Where both are roots, the tier that names them hangs below each. Where
the first one hangs below that tier, no climb sees the circle, but the descent from the second
does. -/
theorem forest_of_any_tiers_shared_id :
    let link (id : String) (parent : Option String) : Tier :=
      { id, linguisticType := "text", parent }
    let twins := [link "a" none, link "a" none, link "b" (some "a")]
    let circle := [link "a" (some "b"), link "a" none, link "b" (some "a")]
    (∃ trees, forest twins none = .ok trees ∧
      TierTree.tiersOf trees = [link "a" none, link "b" (some "a"), link "a" none,
        link "b" (some "a")] ∧
      ∀ way, WayDown trees way → (way.map (·.tier.id)).Nodup) ∧
    cyclic? circle = none ∧ forest circle none = .error (.cyclicHierarchy "a") ∧
      OwnAncestor circle "a" := by
  intro link twins circle
  have hleaf (ancestors : List String) : below twins ancestors (some "b") = .ok [] :=
    below_eq_ok_iff.2 ⟨rfl, List.forall_mem_nil _⟩
  have hchild : below twins ["a"] (some "a") = .ok [.node (link "b" (some "a")) []] :=
    below_eq_ok_iff.2 ⟨rfl, List.forall_mem_singleton.2 ⟨by decide, hleaf _⟩⟩
  have hforest : forest twins none =
      .ok [.node (link "a" none) [.node (link "b" (some "a")) []],
        .node (link "a" none) [.node (link "b" (some "a")) []]] :=
    forest_eq_ok_iff.2 ⟨by decide +kernel, below_eq_ok_iff.2 ⟨rfl,
      List.forall_mem_cons.2 ⟨⟨List.not_mem_nil, hchild⟩,
        List.forall_mem_singleton.2 ⟨List.not_mem_nil, hchild⟩⟩⟩⟩
  have hcyclic : cyclic? circle = none := by decide +kernel
  have hmet : below circle ["b", "a"] (some "b") = .error (.cyclicHierarchy "a") := by
    rw [below_eq]
    rfl
  have hlower : below circle ["a"] (some "a") = .error (.cyclicHierarchy "a") := by
    rw [below_eq]
    change [link "b" (some "a")].mapM _ = _
    rw [List.mapM_cons, if_neg (by decide)]
    change (Except.map _ (below circle ["b", "a"] (some "b")) >>= _) = _
    rw [hmet]
    rfl
  have hrefused : forest circle none = .error (.cyclicHierarchy "a") := by
    rw [forest, hcyclic]
    change below circle [] none = _
    rw [below_eq]
    change [link "a" none].mapM _ = _
    rw [List.mapM_cons, if_neg List.not_mem_nil]
    change (Except.map _ (below circle ["a"] (some "a")) >>= _) = _
    rw [hlower]
    rfl
  obtain ⟨id, hid, hown⟩ := (forest_of_any_tiers circle none).2.2.2 _ hrefused
  obtain rfl := Fault.cyclicHierarchy.inj hid
  refine ⟨⟨_, hforest, rfl, fun way hway => ?_⟩, hcyclic, hrefused, hown⟩
  exact (((forest_of_any_tiers twins none).2.2.1 _ hforest).2 way hway).1

end Hierarchy

end Eaf

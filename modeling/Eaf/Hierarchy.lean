import Eaf.Document.Lookup

/-!
# The tier hierarchy

Tiers name their parents; read downwards, these links make a forest. A list of tiers in which some
tier is its own ancestor has no forest. Tiers whose parent does not exist hang below no root and
are left out.

## Main definitions

* `Eaf.TierTree` — a tier with the trees of the tiers that name it as their parent.
* `Eaf.Hierarchy.parentOf?`, `Eaf.Hierarchy.repeated?` — climbing from a tier to its ancestors.
* `Eaf.Hierarchy.below` — the trees that hang below a parent.
* `Eaf.Hierarchy.forest` — the trees below a parent, unless some tier is its own ancestor.

## Main results

* `Eaf.Hierarchy.below_eq` — the trees below a parent are those of the tiers that name it.
-/

namespace Eaf

/-- A tier with the trees of the tiers that name it as their parent. -/
inductive TierTree
  | node (tier : Tier) (children : List TierTree)
  deriving Repr

namespace TierTree

/-- The tier at the top of a tree. -/
def tier : TierTree → Tier
  | node tier _ => tier

/-- The trees below the top of a tree. -/
def children : TierTree → List TierTree
  | node _ children => children

mutual

/-- The number of tiers of a tree. -/
def size : TierTree → Nat
  | node _ children => 1 + totalSize children

/-- The number of tiers of a list of trees. -/
def totalSize : List TierTree → Nat
  | [] => 0
  | tree :: trees => tree.size + totalSize trees

end

mutual

/-- The trees within a tree, from the top down, each with its depth. -/
def levels (depth : Nat) : TierTree → List (Nat × TierTree)
  | node tier children => (depth, node tier children) :: levelsOf (depth + 1) children

/-- The trees within a list of trees, from the top down, each with its depth. -/
def levelsOf (depth : Nat) : List TierTree → List (Nat × TierTree)
  | [] => []
  | tree :: trees => tree.levels depth ++ levelsOf depth trees

end

/-- The tier at the top of a tree in a line that is indented to its depth. -/
def line (depth : Nat) (tree : TierTree) : String :=
  String.ofList (List.replicate (2 * depth) ' ') ++
    s!"{tree.tier.id} [{tree.tier.linguisticType}] ({tree.tier.notes.length} annotations)"

end TierTree

namespace Hierarchy

variable (tiers : List Tier)

/-! ### Climbing -/

/-- The parent that the last tier with a given id names. -/
def parentOf? (id : String) : Option String :=
  (tiers.reverse.find? (·.id == id)).bind (·.parent)

/-- The first id that is met again on the way up from `id`, if one is met within `steps` steps;
the ids in `visited` were met before. -/
def repeatedWithin? : (steps : Nat) → (visited : List String) → (id : String) → Option String
  | 0, _, _ => none
  | steps + 1, visited, id =>
    if visited.contains id then some id
    else
      match parentOf? tiers id with
      | none => none
      | some parent => repeatedWithin? steps (id :: visited) parent

/-- The first id that is met again on the way up from `id`. The way has at most one id that is no
tier's, and all others before a repetition are ids of different tiers. -/
def repeated? (id : String) : Option String :=
  repeatedWithin? tiers (tiers.length + 1) [] id

/-- An id that is its own ancestor: the first one found on the ways up from the tiers in order. -/
def cyclic? : Option String :=
  tiers.findSome? fun tier => repeated? tiers tier.id

/-! ### Descending -/

/-- The tiers that name a given parent, or no parent. -/
def childrenOf (parent : Option String) : List Tier :=
  tiers.filter fun tier => tier.parent == parent

/-- Of the tiers whose id is not among the ancestors, one is lost when it joins them. -/
theorem countP_notMem_cons_lt {ancestors : List String} {tier : Tier} (hmem : tier ∈ tiers)
    (hnot : tier.id ∉ ancestors) :
    tiers.countP (fun t => t.id ∉ tier.id :: ancestors) <
      tiers.countP (fun t => t.id ∉ ancestors) := by
  induction tiers with
  | nil => simp at hmem
  | cons t ts ih =>
    have hle : ts.countP (fun t => t.id ∉ tier.id :: ancestors) ≤
        ts.countP (fun t => t.id ∉ ancestors) := by
      refine List.countP_mono_left fun x _ => ?_
      simp only [List.mem_cons, not_or, decide_eq_true_eq]
      exact fun h => h.2
    rw [List.countP_cons, List.countP_cons]
    rcases List.mem_cons.1 hmem with rfl | hmem
    · rw [if_neg (by simp), if_pos (by simpa using hnot)]
      omega
    · have := ih hmem
      by_cases h : t.id ∈ tier.id :: ancestors
      · rw [if_neg (by rw [decide_eq_true_eq]; exact fun hn => hn h)]
        split <;> omega
      · have h' : t.id ∉ ancestors := fun hm => h (List.mem_cons_of_mem _ hm)
        rw [if_pos (by simpa using h), if_pos (by simpa using h')]
        omega

/-- The trees that hang below a parent. The ids of the tiers above them are `ancestors`; a tier
that is met below a tier of its own id is its own ancestor. -/
def below (ancestors : List String) (parent : Option String) : Except Fault (List TierTree) :=
  (childrenOf tiers parent).attach.mapM fun ⟨tier, _hmem⟩ =>
    if _hseen : tier.id ∈ ancestors then
      .error (.cyclicHierarchy tier.id)
    else
      (below (tier.id :: ancestors) (some tier.id)).map (.node tier)
termination_by tiers.countP fun tier => tier.id ∉ ancestors
decreasing_by
  exact countP_notMem_cons_lt tiers (List.mem_filter.1 _hmem).1 _hseen

/-- The trees below a parent are those of the tiers that name it, in list order. -/
theorem below_eq (ancestors : List String) (parent : Option String) :
    below tiers ancestors parent =
      (childrenOf tiers parent).mapM fun tier =>
        if tier.id ∈ ancestors then
          .error (.cyclicHierarchy tier.id)
        else
          (below tiers (tier.id :: ancestors) (some tier.id)).map (.node tier) := by
  rw [below]
  simp only [dite_eq_ite]
  exact (List.mapM_subtype fun _ _ => rfl).trans (by rw [List.unattach_attach])

/-- The forest of the tiers that hang below a parent, or below no parent, unless some tier of the
list is its own ancestor. -/
def forest (root : Option String) : Except Fault (List TierTree) :=
  match cyclic? tiers with
  | some id => .error (.cyclicHierarchy id)
  | none => below tiers [] root

end Hierarchy

/-- The forest of the tiers of a document. -/
def Document.forest (document : Document) : Except Fault (List TierTree) :=
  Hierarchy.forest document.tiers none

/-- The number of tiers of a document that a forest leaves out. -/
def Document.tiersOutside (document : Document) (forest : List TierTree) : Nat :=
  document.tiers.length - TierTree.totalSize forest

end Eaf

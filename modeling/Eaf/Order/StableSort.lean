/-!
# Stable sorting

Sorting by insertion. Elements that the order does not tell apart keep the order in which they
stood, which is what lists of slots and annotations are shown in.

## Main definitions

* `Eaf.StableSort.insert` — an element put before the first one that it may precede.
* `Eaf.StableSort.sort` — a list sorted by insertion.
* `Eaf.distinctBy` — a list without the elements whose key stood before.

## Main results

* `Eaf.StableSort.sort_perm` — sorting loses and adds nothing.
* `Eaf.StableSort.sort_map` — sorting looks at elements through the order alone.
* `Eaf.StableSort.pairwise_sort` — the result is in order.
* `Eaf.StableSort.pairwise_sort_stable` — what the order does not tell apart keeps its places.
-/

namespace Eaf

namespace StableSort

variable {α : Type} (le : α → α → Bool)

/-- A list with an element put before the first one that it may precede. -/
def insert (x : α) : List α → List α
  | [] => [x]
  | y :: ys => if le x y then x :: y :: ys else y :: insert x ys

/-- A list in the given order; elements that the order does not tell apart keep their places. -/
def sort (xs : List α) : List α :=
  xs.foldr (insert le) []

theorem insert_perm (x : α) (ys : List α) : (insert le x ys).Perm (x :: ys) := by
  induction ys with
  | nil => exact .refl _
  | cons y ys ih =>
    unfold insert
    split
    · exact .refl _
    · exact (ih.cons y).trans (.swap x y ys)

theorem sort_perm (xs : List α) : (sort le xs).Perm xs := by
  induction xs with
  | nil => exact .refl _
  | cons x xs ih => exact (insert_perm le x _).trans (ih.cons x)

theorem mem_sort {x : α} {xs : List α} : x ∈ sort le xs ↔ x ∈ xs :=
  (sort_perm le xs).mem_iff

theorem length_sort (xs : List α) : (sort le xs).length = xs.length :=
  (sort_perm le xs).length_eq

/-- Sorting looks at elements through the order alone: it does not matter whether they are replaced
before it or afterwards. -/
theorem sort_map {β : Type} (f : β → α) (xs : List β) :
    sort le (xs.map f) = (sort (fun a b => le (f a) (f b)) xs).map f := by
  have hinsert (x : β) (ys : List β) :
      insert le (f x) (ys.map f) = (insert (fun a b => le (f a) (f b)) x ys).map f := by
    induction ys with
    | nil => rfl
    | cons y ys ih =>
      simp only [List.map_cons, insert]
      split
      · rfl
      · rw [ih, List.map_cons]
  induction xs with
  | nil => rfl
  | cons x xs ih =>
    calc sort le ((x :: xs).map f)
      _ = insert le (f x) (sort le (xs.map f)) := rfl
      _ = insert le (f x) ((sort (fun a b => le (f a) (f b)) xs).map f) := by rw [ih]
      _ = (sort (fun a b => le (f a) (f b)) (x :: xs)).map f := hinsert x _

variable {le}

/-- An element that stood before the others of a list in order is put before those from which the
order does not tell it apart. -/
theorem pairwise_insert (total : ∀ a b, le a b || le b a)
    (trans : ∀ a b c, le a b → le b c → le a c) {earlier : α → α → Prop} {x : α} {ys : List α}
    (hx : ∀ y ∈ ys, earlier x y) (h : ys.Pairwise fun a b => le a b ∧ (le b a → earlier a b)) :
    (insert le x ys).Pairwise fun a b => le a b ∧ (le b a → earlier a b) := by
  induction ys with
  | nil => simp [insert]
  | cons y ys ih =>
    obtain ⟨hy, hys⟩ := List.pairwise_cons.1 h
    unfold insert
    split
    next hxy =>
      refine List.pairwise_cons.2 ⟨fun z hz => ⟨?_, fun _ => hx z hz⟩, h⟩
      rcases List.mem_cons.1 hz with rfl | hz
      · exact hxy
      · exact trans _ _ _ hxy (hy z hz).1
    next hxy =>
      obtain ⟨-, hxys⟩ := List.forall_mem_cons.1 hx
      refine List.pairwise_cons.2 ⟨fun z hz => ?_, ih hxys hys⟩
      rcases List.mem_cons.1 ((insert_perm le x ys).mem_iff.1 hz) with rfl | hz
      · exact ⟨by simpa [hxy] using total z y, fun hzy => absurd hzy hxy⟩
      · exact hy z hz

/-- Sorting by a total and transitive order is stable: the result is in that order, and elements
that the order does not tell apart stand as they stood. -/
theorem pairwise_sort_stable (total : ∀ a b, le a b || le b a)
    (trans : ∀ a b c, le a b → le b c → le a c) {earlier : α → α → Prop} {xs : List α}
    (h : xs.Pairwise earlier) :
    (sort le xs).Pairwise fun a b => le a b ∧ (le b a → earlier a b) := by
  induction xs with
  | nil => exact .nil
  | cons x xs ih =>
    obtain ⟨hx, hxs⟩ := List.pairwise_cons.1 h
    exact pairwise_insert total trans (fun y hy => hx y ((mem_sort le).1 hy)) (ih hxs)

/-- A list sorted by a total and transitive order is in that order. -/
theorem pairwise_sort (total : ∀ a b, le a b || le b a)
    (trans : ∀ a b c, le a b → le b c → le a c) (xs : List α) :
    (sort le xs).Pairwise (le · ·) := by
  have hany : xs.Pairwise fun _ _ => True := List.pairwise_of_forall fun _ _ => trivial
  exact (pairwise_sort_stable total trans hany).imp And.left

end StableSort

section Distinct

variable {α κ : Type} [BEq κ] (key : α → κ)

/-- The elements whose key is not among the given ones and did not stand before. -/
def distinctAfter (seen : List κ) : List α → List α
  | [] => []
  | x :: xs =>
    if seen.contains (key x) then distinctAfter seen xs
    else x :: distinctAfter (key x :: seen) xs

/-- The elements whose key did not stand before. -/
def distinctBy (xs : List α) : List α :=
  distinctAfter key [] xs

end Distinct

end Eaf

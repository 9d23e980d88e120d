/-!
# The order of a dictionary

## Main definitions

* `Eaf.dictionaryLe` — whether a list of numbers stands before another one in a dictionary, or is
  the same.
-/

namespace Eaf

/-- Whether a list of numbers stands before another one in a dictionary, or is the same. The first
place in which two lists differ decides, and a list stands before those that it begins. -/
def dictionaryLe : List Nat → List Nat → Bool
  | [], _ => true
  | _ :: _, [] => false
  | x :: xs, y :: ys => x < y || (x == y && dictionaryLe xs ys)

theorem dictionaryLe_refl (xs : List Nat) : dictionaryLe xs xs = true := by
  induction xs with
  | nil => rfl
  | cons x xs ih => simp [dictionaryLe, ih]

theorem dictionaryLe_total (xs ys : List Nat) : dictionaryLe xs ys || dictionaryLe ys xs := by
  induction xs generalizing ys with
  | nil => simp [dictionaryLe]
  | cons x xs ih =>
    cases ys with
    | nil => simp [dictionaryLe]
    | cons y ys =>
      have := ih ys
      rcases Nat.lt_trichotomy x y with h | rfl | h
      · simp [dictionaryLe, h]
      · simpa [dictionaryLe] using this
      · simp [dictionaryLe, h]

theorem dictionaryLe_trans {xs ys zs : List Nat} (hxy : dictionaryLe xs ys = true)
    (hyz : dictionaryLe ys zs = true) : dictionaryLe xs zs = true := by
  induction xs generalizing ys zs with
  | nil => rfl
  | cons x xs ih =>
    cases ys with
    | nil => simp [dictionaryLe] at hxy
    | cons y ys =>
      cases zs with
      | nil => simp [dictionaryLe] at hyz
      | cons z zs =>
        simp only [dictionaryLe, Bool.or_eq_true, decide_eq_true_eq, Bool.and_eq_true,
          beq_iff_eq] at hxy hyz ⊢
        rcases hxy with hxy | ⟨rfl, hxy⟩
        · rcases hyz with hyz | ⟨rfl, -⟩
          · exact .inl (Nat.lt_trans hxy hyz)
          · exact .inl hxy
        · rcases hyz with hyz | ⟨rfl, hyz⟩
          · exact .inl hyz
          · exact .inr ⟨rfl, ih hxy hyz⟩

end Eaf

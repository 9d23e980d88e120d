/-!
# Scanning a text from its front

Small scanners over lists of characters. Each returns what follows in the text, and its lemmas
say how the text is put together from the part that was read and the part that is left.

## Main definitions

* `Eaf.Text.after?` — what follows a fixed opening.
* `Eaf.Text.splitAt?` — the parts of a text before and after the first occurrence of a mark.

## Main results

* `Eaf.Text.after?_eq_some_iff`, `Eaf.Text.eq_of_splitAt?` — nothing is lost.
-/

namespace Eaf.Text

/-- What follows a fixed opening, if the text begins with it. -/
def after? : List Char → List Char → Option (List Char)
  | [], cs => some cs
  | _ :: _, [] => none
  | o :: os, c :: cs => if o = c then after? os cs else none

theorem after?_eq_some_iff {opening cs rest : List Char} :
    after? opening cs = some rest ↔ cs = opening ++ rest := by
  induction opening generalizing cs with
  | nil => simp [after?]
  | cons o os ih =>
    cases cs with
    | nil => simp [after?]
    | cons c cs =>
      by_cases h : o = c
      · simp [after?, h, ih]
      · simp [after?, h, Ne.symm h]

@[simp] theorem after?_append (opening rest : List Char) :
    after? opening (opening ++ rest) = some rest :=
  after?_eq_some_iff.2 rfl

/-- The parts of a text before and after the first occurrence of a mark. -/
def splitAt? (mark : List Char) : List Char → Option (List Char × List Char)
  | [] => (after? mark []).map ([], ·)
  | c :: cs =>
    match after? mark (c :: cs) with
    | some rest => some ([], rest)
    | none => (splitAt? mark cs).map fun (before, rest) => (c :: before, rest)

theorem eq_of_splitAt? {mark cs before rest : List Char}
    (h : splitAt? mark cs = some (before, rest)) : cs = before ++ mark ++ rest := by
  induction cs generalizing before with
  | nil =>
    simp only [splitAt?, Option.map_eq_some_iff, Prod.mk.injEq] at h
    obtain ⟨_, h, rfl, rfl⟩ := h
    simpa using after?_eq_some_iff.1 h
  | cons c cs ih =>
    simp only [splitAt?] at h
    split at h
    next h' =>
      obtain ⟨rfl, rfl⟩ := Prod.mk.inj (Option.some.inj h)
      simpa using after?_eq_some_iff.1 h'
    next =>
      simp only [Option.map_eq_some_iff, Prod.exists, Prod.mk.injEq] at h
      obtain ⟨_, _, h, rfl, rfl⟩ := h
      simp [ih h]

theorem length_dropWhile_le {α : Type} (p : α → Bool) (xs : List α) :
    (xs.dropWhile p).length ≤ xs.length :=
  (List.dropWhile_sublist p).length_le

end Eaf.Text

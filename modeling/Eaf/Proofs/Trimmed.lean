import Eaf.Text.Blank

/-!
# Trimmed texts

A text is trimmed when no blank stands at either end. These are the texts that trimming leaves
alone, and trimming yields no others.

## Main definitions

* `Eaf.Text.Trimmed` — texts without a blank at either end.

## Main results

* `Eaf.Text.trim_eq_self_iff` — trimming leaves exactly the trimmed texts alone.
* `Eaf.Text.trimmed_trim` — trimming yields a trimmed text.
* `Eaf.Text.exists_eq_trim` — trimming takes nothing but blanks away.
-/

namespace Eaf.Text

/-- No blank stands at either end of a text. -/
def Trimmed (cs : List Char) : Prop :=
  (∀ c ∈ cs.head?, isBlank c = false) ∧ ∀ c ∈ cs.getLast?, isBlank c = false

instance (cs : List Char) : Decidable (Trimmed cs) :=
  @instDecidableAnd _ _ (Option.decidableForallMem _) (Option.decidableForallMem _)

variable {cs : List Char}

theorem head?_dropWhile_blank {c : Char} (h : (cs.dropWhile isBlank).head? = some c) :
    isBlank c = false := by
  have hnot := List.head?_dropWhile_not isBlank cs
  rw [h] at hnot
  simpa using hnot

theorem dropWhile_blank_eq_self (h : ∀ c ∈ cs.head?, isBlank c = false) :
    cs.dropWhile isBlank = cs := by
  cases cs with
  | nil => rfl
  | cons c cs => exact List.dropWhile_cons_of_neg (by simp [h c rfl])

/-- Blanks at the end are all that is taken away there. -/
theorem exists_eq_trimEnd (cs : List Char) :
    ∃ back, cs = trimEnd cs ++ back ∧ ∀ c ∈ back, isBlank c = true := by
  refine ⟨(cs.reverse.takeWhile isBlank).reverse, ?_, fun c hc => ?_⟩
  · rw [trimEnd, ← List.reverse_append, List.takeWhile_append_dropWhile, List.reverse_reverse]
  · exact List.all_eq_true.1 List.all_takeWhile c (List.mem_reverse.1 hc)

theorem getLast?_trimEnd {c : Char} (h : (trimEnd cs).getLast? = some c) : isBlank c = false := by
  rw [trimEnd, List.getLast?_reverse] at h
  exact head?_dropWhile_blank h

theorem trimEnd_eq_self (h : ∀ c ∈ cs.getLast?, isBlank c = false) : trimEnd cs = cs := by
  rw [← List.head?_reverse] at h
  rw [trimEnd, dropWhile_blank_eq_self h, List.reverse_reverse]

/-- Trimming takes nothing but blanks away. -/
theorem exists_eq_trim (cs : List Char) :
    ∃ front back, cs = front ++ trim cs ++ back ∧ (∀ c ∈ front, isBlank c = true) ∧
      ∀ c ∈ back, isBlank c = true := by
  obtain ⟨back, heq, hback⟩ := exists_eq_trimEnd (cs.dropWhile isBlank)
  refine ⟨cs.takeWhile isBlank, back, ?_, fun c hc => ?_, hback⟩
  · rw [trim, List.append_assoc, ← heq, List.takeWhile_append_dropWhile]
  · exact List.all_eq_true.1 List.all_takeWhile c hc

theorem mem_of_mem_trim {c : Char} (h : c ∈ trim cs) : c ∈ cs := by
  obtain ⟨front, back, heq, -, -⟩ := exists_eq_trim cs
  rw [heq]
  simp [h]

theorem trimmed_trim (cs : List Char) : Trimmed (trim cs) := by
  refine ⟨fun c hc => ?_, fun c hc => getLast?_trimEnd hc⟩
  obtain ⟨back, heq, -⟩ := exists_eq_trimEnd (cs.dropWhile isBlank)
  have hhead : (cs.dropWhile isBlank).head? = some c := by
    rw [heq, ← trim, List.head?_append, Option.mem_def.1 hc, Option.some_or]
  exact head?_dropWhile_blank hhead

/-- Trimming leaves exactly the trimmed texts alone. -/
theorem trim_eq_self_iff : trim cs = cs ↔ Trimmed cs := by
  constructor
  · intro heq
    rw [← heq]
    exact trimmed_trim cs
  · rintro ⟨hhead, hlast⟩
    rw [trim, dropWhile_blank_eq_self hhead, trimEnd_eq_self hlast]

/-- A text without blanks is trimmed. -/
theorem trim_eq_self (h : ∀ c ∈ cs, isBlank c = false) : trim cs = cs :=
  trim_eq_self_iff.2
    ⟨fun c hc => h c (List.mem_of_mem_head? hc), fun c hc => h c (List.mem_of_mem_getLast? hc)⟩

end Eaf.Text

import Mathlib.Data.Finset.Card
import Mathlib.Tactic.Choose
import Mathlib.Tactic.WLOG
import Eaf.Proofs.Chain
import Eaf.Reference.Report

/-!
# Circles of references

A chain of references either ends or goes on for ever. A document is finite, so that a chain with
more links than there are annotations comes twice to one annotation, and from there runs in a
circle. For the same reason a circle need not be longer than the document, and the bounded walk of
the report finds every one.

## Main results

* `Eaf.Document.Follows.exists_repeat` — a long chain comes to some id twice.
* `Eaf.Document.onCycle_iff` — an id is on a circle exactly if a chain leads from it back to it.
* `Eaf.Document.exists_end_or_circle` — a chain ends or runs into a circle.
-/

namespace Eaf.Document

variable {document : Document} {links more : Nat} {id middle last other : String}

/-! ### Chains one after the other -/

theorem Follows.single (h : document.next? id = some last) : document.Follows 1 id last :=
  .link h (.here last)

theorem Follows.trans (h : document.Follows links id middle)
    (hmore : document.Follows more middle last) : document.Follows (links + more) id last := by
  induction h with
  | here => rwa [Nat.zero_add]
  | @link links id target _ hnext _ ih =>
    rw [Nat.add_right_comm]
    exact .link hnext (ih hmore)

/-- A number of links leads from an id to at most one other. -/
theorem Follows.unique (h : document.Follows links id last)
    (hother : document.Follows links id other) : last = other := by
  induction h with
  | here =>
    cases hother
    rfl
  | link hnext _ ih =>
    obtain _ | ⟨hnext', hrest'⟩ := hother
    obtain rfl := Option.some.inj (hnext.symm.trans hnext')
    exact ih hrest'

/-- A chain can be cut after any number of its links. -/
theorem Follows.exists_middle (h : document.Follows links id last) {first : Nat}
    (hfirst : first ≤ links) :
    ∃ middle, document.Follows first id middle ∧ document.Follows (links - first) middle last := by
  induction h generalizing first with
  | here id =>
    obtain rfl := Nat.le_zero.1 hfirst
    exact ⟨id, .here id, .here id⟩
  | @link links id target last hnext hrest ih =>
    cases first with
    | zero => exact ⟨id, .here id, .link hnext hrest⟩
    | succ first =>
      obtain ⟨middle, hbefore, hbehind⟩ := ih (Nat.le_of_succ_le_succ hfirst)
      refine ⟨middle, .link hnext hbefore, ?_⟩
      rwa [Nat.add_sub_add_right]

/-- From where a chain goes on there is an annotation. -/
theorem Follows.mem_ids (h : document.Follows links id last) (hlinks : 0 < links) :
    id ∈ document.notes.map (·.id) := by
  cases h with
  | here => exact absurd hlinks (Nat.lt_irrefl 0)
  | link hnext _ =>
    obtain ⟨note, hnote, -⟩ := Option.bind_eq_some_iff.1 hnext
    obtain ⟨hmem, rfl⟩ := note?_eq_some hnote
    exact List.mem_map_of_mem hmem

/-! ### Long chains -/

/-- A chain with more links than the document has annotations comes to some id twice. -/
theorem Follows.exists_repeat (h : document.Follows links id last)
    (hlong : document.notes.length < links) :
    ∃ i j middle, i < j ∧ j < links ∧ document.Follows i id middle ∧
      document.Follows (j - i) middle middle ∧ document.Follows (links - j) middle last := by
  have hvertex (i : Nat) (hi : i < links) :
      ∃ middle, document.Follows i id middle ∧ document.Follows (links - i) middle last :=
    h.exists_middle (Nat.le_of_lt hi)
  choose! vertex hbefore hbehind using hvertex
  have hmaps : ∀ i ∈ Finset.range links, vertex i ∈ (document.notes.map (·.id)).toFinset := by
    intro i hi
    have hlt := Finset.mem_range.1 hi
    exact List.mem_toFinset.2 ((hbehind i hlt).mem_ids (Nat.sub_pos_of_lt hlt))
  have hcard : (document.notes.map (·.id)).toFinset.card < (Finset.range links).card := by
    have hle := List.toFinset_card_le (document.notes.map (·.id))
    rw [List.length_map] at hle
    rw [Finset.card_range]
    exact Nat.lt_of_le_of_lt hle hlong
  obtain ⟨i, hi, j, hj, hne, heq⟩ := Finset.exists_ne_map_eq_of_card_lt_of_maps_to hcard hmaps
  rw [Finset.mem_range] at hi hj
  wlog hij : i < j generalizing i j
  · exact this j hj i hi hne.symm heq.symm (by omega)
  refine ⟨i, j, vertex i, hij, hj, hbefore i hi, ?_, heq ▸ hbehind j hj⟩
  -- The vertex that is met again is the one that lies between the two meetings.
  have hle : j - i ≤ links - i := by omega
  obtain ⟨middle, hloop, -⟩ := (hbehind i hi).exists_middle hle
  have hj' := (hbefore i hi).trans hloop
  rw [Nat.add_sub_cancel' (Nat.le_of_lt hij)] at hj'
  rw [hj'.unique (hbefore j hj), ← heq] at hloop
  exact hloop

/-- Where a chain leads, one leads with no more links than the document has annotations. -/
theorem Follows.exists_short (h : document.Follows links id last) (hlinks : 0 < links) :
    ∃ short, 0 < short ∧ short ≤ document.notes.length ∧ document.Follows short id last := by
  induction links using Nat.strong_induction_on with
  | _ links ih =>
    rcases Nat.lt_or_ge document.notes.length links with hlong | hshort
    · obtain ⟨i, j, middle, hij, hj, hbefore, -, hbehind⟩ := h.exists_repeat hlong
      exact ih (i + (links - j)) (by omega) (hbefore.trans hbehind) (by omega)
    · exact ⟨links, hlinks, hshort, h⟩

/-! ### Circles -/

/-- A bounded walk comes to its goal exactly if a chain within the bound leads there. -/
theorem leadsTo_iff {bound : Nat} {goal : String} :
    document.leadsTo goal bound id = true ↔
      ∃ links, 0 < links ∧ links ≤ bound ∧ document.Follows links id goal := by
  induction bound generalizing id with
  | zero =>
    simp only [leadsTo, Bool.false_eq_true, false_iff, not_exists]
    rintro links ⟨hpos, hle, -⟩
    omega
  | succ bound ih =>
    cases hnext : document.next? id with
    | none =>
      have hwalk : document.leadsTo goal (bound + 1) id = false := by
        rw [leadsTo, ← next?, hnext]
      rw [hwalk]
      simp only [Bool.false_eq_true, false_iff, not_exists]
      rintro links ⟨hpos, -, hfollows⟩
      cases hfollows with
      | here => exact absurd hpos (Nat.lt_irrefl 0)
      | link hnext' _ => simp [hnext] at hnext'
    | some target =>
      have hwalk : document.leadsTo goal (bound + 1) id =
          (target == goal || document.leadsTo goal bound target) := by
        rw [leadsTo, ← next?, hnext]
      rw [hwalk, Bool.or_eq_true, beq_iff_eq, ih]
      constructor
      · rintro (rfl | ⟨links, -, hle, hfollows⟩)
        · exact ⟨1, Nat.one_pos, Nat.succ_le_succ (Nat.zero_le bound), .single hnext⟩
        · exact ⟨links + 1, Nat.succ_pos links, Nat.succ_le_succ hle, .link hnext hfollows⟩
      · rintro ⟨links, hpos, hle, hfollows⟩
        cases hfollows with
        | here => exact absurd hpos (Nat.lt_irrefl 0)
        | @link links _ _ _ hnext' hrest =>
          obtain rfl := Option.some.inj (hnext.symm.trans hnext')
          cases hrest with
          | here => exact Or.inl rfl
          | link hnext'' hrest' =>
            exact Or.inr ⟨_, Nat.succ_pos _, Nat.le_of_succ_le_succ hle, .link hnext'' hrest'⟩

/-- An id is on a circle exactly if a chain of any length leads from it back to it. -/
theorem onCycle_iff :
    document.onCycle id = true ↔ ∃ links, 0 < links ∧ document.Follows links id id := by
  rw [onCycle, leadsTo_iff]
  constructor
  · rintro ⟨links, hpos, -, hfollows⟩
    exact ⟨links, hpos, hfollows⟩
  · rintro ⟨links, hpos, hfollows⟩
    exact hfollows.exists_short hpos

/-- A chain that ends does not begin on a circle. -/
theorem Follows.onCycle_eq_false (h : document.Follows links id last)
    (hend : document.next? last = none) : document.onCycle id = false := by
  rw [← Bool.not_eq_true, onCycle_iff]
  rintro ⟨more, hpos, hloop⟩
  have hsame := ((hloop.trans h).end_unique h hend hend).1
  omega

/-- A chain has any number of links, or it ends. -/
theorem exists_end_or_follows (document : Document) (id : String) (links : Nat) :
    (∃ before last, document.Follows before id last ∧ document.next? last = none) ∨
      ∃ last, document.Follows links id last := by
  induction links with
  | zero => exact Or.inr ⟨id, .here id⟩
  | succ links ih =>
    rcases ih with hend | ⟨last, hfollows⟩
    · exact Or.inl hend
    · cases hnext : document.next? last with
      | none => exact Or.inl ⟨links, last, hfollows, hnext⟩
      | some target => exact Or.inr ⟨target, hfollows.trans (.single hnext)⟩

/-- A chain ends, or it runs into a circle. -/
theorem exists_end_or_circle (document : Document) (id : String) :
    (∃ links last, document.Follows links id last ∧ document.next? last = none) ∨
      ∃ links last, document.Follows links id last ∧ document.onCycle last = true := by
  rcases document.exists_end_or_follows id (document.notes.length + 1) with hend | ⟨last, hfollows⟩
  · exact Or.inl hend
  · obtain ⟨i, j, middle, hij, -, hbefore, hloop, -⟩ :=
      hfollows.exists_repeat (Nat.lt_succ_self _)
    exact Or.inr ⟨i, middle, hbefore, onCycle_iff.2 ⟨j - i, Nat.sub_pos_of_lt hij, hloop⟩⟩

end Eaf.Document

import Eaf.Proofs.Reread

/-!
# The values of annotations

A value reads back as it is written if no blank stands at either of its ends and every carriage
return in it stands before a markup character: such a character is written as a reference, and a
carriage return before a reference ends no line. Every value that was written and read again is of
this kind, once its soft hyphens are gone.

## Main definitions

* `Eaf.guarded` — texts whose carriage returns stand before markup characters.
* `Eaf.ReadsBack` — values that read back as they are written.
* `Eaf.ReadValue` — values that were read.

## Main results

* `Eaf.ReadsBack.normalValue_rereadText` — such a value reads as itself.
* `Eaf.readsBack_normalValue` — a value that was read again is such a value.
* `Eaf.readValue_normalValue` — a value that is read from an allowed text is one that was read.
-/

namespace Eaf

open Xml (Allowed isMarkup settleLines Datum rereadText)

/-- Whether every carriage return of a text stands before a markup character. -/
def guarded : List Char → Bool
  | [] => true
  | c :: cs => (c != '\r' || cs.head?.any isMarkup) && guarded cs

/-- A value of an annotation that reads back as it is written. -/
def ReadsBack (value : String) : Prop :=
  Text.Trimmed value.toList ∧ guarded value.toList = true

instance (value : String) : Decidable (ReadsBack value) :=
  inferInstanceAs (Decidable (_ ∧ _))

variable {c : Char} {cs rest : List Char}

theorem guarded_cons (h : c ≠ '\r') : guarded (c :: cs) = guarded cs := by
  simp [guarded, h]

theorem guarded_of_not_mem (h : ∀ c ∈ cs, c ≠ '\r') : guarded cs = true := by
  induction cs with
  | nil => rfl
  | cons c cs ih =>
    obtain ⟨hc, hcs⟩ := List.forall_mem_cons.1 h
    rw [guarded_cons hc, ih hcs]

/-! ### Guarded texts -/

/-- The settled lines of a text that begins with a markup character begin with it. -/
theorem settleLines_markup (h : isMarkup c = true) (afterReference : Bool) :
    settleLines afterReference ((c :: cs).map Datum.written) =
      c :: settleLines true (cs.map Datum.written) := by
  rw [List.map_cons, Xml.settleLines.eq_def]
  simp [Datum.written, h]

/-- A character that is neither markup nor a carriage return is left alone. -/
theorem settleLines_plain (hmarkup : isMarkup c = false) (hreturn : c ≠ '\r')
    (afterReference : Bool) :
    settleLines afterReference ((c :: cs).map Datum.written) =
      c :: settleLines false (cs.map Datum.written) := by
  rw [List.map_cons, Xml.settleLines.eq_def]
  simp [Datum.written, hmarkup, hreturn]

/-- A carriage return before a markup character is left alone. -/
theorem settleLines_return_markup {d : Char} (h : isMarkup d = true) (afterReference : Bool) :
    settleLines afterReference (('\r' :: d :: cs).map Datum.written) =
      '\r' :: settleLines false ((d :: cs).map Datum.written) := by
  have hreturn : isMarkup '\r' = false := by decide
  rw [List.map_cons, List.map_cons, Xml.settleLines.eq_def]
  simp [Datum.written, h, hreturn]

/-- A carriage return before another character is a line feed, or part of the one that follows. -/
theorem settleLines_return_plain {d : Char} (h : isMarkup d = false) (afterReference : Bool) :
    settleLines afterReference (('\r' :: d :: cs).map Datum.written) =
      if d = '\n' then settleLines false ((d :: cs).map Datum.written)
      else '\n' :: settleLines false ((d :: cs).map Datum.written) := by
  have hreturn : isMarkup '\r' = false := by decide
  rw [List.map_cons, List.map_cons, Xml.settleLines.eq_def]
  simp [Datum.written, h, hreturn]

/-- The lines of a guarded text are settled. -/
theorem settleLines_of_guarded (h : guarded cs = true) (afterReference : Bool) :
    settleLines afterReference (cs.map Datum.written) = cs := by
  induction cs generalizing afterReference with
  | nil => rfl
  | cons c cs ih =>
    rw [guarded, Bool.and_eq_true] at h
    obtain ⟨hfirst, hrest⟩ := h
    by_cases hreturn : c = '\r'
    · subst hreturn
      cases cs with
      | nil => simp at hfirst
      | cons d cs =>
        have hmarkup : isMarkup d = true := by simpa using hfirst
        rw [settleLines_return_markup hmarkup, ih hrest]
    · cases hmarkup : isMarkup c with
      | true => rw [settleLines_markup hmarkup, ih hrest]
      | false => rw [settleLines_plain hmarkup hreturn, ih hrest]

/-- In a text with settled lines a carriage return stands before a markup character or at the
end. -/
theorem guarded_settleLines (cs : List Char) (afterReference : Bool) :
    guarded (settleLines afterReference (cs.map Datum.written) ++ ['<']) = true := by
  induction cs generalizing afterReference with
  | nil => rfl
  | cons c cs ih =>
    by_cases hreturn : c = '\r'
    · subst hreturn
      cases cs with
      | nil => cases afterReference <;> decide
      | cons d cs =>
        cases hmarkup : isMarkup d with
        | true =>
          rw [settleLines_return_markup hmarkup]
          have hguarded := ih false
          rw [settleLines_markup hmarkup] at hguarded ⊢
          rw [List.cons_append, guarded, hguarded]
          simp [hmarkup]
        | false =>
          rw [settleLines_return_plain hmarkup]
          split
          · exact ih false
          · rw [List.cons_append, guarded_cons (by decide)]
            exact ih false
    · cases hmarkup : isMarkup c with
      | true =>
        rw [settleLines_markup hmarkup, List.cons_append, guarded_cons hreturn]
        exact ih true
      | false =>
        rw [settleLines_plain hmarkup hreturn, List.cons_append, guarded_cons hreturn]
        exact ih false

theorem guarded_of_append (h : guarded (cs ++ rest) = true) : guarded rest = true := by
  induction cs with
  | nil => exact h
  | cons c cs ih =>
    rw [List.cons_append, guarded, Bool.and_eq_true] at h
    exact ih h.2

/-- The beginning of a guarded text is guarded unless it ends in a carriage return. -/
theorem guarded_of_append_left (h : guarded (cs ++ rest) = true)
    (hlast : ∀ c ∈ cs.getLast?, c ≠ '\r') : guarded cs = true := by
  induction cs with
  | nil => rfl
  | cons c cs ih =>
    rw [List.cons_append, guarded, Bool.and_eq_true] at h
    cases cs with
    | nil => exact guarded_of_not_mem (by simpa using hlast)
    | cons d cs =>
      rw [guarded, Bool.and_eq_true]
      exact ⟨h.1, ih h.2 fun e he => hlast e (by simpa [List.getLast?_cons_cons] using he)⟩

/-- Trimming takes a carriage return at the end away. -/
theorem guarded_trim (h : guarded (cs ++ ['<']) = true) : guarded (Text.trim cs) = true := by
  obtain ⟨front, back, heq, -, -⟩ := Text.exists_eq_trim cs
  rw [heq, List.append_assoc, List.append_assoc] at h
  refine guarded_of_append_left (guarded_of_append h) ?_
  rintro c hc rfl
  have := (Text.trimmed_trim cs).2 _ hc
  revert this
  decide

/-! ### Values that read back -/

theorem mem_settleLines {d : Char} {afterReference : Bool}
    (h : d ∈ settleLines afterReference (cs.map Datum.written)) : d = '\n' ∨ d ∈ cs := by
  induction cs generalizing afterReference with
  | nil => cases h
  | cons c cs ih =>
    have hrest {b : Bool} (h : d ∈ settleLines b (cs.map Datum.written)) :
        d = '\n' ∨ d ∈ c :: cs :=
      (ih h).imp_right (List.mem_cons_of_mem c)
    have hcons {b : Bool} (h : d ∈ c :: settleLines b (cs.map Datum.written)) :
        d = '\n' ∨ d ∈ c :: cs :=
      (List.mem_cons.1 h).elim (fun heq => Or.inr (heq ▸ List.mem_cons_self)) hrest
    by_cases hreturn : c = '\r'
    · subst hreturn
      cases cs with
      | nil =>
        cases afterReference with
        | true => exact Or.inr (by simpa [settleLines, Datum.written, isMarkup] using h)
        | false => exact Or.inl (by simpa [settleLines, Datum.written, isMarkup] using h)
      | cons e cs =>
        cases hmarkup : isMarkup e with
        | true =>
          rw [settleLines_return_markup hmarkup] at h
          exact hcons h
        | false =>
          rw [settleLines_return_plain hmarkup] at h
          split at h
          · exact hrest h
          · exact (List.mem_cons.1 h).elim Or.inl hrest
    · cases hmarkup : isMarkup c with
      | true =>
        rw [settleLines_markup hmarkup] at h
        exact hcons h
      | false =>
        rw [settleLines_plain hmarkup hreturn] at h
        exact hcons h

/-- A text reads as itself if it is guarded. -/
theorem rereadText_of_guarded {value : String} (h : guarded value.toList = true) :
    rereadText value = value := by
  rw [rereadText, settleLines_of_guarded h, String.ofList_toList]

theorem replaceSoftHyphens_eq_self (h : '\u00AD' ∉ cs) : replaceSoftHyphens cs = cs := by
  refine (List.map_congr_left fun c hc => ?_).trans (List.map_id cs)
  have hne : c ≠ '\u00AD' := by
    rintro rfl
    exact h hc
  rw [if_neg hne, id]

/-- A text whose soft hyphens need no replacement is only trimmed. -/
theorem toList_normalValue {reading : ReadOptions} {text : String}
    (h : reading.replaceSoftHyphens = true → '\u00AD' ∉ text.toList) :
    (normalValue reading text).toList = Text.trim text.toList := by
  rw [normalValue, String.toList_ofList]
  split
  next hon => exact replaceSoftHyphens_eq_self fun hmem => h hon (Text.mem_of_mem_trim hmem)
  next => rfl

variable {reading : ReadOptions} {value : String}

/-- A value that reads back is the value of its annotation after it was written. -/
theorem ReadsBack.normalValue_rereadText (h : ReadsBack value)
    (hhyphen : reading.replaceSoftHyphens = true → '\u00AD' ∉ value.toList) :
    normalValue reading (rereadText value) = value := by
  rw [rereadText_of_guarded h.2, ← String.toList_inj, toList_normalValue hhyphen,
    Text.trim_eq_self_iff.2 h.1]

theorem not_mem_rereadText (h : '\u00AD' ∉ value.toList) :
    '\u00AD' ∉ (rereadText value).toList := by
  intro hmem
  rw [rereadText, String.toList_ofList] at hmem
  rcases mem_settleLines hmem with heq | hmem
  · exact absurd heq (by decide)
  · exact h hmem

/-- A value that was read from what was written reads back. -/
theorem readsBack_normalValue
    (hhyphen : reading.replaceSoftHyphens = true → '\u00AD' ∉ value.toList) :
    ReadsBack (normalValue reading (rereadText value)) := by
  rw [ReadsBack, toList_normalValue fun hon => not_mem_rereadText (hhyphen hon)]
  refine ⟨Text.trimmed_trim _, guarded_trim ?_⟩
  rw [rereadText, String.toList_ofList]
  exact guarded_settleLines value.toList false

/-! ### Values that were read -/

/-- A value of an annotation that was read: its characters may occur in a document, soft hyphens
were replaced on demand, and it does not begin with a line end. -/
structure ReadValue (reading : ReadOptions) (value : String) : Prop where
  allowed : Allowed value
  hyphens : reading.replaceSoftHyphens = true → '\u00AD' ∉ value.toList
  start : value.toList.head? ≠ some '\n'

theorem mem_replaceSoftHyphens {cs : List Char} {c : Char} (h : c ∈ replaceSoftHyphens cs) :
    c = ' ' ∨ c ∈ cs := by
  obtain ⟨d, hd, rfl⟩ := List.mem_map.1 h
  split
  · exact Or.inl rfl
  · exact Or.inr hd

/-- Values that are read are values that were read. -/
theorem readValue_normalValue (reading : ReadOptions) {text : String} (h : Allowed text) :
    ReadValue reading (normalValue reading text) where
  allowed := by
    intro c hc
    rw [normalValue, String.toList_ofList] at hc
    split at hc
    · rcases mem_replaceSoftHyphens hc with rfl | hc
      · decide
      · exact h c (Text.mem_of_mem_trim hc)
    · exact h c (Text.mem_of_mem_trim hc)
  hyphens := by
    intro hon
    rw [normalValue, String.toList_ofList, if_pos hon]
    intro hmem
    obtain ⟨c, -, heq⟩ := List.mem_map.1 hmem
    split at heq
    · exact absurd heq (by decide)
    next hne => exact hne heq
  start := by
    rw [normalValue, String.toList_ofList]
    have hfirst : ∀ c ∈ (Text.trim text.toList).head?, c ≠ '\n' := by
      rintro c hc rfl
      have hblank := (Text.trimmed_trim text.toList).1 _ hc
      exact absurd hblank (by decide)
    split
    · rw [replaceSoftHyphens, List.head?_map]
      intro heq
      obtain ⟨c, hc, heq⟩ := Option.map_eq_some_iff.1 heq
      split at heq
      · exact absurd heq (by decide)
      · exact hfirst c hc heq
    · exact fun heq => hfirst _ heq rfl

end Eaf

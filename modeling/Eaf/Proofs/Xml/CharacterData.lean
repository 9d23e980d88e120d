import Eaf.Xml.Reference

/-!
# What character data say after they are written

Writing escapes the five markup characters and nothing else. Reading settles line ends and, in
attribute values, tabs; it leaves alone what is written as a reference. So a text that is written
reads as itself but for its carriage returns, and an attribute value but for its tabs, line feeds
and carriage returns.

## Main definitions

* `Eaf.Xml.Allowed` — texts of characters that may occur in a document.
* `Eaf.Xml.Unbroken` — allowed texts without tabs and line ends.
* `Eaf.Xml.rereadValue`, `Eaf.Xml.rereadText` — what a written value and a written text read as.

## Main results

* `Eaf.Xml.decodeValue?_escape`, `Eaf.Xml.decodeText?_escape` — reading what was written.
* `Eaf.Xml.rereadValue_eq_self` — values without tabs and line ends read as themselves.
* `Eaf.Xml.rereadText_eq_self` — texts without carriage returns read as themselves.
-/

namespace Eaf.Xml

/-- All characters of a text may occur in a document. -/
def Allowed (s : String) : Prop :=
  ∀ c ∈ s.toList, isAllowed c = true

/-- Whether a character is a tab or part of a line end. -/
def isBreak (c : Char) : Bool :=
  c == '\t' || c == '\n' || c == '\r'

/-- All characters of a text may occur in a document, and none is a tab or part of a line end. -/
def Unbroken (s : String) : Prop :=
  ∀ c ∈ s.toList, isAllowed c = true ∧ isBreak c = false

/-- What is said of all characters of a text is tested on these, not on all characters there
are. -/
instance decidableForallMemChar (cs : List Char) (p : Char → Prop) [DecidablePred p] :
    Decidable (∀ c ∈ cs, p c) :=
  List.decidableBAll p cs

instance (s : String) : Decidable (Allowed s) :=
  inferInstanceAs (Decidable (∀ c ∈ s.toList, _))

instance (s : String) : Decidable (Unbroken s) :=
  inferInstanceAs (Decidable (∀ c ∈ s.toList, _))

theorem Unbroken.allowed {s : String} (h : Unbroken s) : Allowed s :=
  fun c hc => (h c hc).1

/-- A character as it is written: as a reference exactly if it is markup. -/
def Datum.written (c : Char) : Datum :=
  { char := c, referred := isMarkup c }

/-- What an attribute value reads as after it was written. -/
def rereadValue (s : String) : String :=
  String.ofList (settleValue (s.toList.map Datum.written))

/-- What a text reads as after it was written. -/
def rereadText (s : String) : String :=
  String.ofList (settleLines false (s.toList.map Datum.written))

variable {c d : Char} {cs : List Char} {s : String}

/-- A digit may occur in a document and breaks no line. -/
theorem unbroken_of_isDigit (h : c.isDigit = true) : isAllowed c = true ∧ isBreak c = false := by
  have hbreak : ∀ d : Char, d.isDigit = false → c ≠ d := by
    rintro d hd rfl
    rw [hd] at h
    cases h
  refine ⟨?_, by simp [isBreak, hbreak '\t' (by decide), hbreak '\n' (by decide),
    hbreak '\r' (by decide)]⟩
  simp only [Char.isDigit, Bool.and_eq_true, decide_eq_true_eq, UInt32.le_iff_toNat_le] at h
  have hrange : 0x30 ≤ c.toNat ∧ c.toNat ≤ 0x39 := h
  rw [isAllowed, if_neg (by omega)]
  simp only [Bool.and_eq_true, bne_iff_ne]
  omega

/-! ### What is written -/

theorem mem_escapeChar (h : d ∈ escapeChar c) :
    d ≠ '<' ∧ d ≠ '>' ∧ d ≠ '\x22' ∧ (isAllowed c = true → isAllowed d = true) := by
  unfold escapeChar at h
  split at h
  case h_6 h1 h2 _ _ h5 =>
    obtain rfl := List.mem_singleton.1 h
    exact ⟨h1, h2, h5, id⟩
  all_goals
    revert d
    decide

/-- No angle bracket and no double quote is in what is written, and it is allowed if the text is. -/
theorem mem_escape (h : d ∈ escape cs) :
    d ≠ '<' ∧ d ≠ '>' ∧ d ≠ '\x22' ∧ ((∀ c ∈ cs, isAllowed c = true) → isAllowed d = true) := by
  obtain ⟨c, hc, hd⟩ := List.mem_flatMap.1 h
  obtain ⟨hlt, hgt, hquote, hallowed⟩ := mem_escapeChar hd
  exact ⟨hlt, hgt, hquote, fun hcs => hallowed (hcs c hc)⟩

theorem Allowed.of_mem_escape (h : Allowed s) (hd : d ∈ escape s.toList) : isAllowed d = true :=
  (mem_escape hd).2.2.2 h

theorem escapeChar_ne_nil (c : Char) : escapeChar c ≠ [] := by
  unfold escapeChar
  split <;> simp

theorem escape_eq_nil_iff : escape cs = [] ↔ cs = [] := by
  cases cs with
  | nil => simp [escape]
  | cons c cs => simp [escape, escapeChar_ne_nil]

/-- A text without markup characters is written as it is. -/
theorem escape_eq_self (h : ∀ c ∈ cs, isMarkup c = false) : escape cs = cs := by
  induction cs with
  | nil => rfl
  | cons c cs ih =>
    obtain ⟨hc, hcs⟩ := List.forall_mem_cons.1 h
    simp only [isMarkup, Bool.or_eq_false_iff, beq_eq_false_iff_ne] at hc
    obtain ⟨⟨⟨⟨hlt, hgt⟩, hamp⟩, hapos⟩, hquote⟩ := hc
    have hchar : escapeChar c = [c] := by
      unfold escapeChar
      split <;> first | rfl | contradiction
    rw [escape, List.flatMap_cons, hchar, ← escape, ih hcs, List.singleton_append]

/-! ### Reading what was written -/

theorem decodeValue?_escape (s : String) :
    decodeValue? (escape s.toList) = some (rereadValue s).toList := by
  rw [decodeValue?, units?_escape, Option.map_some, rereadValue, String.toList_ofList]
  rfl

theorem decodeText?_escape (s : String) :
    decodeText? (escape s.toList) = some (rereadText s).toList := by
  rw [decodeText?, units?_escape, Option.map_some, rereadText, String.toList_ofList]
  rfl

/-! ### Attribute values -/

theorem isMarkup_of_isBreak (h : isBreak c = true) : isMarkup c = false := by
  simp only [isBreak, Bool.or_eq_true, beq_iff_eq] at h
  rcases h with (rfl | rfl) | rfl <;> decide

/-- A value without tabs and line ends is left alone. -/
theorem settleValue_written (h : ∀ c ∈ cs, isBreak c = false) :
    settleValue (cs.map Datum.written) = cs := by
  induction cs with
  | nil => rfl
  | cons c cs ih =>
    obtain ⟨hc, hcs⟩ := List.forall_mem_cons.1 h
    simp only [isBreak, Bool.or_eq_false_iff, beq_eq_false_iff_ne] at hc
    obtain ⟨⟨htab, hfeed⟩, hreturn⟩ := hc
    simp [settleValue, Datum.written, htab, hfeed, hreturn] at ih ⊢
    exact ih hcs

/-- In a value that was read there are the characters of the value, but for tabs and line ends, and
spaces for these. -/
theorem mem_settleValue (h : d ∈ settleValue (cs.map Datum.written)) :
    isBreak d = false ∧ (d = ' ' ∨ d ∈ cs) := by
  induction cs with
  | nil => cases h
  | cons c cs ih =>
    have hrest (h : d ∈ settleValue (cs.map Datum.written)) :
        isBreak d = false ∧ (d = ' ' ∨ d ∈ c :: cs) :=
      ⟨(ih h).1, (ih h).2.imp_right (List.mem_cons_of_mem c)⟩
    rw [List.map_cons, settleValue] at h
    split at h
    next hmarkup =>
      rcases List.mem_cons.1 h with rfl | h
      · refine ⟨?_, Or.inr List.mem_cons_self⟩
        change isMarkup d = true at hmarkup
        cases hbreak : isBreak d with
        | false => rfl
        | true => cases hmarkup.symm.trans (isMarkup_of_isBreak hbreak)
      · exact hrest h
    next =>
      split at h
      · exact hrest h
      · split at h
        next => exact (List.mem_cons.1 h).elim (fun heq => ⟨heq ▸ rfl, Or.inl heq⟩) hrest
        next hbreak =>
          rcases List.mem_cons.1 h with rfl | h
          · refine ⟨?_, Or.inr List.mem_cons_self⟩
            simpa [isBreak, Datum.written, not_or, and_assoc] using hbreak
          · exact hrest h

theorem rereadValue_unbroken (h : Allowed s) : Unbroken (rereadValue s) := by
  intro d hd
  rw [rereadValue, String.toList_ofList] at hd
  obtain ⟨hbreak, rfl | hmem⟩ := mem_settleValue hd
  · exact ⟨by decide, hbreak⟩
  · exact ⟨h d hmem, hbreak⟩

/-- A value without tabs and line ends reads as itself. -/
theorem rereadValue_eq_self (h : Unbroken s) : rereadValue s = s := by
  rw [rereadValue, settleValue_written fun c hc => (h c hc).2, String.ofList_toList]

/-! ### Texts -/

theorem settleLines_written (h : ∀ c ∈ cs, c ≠ '\r') (afterReference : Bool) :
    settleLines afterReference (cs.map Datum.written) = cs := by
  induction cs generalizing afterReference with
  | nil => rfl
  | cons c cs ih =>
    obtain ⟨hc, hcs⟩ := List.forall_mem_cons.1 h
    rw [List.map_cons, settleLines.eq_def]
    simp only [ih hcs]
    simp only [Datum.written, hc, if_false, ite_self]

/-- A text without carriage returns reads as itself. -/
theorem rereadText_eq_self (h : ∀ c ∈ s.toList, c ≠ '\r') : rereadText s = s := by
  rw [rereadText, settleLines_written h, String.ofList_toList]

end Eaf.Xml

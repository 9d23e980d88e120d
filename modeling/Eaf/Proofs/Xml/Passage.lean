import Eaf.Proofs.Xml.Legible

/-!
# A document is of allowed characters throughout

Every scanner passes over a part of a text at its front and leaves the rest. It passes over allowed
characters only: name characters and white space are allowed, and so are the marks themselves; what
stands in quotes, in a comment, in a section or between two marks is looked at. A text that is read
to its end is therefore of allowed characters, and no writer can have put another character in it.

## Main definitions

* `Eaf.Xml.Passes` — allowed characters lead from a text to its rest.

## Main results

* `Eaf.Xml.Token.passes_of_next?` — a mark is of allowed characters.
* `Eaf.Xml.allowed_of_tokens?` — marks and runs of text are of allowed characters.
* `Eaf.Xml.allowed_of_read?` — a document is of allowed characters.
-/

namespace Eaf.Xml

/-- Allowed characters lead from a text to its rest. -/
def Passes (cs rest : List Char) : Prop :=
  ∃ front, (∀ c ∈ front, isAllowed c = true) ∧ cs = front ++ rest

variable {cs rest last : List Char} {c : Char}

namespace Passes

theorem refl (cs : List Char) : Passes cs cs :=
  ⟨[], List.forall_mem_nil _, rfl⟩

theorem trans (h : Passes cs rest) (hrest : Passes rest last) : Passes cs last := by
  obtain ⟨front, hfront, rfl⟩ := h
  obtain ⟨more, hmore, rfl⟩ := hrest
  exact ⟨front ++ more, List.forall_mem_append.2 ⟨hfront, hmore⟩, (List.append_assoc ..).symm⟩

theorem cons (hc : isAllowed c = true) (h : Passes cs rest) : Passes (c :: cs) rest := by
  obtain ⟨front, hfront, rfl⟩ := h
  exact ⟨c :: front, List.forall_mem_cons.2 ⟨hc, hfront⟩, rfl⟩

/-- A text is of allowed characters if its rest is. -/
theorem allowed (h : Passes cs rest) (hrest : ∀ c ∈ rest, isAllowed c = true) :
    ∀ c ∈ cs, isAllowed c = true := by
  obtain ⟨front, hfront, rfl⟩ := h
  exact List.forall_mem_append.2 ⟨hfront, hrest⟩

end Passes

/-! ### Runs of characters and fixed texts -/

theorem passes_dropWhile {p : Char → Bool} (hp : ∀ c ∈ cs.takeWhile p, isAllowed c = true) :
    Passes cs (cs.dropWhile p) :=
  ⟨cs.takeWhile p, hp, List.takeWhile_append_dropWhile.symm⟩

theorem isAllowed_of_isNameChar (h : isNameChar c = true) : isAllowed c = true := by
  simp only [isNameChar, isNameStart, inRange, Bool.or_eq_true, Bool.and_eq_true,
    decide_eq_true_eq, beq_iff_eq, ← Char.toNat_inj] at h
  have hcodes : ':'.toNat = 0x3A ∧ '_'.toNat = 0x5F ∧ '-'.toNat = 0x2D ∧ '.'.toNat = 0x2E := by
    decide
  rw [isAllowed, if_neg (by omega)]
  simp only [Bool.and_eq_true, bne_iff_ne]
  omega

theorem passes_skipSpace (cs : List Char) : Passes cs (skipSpace cs) :=
  passes_dropWhile fun c hc => isAllowed_of_isSpace (List.all_eq_true.1 List.all_takeWhile c hc)

theorem passes_nameChars (cs : List Char) : Passes cs (cs.dropWhile isNameChar) :=
  passes_dropWhile fun c hc =>
    isAllowed_of_isNameChar (List.all_eq_true.1 List.all_takeWhile c hc)

theorem passes_of_after? {opening : List Char} (hopening : ∀ c ∈ opening, isAllowed c = true)
    (h : Text.after? opening cs = some rest) : Passes cs rest :=
  ⟨opening, hopening, Text.after?_eq_some_iff.1 h⟩

/-- What stands before a mark is passed over if it is looked at. -/
theorem passes_of_splitAt? {mark content : List Char} (hmark : ∀ c ∈ mark, isAllowed c = true)
    (hcontent : content.all isAllowed = true)
    (h : Text.splitAt? mark cs = some (content, rest)) : Passes cs rest :=
  ⟨content ++ mark, List.forall_mem_append.2 ⟨List.all_eq_true.1 hcontent, hmark⟩,
    Text.eq_of_splitAt? h⟩

/-! ### Attributes and tags -/

theorem passes_of_readName? {name : QName} (h : QName.read? cs = some (name, rest)) :
    Passes cs rest := by
  obtain ⟨_, -, heq⟩ := Option.map_eq_some_iff.1 h
  obtain ⟨-, rfl⟩ := Prod.mk.inj heq
  exact passes_nameChars cs

theorem passes_of_quoted? {value : List Char} (h : quoted? cs = some (value, rest)) :
    Passes cs rest := by
  unfold quoted? at h
  split at h
  · cases h
  next quote cs =>
    split at h
    next hquote =>
      have hallowed : isAllowed quote = true := by rcases hquote with rfl | rfl <;> decide
      dsimp only at h
      split at h
      next c rest hdrop =>
        obtain ⟨⟨rfl, hall⟩, heq⟩ := Option.ite_none_right_eq_some.1 h
        obtain ⟨-, rfl⟩ := Prod.mk.inj (Option.some.inj heq)
        have hvalue := passes_dropWhile (List.all_eq_true.1 hall)
        rw [hdrop] at hvalue
        exact .cons hallowed (hvalue.trans (.cons hallowed (.refl _)))
      · cases h
    · cases h

/-- An attribute is of allowed characters. -/
theorem passes_of_readAttribute? {a : RawAttribute}
    (h : RawAttribute.read? cs = some (a, rest)) : Passes cs rest := by
  unfold RawAttribute.read? at h
  split at h
  · cases h
  next afterName hname =>
    split at h
    next hequals =>
      obtain ⟨_, hquoted, heq⟩ := Option.map_eq_some_iff.1 h
      obtain ⟨-, rfl⟩ := Prod.mk.inj heq
      have hspace := passes_skipSpace afterName
      rw [hequals] at hspace
      refine (passes_of_readName? hname).trans (hspace.trans (.cons (by decide) ?_))
      exact (passes_skipSpace _).trans (passes_of_quoted? hquoted)
    · cases h

theorem passes_of_tagEnd? {attributes : List RawAttribute} {closed : Bool}
    (h : tagEnd? cs = some (attributes, closed, rest)) : Passes cs rest := by
  fun_induction tagEnd? cs generalizing attributes with
  | case1 cs _ hspace =>
    cases h
    have hpasses := passes_skipSpace cs
    rw [hspace] at hpasses
    exact hpasses.trans (.cons (by decide) (.refl _))
  | case2 cs _ hspace =>
    cases h
    have hpasses := passes_skipSpace cs
    rw [hspace] at hpasses
    exact hpasses.trans (.cons (by decide) (.cons (by decide) (.refl _)))
  | case3 => cases h
  | case4 cs _ _ _ _ _ hread ih =>
    simp only [Option.map_eq_some_iff, Prod.mk.injEq, Prod.exists] at h
    obtain ⟨_, _, _, hothers, -, rfl, rfl⟩ := h
    exact (passes_skipSpace cs).trans ((passes_of_readAttribute? hread).trans (ih hothers))
  | case5 => cases h

/-! ### Marks -/

namespace Token

variable {token : Token}

theorem passes_of_comment? (h : comment? cs = some rest) : Passes cs rest := by
  obtain ⟨⟨content, _⟩, hfilter, rfl⟩ := Option.map_eq_some_iff.1 h
  obtain ⟨hsplit, hall⟩ := Option.filter_eq_some_iff.1 hfilter
  simp only [Bool.and_eq_true] at hall
  exact passes_of_splitAt? (by decide) hall.1.1 hsplit

theorem passes_of_section? {content : List Char} (h : section? cs = some (content, rest)) :
    Passes cs rest := by
  obtain ⟨hsplit, hall⟩ := Option.filter_eq_some_iff.1 h
  exact passes_of_splitAt? (by decide) hall hsplit

theorem passes_of_instruction? (h : instruction? cs = some rest) : Passes cs rest := by
  unfold instruction? at h
  split at h
  · cases h
  · obtain ⟨-, h⟩ := Option.ite_none_right_eq_some.1 h
    obtain ⟨⟨content, _⟩, hfilter, rfl⟩ := Option.map_eq_some_iff.1 h
    obtain ⟨hsplit, hall⟩ := Option.filter_eq_some_iff.1 hfilter
    refine (passes_nameChars cs).trans ((passes_skipSpace _).trans ?_)
    exact passes_of_splitAt? (by decide) hall hsplit

theorem passes_of_closingTag? (h : closingTag? cs = some (token, rest)) : Passes cs rest := by
  unfold closingTag? at h
  split at h
  · cases h
  next afterName hname =>
    split at h
    next hspace =>
      cases h
      have hpasses := passes_skipSpace afterName
      rw [hspace] at hpasses
      exact (passes_of_readName? hname).trans (hpasses.trans (.cons (by decide) (.refl _)))
    · cases h

theorem passes_of_openingTag? (h : openingTag? cs = some (token, rest)) : Passes cs rest := by
  unfold openingTag? at h
  split at h
  · cases h
  next hname =>
    simp only [Option.map_eq_some_iff, Prod.mk.injEq, Prod.exists] at h
    obtain ⟨_, _, _, htag, -, rfl⟩ := h
    exact (passes_of_readName? hname).trans (passes_of_tagEnd? htag)

theorem passes_of_textRun? (h : textRun? cs = some (token, rest)) : Passes cs rest := by
  unfold textRun? at h
  obtain ⟨hall, heq⟩ := Option.ite_none_right_eq_some.1 h
  obtain ⟨-, rfl⟩ := Prod.mk.inj (Option.some.inj heq)
  rw [Bool.and_eq_true] at hall
  exact passes_dropWhile (List.all_eq_true.1 hall.1)

/-- A mark is of allowed characters, and so is a run of text. -/
theorem passes_of_next? (h : next? cs = some (token, rest)) : Passes cs rest := by
  unfold next? at h
  split at h
  · exact .cons (by decide) (.cons (by decide) (passes_of_closingTag? h))
  · obtain ⟨_, hinstruction, heq⟩ := Option.map_eq_some_iff.1 h
    obtain ⟨-, rfl⟩ := Prod.mk.inj heq
    exact .cons (by decide) (.cons (by decide) (passes_of_instruction? hinstruction))
  · obtain ⟨_, hcomment, heq⟩ := Option.map_eq_some_iff.1 h
    obtain ⟨-, rfl⟩ := Prod.mk.inj heq
    exact .cons (by decide) (.cons (by decide) (.cons (by decide) (.cons (by decide)
      (passes_of_comment? hcomment))))
  · obtain ⟨_, hopening, h⟩ := Option.bind_eq_some_iff.1 h
    obtain ⟨⟨_, _⟩, hsection, heq⟩ := Option.map_eq_some_iff.1 h
    obtain ⟨-, rfl⟩ := Prod.mk.inj heq
    refine .cons (by decide) (.cons (by decide) ?_)
    exact (passes_of_after? (by decide) hopening).trans (passes_of_section? hsection)
  · exact .cons (by decide) (passes_of_openingTag? h)
  · exact passes_of_textRun? h

end Token

/-- A text that is all marks and runs of text is of allowed characters. -/
theorem allowed_of_tokens? {tokens : List Token} (h : tokens? cs = some tokens) :
    ∀ c ∈ cs, isAllowed c = true := by
  fun_induction tokens? cs generalizing tokens with
  | case1 => exact List.forall_mem_nil _
  | case2 => cases h
  | case3 _ _ _ _ hnext ih =>
    obtain ⟨_, hothers, -⟩ := Option.map_eq_some_iff.1 h
    exact (Token.passes_of_next? hnext).allowed (ih hothers)

/-! ### Documents -/

theorem passes_of_declarationSpace? (h : declarationSpace? cs = some rest) : Passes cs rest := by
  obtain ⟨-, heq⟩ := Option.ite_none_right_eq_some.1 h
  exact Option.some.inj heq ▸ passes_skipSpace cs

theorem passes_of_afterAttribute? (h : afterAttribute? cs = some rest) : Passes cs rest := by
  obtain ⟨_, hread, rfl⟩ := Option.map_eq_some_iff.1 h
  exact passes_of_readAttribute? hread

theorem passes_of_afterOptional? {name : List Char} (h : afterOptional? name cs = some rest) :
    Passes cs rest := by
  unfold afterOptional? at h
  split at h
  · obtain ⟨_, hattribute, hspace⟩ := Option.bind_eq_some_iff.1 h
    exact (passes_of_afterAttribute? hattribute).trans (passes_of_declarationSpace? hspace)
  · exact Option.some.inj h ▸ .refl cs

theorem passes_of_declaration? (h : declaration? cs = some rest) : Passes cs rest := by
  obtain ⟨_, hspace, h⟩ := Option.bind_eq_some_iff.1 h
  obtain ⟨-, h⟩ := Option.ite_none_right_eq_some.1 h
  obtain ⟨_, hversion, h⟩ := Option.bind_eq_some_iff.1 h
  obtain ⟨_, hattribute, hspace'⟩ := Option.bind_eq_some_iff.1 hversion
  obtain ⟨middle, hencoding, h⟩ := Option.bind_eq_some_iff.1 h
  obtain ⟨_, hstandalone, hclose⟩ := Option.bind_eq_some_iff.1 h
  have hend := (passes_skipSpace _).trans (passes_of_after? (by decide) hclose)
  refine (passes_of_declarationSpace? hspace).trans ?_
  refine (passes_of_afterAttribute? hattribute).trans ?_
  refine (passes_of_declarationSpace? hspace').trans ?_
  refine (passes_of_afterOptional? hencoding).trans ?_
  split at hstandalone
  · exact (passes_of_afterAttribute? hstandalone).trans hend
  · exact Option.some.inj hstandalone ▸ hend

theorem passes_skipByteOrderMark (cs : List Char) : Passes cs (skipByteOrderMark cs) := by
  unfold skipByteOrderMark
  split
  · exact .cons (by decide) (.refl _)
  · exact .refl cs

theorem allowed_of_afterDeclaration? (h : afterDeclaration? cs = some rest)
    (hrest : ∀ c ∈ rest, isAllowed c = true) : ∀ c ∈ cs, isAllowed c = true := by
  refine (passes_skipByteOrderMark cs).allowed ?_
  unfold afterDeclaration? at h
  dsimp only at h
  split at h
  next data hopening =>
    refine (passes_of_after? (by decide) hopening).allowed fun c hc => ?_
    exact (passes_of_declaration? h).allowed hrest c (List.mem_cons_of_mem _ hc)
  next => exact Option.some.inj h ▸ hrest

/-- **A text that is a document is of allowed characters throughout.** -/
theorem allowed_of_read? {text : String} {root : Node} (h : read? text = some root) :
    Allowed text := by
  obtain ⟨tokens, htokens, -⟩ := Option.bind_eq_some_iff.1 h
  obtain ⟨data, hdeclaration, htokens⟩ := Option.bind_eq_some_iff.1 htokens
  exact allowed_of_afterDeclaration? hdeclaration (allowed_of_tokens? htokens)

end Eaf.Xml

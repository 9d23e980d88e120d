import Eaf.Proofs.Xml.Reread

/-!
# Documents that are written as the same text

A text tells the tags and the texts of the document that was written: markup characters in texts
and attribute values are escaped, so that every mark of the text is that of one piece or of the
indentation. If two documents are written as the same text, the attribute values of one are those
of the other, and so are their texts, but for those that could be indentation.

## Main definitions

* `Eaf.Xml.Piece.marks` — the marks that the reader finds for a piece.

## Main results

* `Eaf.Xml.Markup.marks_of_mem_tokens`, `Eaf.Xml.Markup.mem_tokens_of_marks` — the marks of an
  element are those of its pieces, and gaps.
* `Eaf.Xml.tokensOf_eq_of_write_eq` — documents that are written as the same text have the same
  marks.
* `Eaf.Xml.exists_attribute_of_tokensOf_eq`, `Eaf.Xml.text_mem_of_tokensOf_eq` — what documents
  with the same marks have in common.
-/

namespace Eaf.Xml

theorem escape_injective {cs ds : List Char} (h : escape cs = escape ds) : cs = ds := by
  have hunits := congrArg units? h
  rw [units?_escape, units?_escape] at hunits
  have hchars := congrArg (List.map Datum.char) (Option.some.inj hunits)
  simpa only [List.map_map, Function.comp_def, List.map_id'] using hchars

/-- The marks that the reader finds for a piece. -/
def Piece.marks : Piece → List Token
  | declaration => []
  | openTag name attributes => [Markup.openMark name attributes false]
  | emptyTag name attributes => [Markup.openMark name attributes true]
  | closeTag name => [.closing (QName.ofName name)]
  | text content => Markup.textTokens content

/-- A run of text between tags: a line break and the indentation of some depth. -/
def IsGap (indent : Nat) (token : Token) : Prop :=
  ∃ depth, token = .text (lineBreak indent depth)

variable {indent depth : Nat} {token : Token}

theorem isGap_of_mem_gapTokens (h : token ∈ gapTokens indent depth) : IsGap indent token := by
  unfold gapTokens at h
  split at h
  · cases h
  · exact ⟨depth, List.mem_singleton.1 h⟩

namespace Markup

mutual

/-- The marks of an element are those of its pieces, and gaps. -/
theorem marks_of_mem_tokens (indent depth : Nat) (token : Token) :
    (markup : Markup) → token ∈ markup.tokens indent depth →
      IsGap indent token ∨ ∃ piece ∈ markup.pieces, token ∈ piece.marks
  | bare name attributes, h => by
    rcases List.mem_append.1 h with h | h
    · exact Or.inl (isGap_of_mem_gapTokens h)
    · exact Or.inr ⟨.emptyTag name attributes, List.mem_cons_self, h⟩
  | labelled name attributes content, h => by
    rcases List.mem_append.1 h with h | h
    · exact Or.inl (isGap_of_mem_gapTokens h)
    · refine Or.inr ?_
      rcases List.mem_cons.1 h with rfl | h
      · exact ⟨.openTag name attributes, by simp [pieces], List.mem_cons_self⟩
      rcases List.mem_append.1 h with h | h
      · exact ⟨.text content, by simp [pieces], h⟩
      · exact ⟨.closeTag name, by simp [pieces], h⟩
  | enclosing name attributes children, h => by
    rcases List.mem_append.1 h with h | h
    · exact Or.inl (isGap_of_mem_gapTokens h)
    rcases List.mem_cons.1 h with rfl | h
    · exact Or.inr ⟨.openTag name attributes, by simp [pieces], List.mem_cons_self⟩
    rcases List.mem_append.1 h with h | h
    · refine (marks_of_mem_tokensOf indent (depth + 1) token children h).imp_right ?_
      rintro ⟨piece, hpiece, hmark⟩
      exact ⟨piece, by simp [pieces, hpiece], hmark⟩
    rcases List.mem_append.1 h with h | h
    · exact Or.inl (isGap_of_mem_gapTokens h)
    · exact Or.inr ⟨.closeTag name, by simp [pieces], h⟩

/-- The marks of a list of elements are those of its pieces, and gaps. -/
theorem marks_of_mem_tokensOf (indent depth : Nat) (token : Token) :
    (elements : List Markup) → token ∈ tokensOf indent depth elements →
      IsGap indent token ∨ ∃ piece ∈ piecesOf elements, token ∈ piece.marks
  | [], h => nomatch h
  | markup :: others, h => by
    rcases List.mem_append.1 h with h | h
    · refine (marks_of_mem_tokens indent depth token markup h).imp_right ?_
      rintro ⟨piece, hpiece, hmark⟩
      exact ⟨piece, List.mem_append_left _ hpiece, hmark⟩
    · refine (marks_of_mem_tokensOf indent depth token others h).imp_right ?_
      rintro ⟨piece, hpiece, hmark⟩
      exact ⟨piece, List.mem_append_right _ hpiece, hmark⟩

end

mutual

/-- The marks of the pieces of an element are among its marks. -/
theorem mem_tokens_of_marks (indent depth : Nat) (token : Token) (piece : Piece)
    (hmark : token ∈ piece.marks) :
    (markup : Markup) → piece ∈ markup.pieces → token ∈ markup.tokens indent depth
  | bare name attributes, h => by
    rw [pieces, List.mem_singleton] at h
    subst h
    exact List.mem_append_right _ hmark
  | labelled name attributes content, h => by
    simp only [pieces, List.mem_cons, List.not_mem_nil, or_false] at h
    refine List.mem_append_right _ ?_
    rcases h with rfl | rfl | rfl
    · exact List.mem_cons.2 (Or.inl (List.mem_singleton.1 hmark))
    · exact List.mem_cons_of_mem _ (List.mem_append_left _ hmark)
    · exact List.mem_cons_of_mem _ (List.mem_append_right _ hmark)
  | enclosing name attributes children, h => by
    simp only [pieces, List.mem_cons, List.mem_append, List.not_mem_nil, or_false] at h
    refine List.mem_append_right _ ?_
    rcases h with rfl | h | rfl
    · exact List.mem_cons.2 (Or.inl (List.mem_singleton.1 hmark))
    · have hmem := mem_tokensOf_of_marks indent (depth + 1) token piece hmark children h
      exact List.mem_cons_of_mem _ (List.mem_append_left _ hmem)
    · exact List.mem_cons_of_mem _
        (List.mem_append_right _ (List.mem_append_right _ hmark))

/-- The marks of the pieces of a list of elements are among its marks. -/
theorem mem_tokensOf_of_marks (indent depth : Nat) (token : Token) (piece : Piece)
    (hmark : token ∈ piece.marks) :
    (elements : List Markup) → piece ∈ piecesOf elements → token ∈ tokensOf indent depth elements
  | [], h => nomatch h
  | markup :: others, h => by
    rcases List.mem_append.1 h with h | h
    · exact List.mem_append_left _ (mem_tokens_of_marks indent depth token piece hmark markup h)
    · exact List.mem_append_right _
        (mem_tokensOf_of_marks indent depth token piece hmark others h)

end

end Markup

/-! ### Two documents -/

section SameText

variable {name : String} {attributes : List (String × String)} {elements others : List Markup}

/-- Documents that are written as the same text have the same marks in their root elements. -/
theorem tokensOf_eq_of_write_eq (hname : PlainName name) (hattributes : AttributesFit attributes)
    (helements : Markup.FitsAll elements) (hothers : Markup.FitsAll others)
    (h : write indent (.declaration :: Markup.pieces (.enclosing name attributes elements)) =
      write indent (.declaration :: Markup.pieces (.enclosing name attributes others))) :
    Markup.tokensOf indent 1 elements = Markup.tokensOf indent 1 others := by
  have hmarks : some (Markup.tokens indent 0 (.enclosing name attributes elements)) =
      some (Markup.tokens indent 0 (.enclosing name attributes others)) := by
    rw [← tokens?_write hname hattributes helements, h, tokens?_write hname hattributes hothers]
  simpa [Markup.tokens] using hmarks

/-- The attribute values of a tag are in its mark. -/
theorem exists_attribute_of_mem_marks {closed : Bool} {piece : Piece}
    (h : Markup.openMark name attributes closed ∈ piece.marks) :
    ∀ pair ∈ attributes, ∃ found ∈ piece.attributes, found.2 = pair.2 := by
  have hsame {key : String} {given : List (String × String)} {flag : Bool}
      (heq : Markup.openMark name attributes closed = Markup.openMark key given flag) :
      ∀ pair ∈ attributes, ∃ found ∈ given, found.2 = pair.2 := by
    intro pair hpair
    simp only [Markup.openMark, Token.opening.injEq] at heq
    have hmem : RawAttribute.ofPair pair ∈ given.map RawAttribute.ofPair :=
      heq.2.1 ▸ List.mem_map_of_mem hpair
    obtain ⟨found, hfound, heq⟩ := List.mem_map.1 hmem
    simp only [RawAttribute.ofPair, RawAttribute.mk.injEq] at heq
    exact ⟨found, hfound, String.toList_inj.1 (escape_injective heq.2)⟩
  cases piece with
  | declaration => cases h
  | openTag key given => exact hsame (List.mem_singleton.1 h)
  | emptyTag key given => exact hsame (List.mem_singleton.1 h)
  | closeTag key => cases List.mem_singleton.1 h
  | text content =>
    simp only [Piece.marks, Markup.textTokens] at h
    split at h
    · cases h
    · cases List.mem_singleton.1 h

/-- Every attribute value of a document is one of any document with the same marks. -/
theorem exists_attribute_of_tokensOf_eq
    (h : Markup.tokensOf indent depth elements = Markup.tokensOf indent depth others)
    {piece : Piece} (hpiece : piece ∈ Markup.piecesOf elements) {pair : String × String}
    (hpair : pair ∈ piece.attributes) :
    ∃ other ∈ Markup.piecesOf others, ∃ found ∈ other.attributes, found.2 = pair.2 := by
  have hfound {name : String} {attributes : List (String × String)} {closed : Bool}
      (hmark : Markup.openMark name attributes closed ∈ piece.marks) (hmem : pair ∈ attributes) :
      ∃ other ∈ Markup.piecesOf others, ∃ found ∈ other.attributes, found.2 = pair.2 := by
    have htoken := Markup.mem_tokensOf_of_marks indent depth _ piece hmark elements hpiece
    rw [h] at htoken
    rcases Markup.marks_of_mem_tokensOf indent depth _ others htoken with ⟨_, hgap⟩ | hother
    · cases hgap
    · obtain ⟨other, hother, hmark⟩ := hother
      exact ⟨other, hother, exists_attribute_of_mem_marks hmark pair hmem⟩
  cases piece with
  | openTag name attributes => exact hfound List.mem_cons_self hpair
  | emptyTag name attributes => exact hfound List.mem_cons_self hpair
  | declaration => cases hpair
  | closeTag name => cases hpair
  | text content => cases hpair

theorem escape_lineBreak (indent depth : Nat) :
    escape (lineBreak indent depth) = lineBreak indent depth := by
  refine escape_eq_self fun c hc => ?_
  rcases mem_lineBreak hc with rfl | rfl <;> decide

/-- Every text of a document is one of any document with the same marks, unless it is empty or
begins with a line break, as indentation does. -/
theorem text_mem_of_tokensOf_eq
    (h : Markup.tokensOf indent depth elements = Markup.tokensOf indent depth others)
    {content : String} (hcontent : .text content ∈ Markup.piecesOf elements)
    (hne : content ≠ "") (hstart : content.toList.head? ≠ some '\n') :
    .text content ∈ Markup.piecesOf others := by
  have hmark : .text (escape content.toList) ∈ (Piece.text content).marks := by
    simp [Piece.marks, Markup.textTokens, hne]
  have htoken := Markup.mem_tokensOf_of_marks indent depth _ _ hmark elements hcontent
  rw [h] at htoken
  rcases Markup.marks_of_mem_tokensOf indent depth _ others htoken with ⟨gap, hgap⟩ | hother
  · rw [Token.text.injEq, ← escape_lineBreak] at hgap
    rw [escape_injective hgap] at hstart
    exact absurd rfl hstart
  · obtain ⟨other, hother, hmark⟩ := hother
    cases other with
    | text given =>
      simp only [Piece.marks, Markup.textTokens] at hmark
      split at hmark
      · cases hmark
      · have hsame := Token.text.inj (List.mem_singleton.1 hmark)
        rwa [String.toList_inj.1 (escape_injective hsame)]
    | declaration => cases hmark
    | openTag name attributes => cases List.mem_singleton.1 hmark
    | emptyTag name attributes => cases List.mem_singleton.1 hmark
    | closeTag name => cases List.mem_singleton.1 hmark

end SameText

end Eaf.Xml

import Eaf.Proofs.Xml.CharacterData
import Eaf.Xml.Layout
import Eaf.Xml.Token

/-!
# Reading the marks that are written

Each piece that is written is one mark to the reader, whatever follows it: a tag is read back with
its name and with its attributes as they were escaped, and a run of text up to the next tag.

## Main definitions

* `Eaf.Xml.WellNamed` — the texts that write names.
* `Eaf.Xml.RawAttribute.ofPair` — an attribute as the reader finds it.

## Main results

* `Eaf.Xml.tokens?_openTag`, `Eaf.Xml.tokens?_emptyTag`, `Eaf.Xml.tokens?_closeTag`,
  `Eaf.Xml.tokens?_text` — the first mark of a text that begins with a piece.
-/

namespace Eaf.Xml

/-! ### Names -/

/-- The qualified name that a text writes. -/
def QName.ofName (name : String) : QName :=
  (QName.ofRun? name.toList).getD default

/-- A text writes a name: it is a run of name characters with a qualifier or without one. -/
def WellNamed (name : String) : Prop :=
  name.toList.all isNameChar = true ∧ (QName.ofRun? name.toList).isSome = true

instance (name : String) : Decidable (WellNamed name) :=
  inferInstanceAs (Decidable (_ ∧ _))

variable {name : String} {rest : List Char}

theorem isSpace_of_isNameChar {c : Char} (h : isNameChar c = true) :
    isSpace c = false ∧ c ≠ '>' ∧ c ≠ '/' ∧ c ≠ '?' ∧ c ≠ '!' := by
  refine ⟨?_, ?_, ?_, ?_, ?_⟩
  · cases hspace : isSpace c with
    | false => rfl
    | true =>
      simp only [isSpace, Bool.or_eq_true, beq_iff_eq] at hspace
      rcases hspace with ((rfl | rfl) | rfl) | rfl <;> revert h <;> decide
  all_goals
    rintro rfl
    revert h
    decide

/-- A name is not empty, and its first character is a name character. -/
theorem WellNamed.exists_cons (h : WellNamed name) :
    ∃ c cs, name.toList = c :: cs ∧ isNameChar c = true := by
  obtain ⟨hall, hrun⟩ := h
  cases hname : name.toList with
  | nil =>
    rw [hname] at hrun
    exact absurd hrun (by decide)
  | cons c cs =>
    rw [hname] at hall
    exact ⟨c, cs, rfl, List.all_eq_true.1 hall c List.mem_cons_self⟩

/-- A name ends before a character that is no name character. -/
theorem WellNamed.read?_append (h : WellNamed name) {c : Char} (hc : isNameChar c = false) :
    QName.read? (name.toList ++ c :: rest) = some (QName.ofName name, c :: rest) := by
  have hall := List.all_eq_true.1 h.1
  have hstop : ¬ isNameChar c = true := by simp [hc]
  have htake : (name.toList ++ c :: rest).takeWhile isNameChar = name.toList := by
    rw [List.takeWhile_append_of_pos hall, List.takeWhile_cons_of_neg hstop, List.append_nil]
  have hdrop : (name.toList ++ c :: rest).dropWhile isNameChar = c :: rest := by
    rw [List.dropWhile_append_of_pos hall, List.dropWhile_cons_of_neg hstop]
  obtain ⟨qname, hrun⟩ := Option.isSome_iff_exists.1 h.2
  rw [QName.read?, htake, hdrop, QName.ofName, hrun]
  rfl

theorem skipSpace_of_not_isSpace {c : Char} (h : isSpace c = false) :
    skipSpace (c :: rest) = c :: rest :=
  List.dropWhile_cons_of_neg (by simp [h])

theorem WellNamed.skipSpace (h : WellNamed name) :
    skipSpace (name.toList ++ rest) = name.toList ++ rest := by
  obtain ⟨c, cs, hname, hc⟩ := h.exists_cons
  rw [hname, List.cons_append, skipSpace_of_not_isSpace (isSpace_of_isNameChar hc).1]

/-! ### Attributes -/

/-- An attribute as the reader finds it after it was written. -/
def RawAttribute.ofPair (pair : String × String) : RawAttribute :=
  { name := QName.ofName pair.1, value := escape pair.2.toList }

/-- The names of attributes are names, and their values are allowed. -/
def AttributesFit (attributes : List (String × String)) : Prop :=
  ∀ pair ∈ attributes, WellNamed pair.1 ∧ Allowed pair.2

/-- A value in double quotes that holds neither a double quote nor the mark that opens a tag. -/
theorem quoted?_append {data : List Char}
    (h : ∀ c ∈ data, c ≠ '<' ∧ c ≠ '\x22' ∧ isAllowed c = true) :
    quoted? ('\x22' :: (data ++ '\x22' :: rest)) = some (data, rest) := by
  have hpos : ∀ c ∈ data, (c ≠ '\x22' && c ≠ '<') = true := by
    intro c hc
    obtain ⟨hlt, hquote, -⟩ := h c hc
    simp [hlt, hquote]
  have htake : (data ++ '\x22' :: rest).takeWhile (fun c => c ≠ '\x22' && c ≠ '<') = data := by
    rw [List.takeWhile_append_of_pos hpos, List.takeWhile_cons_of_neg (by simp), List.append_nil]
  have hdrop : (data ++ '\x22' :: rest).dropWhile (fun c => c ≠ '\x22' && c ≠ '<') =
      '\x22' :: rest := by
    rw [List.dropWhile_append_of_pos hpos, List.dropWhile_cons_of_neg (by simp)]
  have hall : data.all isAllowed = true := List.all_eq_true.2 fun c hc => (h c hc).2.2
  rw [quoted?, if_pos (Or.inl rfl), htake, hdrop]
  simp [hall]

/-- An attribute is read up to the quote that ends its value. -/
theorem readAttribute?_append {data : List Char} (rest : List Char) (hname : WellNamed name)
    (hdata : ∀ c ∈ data, c ≠ '<' ∧ c ≠ '\x22' ∧ isAllowed c = true) :
    RawAttribute.read? (name.toList ++ '=' :: '\x22' :: (data ++ '\x22' :: rest)) =
      some ({ name := QName.ofName name, value := data }, rest) := by
  have hequals : isSpace '=' = false := by decide
  have hquote : isSpace '\x22' = false := by decide
  rw [RawAttribute.read?, hname.read?_append (by decide)]
  simp only [skipSpace_of_not_isSpace hequals, skipSpace_of_not_isSpace hquote,
    quoted?_append hdata, Option.map_some]

theorem writeAttributes_cons (pair : String × String) (others : List (String × String)) :
    Piece.writeAttributes (pair :: others) ++ rest =
      ' ' :: (pair.1.toList ++ '=' :: '\x22' ::
        (escape pair.2.toList ++ '\x22' :: (Piece.writeAttributes others ++ rest))) := by
  simp [Piece.writeAttributes]

/-- What is left of a tag after its name is read back, whatever follows the tag. -/
theorem tagEnd?_writeAttributes {attributes : List (String × String)} (h : AttributesFit attributes)
    {tail : List Char} {closed : Bool} (htail : tagEnd? tail = some ([], closed, rest)) :
    tagEnd? (Piece.writeAttributes attributes ++ tail) =
      some (attributes.map RawAttribute.ofPair, closed, rest) := by
  induction attributes with
  | nil => simpa [Piece.writeAttributes] using htail
  | cons pair others ih =>
    obtain ⟨⟨hname, hvalue⟩, hothers⟩ := List.forall_mem_cons.1 h
    have hdata : ∀ c ∈ escape pair.2.toList, c ≠ '<' ∧ c ≠ '\x22' ∧ isAllowed c = true :=
      fun c hc => ⟨(mem_escape hc).1, (mem_escape hc).2.2.1, hvalue.of_mem_escape hc⟩
    rw [writeAttributes_cons, tagEnd?]
    have hskip : ∀ cs, skipSpace (' ' :: (pair.1.toList ++ cs)) = pair.1.toList ++ cs :=
      fun cs => (List.dropWhile_cons_of_pos (by decide)).trans hname.skipSpace
    have hread := readAttribute?_append (Piece.writeAttributes others ++ tail) hname hdata
    obtain ⟨c, cs, hcons, hc⟩ := hname.exists_cons
    obtain ⟨-, hgt, hslash, -, -⟩ := isSpace_of_isNameChar hc
    rw [hskip]
    split
    next heq => simp [hcons, hgt] at heq
    next heq => simp [hcons, hslash] at heq
    next =>
      rw [if_pos (by simp)]
      split
      next heq => simp [hread] at heq
      next a rest' heq =>
        obtain ⟨rfl, rfl⟩ := Prod.mk.inj (Option.some.inj (hread.symm.trans heq))
        rw [ih hothers]
        rfl

theorem tagEnd?_open : tagEnd? ('>' :: rest) = some ([], false, rest) := by
  rw [tagEnd?, skipSpace_of_not_isSpace (by decide)]
  rfl

theorem tagEnd?_closed : tagEnd? ('/' :: '>' :: rest) = some ([], true, rest) := by
  rw [tagEnd?, skipSpace_of_not_isSpace (by decide)]
  rfl

/-! ### Marks -/

theorem tokens?_of_next? {cs : List Char} {token : Token} (hne : cs ≠ [])
    (h : Token.next? cs = some (token, rest)) : tokens? cs = (tokens? rest).map (token :: ·) := by
  cases cs with
  | nil => exact absurd rfl hne
  | cons c cs =>
    rw [tokens?]
    split
    next heq => simp [h] at heq
    next heq =>
      obtain ⟨rfl, rfl⟩ := Prod.mk.inj (Option.some.inj (h.symm.trans heq))
      rfl

/-- A tag begins with a name, so that it is no closing tag, remark or section. -/
theorem WellNamed.next?_eq (h : WellNamed name) :
    Token.next? ('<' :: (name.toList ++ rest)) = Token.openingTag? (name.toList ++ rest) := by
  obtain ⟨c, cs, hcons, hc⟩ := h.exists_cons
  obtain ⟨-, -, hslash, hquestion, hbang⟩ := isSpace_of_isNameChar hc
  rw [hcons, List.cons_append]
  unfold Token.next?
  split <;> simp_all

theorem openingTag?_append (hname : WellNamed name) {attributes : List (String × String)}
    (h : AttributesFit attributes) {tail : List Char} {closed : Bool} {c : Char} {cs : List Char}
    (hcons : Piece.writeAttributes attributes ++ tail = c :: cs) (hc : isNameChar c = false)
    (htail : tagEnd? tail = some ([], closed, rest)) :
    Token.openingTag? (name.toList ++ (Piece.writeAttributes attributes ++ tail)) =
      some (.opening (QName.ofName name) (attributes.map RawAttribute.ofPair) closed, rest) := by
  have hend := tagEnd?_writeAttributes h htail
  rw [hcons] at hend ⊢
  simp only [Token.openingTag?, hname.read?_append hc, hend, Option.map_some]

/-- After the name of a tag there is a space or the end of the tag. -/
theorem writeAttributes_append_eq_cons (attributes : List (String × String)) {c : Char}
    (hc : isNameChar c = false) (cs : List Char) :
    ∃ d ds, Piece.writeAttributes attributes ++ c :: cs = d :: ds ∧ isNameChar d = false := by
  cases attributes with
  | nil => exact ⟨c, cs, rfl, hc⟩
  | cons pair others =>
    rw [writeAttributes_cons]
    exact ⟨' ', _, rfl, by decide⟩

theorem write_openTag_append (attributes : List (String × String)) :
    (Piece.openTag name attributes).write ++ rest =
      '<' :: (name.toList ++ (Piece.writeAttributes attributes ++ '>' :: rest)) := by
  show '<' :: name.toList ++ Piece.writeAttributes attributes ++ ['>'] ++ rest = _
  simp only [List.cons_append, List.append_assoc, List.nil_append]

theorem write_emptyTag_append (attributes : List (String × String)) :
    (Piece.emptyTag name attributes).write ++ rest =
      '<' :: (name.toList ++ (Piece.writeAttributes attributes ++ '/' :: '>' :: rest)) := by
  show '<' :: name.toList ++ Piece.writeAttributes attributes ++ ['/', '>'] ++ rest = _
  simp only [List.cons_append, List.append_assoc, List.nil_append]

theorem write_text (content : String) : (Piece.text content).write = escape content.toList :=
  rfl

theorem write_closeTag_append :
    (Piece.closeTag name).write ++ rest = '<' :: '/' :: (name.toList ++ '>' :: rest) := by
  show '<' :: '/' :: name.toList ++ ['>'] ++ rest = _
  simp only [List.cons_append, List.append_assoc, List.nil_append]

theorem tokens?_openTag (rest : List Char) (hname : WellNamed name)
    {attributes : List (String × String)} (h : AttributesFit attributes) :
    tokens? ((Piece.openTag name attributes).write ++ rest) =
      (tokens? rest).map
        (.opening (QName.ofName name) (attributes.map RawAttribute.ofPair) false :: ·) := by
  obtain ⟨c, cs, hcons, hc⟩ := writeAttributes_append_eq_cons attributes
    (show isNameChar '>' = false by decide) rest
  rw [write_openTag_append]
  refine tokens?_of_next? (List.cons_ne_nil _ _) ?_
  rw [hname.next?_eq]
  exact openingTag?_append hname h hcons hc tagEnd?_open

theorem tokens?_emptyTag (rest : List Char) (hname : WellNamed name)
    {attributes : List (String × String)} (h : AttributesFit attributes) :
    tokens? ((Piece.emptyTag name attributes).write ++ rest) =
      (tokens? rest).map
        (.opening (QName.ofName name) (attributes.map RawAttribute.ofPair) true :: ·) := by
  obtain ⟨c, cs, hcons, hc⟩ := writeAttributes_append_eq_cons attributes
    (show isNameChar '/' = false by decide) ('>' :: rest)
  rw [write_emptyTag_append]
  refine tokens?_of_next? (List.cons_ne_nil _ _) ?_
  rw [hname.next?_eq]
  exact openingTag?_append hname h hcons hc tagEnd?_closed

theorem tokens?_closeTag (rest : List Char) (hname : WellNamed name) :
    tokens? ((Piece.closeTag name).write ++ rest) =
      (tokens? rest).map (.closing (QName.ofName name) :: ·) := by
  have hread : QName.read? (name.toList ++ '>' :: rest) = some (QName.ofName name, '>' :: rest) :=
    hname.read?_append (by decide)
  rw [write_closeTag_append]
  refine tokens?_of_next? (List.cons_ne_nil _ _) ?_
  simp only [Token.next?, Token.closingTag?, hread,
    skipSpace_of_not_isSpace (show isSpace '>' = false by decide)]

/-! ### Runs of text -/

/-- A text without the mark that closes a tag does not hold the end of a section. -/
theorem occursIn_sectionEnd {data : List Char} (h : ∀ c ∈ data, c ≠ '>') :
    Token.occursIn "]]>".toList data = false := by
  rw [Token.occursIn, Option.isSome_eq_false_iff, Option.isNone_iff_eq_none,
    Option.eq_none_iff_forall_ne_some]
  rintro ⟨before, behind⟩ hsplit
  refine h '>' ?_ rfl
  rw [Text.eq_of_splitAt? hsplit]
  simp

/-- A run of text ends before the next tag. -/
theorem tokens?_text {data : List Char} (hne : data ≠ [])
    (h : ∀ c ∈ data, c ≠ '<' ∧ c ≠ '>' ∧ isAllowed c = true) :
    tokens? (data ++ '<' :: rest) = (tokens? ('<' :: rest)).map (.text data :: ·) := by
  refine tokens?_of_next? (by simp) ?_
  have hpos : ∀ c ∈ data, decide (c ≠ '<') = true := fun c hc => by simp [(h c hc).1]
  have htake : (data ++ '<' :: rest).takeWhile (fun c => decide (c ≠ '<')) = data := by
    rw [List.takeWhile_append_of_pos hpos, List.takeWhile_cons_of_neg (by simp), List.append_nil]
  have hdrop : (data ++ '<' :: rest).dropWhile (fun c => decide (c ≠ '<')) = '<' :: rest := by
    rw [List.dropWhile_append_of_pos hpos, List.dropWhile_cons_of_neg (by simp)]
  have hrun : Token.textRun? (data ++ '<' :: rest) = some (.text data, '<' :: rest) := by
    rw [Token.textRun?, htake]
    have hall : data.all isAllowed = true := List.all_eq_true.2 fun c hc => (h c hc).2.2
    rw [hall, occursIn_sectionEnd fun c hc => (h c hc).2.1, hdrop]
    rfl
  rw [← hrun]
  obtain ⟨c, cs, rfl⟩ := List.exists_cons_of_ne_nil hne
  have hc : c ≠ '<' := (h c List.mem_cons_self).1
  unfold Token.next?
  split <;> simp_all

end Eaf.Xml

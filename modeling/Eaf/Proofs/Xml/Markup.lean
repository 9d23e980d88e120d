import Eaf.Proofs.Xml.Mark

/-!
# Documents to be written as trees

The pieces of a document nest: every opening tag has its closing tag, and between them stand either
a text or further elements. A document of this shape is a tree, and its pieces, their layout and
the marks that the reader finds in it follow the tree. Line breaks and indentation become runs of
text between the tags.

## Main definitions

* `Eaf.Xml.Markup` — an element to be written.
* `Eaf.Xml.Markup.pieces`, `Eaf.Xml.Markup.tokens` — its pieces, and the marks that are read.
* `Eaf.Xml.Markup.Fits` — elements whose names are plain names and whose texts are allowed.

## Main results

* `Eaf.Xml.Markup.tokens?_layout` — the marks of an element that is written.
-/

namespace Eaf.Xml

/-- The attributes of a tag; other pieces have none. -/
def Piece.attributes : Piece → List (String × String)
  | openTag _ attributes => attributes
  | emptyTag _ attributes => attributes
  | _ => []

/-- An element to be written. -/
inductive Markup
  /-- An element without content, written as one tag. -/
  | bare (name : String) (attributes : List (String × String))
  /-- An element that holds a text. -/
  | labelled (name : String) (attributes : List (String × String)) (content : String)
  /-- An element that holds further elements. -/
  | enclosing (name : String) (attributes : List (String × String)) (children : List Markup)

/-- A name without a qualifier. -/
def PlainName (name : String) : Prop :=
  WellNamed name ∧ QName.ofName name = { qualifier := [], localName := name.toList }

instance (name : String) : Decidable (PlainName name) :=
  inferInstanceAs (Decidable (_ ∧ _))

/-- A tag whose names are plain, declare no namespace and are distinct, with allowed values. -/
structure TagFits (name : String) (attributes : List (String × String)) : Prop where
  name : PlainName name
  names : ∀ pair ∈ attributes, PlainName pair.1 ∧ pair.1 ≠ "xmlns"
  distinct : (attributes.map Prod.fst).Nodup
  values : ∀ pair ∈ attributes, Allowed pair.2

theorem TagFits.attributesFit {name : String} {attributes : List (String × String)}
    (h : TagFits name attributes) : AttributesFit attributes :=
  fun pair hpair => ⟨(h.names pair hpair).1.1, h.values pair hpair⟩

/-! ### Gaps -/

/-- A line break and the indentation of a depth. -/
def lineBreak (indent depth : Nat) : List Char :=
  '\n' :: List.replicate (indent * depth) ' '

/-- The run of text before a tag at some depth. -/
def gapTokens (indent depth : Nat) : List Token :=
  if indent = 0 then [] else [.text (lineBreak indent depth)]

theorem mem_lineBreak {indent depth : Nat} {c : Char} (h : c ∈ lineBreak indent depth) :
    c = '\n' ∨ c = ' ' :=
  (List.mem_cons.1 h).imp_right List.eq_of_mem_replicate

/-- What stands before a tag is one run of text, or nothing without an indent. -/
theorem tokens?_gap (indent depth : Nat) (rest : List Char) :
    tokens? ((if indent = 0 then [] else lineBreak indent depth) ++ '<' :: rest) =
      (tokens? ('<' :: rest)).map (gapTokens indent depth ++ ·) := by
  unfold gapTokens
  split
  · simp
  · refine tokens?_text (List.cons_ne_nil _ _) fun c hc => ?_
    rcases mem_lineBreak hc with rfl | rfl <;> decide

namespace Markup

/-! ### Pieces and marks -/

mutual

/-- The pieces of an element. -/
def pieces : Markup → List Piece
  | bare name attributes => [.emptyTag name attributes]
  | labelled name attributes content =>
    [.openTag name attributes, .text content, .closeTag name]
  | enclosing name attributes children =>
    .openTag name attributes :: (piecesOf children ++ [.closeTag name])

/-- The pieces of a list of elements. -/
def piecesOf : List Markup → List Piece
  | [] => []
  | markup :: others => markup.pieces ++ piecesOf others

end

mutual

/-- Names and texts of an element can be written so that they can be read. -/
def Fits : Markup → Prop
  | bare name attributes => TagFits name attributes
  | labelled name attributes content => TagFits name attributes ∧ Allowed content
  | enclosing name attributes children => TagFits name attributes ∧ FitsAll children

/-- The elements of a list can all be written so that they can be read. -/
def FitsAll : List Markup → Prop
  | [] => True
  | markup :: others => markup.Fits ∧ FitsAll others

end

theorem fitsAll_iff {elements : List Markup} : FitsAll elements ↔ ∀ m ∈ elements, m.Fits := by
  induction elements with
  | nil => simp [FitsAll]
  | cons markup others ih => simp [FitsAll, ih]

/-- The mark of the tag that opens an element. -/
def openMark (name : String) (attributes : List (String × String)) (closed : Bool) : Token :=
  .opening (QName.ofName name) (attributes.map RawAttribute.ofPair) closed

/-- The run of a text, which is none if the text is empty. -/
def textTokens (content : String) : List Token :=
  if content = "" then [] else [.text (escape content.toList)]

mutual

/-- The marks that the reader finds for an element at some depth, with the run of text before it. -/
def tokens (indent depth : Nat) : Markup → List Token
  | bare name attributes => gapTokens indent depth ++ [openMark name attributes true]
  | labelled name attributes content =>
    gapTokens indent depth ++ openMark name attributes false ::
      (textTokens content ++ [.closing (QName.ofName name)])
  | enclosing name attributes children =>
    gapTokens indent depth ++ openMark name attributes false ::
      (tokensOf indent (depth + 1) children ++
        (gapTokens indent depth ++ [.closing (QName.ofName name)]))

/-- The marks that the reader finds for a list of elements at some depth. -/
def tokensOf (indent depth : Nat) : List Markup → List Token
  | [] => []
  | markup :: others => markup.tokens indent depth ++ tokensOf indent depth others

end

/-! ### The marks of a layout -/

variable {indent depth : Nat} {name : String} {attributes : List (String × String)}
  {more : List Piece}

theorem tokens?_layout_openTag (h : WellNamed name) (hattributes : AttributesFit attributes) :
    tokens? (Piece.layout indent depth true (.openTag name attributes :: more)) =
      (tokens? (Piece.layout indent (depth + 1) true more)).map
        (gapTokens indent depth ++ openMark name attributes false :: ·) := by
  have hread := tokens?_openTag (Piece.layout indent (depth + 1) true more) h hattributes
  have hgap : (Piece.openTag name attributes).gap indent depth true =
      if indent = 0 then [] else lineBreak indent depth := by
    simp [Piece.gap, Piece.isText, Piece.closes, lineBreak]
  rw [write_openTag_append] at hread
  rw [Piece.layout, List.append_assoc, hgap, write_openTag_append, tokens?_gap]
  refine (congrArg _ hread).trans ?_
  rw [Option.map_map]
  rfl

theorem tokens?_layout_emptyTag (h : WellNamed name) (hattributes : AttributesFit attributes) :
    tokens? (Piece.layout indent depth true (.emptyTag name attributes :: more)) =
      (tokens? (Piece.layout indent depth true more)).map
        (gapTokens indent depth ++ openMark name attributes true :: ·) := by
  have hread := tokens?_emptyTag (Piece.layout indent depth true more) h hattributes
  have hgap : (Piece.emptyTag name attributes).gap indent depth true =
      if indent = 0 then [] else lineBreak indent depth := by
    simp [Piece.gap, Piece.isText, Piece.closes, lineBreak]
  rw [write_emptyTag_append] at hread
  rw [Piece.layout, List.append_assoc, hgap, write_emptyTag_append, tokens?_gap]
  refine (congrArg _ hread).trans ?_
  rw [Option.map_map]
  rfl

theorem tokens?_layout_closeTag (h : WellNamed name) :
    tokens? (Piece.layout indent (depth + 1) true (.closeTag name :: more)) =
      (tokens? (Piece.layout indent depth true more)).map
        (gapTokens indent depth ++ .closing (QName.ofName name) :: ·) := by
  have hread := tokens?_closeTag (Piece.layout indent depth true more) h
  have hgap : (Piece.closeTag name).gap indent (depth + 1) true =
      if indent = 0 then [] else lineBreak indent depth := by
    simp [Piece.gap, Piece.isText, Piece.closes, lineBreak]
  rw [write_closeTag_append] at hread
  rw [Piece.layout, List.append_assoc, hgap, write_closeTag_append, tokens?_gap]
  refine (congrArg _ hread).trans ?_
  rw [Option.map_map]
  rfl

/-- A text and the closing tag behind it, between which nothing stands. -/
theorem tokens?_layout_text {content : String} (h : WellNamed name) (hcontent : Allowed content) :
    tokens? (Piece.layout indent (depth + 1) true (.text content :: .closeTag name :: more)) =
      (tokens? (Piece.layout indent depth true more)).map
        (textTokens content ++ .closing (QName.ofName name) :: ·) := by
  have hread := tokens?_closeTag (Piece.layout indent depth true more) h
  have hlayout : Piece.layout indent (depth + 1) true (.text content :: .closeTag name :: more) =
      escape content.toList ++
        ((Piece.closeTag name).write ++ Piece.layout indent depth true more) := by
    simp [Piece.layout, Piece.gap, Piece.isText, Piece.depthAfter, write_text]
  rw [hlayout]
  unfold textTokens
  split
  next hempty =>
    rw [hempty]
    exact hread
  next hne =>
    rw [write_closeTag_append] at hread ⊢
    have hescape : escape content.toList ≠ [] := by
      rw [ne_eq, escape_eq_nil_iff]
      simpa using hne
    rw [tokens?_text hescape fun c hc =>
      ⟨(mem_escape hc).1, (mem_escape hc).2.1, hcontent.of_mem_escape hc⟩, hread, Option.map_map]
    rfl

mutual

/-- The marks of a layout that begins with an element are those of the element and those of what
follows. -/
theorem tokens?_layout (indent depth : Nat) (more : List Piece) :
    (markup : Markup) → markup.Fits →
      tokens? (Piece.layout indent depth true (markup.pieces ++ more)) =
        (tokens? (Piece.layout indent depth true more)).map (markup.tokens indent depth ++ ·)
  | bare name attributes, h => by
    rw [pieces, List.singleton_append, tokens?_layout_emptyTag h.name.1 h.attributesFit]
    simp only [tokens, List.append_assoc, List.singleton_append]
  | labelled name attributes content, h => by
    rw [pieces, List.cons_append, List.cons_append, List.cons_append, List.nil_append,
      tokens?_layout_openTag h.1.name.1 h.1.attributesFit, tokens?_layout_text h.1.name.1 h.2,
      Option.map_map]
    simp [tokens, Function.comp_def]
  | enclosing name attributes children, h => by
    rw [pieces, List.cons_append, List.append_assoc, List.singleton_append,
      tokens?_layout_openTag h.1.name.1 h.1.attributesFit,
      tokens?_layoutOf indent (depth + 1) _ children h.2, tokens?_layout_closeTag h.1.name.1,
      Option.map_map, Option.map_map]
    simp [tokens, Function.comp_def]

/-- The marks of a layout that begins with a list of elements. -/
theorem tokens?_layoutOf (indent depth : Nat) (more : List Piece) :
    (elements : List Markup) → FitsAll elements →
      tokens? (Piece.layout indent depth true (piecesOf elements ++ more)) =
        (tokens? (Piece.layout indent depth true more)).map (tokensOf indent depth elements ++ ·)
  | [], _ => by simp [piecesOf, tokensOf]
  | markup :: others, h => by
    rw [piecesOf, List.append_assoc, tokens?_layout indent depth _ markup h.1,
      tokens?_layoutOf indent depth more others h.2, Option.map_map]
    simp [tokensOf, Function.comp_def]

end

end Markup

end Eaf.Xml

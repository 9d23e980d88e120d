import Eaf.Proofs.Xml.Markup
import Eaf.Xml.Tree

/-!
# The tree of a document that was written

Reading what was written builds the tree that was written: each element with its name, with its
attributes as their values read back, and with its content. Line breaks and indentation come back
as texts between the elements.

## Main definitions

* `Eaf.Xml.rereadAttributes` — the attributes of a tag after they were written and read.
* `Eaf.Xml.Markup.node` — the node of an element after it was written and read.

## Main results

* `Eaf.Xml.resolve?_ofPairs` — a tag whose names are plain keeps the scope.
* `Eaf.Xml.Markup.foldlM_tokens` — the marks of an element build its node.
* `Eaf.Xml.read?_write` — the tree of a document that was written.
-/

namespace Eaf.Xml

/-- The attributes of a tag after they were written and read. -/
def rereadAttributes (attributes : List (String × String)) : List Attribute :=
  attributes.map fun pair => { name := pair.1, value := rereadValue pair.2 }

/-! ### Tags -/

variable {name : String} {attributes : List (String × String)} {scope : Scope}

/-- Attributes with plain names that declare no namespace are kept in their order. -/
theorem foldlM_add? (h : ∀ pair ∈ attributes, PlainName pair.1 ∧ pair.1 ≠ "xmlns")
    (declared : Declared) :
    (attributes.map RawAttribute.ofPair).foldlM
        (fun declared a => (decodeValue? a.value).bind fun value => declared.add? a.name value)
        declared =
      some { declared with
        others := declared.others ++
          attributes.map fun pair => (QName.ofName pair.1, (rereadValue pair.2).toList) } := by
  induction attributes generalizing declared with
  | nil => simp
  | cons pair attributes ih =>
    obtain ⟨⟨⟨-, hplain⟩, hname⟩, hrest⟩ := List.forall_mem_cons.1 h
    have hdeclares : pair.1.toList ≠ declarationName := fun heq => hname (String.toList_inj.1 heq)
    have hadd : declared.add? (QName.ofName pair.1) (rereadValue pair.2).toList =
        some { declared with
          others := declared.others ++ [(QName.ofName pair.1, (rereadValue pair.2).toList)] } := by
      have hqualifier : ([] : List Char) ≠ declarationName := by decide
      rw [Declared.add?, hplain, if_neg hqualifier, if_neg hdeclares]
    rw [List.map_cons, List.foldlM_cons, RawAttribute.ofPair, decodeValue?_escape,
      Option.bind_some, hadd]
    refine (ih hrest _).trans ?_
    simp

/-- Attributes with plain and distinct names have no namespace. -/
theorem attributes?_ofPairs (h : ∀ pair ∈ attributes, PlainName pair.1)
    (hdistinct : (attributes.map Prod.fst).Nodup) :
    scope.attributes? (attributes.map fun pair =>
      (QName.ofName pair.1, (rereadValue pair.2).toList)) = some (rereadAttributes attributes) := by
  induction attributes with
  | nil => rfl
  | cons pair attributes ih =>
    obtain ⟨⟨-, hplain⟩, hrest⟩ := List.forall_mem_cons.1 h
    obtain ⟨hnew, hdistinct⟩ := List.nodup_cons.1 hdistinct
    have hspace : scope.attributeSpace? (QName.ofName pair.1) = some none := by
      rw [Scope.attributeSpace?, if_pos (by rw [hplain])]
    have hfree : (rereadAttributes attributes).any (fun a => a.space == none &&
        a.name == String.ofList (QName.ofName pair.1).localName) = false := by
      rw [List.any_eq_false]
      intro a ha
      obtain ⟨other, hother, rfl⟩ := List.mem_map.1 ha
      have hne : other.1 ≠ pair.1 := fun heq => hnew (heq ▸ List.mem_map_of_mem hother)
      simp [hplain, hne]
    rw [List.map_cons, Scope.attributes?, hspace, ih hrest hdistinct]
    dsimp only
    rw [hfree]
    simp [rereadAttributes, hplain]

/-- A tag whose names are plain keeps the scope. -/
theorem resolve?_ofPairs (scope : Scope) (h : TagFits name attributes) :
    resolve? scope (QName.ofName name) (attributes.map RawAttribute.ofPair) =
      some (rereadAttributes attributes, scope) := by
  have hadmits : scope.admits (QName.ofName name) = true := by
    simp [Scope.admits, h.name.2, declarationName]
  rw [resolve?, Declared.ofAttributes?, foldlM_add? h.names, Option.bind_some]
  dsimp only
  rw [List.nil_append, List.nil_append, if_pos hadmits,
    attributes?_ofPairs (fun pair hpair => (h.names pair hpair).1) h.distinct]
  rfl

/-! ### Frames -/

namespace Frame

/-- A frame with more children. -/
def add (frame : Frame) (nodes : List Node) : Frame :=
  { frame with children := nodes.reverse ++ frame.children }

/-- A frame whose last child is no text, so that a text does not join it. -/
def Settled (frame : Frame) : Prop :=
  ∀ content rest, frame.children ≠ .text content :: rest

variable {frame : Frame}

@[simp] theorem add_nil : frame.add [] = frame :=
  rfl

@[simp] theorem add_add (nodes more : List Node) :
    (frame.add nodes).add more = frame.add (nodes ++ more) := by
  simp [add]

@[simp] theorem add_scope (nodes : List Node) : (frame.add nodes).scope = frame.scope :=
  rfl

theorem push_eq_add (node : Node) : frame.push node = frame.add [node] :=
  rfl

theorem Settled.pushText (h : frame.Settled) (content : List Char) :
    frame.pushText content = frame.add [.text (String.ofList content)] := by
  unfold Frame.pushText
  split
  next heq => exact absurd heq (h _ _)
  next => rfl

theorem settled_add_element (name : String) (attributes : List Attribute)
    (children nodes : List Node) :
    (frame.add (nodes ++ [.element name attributes children])).Settled := by
  intro content rest
  simp [add]

end Frame

/-! ### Nodes of what was written -/

/-- The text before a tag at some depth. -/
def gapNodes (indent depth : Nat) : List Node :=
  if indent = 0 then [] else [.text (String.ofList (lineBreak indent depth))]

/-- The children of an element that holds a text. -/
def textNodes (content : String) : List Node :=
  if content = "" then [] else [.text (rereadText content)]

namespace Markup

mutual

/-- The node of an element after it was written at some depth and read. -/
def node (indent depth : Nat) : Markup → Node
  | bare name attributes => .element name (rereadAttributes attributes) []
  | labelled name attributes content =>
    .element name (rereadAttributes attributes) (textNodes content)
  | enclosing name attributes children =>
    .element name (rereadAttributes attributes)
      (nodesOf indent (depth + 1) children ++ gapNodes indent depth)

/-- The nodes of a list of elements and the texts before them. -/
def nodesOf (indent depth : Nat) : List Markup → List Node
  | [] => []
  | markup :: others =>
    gapNodes indent depth ++ markup.node indent depth :: nodesOf indent depth others

end

end Markup

/-! ### Building -/

namespace Builder

variable {frame : Frame} {frames : List Frame} {root : Option Node}

/-- The text before a tag joins no other text. -/
theorem foldlM_gapTokens (h : frame.Settled) (indent depth : Nat) :
    (gapTokens indent depth).foldlM step? { frames := frame :: frames, root } =
      some { frames := frame.add (gapNodes indent depth) :: frames, root } := by
  unfold gapTokens gapNodes
  split
  · rfl
  · have hplain : ∀ c ∈ lineBreak indent depth, isMarkup c = false ∧ c ≠ '\r' := by
      intro c hc
      rcases mem_lineBreak hc with rfl | rfl <;> decide
    have hdecode := decodeText?_escape (String.ofList (lineBreak indent depth))
    rw [rereadText_eq_self fun c hc => (hplain c (by simpa using hc)).2, String.toList_ofList,
      escape_eq_self fun c hc => (hplain c hc).1] at hdecode
    simp [step?, hdecode, h.pushText]

theorem foldlM_textTokens (h : frame.Settled) (content : String) :
    (Markup.textTokens content).foldlM step? { frames := frame :: frames, root } =
      some { frames := frame.add (textNodes content) :: frames, root } := by
  unfold Markup.textTokens textNodes
  split
  · rfl
  · simp [step?, decodeText?_escape, h.pushText]

end Builder

namespace Markup

open Builder

variable {frame : Frame} {frames : List Frame} {root : Option Node}

/-- A tag that opens an element is followed by what stands in the element. -/
theorem foldlM_openMark (h : TagFits name attributes) (tokens : List Token) :
    (openMark name attributes false :: tokens).foldlM step? { frames := frame :: frames, root } =
      tokens.foldlM step?
        { frames :=
            { name := QName.ofName name
              attributes := rereadAttributes attributes
              scope := frame.scope } :: frame :: frames
          root } := by
  rw [List.foldlM_cons, openMark, step?]
  simp [admitsElement, Builder.scope, resolve?_ofPairs frame.scope h]

/-- A tag that closes itself makes a child. -/
theorem foldlM_openMark_closed (h : TagFits name attributes) :
    [openMark name attributes true].foldlM step? { frames := frame :: frames, root } =
      some { frames := frame.add [.element name (rereadAttributes attributes) []] :: frames,
             root } := by
  have hresolve := resolve?_ofPairs frame.scope h
  simp only [List.foldlM_cons, openMark, step?, admitsElement, Builder.scope, hresolve]
  simp [Builder.complete, Frame.close, Frame.push_eq_add, h.name.2]

/-- A tag that closes an element makes it a child of the element around it. -/
theorem foldlM_closing (h : PlainName name) (attributes : List Attribute) (nodes : List Node) :
    [Token.closing (QName.ofName name)].foldlM step?
        { frames :=
            Frame.add { name := QName.ofName name, attributes, scope } nodes :: frame :: frames
          root } =
      some { frames := frame.add [.element name attributes nodes] :: frames, root } := by
  simp [step?, Builder.complete, Frame.close, Frame.add, Frame.push, h.2]

theorem settled_add_node (indent depth : Nat) (nodes : List Node) (markup : Markup) :
    (frame.add (nodes ++ [markup.node indent depth])).Settled := by
  cases markup <;> exact Frame.settled_add_element _ _ _ _

theorem settled_new (name : QName) (attributes : List Attribute) (scope : Scope) :
    Frame.Settled { name, attributes, scope } :=
  nofun

mutual

/-- The marks of an element build its node, behind the text before it. -/
theorem foldlM_tokens (indent depth : Nat) (frames : List Frame) (root : Option Node)
    {frame : Frame} (h : frame.Settled) : (markup : Markup) → markup.Fits →
      (markup.tokens indent depth).foldlM step? { frames := frame :: frames, root } =
        some { frames := frame.add (gapNodes indent depth ++ [markup.node indent depth]) :: frames,
               root }
  | bare name attributes, hfits => by
    rw [tokens, List.foldlM_append, foldlM_gapTokens h, Option.bind_eq_bind, Option.bind_some,
      foldlM_openMark_closed hfits, Frame.add_add, node]
  | labelled name attributes content, hfits => by
    have hnew := settled_new (QName.ofName name) (rereadAttributes attributes) frame.scope
    rw [tokens, List.foldlM_append, foldlM_gapTokens h, Option.bind_eq_bind, Option.bind_some,
      foldlM_openMark hfits.1, List.foldlM_append, Frame.add_scope, foldlM_textTokens hnew,
      Option.bind_eq_bind, Option.bind_some]
    refine (foldlM_closing hfits.1.name _ _).trans ?_
    rw [Frame.add_add, node]
  | enclosing name attributes children, hfits => by
    have hnew := settled_new (QName.ofName name) (rereadAttributes attributes) frame.scope
    obtain ⟨hbuild, hsettled⟩ :=
      foldlM_tokensOf indent (depth + 1) (frame.add (gapNodes indent depth) :: frames) root hnew
        children hfits.2
    rw [tokens, List.foldlM_append, foldlM_gapTokens h, Option.bind_eq_bind, Option.bind_some,
      foldlM_openMark hfits.1, List.foldlM_append, Frame.add_scope, hbuild, Option.bind_eq_bind,
      Option.bind_some, List.foldlM_append, foldlM_gapTokens hsettled, Option.bind_eq_bind,
      Option.bind_some, Frame.add_add]
    refine (foldlM_closing hfits.1.name _ _).trans ?_
    rw [Frame.add_add, node]

/-- The marks of a list of elements build their nodes. -/
theorem foldlM_tokensOf (indent depth : Nat) (frames : List Frame) (root : Option Node)
    {frame : Frame} (h : frame.Settled) : (elements : List Markup) → FitsAll elements →
      (tokensOf indent depth elements).foldlM step? { frames := frame :: frames, root } =
          some { frames := frame.add (nodesOf indent depth elements) :: frames, root } ∧
        (frame.add (nodesOf indent depth elements)).Settled
  | [], _ => ⟨rfl, h⟩
  | markup :: others, hfits => by
    have hnext : (frame.add (gapNodes indent depth ++ [markup.node indent depth])).Settled :=
      settled_add_node indent depth _ markup
    obtain ⟨hbuild, hsettled⟩ := foldlM_tokensOf indent depth frames root hnext others hfits.2
    rw [tokensOf, List.foldlM_append, foldlM_tokens indent depth frames root h markup hfits.1,
      Option.bind_eq_bind, Option.bind_some, hbuild]
    rw [Frame.add_add, List.append_assoc] at hsettled ⊢
    exact ⟨rfl, hsettled⟩

end

end Markup

/-! ### The declaration -/

variable {rest : List Char}

theorem declarationSpace?_cons {c : Char} (h : isSpace c = false) :
    declarationSpace? (' ' :: c :: rest) = some (c :: rest) := by
  have hskip : skipSpace (' ' :: c :: rest) = c :: rest :=
    (List.dropWhile_cons_of_pos (by decide)).trans (skipSpace_of_not_isSpace h)
  rw [declarationSpace?, hskip]
  simp

theorem declarationSpace?_end :
    declarationSpace? ('?' :: '>' :: rest) = some ('?' :: '>' :: rest) := by
  rw [declarationSpace?, skipSpace_of_not_isSpace (by decide)]
  simp [Text.after?]

/-- An attribute of the declaration is skipped. -/
theorem afterAttribute?_append {data : List Char} (hname : WellNamed name)
    (hdata : ∀ c ∈ data, c ≠ '<' ∧ c ≠ '\x22' ∧ isAllowed c = true) :
    afterAttribute? (name.toList ++ '=' :: '\x22' :: (data ++ '\x22' :: rest)) = some rest := by
  rw [afterAttribute?, readAttribute?_append rest hname hdata, Option.map_some]

/-- The declaration that is written is read. -/
theorem afterDeclaration?_write :
    afterDeclaration? (Piece.declaration.write ++ rest) = some rest := by
  let encoding :=
    "encoding".toList ++ '=' :: '\x22' :: ("UTF-8".toList ++ '\x22' :: '?' :: '>' :: rest)
  let version := "version".toList ++ '=' :: '\x22' :: ("1.0".toList ++ '\x22' :: ' ' :: encoding)
  have hwrite : Piece.declaration.write ++ rest = "<?xml ".toList ++ version := rfl
  have hversion : afterAttribute? version = some (' ' :: encoding) :=
    afterAttribute?_append (by decide) (by decide)
  have hencoding : afterAttribute? encoding = some ('?' :: '>' :: rest) :=
    afterAttribute?_append (by decide) (by decide)
  have hspace : declarationSpace? (' ' :: version) = some version :=
    declarationSpace?_cons (by decide)
  have hspace' : declarationSpace? (' ' :: encoding) = some encoding :=
    declarationSpace?_cons (by decide)
  have hopen : Text.after? "<?xml ".toList ("<?xml ".toList ++ version) = some version :=
    Text.after?_eq_some_iff.2 rfl
  have hfirst : (Text.after? "version".toList version).isSome = true := rfl
  have hsecond : (Text.after? "encoding".toList encoding).isSome = true := rfl
  have hthird : (Text.after? "standalone".toList ('?' :: '>' :: rest)).isSome = false := rfl
  have hskip : skipByteOrderMark ("<?xml ".toList ++ version) = "<?xml ".toList ++ version := rfl
  rw [hwrite, afterDeclaration?, hskip, hopen]
  dsimp only
  rw [declaration?, hspace, Option.bind_some, if_pos hfirst, hversion, Option.bind_some, hspace',
    Option.bind_some, afterOptional?, if_pos hsecond, hencoding, Option.bind_some,
    declarationSpace?_end, Option.bind_some, hthird]
  simp [skipSpace_of_not_isSpace (show isSpace '?' = false by decide), Text.after?]

/-! ### Documents -/

/-- What stands before the root element is white space. -/
theorem foldlM_gapTokens_root (indent depth : Nat) :
    (gapTokens indent depth).foldlM Builder.step? {} = some {} := by
  unfold gapTokens
  split
  · rfl
  · have hspace : (lineBreak indent depth).all isSpace = true := by
      refine List.all_eq_true.2 fun c hc => ?_
      rcases mem_lineBreak hc with rfl | rfl <;> decide
    simp [Builder.step?, hspace]

/-- The marks of a document behind its declaration. -/
theorem tokens?_write {indent : Nat} {children : List Markup} (hname : PlainName name)
    (hattributes : AttributesFit attributes) (hchildren : Markup.FitsAll children) :
    (afterDeclaration? (write indent (.declaration ::
        Markup.pieces (.enclosing name attributes children))).toList).bind tokens? =
      some (Markup.tokens indent 0 (.enclosing name attributes children)) := by
  have hlayout : (write indent
      (.declaration :: Markup.pieces (.enclosing name attributes children))).toList =
      Piece.declaration.write ++ Piece.layout indent 0 true
        (.openTag name attributes :: (Markup.piecesOf children ++ [.closeTag name])) := by
    simp [write, Piece.layout, Piece.gap, Piece.isText, Piece.depthAfter, Markup.pieces]
  rw [hlayout, afterDeclaration?_write, Option.bind_some,
    Markup.tokens?_layout_openTag hname.1 hattributes,
    Markup.tokens?_layoutOf indent 1 _ children hchildren, Markup.tokens?_layout_closeTag hname.1,
    Piece.layout, tokens?]
  simp [Markup.tokens]

/-- The marks of a document build its tree. -/
theorem ofTokens?_tokens {indent : Nat} {children : List Markup} {resolved : List Attribute}
    (hname : PlainName name)
    (hresolve : resolve? [] (QName.ofName name) (attributes.map RawAttribute.ofPair) =
      some (resolved, scope)) (hchildren : Markup.FitsAll children) :
    ofTokens? (Markup.tokens indent 0 (.enclosing name attributes children)) =
      some (.element name resolved (Markup.nodesOf indent 1 children ++ gapNodes indent 0)) := by
  have hnew := Markup.settled_new (QName.ofName name) resolved scope
  obtain ⟨hbuild, hsettled⟩ :=
    Markup.foldlM_tokensOf indent 1 [] none hnew children hchildren
  have hopen : ∀ tokens : List Token,
      (Markup.openMark name attributes false :: tokens).foldlM Builder.step? {} =
        tokens.foldlM Builder.step?
          { frames := [{ name := QName.ofName name, attributes := resolved, scope }] } := by
    intro tokens
    rw [List.foldlM_cons, Markup.openMark, Builder.step?]
    simp [Builder.admitsElement, Builder.scope, hresolve]
  rw [ofTokens?, Markup.tokens, List.foldlM_append, foldlM_gapTokens_root, Option.bind_eq_bind,
    Option.bind_some, hopen, List.foldlM_append, hbuild, Option.bind_eq_bind, Option.bind_some,
    List.foldlM_append, Builder.foldlM_gapTokens hsettled, Option.bind_eq_bind, Option.bind_some]
  simp [Builder.step?, Builder.complete, Frame.close, Frame.add, hname.2]

/-- The tree of a document that was written. The root element may declare namespaces. -/
theorem read?_write {indent : Nat} {children : List Markup} {resolved : List Attribute}
    (hname : PlainName name) (hattributes : AttributesFit attributes)
    (hresolve : resolve? [] (QName.ofName name) (attributes.map RawAttribute.ofPair) =
      some (resolved, scope)) (hchildren : Markup.FitsAll children) :
    read? (write indent (.declaration :: Markup.pieces (.enclosing name attributes children))) =
      some (.element name resolved (Markup.nodesOf indent 1 children ++ gapNodes indent 0)) := by
  rw [read?, tokens?_write hname hattributes hchildren, Option.bind_some,
    ofTokens?_tokens hname hresolve hchildren]

end Eaf.Xml

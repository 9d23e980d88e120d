import Eaf.Proofs.Xml.CharacterData
import Eaf.Xml.Tree

/-!
# Documents hold allowed characters only

A text is no document if a character stands in it that may not occur, and a reference to such a
character is refused. So every text and every attribute value in the tree of a document consists of
characters that may occur.

## Main definitions

* `Eaf.Xml.Token.Legible`, `Eaf.Xml.Node.Legible` — marks and nodes that hold allowed characters.

## Main results

* `Eaf.Xml.legible_of_tokens?` — the marks of a text hold allowed characters.
* `Eaf.Xml.legible_of_read?` — so does the tree of a document.
-/

namespace Eaf.Xml

variable {cs rest : List Char} {c d : Char}

/-! ### Character data -/

theorem isAllowed_of_numbered? {n : Nat} (h : numbered? n = some c) : isAllowed c = true := by
  unfold numbered? at h
  obtain ⟨-, h⟩ := Option.ite_none_right_eq_some.1 h
  obtain ⟨hallowed, heq⟩ := Option.ite_none_right_eq_some.1 h
  exact Option.some.inj heq ▸ hallowed

theorem isAllowed_of_named? (h : named? cs = some c) : isAllowed c = true := by
  unfold named? at h
  split at h
  · cases h; decide
  split at h
  · cases h; decide
  split at h
  · cases h; decide
  split at h
  · cases h; decide
  split at h
  · cases h; decide
  · cases h

/-- A reference stands for a character that may occur. -/
theorem isAllowed_of_referred? (h : referred? cs = some c) : isAllowed c = true := by
  unfold referred? at h
  split at h
  · exact isAllowed_of_numbered? (Option.ite_none_right_eq_some.1 h).2
  · exact isAllowed_of_numbered? (Option.ite_none_right_eq_some.1 h).2
  · exact isAllowed_of_named? h

theorem isAllowed_of_reference? (h : reference? cs = some (c, rest)) :
    isAllowed c = true ∧ ∀ d ∈ rest, d ∈ cs := by
  unfold reference? at h
  split at h
  · cases h
  next hdrop =>
    obtain ⟨_, hreferred, heq⟩ := Option.map_eq_some_iff.1 h
    obtain ⟨rfl, rfl⟩ := Prod.mk.inj heq
    refine ⟨isAllowed_of_referred? hreferred, fun d hd => ?_⟩
    refine (List.dropWhile_sublist (· ≠ ';')).subset ?_
    rw [hdrop]
    exact List.mem_cons_of_mem _ hd

/-- Character data that hold allowed characters stand for such. -/
theorem isAllowed_of_units? {units : List Datum} (h : units? cs = some units)
    (hcs : ∀ c ∈ cs, isAllowed c = true) : ∀ u ∈ units, isAllowed u.char = true := by
  fun_induction units? cs generalizing units with
  | case1 =>
    cases h
    exact nofun
  | case2 => cases h
  | case3 cs d rest href ih =>
    obtain ⟨hd, hrest⟩ := isAllowed_of_reference? href
    obtain ⟨others, hothers, rfl⟩ := Option.map_eq_some_iff.1 h
    refine List.forall_mem_cons.2 ⟨hd, ih hothers fun e he => ?_⟩
    exact hcs e (List.mem_cons_of_mem _ (hrest e he))
  | case4 c cs _ ih =>
    obtain ⟨hc, hcs⟩ := List.forall_mem_cons.1 hcs
    obtain ⟨others, hothers, rfl⟩ := Option.map_eq_some_iff.1 h
    exact List.forall_mem_cons.2 ⟨hc, ih hothers hcs⟩

theorem isAllowed_settleLines {units : List Datum} (h : ∀ u ∈ units, isAllowed u.char = true)
    (afterReference : Bool) : ∀ c ∈ settleLines afterReference units, isAllowed c = true := by
  induction units generalizing afterReference with
  | nil => exact nofun
  | cons u us ih =>
    obtain ⟨hu, hus⟩ := List.forall_mem_cons.1 h
    have hreturn : isAllowed '\r' = true := by decide
    have hfeed : isAllowed '\n' = true := by decide
    rw [settleLines.eq_def]
    dsimp only
    split
    · exact List.forall_mem_cons.2 ⟨hu, ih hus true⟩
    · split
      · split
        · split <;> simp [hreturn, hfeed]
        · split
          · exact List.forall_mem_cons.2 ⟨hreturn, ih hus false⟩
          · split
            · exact ih hus false
            · exact List.forall_mem_cons.2 ⟨hfeed, ih hus false⟩
      · exact List.forall_mem_cons.2 ⟨hu, ih hus false⟩

theorem isAllowed_settleValue {units : List Datum} (h : ∀ u ∈ units, isAllowed u.char = true) :
    ∀ c ∈ settleValue units, isAllowed c = true := by
  induction units with
  | nil => exact nofun
  | cons u us ih =>
    obtain ⟨hu, hus⟩ := List.forall_mem_cons.1 h
    have hspace : isAllowed ' ' = true := by decide
    rw [settleValue]
    split
    · exact List.forall_mem_cons.2 ⟨hu, ih hus⟩
    · split
      · exact ih hus
      · split
        · exact List.forall_mem_cons.2 ⟨hspace, ih hus⟩
        · exact List.forall_mem_cons.2 ⟨hu, ih hus⟩

theorem isAllowed_of_decodeText? {content : List Char} (h : decodeText? cs = some content)
    (hcs : ∀ c ∈ cs, isAllowed c = true) : ∀ c ∈ content, isAllowed c = true := by
  obtain ⟨units, hunits, rfl⟩ := Option.map_eq_some_iff.1 h
  exact isAllowed_settleLines (isAllowed_of_units? hunits hcs) false

theorem isAllowed_of_decodeValue? {content : List Char} (h : decodeValue? cs = some content)
    (hcs : ∀ c ∈ cs, isAllowed c = true) : ∀ c ∈ content, isAllowed c = true := by
  obtain ⟨units, hunits, rfl⟩ := Option.map_eq_some_iff.1 h
  exact isAllowed_settleValue (isAllowed_of_units? hunits hcs)

theorem isAllowed_decodeSection (h : ∀ c ∈ cs, isAllowed c = true) :
    ∀ c ∈ decodeSection cs, isAllowed c = true := by
  refine isAllowed_settleLines (fun u hu => ?_) false
  obtain ⟨c, hc, rfl⟩ := List.mem_map.1 hu
  exact h c hc

/-! ### Marks -/

/-- The values of a list of attributes hold allowed characters only. -/
def LegibleAttributes (attributes : List RawAttribute) : Prop :=
  ∀ a ∈ attributes, ∀ c ∈ a.value, isAllowed c = true

/-- A mark holds allowed characters only. -/
def Token.Legible : Token → Prop
  | opening _ attributes _ => LegibleAttributes attributes
  | text data => ∀ c ∈ data, isAllowed c = true
  | unmarked data => ∀ c ∈ data, isAllowed c = true
  | closing _ => True
  | remark => True

theorem isAllowed_of_quoted? {value : List Char} (h : quoted? cs = some (value, rest)) :
    ∀ c ∈ value, isAllowed c = true := by
  unfold quoted? at h
  split at h
  · cases h
  · split at h
    · dsimp only at h
      split at h
      · obtain ⟨⟨_, hall⟩, heq⟩ := Option.ite_none_right_eq_some.1 h
        obtain ⟨rfl, -⟩ := Prod.mk.inj (Option.some.inj heq)
        exact List.all_eq_true.1 hall
      · cases h
    · cases h

theorem isAllowed_of_readAttribute? {a : RawAttribute}
    (h : RawAttribute.read? cs = some (a, rest)) : ∀ c ∈ a.value, isAllowed c = true := by
  unfold RawAttribute.read? at h
  split at h
  · cases h
  · split at h
    · obtain ⟨_, hquoted, heq⟩ := Option.map_eq_some_iff.1 h
      obtain ⟨rfl, -⟩ := Prod.mk.inj heq
      exact isAllowed_of_quoted? hquoted
    · cases h

theorem legibleAttributes_of_tagEnd? {attributes : List RawAttribute} {closed : Bool}
    (h : tagEnd? cs = some (attributes, closed, rest)) : LegibleAttributes attributes := by
  fun_induction tagEnd? cs generalizing attributes with
  | case1 =>
    cases h
    exact List.forall_mem_nil _
  | case2 =>
    cases h
    exact List.forall_mem_nil _
  | case3 => cases h
  | case4 _ _ _ _ _ _ hread ih =>
    simp only [Option.map_eq_some_iff, Prod.mk.injEq, Prod.exists] at h
    obtain ⟨others, _, _, hothers, rfl, rfl, rfl⟩ := h
    exact List.forall_mem_cons.2 ⟨isAllowed_of_readAttribute? hread, ih hothers⟩
  | case5 => cases h

namespace Token

variable {token : Token}

theorem legible_of_closingTag? (h : closingTag? cs = some (token, rest)) : token.Legible := by
  unfold closingTag? at h
  split at h
  · cases h
  · split at h
    · cases h
      trivial
    · cases h

theorem legible_of_openingTag? (h : openingTag? cs = some (token, rest)) : token.Legible := by
  unfold openingTag? at h
  split at h
  · cases h
  · obtain ⟨_, htag, heq⟩ := Option.map_eq_some_iff.1 h
    obtain ⟨rfl, -⟩ := Prod.mk.inj heq
    exact legibleAttributes_of_tagEnd? htag

theorem legible_of_textRun? (h : textRun? cs = some (token, rest)) : token.Legible := by
  unfold textRun? at h
  obtain ⟨hall, heq⟩ := Option.ite_none_right_eq_some.1 h
  obtain ⟨rfl, -⟩ := Prod.mk.inj (Option.some.inj heq)
  rw [Bool.and_eq_true] at hall
  exact List.all_eq_true.1 hall.1

/-- A mark at the front of a text holds allowed characters only. -/
theorem legible_of_next? (h : next? cs = some (token, rest)) : token.Legible := by
  unfold next? at h
  split at h
  · exact legible_of_closingTag? h
  · obtain ⟨_, -, heq⟩ := Option.map_eq_some_iff.1 h
    obtain ⟨rfl, -⟩ := Prod.mk.inj heq
    trivial
  · obtain ⟨_, -, heq⟩ := Option.map_eq_some_iff.1 h
    obtain ⟨rfl, -⟩ := Prod.mk.inj heq
    trivial
  · obtain ⟨_, -, h⟩ := Option.bind_eq_some_iff.1 h
    obtain ⟨⟨content, _⟩, hsection, heq⟩ := Option.map_eq_some_iff.1 h
    obtain ⟨rfl, -⟩ := Prod.mk.inj heq
    exact List.all_eq_true.1 (Option.filter_eq_some_iff.1 hsection).2
  · exact legible_of_openingTag? h
  · exact legible_of_textRun? h

end Token

/-- The marks of a text hold allowed characters only. -/
theorem legible_of_tokens? {tokens : List Token} (h : tokens? cs = some tokens) :
    ∀ token ∈ tokens, token.Legible := by
  fun_induction tokens? cs generalizing tokens with
  | case1 =>
    cases h
    exact nofun
  | case2 => cases h
  | case3 _ _ _ _ hnext ih =>
    obtain ⟨others, hothers, rfl⟩ := Option.map_eq_some_iff.1 h
    exact List.forall_mem_cons.2 ⟨Token.legible_of_next? hnext, ih hothers⟩

/-! ### Nodes -/

namespace Node

mutual

/-- The texts and the attribute values at and below a node hold allowed characters only. -/
def Legible : Node → Prop
  | element _ attributes children => (∀ a ∈ attributes, Allowed a.value) ∧ LegibleAll children
  | text content => Allowed content
  | remark => True

/-- The nodes of a list and all nodes below them hold allowed characters only. -/
def LegibleAll : List Node → Prop
  | [] => True
  | node :: nodes => node.Legible ∧ LegibleAll nodes

end

theorem legibleAll_iff {nodes : List Node} : LegibleAll nodes ↔ ∀ node ∈ nodes, node.Legible := by
  induction nodes with
  | nil => simp [LegibleAll]
  | cons node nodes ih => simp [LegibleAll, ih]

mutual

/-- What is below a legible node is legible. -/
theorem Legible.of_mem_descendants :
    (node : Node) → node.Legible → ∀ below ∈ node.descendants, below.Legible
  | element _ _ children, h => by
    rw [descendants]
    exact List.forall_mem_cons.2 ⟨h, LegibleAll.of_mem_descendantsOf children h.2⟩
  | text _, h => by
    rw [descendants]
    exact List.forall_mem_singleton.2 h
  | remark, h => by
    rw [descendants]
    exact List.forall_mem_singleton.2 h

theorem LegibleAll.of_mem_descendantsOf :
    (nodes : List Node) → LegibleAll nodes → ∀ below ∈ descendantsOf nodes, below.Legible
  | [], _ => nofun
  | node :: nodes, h => by
    rw [descendantsOf]
    exact List.forall_mem_append.2
      ⟨Legible.of_mem_descendants node h.1, LegibleAll.of_mem_descendantsOf nodes h.2⟩

end

theorem Legible.attribute? {node : Node} (h : node.Legible) {name value : String}
    (hvalue : node.attribute? name = some value) : Allowed value := by
  obtain ⟨a, ha, rfl⟩ := Option.map_eq_some_iff.1 hvalue
  have hmem := List.mem_of_find?_eq_some ha
  cases node with
  | element own attributes children => exact h.1 a hmem
  | text content => cases hmem
  | remark => cases hmem

theorem Legible.of_mem_children {node child : Node} (h : node.Legible)
    (hchild : child ∈ node.children) : child.Legible := by
  cases node with
  | element own attributes children => exact legibleAll_iff.1 h.2 child hchild
  | text content => cases hchild
  | remark => cases hchild

theorem Legible.child? {node child : Node} (h : node.Legible) {name : String}
    (hchild : node.child? name = some child) : child.Legible :=
  h.of_mem_children (List.mem_of_find?_eq_some hchild)

/-- The texts of a legible node hold allowed characters only. -/
theorem Legible.textContent {node : Node} (h : node.Legible) :
    Allowed node.textContent := by
  intro c hc
  rw [Node.textContent, String.toList_join] at hc
  obtain ⟨content, hcontent, hc⟩ := List.mem_flatMap.1 hc
  obtain ⟨below, hbelow, heq⟩ := List.mem_filterMap.1 hcontent
  have hlegible := Legible.of_mem_descendants node h below hbelow
  cases below with
  | element own attributes children => cases heq
  | text text => exact (Option.some.inj heq ▸ hlegible : Allowed content) c hc
  | remark => cases heq

end Node

/-! ### Building -/

/-- What the attributes of a tag come to holds the values that were read. -/
theorem Declared.others_of_add? {declared extended : Declared} {name : QName} {value : List Char}
    (h : declared.add? name value = some extended) :
    extended.others = declared.others ∨
      extended.others = declared.others ++ [(name, value)] := by
  unfold add? at h
  repeat' split at h
  all_goals cases h
  all_goals first | exact Or.inl rfl | exact Or.inr rfl

theorem isAllowed_of_ofAttributes? {attributes : List RawAttribute} {declared : Declared}
    (hattributes : LegibleAttributes attributes)
    (h : Declared.ofAttributes? attributes = some declared) :
    ∀ pair ∈ declared.others, ∀ c ∈ pair.2, isAllowed c = true := by
  suffices hfold : ∀ before : Declared, (∀ pair ∈ before.others, ∀ c ∈ pair.2, isAllowed c = true) →
      attributes.foldlM (fun declared a =>
        (decodeValue? a.value).bind fun value => declared.add? a.name value) before =
          some declared → ∀ pair ∈ declared.others, ∀ c ∈ pair.2, isAllowed c = true by
    exact hfold {} nofun h
  clear h
  induction attributes with
  | nil =>
    intro before hbefore h
    cases h
    exact hbefore
  | cons a attributes ih =>
    intro before hbefore h
    obtain ⟨ha, hrest⟩ := List.forall_mem_cons.1 hattributes
    rw [List.foldlM_cons] at h
    obtain ⟨extended, hadd, h⟩ := Option.bind_eq_some_iff.1 h
    obtain ⟨value, hvalue, hadd⟩ := Option.bind_eq_some_iff.1 hadd
    refine ih hrest extended ?_ h
    rcases Declared.others_of_add? hadd with heq | heq
    · rwa [heq]
    · rw [heq]
      refine List.forall_mem_append.2 ⟨hbefore, List.forall_mem_singleton.2 ?_⟩
      exact isAllowed_of_decodeValue? hvalue ha

theorem allowed_of_attributes? {scope : Scope} {others : List (QName × List Char)}
    {attributes : List Attribute} (hothers : ∀ pair ∈ others, ∀ c ∈ pair.2, isAllowed c = true)
    (h : scope.attributes? others = some attributes) : ∀ a ∈ attributes, Allowed a.value := by
  induction others generalizing attributes with
  | nil =>
    cases h
    exact nofun
  | cons pair others ih =>
    obtain ⟨hpair, hothers⟩ := List.forall_mem_cons.1 hothers
    rw [Scope.attributes?] at h
    split at h
    next hrest =>
      dsimp only at h
      split at h
      · cases h
      · cases h
        refine List.forall_mem_cons.2 ⟨fun c hc => hpair c ?_, ih hothers hrest⟩
        simpa using hc
    next => cases h

/-- The attributes of a tag that is legible hold allowed characters only. -/
theorem allowed_of_resolve? {scope inner : Scope} {name : QName} {raw : List RawAttribute}
    {attributes : List Attribute} (hraw : LegibleAttributes raw)
    (h : resolve? scope name raw = some (attributes, inner)) :
    ∀ a ∈ attributes, Allowed a.value := by
  obtain ⟨declared, hdeclared, h⟩ := Option.bind_eq_some_iff.1 h
  dsimp only at h
  obtain ⟨-, h⟩ := Option.ite_none_right_eq_some.1 h
  obtain ⟨_, hattributes, heq⟩ := Option.map_eq_some_iff.1 h
  obtain ⟨rfl, -⟩ := Prod.mk.inj heq
  exact allowed_of_attributes? (isAllowed_of_ofAttributes? hraw hdeclared) hattributes

/-- An open element holds allowed characters only. -/
def Frame.Legible (frame : Frame) : Prop :=
  (∀ a ∈ frame.attributes, Allowed a.value) ∧ ∀ node ∈ frame.children, node.Legible

namespace Frame

variable {frame : Frame}

theorem Legible.close (h : frame.Legible) : frame.close.Legible :=
  ⟨h.1, Node.legibleAll_iff.2 fun node hnode => h.2 node (List.mem_reverse.1 hnode)⟩

theorem Legible.push (h : frame.Legible) {node : Node} (hnode : node.Legible) :
    (frame.push node).Legible :=
  ⟨h.1, List.forall_mem_cons.2 ⟨hnode, h.2⟩⟩

theorem Legible.pushText (h : frame.Legible) {content : List Char}
    (hcontent : ∀ c ∈ content, isAllowed c = true) : (frame.pushText content).Legible := by
  have htext : Allowed (String.ofList content) := fun c hc => hcontent c (by simpa using hc)
  unfold Frame.pushText
  split
  next before children hchildren =>
    have hall := h.2
    rw [hchildren, List.forall_mem_cons] at hall
    refine ⟨h.1, List.forall_mem_cons.2 ⟨fun c hc => ?_, hall.2⟩⟩
    rw [String.toList_append, List.mem_append] at hc
    exact hc.elim (hall.1 c) (htext c)
  next => exact ⟨h.1, List.forall_mem_cons.2 ⟨htext, h.2⟩⟩

end Frame

/-- A tree that is being built holds allowed characters only. -/
def Builder.Legible (builder : Builder) : Prop :=
  (∀ frame ∈ builder.frames, frame.Legible) ∧ ∀ node ∈ builder.root, node.Legible

namespace Builder

variable {builder next : Builder} {frame changed : Frame} {frames : List Frame}

theorem Legible.innermost (h : builder.Legible) (hframes : builder.frames = frame :: frames) :
    frame.Legible :=
  h.1 frame (hframes ▸ List.mem_cons_self)

/-- What is built stays legible if its innermost open element is closed. -/
theorem Legible.outer (h : builder.Legible) (hframes : builder.frames = frame :: frames) :
    Builder.Legible { builder with frames } :=
  ⟨fun other hother => h.1 other (hframes ▸ List.mem_cons_of_mem frame hother), h.2⟩

/-- What is built stays legible if its innermost open element is changed to a legible one. -/
theorem Legible.change (h : builder.Legible) (hframes : builder.frames = frame :: frames)
    (hchanged : changed.Legible) : Builder.Legible { builder with frames := changed :: frames } :=
  ⟨List.forall_mem_cons.2 ⟨hchanged, (h.outer hframes).1⟩, h.2⟩

theorem Legible.complete (h : builder.Legible) {node : Node} (hnode : node.Legible) :
    (builder.complete node).Legible := by
  unfold Builder.complete
  split
  next => exact ⟨h.1, fun root hroot => Option.some.inj hroot ▸ hnode⟩
  next frame frames hframes => exact h.change hframes ((h.innermost hframes).push hnode)

/-- A legible mark keeps what is built legible. -/
theorem Legible.step? (h : builder.Legible) {token : Token} (htoken : token.Legible)
    (hstep : builder.step? token = some next) : next.Legible := by
  cases token with
  | opening name attributes closed =>
    obtain ⟨-, hstep⟩ := Option.ite_none_right_eq_some.1 hstep
    obtain ⟨⟨resolved, scope⟩, hresolve, rfl⟩ := Option.map_eq_some_iff.1 hstep
    have hframe : Frame.Legible { name, attributes := resolved, scope } :=
      ⟨allowed_of_resolve? htoken hresolve, nofun⟩
    dsimp only
    split
    · exact h.complete hframe.close
    · exact ⟨List.forall_mem_cons.2 ⟨hframe, h.1⟩, h.2⟩
  | closing name =>
    simp only [Builder.step?] at hstep
    split at hstep
    next => cases hstep
    next frame frames hframes =>
      obtain ⟨-, hstep⟩ := Option.ite_none_right_eq_some.1 hstep
      obtain rfl := Option.some.inj hstep
      exact (h.outer hframes).complete (h.innermost hframes).close
  | text data =>
    simp only [Builder.step?] at hstep
    split at hstep
    next =>
      obtain ⟨-, hstep⟩ := Option.ite_none_right_eq_some.1 hstep
      exact Option.some.inj hstep ▸ h
    next frame frames hframes =>
      obtain ⟨content, hcontent, rfl⟩ := Option.map_eq_some_iff.1 hstep
      have hallowed := isAllowed_of_decodeText? hcontent htoken
      exact h.change hframes ((h.innermost hframes).pushText hallowed)
  | unmarked data =>
    simp only [Builder.step?] at hstep
    split at hstep
    next => cases hstep
    next frame frames hframes =>
      obtain rfl := Option.some.inj hstep
      have hallowed := isAllowed_decodeSection htoken
      exact h.change hframes ((h.innermost hframes).pushText hallowed)
  | remark =>
    simp only [Builder.step?] at hstep
    split at hstep
    next => exact Option.some.inj hstep ▸ h
    next frame frames hframes =>
      obtain rfl := Option.some.inj hstep
      exact h.change hframes ((h.innermost hframes).push trivial)

/-- Legible marks keep what is built legible. -/
theorem Legible.foldlM {tokens : List Token} (h : builder.Legible)
    (htokens : ∀ token ∈ tokens, token.Legible)
    (hfold : tokens.foldlM Builder.step? builder = some next) : next.Legible := by
  induction tokens generalizing builder with
  | nil => exact Option.some.inj hfold ▸ h
  | cons token tokens ih =>
    obtain ⟨htoken, htokens⟩ := List.forall_mem_cons.1 htokens
    rw [List.foldlM_cons] at hfold
    obtain ⟨middle, hstep, hfold⟩ := Option.bind_eq_some_iff.1 hfold
    exact ih (h.step? htoken hstep) htokens hfold

end Builder

/-- The tree of a document holds allowed characters only. -/
theorem legible_of_read? {text : String} {root : Node} (h : read? text = some root) :
    root.Legible := by
  obtain ⟨tokens, htokens, h⟩ := Option.bind_eq_some_iff.1 h
  obtain ⟨data, -, htokens⟩ := Option.bind_eq_some_iff.1 htokens
  obtain ⟨builder, hfold, h⟩ := Option.bind_eq_some_iff.1 h
  obtain ⟨-, hroot⟩ := Option.ite_none_right_eq_some.1 h
  have hempty : Builder.Legible {} := ⟨nofun, nofun⟩
  exact (hempty.foldlM (legible_of_tokens? htokens) hfold).2 root hroot

end Eaf.Xml

import Eaf.Proofs.Xml.Reread

/-!
# Looking up elements in what was written

Questions about a tree select elements by their names. The texts between elements answer none of
them, so a question about the tree of a document that was written is a question about the elements
that were written.

## Main definitions

* `Eaf.Xml.Markup.name` — the name of an element.
* `Eaf.Xml.Markup.select` — the elements at or below an element, by their names.

## Main results

* `Eaf.Xml.attribute?_rereadAttributes` — the value of an attribute that was written.
* `Eaf.Xml.Markup.childrenNamed_node`, `Eaf.Xml.Markup.child?_node` — the children of a name.
* `Eaf.Xml.Markup.descendantsNamed_element` — the elements of a name at any depth.
-/

namespace Eaf.Xml

/-- The value of an attribute that was written. -/
theorem attribute?_rereadAttributes (name key : String) (attributes : List (String × String))
    (children : List Node) :
    (Node.element name (rereadAttributes attributes) children).attribute? key =
      (attributes.lookup key).map rereadValue := by
  induction attributes with
  | nil => rfl
  | cons pair attributes ih =>
    obtain ⟨own, value⟩ := pair
    simp only [Node.attribute?, Node.attributes, rereadAttributes, List.map_cons,
      List.lookup_cons] at ih ⊢
    by_cases hkey : own = key
    · simp [hkey]
    · have hne : (key == own) = false := by simpa using Ne.symm hkey
      rw [List.find?_cons_of_neg (by simpa using hkey), ih, hne]

/-- Whether a node is an element with a name of a given kind. -/
def Node.isNamed (q : String → Bool) : Node → Bool
  | element own _ _ => q own
  | _ => false

theorem Node.isElement_eq_isNamed (name : String) :
    Node.isElement name = Node.isNamed (· == name) := by
  funext node
  cases node <;> rfl

namespace Markup

/-- The name of an element. -/
def name : Markup → String
  | bare name _ => name
  | labelled name _ _ => name
  | enclosing name _ _ => name

variable {indent depth : Nat} {elements : List Markup} {q : String → Bool}

theorem isNamed_node (markup : Markup) : (markup.node indent depth).isNamed q = q markup.name := by
  cases markup <;> rfl

/-! ### Children -/

theorem filter_gapNodes : (gapNodes indent depth).filter (Node.isNamed q) = [] := by
  unfold gapNodes
  split <;> simp [Node.isNamed]

theorem filter_nodesOf :
    (nodesOf indent depth elements).filter (Node.isNamed q) =
      (elements.filter (q ·.name)).map (·.node indent depth) := by
  induction elements with
  | nil => rfl
  | cons markup others ih =>
    rw [nodesOf, List.filter_append, filter_gapNodes, List.nil_append, List.filter_cons,
      List.filter_cons, isNamed_node, ih]
    split <;> rfl

/-- The child elements of a name. -/
theorem childrenNamed_node (own key : String) (attributes : List Attribute) (more : Nat) :
    (Node.element own attributes
        (nodesOf indent depth elements ++ gapNodes indent more)).childrenNamed key =
      (elements.filter (·.name == key)).map (·.node indent depth) := by
  rw [Node.childrenNamed, Node.children, Node.isElement_eq_isNamed, List.filter_append,
    filter_nodesOf, filter_gapNodes, List.append_nil]

/-- The first child element of a name. -/
theorem child?_node (own key : String) (attributes : List Attribute) (more : Nat) :
    (Node.element own attributes (nodesOf indent depth elements ++ gapNodes indent more)).child?
        key =
      (elements.find? (·.name == key)).map (·.node indent depth) := by
  rw [Node.child?, ← List.head?_filter, ← Node.childrenNamed, childrenNamed_node, List.head?_map,
    List.head?_filter]

/-! ### Elements at any depth -/

/-- The elements at or below an element whose names are of a given kind. -/
def select (q : String → Bool) (indent depth : Nat) (markup : Markup) : List Node :=
  (markup.node indent depth).descendants.filter (Node.isNamed q)

theorem filter_descendantsOf_append (nodes more : List Node) :
    (Node.descendantsOf (nodes ++ more)).filter (Node.isNamed q) =
      (Node.descendantsOf nodes).filter (Node.isNamed q) ++
        (Node.descendantsOf more).filter (Node.isNamed q) := by
  induction nodes with
  | nil => rfl
  | cons node nodes ih => simp [Node.descendantsOf, ih]

theorem filter_descendantsOf_gapNodes :
    (Node.descendantsOf (gapNodes indent depth)).filter (Node.isNamed q) = [] := by
  unfold gapNodes
  split <;> simp [Node.descendantsOf, Node.descendants, Node.isNamed]

theorem filter_descendantsOf_nodesOf :
    (Node.descendantsOf (nodesOf indent depth elements)).filter (Node.isNamed q) =
      elements.flatMap (select q indent depth) := by
  induction elements with
  | nil => rfl
  | cons markup others ih =>
    rw [nodesOf, filter_descendantsOf_append, filter_descendantsOf_gapNodes, Node.descendantsOf,
      List.filter_append, ih, List.nil_append, List.flatMap_cons, select]

/-- Elements of a name at or below an element that encloses others. -/
theorem descendantsNamed_element (own key : String) (attributes : List Attribute) (more : Nat)
    (hname : own ≠ key) :
    (Node.element own attributes
        (nodesOf indent depth elements ++ gapNodes indent more)).descendantsNamed key =
      elements.flatMap (select (· == key) indent depth) := by
  have hself : Node.isNamed (· == key) (.element own attributes
      (nodesOf indent depth elements ++ gapNodes indent more)) = false := by
    simpa [Node.isNamed] using hname
  rw [Node.descendantsNamed, Node.isElement_eq_isNamed, Node.descendants,
    List.filter_cons_of_neg (by simp [hself]), filter_descendantsOf_append,
    filter_descendantsOf_nodesOf, filter_descendantsOf_gapNodes, List.append_nil]

@[simp] theorem select_bare (own : String) (attributes : List (String × String)) :
    select q indent depth (bare own attributes) =
      if q own then [(bare own attributes).node indent depth] else [] := by
  rw [select, node, Node.descendants, List.filter_cons]
  rfl

@[simp] theorem select_labelled (own : String) (attributes : List (String × String))
    (content : String) :
    select q indent depth (labelled own attributes content) =
      if q own then [(labelled own attributes content).node indent depth] else [] := by
  have htexts : (Node.descendantsOf (textNodes content)).filter (Node.isNamed q) = [] := by
    unfold textNodes
    split <;> simp [Node.descendantsOf, Node.descendants, Node.isNamed]
  rw [select, node, Node.descendants, List.filter_cons, htexts]
  rfl

@[simp] theorem select_enclosing (own : String) (attributes : List (String × String)) :
    select q indent depth (enclosing own attributes elements) =
      (if q own then [(enclosing own attributes elements).node indent depth] else []) ++
        elements.flatMap (select q indent (depth + 1)) := by
  rw [select, node, Node.descendants, List.filter_cons, filter_descendantsOf_append,
    filter_descendantsOf_nodesOf, filter_descendantsOf_gapNodes, List.append_nil]
  cases hq : q own <;> simp [Node.isNamed, hq]

/-! ### Texts -/

theorem rereadText_empty : rereadText "" = "" :=
  rfl

/-- The text of an element that holds one. -/
theorem textContent_labelled (own : String) (attributes : List (String × String))
    (content : String) :
    ((labelled own attributes content).node indent depth).textContent = rereadText content := by
  unfold Node.textContent node textNodes
  split
  next h =>
    rw [h, rereadText_empty]
    rfl
  next => simp [Node.descendants, Node.descendantsOf, List.filterMap_cons, Node.content?]

/-- The text with which an element begins that holds a text. -/
theorem leadingText?_labelled (own : String) (attributes : List (String × String))
    {content : String} (h : content ≠ "") :
    ((labelled own attributes content).node indent depth).leadingText? =
      some (rereadText content) := by
  rw [node, textNodes, if_neg h]
  rfl

end Markup

end Eaf.Xml

/-!
# XML trees

An XML document as a tree of elements and texts. Only what questions about a document can reach is
kept: of an element its local name, of an attribute its local name and its namespace, of comments
and processing instructions only that they stand between two texts.

## Main definitions

* `Eaf.Xml.Attribute`, `Eaf.Xml.Node` — attributes and nodes of a tree.
* `Eaf.Xml.Node.attribute?` — the value of an attribute without a namespace.
* `Eaf.Xml.Node.descendants` — a node and all nodes below it, in document order.
* `Eaf.Xml.Node.leadingText?`, `Eaf.Xml.Node.textContent` — the texts of an element.
-/

namespace Eaf.Xml

/-- An attribute of an element. -/
structure Attribute where
  /-- The namespace of the attribute; only a name with a qualifier has one. -/
  space : Option String := none
  name : String
  value : String
  deriving DecidableEq, Repr, Inhabited

/-- A node of an XML tree. -/
inductive Node
  /-- An element, with the local part of its name. -/
  | element (name : String) (attributes : List Attribute) (children : List Node)
  /-- A text between two marks that are no section marks. -/
  | text (content : String)
  /-- A comment or a processing instruction. -/
  | remark
  deriving Repr, Inhabited

namespace Node

/-- Whether a node is an element of the given local name, in whatever namespace. -/
def isElement (name : String) : Node → Bool
  | element own _ _ => own == name
  | _ => false

/-- The local name of an element; other nodes have an empty one. -/
def name : Node → String
  | element own _ _ => own
  | _ => ""

/-- The attributes of an element. -/
def attributes : Node → List Attribute
  | element _ attributes _ => attributes
  | _ => []

/-- The children of an element. -/
def children : Node → List Node
  | element _ _ children => children
  | _ => []

/-- The value of the attribute with the given name and no namespace. -/
def attribute? (node : Node) (name : String) : Option String :=
  (node.attributes.find? fun a => a.space.isNone && a.name == name).map (·.value)

/-- The child elements of a given local name. -/
def childrenNamed (node : Node) (name : String) : List Node :=
  node.children.filter (·.isElement name)

/-- The first child element of a given local name. -/
def child? (node : Node) (name : String) : Option Node :=
  node.children.find? (·.isElement name)

mutual

/-- A node and all nodes below it, in document order. -/
def descendants : Node → List Node
  | element name attributes children =>
    element name attributes children :: descendantsOf children
  | text content => [text content]
  | remark => [remark]

/-- The nodes of a list and all nodes below them, in document order. -/
def descendantsOf : List Node → List Node
  | [] => []
  | node :: nodes => node.descendants ++ descendantsOf nodes

end

/-- The elements of a given local name among a node and all nodes below it. -/
def descendantsNamed (node : Node) (name : String) : List Node :=
  node.descendants.filter (·.isElement name)

/-- The content of a text. -/
def content? : Node → Option String
  | text content => some content
  | _ => none

/-- The text with which an element begins, if its first child is one. -/
def leadingText? (node : Node) : Option String :=
  node.children.head?.bind content?

/-- All texts at or below a node, one after the other. -/
def textContent (node : Node) : String :=
  String.join (node.descendants.filterMap content?)

end Node

end Eaf.Xml

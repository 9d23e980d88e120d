import Eaf.Xml.Node
import Eaf.Xml.Token

/-!
# Building the tree of a document

The marks of a document are read from left to right. A stack holds the elements that have been
opened and not yet closed. Names are resolved when a tag is read: qualifiers stand for namespaces,
which tags declare for themselves and for what they enclose.

## Main definitions

* `Eaf.Xml.Scope` — the namespaces that are declared at a place of a document.
* `Eaf.Xml.resolve?` — the attributes of a tag, with the scope inside the element.
* `Eaf.Xml.Builder` — the state of building a tree, with `Eaf.Xml.Builder.step?`.
* `Eaf.Xml.ofTokens?` — the root element of a sequence of marks.
* `Eaf.Xml.read?` — the root element of a text.
-/

namespace Eaf.Xml

/-! ### Namespaces -/

/-- The namespace that the qualifier `xml` always stands for. -/
def xmlSpace : List Char :=
  "http://www.w3.org/XML/1998/namespace".toList

/-- The namespace of the attributes that declare namespaces. It cannot be declared. -/
def declarationsSpace : List Char :=
  "http://www.w3.org/2000/xmlns/".toList

/-- The qualifier and the name of attributes that declare namespaces. -/
def declarationName : List Char :=
  "xmlns".toList

/-- The qualifier that needs no declaration. -/
def xmlName : List Char :=
  "xml".toList

/-- The declared qualifiers with their namespaces, innermost first. The default namespace has the
empty qualifier. -/
abbrev Scope :=
  List (List Char × List Char)

/-- What the attributes of a tag come to: the namespaces that it declares and the others, with
their names not yet resolved. -/
structure Declared where
  declarations : Scope := []
  others : List (QName × List Char) := []

/-- One more attribute of a tag, unless it declares what may not be declared. The qualifier `xml`
and its namespace belong to each other alone, a qualifier is declared once in a tag, and the
namespace of declarations is never declared. -/
def Declared.add? (declared : Declared) (name : QName) (value : List Char) : Option Declared :=
  if name.qualifier = declarationName then
    if value = declarationsSpace then none
    else if name.localName = xmlName then
      if value = xmlSpace then some declared else none
    else if value = xmlSpace then none
    else if (declared.declarations.lookup name.localName).isSome then none
    else some { declared with declarations := declared.declarations ++ [(name.localName, value)] }
  else if name.localName = declarationName then
    if value = declarationsSpace ∨ value = xmlSpace then none
    else some { declared with declarations := declared.declarations ++ [([], value)] }
  else
    some { declared with others := declared.others ++ [(name, value)] }

/-- The attributes of a tag, sorted into declarations and others, with their values read. -/
def Declared.ofAttributes? (attributes : List RawAttribute) : Option Declared :=
  attributes.foldlM
    (fun declared a => (decodeValue? a.value).bind fun value => declared.add? a.name value) {}

/-- The namespace of an attribute: none if its name has no qualifier. There is no answer if the
qualifier is not declared. -/
def Scope.attributeSpace? (scope : Scope) (name : QName) : Option (Option String) :=
  if name.qualifier = [] then some none
  else if name.qualifier = xmlName then some (some (String.ofList xmlSpace))
  else (scope.lookup name.qualifier).map fun space => some (String.ofList space)

/-- The attributes of a tag with their names resolved, unless a qualifier is not declared or two
attributes have the same name in the same namespace. -/
def Scope.attributes? (scope : Scope) : List (QName × List Char) → Option (List Attribute)
  | [] => some []
  | (name, value) :: rest =>
    match scope.attributeSpace? name, scope.attributes? rest with
    | some space, some others =>
      let localName := String.ofList name.localName
      if others.any fun a => a.space == space && a.name == localName then none
      else some ({ space, name := localName, value := String.ofList value } :: others)
    | _, _ => none

/-- Whether the qualifier of an element may be used: it is empty or declared, and it is not that
of declarations. -/
def Scope.admits (scope : Scope) (name : QName) : Bool :=
  name.qualifier != declarationName &&
    (name.qualifier.isEmpty || (scope.lookup name.qualifier).isSome)

/-- The attributes of a tag, with the scope inside the element that it opens. -/
def resolve? (scope : Scope) (name : QName) (attributes : List RawAttribute) :
    Option (List Attribute × Scope) :=
  (Declared.ofAttributes? attributes).bind fun declared =>
    let scope : Scope := declared.declarations ++ scope
    if scope.admits name then (scope.attributes? declared.others).map (·, scope) else none

/-! ### Building -/

/-- An element that has been opened and not yet closed. -/
structure Frame where
  name : QName
  attributes : List Attribute
  scope : Scope
  /-- The children so far, the last one first. -/
  children : List Node := []

/-- The element of a frame that is closed. -/
def Frame.close (frame : Frame) : Node :=
  .element (String.ofList frame.name.localName) frame.attributes frame.children.reverse

/-- A frame with one more child. -/
def Frame.push (frame : Frame) (node : Node) : Frame :=
  { frame with children := node :: frame.children }

/-- A frame with more text; it joins a text that is the last child. -/
def Frame.pushText (frame : Frame) (content : List Char) : Frame :=
  match frame.children with
  | .text before :: children =>
    { frame with children := .text (before ++ String.ofList content) :: children }
  | children => { frame with children := .text (String.ofList content) :: children }

/-- The state of building a tree. -/
structure Builder where
  /-- The elements that are open, the innermost first. -/
  frames : List Frame := []
  /-- The root element, once it is closed. -/
  root : Option Node := none

namespace Builder

/-- The state after an element is closed. -/
def complete (builder : Builder) (node : Node) : Builder :=
  match builder.frames with
  | [] => { builder with root := some node }
  | frame :: frames => { builder with frames := frame.push node :: frames }

/-- The scope at the current place. -/
def scope (builder : Builder) : Scope :=
  match builder.frames with
  | [] => []
  | frame :: _ => frame.scope

/-- Whether an element may be opened: one is open, or there is no root yet. -/
def admitsElement (builder : Builder) : Bool :=
  !builder.frames.isEmpty || builder.root.isNone

/-- The state after one more mark. Outside the root element only white space, comments and
processing instructions may stand, and a closing tag names the element that it closes. -/
def step? (builder : Builder) (token : Token) : Option Builder :=
  match token with
  | .opening name attributes closed =>
    if builder.admitsElement then
      (resolve? builder.scope name attributes).map fun (attributes, scope) =>
        let frame : Frame := { name, attributes, scope }
        if closed then builder.complete frame.close
        else { builder with frames := frame :: builder.frames }
    else
      none
  | .closing name =>
    match builder.frames with
    | [] => none
    | frame :: frames =>
      if frame.name = name then some ({ builder with frames }.complete frame.close) else none
  | .text data =>
    match builder.frames with
    | [] => if data.all isSpace then some builder else none
    | frame :: frames =>
      (decodeText? data).map fun content =>
        { builder with frames := frame.pushText content :: frames }
  | .unmarked data =>
    match builder.frames with
    | [] => none
    | frame :: frames =>
      some { builder with frames := frame.pushText (decodeSection data) :: frames }
  | .remark =>
    match builder.frames with
    | [] => some builder
    | frame :: frames => some { builder with frames := frame.push .remark :: frames }

end Builder

/-- The root element of a sequence of marks, all of whose elements are closed. -/
def ofTokens? (tokens : List Token) : Option Node :=
  (tokens.foldlM Builder.step? {}).bind fun builder =>
    if builder.frames.isEmpty then builder.root else none

/-- The root element of a text, if the text is a well-formed document. -/
def read? (text : String) : Option Node :=
  ((afterDeclaration? text.toList).bind tokens?).bind ofTokens?

end Eaf.Xml

import DocHeader.Json.Basic

/-!
# Syntax nodes

The nodes of a syntax tree, with what header generation needs to know of each: its kind,
its place in the source, its name, modifiers and types, and the header it already has.

A node does not know its parent. Where the way up matters, a `Focus` carries it.

A tree may come with values of the wrong type: a name that is a number, a kind that is a
list. A node keeps such values aside, and holds in their place what they count for.

## Main definitions

* `NodeInfo` — everything about a node but its children.
* `Node` — a node with its children in source order.
-/

namespace DocHeader

/-- What is known of one node. Offsets are character indices of the source. -/
structure NodeInfo where
  /-- The name of the node's syntax kind, such as `ClassDeclaration`. -/
  kind : String
  /-- The offset of the node with the white space and comments before it. -/
  fullStart : Int
  /-- The offset of the first token. -/
  start : Int
  /-- The offset past the last token. -/
  stop : Int
  /-- The source between `start` and `stop`. -/
  text : String
  /-- The declared name. -/
  name : Option String := none
  /-- The property a binding element takes its value from. -/
  propertyName : Option String := none
  /-- The modifier keywords in source order. -/
  modifiers : List String := []
  /-- The written type; for functions the written return type. -/
  annotation : Option String := none
  /-- The type the checker found. -/
  inferredType : Option String := none
  /-- The return type the checker found. -/
  inferredReturn : Option String := none
  /-- The text of the initializer. -/
  initializer : Option String := none
  /-- Marked optional. -/
  optional : Bool := false
  /-- Marked definitely assigned. -/
  definite : Bool := false
  /-- A rest element. -/
  rest : Bool := false
  /-- A generator. -/
  generator : Bool := false
  /-- The header comment attached to the node. -/
  header : Option String := none
  /-- The keyword of a heritage clause. -/
  token : Option String := none
  /-- The expression a heritage type refers to. -/
  expression : Option String := none
  /-- The type arguments of a heritage type. -/
  typeArguments : List String := []
  /-- The constraint of a type parameter. -/
  constraint : Option String := none
  /-- The default of a type parameter. -/
  default : Option String := none
  /-- The values that are not of the type of their field, by the names of the fields. -/
  mistyped : List (String × Json) := []
  deriving Inhabited

namespace NodeInfo

/-- The value of a field, when it is not of the type of the field. -/
def misfit? (info : NodeInfo) (field : String) : Option Json := Json.lookup field info.mistyped

/-- Whether a field that asks for something else holds null. -/
def holdsNull (info : NodeInfo) (field : String) : Bool :=
  (info.misfit? field).any (· matches .null)

/-- Whether a field holds a value of the wrong type that counts as given. -/
def givesMisfit (info : NodeInfo) (field : String) : Bool :=
  (info.misfit? field).any Json.isTruthy

end NodeInfo

/-- A node with its children in source order. -/
inductive Node where
  | mk (info : NodeInfo) (children : List Node)
  deriving Inhabited

namespace Node

/-- What is known of the node itself. -/
def info : Node → NodeInfo
  | .mk info _ => info

/-- The children in source order. -/
def children : Node → List Node
  | .mk _ children => children

/-- The name of the syntax kind. -/
def kind (n : Node) : String := n.info.kind

/-- Whether a position lies in the node, with what precedes it. -/
def contains (n : Node) (position : Int) : Bool :=
  n.info.fullStart ≤ position && position ≤ n.info.stop

/-- Whether the node carries a modifier. -/
def hasModifier (n : Node) (modifier : String) : Bool := n.info.modifiers.contains modifier

end Node

/-- A text that is present and not empty. -/
def given? : Option String → Option String
  | some s => if s.isEmpty then none else some s
  | none => none

end DocHeader

import DocHeader.Syntax.Node

/-!
# Foci

A node together with the way from it up to the root. Parents, ancestors and the owner
of a header are read off the way; children and walks extend it.

## Main definitions

* `Focus` — a node and its parents, nearest first.
* `Focus.path` — the child indices that lead to the node from the root.
* `Focus.anchor` — the node that owns the header of a declaration.
* `Focus.walk` — a node and everything below it, in pre-order.
-/

namespace DocHeader

/-- A node with its parents, nearest first; each parent comes with the index of the
child on the way. -/
structure Focus where
  node : Node
  above : List (Node × Nat)
  deriving Inhabited

namespace Focus

/-- The focus on the root of a tree. -/
def root (n : Node) : Focus := ⟨n, []⟩

/-- The child indices that lead here from the root. -/
def path (f : Focus) : List Nat := (f.above.map (·.2)).reverse

/-- What is known of the focused node. -/
def info (f : Focus) : NodeInfo := f.node.info

/-- The kind of the focused node. -/
def kind (f : Focus) : String := f.node.kind

/-- The parent. -/
def parent? (f : Focus) : Option Focus :=
  match f.above with
  | [] => none
  | (parent, _) :: above => some ⟨parent, above⟩

/-- The foci on a list of children that starts at index `i`. -/
def onChildren (parent : Node) (above : List (Node × Nat)) (i : Nat) : List Node → List Focus
  | [] => []
  | child :: rest => ⟨child, (parent, i) :: above⟩ :: onChildren parent above (i + 1) rest

/-- The children in source order. -/
def children (f : Focus) : List Focus := onChildren f.node f.above 0 f.node.children

/-- The child reached by a path of indices. -/
def descend? (f : Focus) : List Nat → Option Focus
  | [] => some f
  | i :: rest => f.children[i]?.bind fun child => child.descend? rest

/-- The ancestors of a node from its parents. -/
def ancestorsFrom : Node → List (Node × Nat) → List Focus
  | n, [] => [⟨n, []⟩]
  | n, (parent, i) :: above => ⟨n, (parent, i) :: above⟩ :: ancestorsFrom parent above

/-- The node itself, then its parents up to the root. -/
def ancestors (f : Focus) : List Focus := ancestorsFrom f.node f.above

mutual

/-- A node and everything below it, in pre-order. -/
def walkFrom (above : List (Node × Nat)) : Node → List Focus
  | .mk info children =>
    ⟨.mk info children, above⟩ :: walkChildren (.mk info children) above 0 children

/-- The children from index `i` on and everything below them, in pre-order. -/
def walkChildren (parent : Node) (above : List (Node × Nat)) (i : Nat) : List Node → List Focus
  | [] => []
  | child :: rest => walkFrom ((parent, i) :: above) child ++ walkChildren parent above (i + 1) rest

end

/-- The node and everything below it, in pre-order. -/
def walk (f : Focus) : List Focus := walkFrom f.above f.node

/-- The children of some kinds. -/
def childrenOfKind (f : Focus) (kinds : List String) : List Focus :=
  f.children.filter fun child => kinds.contains child.kind

/-- The first child of some kinds. -/
def firstChildOfKind? (f : Focus) (kinds : List String) : Option Focus :=
  f.children.find? fun child => kinds.contains child.kind

/-- The parameters of a function. -/
def parameters (f : Focus) : List Focus := f.childrenOfKind ["Parameter"]

/-- The type parameters of a declaration. -/
def typeParameters (f : Focus) : List Focus := f.childrenOfKind ["TypeParameter"]

/-- The heritage clauses of a class or an interface. -/
def heritageClauses (f : Focus) : List Focus := f.childrenOfKind ["HeritageClause"]

/-- The elements of a binding pattern. -/
def bindingElements (f : Focus) : List Focus := f.childrenOfKind ["BindingElement"]

/-- The binding pattern of a destructured parameter. -/
def bindingPattern? (f : Focus) : Option Focus :=
  f.firstChildOfKind? ["ObjectBindingPattern", "ArrayBindingPattern"]

/-- The kinds of function values. -/
def functionValueKinds : List String := ["ArrowFunction", "FunctionExpression"]

/-- The function a declaration is initialized with. -/
def functionValue? (f : Focus) : Option Focus := f.firstChildOfKind? functionValueKinds

/-- The variable declarations directly below. -/
def listedDeclarations (f : Focus) : List Focus := f.childrenOfKind ["VariableDeclaration"]

/-- The variable declarations of a statement or a declaration list. -/
def declarations (f : Focus) : List Focus :=
  if f.kind == "VariableStatement" then
    match f.firstChildOfKind? ["VariableDeclarationList"] with
    | some list => list.listedDeclarations
    | none => []
  else f.listedDeclarations

/-- The statement that encloses a variable declaration, through its declaration list. -/
def enclosingStatement? (f : Focus) : Option Focus :=
  match f.parent? with
  | some list =>
    if list.kind == "VariableDeclarationList" then
      match list.parent? with
      | some statement => if statement.kind == "VariableStatement" then some statement else none
      | none => none
    else none
  | none => none

/-- The statement that owns the header of a variable declaration, when there is one. -/
def owner? (f : Focus) : Option Focus :=
  if f.kind == "VariableDeclaration" then f.enclosingStatement? else none

/-- The node that owns the header of a declaration: a variable declaration is
documented on its statement, every other node on itself. -/
def anchor (f : Focus) : Focus := f.owner?.getD f

/-- The header of the declaration: its own or that of its anchor. -/
def headerText? (f : Focus) : Option String :=
  match given? f.info.header with
  | some header => some header
  | none => f.anchor.info.header

/-- Whether the declaration has a header already. -/
def hasHeader (f : Focus) : Bool :=
  (given? f.info.header).isSome || (given? f.anchor.info.header).isSome

/-- Where a new header goes: before the anchor, and at the top for a whole file. -/
def insertionOffset (f : Focus) : Int := if f.kind == "SourceFile" then 0 else f.anchor.info.start

/-- Whether the place for a new header is null. -/
def isUnplaced (f : Focus) : Bool := f.kind != "SourceFile" && f.anchor.info.holdsNull "start"

/-- A short description of the node for log records. -/
def summary (f : Focus) : String :=
  let sign := if (given? f.info.header).isSome then "📝" else "❌"
  let label := match given? f.info.name with
    | some name => " '" ++ name ++ "'"
    | none => ""
  let shown (field : String) (offset : Int) : String :=
    if f.info.holdsNull field then "None" else toString offset
  "SyntaxNode(" ++ sign ++ " " ++ f.kind ++ label ++ " @ " ++ shown "start" f.info.start ++ ":" ++
    shown "end" f.info.stop ++ ")"

end Focus

end DocHeader

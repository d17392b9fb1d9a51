import DocHeader.Declaration.Kind
import DocHeader.Syntax.Focus

/-!
# Declarations of a syntax tree

Which declaration documents a node, as what kind it is documented, and which
declarations of a file still lack a header.

## Main definitions

* `Focus.deepestAt` — the deepest node at a position.
* `Focus.classify?` — the declaration that documents a node.
* `Focus.strandsAt` — whether the search for a position meets a field it cannot use.
* `Focus.declarationKind?` — what a node is documented as.
* `Focus.pending` — the declarations of a file without a header, last one first.
* `Focus.isUnsortable` — whether they cannot be put in that order.
-/

namespace DocHeader

/-- Whether the place of a node can be compared with a position: where it starts with what
precedes it must be a number, and where it ends too when the position lies behind that. -/
def Node.isComparable (position : Int) (n : Node) : Bool :=
  (match n.info.misfit? "pos" with
    | none | some (.bool _) | some (.number _) => true
    | some _ => false) &&
  (position < n.info.fullStart || !n.info.holdsNull "end")

namespace Focus

/-- The kind a node is documented as by its syntax kind alone. -/
def supportedKind? (kind : String) : Option DeclarationKind :=
  if kind ∈ ["ClassDeclaration", "ClassExpression", "InterfaceDeclaration"] then some .classLike
  else if kind ∈ ["PropertyDeclaration", "PropertySignature", "EnumMember"] then some .property
  else if kind ∈ ["GetAccessor", "SetAccessor"] then some .accessor
  else if kind == "EnumDeclaration" then some .enumeration
  else if kind ∈ ["FunctionDeclaration", "MethodDeclaration", "MethodSignature", "CallSignature",
      "ConstructSignature"] then some .method
  else if kind == "Constructor" then some .constructor
  else if kind == "TypeAliasDeclaration" then some .typeAlias
  else if kind == "VariableDeclaration" then some .variable
  else if kind == "SourceFile" then some .file
  else none

/-- The kinds that hold variable declarations. -/
def bindingContainers : List String := ["VariableDeclarationList", "VariableStatement"]

/-- The declarations that document the function they are initialized with. -/
def functionOwnerKinds : List String := ["VariableDeclaration", "PropertyDeclaration"]

/-- Classes and interfaces. -/
def classLikeKinds : List String := ["ClassDeclaration", "ClassExpression", "InterfaceDeclaration"]

/-- The statements that are documented at the top level of a file. -/
def topLevelKinds : List String :=
  ["ClassDeclaration", "InterfaceDeclaration", "EnumDeclaration", "FunctionDeclaration",
    "TypeAliasDeclaration"]

/-- The members that are documented in a top-level class or interface. -/
def memberKinds : List String :=
  ["PropertyDeclaration", "PropertySignature", "GetAccessor", "SetAccessor", "MethodDeclaration",
    "MethodSignature", "CallSignature", "ConstructSignature", "Constructor"]

mutual

/-- The deepest node at a position, from a node on: of the children that contain the
position the first is followed. -/
def deepestFrom (position : Int) (above : List (Node × Nat)) : Node → Focus
  | .mk info children =>
    (deepestAmong position (.mk info children) above 0 children).getD ⟨.mk info children, above⟩

/-- The deepest node at a position below the children from index `i` on. -/
def deepestAmong (position : Int) (parent : Node) (above : List (Node × Nat)) (i : Nat) :
    List Node → Option Focus
  | [] => none
  | child :: rest =>
    if child.contains position then some (deepestFrom position ((parent, i) :: above) child)
    else deepestAmong position parent above (i + 1) rest

end

/-- The deepest node at a position; the node itself when no child contains it. -/
def deepestAt (f : Focus) (position : Int) : Focus := deepestFrom position f.above f.node

/-- The declaration that one node stands for, ancestors aside. -/
def resolve? (f : Focus) : Option Focus :=
  if bindingContainers.contains f.kind then f.declarations.head?
  else if functionValueKinds.contains f.kind then
    match f.parent? with
    | some owner => if functionOwnerKinds.contains owner.kind then some owner else none
    | none => none
  else if (supportedKind? f.kind).isSome && f.kind != "SourceFile" then some f
  else none

/-- The declaration that documents a node: that of the nearest ancestor, or of the node
itself, that stands for one. The file as a whole never documents its nodes. -/
def classify? (f : Focus) : Option Focus := f.ancestors.findSome? resolve?

/-- The declaration that documents the node at a position. -/
def classifyAt? (f : Focus) (position : Int) : Option Focus := (f.deepestAt position).classify?

mutual

/-- Whether the search for the deepest node at a position, from a node on, meets one that
cannot be compared with it. -/
def strandsFrom (position : Int) : Node → Bool
  | .mk _ children => strandsAmong position children

/-- Whether the search among several nodes meets one that cannot be compared. -/
def strandsAmong (position : Int) : List Node → Bool
  | [] => false
  | n :: rest =>
    if !n.isComparable position then true
    else if n.contains position then strandsFrom position n
    else strandsAmong position rest

end

/-- Whether the kind of a node can be looked up among the supported ones: lists and objects
cannot. -/
def hasPlainKind (f : Focus) : Bool :=
  match f.info.misfit? "kind" with
  | some (.array _) | some (.object _) => false
  | _ => true

/-- Whether the search for the declaration at a position meets a field of the wrong type that
it cannot use. -/
def strandsAt (f : Focus) (position : Int) : Bool :=
  strandsFrom position f.node ||
    !((f.deepestAt position).ancestors.takeWhile fun g => g.resolve?.isNone).all hasPlainKind

/-- Whether a variable or a property is initialized with a function. -/
def isFunctionVariable (f : Focus) : Bool :=
  functionOwnerKinds.contains f.kind && f.functionValue?.isSome

/-- What a node is documented as; with `functionVariables` a variable that holds a
function counts as a function. -/
def declarationKind? (f : Focus) (functionVariables : Bool) : Option DeclarationKind :=
  match supportedKind? f.kind with
  | none => none
  | some kind => if functionVariables && f.isFunctionVariable then some .method else some kind

/-- The declarations that a top-level statement brings, documented or not. -/
def candidatesOf (statement : Focus) : List Focus :=
  if statement.kind == "VariableStatement" then statement.declarations.take 1
  else if topLevelKinds.contains statement.kind then
    statement ::
      (if classLikeKinds.contains statement.kind then statement.childrenOfKind memberKinds else [])
  else []

/-- The declarations of a file that still lack a header, from the last insertion offset
to the first; those at one offset stay in tree order. A header inserted for one thus
never moves those that follow in the list. -/
def pending (root : Focus) : List Focus :=
  ((root.children.flatMap candidatesOf).filter fun f => !f.hasHeader).mergeSort
    fun a b => b.insertionOffset ≤ a.insertionOffset

/-- Whether the declarations that lack a header cannot be put in order, as the place of one is
null and there are others to compare it with. -/
def isUnsortable (root : Focus) : Bool :=
  1 < root.pending.length && root.pending.any isUnplaced

end Focus

end DocHeader

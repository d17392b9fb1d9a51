import DocHeader.Proofs.Syntax.TreeOrder
import DocHeader.Declaration.Classify

/-!
# Trees without types

A tree without types has lost the types that are written, the types and return types that the
checker found, and the constraints of type parameters. Its nodes stand at the same places, and
everything else is known of them as before: names, modifiers, headers, the owner of a header and
what a node is documented as.

## Main definitions

* `Node.untyped`, `Focus.untyped` — a tree, or a node in its tree, without types.
-/

namespace DocHeader

/-- What is known of a node but for types. -/
def NodeInfo.untyped (info : NodeInfo) : NodeInfo :=
  { info with annotation := none, inferredType := none, inferredReturn := none, constraint := none }

namespace Node

mutual

/-- A node and everything below it without types. -/
def untyped : Node → Node
  | .mk info children => .mk info.untyped (untypedAll children)

/-- Nodes and everything below them without types. -/
def untypedAll : List Node → List Node
  | [] => []
  | n :: rest => n.untyped :: untypedAll rest

end

theorem untypedAll_eq_map (nodes : List Node) : untypedAll nodes = nodes.map untyped := by
  induction nodes with
  | nil => rfl
  | cons n rest ih => rw [untypedAll, ih, List.map_cons]

@[simp] theorem info_untyped (n : Node) : n.untyped.info = n.info.untyped := by
  cases n
  rfl

@[simp] theorem children_untyped (n : Node) : n.untyped.children = n.children.map untyped := by
  cases n with
  | mk info children => exact untypedAll_eq_map children

@[simp] theorem kind_untyped (n : Node) : n.untyped.kind = n.kind := by
  rw [kind, info_untyped]
  rfl

@[simp] theorem hasModifier_untyped (n : Node) (modifier : String) :
    n.untyped.hasModifier modifier = n.hasModifier modifier := by
  rw [hasModifier, info_untyped]
  rfl

end Node

namespace Focus

/-- A node in its tree without types. -/
def untyped (f : Focus) : Focus :=
  ⟨f.node.untyped, f.above.map fun step => (step.1.untyped, step.2)⟩

variable (f : Focus)

@[simp] theorem untyped_root (n : Node) : (root n).untyped = root n.untyped := rfl

@[simp] theorem node_untyped : f.untyped.node = f.node.untyped := rfl

@[simp] theorem info_untyped : f.untyped.info = f.info.untyped := f.node.info_untyped

@[simp] theorem kind_untyped : f.untyped.kind = f.kind := f.node.kind_untyped

@[simp] theorem parent?_untyped : f.untyped.parent? = f.parent?.map untyped := by
  obtain ⟨n, above⟩ := f
  cases above <;> rfl

theorem onChildren_untyped (n : Node) (above : List (Node × Nat)) (i : Nat) (rest : List Node) :
    onChildren n.untyped (above.map fun step => (step.1.untyped, step.2)) i
      (rest.map Node.untyped) = (onChildren n above i rest).map untyped := by
  induction rest generalizing i with
  | nil => rfl
  | cons child rest ih =>
    rw [List.map_cons, onChildren, onChildren, List.map_cons, ih]
    rfl

@[simp] theorem children_untyped : f.untyped.children = f.children.map untyped := by
  rw [children, node_untyped, Node.children_untyped]
  exact onChildren_untyped f.node f.above 0 f.node.children

/-- The nodes of a tree stand at the same places without types. -/
theorem descend?_untyped (path : List Nat) :
    f.untyped.descend? path = (f.descend? path).map untyped := by
  induction path generalizing f with
  | nil => rfl
  | cons i path ih =>
    rw [descend?, descend?, children_untyped, List.getElem?_map]
    cases f.children[i]? with
    | none => rfl
    | some child => exact ih child

@[simp] theorem childrenOfKind_untyped (kinds : List String) :
    f.untyped.childrenOfKind kinds = (f.childrenOfKind kinds).map untyped := by
  rw [childrenOfKind, children_untyped, List.filter_map]
  simp only [Function.comp_def, kind_untyped]
  rfl

@[simp] theorem firstChildOfKind?_untyped (kinds : List String) :
    f.untyped.firstChildOfKind? kinds = (f.firstChildOfKind? kinds).map untyped := by
  rw [firstChildOfKind?, children_untyped, List.find?_map]
  simp only [Function.comp_def, kind_untyped]
  rfl

@[simp] theorem functionValue?_untyped :
    f.untyped.functionValue? = f.functionValue?.map untyped :=
  f.firstChildOfKind?_untyped _

@[simp] theorem bindingPattern?_untyped :
    f.untyped.bindingPattern? = f.bindingPattern?.map untyped :=
  f.firstChildOfKind?_untyped _

@[simp] theorem enclosingStatement?_untyped :
    f.untyped.enclosingStatement? = f.enclosingStatement?.map untyped := by
  simp only [enclosingStatement?, parent?_untyped]
  cases f.parent? with
  | none => rfl
  | some list =>
    simp only [Option.map_some, kind_untyped, parent?_untyped]
    cases list.parent? with
    | none => split <;> rfl
    | some statement =>
      simp only [Option.map_some, kind_untyped]
      split
      next => split <;> rfl
      next => rfl

@[simp] theorem owner?_untyped : f.untyped.owner? = f.owner?.map untyped := by
  simp only [owner?, kind_untyped, enclosingStatement?_untyped]
  split <;> rfl

@[simp] theorem anchor_untyped : f.untyped.anchor = f.anchor.untyped := by
  rw [anchor, anchor, owner?_untyped]
  cases f.owner? <;> rfl

@[simp] theorem headerText?_untyped : f.untyped.headerText? = f.headerText? := by
  rw [headerText?, anchor_untyped, info_untyped, info_untyped]
  rfl

@[simp] theorem hasHeader_untyped : f.untyped.hasHeader = f.hasHeader := by
  rw [hasHeader, anchor_untyped, info_untyped, info_untyped]
  rfl

@[simp] theorem isFunctionVariable_untyped :
    f.untyped.isFunctionVariable = f.isFunctionVariable := by
  simp [isFunctionVariable]

@[simp] theorem declarationKind?_untyped (functionVariables : Bool) :
    f.untyped.declarationKind? functionVariables = f.declarationKind? functionVariables := by
  simp [declarationKind?]

variable {f}

/-- What does not change when types are taken away is the same for two nodes that differ in
types alone. -/
theorem eq_of_untyped {α : Type} {g : Focus → α} (hg : ∀ f, g f.untyped = g f) {f f' : Focus}
    (h : f.untyped = f'.untyped) : g f = g f' :=
  (hg f).symm.trans ((congrArg g h).trans (hg f'))

end Focus

end DocHeader

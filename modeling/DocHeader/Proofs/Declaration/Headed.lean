import DocHeader.Proofs.Declaration.Pending
import Mathlib.Data.List.Forall2

/-!
# Trees with more headers

After headers were inserted, a file has the same tree, with a header at each node that owned one
of them. Such a tree brings the same declarations, node by node. A declaration that had a header
still has it. One that had none is documented by its anchor, so where each anchor got its header
no declaration is left without one.

## Main definitions

* `Node.Headed` — a node that has become another one by headers alone.
* `Focus.Headed` — the same node of two such trees.
* `Focus.IsOwner` — the nodes where headers are due.
-/

namespace DocHeader

section

variable {α β : Type} {R : α → β → Prop} {xs : List α} {ys : List β}

theorem head?_rel (h : List.Forall₂ R xs ys) : Option.Rel R xs.head? ys.head? := by
  cases h with
  | nil => exact .none
  | cons hfirst _ => exact .some hfirst

theorem exists_rel_of_mem (h : List.Forall₂ R xs ys) {y : β} (hy : y ∈ ys) :
    ∃ x ∈ xs, R x y := by
  induction h with
  | nil => cases hy
  | @cons x _ _ _ hfirst _ ih =>
    rcases List.mem_cons.mp hy with rfl | hy
    · exact ⟨x, List.mem_cons_self, hfirst⟩
    · obtain ⟨x', hx', hrel⟩ := ih hy
      exact ⟨x', List.mem_cons_of_mem x hx', hrel⟩

end

namespace Node

mutual

/-- The second node is the first one, with a header at each owned path. The kinds are the same
node by node, and no header is lost. Offsets and texts may be any. -/
def Headed (owned : List Nat → Prop) (path : List Nat) : Node → Node → Prop
  | .mk info children, .mk info' children' =>
    info'.kind = info.kind ∧
      ((given? info.header).isSome = true ∨ owned path → (given? info'.header).isSome = true) ∧
      HeadedFrom owned path 0 children children'

/-- The same for children from index `i` on. -/
def HeadedFrom (owned : List Nat → Prop) (path : List Nat) (i : Nat) :
    List Node → List Node → Prop
  | [], [] => True
  | child :: rest, child' :: rest' =>
    child.Headed owned (path ++ [i]) child' ∧ HeadedFrom owned path (i + 1) rest rest'
  | _, _ => False

end

mutual

/-- Whether a node is another one with more headers can be decided. -/
def decidableHeaded (owned : List Nat → Prop) [DecidablePred owned] (path : List Nat) :
    (n n' : Node) → Decidable (n.Headed owned path n')
  | .mk info children, .mk info' children' =>
    have := decidableHeadedFrom owned path 0 children children'
    decidable_of_iff (info'.kind = info.kind ∧
      ((given? info.header).isSome = true ∨ owned path → (given? info'.header).isSome = true) ∧
      HeadedFrom owned path 0 children children') (by rw [Headed])

/-- The same for children from index `i` on. -/
def decidableHeadedFrom (owned : List Nat → Prop) [DecidablePred owned] (path : List Nat)
    (i : Nat) : (children children' : List Node) →
      Decidable (HeadedFrom owned path i children children')
  | [], [] => .isTrue (by rw [HeadedFrom]; trivial)
  | child :: rest, child' :: rest' =>
    have := decidableHeaded owned (path ++ [i]) child child'
    have := decidableHeadedFrom owned path (i + 1) rest rest'
    decidable_of_iff (child.Headed owned (path ++ [i]) child' ∧
      HeadedFrom owned path (i + 1) rest rest') (by rw [HeadedFrom])
  | [], _ :: _ => .isFalse (by simp [HeadedFrom])
  | _ :: _, [] => .isFalse (by simp [HeadedFrom])

end

instance (owned : List Nat → Prop) [DecidablePred owned] (path : List Nat) (n n' : Node) :
    Decidable (n.Headed owned path n') := decidableHeaded owned path n n'

variable {owned : List Nat → Prop} {path : List Nat} {n n' : Node}

namespace Headed

theorem kind_eq (h : n.Headed owned path n') : n'.kind = n.kind := by
  cases n
  cases n'
  simp only [Headed] at h
  exact h.1

theorem header (h : n.Headed owned path n')
    (hheader : (given? n.info.header).isSome = true ∨ owned path) :
    (given? n'.info.header).isSome = true := by
  cases n
  cases n'
  simp only [Headed] at h
  exact h.2.1 hheader

theorem children (h : n.Headed owned path n') :
    HeadedFrom owned path 0 n.children n'.children := by
  cases n
  cases n'
  simp only [Headed] at h
  exact h.2.2

end Headed

end Node

namespace Focus

/-- The same node of two trees, the second of which has a header at each owned path. -/
inductive Headed (owned : List Nat → Prop) : Focus → Focus → Prop where
  | root {n n' : Node} (h : n.Headed owned [] n') : Headed owned (.root n) (.root n')
  | child {f f' : Focus} {i : Nat} {c c' : Node} (habove : Headed owned f f')
    (h : c.Headed owned (f.path ++ [i]) c') :
    Headed owned ⟨c, (f.node, i) :: f.above⟩ ⟨c', (f'.node, i) :: f'.above⟩

variable {owned : List Nat → Prop} {f f' tree tree' : Focus}

namespace Headed

theorem node (h : f.Headed owned f') : f.node.Headed owned f.path f'.node := by
  cases h with
  | root h => exact h
  | @child f f' i c c' _ h =>
    have hpath : path ⟨c, (f.node, i) :: f.above⟩ = f.path ++ [i] := by simp [path]
    rw [hpath]
    exact h

theorem kind_eq (h : f.Headed owned f') : f'.kind = f.kind := h.node.kind_eq

/-! ## Ways through the tree -/

theorem parent (h : f.Headed owned f') : Option.Rel (Headed owned) f.parent? f'.parent? := by
  cases h with
  | root => exact .none
  | child habove => exact .some habove

theorem children (h : f.Headed owned f') :
    List.Forall₂ (Headed owned) f.children f'.children := by
  have hlisted (i : Nat) {rest rest' : List Node}
      (hrest : Node.HeadedFrom owned f.path i rest rest') :
      List.Forall₂ (Headed owned) (onChildren f.node f.above i rest)
        (onChildren f'.node f'.above i rest') := by
    induction rest generalizing i rest' with
    | nil =>
      cases rest' with
      | nil => exact .nil
      | cons => simp [Node.HeadedFrom] at hrest
    | cons c rest ih =>
      cases rest' with
      | nil => simp [Node.HeadedFrom] at hrest
      | cons c' rest' =>
        simp only [Node.HeadedFrom] at hrest
        exact .cons (.child h hrest.1) (ih (i + 1) hrest.2)
  exact hlisted 0 h.node.children

theorem childrenOfKind (h : f.Headed owned f') (kinds : List String) :
    List.Forall₂ (Headed owned) (f.childrenOfKind kinds) (f'.childrenOfKind kinds) := by
  refine List.rel_filter ?_ h.children
  intro c c' hc
  simp only [hc.kind_eq]

theorem firstChildOfKind (h : f.Headed owned f') (kinds : List String) :
    Option.Rel (Headed owned) (f.firstChildOfKind? kinds) (f'.firstChildOfKind? kinds) := by
  simp only [firstChildOfKind?, ← List.head?_filter]
  exact head?_rel (h.childrenOfKind kinds)

theorem declarations (h : f.Headed owned f') :
    List.Forall₂ (Headed owned) f.declarations f'.declarations := by
  simp only [Focus.declarations, h.kind_eq]
  split
  · have hfirst := h.firstChildOfKind ["VariableDeclarationList"]
    generalize f.firstChildOfKind? ["VariableDeclarationList"] = list at hfirst
    generalize f'.firstChildOfKind? ["VariableDeclarationList"] = list' at hfirst
    cases hfirst with
    | none => exact .nil
    | some hlist => exact hlist.childrenOfKind _
  · exact h.childrenOfKind _

theorem candidatesOf (h : f.Headed owned f') :
    List.Forall₂ (Headed owned) (candidatesOf f) (candidatesOf f') := by
  simp only [Focus.candidatesOf, h.kind_eq]
  split
  · exact List.forall₂_take 1 h.declarations
  · split
    · refine .cons h ?_
      split
      · exact h.childrenOfKind _
      · exact .nil
    · exact .nil

theorem enclosingStatement (h : f.Headed owned f') :
    Option.Rel (Headed owned) f.enclosingStatement? f'.enclosingStatement? := by
  have hparent := h.parent
  unfold enclosingStatement?
  generalize f.parent? = list at hparent
  generalize f'.parent? = list' at hparent
  cases hparent with
  | none => exact .none
  | @some list list' hlist =>
    have hparent := hlist.parent
    simp only [hlist.kind_eq]
    generalize list.parent? = statement at hparent
    generalize list'.parent? = statement' at hparent
    cases hparent with
    | none => split <;> exact .none
    | some hstatement =>
      simp only [hstatement.kind_eq]
      split
      · split
        · exact .some hstatement
        · exact .none
      · exact .none

/-- The anchors of the same declaration are the same node. -/
theorem anchor (h : f.Headed owned f') : Headed owned f.anchor f'.anchor := by
  have howner : Option.Rel (Headed owned) f.owner? f'.owner? := by
    simp only [owner?, h.kind_eq]
    split
    · exact h.enclosingStatement
    · exact .none
  unfold Focus.anchor
  generalize f.owner? = owner at howner
  generalize f'.owner? = owner' at howner
  cases howner with
  | none => exact h
  | some howner => exact howner

/-! ## Headers -/

/-- A declaration that had a header still has it. -/
theorem hasHeader (h : f.Headed owned f') (hheader : f.hasHeader = true) :
    f'.hasHeader = true := by
  simp only [Focus.hasHeader, Bool.or_eq_true] at hheader ⊢
  exact hheader.imp (fun hown => h.node.header (.inl hown))
    fun hanchor => h.anchor.node.header (.inl hanchor)

/-- A declaration whose anchor got a header has one. -/
theorem hasHeader_of_owned (h : f.Headed owned f') (howned : owned f.anchor.path) :
    f'.hasHeader = true := by
  simp only [Focus.hasHeader, Bool.or_eq_true]
  exact .inr (h.anchor.node.header (.inr howned))

end Headed

/-- The declarations of the second tree are those of the first. -/
theorem Headed.candidate (h : tree.Headed owned tree') (hf' : tree'.IsCandidate f') :
    ∃ f, tree.IsCandidate f ∧ f.Headed owned f' := by
  have hall : List.Forall₂ (Headed owned) (tree.children.flatMap Focus.candidatesOf)
      (tree'.children.flatMap Focus.candidatesOf) :=
    List.rel_flatMap h.children fun _ _ hstatement => hstatement.candidatesOf
  obtain ⟨statement', hstatement', hmem'⟩ := hf'
  obtain ⟨f, hmem, hheaded⟩ :=
    exists_rel_of_mem hall (List.mem_flatMap.mpr ⟨statement', hstatement', hmem'⟩)
  obtain ⟨statement, hstatement, hf⟩ := List.mem_flatMap.mp hmem
  exact ⟨f, ⟨statement, hstatement, hf⟩, hheaded⟩

/-- The path of a node that owns the header of a declaration still without one. -/
def IsOwner (tree : Focus) (path : List Nat) : Prop := ∃ f ∈ tree.pending, f.anchor.path = path

instance (tree : Focus) : DecidablePred tree.IsOwner := fun path =>
  inferInstanceAs (Decidable (∃ f ∈ tree.pending, f.anchor.path = path))

/-- **Nothing is left to document.** Where each declaration without a header got one at its
anchor, none is left without one. -/
theorem pending_eq_nil_of_headed (h : tree.Headed tree.IsOwner tree') : tree'.pending = [] := by
  refine List.eq_nil_iff_forall_not_mem.mpr ?_
  intro f' hf'
  obtain ⟨hcandidate', hbare'⟩ := mem_pending.mp hf'
  obtain ⟨f, hcandidate, hheaded⟩ := h.candidate hcandidate'
  have hheader : f'.hasHeader = true := by
    cases hbare : f.hasHeader with
    | true => exact hheaded.hasHeader hbare
    | false => exact hheaded.hasHeader_of_owned ⟨f, mem_pending.mpr ⟨hcandidate, hbare⟩, rfl⟩
  rw [hheader] at hbare'
  cases hbare'

end Focus

end DocHeader

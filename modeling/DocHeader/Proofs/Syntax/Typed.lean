import DocHeader.Declaration.Classify
import DocHeader.Proofs.Declaration.Deepest

/-!
# Trees with fields of their types

In a tree all of whose fields are of their types no node holds a value of the wrong type. The
same is true of every node that is reached from one of its nodes, up or down. So the search for
the declaration at a position never meets a field that it cannot use.

## Main definitions

* `Node.isTyped`, `Focus.isTyped` — no field of a node, or of one above or below it, is of the
  wrong type.
* `Focus.strandsAt_of_isTyped` — the search in such a tree.
-/

namespace DocHeader

namespace Node

mutual

/-- Whether every field of the node and of the nodes below it is of its type. -/
def isTyped : Node → Bool
  | .mk info children => info.mistyped.isEmpty && allTyped children

/-- Whether every field of several nodes and of those below them is of its type. -/
def allTyped : List Node → Bool
  | [] => true
  | n :: rest => isTyped n && allTyped rest

end

theorem allTyped_iff (nodes : List Node) :
    allTyped nodes = true ↔ ∀ n ∈ nodes, n.isTyped = true := by
  induction nodes with
  | nil => simp [allTyped]
  | cons n rest ih => simp [allTyped, ih]

theorem isTyped_iff (n : Node) :
    n.isTyped = true ↔ n.info.mistyped = [] ∧ ∀ child ∈ n.children, child.isTyped = true := by
  cases n with
  | mk info children => simp [isTyped, allTyped_iff, Node.info, Node.children]

theorem misfit?_of_isTyped {n : Node} (h : n.isTyped = true) (field : String) :
    n.info.misfit? field = none := by
  rw [NodeInfo.misfit?, ((isTyped_iff n).mp h).1, Json.lookup, Association.get?_nil]

theorem holdsNull_of_isTyped {n : Node} (h : n.isTyped = true) (field : String) :
    n.info.holdsNull field = false := by
  rw [NodeInfo.holdsNull, misfit?_of_isTyped h, Option.any_none]

end Node

namespace Focus

variable {f g : Focus} {kinds : List String}

/-- Whether every field of the node, of its parents and of the nodes below them is of its
type. -/
def isTyped (f : Focus) : Bool := f.node.isTyped && f.above.all fun parent => parent.1.isTyped

theorem isTyped_iff : f.isTyped = true ↔
    f.node.isTyped = true ∧ ∀ parent ∈ f.above, parent.1.isTyped = true := by
  rw [isTyped, Bool.and_eq_true, List.all_eq_true]

theorem misfit?_of_isTyped (h : f.isTyped = true) (field : String) : f.info.misfit? field = none :=
  Node.misfit?_of_isTyped (isTyped_iff.mp h).1 field

theorem givesMisfit_of_isTyped (h : f.isTyped = true) (field : String) :
    f.info.givesMisfit field = false := by
  rw [NodeInfo.givesMisfit, misfit?_of_isTyped h]
  rfl

/-! ## Other nodes of the tree -/

theorem isTyped_of_mem_children (h : f.isTyped = true) (hg : g ∈ f.children) :
    g.isTyped = true := by
  obtain ⟨hnode, habove⟩ := isTyped_iff.mp h
  obtain ⟨i, n, hn, rfl⟩ := mem_children.mp hg
  have hchildren := ((Node.isTyped_iff f.node).mp hnode).2
  exact isTyped_iff.mpr ⟨hchildren n (List.mem_of_getElem? hn),
    List.forall_mem_cons.mpr ⟨hnode, habove⟩⟩

theorem isTyped_of_parent? (h : f.isTyped = true) (hg : f.parent? = some g) :
    g.isTyped = true := by
  obtain ⟨n, above⟩ := f
  obtain ⟨-, habove⟩ := isTyped_iff.mp h
  cases above with
  | nil => cases hg
  | cons parent above =>
    cases hg
    obtain ⟨hparent, hothers⟩ := List.forall_mem_cons.mp habove
    exact isTyped_iff.mpr ⟨hparent, hothers⟩

theorem isTyped_of_mem_childrenOfKind (h : f.isTyped = true) (hg : g ∈ f.childrenOfKind kinds) :
    g.isTyped = true :=
  isTyped_of_mem_children h (List.mem_filter.mp hg).1

theorem isTyped_of_firstChildOfKind? (h : f.isTyped = true)
    (hg : f.firstChildOfKind? kinds = some g) : g.isTyped = true :=
  isTyped_of_mem_children h (List.mem_of_find?_eq_some hg)

theorem isTyped_of_mem_declarations (h : f.isTyped = true) (hg : g ∈ f.declarations) :
    g.isTyped = true := by
  unfold declarations at hg
  split at hg
  · split at hg
    next list hlist =>
      exact isTyped_of_mem_childrenOfKind (isTyped_of_firstChildOfKind? h hlist) hg
    next => cases hg
  · exact isTyped_of_mem_childrenOfKind h hg

theorem isTyped_anchor (h : f.isTyped = true) : f.anchor.isTyped = true := by
  unfold anchor owner? enclosingStatement?
  split
  · split
    next list hlist =>
      split
      · split
        next statement hstatement =>
          split
          · exact isTyped_of_parent? (isTyped_of_parent? h hlist) hstatement
          · exact h
        next => exact h
      · exact h
    next => exact h
  · exact h

theorem isUnplaced_of_isTyped (h : f.isTyped = true) : f.isUnplaced = false := by
  have hanchor := ((isTyped_iff (f := f.anchor)).mp (isTyped_anchor h)).1
  simp [isUnplaced, info, Node.holdsNull_of_isTyped hanchor]

theorem isTyped_of_mem_ancestors (h : f.isTyped = true) (hg : g ∈ f.ancestors) :
    g.isTyped = true := by
  obtain ⟨n, above⟩ := f
  induction above generalizing n with
  | nil =>
    rcases List.mem_singleton.mp hg with rfl
    exact h
  | cons parent above ih =>
    rcases List.mem_cons.mp hg with rfl | hg
    · exact h
    · exact ih parent.1 (isTyped_of_parent? h rfl) hg

theorem isTyped_deepestAt (f : Focus) (h : f.isTyped = true) (position : Int) :
    (f.deepestAt position).isTyped = true := by
  induction f using induction with
  | node f ih =>
    rcases deepestAt_cases f position with ⟨hhere, -⟩ | ⟨_, child, _, hsplit, -, -, hnext⟩
    · rw [hhere]
      exact h
    · have hchild : child ∈ f.children := by simp [hsplit]
      rw [hnext]
      exact ih child hchild (isTyped_of_mem_children h hchild)

theorem isTyped_of_resolve? (h : f.isTyped = true) (hg : f.resolve? = some g) :
    g.isTyped = true := by
  unfold resolve? at hg
  split at hg
  · exact isTyped_of_mem_declarations h (List.mem_of_head? hg)
  · split at hg
    · split at hg
      next owner howner =>
        split at hg
        · cases hg
          exact isTyped_of_parent? h howner
        · cases hg
      next => cases hg
    · split at hg
      · cases hg
        exact h
      · cases hg

theorem isTyped_of_classifyAt? (h : f.isTyped = true) {position : Int}
    (hg : f.classifyAt? position = some g) : g.isTyped = true := by
  obtain ⟨node, hnode, hresolve⟩ := List.exists_of_findSome?_eq_some hg
  exact isTyped_of_resolve? (isTyped_of_mem_ancestors (isTyped_deepestAt f h position) hnode)
    hresolve

theorem isTyped_of_mem_candidatesOf (h : f.isTyped = true) (hg : g ∈ f.candidatesOf) :
    g.isTyped = true := by
  unfold candidatesOf at hg
  split at hg
  · exact isTyped_of_mem_declarations h (List.mem_of_mem_take hg)
  · split at hg
    · rcases List.mem_cons.mp hg with rfl | hg
      · exact h
      · split at hg
        · exact isTyped_of_mem_childrenOfKind h hg
        · cases hg
    · cases hg

theorem isTyped_of_mem_pending (h : f.isTyped = true) (hg : g ∈ f.pending) : g.isTyped = true := by
  simp only [pending, List.mem_mergeSort, List.mem_filter, List.mem_flatMap] at hg
  obtain ⟨⟨statement, hstatement, hg⟩, -⟩ := hg
  exact isTyped_of_mem_candidatesOf (isTyped_of_mem_children h hstatement) hg

/-! ## The search for a position -/

theorem isComparable_of_isTyped {n : Node} (h : n.isTyped = true) (position : Int) :
    n.isComparable position = true := by
  simp [Node.isComparable, Node.misfit?_of_isTyped h, Node.holdsNull_of_isTyped h]

mutual

theorem strandsFrom_of_isTyped (position : Int) :
    (n : Node) → n.isTyped = true → strandsFrom position n = false
  | .mk _ children, h => by
    rw [strandsFrom]
    exact strandsAmong_of_isTyped position children ((Node.isTyped_iff _).mp h).2

theorem strandsAmong_of_isTyped (position : Int) :
    (nodes : List Node) → (∀ n ∈ nodes, n.isTyped = true) → strandsAmong position nodes = false
  | [], _ => rfl
  | n :: rest, h => by
    obtain ⟨hn, hrest⟩ := List.forall_mem_cons.mp h
    rw [strandsAmong, isComparable_of_isTyped hn, strandsFrom_of_isTyped position n hn,
      strandsAmong_of_isTyped position rest hrest]
    simp

end

/-- The search in a tree with fields of their types meets none that it cannot use. -/
theorem strandsAt_of_isTyped (h : f.isTyped = true) (position : Int) :
    f.strandsAt position = false := by
  have hkinds : ∀ g ∈ (f.deepestAt position).ancestors.takeWhile fun g => g.resolve?.isNone,
      g.hasPlainKind = true := by
    intro g hg
    have hmem := (List.takeWhile_sublist _).subset hg
    have htyped := isTyped_of_mem_ancestors (isTyped_deepestAt f h position) hmem
    rw [hasPlainKind, misfit?_of_isTyped htyped]
  rw [strandsAt, strandsFrom_of_isTyped position f.node (isTyped_iff.mp h).1,
    List.all_eq_true.mpr hkinds]
  rfl

end Focus

end DocHeader

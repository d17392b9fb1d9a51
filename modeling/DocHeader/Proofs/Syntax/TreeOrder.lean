import DocHeader.Syntax.Focus
import Mathlib.Data.List.Flatten

/-!
# The order of a tree

A walk lists a node before everything below it, and what lies below one child before what
lies below the next. That is the lexicographic order of the paths from the root, so the
paths of two nodes tell which of them comes first in the source.

## Main definitions

* `Focus.induction` — induction from the leaves of a tree upwards.
* `Focus.walk_eq` — a walk from the walks of the children.
* `Focus.walk_inOrder` — a walk lists the paths in lexicographic order.
-/

namespace DocHeader.Focus

variable {f g child : Focus} {n : Node} {above : List (Node × Nat)} {i : Nat}

/-! ## Children -/

theorem getElem?_onChildren (n : Node) (above : List (Node × Nat)) (i j : Nat) (rest : List Node) :
    (onChildren n above i rest)[j]? = rest[j]?.map fun c => ⟨c, (n, i + j) :: above⟩ := by
  induction rest generalizing i j with
  | nil => simp [onChildren]
  | cons c rest ih =>
    cases j with
    | zero => simp [onChildren]
    | succ j => simp [onChildren, ih, Nat.add_assoc, Nat.add_comm 1 j]

theorem getElem?_children (f : Focus) (i : Nat) :
    f.children[i]? = f.node.children[i]?.map fun c => ⟨c, (f.node, i) :: f.above⟩ := by
  simp [children, getElem?_onChildren]

theorem mem_children : child ∈ f.children ↔
    ∃ i c, f.node.children[i]? = some c ∧ ⟨c, (f.node, i) :: f.above⟩ = child := by
  simp only [List.mem_iff_getElem?, getElem?_children, Option.map_eq_some_iff]

/-- The nodes of the children are the children of the node. -/
theorem map_node_children (f : Focus) : f.children.map Focus.node = f.node.children := by
  refine List.ext_getElem? fun i => ?_
  simp [getElem?_children, Function.comp_def]

theorem sizeOf_lt_of_mem_children (h : child ∈ f.children) : sizeOf child.node < sizeOf f.node := by
  have hmem : child.node ∈ f.node.children := map_node_children f ▸ List.mem_map_of_mem h
  have hlt := List.sizeOf_lt_of_mem hmem
  cases hnode : f.node with
  | mk info rest =>
    simp only [hnode, Node.children] at hlt
    simp only [Node.mk.sizeOf_spec]
    omega

/-- What holds of a node whenever it holds of its children holds of every node. -/
@[elab_as_elim]
theorem induction {motive : Focus → Prop}
    (node : ∀ f, (∀ child ∈ f.children, motive child) → motive f) (f : Focus) : motive f :=
  node f fun child _ => induction node child
termination_by sizeOf f.node
decreasing_by exact sizeOf_lt_of_mem_children ‹_›

/-! ## Walks -/

theorem walkChildren_eq (n : Node) (above : List (Node × Nat)) (i : Nat) (rest : List Node) :
    walkChildren n above i rest = (onChildren n above i rest).flatMap walk := by
  induction rest generalizing i with
  | nil => rfl
  | cons c rest ih => simp [walkChildren, onChildren, ih, walk]

/-- A walk lists the node, and then the walks of its children. -/
theorem walk_eq (f : Focus) : f.walk = f :: f.children.flatMap walk := by
  obtain ⟨⟨info, rest⟩, above⟩ := f
  simp [walk, walkFrom, walkChildren_eq, children, Node.children]

theorem mem_walk_self (f : Focus) : f ∈ f.walk := by simp [walk_eq f]

theorem mem_walk_of_mem_children (hchild : child ∈ f.children) (hg : g ∈ child.walk) :
    g ∈ f.walk := by
  rw [walk_eq]
  exact List.mem_cons_of_mem _ (List.mem_flatMap.mpr ⟨child, hchild, hg⟩)

/-- A walk comes to the children of every node it comes to. -/
theorem mem_walk_of_mem_walk_children (f : Focus) :
    ∀ g ∈ f.walk, ∀ child ∈ g.children, child ∈ f.walk := by
  induction f using induction with
  | node f ih =>
    intro g hg child hchild
    rw [walk_eq, List.mem_cons, List.mem_flatMap] at hg
    rcases hg with rfl | ⟨sibling, hsibling, hg⟩
    · exact mem_walk_of_mem_children hchild (mem_walk_self child)
    · exact mem_walk_of_mem_children hsibling (ih sibling hsibling g hg child hchild)

/-- The walks of some of the children, in their order, are a part of the walk. -/
theorem flatMap_walk_sublist {picked : List Focus} (h : picked.Sublist f.children) :
    (picked.flatMap walk).Sublist f.walk := by
  rw [walk_eq]
  exact (h.flatMap walk).cons f

/-- Some of the children are a part of what a walk lists below the node. -/
theorem sublist_flatMap_walk (picked : List Focus) : picked.Sublist (picked.flatMap walk) := by
  induction picked with
  | nil => exact .slnil
  | cons c rest ih =>
    rw [List.flatMap_cons, walk_eq c, List.cons_append]
    exact (ih.trans (List.sublist_append_right _ _)).cons_cons c

/-! ## Paths -/

theorem path_child (h : f.children[i]? = some child) : child.path = f.path ++ [i] := by
  rw [getElem?_children] at h
  obtain ⟨c, -, rfl⟩ := Option.map_eq_some_iff.mp h
  simp [path]

/-- A node of a walk lies below the node the walk starts at. -/
theorem path_of_mem_walk (f : Focus) : ∀ g ∈ f.walk, f.path <+: g.path := by
  induction f using induction with
  | node f ih =>
    intro g hg
    rw [walk_eq, List.mem_cons, List.mem_flatMap] at hg
    rcases hg with rfl | ⟨child, hchild, hg⟩
    · exact List.prefix_rfl
    · obtain ⟨i, hi⟩ := List.mem_iff_getElem?.mp hchild
      have hpath : f.path ++ [i] <+: g.path := path_child hi ▸ ih child hchild g hg
      exact (List.prefix_append _ _).trans hpath

/-- A node of the walk of a child lies below that child. -/
theorem path_of_mem_walk_child (hi : f.children[i]? = some child) (hg : g ∈ child.walk) :
    ∃ rest, g.path = f.path ++ i :: rest := by
  obtain ⟨rest, hrest⟩ := path_of_mem_walk child g hg
  exact ⟨rest, by rw [← hrest, path_child hi]; simp⟩

/-- A walk lists the nodes in the lexicographic order of their paths. -/
theorem walk_inOrder (f : Focus) : f.walk.Pairwise fun a b => a.path < b.path := by
  induction f using induction with
  | node f ih =>
    rw [walk_eq, List.pairwise_cons, List.pairwise_flatMap]
    refine ⟨?_, ih, ?_⟩
    · -- the node comes before everything below it
      intro g hg
      obtain ⟨child, hchild, hg⟩ := List.mem_flatMap.mp hg
      obtain ⟨i, hi⟩ := List.mem_iff_getElem?.mp hchild
      obtain ⟨rest, hrest⟩ := path_of_mem_walk_child hi hg
      have hlt : f.path ++ [] < f.path ++ i :: rest := List.append_left_lt (List.nil_lt_cons i rest)
      simpa [hrest] using hlt
    · -- below different children the indices of the children decide
      rw [List.pairwise_iff_getElem]
      intro i j hi hj hij a ha b hb
      obtain ⟨rest, hrest⟩ := path_of_mem_walk_child (List.getElem?_eq_getElem hi) ha
      obtain ⟨rest', hrest'⟩ := path_of_mem_walk_child (List.getElem?_eq_getElem hj) hb
      have hlt : i :: rest < j :: rest' := by simp [List.cons_lt_cons_iff, hij]
      rw [hrest, hrest']
      exact List.append_left_lt hlt

/-! ## Ancestors -/

/-- The ancestors are the node and the ancestors of its parent. -/
theorem ancestors_eq (f : Focus) : f.ancestors = f :: (f.parent?.map ancestors).getD [] := by
  obtain ⟨n, above⟩ := f
  cases above <;> rfl

theorem mem_ancestors_self (f : Focus) : f ∈ f.ancestors := by simp [ancestors_eq f]

/-- The ancestors of a child are the child and the ancestors of its parent. -/
theorem ancestors_child (h : child ∈ f.children) : child.ancestors = child :: f.ancestors := by
  obtain ⟨i, c, -, rfl⟩ := mem_children.mp h
  rfl

/-- A node has the ancestors of every node it lies below. -/
theorem ancestors_suffix_of_mem_walk (f : Focus) : ∀ g ∈ f.walk, f.ancestors <:+ g.ancestors := by
  induction f using induction with
  | node f ih =>
    intro g hg
    rw [walk_eq, List.mem_cons, List.mem_flatMap] at hg
    rcases hg with rfl | ⟨child, hchild, hg⟩
    · exact List.suffix_rfl
    · have hsuffix : f.ancestors <:+ child.ancestors :=
        ancestors_child hchild ▸ List.suffix_cons child f.ancestors
      exact hsuffix.trans (ih child hchild g hg)

/-- An ancestor of a node of a walk is listed too, or lies above the walk. -/
theorem mem_walk_or_mem_ancestors (f : Focus) :
    ∀ g ∈ f.walk, ∀ a ∈ g.ancestors, a ∈ f.walk ∨ a ∈ f.ancestors := by
  induction f using induction with
  | node f ih =>
    intro g hg a ha
    rw [walk_eq, List.mem_cons, List.mem_flatMap] at hg
    rcases hg with rfl | ⟨child, hchild, hg⟩
    · exact .inr ha
    · rcases ih child hchild g hg a ha with hbelow | habove
      · exact .inl (mem_walk_of_mem_children hchild hbelow)
      · rw [ancestors_child hchild, List.mem_cons] at habove
        rcases habove with rfl | habove
        · exact .inl (mem_walk_of_mem_children hchild (mem_walk_self a))
        · exact .inr habove

/-- The ancestors of a node of a tree are nodes of the tree. -/
theorem mem_walk_of_mem_ancestors {a : Focus} (hg : g ∈ (root n).walk) (ha : a ∈ g.ancestors) :
    a ∈ (root n).walk := by
  rcases mem_walk_or_mem_ancestors (root n) g hg a ha with hbelow | habove
  · exact hbelow
  · obtain rfl : a = root n := by simpa [ancestors, ancestorsFrom, root] using habove
    exact mem_walk_self _

end DocHeader.Focus

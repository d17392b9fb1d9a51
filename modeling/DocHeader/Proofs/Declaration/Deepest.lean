import DocHeader.Declaration.Classify
import DocHeader.Proofs.Syntax.TreeOrder

/-!
# The deepest node at a position

The search for the node at a position goes down the tree, each time into the first child that
contains the position, and never turns back. In a tree whose siblings do not overlap it need
not: when a node holds the position strictly inside, the siblings before it end too early to
contain it, so the search runs through that node.

## Main definitions

* `Focus.Leads` — the search for a position runs from one node down to another.
* `Node.IsLaidOut` — the children of a node lie inside it, one after another.
* `Focus.IsLaidOut` — so do the children of every node of a tree.
-/

namespace DocHeader

/-- The children of a node lie within its full range, in source order and without overlap; the
end of one may touch the next. -/
structure Node.IsLaidOut (n : Node) : Prop where
  inside : ∀ child ∈ n.children, n.info.fullStart ≤ child.info.fullStart ∧
    child.info.stop ≤ n.info.stop
  inOrder : n.children.Pairwise fun earlier later => earlier.info.stop ≤ later.info.fullStart

instance (n : Node) : Decidable n.IsLaidOut :=
  decidable_of_iff
    ((∀ child ∈ n.children, n.info.fullStart ≤ child.info.fullStart ∧
      child.info.stop ≤ n.info.stop) ∧
      n.children.Pairwise fun earlier later => earlier.info.stop ≤ later.info.fullStart)
    ⟨fun h => ⟨h.1, h.2⟩, fun h => ⟨h.inside, h.inOrder⟩⟩

namespace Focus

variable {position : Int} {f g child : Focus}

/-- A position lies in the node, ends included. -/
def Contains (f : Focus) (position : Int) : Prop :=
  f.info.fullStart ≤ position ∧ position ≤ f.info.stop

/-- A position lies strictly inside the node. -/
def Surrounds (f : Focus) (position : Int) : Prop :=
  f.info.fullStart < position ∧ position < f.info.stop

theorem Surrounds.contains (h : f.Surrounds position) : f.Contains position := by
  obtain ⟨hlow, hhigh⟩ := h
  exact ⟨by omega, by omega⟩

/-- The search for a position runs from one node down to another: every node it steps to is a
child that contains the position, and no sibling before that child does. -/
inductive Leads (position : Int) : Focus → Focus → Prop where
  | here (f : Focus) : Leads position f f
  | step {f child g : Focus} {earlier later : List Focus}
    (hsplit : f.children = earlier ++ child :: later) (hcontains : child.Contains position)
    (hearlier : ∀ sibling ∈ earlier, ¬sibling.Contains position)
    (hrest : Leads position child g) : Leads position f g

/-- Every node of a tree has its children inside it, one after another. -/
def IsLaidOut (f : Focus) : Prop := ∀ g ∈ f.walk, g.node.IsLaidOut

/-! ## One step of the search -/

theorem contains_eq_true_iff : f.node.contains position = true ↔ f.Contains position := by
  simp [Node.contains, Contains, info]

theorem deepestAmong_eq (position : Int) (n : Node) (above : List (Node × Nat)) (i : Nat)
    (rest : List Node) :
    deepestAmong position n above i rest =
      ((onChildren n above i rest).find? fun child => child.node.contains position).map
        fun child => child.deepestAt position := by
  induction rest generalizing i with
  | nil => rfl
  | cons c rest ih =>
    by_cases hc : c.contains position = true
    · simp [deepestAmong, onChildren, hc, deepestAt]
    · simp [deepestAmong, onChildren, hc, ih]

/-- The search goes on from the first child that contains the position, and ends without one. -/
theorem deepestAt_eq (f : Focus) (position : Int) :
    f.deepestAt position =
      match f.children.find? fun child => child.node.contains position with
      | some child => child.deepestAt position
      | none => f := by
  obtain ⟨⟨info, rest⟩, above⟩ := f
  rw [deepestAt, deepestFrom, deepestAmong_eq]
  simp only [children, Node.children]
  cases (onChildren (.mk info rest) above 0 rest).find? fun child =>
    child.node.contains position <;> rfl

/-- The search ends at a node, or goes on from the first child that contains the position. -/
theorem deepestAt_cases (f : Focus) (position : Int) :
    (f.deepestAt position = f ∧ ∀ child ∈ f.children, ¬child.Contains position) ∨
    ∃ earlier child later, f.children = earlier ++ child :: later ∧ child.Contains position ∧
      (∀ sibling ∈ earlier, ¬sibling.Contains position) ∧
      f.deepestAt position = child.deepestAt position := by
  rw [deepestAt_eq]
  cases hfind : f.children.find? fun child => child.node.contains position with
  | none =>
    refine .inl ⟨rfl, fun child hchild hcontains => ?_⟩
    exact List.find?_eq_none.mp hfind child hchild (contains_eq_true_iff.mpr hcontains)
  | some child =>
    obtain ⟨hcontains, earlier, later, hsplit, hearlier⟩ := List.find?_eq_some_iff_append.mp hfind
    refine .inr ⟨earlier, child, later, hsplit, contains_eq_true_iff.mp hcontains, ?_, rfl⟩
    intro sibling hsibling hcontained
    have hnot := hearlier sibling hsibling
    simp [contains_eq_true_iff.mpr hcontained] at hnot

/-! ## The whole search -/

/-- The search runs down to the node it finds. -/
theorem leads_deepestAt (f : Focus) : Leads position f (f.deepestAt position) := by
  induction f using induction with
  | node f ih =>
    rcases deepestAt_cases f position with ⟨hhere, -⟩ | ⟨_, child, _, hsplit, hcontains, hearlier,
      hnext⟩
    · rw [hhere]
      exact .here f
    · rw [hnext]
      exact .step hsplit hcontains hearlier (ih child (by simp [hsplit]))

/-- No child of the node found contains the position. -/
theorem not_contains_of_mem_children_deepestAt (f : Focus) :
    ∀ child ∈ (f.deepestAt position).children, ¬child.Contains position := by
  induction f using induction with
  | node f ih =>
    rcases deepestAt_cases f position with ⟨hhere, hnone⟩ | ⟨_, child, _, hsplit, -, -, hnext⟩
    · rwa [hhere]
    · rw [hnext]
      exact ih child (by simp [hsplit])

/-- The search never leaves the tree it starts in. -/
theorem Leads.mem_walk (h : Leads position f g) : g ∈ f.walk := by
  induction h with
  | here f => exact mem_walk_self f
  | step hsplit _ _ _ ih => exact mem_walk_of_mem_children (by simp [hsplit]) ih

/-! ## Trees without overlap -/

theorem IsLaidOut.node (h : f.IsLaidOut) : f.node.IsLaidOut := h f (mem_walk_self f)

theorem IsLaidOut.of_mem_children (h : f.IsLaidOut) (hchild : child ∈ f.children) : child.IsLaidOut :=
  fun g hg => h g (mem_walk_of_mem_children hchild hg)

theorem IsLaidOut.inside (h : f.IsLaidOut) (hchild : child ∈ f.children) :
    f.info.fullStart ≤ child.info.fullStart ∧ child.info.stop ≤ f.info.stop :=
  h.node.inside child.node (map_node_children f ▸ List.mem_map_of_mem hchild)

theorem IsLaidOut.inOrder (h : f.IsLaidOut) :
    f.children.Pairwise fun earlier later => earlier.info.stop ≤ later.info.fullStart := by
  have hpair := h.node.inOrder
  rwa [← map_node_children, List.pairwise_map] at hpair

/-- What surrounds a position below a node, the node surrounds too. -/
theorem IsLaidOut.surrounds (f : Focus) (h : f.IsLaidOut) :
    ∀ g ∈ f.walk, g.Surrounds position → f.Surrounds position := by
  induction f using induction with
  | node f ih =>
    intro g hg hinside
    rw [walk_eq, List.mem_cons, List.mem_flatMap] at hg
    rcases hg with rfl | ⟨child, hchild, hg⟩
    · exact hinside
    · have hrange := h.inside hchild
      obtain ⟨hlow, hhigh⟩ := ih child hchild (h.of_mem_children hchild) g hg hinside
      exact ⟨by omega, by omega⟩

/-- The first child that contains a position is the one that surrounds it. -/
theorem IsLaidOut.eq_of_surrounds {earlier later : List Focus} {sibling : Focus}
    (h : f.IsLaidOut) (hsplit : f.children = earlier ++ child :: later)
    (hcontains : child.Contains position) (hearlier : ∀ s ∈ earlier, ¬s.Contains position)
    (hsibling : sibling ∈ f.children) (hinside : sibling.Surrounds position) : sibling = child := by
  rw [hsplit, List.mem_append, List.mem_cons] at hsibling
  rcases hsibling with hbefore | rfl | hafter
  · exact absurd hinside.contains (hearlier sibling hbefore)
  · rfl
  · -- the child would have to reach past the start of a later sibling
    have hpair := h.inOrder
    rw [hsplit, List.pairwise_append] at hpair
    have hend : child.info.stop ≤ sibling.info.fullStart :=
      (List.pairwise_cons.mp hpair.2.1).1 sibling hafter
    have hstrict := hinside.1
    have hreach := hcontains.2
    omega

/-- The search runs through every node that surrounds the position. -/
theorem IsLaidOut.mem_ancestors (f : Focus) (h : f.IsLaidOut) :
    ∀ g ∈ f.walk, g.Surrounds position → g ∈ (f.deepestAt position).ancestors := by
  induction f using induction with
  | node f ih =>
    intro g hg hinside
    rw [walk_eq, List.mem_cons, List.mem_flatMap] at hg
    rcases hg with rfl | ⟨sibling, hsibling, hg⟩
    · exact (ancestors_suffix_of_mem_walk g _ (leads_deepestAt g).mem_walk).mem
        (mem_ancestors_self g)
    · have hsurrounds := IsLaidOut.surrounds sibling (h.of_mem_children hsibling) g hg hinside
      rcases deepestAt_cases f position with ⟨-, hnone⟩ | ⟨_, child, _, hsplit, hcontains,
        hearlier, hnext⟩
      · exact absurd hsurrounds.contains (hnone sibling hsibling)
      · obtain rfl := h.eq_of_surrounds hsplit hcontains hearlier hsibling hsurrounds
        rw [hnext]
        exact ih sibling hsibling (h.of_mem_children hsibling) g hg hinside

/-- **The deepest node.** The search for a position runs from node to node, each time to the
first child that contains the position, and ends where no child does. When siblings do not
overlap, every node of the tree that surrounds the position is the node found or one of its
ancestors. -/
theorem deepestAt_spec (f : Focus) (position : Int) :
    Leads position f (f.deepestAt position) ∧
    (∀ child ∈ (f.deepestAt position).children, ¬child.Contains position) ∧
    (f.IsLaidOut →
      ∀ g ∈ f.walk, g.Surrounds position → g ∈ (f.deepestAt position).ancestors) :=
  ⟨leads_deepestAt f, not_contains_of_mem_children_deepestAt f, IsLaidOut.mem_ancestors f⟩

/-- A file with two classes that touch, the second with two members that touch. -/
def touchingClasses : Node :=
  let item (kind : String) (fullStart stop : Int) (children : List Node) : Node :=
    .mk { kind, fullStart, start := fullStart, stop, text := "" } children
  item "SourceFile" 0 20 [
    item "ClassDeclaration" 0 8 [],
    item "ClassDeclaration" 8 20 [
      item "PropertyDeclaration" 10 14 [],
      item "PropertyDeclaration" 14 18 []]]

theorem deepestAt_touchingClasses :
    (root touchingClasses).IsLaidOut ∧ ((root touchingClasses).deepestAt 14).path = [1, 0] ∧
    ∀ g ∈ (root touchingClasses).walk, g.Surrounds 14 →
      g ∈ ((root touchingClasses).deepestAt 14).ancestors := by
  have hlaidOut : (root touchingClasses).IsLaidOut := by
    unfold IsLaidOut
    decide
  exact ⟨hlaidOut, by decide, (deepestAt_spec (root touchingClasses) 14).2.2 hlaidOut⟩

end Focus

end DocHeader

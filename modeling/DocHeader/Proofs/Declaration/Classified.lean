import DocHeader.Proofs.Declaration.Selected

/-!
# The declaration that documents a node

From a node the way goes up until a node stands for a declaration: a statement or a list of
variables for its first variable, a function that is a value for the variable or the property
it is the value of, and a node of any other kind that can be documented for itself. What is
found is documented by itself, it is never the file as a whole, and the builder has a kind for
it.

## Main definitions

* `Focus.Resolves` — a node stands for a declaration.
* `Focus.DocumentedBy` — the nearest node upwards that stands for a declaration stands for it.
-/

namespace DocHeader.Focus

variable {f g : Focus} {n : Node}

/-- The kinds of nodes that stand for themselves. -/
def selfDocumentedKinds : List String :=
  ["ClassDeclaration", "ClassExpression", "InterfaceDeclaration", "PropertyDeclaration",
    "PropertySignature", "EnumMember", "GetAccessor", "SetAccessor", "EnumDeclaration",
    "FunctionDeclaration", "MethodDeclaration", "MethodSignature", "CallSignature",
    "ConstructSignature", "Constructor", "TypeAliasDeclaration", "VariableDeclaration"]

/-- A node stands for a declaration, its ancestors aside. -/
inductive Resolves : Focus → Focus → Prop where
  | ofStatement {f list g : Focus} (hkind : f.kind = "VariableStatement")
    (hlist : f.IsFirst "VariableDeclarationList" list)
    (hg : list.IsFirst "VariableDeclaration" g) : Resolves f g
  | ofList {f g : Focus} (hkind : f.kind = "VariableDeclarationList")
    (hg : f.IsFirst "VariableDeclaration" g) : Resolves f g
  | ofFunction {f g : Focus} (hkind : f.kind = "ArrowFunction" ∨ f.kind = "FunctionExpression")
    (hparent : f.parent? = some g)
    (howner : g.kind = "VariableDeclaration" ∨ g.kind = "PropertyDeclaration") : Resolves f g
  | ofSelf {f : Focus} (hkind : f.kind ∈ selfDocumentedKinds) : Resolves f f

/-- A declaration documents a node: of the node and its ancestors the nearest that stands for
any declaration stands for this one. -/
def DocumentedBy (f g : Focus) : Prop :=
  ∃ nearer node farther, f.ancestors = nearer ++ node :: farther ∧ node.Resolves g ∧
    ∀ passed ∈ nearer, ∀ h, ¬passed.Resolves h

/-! ## One node -/

/-- Besides the kinds that stand for themselves only a file can be documented. -/
theorem supportedKind?_isSome_iff (kind : String) :
    (supportedKind? kind).isSome = true ↔ kind ∈ selfDocumentedKinds ∨ kind = "SourceFile" := by
  unfold supportedKind? selfDocumentedKinds
  simp only [List.mem_cons, List.not_mem_nil]
  grind

theorem selfDocumented_iff (kind : String) :
    ((supportedKind? kind).isSome && kind != "SourceFile") = true ↔
      kind ∈ selfDocumentedKinds := by
  have hfile : "SourceFile" ∉ selfDocumentedKinds := by decide
  simp only [Bool.and_eq_true, supportedKind?_isSome_iff, bne_iff_ne]
  constructor
  · rintro ⟨hkind | hkind, hne⟩
    · exact hkind
    · exact absurd hkind hne
  · intro hkind
    exact ⟨.inl hkind, fun heq => hfile (heq ▸ hkind)⟩

/-- No node that stands for itself is a container of variables or a function that is a value. -/
theorem notMem_of_selfDocumented {kind : String} (hkind : kind ∈ selfDocumentedKinds) :
    kind ∉ bindingContainers ∧ kind ∉ functionValueKinds := by
  have hall : ∀ kind ∈ selfDocumentedKinds,
      kind ∉ bindingContainers ∧ kind ∉ functionValueKinds := by decide
  exact hall kind hkind

theorem resolve?_of_resolves (hresolves : f.Resolves g) : f.resolve? = some g := by
  cases hresolves with
  | ofStatement hkind hlist hg =>
    have hfirst := (head_declarations hkind).mpr ⟨_, hlist, hg⟩
    simpa [resolve?, bindingContainers, hkind] using hfirst
  | ofList hkind hg =>
    have hfirst := head_listedDeclarations.mpr hg
    simpa [resolve?, bindingContainers, hkind, declarations] using hfirst
  | ofFunction hkind hparent howner =>
    have hmem : g.kind ∈ functionOwnerKinds := by simpa [functionOwnerKinds] using howner
    rcases hkind with hkind | hkind <;>
      simp [resolve?, bindingContainers, functionValueKinds, hkind, hparent, hmem]
  | ofSelf hkind =>
    obtain ⟨hcontainer, hfunction⟩ := notMem_of_selfDocumented hkind
    simp [resolve?, hcontainer, hfunction, (selfDocumented_iff _).mpr hkind]

theorem resolves_of_resolve? (hresolve : f.resolve? = some g) : f.Resolves g := by
  unfold resolve? at hresolve
  split at hresolve
  next hcontainer =>
    have hkind : f.kind = "VariableDeclarationList" ∨ f.kind = "VariableStatement" := by
      simpa [bindingContainers] using hcontainer
    rcases hkind with hkind | hkind
    · have hfirst : f.listedDeclarations.head? = some g := by
        simpa [declarations, hkind] using hresolve
      exact .ofList hkind (head_listedDeclarations.mp hfirst)
    · obtain ⟨list, hlist, hg⟩ := (head_declarations hkind).mp hresolve
      exact .ofStatement hkind hlist hg
  next =>
    split at hresolve
    next hfunction =>
      have hkind : f.kind = "ArrowFunction" ∨ f.kind = "FunctionExpression" := by
        simpa [functionValueKinds] using hfunction
      split at hresolve
      next owner hparent =>
        split at hresolve
        next howner =>
          cases hresolve
          exact .ofFunction hkind hparent (by simpa [functionOwnerKinds] using howner)
        next => cases hresolve
      next => cases hresolve
    next =>
      split at hresolve
      next hself =>
        cases hresolve
        exact .ofSelf ((selfDocumented_iff _).mp hself)
      next => cases hresolve

/-- A node stands for what the search takes it to stand for. -/
theorem resolve?_eq_some : f.resolve? = some g ↔ f.Resolves g :=
  ⟨resolves_of_resolve?, resolve?_of_resolves⟩

theorem resolve?_eq_none : f.resolve? = none ↔ ∀ g, ¬f.Resolves g := by
  simp [Option.eq_none_iff_forall_ne_some, resolve?_eq_some]

/-- What a node stands for is a declaration that stands for itself. -/
theorem Resolves.selfDocumented (hresolves : f.Resolves g) : g.kind ∈ selfDocumentedKinds := by
  have hvariable : "VariableDeclaration" ∈ selfDocumentedKinds := by decide
  have hproperty : "PropertyDeclaration" ∈ selfDocumentedKinds := by decide
  cases hresolves with
  | ofStatement _ _ hg | ofList _ hg => exact hg.kind_eq ▸ hvariable
  | ofFunction _ _ howner =>
    rcases howner with hkind | hkind
    · exact hkind ▸ hvariable
    · exact hkind ▸ hproperty
  | ofSelf hkind => exact hkind

/-- What a node of a tree stands for is a node of the tree. -/
theorem Resolves.mem_walk (hresolves : f.Resolves g) (hf : f ∈ (root n).walk) :
    g ∈ (root n).walk := by
  cases hresolves with
  | ofStatement _ hlist hg =>
    exact mem_walk_of_mem_walk_children _ _ (mem_walk_of_mem_walk_children _ _ hf _ hlist.mem) _ hg.mem
  | ofList _ hg => exact mem_walk_of_mem_walk_children _ _ hf _ hg.mem
  | ofFunction _ hparent _ =>
    refine mem_walk_of_mem_ancestors hf ?_
    rw [ancestors_eq, hparent]
    exact List.mem_cons_of_mem _ (mem_ancestors_self g)
  | ofSelf => exact hf

/-! ## The way up -/

theorem classify?_eq_some : f.classify? = some g ↔ f.DocumentedBy g := by
  simp only [classify?, List.findSome?_eq_some_iff, resolve?_eq_some, resolve?_eq_none,
    DocumentedBy]

theorem classify?_eq_none :
    f.classify? = none ↔ ∀ node ∈ f.ancestors, ∀ g, ¬node.Resolves g := by
  simp only [classify?, List.findSome?_eq_none_iff, resolve?_eq_none]

/-- A declaration that stands for itself is documented by itself. -/
theorem classify?_of_selfDocumented (hkind : f.kind ∈ selfDocumentedKinds) :
    f.classify? = some f := by
  rw [classify?, ancestors_eq, List.findSome?_cons, resolve?_eq_some.mpr (.ofSelf hkind)]

theorem DocumentedBy.selfDocumented (hdocumented : f.DocumentedBy g) :
    g.kind ∈ selfDocumentedKinds := by
  obtain ⟨_, _, _, -, hresolves, -⟩ := hdocumented
  exact hresolves.selfDocumented

theorem DocumentedBy.mem_walk (hdocumented : f.DocumentedBy g) (hf : f ∈ (root n).walk) :
    g ∈ (root n).walk := by
  obtain ⟨nearer, node, farther, hsplit, hresolves, -⟩ := hdocumented
  exact hresolves.mem_walk (mem_walk_of_mem_ancestors hf (by simp [hsplit]))

/-- What can be documented is documented as something, however functions in variables count. -/
theorem declarationKind?_isSome (hkind : (supportedKind? f.kind).isSome = true)
    (functionVariables : Bool) : (f.declarationKind? functionVariables).isSome = true := by
  obtain ⟨kind, hkind⟩ := Option.isSome_iff_exists.mp hkind
  simp only [declarationKind?, hkind]
  split <;> rfl

/-- **The declaration that documents a node.** Of the node and its ancestors the nearest that
stands for a declaration decides, and nothing documents the node exactly when none of them does.
What is found lies in the tree of the node, is documented by itself and is never a file. It has
a kind to be documented as, and so has every declaration of a file that lacks a header, whether
or not variables that hold a function count as functions. -/
theorem classify_spec (f : Focus) :
    (∀ g, f.classify? = some g ↔ f.DocumentedBy g) ∧
    (f.classify? = none ↔ ∀ node ∈ f.ancestors, ∀ g, ¬node.Resolves g) ∧
    (∀ g, f.classify? = some g → g.classify? = some g ∧ g.kind ≠ "SourceFile") ∧
    (∀ n, f ∈ (root n).walk → ∀ g, f.classify? = some g → g ∈ (root n).walk) ∧
    ∀ g functionVariables, f.classify? = some g ∨ g ∈ f.pending →
      (g.declarationKind? functionVariables).isSome = true := by
  refine ⟨fun g => classify?_eq_some, classify?_eq_none, ?_, ?_, ?_⟩
  · intro g hg
    have hkind := (classify?_eq_some.mp hg).selfDocumented
    refine ⟨classify?_of_selfDocumented hkind, fun hfile => ?_⟩
    rw [hfile] at hkind
    exact absurd hkind (by decide)
  · intro n hf g hg
    exact (classify?_eq_some.mp hg).mem_walk hf
  · intro g functionVariables hg
    refine declarationKind?_isSome ?_ functionVariables
    rcases hg with hg | hg
    · exact supportedKind?_of_classify? hg
    · exact (mem_pending.mp hg).1.supportedKind?_isSome

/-- The tree of `class C { run = function () {}; }`. -/
def classWithFunction : Node :=
  let part (kind : String) (children : List Node) : Node :=
    .mk { kind, fullStart := 0, start := 0, stop := 0, text := "" } children
  part "SourceFile" [part "ClassDeclaration" [part "PropertyDeclaration" [
    part "FunctionExpression" []]]]

theorem classify_classWithFunction : ∃ file cls property value : Focus,
    (root classWithFunction).walk = [file, cls, property, value] ∧
    value.kind = "FunctionExpression" ∧ value.DocumentedBy property ∧
    property.classify? = some property ∧ property ∈ (root classWithFunction).walk ∧
    (property.declarationKind? true).isSome = true := by
  have hwalk : ∃ file cls property value : Focus,
      (root classWithFunction).walk = [file, cls, property, value] ∧
      value.kind = "FunctionExpression" ∧ value.classify? = some property :=
    ⟨_, _, _, _, rfl, rfl, rfl⟩
  obtain ⟨file, cls, property, value, hwalk, hkind, hfound⟩ := hwalk
  obtain ⟨hdocuments, -, hagain, hinside, hkinds⟩ := classify_spec value
  exact ⟨file, cls, property, value, hwalk, hkind, (hdocuments property).mp hfound,
    (hagain property hfound).1, hinside classWithFunction (by simp [hwalk]) property hfound,
    hkinds property true (.inl hfound)⟩

end DocHeader.Focus

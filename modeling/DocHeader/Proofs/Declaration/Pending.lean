import DocHeader.Header.Build

/-!
# The declarations of a file that lack a header

Each of them is of a kind that can be documented, so a builder never refuses one.

## Main definitions

* `Focus.IsCandidate` — a declaration that a top-level statement of a file brings.
-/

namespace DocHeader

namespace Focus

variable {root f : Focus} {kinds : List String}

/-- A declaration that a top-level statement of a file brings, documented or not. -/
def IsCandidate (root f : Focus) : Prop := ∃ statement ∈ root.children, f ∈ candidatesOf statement

theorem mem_pending : f ∈ root.pending ↔ root.IsCandidate f ∧ f.hasHeader = false := by
  simp [pending, IsCandidate]

theorem kind_mem_of_mem_childrenOfKind (h : f ∈ root.childrenOfKind kinds) : f.kind ∈ kinds := by
  have hkind := (List.mem_filter.mp h).2
  simpa using hkind

/-- The kinds of the declarations of a file can be documented. -/
theorem IsCandidate.supportedKind?_isSome (h : root.IsCandidate f) :
    (supportedKind? f.kind).isSome = true := by
  have htop : ∀ kind ∈ topLevelKinds, (supportedKind? kind).isSome = true := by decide
  have hmember : ∀ kind ∈ memberKinds, (supportedKind? kind).isSome = true := by decide
  have hvariable : ∀ kind ∈ ["VariableDeclaration"], (supportedKind? kind).isSome = true := by
    decide
  obtain ⟨statement, -, hf⟩ := h
  unfold candidatesOf at hf
  split at hf
  next hstatement =>
    have hdeclared : f ∈ statement.declarations := List.mem_of_mem_take hf
    rw [declarations, if_pos hstatement] at hdeclared
    split at hdeclared
    next list _ => exact hvariable _ (kind_mem_of_mem_childrenOfKind hdeclared)
    next => cases hdeclared
  next =>
    split at hf
    next hkind =>
      rcases List.mem_cons.mp hf with rfl | hf
      · exact htop _ (by simpa using hkind)
      · split at hf
        next => exact hmember _ (kind_mem_of_mem_childrenOfKind hf)
        next => cases hf
    next => cases hf

end Focus

/-- A builder does not refuse a declaration of a kind that can be documented. -/
theorem Builder.kindOf_of_supported {σ : Type} (b : Builder σ) {f : Focus}
    (h : (Focus.supportedKind? f.kind).isSome = true) : ∃ kind, b.kindOf f = .ok kind := by
  obtain ⟨kind, hkind⟩ := Option.isSome_iff_exists.mp h
  simp only [kindOf, Focus.declarationKind?, hkind]
  cases b.settings.flag .functionVariablesAsFunctions && f.isFunctionVariable with
  | true => exact ⟨.method, rfl⟩
  | false => exact ⟨kind, rfl⟩

/-- A builder does not refuse a declaration of a file. -/
theorem Builder.kindOf_of_mem_pending {σ : Type} (b : Builder σ) {root f : Focus}
    (hf : f ∈ root.pending) : ∃ kind, b.kindOf f = .ok kind :=
  b.kindOf_of_supported (Focus.mem_pending.mp hf).1.supportedKind?_isSome

end DocHeader

import DocHeader.Generation.Run
import DocHeader.Proofs.Declaration.Pending
import DocHeader.Proofs.Syntax.Typed

/-!
# The declaration at a position

A position of a text is documented by the declaration that classifies it, and by the file when
none does and nothing but blanks comes before. Elsewhere there is nothing to document. Whatever
documents a position is of a kind that can be documented.

## Main definitions

* `Focus.IsTarget` — a declaration documents a position.
* `Focus.Misplaced` — nothing documents a position.
-/

namespace DocHeader

namespace Focus

variable {tree f : Focus} {text : String} {position : Int}

/-- A position lies in a text, its end included. -/
def Inside (text : String) (position : Int) : Prop := 0 ≤ position ∧ position ≤ text.length

/-- A declaration documents a position: it classifies the position, or it is the whole file,
nothing classifies the position, and only blanks come before it. -/
def IsTarget (tree : Focus) (text : String) (position : Int) (f : Focus) : Prop :=
  Inside text position ∧
    (tree.classifyAt? position.toNat = some f ∨
      tree.classifyAt? position.toNat = none ∧ f = tree ∧
        ∀ c ∈ text.toList.take position.toNat, Text.isBlank c = true)

/-- Nothing documents a position: it lies outside the text, or nothing classifies it and
something that is no blank comes before it. -/
def Misplaced (tree : Focus) (text : String) (position : Int) : Prop :=
  position < 0 ∨ text.length < position ∨
    tree.classifyAt? position.toNat = none ∧
      ∃ c ∈ text.toList.take position.toNat, Text.isBlank c = false

/-- What documents a position is not misplaced. -/
theorem IsTarget.not_misplaced (h : tree.IsTarget text position f) :
    ¬tree.Misplaced text position := by
  obtain ⟨⟨hlow, hhigh⟩, hfound⟩ := h
  rintro (hout | hout | ⟨hnone, c, hc, hblank⟩)
  · omega
  · omega
  · rcases hfound with hsome | ⟨-, -, hblanks⟩
    · rw [hnone] at hsome
      cases hsome
    · simp [hblanks c hc] at hblank

/-- What documents a position of a tree with fields of their types has such fields as well. -/
theorem IsTarget.isTyped (h : tree.IsTarget text position f) (htyped : tree.isTyped = true) :
    f.isTyped = true := by
  obtain ⟨-, hfound | ⟨-, rfl, -⟩⟩ := h
  · exact isTyped_of_classifyAt? htyped hfound
  · exact htyped

/-! ## Kinds -/

theorem head_declarations_kind {statement : Focus} (h : statement.declarations.head? = some f) :
    f.kind = "VariableDeclaration" := by
  have hmem : f ∈ statement.declarations := List.mem_of_head? h
  have hlisted {list : Focus} (hf : f ∈ list.listedDeclarations) :
      f.kind = "VariableDeclaration" := by
    simpa [listedDeclarations, childrenOfKind] using (List.mem_filter.mp hf).2
  unfold declarations at hmem
  split at hmem
  · split at hmem
    · exact hlisted hmem
    · cases hmem
  · exact hlisted hmem

/-- A declaration that a node stands for can be documented. -/
theorem supportedKind?_of_resolve? {g : Focus} (h : f.resolve? = some g) :
    (supportedKind? g.kind).isSome = true := by
  unfold resolve? at h
  split at h
  · rw [head_declarations_kind h]
    decide
  · split at h
    · split at h
      · rename_i owner _
        split at h
        · rename_i howner
          cases h
          have hkinds : ∀ kind ∈ functionOwnerKinds, (supportedKind? kind).isSome = true := by
            decide
          exact hkinds _ (by simpa using howner)
        · cases h
      · cases h
    · split at h
      · rename_i hself
        cases h
        exact (Bool.and_eq_true _ _ ▸ hself).1
      · cases h

theorem supportedKind?_of_classify? {g : Focus} (h : f.classify? = some g) :
    (supportedKind? g.kind).isSome = true := by
  obtain ⟨node, -, hresolve⟩ := List.exists_of_findSome?_eq_some h
  exact supportedKind?_of_resolve? hresolve

/-- What documents a position of a file can be documented. -/
theorem IsTarget.supportedKind?_isSome (h : tree.IsTarget text position f)
    (hroot : tree.kind = rootKind) : (supportedKind? f.kind).isSome = true := by
  obtain ⟨-, hfound | ⟨-, rfl, -⟩⟩ := h
  · exact supportedKind?_of_classify? hfound
  · rw [hroot]
    decide

end Focus

namespace Generator

variable {file text : String} {tree : Focus} {position : Int}

/-- A position in the text has a target or is refused, when the search for it meets no offset
that it cannot compare. -/
theorem targetAt_spec (file : String) (tree : Focus) (hinside : Focus.Inside text position)
    (hsought : tree.strandsAt position.toNat = false) :
    (∃ f, targetAt file text tree position.toNat = .ok f ∧ tree.IsTarget text position f) ∨
    (targetAt file text tree position.toNat = .error (.unsupportedPosition file position.toNat
        (some (Location.ofOffset text position.toNat))) ∧ tree.Misplaced text position) := by
  simp only [targetAt, hsought, Bool.false_eq_true, if_false]
  cases hclass : tree.classifyAt? position.toNat with
  | some f => exact .inl ⟨f, rfl, hinside, .inl hclass⟩
  | none =>
    cases hblank : (text.toList.take position.toNat).all Text.isBlank with
    | true => exact .inl ⟨tree, rfl, hinside, .inr ⟨hclass, rfl, List.all_eq_true.mp hblank⟩⟩
    | false =>
      obtain ⟨c, hc, hfirm⟩ := List.all_eq_false.mp hblank
      exact .inr ⟨rfl, .inr (.inr ⟨hclass, c, hc, by simpa using hfirm⟩)⟩

end Generator

end DocHeader

import DocHeader.Header.Misfits
import DocHeader.Proofs.Header.Answers
import DocHeader.Proofs.Syntax.Typed
import DocHeader.Syntax.Helper

/-!
# Builds that are stopped

A build is stopped by a field of the wrong type, or it goes on as if all fields were texts. In a
tree with fields of their types no build is stopped. Stopped or not, a build tells two states of
its source apart only as far as the answers do.

## Main definitions

* `Builder.Stops` — a build that is stopped.
* `Builder.attempt_of_not_stops`, `Builder.attempt_of_stops` — what comes of a build.
* `Builder.not_stops_of_isTyped` — builds in a tree with fields of their types.
-/

namespace DocHeader

namespace Focus

variable {f p : Focus}

/-! ## Fields of their types -/

theorem hasOddType_of_isTyped (h : f.isTyped = true) : f.hasOddType = false := by
  unfold hasOddType
  split
  · rw [misfit?_of_isTyped h]
    rfl
  · dsimp only
    split
    next p hp =>
      have hfirst : p ∈ f.parameters := by
        obtain ⟨hfirst, -⟩ := Option.filter_eq_some_iff.mp hp
        split at hfirst
        · exact List.mem_of_head? hfirst
        · cases hfirst
      rw [misfit?_of_isTyped (isTyped_of_mem_childrenOfKind h hfirst)]
      rfl
    next =>
      rw [misfit?_of_isTyped h]
      rfl

theorem hasOddReturn_of_isTyped (h : f.isTyped = true) : f.hasOddReturn = false := by
  simp [hasOddReturn, misfit?_of_isTyped h]

theorem hasOddPart_of_isTyped (h : p.isTyped = true) : p.hasOddPart = false := by
  rw [hasOddPart, hasOddType_of_isTyped h, Bool.false_or]
  split
  next pattern hpattern =>
    refine List.any_eq_false.mpr fun element helement => ?_
    have htyped := isTyped_of_mem_childrenOfKind (isTyped_of_firstChildOfKind? h hpattern) helement
    simp [hasOddType_of_isTyped htyped]
  next => rfl

theorem hasOddArguments_of_isTyped (h : f.isTyped = true) : f.hasOddArguments = false := by
  simp [hasOddArguments, misfit?_of_isTyped h, givesMisfit_of_isTyped h]

theorem hasOddMember_of_isTyped (h : f.isTyped = true) : f.hasOddMember = false := by
  rw [hasOddMember, Option.any_eq_false]
  intro member hmember
  have htyped := isTyped_of_mem_childrenOfKind h (List.mem_of_find?_eq_some hmember)
  simp [givesMisfit_of_isTyped htyped]

theorem pasteFaults_of_isTyped (h : f.isTyped = true) (snippet : Bool) (field : String) :
    f.pasteFaults snippet field = [] := by
  simp [pasteFaults, givesMisfit_of_isTyped h]

theorem heritageFaults_of_isTyped (h : f.isTyped = true) (snippet : Bool) :
    f.heritageFaults snippet = [] := by
  refine List.flatMap_eq_nil_iff.mpr fun clause hclause => ?_
  have hclause := isTyped_of_mem_childrenOfKind h hclause
  refine List.flatMap_eq_nil_iff.mpr fun reference hreference => ?_
  have hreference := isTyped_of_mem_childrenOfKind hclause hreference
  simp [givesMisfit_of_isTyped hclause, pasteFaults_of_isTyped hreference]

theorem templateFaults_of_isTyped (h : f.isTyped = true) (s : Settings) (snippet : Bool) :
    f.templateFaults s snippet = [] := by
  refine List.flatMap_eq_nil_iff.mpr fun t ht => ?_
  simp [pasteFaults_of_isTyped (isTyped_of_mem_childrenOfKind h ht)]

theorem isTyped_of_mem_documentedParameters (h : f.isTyped = true)
    (hp : p ∈ documentedParameters f) : p.isTyped = true :=
  isTyped_of_mem_childrenOfKind h (List.mem_filter.mp hp).1

theorem parameterFaults_of_isTyped (h : f.isTyped = true) (snippet : Bool) :
    f.parameterFaults snippet = [] := by
  refine List.flatMap_eq_nil_iff.mpr fun p hp => ?_
  simp [pasteFaults_of_isTyped (isTyped_of_mem_documentedParameters h hp)]

theorem isTyped_of_pairedAccessor? (h : f.isTyped = true) (hp : pairedAccessor? f = some p) :
    p.isTyped = true := by
  obtain ⟨parent, hparent, hpaired⟩ := Option.bind_eq_some_iff.mp hp
  exact isTyped_of_mem_childrenOfKind (isTyped_of_parent? h hparent)
    (List.mem_of_find?_eq_some hpaired)

theorem isTyped_signatureOf (h : f.isTyped = true) : (Builder.signatureOf f).isTyped = true := by
  unfold Builder.signatureOf
  split
  · cases hvalue : f.functionValue? with
    | none => exact h
    | some value => exact isTyped_of_firstChildOfKind? h hvalue
  · exact h

end Focus

namespace Builder

open Focus

variable {σ : Type} {b : Builder σ} {f : Focus} {kind : DeclarationKind} {snippet : Bool}

theorem any_hasOddPart_of_isTyped (h : f.isTyped = true) :
    (documentedParameters f).any hasOddPart = false :=
  List.any_eq_false.mpr fun p hp => by
    simp [hasOddPart_of_isTyped (isTyped_of_mem_documentedParameters h hp)]

theorem kindSnag?_of_isTyped (h : f.isTyped = true) : b.kindSnag? f kind = none := by
  have hsignature := isTyped_signatureOf h
  have hreferences : f.heritageReferences.any hasOddArguments = false := by
    refine List.any_eq_false.mpr fun reference hreference => ?_
    obtain ⟨clause, hclause, hreference⟩ := List.mem_flatMap.mp hreference
    simp [hasOddArguments_of_isTyped
      (isTyped_of_mem_childrenOfKind (isTyped_of_mem_childrenOfKind h hclause) hreference)]
  match kind with
  | .classLike => simp [kindSnag?, hreferences]
  | .enumeration => simp [kindSnag?, hasOddMember_of_isTyped h]
  | .property | .accessor | .variable => simp [kindSnag?, hasOddType_of_isTyped h]
  | .method =>
    simp [kindSnag?, any_hasOddPart_of_isTyped hsignature, hasOddReturn_of_isTyped hsignature]
  | .constructor => simp [kindSnag?, any_hasOddPart_of_isTyped h]
  | .typeAlias | .file => rfl

theorem lineFaults_of_isTyped (h : f.isTyped = true) : b.lineFaults f kind snippet = [] := by
  have hsignature := isTyped_signatureOf h
  match kind with
  | .classLike | .typeAlias =>
    simp [lineFaults, pasteFaults_of_isTyped h, heritageFaults_of_isTyped h,
      templateFaults_of_isTyped h]
  | .method =>
    simp [lineFaults, templateFaults_of_isTyped hsignature, parameterFaults_of_isTyped hsignature]
  | .constructor => simp [lineFaults, parameterFaults_of_isTyped h]
  | .enumeration | .property | .accessor | .variable | .file => rfl

/-- Nothing stops a build in a tree with fields of their types. -/
theorem snag?_of_isTyped (h : f.isTyped = true) : b.snag? f kind snippet = none := by
  simp only [snag?]
  split
  next paired hpaired =>
    have hpaired : pairedAccessor? f = some paired := by
      split at hpaired
      · exact hpaired
      · cases hpaired
    simp [givesMisfit_of_isTyped (isTyped_of_pairedAccessor? h hpaired)]
  next =>
    simp [kindSnag?_of_isTyped h, lineFaults_of_isTyped h]

/-! ## What comes of a build -/

/-- The build of the header of a declaration is stopped by a field of the wrong type. -/
def Stops (b : Builder σ) (f : Focus) (snippet : Bool) : Prop :=
  ∃ kind snag, b.kindOf f = .ok kind ∧ b.snag? f kind snippet = some snag

instance : Decidable (b.Stops f snippet) :=
  match hkind : b.kindOf f with
  | .error e => .isFalse fun ⟨kind, _, hkind', _⟩ => by simp [hkind] at hkind'
  | .ok kind =>
    match hsnag : b.snag? f kind snippet with
    | some snag => .isTrue ⟨kind, snag, hkind, hsnag⟩
    | none => .isFalse fun ⟨kind', _, hkind', hsnag'⟩ => by
      obtain rfl : kind = kind' := Except.ok.inj (hkind.symm.trans hkind')
      simp [hsnag] at hsnag'

theorem not_stops_of_isTyped (h : f.isTyped = true) : ¬b.Stops f snippet := by
  rintro ⟨kind, snag, -, hsnag⟩
  rw [snag?_of_isTyped h] at hsnag
  cases hsnag

/-- Nor is the build of the header of a file stopped, which shows none of its fields. -/
theorem not_stops_of_file (h : f.kind = rootKind) : ¬b.Stops f snippet := by
  rintro ⟨kind, snag, hkind, hsnag⟩
  have hfile : f.declarationKind? (b.settings.flag .functionVariablesAsFunctions) = some .file := by
    simp [declarationKind?, isFunctionVariable, functionOwnerKinds, h, rootKind, supportedKind?]
  obtain rfl : kind = .file := by simpa [kindOf, hfile] using hkind.symm
  simp [snag?, kindSnag?, lineFaults] at hsnag

/-- A build that is not stopped is the build of a node whose fields are of their types. -/
theorem attempt_of_not_stops (h : ¬b.Stops f snippet) : b.attempt f snippet = b.build f := by
  unfold attempt
  split
  next e hkind => simp only [build, hkind]
  next kind hkind =>
    split
    next => rfl
    next snag hsnag => exact absurd ⟨kind, snag, hkind, hsnag⟩ h

/-- In a tree with fields of their types every build is what it would be anyway. -/
theorem attempt_of_isTyped (h : f.isTyped = true) : b.attempt f snippet = b.build f :=
  attempt_of_not_stops (not_stops_of_isTyped h)

/-- A build that is stopped gives no header. -/
theorem attempt_of_stops (h : b.Stops f snippet) (j : Journal σ) :
    ∃ fault j', b.attempt f snippet j = (.error (.mistyped fault), j') := by
  obtain ⟨kind, snag, hkind, hsnag⟩ := h
  refine ⟨snag.fault, (b.buildUpTo f kind snag.reach j).2, ?_⟩
  simp only [attempt, hkind, hsnag]
  rfl

/-- A header that is built is the one that would be built if its fields were of their types. -/
theorem build_of_attempt {draft : Draft} {j j' : Journal σ}
    (h : b.attempt f snippet j = (.ok draft, j')) : b.build f j = (.ok draft, j') := by
  by_cases hstops : b.Stops f snippet
  · obtain ⟨fault, j'', hattempt⟩ := attempt_of_stops hstops j
    rw [hattempt] at h
    cases h
  · rwa [attempt_of_not_stops hstops] at h

/-! ## Two states -/

open Logged

variable {R : σ → σ → Prop}

theorem buildUpTo_respects (hsource : b.source.Respects R) (reach : Reach) :
    Logged.Respects R (b.buildUpTo f kind reach) := by
  have hdescribed := ask_respects (hsource.declaration f kind) emptyRegion
  cases reach with
  | nothing => exact .pure ()
  | declaration => exact .bind hdescribed fun _ => .pure ()
  | parameters =>
    refine .bind hdescribed fun _ => ?_
    have hparameters : Logged.Respects R (do
        let _ ← b.askParameters f (signatureOf f) kind : Logged σ Unit) :=
      .bind (askParameters_respects f _ kind hsource) fun _ => .pure ()
    split
    · exact .bind (askTemplates_respects f _ kind hsource) fun _ => hparameters
    · exact hparameters
  | lines => exact .bind (lines_respects f kind hsource) fun _ => .pure ()

/-- A build depends on the state of the source only as far as the answers do, stopped or not. -/
theorem attempt_respects (hsource : b.source.Respects R) (snippet : Bool) :
    Logged.Respects R (b.attempt f snippet) := by
  unfold attempt
  split
  next => exact .pure _
  next kind _ =>
    split
    next => exact build_respects f hsource
    next snag _ => exact .bind (buildUpTo_respects hsource snag.reach) fun _ => .pure _

end Builder

end DocHeader

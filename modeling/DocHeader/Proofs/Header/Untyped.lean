import DocHeader.Proofs.Header.Answers
import DocHeader.Proofs.Header.Told
import DocHeader.Proofs.Syntax.Untyped

/-!
# Headers without types

Where types are not included, a header tells nothing of them. Two trees may differ in any of
their types: the header of a declaration in the one is that of the declaration at the same place
in the other, as long as the source of descriptions cannot tell the two apart. The one thing that
is still looked at is whether a function returns anything.

## Main definitions

* `DescriptionSource.Alike` — a source that answers alike for two declarations.

## Main statements

* `Builder.build_untyped` — types leave no trace in headers without types.
-/

namespace DocHeader

/-! ## Groups of lines -/

section Groups

variable (s : Settings) (f : Focus)

@[simp] theorem declaredModifiers_untyped : declaredModifiers f.untyped = declaredModifiers f := by
  simp [declaredModifiers, NodeInfo.untyped, Function.comp_def]

theorem modifierLines_untyped : modifierLines s f.untyped = modifierLines s f := by
  rw [modifierLines, declaredModifiers_untyped, modifierLines]

theorem classLines_untyped : classLines f.untyped = classLines f := by
  simp only [classLines, Focus.kind_untyped, Focus.info_untyped]
  rfl

theorem aliasLines_untyped : aliasLines f.untyped = aliasLines f := by
  rw [aliasLines, Focus.info_untyped]
  rfl

theorem enumLines_untyped : enumLines s f.untyped = enumLines s f := by
  simp only [enumLines, Focus.childrenOfKind_untyped, List.any_map, Function.comp_def,
    Focus.info_untyped]
  rfl

theorem heritageLines_untyped : heritageLines f.untyped = heritageLines f := by
  simp only [heritageLines, Focus.heritageClauses, Focus.childrenOfKind_untyped,
    List.flatMap_map, List.map_map, Function.comp_def, heritageText, Focus.info_untyped]
  rfl

theorem reusedLines_untyped : reusedLines s f.untyped = reusedLines s f := by
  rw [reusedLines, Focus.headerText?_untyped, reusedLines]

theorem templateNames_untyped (templates : List Focus) :
    templateNames (templates.map Focus.untyped) = templateNames templates := by
  simp only [templateNames, List.map_map, Function.comp_def, Focus.info_untyped]
  rfl

theorem documentedParameters_untyped :
    documentedParameters f.untyped = (documentedParameters f).map Focus.untyped := by
  simp only [documentedParameters, Focus.parameters, Focus.childrenOfKind_untyped,
    List.filter_map, Function.comp_def, Focus.info_untyped]
  rfl

theorem parameterNames_untyped (k : Nat) (parameters : List Focus) :
    parameterNames k (parameters.map Focus.untyped) = parameterNames k parameters := by
  induction parameters generalizing k with
  | nil => rfl
  | cons p rest ih =>
    simp only [List.map_cons, parameterNames, Focus.bindingPattern?_untyped, Option.isSome_map,
      ih, Focus.info_untyped]
    rfl

theorem signatureOf_untyped :
    Builder.signatureOf f.untyped = (Builder.signatureOf f).untyped := by
  simp only [Builder.signatureOf, Focus.isFunctionVariable_untyped, Focus.functionValue?_untyped]
  split
  next => cases f.functionValue? <;> rfl
  next => rfl

theorem pairedAccessor?_untyped :
    pairedAccessor? f.untyped = (pairedAccessor? f).map Focus.untyped := by
  simp only [pairedAccessor?, Focus.parent?_untyped, Focus.kind_untyped, Focus.info_untyped]
  cases f.parent? with
  | none => rfl
  | some parent =>
    simp only [Option.map_some, Option.bind_some, Focus.childrenOfKind_untyped, List.find?_map,
      Function.comp_def, Focus.hasHeader_untyped, Focus.info_untyped]
    rfl

variable {s} (hoff : s.flag .includeTypes = false)

include hoff

theorem typeLines_of_off : typeLines s f = [] := by
  simp [typeLines, hoff]

theorem templateLine_untyped (name : String) (description : Phrase) :
    templateLine s f.untyped name description = templateLine s f name description := by
  simp only [templateLine, hoff, Focus.info_untyped]
  rfl

theorem templateLines_untyped (templates : List Focus) (names : List String)
    (descriptions : List Phrase) :
    templateLines s (templates.map Focus.untyped) names descriptions =
      templateLines s templates names descriptions := by
  induction templates generalizing names descriptions with
  | nil => rfl
  | cons t ts ih =>
    match names, descriptions with
    | name :: names, d :: ds =>
      rw [List.map_cons, templateLines, templateLines, ih, templateLine_untyped t hoff]
    | [], _ | _ :: _, [] => rfl

theorem elementLine?_untyped (owner : String) :
    elementLine? s owner f.untyped = elementLine? s owner f := by
  simp only [elementLine?, typeValue, hoff, Focus.info_untyped]
  rfl

theorem parameterLine_untyped (name : String) (description : Phrase) :
    parameterLine s f.untyped name description = parameterLine s f name description := by
  simp only [parameterLine, typeValue, hoff, parameterLabel, Focus.info_untyped,
    Focus.bindingPattern?_untyped]
  cases f.bindingPattern? with
  | none => rfl
  | some pattern =>
    simp only [Option.map_some, Focus.bindingElements, Focus.childrenOfKind_untyped,
      List.filterMap_map, Function.comp_def, elementLine?_untyped _ hoff]
    rfl

theorem parameterLines_untyped (parameters : List Focus) (names : List String)
    (descriptions : List Phrase) :
    parameterLines s (parameters.map Focus.untyped) names descriptions =
      parameterLines s parameters names descriptions := by
  induction parameters generalizing names descriptions with
  | nil => rfl
  | cons p ps ih =>
    match names, descriptions with
    | name :: names, d :: ds =>
      rw [List.map_cons, parameterLines, parameterLines, ih, parameterLine_untyped p hoff]
    | [], _ | _ :: _, [] => rfl

theorem returnLine_of_off (type type' : String) (description : Phrase) :
    returnLine s type description = returnLine s type' description := by
  simp [returnLine, hoff]

end Groups

/-! ## The sources of the settings -/

variable {σ : Type} {R : σ → σ → Prop}

/-- A source answers alike for two declarations, whatever it is asked about them. -/
structure DescriptionSource.Alike (R : σ → σ → Prop) (source : DescriptionSource σ)
    (f f' : Focus) : Prop where
  declaration : ∀ kind, (source.declaration f kind).Alike R (source.declaration f' kind)
  parameters : ∀ kind generics names,
    (source.parameters f kind generics names).Alike R (source.parameters f' kind generics names)
  returns : (source.returns f).Alike R (source.returns f')

theorem shownSource_untyped (f : Focus) : shownSource f.untyped = shownSource f := by
  rw [shownSource, Focus.anchor_untyped, Focus.info_untyped, shownSource]
  rfl

theorem ownerMisfit?_untyped (f : Focus) : ownerMisfit? f.untyped = ownerMisfit? f := by
  simp only [ownerMisfit?, Focus.parent?_untyped]
  cases f.parent? with
  | none => rfl
  | some owner =>
    simp only [Option.map_some, Option.bind_some, Focus.info_untyped]
    rfl

theorem constructorText?_untyped (text : String) (kind : DeclarationKind) (f : Focus) :
    constructorText? text f.untyped kind = constructorText? text f kind := by
  simp only [constructorText?, ownerMisfit?_untyped, Focus.parent?_untyped]
  cases f.parent? with
  | none => rfl
  | some owner =>
    simp only [Option.map_some, Option.bind_some, Focus.info_untyped]
    rfl

theorem constructorText?_congr {f f' : Focus} (h : f.untyped = f'.untyped) (text : String)
    (kind : DeclarationKind) : constructorText? text f kind = constructorText? text f' kind :=
  Focus.eq_of_untyped (g := fun f => constructorText? text f kind)
    (constructorText?_untyped text kind) h

theorem introduction_congr {f f' : Focus} (h : f.untyped = f'.untyped) (text : String) :
    introduction f text = introduction f' text := by
  rw [introduction, Focus.eq_of_untyped ownerMisfit?_untyped h, introduction]

namespace DescriptionSource

variable {f f' : Focus} (h : f.untyped = f'.untyped)

include h

theorem fixed_alike (text constructorText : String) :
    (fixed text constructorText : DescriptionSource σ).Alike R f f' where
  declaration kind := by
    simp only [fixed, constructorText?_congr h, introduction_congr h]
    split <;> exact .pure rfl
  parameters _ _ _ := .pure rfl
  returns := .pure rfl

/-- An assistant is shown the source of a declaration, and nothing of what is known of types. -/
theorem generated_alike (a : Assistant) (s : Settings) : (generated a s).Alike Eq f f' := by
  have hshown : shownSource f' = shownSource f := Focus.eq_of_untyped shownSource_untyped h.symm
  refine ⟨fun kind => ?_, fun kind generics names => ?_, ?_⟩
  · have hsame : (generated a s).declaration f' kind = (generated a s).declaration f kind := by
      simp only [generated, hshown, constructorText?_congr h.symm, introduction_congr h.symm]
    rw [hsame]
    exact Logged.respects_iff.mp ((generated_respects a s).declaration f kind)
  · have hsame : (generated a s).parameters f' kind generics names =
        (generated a s).parameters f kind generics names := by
      simp only [generated, hshown]
    rw [hsame]
    exact Logged.respects_iff.mp ((generated_respects a s).parameters f kind generics names)
  · have hsame : (generated a s).returns f' = (generated a s).returns f := by
      simp only [generated, hshown]
    rw [hsame]
    exact Logged.respects_iff.mp ((generated_respects a s).returns f)

/-- Every source that settings ask for answers alike for declarations that differ in types. -/
theorem select_alike (s : Settings) (assistant : Option Assistant) :
    (select s assistant).Alike Eq f f' := by
  unfold select
  split
  next => exact fixed_alike h _ _
  next =>
    split
    next a => exact generated_alike h a s
    next => exact fixed_alike h _ _

end DescriptionSource

/-! ## Headers -/

namespace Builder

open Logged

variable {b : Builder σ} {f f' signature signature' : Focus} (kind : DeclarationKind)

theorem askNames_alike (hsource : b.source.Alike R f f') (generics : Bool)
    (names : List String) :
    Logged.Alike R (b.askNames f kind generics names) (b.askNames f' kind generics names) :=
  .bind (ask_alike (hsource.parameters kind generics names) []) fun _ => .pure rfl

theorem kindOf_untyped (b : Builder σ) (f : Focus) : b.kindOf f.untyped = b.kindOf f := by
  simp [kindOf]

/-- Two functions that both return a value, or both none. -/
def SameReturns (f f' : Focus) : Prop :=
  (signatureOf f).returnTypeText = TypeText.noValue ↔
    (signatureOf f').returnTypeText = TypeText.noValue

section Off

variable (hsource : b.source.Alike R f f') (hoff : b.settings.flag .includeTypes = false)

include hsource hoff

theorem askTemplates_alike (h : signature.untyped = signature'.untyped) :
    Logged.Alike R (b.askTemplates f signature kind) (b.askTemplates f' signature' kind) := by
  have hsame : signature.typeParameters.map Focus.untyped =
      signature'.typeParameters.map Focus.untyped := by
    rw [Focus.typeParameters, ← Focus.childrenOfKind_untyped, h, Focus.childrenOfKind_untyped,
      Focus.typeParameters]
  have hempty : signature.typeParameters.isEmpty = signature'.typeParameters.isEmpty := by
    simpa using congrArg List.isEmpty hsame
  have hnames : templateNames signature.typeParameters =
      templateNames signature'.typeParameters := by
    rw [← templateNames_untyped, hsame, templateNames_untyped]
  simp only [askTemplates, hempty, hnames]
  split
  next => exact .pure rfl
  next =>
    refine .bind (askNames_alike kind hsource true _) fun descriptions => .pure ?_
    rw [← templateLines_untyped hoff, hsame, templateLines_untyped hoff]

theorem askParameters_alike (h : signature.untyped = signature'.untyped) :
    Logged.Alike R (b.askParameters f signature kind) (b.askParameters f' signature' kind) := by
  have hsame : (documentedParameters signature).map Focus.untyped =
      (documentedParameters signature').map Focus.untyped := by
    rw [← documentedParameters_untyped, h, documentedParameters_untyped]
  have hempty : (documentedParameters signature).isEmpty =
      (documentedParameters signature').isEmpty := by
    simpa using congrArg List.isEmpty hsame
  have hnames : parameterNames 0 (documentedParameters signature) =
      parameterNames 0 (documentedParameters signature') := by
    rw [← parameterNames_untyped, hsame, parameterNames_untyped]
  simp only [askParameters, hempty, hnames]
  split
  next => exact .pure rfl
  next =>
    refine .bind (askNames_alike kind hsource false _) fun descriptions => .pure ?_
    rw [← parameterLines_untyped hoff, hsame, parameterLines_untyped hoff]

/-- Of the type of a return value only this is seen: whether there is a value. -/
theorem askReturn_alike (hvoid : signature.returnTypeText = TypeText.noValue ↔
    signature'.returnTypeText = TypeText.noValue) :
    Logged.Alike R (b.askReturn f signature) (b.askReturn f' signature') := by
  unfold askReturn
  split
  next => exact .pure rfl
  next =>
    by_cases hnone : signature.returnTypeText = TypeText.noValue
    · have hnone' := hvoid.mp hnone
      simp only [Focus.renderReturn?, hnone, hnone']
      exact .pure rfl
    · have hnone' := mt hvoid.mpr hnone
      simp only [Focus.renderReturn?, beq_eq_false_iff_ne.mpr hnone, beq_eq_false_iff_ne.mpr hnone']
      refine .bind (ask_alike hsource.returns emptyRegion) fun description => .pure ?_
      exact congrArg ([·]) (returnLine_of_off hoff _ _ description)

variable (hsame : f.untyped = f'.untyped)

include hsame

theorem kindLines_alike (hreturns : kind = .method → SameReturns f f') :
    Logged.Alike R (b.kindLines f kind) (b.kindLines f' kind) := by
  have hsignature : (signatureOf f).untyped = (signatureOf f').untyped := by
    rw [← signatureOf_untyped, hsame, signatureOf_untyped]
  match kind with
  | .classLike =>
    refine .bind (askTemplates_alike _ hsource hoff hsame) fun templates => .pure ?_
    rw [Focus.eq_of_untyped classLines_untyped hsame,
      Focus.eq_of_untyped heritageLines_untyped hsame]
  | .typeAlias =>
    refine .bind (askTemplates_alike _ hsource hoff hsame) fun templates => .pure ?_
    rw [Focus.eq_of_untyped aliasLines_untyped hsame]
  | .enumeration => exact .pure (Focus.eq_of_untyped (enumLines_untyped b.settings) hsame)
  | .property | .accessor | .variable =>
    exact .pure (by rw [typeLines_of_off f hoff, typeLines_of_off f' hoff])
  | .method =>
    refine .bind (askTemplates_alike _ hsource hoff hsignature) fun templates =>
      .bind (askParameters_alike _ hsource hoff hsignature) fun parameters =>
        .bind (askReturn_alike hsource hoff (hreturns rfl)) fun returns => .pure ?_
    have hgenerator : (signatureOf f).info.generator = (signatureOf f').info.generator :=
      Focus.eq_of_untyped (g := fun f => f.info.generator)
        (fun f => by rw [Focus.info_untyped]; rfl) hsignature
    rw [hgenerator]
  | .constructor =>
    exact .bind (askParameters_alike _ hsource hoff hsame) fun parameters => .pure rfl
  | .file => exact .pure rfl

theorem ownLines_alike (hreturns : kind = .method → SameReturns f f') :
    Logged.Alike R (b.ownLines f kind) (b.ownLines f' kind) := by
  have hoverride : f.node.hasModifier "override" = f'.node.hasModifier "override" :=
    Focus.eq_of_untyped (g := fun f => f.node.hasModifier "override")
      (fun f => f.node.hasModifier_untyped "override") hsame
  refine .bind (ask_alike (hsource.declaration kind) emptyRegion) fun description => ?_
  rw [hoverride]
  split
  next => exact .pure rfl
  next =>
    refine .bind (kindLines_alike kind hsource hoff hsame hreturns) fun lines => .pure ?_
    rw [Focus.eq_of_untyped (modifierLines_untyped b.settings) hsame]

theorem lines_alike (hreturns : kind = .method → SameReturns f f') :
    Logged.Alike R (b.lines f kind) (b.lines f' kind) := by
  have hpaired : (if kind = .accessor then pairedAccessor? f else none).map Focus.untyped =
      (if kind = .accessor then pairedAccessor? f' else none).map Focus.untyped := by
    split
    next => rw [← pairedAccessor?_untyped, hsame, pairedAccessor?_untyped]
    next => rfl
  unfold Builder.lines
  cases hf : if kind = .accessor then pairedAccessor? f else none with
  | none =>
    cases hf' : if kind = .accessor then pairedAccessor? f' else none with
    | none => exact ownLines_alike kind hsource hoff hsame hreturns
    | some paired' =>
      rw [hf, hf'] at hpaired
      cases hpaired
  | some paired =>
    cases hf' : if kind = .accessor then pairedAccessor? f' else none with
    | none =>
      rw [hf, hf'] at hpaired
      cases hpaired
    | some paired' =>
      rw [hf, hf', Option.map_some, Option.map_some, Option.some.injEq] at hpaired
      exact .pure (Focus.eq_of_untyped (reusedLines_untyped b.settings) hpaired)

theorem build_alike (hreturns : b.kindOf f = .ok .method → SameReturns f f') :
    Logged.Alike R (b.build f) (b.build f') := by
  simp only [build, ← Focus.eq_of_untyped (kindOf_untyped b) hsame]
  cases hkind : b.kindOf f with
  | error e => exact .pure rfl
  | ok kind =>
    rw [hkind] at hreturns
    exact .bind (lines_alike kind hsource hoff hsame fun h => hreturns (congrArg _ h)) fun lines =>
      .pure rfl

end Off

/-- **Types leave no trace in headers without types.** Let two trees differ in nothing but
their types: those that are written, those that the checker found, and the constraints of type
parameters. A node of the one tree has a counterpart at its place in the other, which is
documented as the same kind. Where types are not included, both have the same header, whatever
their types are, when the source answers alike for both, and, if they are documented as
functions, both return a value or both none. -/
theorem build_untyped (b : Builder σ) (hoff : b.settings.flag .includeTypes = false)
    {root root' : Node} (hsame : root.untyped = root'.untyped) {path : List Nat} {f : Focus}
    (hf : (Focus.root root).descend? path = some f) :
    ∃ f', (Focus.root root').descend? path = some f' ∧ b.kindOf f' = b.kindOf f ∧
      ∀ (R : σ → σ → Prop), b.source.Alike R f f' →
        (b.kindOf f = .ok .method → SameReturns f f') →
        ∀ (j k : Journal σ), R j.state k.state → ∀ kind, b.kindOf f = .ok kind →
          ∃ draft, (b.build f j).1 = .ok draft ∧ (b.build f' k).1 = .ok draft := by
  have hroots : (Focus.root root).untyped = (Focus.root root').untyped :=
    congrArg Focus.root hsame
  have hplaces : some f.untyped = ((Focus.root root').descend? path).map Focus.untyped := by
    rw [← Focus.descend?_untyped, ← hroots, Focus.descend?_untyped, hf, Option.map_some]
  obtain ⟨f', hf', hfoci⟩ := Option.map_eq_some_iff.mp hplaces.symm
  refine ⟨f', hf', Focus.eq_of_untyped (kindOf_untyped b) hfoci, ?_⟩
  intro R hsource hreturns j k hjk kind hkind
  have hresult := (build_alike hsource hoff hfoci.symm hreturns j k hjk).1
  have hbuild := b.build_eq_close f hkind j
  exact ⟨_, hbuild, hresult ▸ hbuild⟩

/-- A file with a generic function, for some types. -/
def typedFile (constraint parameter result : String) : Node :=
  let part (kind name : String) (type constraint : Option String) (children : List Node) : Node :=
    .mk { kind, fullStart := 0, start := 0, stop := 1, text := "", name := some name
          annotation := type, constraint }
      children
  part "SourceFile" "a.ts" none none
    [part "FunctionDeclaration" "pick" (some result) none
      [part "TypeParameter" "T" none (some constraint) [],
        part "Parameter" "from" (some parameter) none []]]

/-- A file that tells nothing of importance in its types. -/
def openFile : Node := typedFile "object" "T[]" "T"

/-- The same file with types that are not to be told. -/
def secretFile : Node := typedFile "Secret" "Map<Secret, T>" "Promise<T>"

/-- The first statement of a file. -/
def firstStatement (file : Node) : Focus := ((Focus.root file).descend? [0]).getD default

/-- The function has the same header in both files. -/
theorem build_untyped_of_secretFile :
    assisted.settings.flag .includeTypes = false ∧ openFile.untyped = secretFile.untyped ∧
    ∃ draft, (assisted.build (firstStatement openFile) ⟨{}, []⟩).1 = .ok draft ∧
      (assisted.build (firstStatement secretFile) ⟨{}, []⟩).1 = .ok draft ∧
      draft.tags = ["template", "param", "returns"] := by
  have hoff : assisted.settings.flag .includeTypes = false := rfl
  have hsame : openFile.untyped = secretFile.untyped := rfl
  have hplace : (Focus.root openFile).descend? [0] = some (firstStatement openFile) := rfl
  have hkind : assisted.kindOf (firstStatement openFile) = .ok .method := by decide +kernel
  obtain ⟨f', hplace', -, hbuild⟩ := assisted.build_untyped hoff hsame hplace
  obtain rfl : firstStatement secretFile = f' := Option.some.inj hplace'
  have hfoci : (firstStatement openFile).untyped = (firstStatement secretFile).untyped := rfl
  have halike : assisted.source.Alike Eq (firstStatement openFile) (firstStatement secretFile) :=
    DescriptionSource.generated_alike hfoci plainAssistant describing
  have hreturns : SameReturns (firstStatement openFile) (firstStatement secretFile) := by
    unfold SameReturns
    decide +kernel
  obtain ⟨draft, hdraft, hdraft'⟩ :=
    hbuild Eq halike (fun _ => hreturns) ⟨{}, []⟩ ⟨{}, []⟩ rfl .method hkind
  refine ⟨hoff, hsame, draft, hdraft, hdraft', ?_⟩
  have htags : (assisted.build (firstStatement openFile) ⟨{}, []⟩).1.toOption.map Draft.tags =
      some ["template", "param", "returns"] := by decide +kernel
  rw [hdraft] at htags
  exact Option.some.inj htags

end Builder

end DocHeader

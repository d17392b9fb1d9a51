import DocHeader.Proofs.Header.TagOrder
import DocHeader.Proofs.Text.Ends

/-!
# The lines of parameters in a header

The lines of type parameters and of parameters stand next to each other in a header, in the
middle of others, and closing the header takes none of them away. The descriptions are those
that the source gives for the names, filled up or cut to their number.

The questions to a source come one after the other. So its state is followed from the question
about the declaration to the one about the type parameters, and from there to the one about the
parameters.

## Main definitions

* `Builder.askedTemplates`, `Builder.askedParameters` — what a source is asked about.
* `Builder.askedLines` — the lines of type parameters and parameters, after both questions.
-/

namespace DocHeader

section Groups

variable (s : Settings)

theorem isBlank_templateLine (t : Focus) (name : String) (description : Phrase) :
    (templateLine s t name description).isBlank = false := rfl

theorem isBlank_parameterLine (p : Focus) (name : String) (description : Phrase) :
    ∀ line ∈ parameterLine s p name description, line.isBlank = false := by
  refine List.forall_mem_cons.mpr ⟨rfl, fun line hline => ?_⟩
  split at hline
  next =>
    obtain ⟨element, -, hline⟩ := List.mem_filterMap.mp hline
    obtain ⟨_, -, rfl⟩ := Option.map_eq_some_iff.mp hline
    rfl
  next => cases hline

end Groups

/-- Closing a draft drops lines before and behind those that show something. -/
theorem dropOuterBlank_of_kept {kept : List TagLine} (hne : kept ≠ [])
    (hkept : ∀ line ∈ kept, line.isBlank = false) (before after : List TagLine) :
    dropOuterBlank (before ++ kept ++ after) = before.dropWhile TagLine.isBlank ++ kept ++
      (after.reverse.dropWhile TagLine.isBlank).reverse := by
  obtain ⟨init, last, rfl⟩ := (List.eq_nil_or_concat kept).resolve_left hne
  rw [List.concat_eq_append] at hkept ⊢
  have hfirst : ∀ line ∈ (init ++ [last] ++ after).head?, line.isBlank = false := by
    intro line hline
    refine hkept line ?_
    cases init with
    | nil => simpa using hline.symm
    | cons first init => simp [show first = line by simpa using hline]
  rw [dropOuterBlank, List.append_assoc, dropWhile_append_of_kept hfirst, ← List.append_assoc,
    List.reverse_append, dropWhile_append_of_kept (by simp [hkept]), List.reverse_append,
    List.reverse_reverse]

/-- So it takes lines away before and after those that show something. -/
theorem dropOuterBlank_around {kept : List TagLine} (hkept : ∀ line ∈ kept, line.isBlank = false)
    (before after : List TagLine) : ∃ before' after',
      dropOuterBlank (before ++ kept ++ after) = before' ++ kept ++ after' := by
  rcases eq_or_ne kept [] with rfl | hne
  · exact ⟨dropOuterBlank (before ++ [] ++ after), [], by simp⟩
  · exact ⟨_, _, dropOuterBlank_of_kept hne hkept before after⟩

namespace Builder

/-- The type parameters that are asked about: none of a member that overrides another one. -/
def askedTemplates (f : Focus) (kind : DeclarationKind) : List Focus :=
  if f.node.hasModifier "override" then [] else TagOrder.templates f kind

/-- The parameters that are asked about: none of a member that overrides another one. -/
def askedParameters (f : Focus) (kind : DeclarationKind) : List Focus :=
  if f.node.hasModifier "override" then [] else TagOrder.parameters f kind

section Steps

variable {σ : Type} (b : Builder σ) (f : Focus) (kind : DeclarationKind)

/-- What is left after the declaration is described. -/
def afterDescription (j : Journal σ) : Journal σ :=
  (ask (b.source.declaration f kind) emptyRegion j).2

/-- What is left after type parameters are described; without any nothing is asked. -/
def afterTemplates (templates : List Focus) (j : Journal σ) : Journal σ :=
  if templates = [] then j else (b.askNames f kind true (templateNames templates) j).2

/-- The lines of type parameters, with the descriptions the source gives for their names. -/
def templatesAsked (templates : List Focus) (j : Journal σ) : List TagLine :=
  templateLines b.settings templates (templateNames templates)
    (b.askNames f kind true (templateNames templates) j).1

/-- The lines of parameters, with the descriptions the source gives for their names. -/
def parametersAsked (parameters : List Focus) (j : Journal σ) : List TagLine :=
  parameterLines b.settings parameters (parameterNames 0 parameters)
    (b.askNames f kind false (parameterNames 0 parameters) j).1

/-- The lines of type parameters and parameters, after both questions are asked. -/
def askedLines (templates parameters : List Focus) (j : Journal σ) : List TagLine :=
  b.templatesAsked f kind templates j ++
    b.parametersAsked f kind parameters (b.afterTemplates f kind templates j)

/-- Without parameters only type parameters are asked about. -/
theorem askedLines_templates (templates : List Focus) (j : Journal σ) :
    b.askedLines f kind templates [] j = b.templatesAsked f kind templates j :=
  List.append_nil _

/-- Without type parameters only parameters are asked about. -/
theorem askedLines_parameters (parameters : List Focus) (j : Journal σ) :
    b.askedLines f kind [] parameters j = b.parametersAsked f kind parameters j := rfl

/-- Without parameters of either sort nothing is asked. -/
@[simp] theorem askedLines_nil (j : Journal σ) : b.askedLines f kind [] [] j = [] := rfl

theorem askTemplates_eq (signature : Focus) (j : Journal σ) :
    b.askTemplates f signature kind j =
      (b.templatesAsked f kind signature.typeParameters j,
        b.afterTemplates f kind signature.typeParameters j) := by
  simp only [askTemplates, afterTemplates]
  cases signature.typeParameters <;> rfl

theorem askParameters_result (signature : Focus) (j : Journal σ) :
    (b.askParameters f signature kind j).1 =
      b.parametersAsked f kind (documentedParameters signature) j := by
  simp only [askParameters]
  cases documentedParameters signature <;> rfl

/-- The lines of a kind have those of its parameters in their midst. -/
theorem kindLines_asked (j : Journal σ) :
    ∃ before after, (b.kindLines f kind j).1 = before ++
      b.askedLines f kind (TagOrder.templates f kind) (TagOrder.parameters f kind) j ++
        after := by
  match kind with
  | .classLike =>
    refine ⟨classLines f ++ heritageLines f, [], ?_⟩
    simp only [kindLines, Logged.bind_apply, askTemplates_eq, Logged.pure_apply]
    simp [askedLines_templates, TagOrder.templates, TagOrder.parameters]
  | .typeAlias =>
    refine ⟨aliasLines f, [], ?_⟩
    simp only [kindLines, Logged.bind_apply, askTemplates_eq, Logged.pure_apply]
    simp [askedLines_templates, TagOrder.templates, TagOrder.parameters]
  | .enumeration => exact ⟨enumLines b.settings f, [], rfl⟩
  | .property | .accessor | .variable =>
    exact ⟨typeLines b.settings f, [], by
      simp [kindLines, TagOrder.templates, TagOrder.parameters]⟩
  | .method =>
    let asked := b.afterTemplates f .method (signatureOf f).typeParameters j
    refine ⟨if (signatureOf f).info.generator then [.ofTag "generator"] else [],
      (b.askReturn f (signatureOf f) (b.askParameters f (signatureOf f) .method asked).2).1, ?_⟩
    simp only [kindLines, Logged.bind_apply, askTemplates_eq, askParameters_result,
      Logged.pure_apply]
    simp only [askedLines, TagOrder.templates, TagOrder.parameters, List.append_assoc, asked]
  | .constructor =>
    refine ⟨[.ofTag "constructor"], [], ?_⟩
    simp only [kindLines, Logged.bind_apply, askParameters_result, Logged.pure_apply]
    simp [askedLines_parameters, TagOrder.templates, TagOrder.parameters]
  | .file => exact ⟨[.ofTag "file"], [], rfl⟩

/-- So have the lines of a declaration that describes itself; nothing is asked about the
parameters of a member that overrides another one. -/
theorem ownLines_asked (j : Journal σ) :
    ∃ before after, (b.ownLines f kind j).1 = before ++
      b.askedLines f kind (askedTemplates f kind) (askedParameters f kind)
        (b.afterDescription f kind j) ++ after := by
  simp only [ownLines, Logged.bind_apply]
  unfold askedTemplates askedParameters
  split
  next =>
    rw [askedLines_nil, Logged.pure_apply]
    exact ⟨_, [], by rw [List.append_nil, List.append_nil]⟩
  next =>
    obtain ⟨before, after, hlines⟩ := b.kindLines_asked f kind (b.afterDescription f kind j)
    refine ⟨openingLines b.settings b.today (ask (b.source.declaration f kind) emptyRegion j).1 ++
      modifierLines b.settings f ++ before, after ++ customTagLines b.settings kind, ?_⟩
    rw [Logged.bind_apply, Logged.pure_apply]
    change _ ++ (b.kindLines f kind (b.afterDescription f kind j)).1 ++ _ = _
    rw [hlines]
    simp only [List.append_assoc]

/-- So have all lines of a declaration. -/
theorem lines_asked (j : Journal σ) :
    ∃ before after, (b.lines f kind j).1 = before ++
      b.askedLines f kind (askedTemplates f kind) (askedParameters f kind)
        (b.afterDescription f kind j) ++ after := by
  unfold Builder.lines
  by_cases hkind : kind = .accessor
  · rw [if_pos hkind]
    cases pairedAccessor? f with
    | none => exact b.ownLines_asked f kind j
    | some paired =>
      -- accessors have parameters that are never asked about
      have htemplates : askedTemplates f kind = [] := by
        simp [askedTemplates, hkind, TagOrder.templates]
      have hparameters : askedParameters f kind = [] := by
        simp [askedParameters, hkind, TagOrder.parameters]
      rw [htemplates, hparameters, askedLines_nil]
      exact ⟨reusedLines b.settings paired, [], by simp⟩
  · rw [if_neg hkind]
    exact b.ownLines_asked f kind j

end Steps

end Builder

end DocHeader

import DocHeader.Proofs.Header.Asked

/-!
# The lines of parameters, place by place

The lines of the parameters of a function are read off its declaration: the line of each
parameter, and after it those of the elements that the parameter is taken apart into. A
parameter without a name is numbered by those of its sort in front of it, and its elements are
named after it. Names and descriptions are made in one pass and paired with the parameters in
another; the line at each place has the name and the description of that place, however many
descriptions there are.

## Main definitions

* `ParameterList.nameAt` — the name of a parameter at its place.
* `ParameterList.group` — the line of a parameter and those of its elements.
* `ParameterList.lines` — all lines of a list of parameters.
* `Builder.supplied` — the descriptions that a source gives for the names.
-/

namespace DocHeader

/-! ## Places -/

namespace ParameterList

/-- A parameter is taken apart by a pattern. -/
def isDestructured (p : Focus) : Bool := p.bindingPattern?.isSome

/-- The name of the parameter at a place: its own, or its number among the destructured ones. -/
def nameAt (ps : List Focus) (i : Nat) (p : Focus) : String :=
  if isDestructured p then "param" ++ toString ((ps.take i).countP isDestructured)
  else p.info.name.getD ""

/-- The names of all parameters. -/
def names (ps : List Focus) : List String := ps.mapIdx (nameAt ps)

/-- A name with the value it has by default, in brackets. -/
def withDefault (name initializer : String) : String := "[" ++ name ++ "=" ++ initializer ++ "]"

/-- A name as it is shown: in brackets with its initializer, or in brackets when it may be left
out. -/
def shownName (name : String) (initializer : Option String) (optional : Bool) : String :=
  match given? initializer, optional with
  | some init, _ => withDefault name init
  | none, true => "[" ++ name ++ "]"
  | none, false => name

/-- The line of a parameter or of an element. -/
def lineOf (s : Settings) (p : Focus) (name : String) (description : Phrase) : TagLine :=
  { tag := some "param", value := typeValue s p, name := some (.plain name),
    description := some description }

/-- The name of an element: that of its property, or its own. -/
def elementName (element : Focus) : String :=
  ((given? element.info.propertyName).or (given? element.info.name)).getD ""

/-- The lines of the elements that have a name, after the parameter called `owner`. -/
def elementLines (s : Settings) (owner : String) (p : Focus) : List TagLine :=
  (TagOrder.namedElements p).map fun element =>
    lineOf s element
      (shownName (owner ++ "." ++ elementName element) element.info.initializer false) emptyRegion

/-- The line of a parameter and those of its elements. -/
def group (s : Settings) (p : Focus) (name : String) (description : Phrase) : List TagLine :=
  lineOf s p (shownName name p.info.initializer p.info.optional) description ::
    elementLines s name p

/-- The lines of parameters with the descriptions at their places, as far as there are any. -/
def lines (s : Settings) (ps : List Focus) (descriptions : List Phrase) : List TagLine :=
  (ps.mapIdx fun i p =>
    group s p (nameAt ps i p) (descriptions[i]?.getD emptyRegion)).flatten

/-! ## Both passes -/

/-- The parameters after some others get the names of their places. -/
theorem parameterNames_eq_mapIdx (before rest : List Focus) :
    parameterNames (before.countP isDestructured) rest =
      rest.mapIdx fun i p => nameAt (before ++ rest) (before.length + i) p := by
  induction rest generalizing before with
  | nil => rfl
  | cons p rest ih =>
    have hnext := ih (before ++ [p])
    have hplace (i : Nat) : (before ++ [p]).length + i = before.length + (i + 1) := by
      simp [Nat.add_assoc, Nat.add_comm 1 i]
    simp only [hplace, List.append_assoc, List.singleton_append] at hnext
    rw [parameterNames, List.mapIdx_cons, ← hnext, nameAt]
    cases hp : p.bindingPattern? with
    | none => simp [isDestructured, hp]
    | some pattern => simp [isDestructured, hp]

theorem parameterNames_eq (ps : List Focus) : parameterNames 0 ps = names ps := by
  simpa [names] using parameterNames_eq_mapIdx [] ps

/-- Descriptions cut or filled up to the number of some things are those at their places. -/
theorem fitDescriptions_eq_mapIdx {α : Type} (xs : List α) (given : List Phrase) :
    fitDescriptions xs.length given = xs.mapIdx fun i _ => given[i]?.getD emptyRegion := by
  induction xs generalizing given with
  | nil => simp [fitDescriptions]
  | cons x xs ih =>
    rw [List.mapIdx_cons]
    cases given with
    | nil => exact congrArg (emptyRegion :: ·) (by simpa [fitDescriptions] using ih [])
    | cons d ds => exact congrArg (d :: ·) (by simpa [fitDescriptions] using ih ds)

variable (s : Settings)

/-- The lines of elements are those of the elements that have a name. -/
theorem filterMap_elementLine? (owner : String) (elements : List Focus) :
    elements.filterMap (elementLine? s owner) = (elements.filter TagOrder.isNamed).map fun e =>
      lineOf s e (shownName (owner ++ "." ++ elementName e) e.info.initializer false)
        emptyRegion := by
  rw [← List.filterMap_eq_map, List.filterMap_filter]
  refine List.filterMap_congr fun e _ => ?_
  cases hname : (given? e.info.propertyName).or (given? e.info.name) with
  | none => simp [elementLine?, TagOrder.isNamed, hname]
  | some name =>
    have helement : elementName e = name := by rw [elementName, hname, Option.getD_some]
    cases hinit : given? e.info.initializer <;>
      simp [elementLine?, TagOrder.isNamed, lineOf, shownName, withInitializer, withDefault, hname,
        helement, hinit]

theorem parameterLine_eq (p : Focus) (name : String) (description : Phrase) :
    parameterLine s p name description = group s p name description := by
  have hlabel : parameterLabel p name = shownName name p.info.initializer p.info.optional := by
    cases hinit : given? p.info.initializer <;> cases hoptional : p.info.optional <;>
      simp [parameterLabel, withInitializer, withDefault, shownName, hinit, hoptional]
  rw [parameterLine, group, hlabel, elementLines, TagOrder.namedElements]
  cases p.bindingPattern? with
  | none => rfl
  | some pattern => exact congrArg _ (filterMap_elementLine? s name pattern.bindingElements)

/-- Names and descriptions that are made for each place stay at their places. -/
theorem parameterLines_mapIdx (ps : List Focus) (name : Nat → Focus → String)
    (description : Nat → Focus → Phrase) :
    parameterLines s ps (ps.mapIdx name) (ps.mapIdx description) =
      (ps.mapIdx fun i p => group s p (name i p) (description i p)).flatten := by
  induction ps generalizing name description with
  | nil => rfl
  | cons p ps ih =>
    simp only [List.mapIdx_cons, parameterLines, parameterLine_eq, ih, List.flatten_cons]

theorem parameterLines_eq (ps : List Focus) (descriptions : List Phrase) :
    parameterLines s ps (parameterNames 0 ps)
      (fitDescriptions (parameterNames 0 ps).length descriptions) = lines s ps descriptions := by
  rw [length_parameterNames, fitDescriptions_eq_mapIdx, parameterNames_eq, names,
    parameterLines_mapIdx, lines]

/-- All lines of parameters are `@param` lines. -/
theorem tag_of_mem_lines {ps : List Focus} {descriptions : List Phrase} {line : TagLine}
    (hline : line ∈ lines s ps descriptions) : line.tag = some "param" := by
  obtain ⟨_, hgroup, hline⟩ := List.mem_flatten.mp hline
  obtain ⟨i, _, rfl⟩ := List.mem_mapIdx.mp hgroup
  rcases List.mem_cons.mp hline with rfl | hline
  · rfl
  · obtain ⟨_, _, rfl⟩ := List.mem_map.mp hline
    rfl

theorem isBlank_lines (ps : List Focus) (descriptions : List Phrase) :
    ∀ line ∈ lines s ps descriptions, line.isBlank = false := by
  intro line hline
  simp [TagLine.isBlank, TagLine.tag?, tag_of_mem_lines s hline]

/-- No line has a tag that is not among the tags of the lines. -/
theorem filter_tag_eq_nil {tag : String} {others : List TagLine} (hne : tag ≠ "")
    (h : tag ∉ tagsOf others) : others.filter (fun line => line.tag = some tag) = [] := by
  refine List.filter_eq_nil_iff.mpr fun line hline htag => h ?_
  exact List.mem_filterMap.mpr ⟨line, hline, TagLine.tag?_of_ne (of_decide_eq_true htag) hne⟩

end ParameterList

/-! ## The tag for parameters -/

namespace TagOrder

variable (s : Settings) (f : Focus)

theorem not_mem_author : "param" ∉ author s := by
  unfold author
  split <;> decide

theorem not_mem_date : "param" ∉ date s := by
  unfold date
  split <;> decide

theorem not_mem_modifiers : "param" ∉ modifiers s f := by
  intro h
  have hshown := (List.mem_filter.mp h).2
  simp [showsModifier, modifierTags] at hshown

theorem not_mem_custom (kind : DeclarationKind) (h : ∀ t ∈ s.customTags, t.tag ≠ "param") :
    "param" ∉ custom s kind := by
  simp only [custom, List.mem_filter, List.mem_eraseDups, List.mem_map, not_and]
  rintro ⟨t, ht, htag⟩
  exact absurd htag (h t ht.1)

theorem count_parameterTags (ps : List Focus) :
    (ps.flatMap parameterTags).count "param" = (ps.flatMap parameterTags).length := by
  refine List.count_eq_length.mpr fun tag htag => ?_
  obtain ⟨p, _, htag⟩ := List.mem_flatMap.mp htag
  rcases List.mem_cons.mp htag with rfl | htag
  · rfl
  · exact (List.eq_of_mem_replicate htag).symm

/-- In the header of a function or a constructor only parameters have their tag, unless it is
one of the user's. -/
theorem count_expected {kind : DeclarationKind} (hkind : kind = .method ∨ kind = .constructor)
    (hcustom : ∀ t ∈ s.customTags, t.tag ≠ "param") :
    (expected s f kind).count "param" =
      ((Builder.askedParameters f kind).flatMap parameterTags).length := by
  have hauthor := List.count_eq_zero.mpr (not_mem_author s)
  have hdate := List.count_eq_zero.mpr (not_mem_date s)
  have hmodifiers := List.count_eq_zero.mpr (not_mem_modifiers s f)
  have hcustom := List.count_eq_zero.mpr (not_mem_custom s kind hcustom)
  have hkindTags : (ofKind s f kind).count "param" = 0 := by
    rcases hkind with rfl | rfl
    · change (if (Builder.signatureOf f).info.generator then ["generator"] else []).count _ = 0
      split <;> rfl
    · rfl
  have hheritage : heritage f kind = [] := by
    rcases hkind with rfl | rfl <;> rfl
  have hreturns : (returns s f kind).count "param" = 0 := by
    unfold returns
    split <;> rfl
  have haccessor : ¬(kind = .accessor ∧ oppositeDocumented f = true) := by
    rcases hkind with rfl | rfl <;> simp
  rw [expected, if_neg haccessor, own, Builder.askedParameters]
  split
  next => simp [hauthor, hdate]
  next =>
    simp [hauthor, hdate, hmodifiers, hkindTags, hheritage, hreturns, hcustom,
      count_parameterTags, List.count_replicate]

end TagOrder

/-! ## Headers -/

namespace Builder

variable {σ : Type} (b : Builder σ) (f : Focus) (kind : DeclarationKind)

/-- The descriptions that a source gives for names of parameters; none when it fails. -/
def supplied (names : List String) (j : Journal σ) : List Phrase :=
  (b.source.parameters f kind false names j).1.toOption.getD []

theorem askNames_result (names : List String) (j : Journal σ) :
    (b.askNames f kind false names j).1 =
      fitDescriptions names.length (b.supplied f kind names j) := by
  simp only [askNames, ask, supplied, Logged.bind_apply]
  cases (b.source.parameters f kind false names j).1 <;> rfl

theorem parametersAsked_eq (ps : List Focus) (j : Journal σ) :
    b.parametersAsked f kind ps j =
      ParameterList.lines b.settings ps (b.supplied f kind (ParameterList.names ps) j) := by
  rw [parametersAsked, askNames_result, ParameterList.parameterLines_eq,
    ParameterList.parameterNames_eq]

/-- The lines for the parameters of a declaration, with what the source supplies after the
declaration and its type parameters are described. -/
def headerParameters (j : Journal σ) : List TagLine :=
  let ps := askedParameters f kind
  ParameterList.lines b.settings ps (b.supplied f kind (ParameterList.names ps)
    (b.afterTemplates f kind (askedTemplates f kind) (b.afterDescription f kind j)))

/-- The lines of a declaration have those of its parameters in their midst. -/
theorem lines_headerParameters (j : Journal σ) : ∃ before after,
    (b.lines f kind j).1 = before ++ b.headerParameters f kind j ++ after := by
  obtain ⟨before, after, hlines⟩ := b.lines_asked f kind j
  refine ⟨before ++ b.templatesAsked f kind (askedTemplates f kind) (b.afterDescription f kind j),
    after, hlines.trans ?_⟩
  simp only [askedLines, parametersAsked_eq, headerParameters, List.append_assoc]

/-- The tags of these lines are those that are expected for parameters. -/
theorem tagsOf_headerParameters (j : Journal σ) : tagsOf (b.headerParameters f kind j) =
    (askedParameters f kind).flatMap TagOrder.parameterTags := by
  rw [headerParameters, ← parametersAsked_eq, parametersAsked]
  exact tagsOf_parameterLines b.settings (length_parameterNames 0 _)
    (b.askNames_length f kind false _ _)

/-- **The lines of parameters.** Whatever a source answers, a signature gets the lines of its
parameters in their order, but for those called `this`: each with its own name or the number it
has among the destructured ones, with the description that is supplied at its place or an open
one, and followed by the lines of its elements. A header has these lines next to each other.
They are all `@param` lines of a function or a constructor, unless a tag of the user is called
so. -/
theorem askParameters_lines (signature : Focus) (j : Journal σ) :
    (b.askParameters f signature kind j).1 =
      ParameterList.lines b.settings (documentedParameters signature)
        (b.supplied f kind (ParameterList.names (documentedParameters signature)) j) ∧
    (b.kindOf f = .ok kind → ∃ draft before after,
      (b.build f j).1 = .ok draft ∧
      draft.lines = before ++ b.headerParameters f kind j ++ after ∧
      (kind = .method ∨ kind = .constructor →
        (∀ t ∈ b.settings.customTags, t.tag ≠ "param") →
        draft.lines.filter (fun line => line.tag = some "param") =
          b.headerParameters f kind j)) := by
  refine ⟨(b.askParameters_result f kind signature j).trans (b.parametersAsked_eq f kind _ j),
    fun hkind => ?_⟩
  obtain ⟨before, after, hlines⟩ := b.lines_headerParameters f kind j
  obtain ⟨before', after', hclosed⟩ :=
    dropOuterBlank_around (ParameterList.isBlank_lines b.settings _ _) before after
  have hdraft : dropOuterBlank (b.lines f kind j).1 =
      before' ++ b.headerParameters f kind j ++ after' := by
    rw [hlines]
    exact hclosed
  refine ⟨_, before', after', b.build_eq_close f hkind j, hdraft, fun hfunction hcustom => ?_⟩
  have htags : tagsOf before' ++ tagsOf (b.headerParameters f kind j) ++ tagsOf after' =
      TagOrder.expected b.settings f kind := by
    rw [← tagsOf_append, ← tagsOf_append, ← hdraft, tagsOf_dropOuterBlank]
    exact b.lines_tags f kind j
  -- the parameters have as many of these tags as there are
  have hcount := congrArg (List.count "param") htags
  rw [List.count_append, List.count_append, TagOrder.count_expected _ f hfunction hcustom,
    tagsOf_headerParameters, TagOrder.count_parameterTags] at hcount
  have hbefore : "param" ∉ tagsOf before' := List.count_eq_zero.mp (by omega)
  have hafter : "param" ∉ tagsOf after' := List.count_eq_zero.mp (by omega)
  have hall : (b.headerParameters f kind j).filter (fun line => line.tag = some "param") =
      b.headerParameters f kind j :=
    List.filter_eq_self.mpr fun line hline =>
      decide_eq_true (ParameterList.tag_of_mem_lines b.settings hline)
  change (dropOuterBlank _).filter _ = _
  rw [hdraft, List.filter_append, List.filter_append, hall,
    ParameterList.filter_tag_eq_nil (by decide) hbefore,
    ParameterList.filter_tag_eq_nil (by decide) hafter, List.append_nil, List.nil_append]

/-- A builder whose source supplies one description, however many names it is given. -/
def sparing : Builder Unit where
  settings := { flag := fun _ => false, text := fun _ => "" }
  source := { DescriptionSource.blank "" with
    parameters := fun _ _ _ _ => pure (.ok [.plain "Where to begin."]) }
  today := { year := 2024, month := 1, day := 1 }

/-- A function with parameters of all sorts. -/
def rangeFunction : Focus :=
  let part (kind : String) (name initializer : Option String) (optional : Bool)
      (children : List Node) : Node :=
    .mk { kind, fullStart := 0, start := 0, stop := 1, text := "", name, initializer, optional }
      children
  .root (part "FunctionDeclaration" (some "range") none false
    [part "Parameter" (some "this") none false [],
      part "Parameter" (some "from") (some "0") true [],
      part "Parameter" none none true
        [part "ObjectBindingPattern" none none false
          [part "BindingElement" (some "step") (some "1") false [],
            part "BindingElement" none none false [],
            part "BindingElement" (some "unit") none false []]],
      part "Parameter" (some "to") none true [],
      part "Parameter" none none false [part "ArrayBindingPattern" none none false []]])

/-- The lines of this function. -/
theorem askParameters_lines_of_function :
    sparing.kindOf rangeFunction = .ok .method ∧
    (∀ t ∈ sparing.settings.customTags, t.tag ≠ "param") ∧
    ∃ draft, (sparing.build rangeFunction ⟨(), []⟩).1 = .ok draft ∧
      (draft.lines.filter fun line => line.tag = some "param").map
          (fun line => (shownText line.name, shownText line.description)) =
        [("[from=0]", "Where to begin."), ("[param0]", ""), ("[param0.step=1]", ""),
          ("param0.unit", ""), ("[to]", ""), ("param1", "")] := by
  have hkind : sparing.kindOf rangeFunction = .ok .method := by decide +kernel
  have hcustom : ∀ t ∈ sparing.settings.customTags, t.tag ≠ "param" := by decide
  obtain ⟨draft, -, -, hbuild, -, hlines⟩ :=
    (sparing.askParameters_lines rangeFunction .method rangeFunction ⟨(), []⟩).2 hkind
  refine ⟨hkind, hcustom, draft, hbuild, ?_⟩
  rw [hlines (.inl rfl) hcustom]
  decide +kernel

end Builder

end DocHeader

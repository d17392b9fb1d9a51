import DocHeader.Proofs.Header.Lines
import DocHeader.Proofs.Text.Ends

/-!
# The tags of a header and their order

Which tags a header has, and in which order, is settled by the declaration and the settings:
what the source of descriptions answers has no part in it, and neither has the closing of a
draft, which only drops lines that show nothing.

## Main definitions

* `tagsOf` — the tags of lines.
* `TagOrder.expected` — the tags of a header in their order, read off the declaration.
-/

namespace DocHeader

/-- The tags of lines in order. -/
def tagsOf (lines : List TagLine) : List String := lines.filterMap TagLine.tag?

/-! ## The expected tags -/

namespace TagOrder

/-- The tag for the author, when one is set. -/
def author (s : Settings) : List String := if s.text .author = "" then [] else ["author"]

/-- The tag for the date, when a format is set. -/
def date (s : Settings) : List String := if s.text .dateFormat = "" then [] else ["date"]

/-- The modifiers of the node that owns the header, then those of the declaration that are
not among them. -/
def writtenModifiers (f : Focus) : List String :=
  f.anchor.info.modifiers ++ f.info.modifiers.filter fun m => m ∉ f.anchor.info.modifiers

/-- Whether a declaration is initialized with an asynchronous function. -/
def holdsAsync (f : Focus) : Bool :=
  f.functionValue?.any fun value => value.node.hasModifier "async"

/-- The tags for modifiers: those that are written, and `async` of a function that is the
value, as far as the settings let them show. -/
def modifiers (s : Settings) (f : Focus) : List String :=
  (writtenModifiers f ++
    if holdsAsync f ∧ "async" ∉ writtenModifiers f then ["async"] else []).filter (showsModifier s)

/-- The tags that say what is documented. -/
def ofKind (s : Settings) (f : Focus) : DeclarationKind → List String
  | .classLike =>
    (if f.kind = "InterfaceDeclaration" then "interface" else "class") ::
      if (given? f.info.name).isSome then ["typedef"] else []
  | .typeAlias => ["typedef"]
  | .enumeration => ["enum"]
  | .property | .accessor | .variable =>
    if s.flag .includeTypes ∧ f.kind ≠ "EnumMember" then ["type"] else []
  | .method => if (Builder.signatureOf f).info.generator then ["generator"] else []
  | .constructor => ["constructor"]
  | .file => ["file"]

/-- The tags for the heritage of a class or an interface: for each type of each clause the
keyword of the clause. -/
def heritage (f : Focus) (kind : DeclarationKind) : List String :=
  if kind = .classLike then
    f.heritageClauses.flatMap fun clause =>
      List.replicate (clause.childrenOfKind ["ExpressionWithTypeArguments"]).length
        ((given? clause.info.token).getD "extends")
  else []

/-- The type parameters that are documented: those of classes, interfaces, type aliases and
functions. -/
def templates (f : Focus) : DeclarationKind → List Focus
  | .classLike | .typeAlias => f.typeParameters
  | .method => (Builder.signatureOf f).typeParameters
  | _ => []

/-- The parameters that are documented: those of functions and constructors. -/
def parameters (f : Focus) : DeclarationKind → List Focus
  | .method => documentedParameters (Builder.signatureOf f)
  | .constructor => documentedParameters f
  | _ => []

/-- Whether an element of a pattern has a name, its own or that of its property. -/
def isNamed (element : Focus) : Bool :=
  ((given? element.info.propertyName).or (given? element.info.name)).isSome

/-- The elements of a destructured parameter that have a name. -/
def namedElements (p : Focus) : List Focus :=
  match p.bindingPattern? with
  | some pattern => pattern.bindingElements.filter isNamed
  | none => []

/-- The tags for a parameter: its own, and one for each of its named elements. -/
def parameterTags (p : Focus) : List String :=
  "param" :: List.replicate (namedElements p).length "param"

/-- The tag for the return value: of functions alone, when it is asked for, and when there
is a value. -/
def returns (s : Settings) (f : Focus) (kind : DeclarationKind) : List String :=
  if kind = .method ∧ s.flag .includeReturn ∧
      (Builder.signatureOf f).returnTypeText ≠ TypeText.noValue then ["returns"]
  else []

/-- The tags of the user that apply to a kind, each once. -/
def custom (s : Settings) (kind : DeclarationKind) : List String :=
  (((s.customTags.filter fun t => t.appliesTo kind).map CustomTag.tag).eraseDups).filter (· ≠ "")

/-- Whether the other accessor of the same name has a header. -/
def oppositeDocumented (f : Focus) : Bool :=
  f.parent?.any fun parent => (parent.childrenOfKind [oppositeAccessor f.kind]).any fun sibling =>
    sibling.info.name == f.info.name && sibling.hasHeader

/-- The tags of a declaration that describes itself, after those for author and date. -/
def own (s : Settings) (f : Focus) (kind : DeclarationKind) : List String :=
  if f.node.hasModifier "override" then ["override", "inheritdoc"]
  else
    modifiers s f ++ ofKind s f kind ++ heritage f kind ++
      List.replicate (templates f kind).length "template" ++
      (parameters f kind).flatMap parameterTags ++ returns s f kind ++
      custom s kind

/-- The tags of a header in their order. -/
def expected (s : Settings) (f : Focus) (kind : DeclarationKind) : List String :=
  if kind = .accessor ∧ oppositeDocumented f then ["inheritdoc"]
  else author s ++ date s ++ own s f kind

end TagOrder

/-! ## The tags of groups of lines -/

@[simp] theorem tagsOf_nil : tagsOf [] = [] := rfl

@[simp] theorem tagsOf_append (lines lines' : List TagLine) :
    tagsOf (lines ++ lines') = tagsOf lines ++ tagsOf lines' := List.filterMap_append

theorem tagsOf_cons (line : TagLine) (lines : List TagLine) :
    tagsOf (line :: lines) = line.tag?.toList ++ tagsOf lines := by
  cases h : line.tag? <;> simp [tagsOf, h]

theorem TagLine.tag?_of_ne {line : TagLine} {tag : String} (htag : line.tag = some tag)
    (hne : tag ≠ "") : line.tag? = some tag := by
  simp [tag?, htag, hne]

/-- Lines that each have a tag of their own. -/
theorem tagsOf_map {α : Type} {f : α → TagLine} {tag : α → String} {xs : List α}
    (htag : ∀ x ∈ xs, (f x).tag? = some (tag x)) : tagsOf (xs.map f) = xs.map tag := by
  rw [tagsOf, List.filterMap_map, ← List.filterMap_eq_map]
  exact List.filterMap_congr htag

theorem tagsOf_eq_nil {lines : List TagLine} (h : ∀ line ∈ lines, line.tag = none) :
    tagsOf lines = [] :=
  List.filterMap_eq_nil_iff.mpr fun line hline => by simp [TagLine.tag?, h line hline]

theorem given?_getD_ne {s : Option String} {default : String} (h : default ≠ "") :
    (given? s).getD default ≠ "" := by
  unfold given?
  split
  next text =>
    split
    next => exact h
    next hne => simpa using hne
  next => exact h

section Groups

variable (s : Settings) (f : Focus)

theorem tagsOf_authorLines : tagsOf (authorLines s) = TagOrder.author s := by
  unfold TagOrder.author
  split
  next h => simp [authorLines, h]
  next h => simp [authorLines, h, tagsOf_cons, TagLine.tag?]

theorem tagsOf_dateLines (today : CivilTime) :
    tagsOf (dateLines s today) = TagOrder.date s := by
  unfold TagOrder.date
  split
  next h => simp [dateLines, h]
  next h => simp [dateLines, h, tagsOf_cons, TagLine.tag?]

theorem tagsOf_separatorLines : tagsOf (separatorLines s) = [] := by
  unfold separatorLines
  split <;> rfl

theorem tagsOf_openingLines (today : CivilTime) (description : Phrase) :
    tagsOf (openingLines s today description) = TagOrder.author s ++ TagOrder.date s := by
  have htext : tagsOf ((descriptionLines description).map
      fun line => TagLine.ofText (some line)) = [] := tagsOf_eq_nil (by simp [TagLine.ofText])
  simp [openingLines, htext, tagsOf_authorLines, tagsOf_dateLines, tagsOf_separatorLines]

/-- The modifiers of a declaration, whether or not another node owns its header. -/
theorem declaredModifiers_eq : declaredModifiers f = TagOrder.writtenModifiers f ++
    if TagOrder.holdsAsync f ∧ "async" ∉ TagOrder.writtenModifiers f then ["async"] else [] := by
  -- without another owner of the header none of the node's own modifiers is left
  have hwritten : (if f.owner?.isSome then f.anchor.info.modifiers ++
      f.info.modifiers.filter (fun m => !f.anchor.info.modifiers.contains m)
        else f.anchor.info.modifiers) = TagOrder.writtenModifiers f := by
    cases howner : f.owner? with
    | none => simp [TagOrder.writtenModifiers, Focus.anchor, howner]
    | some owner => simp [TagOrder.writtenModifiers]
  have hasync : (f.functionValue?.map fun value => value.node.hasModifier "async").getD false =
      TagOrder.holdsAsync f := by
    unfold TagOrder.holdsAsync
    cases f.functionValue? <;> rfl
  simp only [declaredModifiers, hwritten, hasync]
  split
  next h => rw [if_pos (by simpa using h)]
  next h => rw [if_neg (by simpa using h), List.append_nil]

theorem tagsOf_modifierLines : tagsOf (modifierLines s f) = TagOrder.modifiers s f := by
  have hne : ∀ m ∈ (declaredModifiers f).filter (showsModifier s),
      (TagLine.ofTag m).tag? = some m := by
    intro m hm
    refine TagLine.tag?_of_ne rfl ?_
    rintro rfl
    have hshown := (List.mem_filter.mp hm).2
    simp [showsModifier, modifierTags] at hshown
  rw [modifierLines, tagsOf_map hne, List.map_id', declaredModifiers_eq, TagOrder.modifiers]

theorem tagsOf_classLines : tagsOf (classLines f) = TagOrder.ofKind s f .classLike := by
  cases hname : given? f.info.name <;> by_cases hkind : f.kind = "InterfaceDeclaration" <;>
    simp [classLines, TagOrder.ofKind, hname, hkind, tagsOf_cons, TagLine.tag?, TagLine.ofTag]

theorem tagsOf_enumLines : tagsOf (enumLines s f) = ["enum"] := by
  simp [enumLines, tagsOf_cons, TagLine.tag?]

theorem tagsOf_typeLines : tagsOf (typeLines s f) =
    if s.flag .includeTypes ∧ f.kind ≠ "EnumMember" then ["type"] else [] := by
  cases hflag : s.flag .includeTypes <;> by_cases hkind : f.kind = "EnumMember" <;>
    simp [typeLines, hflag, hkind, tagsOf_cons, TagLine.tag?]

theorem tagsOf_heritageLines : tagsOf (heritageLines f) = TagOrder.heritage f .classLike := by
  rw [heritageLines, tagsOf, List.filterMap_flatMap, TagOrder.heritage, if_pos rfl]
  refine List.flatMap_congr fun clause _ => ?_
  rw [← tagsOf, tagsOf_map fun reference _ =>
    TagLine.tag?_of_ne rfl (given?_getD_ne (by decide)), List.map_const']

theorem tagsOf_templateLines {templates : List Focus} {names : List String}
    {descriptions : List Phrase} (hnames : names.length = templates.length)
    (hdescriptions : descriptions.length = names.length) :
    tagsOf (templateLines s templates names descriptions) =
      List.replicate templates.length "template" := by
  induction templates generalizing names descriptions with
  | nil => rfl
  | cons t ts ih =>
    obtain ⟨name, names, rfl⟩ := List.exists_cons_of_length_eq_add_one hnames
    obtain ⟨d, ds, rfl⟩ := List.exists_cons_of_length_eq_add_one hdescriptions
    rw [templateLines, tagsOf_cons, TagLine.tag?_of_ne rfl (by decide),
      ih (by simpa using hnames) (by simpa using hdescriptions)]
    rfl

theorem tagsOf_elementLines (owner : String) (elements : List Focus) :
    tagsOf (elements.filterMap (elementLine? s owner)) =
      List.replicate (elements.filter TagOrder.isNamed).length "param" := by
  induction elements with
  | nil => rfl
  | cons e elements ih =>
    cases hname : (given? e.info.propertyName).or (given? e.info.name) with
    | none =>
      have hline : elementLine? s owner e = none := by simp [elementLine?, hname]
      have hnamed : TagOrder.isNamed e = false := by simp [TagOrder.isNamed, hname]
      rw [List.filterMap_cons_none hline, List.filter_cons_of_neg (by simp [hnamed]), ih]
    | some name =>
      have hnamed : TagOrder.isNamed e = true := by simp [TagOrder.isNamed, hname]
      have hline : ∃ line, elementLine? s owner e = some line ∧ line.tag? = some "param" := by
        simp [elementLine?, hname, TagLine.tag?]
      obtain ⟨line, hline, htag⟩ := hline
      rw [List.filterMap_cons_some hline, List.filter_cons_of_pos hnamed, tagsOf_cons, htag, ih]
      rfl

theorem tagsOf_parameterLine (p : Focus) (name : String) (description : Phrase) :
    tagsOf (parameterLine s p name description) = TagOrder.parameterTags p := by
  rw [parameterLine, tagsOf_cons, TagLine.tag?_of_ne rfl (by decide), TagOrder.parameterTags,
    TagOrder.namedElements]
  cases p.bindingPattern? with
  | none => rfl
  | some pattern => exact congrArg _ (tagsOf_elementLines s name pattern.bindingElements)

theorem tagsOf_parameterLines {parameters : List Focus} {names : List String}
    {descriptions : List Phrase} (hnames : names.length = parameters.length)
    (hdescriptions : descriptions.length = names.length) :
    tagsOf (parameterLines s parameters names descriptions) =
      parameters.flatMap TagOrder.parameterTags := by
  induction parameters generalizing names descriptions with
  | nil => rfl
  | cons p ps ih =>
    obtain ⟨name, names, rfl⟩ := List.exists_cons_of_length_eq_add_one hnames
    obtain ⟨d, ds, rfl⟩ := List.exists_cons_of_length_eq_add_one hdescriptions
    rw [parameterLines, tagsOf_append, tagsOf_parameterLine,
      ih (by simpa using hnames) (by simpa using hdescriptions), List.flatMap_cons]

/-- Of the entries with one tag the first that applies is taken, unless the tag was seen
before. -/
theorem map_tag_applicableTags (kind : DeclarationKind) (seen : List String)
    (entries : List CustomTag) :
    (applicableTags kind seen entries).map CustomTag.tag =
      (((entries.filter fun t => t.appliesTo kind).map CustomTag.tag).filter
        fun tag => !seen.contains tag).eraseDups := by
  fun_induction applicableTags kind seen entries with
  | case1 seen => rfl
  | case2 seen t rest hskip ih =>
    rw [ih]
    cases happlies : t.appliesTo kind with
    | false => simp [happlies]
    | true =>
      have hseen : t.tag ∈ seen := by simpa [happlies] using hskip
      simp [happlies, hseen]
  | case3 seen t rest htake ih =>
    obtain ⟨hseen, happlies⟩ : t.tag ∉ seen ∧ t.appliesTo kind = true := by simpa using htake
    have hfirst : ((t :: rest).filter fun t => t.appliesTo kind) =
        t :: rest.filter fun t => t.appliesTo kind := List.filter_cons_of_pos happlies
    rw [List.map_cons, ih, hfirst, List.map_cons, List.filter_cons_of_pos (by simpa using hseen),
      List.eraseDups_cons, List.filter_filter]
    refine congrArg (fun tags => t.tag :: List.eraseDups tags) (List.filter_congr fun tag _ => ?_)
    by_cases hsame : tag = t.tag <;> simp [hsame]

theorem tagsOf_customTagLines (kind : DeclarationKind) :
    tagsOf (customTagLines s kind) = TagOrder.custom s kind := by
  have htags (entries : List CustomTag) : tagsOf (entries.map customTagLine) =
      (entries.map CustomTag.tag).filter (· ≠ "") := by
    induction entries with
    | nil => rfl
    | cons t rest ih =>
      by_cases hempty : t.tag = "" <;>
        simp [tagsOf_cons, customTagLine, TagLine.tag?, hempty, ih]
  rw [customTagLines, htags, map_tag_applicableTags, TagOrder.custom]
  simp

theorem tagsOf_reusedLines (paired : Focus) : tagsOf (reusedLines s paired) = ["inheritdoc"] := by
  have htext (lines : List String) : tagsOf (lines.map fun line =>
      if hasContent line then TagLine.ofText (some (.plain line)) else .blank) = [] := by
    refine tagsOf_eq_nil (List.forall_mem_map.mpr fun line _ => ?_)
    split <;> rfl
  have hseparator (empty : Bool) :
      tagsOf (if empty then [] else separatorLines s) = [] := by
    cases empty with
    | true => rfl
    | false => exact tagsOf_separatorLines s
  rw [reusedLines, tagsOf_append, tagsOf_append, htext, hseparator]
  rfl

end Groups

/-! ## Closing -/

/-- Closing a draft keeps every line of a sort that no blank line is of. -/
theorem filter_dropOuterBlank {p : TagLine → Bool}
    (hp : ∀ line : TagLine, line.isBlank = true → p line = false) (lines : List TagLine) :
    (dropOuterBlank lines).filter p = lines.filter p :=
  filter_dropEnds hp lines

/-- Closing a draft keeps every line with a tag. -/
theorem filter_tagged_dropOuterBlank (lines : List TagLine) :
    (dropOuterBlank lines).filter (fun line => line.tag?.isSome) =
      lines.filter fun line => line.tag?.isSome := by
  refine filter_dropOuterBlank (fun line hline => ?_) lines
  simp only [TagLine.isBlank, Bool.and_eq_true] at hline
  simpa using hline.1.1.1

theorem tagsOf_dropOuterBlank (lines : List TagLine) :
    tagsOf (dropOuterBlank lines) = tagsOf lines := by
  have htagged (lines : List TagLine) :
      tagsOf (lines.filter fun line => line.tag?.isSome) = tagsOf lines := by
    rw [tagsOf, List.filterMap_filter, tagsOf]
    refine List.filterMap_congr fun line _ => ?_
    cases line.tag? <;> rfl
  rw [← htagged, filter_tagged_dropOuterBlank, htagged]

/-! ## Headers -/

theorem length_fitDescriptions (count : Nat) (given : List Phrase) :
    (fitDescriptions count given).length = count := by
  simp only [fitDescriptions, List.length_append, List.length_take, List.length_replicate]
  omega

theorem length_parameterNames (k : Nat) (parameters : List Focus) :
    (parameterNames k parameters).length = parameters.length := by
  fun_induction parameterNames k parameters <;> simp [*]

namespace Builder

variable {σ : Type} (b : Builder σ) (f signature : Focus) (kind : DeclarationKind)

/-- There is one description for each name, whatever the source answers. -/
theorem askNames_length (generics : Bool) (names : List String) :
    (b.askNames f kind generics names).Yields fun given => given.length = names.length :=
  .bind (.trivial _) fun given _ => .pure (length_fitDescriptions names.length given)

theorem askTemplates_tags : (b.askTemplates f signature kind).Yields fun lines =>
    tagsOf lines = List.replicate signature.typeParameters.length "template" := by
  simp only [askTemplates]
  split
  next hnone => exact .pure (by rw [List.isEmpty_iff.mp hnone]; rfl)
  next =>
    exact .bind (b.askNames_length f kind true _) fun descriptions hlength =>
      .pure (tagsOf_templateLines b.settings (List.length_map _) hlength)

theorem askParameters_tags : (b.askParameters f signature kind).Yields fun lines =>
    tagsOf lines = (documentedParameters signature).flatMap TagOrder.parameterTags := by
  simp only [askParameters]
  split
  next hnone => exact .pure (by rw [List.isEmpty_iff.mp hnone]; rfl)
  next =>
    exact .bind (b.askNames_length f kind false _) fun descriptions hlength =>
      .pure (tagsOf_parameterLines b.settings (length_parameterNames 0 _) hlength)

theorem askReturn_tags : (b.askReturn f (signatureOf f)).Yields fun lines =>
    tagsOf lines = TagOrder.returns b.settings f .method := by
  simp only [askReturn, TagOrder.returns, Focus.renderReturn?]
  cases hinclude : b.settings.flag .includeReturn with
  | false => exact .pure (by simp)
  | true =>
    by_cases hvoid : (signatureOf f).returnTypeText = TypeText.noValue
    · simp only [hvoid]
      exact .pure (by simp)
    · have hvalue : ((signatureOf f).returnTypeText == TypeText.noValue) = false := by
        simp [hvoid]
      simp only [hvalue]
      exact .bind (.trivial _) fun _ _ =>
        .pure (by simp [hvoid, tagsOf_cons, returnLine, TagLine.tag?])

theorem kindLines_tags : (b.kindLines f kind).Yields fun lines =>
    tagsOf lines = TagOrder.ofKind b.settings f kind ++ TagOrder.heritage f kind ++
      List.replicate (TagOrder.templates f kind).length "template" ++
      (TagOrder.parameters f kind).flatMap TagOrder.parameterTags ++
      TagOrder.returns b.settings f kind := by
  match kind with
  | .classLike =>
    exact .bind (b.askTemplates_tags f f _) fun templates htemplates =>
      .pure (by simp [tagsOf_classLines b.settings, tagsOf_heritageLines, htemplates,
        TagOrder.templates, TagOrder.parameters, TagOrder.returns])
  | .typeAlias =>
    exact .bind (b.askTemplates_tags f f _) fun templates htemplates =>
      .pure (by simp [aliasLines, tagsOf_cons, TagLine.tag?, htemplates, TagOrder.ofKind,
        TagOrder.heritage, TagOrder.templates, TagOrder.parameters, TagOrder.returns])
  | .enumeration =>
    exact .pure (by simp [tagsOf_enumLines, TagOrder.ofKind, TagOrder.heritage,
      TagOrder.templates, TagOrder.parameters, TagOrder.returns])
  | .property | .accessor | .variable =>
    exact .pure (by simp [tagsOf_typeLines, TagOrder.ofKind, TagOrder.heritage,
      TagOrder.templates, TagOrder.parameters, TagOrder.returns])
  | .method =>
    refine .bind (b.askTemplates_tags f _ _) fun templates htemplates =>
      .bind (b.askParameters_tags f _ _) fun parameters hparameters =>
        .bind (b.askReturn_tags f) fun returns hreturns => .pure ?_
    have hgenerator : tagsOf (if (signatureOf f).info.generator then [TagLine.ofTag "generator"]
        else []) = TagOrder.ofKind b.settings f .method := by
      unfold TagOrder.ofKind
      split <;> rfl
    simp [hgenerator, htemplates, hparameters, hreturns, TagOrder.heritage, TagOrder.templates,
      TagOrder.parameters]
  | .constructor =>
    exact .bind (b.askParameters_tags f f _) fun parameters hparameters =>
      .pure (by simp [tagsOf_cons, TagLine.ofTag, TagLine.tag?, hparameters, TagOrder.ofKind,
        TagOrder.heritage, TagOrder.templates, TagOrder.parameters, TagOrder.returns])
  | .file =>
    exact .pure (by simp [tagsOf_cons, TagLine.ofTag, TagLine.tag?, TagOrder.ofKind,
      TagOrder.heritage, TagOrder.templates, TagOrder.parameters, TagOrder.returns])

theorem ownLines_tags : (b.ownLines f kind).Yields fun lines =>
    tagsOf lines = TagOrder.author b.settings ++ TagOrder.date b.settings ++
      TagOrder.own b.settings f kind := by
  refine .bind (.trivial _) fun description _ => ?_
  have hopening := tagsOf_openingLines b.settings b.today description
  unfold TagOrder.own
  split
  next => exact .pure (by rw [tagsOf_append, hopening]; rfl)
  next =>
    exact .bind (b.kindLines_tags f kind) fun lines hlines =>
      .pure (by simp [hopening, tagsOf_modifierLines, hlines, tagsOf_customTagLines])

theorem isSome_pairedAccessor? :
    (pairedAccessor? f).isSome = TagOrder.oppositeDocumented f := by
  unfold pairedAccessor? TagOrder.oppositeDocumented
  cases f.parent? with
  | none => rfl
  | some parent => exact List.isSome_find?

/-- Without an opposite that has a header nothing is repeated. -/
theorem reused_eq_none (h : ¬(kind = .accessor ∧ TagOrder.oppositeDocumented f = true)) :
    (if kind = .accessor then pairedAccessor? f else none) = none := by
  split
  next hkind =>
    rw [← Option.not_isSome_iff_eq_none, isSome_pairedAccessor?]
    exact fun hsome => h ⟨hkind, hsome⟩
  next => rfl

theorem lines_tags : (b.lines f kind).Yields fun lines =>
    tagsOf lines = TagOrder.expected b.settings f kind := by
  unfold Builder.lines TagOrder.expected
  rw [← isSome_pairedAccessor?]
  by_cases hkind : kind = .accessor
  · rw [if_pos hkind]
    cases hpaired : pairedAccessor? f with
    | none =>
      rw [if_neg (by simp)]
      exact b.ownLines_tags f kind
    | some paired =>
      rw [if_pos ⟨hkind, rfl⟩]
      exact .pure (tagsOf_reusedLines b.settings paired)
  · rw [if_neg hkind, if_neg fun h => hkind h.1]
    exact b.ownLines_tags f kind

/-- **The tags of a header and their order.** For every declaration that is documented, every
setting and whatever the source of descriptions answers, a header is built. Its tags are
those for author and date, the modifiers that are shown, the kind, the heritage, the type
parameters, the parameters with their elements, the return value and the user, in this
order; a member that overrides another one has `override` and `inheritdoc` after author and
date, and an accessor whose opposite has a header has `inheritdoc` alone. -/
theorem build_tags (j : Journal σ) {kind : DeclarationKind} (hkind : b.kindOf f = .ok kind) :
    ∃ draft, (b.build f j).1 = .ok draft ∧
      draft.tags = TagOrder.expected b.settings f kind :=
  ⟨_, b.build_eq_close f hkind j, (tagsOf_dropOuterBlank _).trans (b.lines_tags f kind j)⟩

/-- A builder with an author, a date and tags of the user. -/
def signed : Builder Unit where
  settings :=
    { text := fun t => if t = .author then "Ada" else if t = .dateFormat then "%Y" else ""
      customTags := [{ tag := "since" }, { tag := "internal", kinds := some [.file] },
        { tag := "since", placeholder := "1.0" }] }
  source := .blank ""
  today := { year := 2024, month := 1, day := 1 }

/-- A part of a declaration. -/
def part (kind : String) (token : Option String := none) (children : List Node := []) : Node :=
  .mk { kind, fullStart := 0, start := 0, stop := 1, text := "", token } children

/-- A class with a type parameter that extends one class and implements two interfaces. -/
def derivedClass : Focus :=
  .root (.mk
    { kind := "ClassDeclaration", fullStart := 0, start := 0, stop := 1, text := "",
      name := some "Store", modifiers := ["export", "default", "abstract"] }
    [part "TypeParameter",
      part "HeritageClause" none [part "ExpressionWithTypeArguments"],
      part "HeritageClause" (some "implements")
        [part "ExpressionWithTypeArguments", part "ExpressionWithTypeArguments"]])

/-- The tags of a class. -/
theorem build_tags_of_class :
    signed.kindOf derivedClass = .ok .classLike ∧
    ∃ draft, (signed.build derivedClass ⟨(), []⟩).1 = .ok draft ∧
      draft.tags = ["author", "date", "export", "abstract", "class", "typedef", "extends",
        "implements", "implements", "template", "since"] := by
  have hkind : signed.kindOf derivedClass = .ok .classLike := by decide +kernel
  obtain ⟨draft, hbuild, htags⟩ := signed.build_tags derivedClass ⟨(), []⟩ hkind
  refine ⟨hkind, draft, hbuild, htags.trans ?_⟩
  decide +kernel

end Builder

end DocHeader

import DocHeader.Proofs.Header.Written

/-!
# The lines that are built

Every line of a header that is built has braces around its value, or nothing. A line
without a tag holds a line of a description or nothing, so no line feed can come in there.

## Main definitions

* `TagLine.Tagged`, `TaggedLines` — lines with tags, as they are built.
* `TagLine.Regular`, `RegularLines` — lines as they are built.
* `Logged.Yields` — what all results of a computation have in common.
-/

namespace DocHeader

/-! ## Lines of texts -/

namespace Text

theorem notMem_lines (cs : List Char) : ∀ line ∈ lines cs, '\n' ∉ line := by
  fun_induction lines cs with
  | case1 => simp
  | case2 rest ih => simpa using ih
  | case3 c rest _ hboundary ih => simpa using ih
  | case4 c rest _ hboundary ih =>
    have hc : '\n' ≠ c := by
      rintro rfl
      exact hboundary (by decide)
    cases hlines : lines rest with
    | nil => simpa [consToFirst] using hc
    | cons first others =>
      rw [hlines] at ih
      intro line hline
      rcases List.mem_cons.mp hline with rfl | hline
      · simpa [hc] using ih first List.mem_cons_self
      · exact ih line (List.mem_cons_of_mem _ hline)

theorem trimEnd_sublist (cs : List Char) : (trimEnd cs).Sublist cs := by
  have h := (List.dropWhile_sublist isBlank (l := cs.reverse)).reverse
  simpa [trimEnd] using h

theorem trim_sublist (cs : List Char) : (trim cs).Sublist cs :=
  (trimEnd_sublist _).trans (List.dropWhile_sublist _)

end Text

theorem commentLine_sublist (raw : List Char) : (commentLine raw).Sublist raw := by
  have htrim := Text.trim_sublist raw
  unfold commentLine
  split
  next rest hline =>
    rw [hline] at htrim
    exact ((List.sublist_cons_self _ _).trans (List.sublist_cons_self _ _)).trans htrim
  next rest _ hline =>
    rw [hline] at htrim
    exact (List.sublist_cons_self _ _).trans htrim
  next => exact htrim

/-- The description of an existing header is given line by line. -/
theorem notMem_descriptionOf (header : String) :
    ∀ line ∈ descriptionOf header, '\n' ∉ line.toList := by
  intro line hline
  obtain ⟨cs, hcs, rfl⟩ := List.mem_map.mp hline
  have hcs : cs ∈ (((Text.lines (commentBody header.toList)).map commentLine).takeWhile
      fun line => !startsTag line).map Text.trimEnd := by
    rw [dropOuterBlankLines, List.mem_reverse] at hcs
    exact (List.dropWhile_sublist _).mem (List.mem_reverse.mp ((List.dropWhile_sublist _).mem hcs))
  obtain ⟨body, hbody, rfl⟩ := List.mem_map.mp hcs
  obtain ⟨raw, hraw, rfl⟩ := List.mem_map.mp ((List.takeWhile_sublist _).mem hbody)
  intro hmem
  exact Text.notMem_lines _ raw hraw
    ((commentLine_sublist raw).mem ((Text.trimEnd_sublist _).mem (by simpa using hmem)))

/-- A description of several lines is cut into them. -/
theorem notMem_descriptionLines (description : Phrase) :
    ∀ p ∈ descriptionLines description, '\n' ∉ p.shown.toList := by
  intro p hp
  unfold descriptionLines at hp
  split at hp
  next =>
    obtain ⟨line, hline, rfl⟩ := List.mem_map.mp hp
    obtain ⟨cs, hcs, rfl⟩ := List.mem_map.mp (List.mem_filter.mp hline).1
    have hshown : (description.withText (trimmed (.ofList cs))).shown = .ofList (Text.trim cs) := by
      cases description <;> simp [Phrase.withText, Phrase.shown, trimmed]
    rw [hshown, String.toList_ofList]
    exact fun hmem => Text.notMem_lines _ cs hcs ((Text.trim_sublist cs).mem hmem)
  next hnone =>
    rw [List.mem_singleton.mp hp]
    simpa using hnone

/-! ## Groups of lines -/

/-- A line with a tag, as it is built. -/
structure TagLine.Tagged (line : TagLine) : Prop where
  tag : line.tag ≠ none
  delimiters : line.delimiters = bare ∨ line.delimiters = ("\x7b", "\x7d")

/-- A line as it is built. -/
structure TagLine.Regular (line : TagLine) : Prop where
  delimiters : line.delimiters = bare ∨ line.delimiters = ("\x7b", "\x7d")
  unbroken : line.tag = none → ∀ text ∈ line.texts, '\n' ∉ text.toList

theorem TagLine.Tagged.regular {line : TagLine} (h : line.Tagged) : line.Regular :=
  ⟨h.delimiters, fun hnone => absurd hnone h.tag⟩

theorem TagLine.tagged_ofTag (tag : String) : (TagLine.ofTag tag).Tagged :=
  ⟨by simp [ofTag], .inr rfl⟩

theorem TagLine.regular_blank : TagLine.blank.Regular :=
  ⟨.inr rfl, fun _ => by decide⟩

theorem TagLine.regular_ofText {p : Phrase} (h : '\n' ∉ p.shown.toList) :
    (TagLine.ofText (some p)).Regular := by
  refine ⟨.inr rfl, fun _ text htext => ?_⟩
  have hmem : text ∈ ["", "", p.shown].filter fun text => !text.isEmpty := htext
  obtain ⟨hmem, hsome⟩ := List.mem_filter.mp hmem
  simp only [List.mem_cons, List.not_mem_nil, or_false] at hmem
  rcases hmem with rfl | rfl | rfl
  · cases hsome
  · cases hsome
  · exact h

/-- Lines with tags, as they are built. -/
def TaggedLines (lines : List TagLine) : Prop := ∀ line ∈ lines, line.Tagged

/-- Lines as they are built. -/
def RegularLines (lines : List TagLine) : Prop := ∀ line ∈ lines, line.Regular

namespace TaggedLines

variable {lines lines' : List TagLine}

theorem nil : TaggedLines [] := List.forall_mem_nil _

theorem cons {line : TagLine} (h : line.Tagged) (hlines : TaggedLines lines) :
    TaggedLines (line :: lines) :=
  List.forall_mem_cons.mpr ⟨h, hlines⟩

theorem single {line : TagLine} (h : line.Tagged) : TaggedLines [line] := .cons h .nil

theorem append (h : TaggedLines lines) (h' : TaggedLines lines') : TaggedLines (lines ++ lines') :=
  List.forall_mem_append.mpr ⟨h, h'⟩

theorem map {α : Type} {f : α → TagLine} {xs : List α} (h : ∀ x ∈ xs, (f x).Tagged) :
    TaggedLines (xs.map f) :=
  List.forall_mem_map.mpr h

theorem regular (h : TaggedLines lines) : RegularLines lines := fun line hline =>
  (h line hline).regular

end TaggedLines

namespace RegularLines

variable {lines lines' : List TagLine}

theorem nil : RegularLines [] := List.forall_mem_nil _

theorem single {line : TagLine} (h : line.Regular) : RegularLines [line] :=
  List.forall_mem_singleton.mpr h

theorem append (h : RegularLines lines) (h' : RegularLines lines') :
    RegularLines (lines ++ lines') :=
  List.forall_mem_append.mpr ⟨h, h'⟩

theorem map {α : Type} {f : α → TagLine} {xs : List α} (h : ∀ x ∈ xs, (f x).Regular) :
    RegularLines (xs.map f) :=
  List.forall_mem_map.mpr h

theorem dropOuterBlank (h : RegularLines lines) : RegularLines (dropOuterBlank lines) :=
  fun line hline => h line ((dropOuterBlank_sublist lines).mem hline)

end RegularLines

theorem tagged_authorLines (s : Settings) : TaggedLines (authorLines s) := by
  simp only [authorLines]
  split
  next => exact .nil
  next => exact .single ⟨by simp, .inl rfl⟩

theorem tagged_dateLines (s : Settings) (today : CivilTime) : TaggedLines (dateLines s today) := by
  simp only [dateLines]
  split
  next => exact .nil
  next => exact .single ⟨by simp, .inl rfl⟩

theorem regular_separatorLines (s : Settings) : RegularLines (separatorLines s) := by
  unfold separatorLines
  split
  next => exact .single TagLine.regular_blank
  next => exact .nil

theorem regular_openingLines (s : Settings) (today : CivilTime) (description : Phrase) :
    RegularLines (openingLines s today description) := by
  have hlines : RegularLines
      ((descriptionLines description).map fun line => TagLine.ofText (some line)) :=
    .map fun p hp => TagLine.regular_ofText (notMem_descriptionLines description p hp)
  exact ((hlines.append (tagged_authorLines s).regular).append
    (tagged_dateLines s today).regular).append (regular_separatorLines s)

theorem tagged_modifierLines (s : Settings) (f : Focus) : TaggedLines (modifierLines s f) :=
  .map fun tag _ => TagLine.tagged_ofTag tag

theorem tagged_classLines (f : Focus) : TaggedLines (classLines f) := by
  refine .cons (TagLine.tagged_ofTag _) ?_
  split
  next => exact .single ⟨by simp, .inr rfl⟩
  next => exact .nil

theorem tagged_aliasLines (f : Focus) : TaggedLines (aliasLines f) :=
  .single ⟨by simp, .inr rfl⟩

theorem tagged_enumLines (s : Settings) (f : Focus) : TaggedLines (enumLines s f) :=
  .single ⟨by simp, .inr rfl⟩

theorem tagged_typeLines (s : Settings) (f : Focus) : TaggedLines (typeLines s f) := by
  unfold typeLines
  split
  next => exact .nil
  next => exact .single ⟨by simp, .inr rfl⟩

theorem tagged_heritageLines (f : Focus) : TaggedLines (heritageLines f) := by
  intro line hline
  obtain ⟨clause, -, hline⟩ := List.mem_flatMap.mp hline
  obtain ⟨reference, -, rfl⟩ := List.mem_map.mp hline
  exact ⟨by simp, .inr rfl⟩

theorem tagged_templateLines (s : Settings) (templates : List Focus) (names : List String)
    (descriptions : List Phrase) :
    TaggedLines (templateLines s templates names descriptions) := by
  fun_induction templateLines s templates names descriptions with
  | case1 t ts name names d ds ih => exact .cons ⟨by simp [templateLine], .inr rfl⟩ ih
  | case2 => exact .nil

theorem tagged_parameterLine (s : Settings) (p : Focus) (name : String)
    (description : Phrase) : TaggedLines (parameterLine s p name description) := by
  refine .cons ⟨by simp, .inr rfl⟩ ?_
  split
  next =>
    intro line hline
    obtain ⟨element, -, hline⟩ := List.mem_filterMap.mp hline
    obtain ⟨_, -, rfl⟩ := Option.map_eq_some_iff.mp hline
    exact ⟨by simp, .inr rfl⟩
  next => exact .nil

theorem tagged_parameterLines (s : Settings) (parameters : List Focus) (names : List String)
    (descriptions : List Phrase) :
    TaggedLines (parameterLines s parameters names descriptions) := by
  fun_induction parameterLines s parameters names descriptions with
  | case1 p ps name names d ds ih => exact (tagged_parameterLine s p name d).append ih
  | case2 => exact .nil

theorem tagged_customTagLines (s : Settings) (kind : DeclarationKind) :
    TaggedLines (customTagLines s kind) :=
  .map fun _ _ => ⟨by simp [customTagLine], .inl rfl⟩

theorem regular_reusedLines (s : Settings) (paired : Focus) :
    RegularLines (reusedLines s paired) := by
  refine .append (.append (.map fun text htext => ?_) ?_)
    (.single (TagLine.tagged_ofTag _).regular)
  · split
    next => exact TagLine.regular_ofText (notMem_descriptionOf _ text htext)
    next => exact TagLine.regular_blank
  · split
    next => exact .nil
    next => exact regular_separatorLines s

/-! ## Drafts -/

namespace Logged

variable {σ α β : Type}

/-- What all results of a computation have in common. -/
def Yields (work : Logged σ α) (P : α → Prop) : Prop := ∀ j, P (work j).1

theorem Yields.pure {P : α → Prop} {a : α} (h : P a) : (pure a : Logged σ α).Yields P := fun _ => h

theorem Yields.bind {work : Logged σ α} {next : α → Logged σ β} {P : α → Prop} {Q : β → Prop}
    (h : work.Yields P) (hnext : ∀ a, P a → (next a).Yields Q) : (work >>= next).Yields Q :=
  fun j => hnext _ (h j) _

theorem Yields.trivial (work : Logged σ α) : work.Yields fun _ => True := fun _ => True.intro

end Logged

namespace Builder

variable {σ : Type} (b : Builder σ) (f signature : Focus) (kind : DeclarationKind)

theorem askTemplates_yields : (b.askTemplates f signature kind).Yields TaggedLines := by
  simp only [askTemplates]
  split
  next => exact .pure .nil
  next =>
    exact .bind (.trivial _) fun descriptions _ =>
      .pure (tagged_templateLines b.settings _ _ descriptions)

theorem askParameters_yields : (b.askParameters f signature kind).Yields TaggedLines := by
  simp only [askParameters]
  split
  next => exact .pure .nil
  next =>
    exact .bind (.trivial _) fun descriptions _ =>
      .pure (tagged_parameterLines b.settings _ _ descriptions)

theorem askReturn_yields : (b.askReturn f signature).Yields TaggedLines := by
  simp only [askReturn]
  split
  next => exact .pure .nil
  next =>
    split
    next => exact .pure .nil
    next => exact .bind (.trivial _) fun _ _ => .pure (.single ⟨by simp [returnLine], .inr rfl⟩)

theorem kindLines_yields : (b.kindLines f kind).Yields TaggedLines := by
  match kind with
  | .classLike =>
    exact .bind (b.askTemplates_yields f f _) fun templates htemplates =>
      .pure (.append (.append (tagged_classLines f) (tagged_heritageLines f)) htemplates)
  | .typeAlias =>
    exact .bind (b.askTemplates_yields f f _) fun templates htemplates =>
      .pure (.append (tagged_aliasLines f) htemplates)
  | .enumeration => exact .pure (tagged_enumLines b.settings f)
  | .property | .accessor | .variable => exact .pure (tagged_typeLines b.settings f)
  | .method =>
    refine .bind (b.askTemplates_yields f _ _) fun templates htemplates =>
      .bind (b.askParameters_yields f _ _) fun parameters hparameters =>
        .bind (b.askReturn_yields f _) fun returns hreturns =>
          .pure (.append (.append (.append ?_ htemplates) hparameters) hreturns)
    split
    next => exact .single (TagLine.tagged_ofTag _)
    next => exact .nil
  | .constructor =>
    exact .bind (b.askParameters_yields f f _) fun parameters hparameters =>
      .pure (.cons (TagLine.tagged_ofTag _) hparameters)
  | .file => exact .pure (.single (TagLine.tagged_ofTag _))

/-- What a declaration says of itself comes first, and all other lines have tags. -/
theorem ownLines_opening (j : Journal σ) : ∃ rest, TaggedLines rest ∧
    (b.ownLines f kind j).1 = openingLines b.settings b.today
      (ask (b.source.declaration f kind) emptyRegion j).1 ++ rest := by
  simp only [ownLines, Logged.bind_apply]
  split
  next =>
    exact ⟨_, .cons (TagLine.tagged_ofTag _) (.single (TagLine.tagged_ofTag _)), rfl⟩
  next =>
    let asked := (ask (b.source.declaration f kind) emptyRegion j).2
    have hlines := b.kindLines_yields f kind asked
    refine ⟨modifierLines b.settings f ++ (b.kindLines f kind asked).1 ++
      customTagLines b.settings kind, ?_, ?_⟩
    · exact ((tagged_modifierLines b.settings f).append hlines).append
        (tagged_customTagLines b.settings kind)
    · simp [asked, Logged.bind_apply]

theorem ownLines_yields : (b.ownLines f kind).Yields RegularLines := by
  intro j
  obtain ⟨rest, hrest, hlines⟩ := b.ownLines_opening f kind j
  rw [hlines]
  exact (regular_openingLines _ _ _).append hrest.regular

theorem lines_yields : (b.lines f kind).Yields RegularLines := by
  unfold Builder.lines
  split
  next paired _ => exact .pure (regular_reusedLines b.settings paired)
  next => exact b.ownLines_yields f kind

/-- What is built for a declaration of some kind is the closed draft of its lines. -/
theorem build_eq_close {kind : DeclarationKind} (hkind : b.kindOf f = .ok kind) (j : Journal σ) :
    (b.build f j).1 = .ok ({ kind, lines := (b.lines f kind j).1 } : Draft).close := by
  simp only [build, hkind, Logged.bind_apply, Logged.pure_apply]

/-- The draft of a declaration of some kind. -/
theorem build_of_kind {kind : DeclarationKind} (hkind : b.kindOf f = .ok kind) (j : Journal σ) :
    ∃ draft, (b.build f j).1 = .ok draft ∧ draft.closed = true ∧ RegularLines draft.lines :=
  ⟨_, b.build_eq_close f hkind j, rfl, (b.lines_yields f kind j).dropOuterBlank⟩

theorem buildText_apply (source : String) (snippet : Bool) (j : Journal σ) :
    (b.buildText f source snippet j).1 =
      (b.build f j).1.map fun draft => b.renderAt draft f source snippet := rfl

/-- The text of a declaration of some kind: a comment around what its lines show. -/
theorem buildText_of_kind {kind : DeclarationKind} (hkind : b.kindOf f = .ok kind)
    (source : String) (j : Journal σ) :
    ∃ draft text bodies, (b.build f j).1 = .ok draft ∧
      (b.buildText f source false j).1 = .ok text ∧ RegularLines draft.lines ∧
      Written draft.lines bodies ∧
      text.toList = '/' :: '*' :: '*' ::
        (inside (indentationAt source f.insertionOffset).toList
            (b.settings.flag .singleLineComments && bodies.length ≤ 1) bodies ++
          ' ' :: '*' :: '/' :: '\n' :: (indentationAt source f.insertionOffset).toList) := by
  obtain ⟨draft, hbuild, hclosed, hregular⟩ := b.build_of_kind f hkind j
  have hfinish : draft.finish = draft := by rw [Draft.finish, if_pos hclosed]
  obtain ⟨bodies, hwritten, htext⟩ := draft.render_plain
    (b.style (indentationAt source f.insertionOffset) false) rfl
    (fun line hline => (hregular line (hfinish ▸ hline)).delimiters)
  rw [hfinish] at hwritten
  exact ⟨draft, _, bodies, hbuild, by rw [buildText_apply, hbuild]; rfl, hregular, hwritten, htext⟩

/-- A builder without settings of the user and without descriptions. -/
def undescribed : Builder Unit := ⟨{}, .blank "", { year := 2024, month := 1, day := 1 }⟩

/-- A function with one parameter. -/
def withParameter (initializer : String) : Focus :=
  .root (.mk { kind := "FunctionDeclaration", fullStart := 0, start := 0, stop := 1, text := "" }
    [.mk { kind := "Parameter", fullStart := 0, start := 0, stop := 1, text := "",
           name := some "files", initializer := some initializer } []])

end Builder

/-- Headers are indented by spaces and tabs. -/
theorem mem_indentationAt {text : String} {offset : Int} {c : Char}
    (h : c ∈ (indentationAt text offset).toList) : c = ' ' ∨ c = '\t' := by
  simp only [indentationAt, String.toList_ofList, Text.leadingIndent] at h
  simpa using List.all_eq_true.mp List.all_takeWhile c h

end DocHeader

import DocHeader.Proofs.Header.Lifecycle
import DocHeader.Proofs.Snippet.Dollars

/-!
# The regions of a header without descriptions

A source that leaves every description open has a region in mind for each of them: the first for
the declaration, then one for each line of a type parameter, a parameter, an element of one, and
the return value. The placeholder of the author and the tags of the user are regions as well. In a
header all of them are numbered in this order, but for those on lines that show nothing: closing
takes such lines away at both ends, before it is known whether they are written as a snippet. So
an empty description has no region, although the snippet of its line would show one.

## Main definitions

* `RegionOrder.expected` — the regions of a header in their order, read off the declaration.
* `RegionOrder.kept` — the tags of the user whose lines are left after closing.
* `Offers` — lines with their regions, none of them on a line that shows nothing.
-/

namespace DocHeader

/-! ## The expected regions -/

namespace RegionOrder

/-- The texts of the lines that an open description takes. It is empty, but for constructors,
which the settings may have a text for. -/
def description (c : String) (f : Focus) (kind : DeclarationKind) : List String :=
  (descriptionLines (.region ((constructorText? c f kind).getD ""))).map Phrase.shown

/-- The region for the author, when the author is the placeholder. -/
def author (s : Settings) : List String :=
  if s.text .author = authorPlaceholder then [authorPlaceholder] else []

/-- The tags of the lines that end in a description: those of type parameters, parameters with
their elements, and the return value. -/
def describedTags (s : Settings) (f : Focus) (kind : DeclarationKind) : List String :=
  List.replicate (TagOrder.templates f kind).length "template" ++
    (TagOrder.parameters f kind).flatMap TagOrder.parameterTags ++ TagOrder.returns s f kind

/-- The regions after those for description and author, with tags of the user. -/
def own (s : Settings) (f : Focus) (kind : DeclarationKind) (tags : List CustomTag) :
    List String :=
  if f.node.hasModifier "override" then []
  else ((describedTags s f kind).map fun _ => "") ++ tags.map CustomTag.placeholder

/-- The regions of a header in their order, with those of the description and tags of the user. -/
def expected (s : Settings) (f : Focus) (kind : DeclarationKind) (descriptions : List String)
    (tags : List CustomTag) : List String :=
  descriptions ++ author s ++ own s f kind tags

/-- Whether the line of a tag of the user shows nothing. -/
def showsNothing (t : CustomTag) : Bool := t.tag.isEmpty && t.placeholder.isEmpty

/-- The tags of the user whose lines are left after closing, behind other lines that are left. -/
def kept (others : List TagLine) (tags : List CustomTag) : List CustomTag :=
  if others.isEmpty then dropEnds showsNothing tags else tags.rdropWhile showsNothing

end RegionOrder

/-! ## Lines and what they offer -/

/-- Lines with their regions, none of them on a line that shows nothing. -/
structure Offers (lines : List TagLine) (texts : List String) : Prop where
  regions : lines.flatMap TagLine.regions = texts
  shown : ∀ line ∈ lines, line.isBlank = true → line.regions = []

/-- A line with a tag and an open description. -/
structure TagLine.IsOpen (line : TagLine) : Prop where
  tag : line.tag?.isSome = true
  regions : line.regions = [""]

/-- Lines with tags and open descriptions. -/
def OpenLines (lines : List TagLine) : Prop := ∀ line ∈ lines, line.IsOpen

namespace Offers

variable {lines lines' : List TagLine} {texts texts' : List String}

theorem nil : Offers [] [] := ⟨rfl, List.forall_mem_nil _⟩

theorem append (h : Offers lines texts) (h' : Offers lines' texts') :
    Offers (lines ++ lines') (texts ++ texts') :=
  ⟨by rw [List.flatMap_append, h.regions, h'.regions],
    List.forall_mem_append.mpr ⟨h.shown, h'.shown⟩⟩

theorem silent (h : ∀ line ∈ lines, line.regions = []) : Offers lines [] :=
  ⟨List.flatMap_eq_nil_iff.mpr h, fun line hline _ => h line hline⟩

/-- Lines that end in open descriptions offer one region for each tag. -/
theorem of_open (h : OpenLines lines) : Offers lines ((tagsOf lines).map fun _ => "") := by
  refine ⟨?_, fun line hline hblank => ?_⟩
  · induction lines with
    | nil => rfl
    | cons line rest ih =>
      obtain ⟨hline, hrest⟩ := List.forall_mem_cons.mp h
      obtain ⟨tag, htag⟩ := Option.isSome_iff_exists.mp hline.tag
      rw [List.flatMap_cons, hline.regions, ih hrest, tagsOf_cons, htag]
      rfl
  · obtain ⟨tag, htag⟩ := Option.isSome_iff_exists.mp (h line hline).tag
    simp [TagLine.isBlank, htag] at hblank

/-- Lines that show nothing make no difference. -/
theorem filter (h : Offers lines texts) :
    (lines.filter fun line => !line.isBlank).flatMap TagLine.regions = texts := by
  obtain ⟨rfl, hshown⟩ := h
  induction lines with
  | nil => rfl
  | cons line rest ih =>
    obtain ⟨hline, hrest⟩ := List.forall_mem_cons.mp hshown
    cases hblank : line.isBlank with
    | false =>
      rw [List.filter_cons_of_pos (by simp [hblank]), List.flatMap_cons, ih hrest]
      rfl
    | true =>
      rw [List.filter_cons_of_neg (by simp [hblank]), ih hrest, List.flatMap_cons, hline hblank]
      rfl

end Offers

theorem Logged.Yields.offers {σ : Type} {work : Logged σ (List TagLine)} {tags : List String}
    (htags : work.Yields fun lines => tagsOf lines = tags) (hopen : work.Yields OpenLines) :
    work.Yields fun lines => Offers lines (tags.map fun _ => "") :=
  fun j => htags j ▸ .of_open (hopen j)

section Groups

variable (s : Settings) (f : Focus)

theorem regions_ofTag (tag : String) : (TagLine.ofTag tag).regions = [] := rfl

theorem offers_authorLines : Offers (authorLines s) (RegionOrder.author s) := by
  unfold RegionOrder.author authorLines
  by_cases hauthor : s.text .author = authorPlaceholder
  · rw [if_pos hauthor, hauthor]
    exact ⟨rfl, by decide⟩
  · rw [if_neg hauthor]
    refine .silent fun line hline => ?_
    by_cases hempty : s.text .author = ""
    · simp [hempty] at hline
    · obtain rfl := by simpa [hempty, hauthor] using hline
      rfl

theorem offers_dateLines (today : CivilTime) : Offers (dateLines s today) [] := by
  refine .silent fun line hline => ?_
  unfold dateLines at hline
  by_cases hempty : s.text .dateFormat = ""
  · simp [hempty] at hline
  · obtain rfl := by simpa [hempty] using hline
    rfl

theorem offers_separatorLines : Offers (separatorLines s) [] := by
  unfold separatorLines
  split
  next => exact .silent (List.forall_mem_singleton.mpr rfl)
  next => exact .nil

theorem offers_modifierLines : Offers (modifierLines s f) [] :=
  .silent (List.forall_mem_map.mpr fun tag _ => regions_ofTag tag)

theorem offers_classLines : Offers (classLines f) [] := by
  refine .silent (List.forall_mem_cons.mpr ⟨regions_ofTag _, ?_⟩)
  cases given? f.info.name <;> simp [TagLine.regions, TagLine.valueRegions, Phrase.region?]

theorem offers_aliasLines : Offers (aliasLines f) [] :=
  .silent (List.forall_mem_singleton.mpr rfl)

theorem offers_enumLines : Offers (enumLines s f) [] := by
  refine .silent (List.forall_mem_singleton.mpr ?_)
  cases s.flag .includeTypes <;> rfl

theorem offers_typeLines : Offers (typeLines s f) [] := by
  unfold typeLines typeValue
  cases hflag : s.flag .includeTypes with
  | false => exact .nil
  | true =>
    split
    next => exact .nil
    next => exact .silent (List.forall_mem_singleton.mpr rfl)

theorem offers_heritageLines : Offers (heritageLines f) [] := by
  refine .silent fun line hline => ?_
  obtain ⟨clause, -, hline⟩ := List.mem_flatMap.mp hline
  obtain ⟨reference, -, rfl⟩ := List.mem_map.mp hline
  rfl

/-- Only the description is a region of a line with a plain value and a plain name. -/
theorem TagLine.isOpen_of_plain {tag : String} {value name : Option Phrase} (htag : tag ≠ "")
    (hvalue : value.bind Phrase.region? = none) (hname : name.bind Phrase.region? = none) :
    ({ tag := some tag, value, name, description := some emptyRegion } : TagLine).IsOpen where
  tag := by rw [TagLine.tag?_of_ne rfl htag]; rfl
  regions := by simp [regions, valueRegions, hvalue, hname, emptyRegion, Phrase.region?]

theorem region?_typeValue : (typeValue s f).bind Phrase.region? = none := by
  unfold typeValue
  split <;> rfl

theorem isOpen_templateLine (t : Focus) (name : String) :
    (templateLine s t name emptyRegion).IsOpen := by
  refine TagLine.isOpen_of_plain (by decide) ?_ rfl
  cases s.flag .includeTypes with
  | false => rfl
  | true => cases t.info.constraint <;> rfl

theorem openLines_templateLines {templates : List Focus} {names : List String}
    {descriptions : List Phrase} (h : ∀ d ∈ descriptions, d = emptyRegion) :
    OpenLines (templateLines s templates names descriptions) := by
  fun_induction templateLines s templates names descriptions with
  | case1 t ts name names d ds ih =>
    obtain ⟨rfl, hds⟩ := List.forall_mem_cons.mp h
    exact List.forall_mem_cons.mpr ⟨isOpen_templateLine s t name, ih hds⟩
  | case2 => exact List.forall_mem_nil _

theorem openLines_parameterLine (p : Focus) (name : String) :
    OpenLines (parameterLine s p name emptyRegion) := by
  refine List.forall_mem_cons.mpr ⟨TagLine.isOpen_of_plain (by decide) (region?_typeValue s p) rfl,
    fun line hline => ?_⟩
  split at hline
  next =>
    obtain ⟨element, -, hline⟩ := List.mem_filterMap.mp hline
    obtain ⟨_, -, rfl⟩ := Option.map_eq_some_iff.mp hline
    exact TagLine.isOpen_of_plain (by decide) (region?_typeValue s element) rfl
  next => cases hline

theorem openLines_parameterLines {parameters : List Focus} {names : List String}
    {descriptions : List Phrase} (h : ∀ d ∈ descriptions, d = emptyRegion) :
    OpenLines (parameterLines s parameters names descriptions) := by
  fun_induction parameterLines s parameters names descriptions with
  | case1 p ps name names d ds ih =>
    obtain ⟨rfl, hds⟩ := List.forall_mem_cons.mp h
    exact List.forall_mem_append.mpr ⟨openLines_parameterLine s p name, ih hds⟩
  | case2 => exact List.forall_mem_nil _

theorem isOpen_returnLine (type : String) : (returnLine s type emptyRegion).IsOpen := by
  refine TagLine.isOpen_of_plain (by decide) ?_ rfl
  cases s.flag .includeTypes <;> rfl

end Groups

/-! ## A source that leaves descriptions open -/

/-- The line of an open description. -/
def openLine (text : String) : TagLine := .ofText (some (.region text))

theorem descriptionLines_region (text : String) :
    (descriptionLines (.region text)).map (fun line => TagLine.ofText (some line)) =
      ((descriptionLines (.region text)).map Phrase.shown).map openLine := by
  unfold descriptionLines
  split
  next => simp [Phrase.withText, Phrase.shown, openLine]
  next => rfl

theorem isBlank_openLine (text : String) : (openLine text).isBlank = text.isEmpty := rfl

theorem filter_openLines (texts : List String) :
    ((texts.map openLine).filter fun line => !line.isBlank).flatMap TagLine.regions =
      texts.filter (· ≠ "") := by
  have hshown : (fun line => !line.isBlank) ∘ openLine = fun text => decide (text ≠ "") :=
    funext fun text => by by_cases text = "" <;> simp [isBlank_openLine, *]
  rw [List.filter_map, List.flatMap_map, hshown]
  exact List.flatMap_singleton' _

namespace Builder

/-- A source that leaves all descriptions open gives a constructor its text. The text is empty when
it could not be put together. -/
theorem askDeclaration_blank {σ : Type} (c : String) (f : Focus) (kind : DeclarationKind) :
    (ask ((DescriptionSource.blank c : DescriptionSource σ).declaration f kind)
      emptyRegion).Yields fun description =>
        description = .region ((constructorText? c f kind).getD "") := by
  simp only [DescriptionSource.blank, DescriptionSource.fixed]
  cases htext : constructorText? c f kind with
  | none => exact .pure rfl
  | some own =>
    cases hmisfit : ownerMisfit? f with
    | none =>
      simp only [introduction, hmisfit]
      exact .pure rfl
    | some name =>
      have hempty : own = "" := by
        unfold constructorText? at htext
        split at htext
        · cases htext
        · split at htext
          · cases htext
          · simpa [hmisfit] using htext.symm
      simp only [introduction, hmisfit, hempty]
      exact fun _ => rfl

section Blank

variable {σ : Type} (b : Builder σ) (f signature : Focus) (kind : DeclarationKind) {c : String}
  (hblank : b.source = .blank c)

include hblank

/-- Every name gets an open description. -/
theorem askNames_blank (generics : Bool) (names : List String) :
    (b.askNames f kind generics names).Yields fun given => ∀ d ∈ given, d = emptyRegion := by
  intro j d hd
  simp only [askNames, hblank, DescriptionSource.blank, DescriptionSource.fixed, ask,
    Logged.bind_apply, Logged.pure_apply, fitDescriptions] at hd
  rcases List.mem_append.mp hd with hd | hd
  · obtain ⟨_, -, rfl⟩ := List.mem_map.mp (List.mem_of_mem_take hd)
    rfl
  · exact List.eq_of_mem_replicate hd

theorem askTemplates_open : (b.askTemplates f signature kind).Yields OpenLines := by
  simp only [askTemplates]
  split
  next => exact .pure (List.forall_mem_nil _)
  next =>
    exact .bind (b.askNames_blank f kind hblank true _) fun descriptions hopen =>
      .pure (openLines_templateLines b.settings hopen)

theorem askParameters_open : (b.askParameters f signature kind).Yields OpenLines := by
  simp only [askParameters]
  split
  next => exact .pure (List.forall_mem_nil _)
  next =>
    exact .bind (b.askNames_blank f kind hblank false _) fun descriptions hopen =>
      .pure (openLines_parameterLines b.settings hopen)

theorem askReturn_open : (b.askReturn f signature).Yields OpenLines := by
  have hreturns : (ask (b.source.returns f) emptyRegion).Yields fun d => d = emptyRegion := by
    rw [hblank]
    exact .pure rfl
  simp only [askReturn]
  split
  next => exact .pure (List.forall_mem_nil _)
  next =>
    split
    next => exact .pure (List.forall_mem_nil _)
    next type _ =>
      refine .bind hreturns fun d hd => .pure ?_
      rw [hd]
      exact List.forall_mem_singleton.mpr (isOpen_returnLine b.settings type)

/-- The lines of a kind offer a region for each line with a description. -/
theorem kindLines_offers : (b.kindLines f kind).Yields fun lines => Offers lines
      ((RegionOrder.describedTags b.settings f kind).map fun _ => "") := by
  match kind with
  | .classLike =>
    refine .bind (.offers (b.askTemplates_tags f f _) (b.askTemplates_open f f _ hblank))
      fun templates htemplates => .pure ?_
    simpa [RegionOrder.describedTags, TagOrder.templates, TagOrder.parameters, TagOrder.returns]
      using ((offers_classLines f).append (offers_heritageLines f)).append htemplates
  | .typeAlias =>
    refine .bind (.offers (b.askTemplates_tags f f _) (b.askTemplates_open f f _ hblank))
      fun templates htemplates => .pure ?_
    simpa [RegionOrder.describedTags, TagOrder.templates, TagOrder.parameters, TagOrder.returns]
      using (offers_aliasLines f).append htemplates
  | .enumeration => exact .pure (offers_enumLines b.settings f)
  | .property | .accessor | .variable => exact .pure (offers_typeLines b.settings f)
  | .method =>
    refine .bind (.offers (b.askTemplates_tags f _ _) (b.askTemplates_open f _ _ hblank))
      fun templates htemplates => ?_
    refine .bind (.offers (b.askParameters_tags f _ _) (b.askParameters_open f _ _ hblank))
      fun parameters hparameters => ?_
    refine .bind (.offers (b.askReturn_tags f) (b.askReturn_open f _ hblank))
      fun returns hreturns => .pure ?_
    have hgenerator : Offers (if (signatureOf f).info.generator then [TagLine.ofTag "generator"]
        else []) [] := by
      split
      next => exact .silent (List.forall_mem_singleton.mpr rfl)
      next => exact .nil
    rw [RegionOrder.describedTags, List.map_append, List.map_append]
    exact ((hgenerator.append htemplates).append hparameters).append hreturns
  | .constructor =>
    refine .bind (.offers (b.askParameters_tags f f _) (b.askParameters_open f f _ hblank))
      fun parameters hparameters => .pure ?_
    have htag : Offers [TagLine.ofTag "constructor"] [] :=
      .silent (List.forall_mem_singleton.mpr rfl)
    simpa [RegionOrder.describedTags, TagOrder.templates, TagOrder.parameters, TagOrder.returns]
      using htag.append hparameters
  | .file => exact .pure (.silent (List.forall_mem_singleton.mpr rfl))

/-- The lines of a declaration that describes itself: those of its description, and others that
offer their regions. Tags of the user are left out here. -/
theorem ownLines_offers (hnone : b.settings.customTags = []) :
    (b.ownLines f kind).Yields fun lines => ∃ rest,
      lines = (RegionOrder.description c f kind).map openLine ++ rest ∧
      Offers rest (RegionOrder.author b.settings ++ RegionOrder.own b.settings f kind []) := by
  have hdescription : (ask (b.source.declaration f kind) emptyRegion).Yields fun description =>
      description = .region ((constructorText? c f kind).getD "") := by
    rw [hblank]
    exact askDeclaration_blank c f kind
  refine .bind hdescription fun description hd => ?_
  have hopening : openingLines b.settings b.today description =
      (RegionOrder.description c f kind).map openLine ++ (authorLines b.settings ++
        dateLines b.settings b.today ++ separatorLines b.settings) := by
    rw [openingLines, hd, descriptionLines_region, RegionOrder.description]
    simp only [List.append_assoc]
  have hbegin : Offers (authorLines b.settings ++ dateLines b.settings b.today ++
      separatorLines b.settings) (RegionOrder.author b.settings) := by
    have hauthor := offers_authorLines b.settings
    have hdate := hauthor.append (offers_dateLines b.settings b.today)
    simpa using hdate.append (offers_separatorLines b.settings)
  unfold RegionOrder.own
  split
  next =>
    refine .pure ⟨_, by rw [hopening, List.append_assoc], hbegin.append (.silent ?_)⟩
    simp [regions_ofTag]
  next =>
    refine .bind (b.kindLines_offers f kind hblank) fun lines hlines => .pure ?_
    have hown := (offers_modifierLines b.settings f).append hlines
    rw [List.nil_append] at hown
    refine ⟨_, ?_, hbegin.append (by rwa [List.map_nil, List.append_nil])⟩
    rw [customTagLines, hnone, applicableTags, List.map_nil, List.append_nil, hopening]
    simp only [List.append_assoc]

/-- So have all lines of a declaration without a documented opposite. -/
theorem lines_offers (hnone : b.settings.customTags = [])
    (hopposite : ¬(kind = .accessor ∧ TagOrder.oppositeDocumented f = true)) :
    (b.lines f kind).Yields fun lines => ∃ rest,
      lines = (RegionOrder.description c f kind).map openLine ++ rest ∧
      Offers rest (RegionOrder.author b.settings ++ RegionOrder.own b.settings f kind []) := by
  unfold Builder.lines
  rw [reused_eq_none f kind hopposite]
  exact b.ownLines_offers f kind hblank hnone

end Blank

end Builder

/-! ## Closing -/

theorem trimmed_ne_empty {text : String} (h : hasContent text = true) : trimmed text ≠ "" := by
  intro hnone
  have htrim : Text.trim text.toList = [] := by simpa [trimmed] using hnone
  have hblank := List.dropWhile_eq_nil_iff.mp (dropEnds_eq_nil_iff.mp htrim)
  obtain ⟨c, hc, hshown⟩ := List.any_eq_true.mp h
  simp [hblank c hc] at hshown

/-- An open description is empty, or none of its lines is. -/
theorem RegionOrder.description_cases (c : String) (f : Focus) (kind : DeclarationKind) :
    description c f kind = [""] ∨ "" ∉ description c f kind := by
  set text := (constructorText? c f kind).getD "" with htext
  rw [description, ← htext]
  unfold descriptionLines
  split
  next =>
    refine .inr fun hmem => ?_
    obtain ⟨p, hp, hnone⟩ := List.mem_map.mp hmem
    obtain ⟨line, hline, rfl⟩ := List.mem_map.mp hp
    exact trimmed_ne_empty (List.mem_filter.mp hline).2 hnone
  next =>
    by_cases hempty : text = ""
    · exact .inl (by simp [hempty, Phrase.shown])
    · exact .inr (by simpa [Phrase.shown] using Ne.symm hempty)

/-- Closing a draft takes lines that show nothing from both ends of its lines. -/
theorem exists_dropOuterBlank_eq (lines last : List TagLine) : ∃ first,
    dropOuterBlank (lines ++ last) = first ++ (if (dropOuterBlank lines).isEmpty then
      dropOuterBlank last else last.rdropWhile TagLine.isBlank) ∧
    first.Sublist (lines.dropWhile TagLine.isBlank) ∧
    first.filter (fun line => !line.isBlank) = lines.filter fun line => !line.isBlank := by
  have hkept : ∀ line : TagLine, line.isBlank = true → (!line.isBlank) = false :=
    fun line hline => by rw [hline]; rfl
  simp only [dropOuterBlank_eq, List.isEmpty_iff, dropEnds_eq_nil_iff]
  by_cases hlines : lines.dropWhile TagLine.isBlank = []
  · refine ⟨[], ?_, List.nil_sublist _, ?_⟩
    · rw [if_pos hlines, dropEnds, List.dropWhile_append, hlines]
      rfl
    · rw [← filter_dropWhile hkept lines, hlines]
  · have hfirst : (lines.dropWhile TagLine.isBlank).isEmpty = false := by simpa using hlines
    rw [if_neg hlines, dropEnds, List.dropWhile_append, hfirst, if_neg Bool.false_ne_true,
      rdropWhile_append]
    split
    next hlast =>
      refine ⟨dropOuterBlank lines, ?_, (List.rdropWhile_prefix _ _).sublist,
        filter_dropOuterBlank hkept lines⟩
      rw [List.isEmpty_iff.mp hlast, List.append_nil]
      rfl
    next => exact ⟨_, rfl, .refl _, filter_dropWhile hkept lines⟩

namespace RegionOrder

variable {others : List TagLine} {tags : List CustomTag}

theorem isBlank_customTagLine (t : CustomTag) : (customTagLine t).isBlank = showsNothing t := by
  have hempty : "".isEmpty = true := rfl
  by_cases htag : t.tag = "" <;> simp [TagLine.isBlank, TagLine.tag?, customTagLine, showsNothing,
    shownText, Phrase.shown, htag, hempty]

/-- The lines of the tags of the user that are left after closing. -/
theorem map_kept (others : List TagLine) (tags : List CustomTag) :
    (kept others tags).map customTagLine = if others.isEmpty then
      dropOuterBlank (tags.map customTagLine) else
        (tags.map customTagLine).rdropWhile TagLine.isBlank := by
  have hblank : TagLine.isBlank ∘ customTagLine = showsNothing := funext isBlank_customTagLine
  have hend (tags : List CustomTag) : (tags.map customTagLine).rdropWhile TagLine.isBlank =
      (tags.rdropWhile showsNothing).map customTagLine := by
    rw [List.rdropWhile, ← List.map_reverse, List.dropWhile_map, hblank, ← List.map_reverse,
      List.rdropWhile]
  unfold kept
  split
  next => rw [dropOuterBlank_eq, dropEnds, dropEnds, List.dropWhile_map, hblank, hend]
  next => rw [hend]

theorem kept_sublist (others : List TagLine) (tags : List CustomTag) :
    (kept others tags).Sublist tags := by
  unfold kept
  split
  next => exact dropEnds_sublist _ _
  next => exact (List.rdropWhile_prefix _ _).sublist

/-- No tag with a placeholder is dropped. -/
theorem filter_kept (others : List TagLine) (tags : List CustomTag) :
    (kept others tags).filter (fun t => !t.placeholder == "") =
      tags.filter fun t => !t.placeholder == "" := by
  have hshown (t : CustomTag) (h : showsNothing t = true) : (!t.placeholder == "") = false := by
    simp only [showsNothing, Bool.and_eq_true, String.isEmpty_iff] at h
    simp [h.2]
  unfold kept
  split
  next => exact filter_dropEnds hshown tags
  next => exact filter_rdropWhile hshown tags

/-- Each tag that is dropped takes an empty region with it. -/
theorem kept_eq_of_count_le (h : (tags.map CustomTag.placeholder).count "" ≤
    ((kept others tags).map CustomTag.placeholder).count "") : kept others tags = tags := by
  have hlength (tags : List CustomTag) : tags.length =
      (tags.map CustomTag.placeholder).count "" +
        (tags.filter fun t => !t.placeholder == "").length := by
    rw [List.count, List.countP_map, List.countP_eq_length_filter]
    exact List.length_eq_length_filter_add _
  refine (kept_sublist others tags).eq_of_length_le ?_
  rw [hlength, hlength (kept others tags), filter_kept]
  omega

variable {s : Settings} {f : Focus} {kind : DeclarationKind}

theorem own_kept (others : List TagLine) (tags : List CustomTag) :
    own s f kind [] ++ (kept others (if f.node.hasModifier "override" then [] else tags)).map
      CustomTag.placeholder = own s f kind (kept others tags) := by
  unfold own
  split
  next =>
    have hnone : kept others [] = [] := List.sublist_nil.mp (kept_sublist others [])
    rw [hnone]
    rfl
  next => simp

/-- All regions that are expected are there when the description is one region, and no line of the
user is dropped. -/
theorem expected_kept_iff {descriptions : List String} (hshown : "" ∉ descriptions) :
    (∃ text, expected s f kind descriptions (kept others tags) = expected s f kind [text] tags) ↔
      (∃ text, descriptions = [text]) ∧
        (f.node.hasModifier "override" = true ∨ kept others tags = tags) := by
  constructor
  · rintro ⟨text, hsame⟩
    have hown : own s f kind (kept others tags) = own s f kind tags ∧
        (f.node.hasModifier "override" = true ∨ kept others tags = tags) := by
      by_cases hoverride : f.node.hasModifier "override" = true
      · exact ⟨by rw [own, own, if_pos hoverride, if_pos hoverride], .inl hoverride⟩
      -- what closing drops are empty regions, so there are fewer of these than expected
      · have hcount := congrArg (List.count "") hsame
        simp only [expected, own, if_neg hoverride, List.count_append,
          List.count_eq_zero.mpr hshown] at hcount
        have hkept : kept others tags = tags := kept_eq_of_count_le (by omega)
        exact ⟨by rw [hkept], .inr hkept⟩
    rw [expected, expected, hown.1] at hsame
    exact ⟨⟨text, List.append_cancel_right (List.append_cancel_right hsame)⟩, hown.2⟩
  · rintro ⟨⟨text, rfl⟩, hoverride | hkept⟩
    · exact ⟨text, by rw [expected, expected, own, own, if_pos hoverride, if_pos hoverride]⟩
    · exact ⟨text, by rw [hkept]⟩

end RegionOrder

/-- The regions of a closed header: those of the description with text, those that other lines
offer, and those of the tags of the user whose lines are left. -/
theorem regions_closed {texts : List String} (htexts : texts = [""] ∨ "" ∉ texts)
    {rest : List TagLine} {offered : List String} (hrest : Offers rest offered)
    (tags : List CustomTag) :
    (dropOuterBlank (texts.map openLine ++ rest ++ tags.map customTagLine)).flatMap
        TagLine.regions =
      texts.filter (· ≠ "") ++ offered ++
        (RegionOrder.kept (dropOuterBlank (texts.map openLine ++ rest)) tags).map
          CustomTag.placeholder := by
  obtain ⟨first, hclosed, hsub, hfilter⟩ :=
    exists_dropOuterBlank_eq (texts.map openLine ++ rest) (tags.map customTagLine)
  -- an empty description comes first, so it is not among the lines that are left
  have hfirst : Offers first (first.flatMap TagLine.regions) := by
    refine ⟨rfl, fun line hline hblank => ?_⟩
    have hmem := hsub.mem hline
    rcases htexts with rfl | hshown
    · have hempty : (openLine "").isBlank = true := rfl
      rw [List.map_singleton, List.singleton_append, List.dropWhile_cons_of_pos hempty] at hmem
      exact hrest.shown line ((List.dropWhile_sublist _).mem hmem) hblank
    · rcases List.mem_append.mp ((List.dropWhile_sublist _).mem hmem) with hmem | hmem
      · obtain ⟨text, htext, rfl⟩ := List.mem_map.mp hmem
        rw [isBlank_openLine, String.isEmpty_iff] at hblank
        exact absurd (hblank ▸ htext) hshown
      · exact hrest.shown line hmem hblank
  have hkept : ((RegionOrder.kept (dropOuterBlank (texts.map openLine ++ rest)) tags).map
      customTagLine).flatMap TagLine.regions =
        (RegionOrder.kept (dropOuterBlank (texts.map openLine ++ rest)) tags).map
          CustomTag.placeholder := by
    rw [List.flatMap_map]
    exact List.map_eq_flatMap.symm
  rw [hclosed, ← RegionOrder.map_kept, List.flatMap_append, hkept, ← hfirst.filter, hfilter,
    List.filter_append, List.flatMap_append, hrest.filter, filter_openLines]

/-! ## Headers -/

namespace Builder

variable {σ : Type} (b : Builder σ) (f : Focus)

/-- The lines of a declaration are those without tags of the user, and then the tags. -/
theorem lines_eq_append_own (j : Journal σ) {kind : DeclarationKind}
    (hopposite : ¬(kind = .accessor ∧ TagOrder.oppositeDocumented f = true)) :
    (b.lines f kind j).1 = ((b.withUserTags []).lines f kind j).1 ++
      (if f.node.hasModifier "override" then [] else
        UserTags.shown kind b.settings.customTags).map customTagLine := by
  split
  next hoverride =>
    rw [b.lines_withUserTags f kind [] (.inl hoverride), List.map_nil, List.append_nil]
  next hoverride => exact b.lines_eq_append f kind (not_or.mpr ⟨hoverride, hopposite⟩) j

/-- **The regions of a header without descriptions.** For every declaration that is documented and
whose opposite has no header, and whatever the settings say, a snippet is built when the source
leaves descriptions open. It has a numbered stop for each line of the description that is not
empty, for the placeholder of the author, for each type parameter, parameter, named element and
return value, and for each tag of the user whose line is left after closing, in this order, and no
other dollar sign with a meaning but those in tags. So there is one region for the description,
and one for each of the others, just when the description is one line with some text, and closing
drops no line of the user. -/
theorem buildText_regions (source : String) (j : Journal σ) {kind : DeclarationKind} {c : String}
    (hkind : b.kindOf f = .ok kind) (hblank : b.source = .blank c)
    (hopposite : ¬(kind = .accessor ∧ TagOrder.oppositeDocumented f = true)) :
    ∃ plain draft text, ((b.withUserTags []).build f j).1 = .ok plain ∧
      (b.build f j).1 = .ok draft ∧ (b.buildText f source true j).1 = .ok text ∧
      Begins 1 text.toList (draft.lines.flatMap TagLine.regions) (strayDollars draft.tags) ∧
      draft.lines.flatMap TagLine.regions = RegionOrder.expected b.settings f kind
        ((RegionOrder.description c f kind).filter (· ≠ ""))
        (RegionOrder.kept plain.lines (UserTags.shown kind b.settings.customTags)) ∧
      ((∃ text, draft.lines.flatMap TagLine.regions = RegionOrder.expected b.settings f kind
          [text] (UserTags.shown kind b.settings.customTags)) ↔
        (∃ text, text ≠ "" ∧ RegionOrder.description c f kind = [text]) ∧
          (f.node.hasModifier "override" = true ∨
            RegionOrder.kept plain.lines (UserTags.shown kind b.settings.customTags) =
              UserTags.shown kind b.settings.customTags)) := by
  have hkind' : (b.withUserTags []).kindOf f = .ok kind := hkind
  obtain ⟨draft, text, hbuild, htext, hlines, -, hbegins⟩ := b.buildText_begins f source j hkind
  obtain ⟨rest, hplain, hrest⟩ :=
    (b.withUserTags []).lines_offers f kind hblank rfl hopposite j
  have hcases := RegionOrder.description_cases c f kind
  set descriptions := RegionOrder.description c f kind
  set shown := UserTags.shown kind b.settings.customTags
  set plain := ({ kind, lines := ((b.withUserTags []).lines f kind j).1 } : Draft).close
  have hothers : plain.lines = dropOuterBlank (descriptions.map openLine ++ rest) := by
    rw [← hplain]
    rfl
  have hregions : draft.lines.flatMap TagLine.regions = RegionOrder.expected b.settings f kind
      (descriptions.filter (· ≠ "")) (RegionOrder.kept plain.lines shown) := by
    rw [hlines, b.lines_eq_append_own f j hopposite, hplain, regions_closed hcases hrest,
      ← hothers, RegionOrder.expected, ← RegionOrder.own_kept]
    simp only [List.append_assoc]
    rfl
  refine ⟨plain, draft, text, (b.withUserTags []).build_eq_close f hkind' j, hbuild, htext, hbegins,
    hregions, ?_⟩
  rw [hregions, RegionOrder.expected_kept_iff (by simp)]
  refine and_congr_left fun _ => ?_
  rcases hcases with hempty | hshown
  · simp [hempty]
  · have hall : descriptions.filter (· ≠ "") = descriptions :=
      List.filter_eq_self.mpr fun text htext => decide_eq_true fun hempty => hshown (hempty ▸ htext)
    rw [hall]
    refine exists_congr fun text => (and_iff_right_of_imp fun hline => ?_).symm
    rintro rfl
    simp [hline] at hshown

/-- A class with a name, and a constructor that takes a point apart. -/
def namedClass : Node :=
  let part (kind : String) (name : Option String) (children : List Node) : Node :=
    .mk { kind, fullStart := 0, start := 0, stop := 1, text := "", name } children
  part "ClassDeclaration" (some "Line") [part "Constructor" none [part "Parameter" none
    [part "ObjectBindingPattern" none [part "BindingElement" (some "x") []]]]]

/-- Its constructor. -/
def namedConstructor : Focus := ((Focus.root namedClass).descend? [0]).getD default

/-- A builder with a text for constructors, the placeholder of the author and a tag of the user. -/
def introducing : Builder Unit where
  settings :=
    { text := fun t => if t = .author then authorPlaceholder else ""
      customTags := [{ tag := "since", placeholder := "1.0" }] }
  source := .blank "Creates a \x7bObject\x7d."
  today := { year := 2024, month := 1, day := 1 }

/-- The snippet of the constructor has all five regions. -/
theorem buildText_regions_of_constructor :
    introducing.kindOf namedConstructor = .ok .constructor ∧
    introducing.source = .blank "Creates a \x7bObject\x7d." ∧
    ¬(DeclarationKind.constructor = .accessor ∧
      TagOrder.oppositeDocumented namedConstructor = true) ∧
    ∃ text, (introducing.buildText namedConstructor "" true ⟨(), []⟩).1 = .ok text ∧
      Snippet.HasStops 1 ["Creates a Line.", "author", "", "", "1.0"] text.toList := by
  have hkind : introducing.kindOf namedConstructor = .ok .constructor := by decide +kernel
  have hopposite : ¬(DeclarationKind.constructor = .accessor ∧
      TagOrder.oppositeDocumented namedConstructor = true) := fun h => by cases h.1
  obtain ⟨plain, draft, text, -, -, htext, hbegins, hregions, -⟩ :=
    introducing.buildText_regions namedConstructor "" ⟨(), []⟩ hkind rfl hopposite
  have hkept : RegionOrder.kept plain.lines
      (UserTags.shown .constructor introducing.settings.customTags) =
        [{ tag := "since", placeholder := "1.0" }] := by
    unfold RegionOrder.kept
    split <;> decide +kernel
  have hfive : draft.lines.flatMap TagLine.regions =
      ["Creates a Line.", "author", "", "", "1.0"] := by
    rw [hregions, hkept]
    decide +kernel
  exact ⟨hkind, rfl, hopposite, text, htext, hfive ▸ hbegins.stops⟩

/-- A function with a parameter and a return value has no region for its description: whatever
text it were to have, there are not as many stops. -/
theorem buildText_drops_description :
    undescribed.kindOf (withParameter "1") = .ok .method ∧
    ∃ text, (undescribed.buildText (withParameter "1") "" true ⟨(), []⟩).1 = .ok text ∧
      ∀ description, ¬Snippet.HasStops 1
        (RegionOrder.expected undescribed.settings (withParameter "1") .method [description]
          (UserTags.shown .method undescribed.settings.customTags)) text.toList := by
  refine ⟨by decide +kernel, _, rfl, ?_⟩
  rintro description ⟨rests, hsub, hopens⟩
  have hstops := hsub.length_le
  rw [← hopens.length_eq, List.length_zipIdx, RegionOrder.expected, List.length_append,
    List.length_append, List.length_singleton] at hstops
  revert hstops
  decide +kernel

end Builder

end DocHeader

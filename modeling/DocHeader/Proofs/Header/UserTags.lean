import DocHeader.Proofs.Header.Asked

/-!
# The tags of the user

The settings list tags of the user, perhaps several entries for one tag, and perhaps some for
a few kinds only. Of the entries for one tag a header shows the first that applies to its kind;
an entry that does not apply never stands in the way of a later one. The lines of these entries
are the last of the header, in the order of the settings. A header that only points to another
description has none of them.

## Main definitions

* `UserTags.shown` — the entries that a header of some kind shows.
* `UserTags.Closes` — what a header owes to the tags of the user.
* `Builder.withUserTags` — a builder with other tags of the user.
* `Builder.PointsElsewhere` — declarations whose header only points to another description.
-/

namespace DocHeader

/-! ## The entries that are shown -/

namespace UserTags

variable (kind : DeclarationKind)

/-- An entry that applies to a kind. -/
def isFor (tag : String) (t : CustomTag) : Bool := t.tag == tag && t.appliesTo kind

/-- An entry applies, and none before it is for its tag. -/
def isFirst (before : List CustomTag) (t : CustomTag) : Bool :=
  t.appliesTo kind && !before.any (isFor kind t.tag)

/-- The entries from a place on that are the first for their tag. -/
def shownAfter (before rest : List CustomTag) : List CustomTag :=
  ((rest.zipIdx before.length).filter fun entry =>
    isFirst kind ((before ++ rest).take entry.2) entry.1).map Prod.fst

/-- The entries that a header shows, in the order of the settings: each that is the first for
its tag. -/
def shown (entries : List CustomTag) : List CustomTag :=
  (entries.zipIdx.filter fun entry => isFirst kind (entries.take entry.2) entry.1).map Prod.fst

variable {kind}

theorem isFor_iff {tag : String} {t : CustomTag} :
    isFor kind tag t = true ↔ t.tag = tag ∧ t.appliesTo kind = true := by
  simp [isFor]

theorem isFirst_iff {before : List CustomTag} {t : CustomTag} : isFirst kind before t = true ↔
    isFor kind t.tag t = true ∧ ∀ u ∈ before, isFor kind t.tag u = false := by
  simp [isFirst, isFor]

theorem shownAfter_cons (before rest : List CustomTag) (t : CustomTag) :
    shownAfter kind before (t :: rest) =
      (if isFirst kind before t then [t] else []) ++ shownAfter kind (before ++ [t]) rest := by
  have hlength : (before ++ [t]).length = before.length + 1 := List.length_append
  rw [shownAfter, shownAfter, List.zipIdx_cons, List.filter_cons, List.take_left, hlength,
    List.append_assoc, List.singleton_append]
  split <;> rfl

/-- Going through the entries with the tags that are taken finds those that are the first. -/
theorem applicableTags_eq_shownAfter (before rest : List CustomTag) {seen : List String}
    (hseen : ∀ tag, tag ∈ seen ↔ ∃ u ∈ before, isFor kind tag u = true) :
    applicableTags kind seen rest = shownAfter kind before rest := by
  induction rest generalizing before seen with
  | nil => rfl
  | cons t rest ih =>
    have hskip : (seen.contains t.tag || !t.appliesTo kind) = !isFirst kind before t := by
      rw [Bool.eq_iff_iff]
      simp only [Bool.or_eq_true, List.contains_iff_mem, hseen, isFirst, Bool.not_eq_true',
        Bool.and_eq_false_iff, Bool.not_eq_false', List.any_eq_true]
      exact or_comm
    rw [applicableTags, shownAfter_cons, hskip]
    cases hfirst : isFirst kind before t with
    | false =>
      refine (if_pos rfl).trans ((ih (before ++ [t]) fun tag => ?_).trans (List.nil_append _).symm)
      -- an entry that does not count changes nothing: it does not apply, or its tag is taken
      rw [hseen]
      constructor
      · rintro ⟨u, hu, hfor⟩
        exact ⟨u, List.mem_append_left _ hu, hfor⟩
      · rintro ⟨u, hu, hfor⟩
        rcases List.mem_append.mp hu with hu | hu
        · exact ⟨u, hu, hfor⟩
        · obtain rfl := List.mem_singleton.mp hu
          obtain ⟨rfl, happlies⟩ := isFor_iff.mp hfor
          simpa [isFirst, happlies] using hfirst
    | true =>
      have happlies := isFor_iff.mp (isFirst_iff.mp hfirst).1
      refine (if_neg (by simp)).trans (congrArg (t :: ·) (ih (before ++ [t]) fun tag => ?_))
      simp only [List.mem_cons, hseen, List.mem_append, List.not_mem_nil, or_false]
      constructor
      · rintro (rfl | ⟨u, hu, hfor⟩)
        · exact ⟨t, .inr rfl, isFor_iff.mpr happlies⟩
        · exact ⟨u, .inl hu, hfor⟩
      · rintro ⟨u, hu | rfl, hfor⟩
        · exact .inr ⟨u, hu, hfor⟩
        · exact .inl (isFor_iff.mp hfor).1.symm

theorem applicableTags_eq_shown (entries : List CustomTag) :
    applicableTags kind [] entries = shown kind entries :=
  applicableTags_eq_shownAfter [] entries (by simp)

/-- An entry is shown just when it is the first one for its tag. -/
theorem mem_shown {entries : List CustomTag} {t : CustomTag} :
    t ∈ shown kind entries ↔ entries.find? (isFor kind t.tag) = some t := by
  rw [List.find?_eq_some_iff_append, shown]
  simp only [List.mem_map, List.mem_filter, List.mem_zipIdx_iff_getElem?, isFirst_iff,
    Bool.not_eq_true', Prod.exists]
  constructor
  · rintro ⟨_, i, ⟨hi, hfor, hbefore⟩, rfl⟩
    obtain ⟨hlt, rfl⟩ := List.getElem?_eq_some_iff.mp hi
    exact ⟨hfor, entries.take i, entries.drop (i + 1), by simp, hbefore⟩
  · rintro ⟨hfor, before, after, rfl, hbefore⟩
    exact ⟨t, before.length, ⟨by simp, hfor, by simpa using hbefore⟩, rfl⟩

/-- No tag is shown twice. -/
theorem nodup_shown (entries : List CustomTag) :
    ((shown kind entries).map CustomTag.tag).Nodup := by
  have hplaces : entries.zipIdx.Pairwise fun entry entry' => entry.2 < entry'.2 := by
    rw [← List.pairwise_map, List.zipIdx_map_snd]
    exact List.pairwise_lt_range'
  rw [shown, List.Nodup, List.map_map, List.pairwise_map, List.pairwise_filter]
  refine hplaces.imp_of_mem fun {entry entry'} hentry _ hlt hfirst hfirst' hsame => ?_
  obtain ⟨hplace, hentry⟩ :=
    List.getElem?_eq_some_iff.mp (List.mem_zipIdx_iff_getElem?.mp hentry)
  have hbefore : entry.1 ∈ entries.take entry'.2 :=
    List.mem_take_iff_getElem.mpr ⟨entry.2, Nat.lt_min.mpr ⟨hlt, hplace⟩, hentry⟩
  obtain ⟨hfor, -⟩ := isFirst_iff.mp hfirst
  have htaken := (isFirst_iff.mp hfirst').2 entry.1 hbefore
  rw [← show entry.1.tag = entry'.1.tag from hsame, hfor] at htaken
  cases htaken

/-- What a header owes to the tags of the user, where `plain` is the header without any. -/
structure Closes (kind : DeclarationKind) (entries : List CustomTag) (plain draft : Draft) :
    Prop where
  /-- The lines of the entries that are shown are the last ones. -/
  last : ∃ before, draft.lines = before ++ (shown kind entries).map customTagLine
  /-- The lines with tags in front of them are those of the plain header. -/
  others : draft.lines.filter (fun line => line.tag?.isSome) =
    plain.lines.filter (fun line => line.tag?.isSome) ++ (shown kind entries).map customTagLine
  /-- An entry gives its line its tag, and its placeholder as an editable value. -/
  own : ∀ t ∈ shown kind entries, (customTagLine t).tag? = some t.tag ∧
    (customTagLine t).value = some (.region t.placeholder)
  /-- For each tag with an entry that applies, the first of these is shown. -/
  first : ∀ tag, (∃ t ∈ entries, isFor kind tag t = true) →
    ∃ t ∈ shown kind entries, entries.find? (isFor kind tag) = some t
  /-- No entry is shown that does not apply, or that is not the first for its tag. -/
  only : ∀ t ∈ shown kind entries, entries.find? (isFor kind t.tag) = some t
  once : ((shown kind entries).map CustomTag.tag).Nodup

end UserTags

/-! ## Headers -/

/-- Closing a draft keeps the lines at its end that show something. -/
theorem exists_dropOuterBlank_append {kept : List TagLine}
    (hkept : ∀ line ∈ kept, line.isBlank = false) (lines : List TagLine) :
    ∃ before, dropOuterBlank (lines ++ kept) = before ++ kept := by
  rcases eq_or_ne kept [] with rfl | hne
  · exact ⟨dropOuterBlank (lines ++ []), (List.append_nil _).symm⟩
  · exact ⟨_, by simpa using dropOuterBlank_of_kept hne hkept lines []⟩

section Groups

variable (s : Settings) (entries : List CustomTag)

theorem templateLines_withUserTags (templates : List Focus) (names : List String)
    (descriptions : List Phrase) :
    templateLines { s with customTags := entries } templates names descriptions =
      templateLines s templates names descriptions := by
  fun_induction templateLines s templates names descriptions with
  | case1 t ts name names d ds ih => rw [templateLines, ih]; rfl
  | case2 ts names ds hnone => rw [templateLines]; exact hnone

theorem parameterLines_withUserTags (parameters : List Focus) (names : List String)
    (descriptions : List Phrase) :
    parameterLines { s with customTags := entries } parameters names descriptions =
      parameterLines s parameters names descriptions := by
  fun_induction parameterLines s parameters names descriptions with
  | case1 p ps name names d ds ih => rw [parameterLines, ih]; rfl
  | case2 ps names ds hnone => rw [parameterLines]; exact hnone

end Groups

namespace Builder

variable {σ : Type} (b : Builder σ) (f : Focus) (kind : DeclarationKind)

/-- The same builder with other tags of the user. -/
def withUserTags (entries : List CustomTag) : Builder σ :=
  { b with settings := { b.settings with customTags := entries } }

/-- A declaration whose header only points to another description: a member that overrides
another one, and an accessor whose opposite has a header. -/
def PointsElsewhere : Prop :=
  f.node.hasModifier "override" = true ∨
    kind = .accessor ∧ TagOrder.oppositeDocumented f = true

/-- The lines of a kind are there whatever the tags of the user. -/
theorem kindLines_withUserTags (entries : List CustomTag) :
    (b.withUserTags entries).kindLines f kind = b.kindLines f kind := by
  have htemplates (signature : Focus) :
      (b.withUserTags entries).askTemplates f signature kind = b.askTemplates f signature kind := by
    simp only [askTemplates, withUserTags, templateLines_withUserTags]
    rfl
  have hparameters (signature : Focus) :
      (b.withUserTags entries).askParameters f signature kind =
        b.askParameters f signature kind := by
    simp only [askParameters, withUserTags, parameterLines_withUserTags]
    rfl
  cases kind with
  | classLike | typeAlias => simp only [kindLines, htemplates]
  | constructor => simp only [kindLines, hparameters]
  | method =>
    simp only [kindLines, htemplates, hparameters]
    rfl
  | _ => rfl

/-- A member that overrides another one has no lines of the user. -/
theorem ownLines_withUserTags_of_override (entries : List CustomTag)
    (h : f.node.hasModifier "override" = true) :
    (b.withUserTags entries).ownLines f kind = b.ownLines f kind := by
  simp only [ownLines, h]
  rfl

/-- Any other declaration that describes itself has them behind all others. -/
theorem ownLines_eq_append (h : f.node.hasModifier "override" = false) (j : Journal σ) :
    (b.ownLines f kind j).1 = ((b.withUserTags []).ownLines f kind j).1 ++
      customTagLines b.settings kind := by
  have hnone : customTagLines (b.withUserTags []).settings kind = [] := rfl
  simp only [ownLines, h, kindLines_withUserTags, hnone, List.append_nil, Bool.false_eq_true,
    if_false, Logged.bind_apply, Logged.pure_apply]
  rfl

/-- A header that points elsewhere has no lines of the user. -/
theorem lines_withUserTags (entries : List CustomTag) (h : PointsElsewhere f kind) :
    (b.withUserTags entries).lines f kind = b.lines f kind := by
  unfold Builder.lines
  cases hpaired : if kind = .accessor then pairedAccessor? f else none with
  | some paired => rfl
  | none =>
    refine b.ownLines_withUserTags_of_override f kind entries ?_
    rcases h with h | ⟨rfl, hopposite⟩
    · exact h
    · rw [if_pos rfl] at hpaired
      rw [← isSome_pairedAccessor?, hpaired] at hopposite
      cases hopposite

/-- Every other header has them behind all others. -/
theorem lines_eq_append (h : ¬PointsElsewhere f kind) (j : Journal σ) :
    (b.lines f kind j).1 = ((b.withUserTags []).lines f kind j).1 ++
      (UserTags.shown kind b.settings.customTags).map customTagLine := by
  obtain ⟨hoverride, hopposite⟩ := not_or.mp h
  rw [← UserTags.applicableTags_eq_shown]
  simp only [Builder.lines, reused_eq_none f kind hopposite]
  exact b.ownLines_eq_append f kind (Bool.eq_false_iff.mpr hoverride) j

/-- **The tags of the user.** For every declaration that is documented, and every list of
entries that each name a tag, the last lines of the header are those of the entries that are the
first for their tag among the ones that apply to the kind, in the order of the settings. Each
has the tag of its entry and the placeholder as an editable value, and no tag is there twice.
The lines with tags before them are those of the header without any entries. A header that only
points to another description is the header without any entries. -/
theorem build_userTags (j : Journal σ) {kind : DeclarationKind} (hkind : b.kindOf f = .ok kind)
    (hnamed : ∀ t ∈ b.settings.customTags, t.tag ≠ "") :
    ∃ plain draft, ((b.withUserTags []).build f j).1 = .ok plain ∧
      (b.build f j).1 = .ok draft ∧
      (PointsElsewhere f kind → draft = plain) ∧
      (¬PointsElsewhere f kind → UserTags.Closes kind b.settings.customTags plain draft) := by
  have hkind' : (b.withUserTags []).kindOf f = .ok kind := hkind
  refine ⟨_, _, (b.withUserTags []).build_eq_close f hkind' j, b.build_eq_close f hkind j,
    fun helsewhere => by rw [b.lines_withUserTags f kind [] helsewhere], fun hown => ?_⟩
  set entries := b.settings.customTags
  set custom := (UserTags.shown kind entries).map customTagLine with hcustom
  have hlines : (b.lines f kind j).1 = ((b.withUserTags []).lines f kind j).1 ++ custom :=
    b.lines_eq_append f kind hown j
  have htag : ∀ t ∈ UserTags.shown kind entries, (customTagLine t).tag? = some t.tag :=
    fun t ht => TagLine.tag?_of_ne rfl
      (hnamed t (List.mem_of_find?_eq_some (UserTags.mem_shown.mp ht)))
  have htagged : ∀ line ∈ custom, line.tag?.isSome = true :=
    List.forall_mem_map.mpr fun t ht => by rw [htag t ht]; rfl
  have hblank : ∀ line ∈ custom, line.isBlank = false :=
    List.forall_mem_map.mpr fun t ht => by simp [TagLine.isBlank, htag t ht]
  refine ⟨?_, ?_, fun t ht => ⟨htag t ht, rfl⟩, fun tag htaken => ?_,
    fun t ht => UserTags.mem_shown.mp ht, UserTags.nodup_shown entries⟩
  · change ∃ before, dropOuterBlank _ = _
    rw [hlines]
    exact exists_dropOuterBlank_append hblank _
  · change (dropOuterBlank _).filter _ = (dropOuterBlank _).filter _ ++ custom
    rw [hlines, filter_tagged_dropOuterBlank, filter_tagged_dropOuterBlank, List.filter_append,
      List.filter_eq_self.mpr htagged]
  · obtain ⟨t, ht⟩ := Option.isSome_iff_exists.mp (List.find?_isSome.mpr htaken)
    obtain ⟨rfl, -⟩ := UserTags.isFor_iff.mp (List.find?_some ht)
    exact ⟨t, UserTags.mem_shown.mpr ht, ht⟩

/-- A builder with two tags of the user, in five entries. -/
def annotating : Builder Unit where
  settings :=
    { text := fun _ => ""
      customTags := [{ tag := "see", kinds := some [.file] },
        { tag := "since", placeholder := "1.0", kinds := some [.file] },
        { tag := "since", placeholder := "2.0", kinds := some [.classLike, .method] },
        { tag := "see", placeholder := "docs" }, { tag := "since", placeholder := "3.0" }] }
  source := .blank ""
  today := { year := 2024, month := 1, day := 1 }

/-- A class shows the third entry and the fourth. -/
theorem build_userTags_of_class :
    annotating.kindOf derivedClass = .ok .classLike ∧
    (∀ t ∈ annotating.settings.customTags, t.tag ≠ "") ∧
    ∃ draft, (annotating.build derivedClass ⟨(), []⟩).1 = .ok draft ∧
      ∃ before, draft.lines = before ++
        [customTagLine
            { tag := "since", placeholder := "2.0", kinds := some [.classLike, .method] },
          customTagLine { tag := "see", placeholder := "docs" }] := by
  have hkind : annotating.kindOf derivedClass = .ok .classLike := by decide +kernel
  have hnamed : ∀ t ∈ annotating.settings.customTags, t.tag ≠ "" := by decide
  have hown : ¬PointsElsewhere derivedClass .classLike := by
    rintro (hoverride | ⟨hkind, -⟩)
    · revert hoverride
      decide +kernel
    · cases hkind
  obtain ⟨plain, draft, -, hbuild, -, hcloses⟩ :=
    annotating.build_userTags derivedClass ⟨(), []⟩ hkind hnamed
  exact ⟨hkind, hnamed, draft, hbuild, (hcloses hown).last⟩

end Builder

end DocHeader

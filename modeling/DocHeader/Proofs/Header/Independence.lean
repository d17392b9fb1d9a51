import DocHeader.Proofs.Header.TagOrder

/-!
# Headers under two sources of descriptions

Two sources of descriptions may answer every request in their own way: with any text, with
lists of any length, or not at all. The headers that are built with them differ in their
descriptions alone. Each line with a tag is there in both, at the same place, with the same
value and the same name.

## Main definitions

* `TagLine.frame` — a line but for its description.
* `frames` — the lines with a tag, but for their descriptions.
* `Logged.Agree` — what the results of two computations have in common.
-/

namespace DocHeader

/-- A line but for its description: its tag, its value and its name. -/
def TagLine.frame (line : TagLine) : TagLine := { line with description := none }

/-- The lines with a tag, but for their descriptions. -/
def frames (lines : List TagLine) : List TagLine :=
  (lines.filter fun line => line.tag?.isSome).map TagLine.frame

/-! ## Lines with the same frames -/

theorem TagLine.tag?_eq_of_frame_eq {line line' : TagLine} (h : line.frame = line'.frame) :
    line.tag? = line'.tag? := by
  have htag : line.frame.tag = line'.frame.tag := congrArg TagLine.tag h
  simp only [frame] at htag
  simp only [tag?, htag]

/-- Lines that differ in their descriptions and in what has no tag. -/
def SameFrames (lines lines' : List TagLine) : Prop := frames lines = frames lines'

namespace SameFrames

variable {lines lines' others others' : List TagLine}

theorem refl (lines : List TagLine) : SameFrames lines lines := rfl

theorem append (h : SameFrames lines lines') (h' : SameFrames others others') :
    SameFrames (lines ++ others) (lines' ++ others') := by
  unfold SameFrames frames at *
  rw [List.filter_append, List.map_append, h, h', List.filter_append, List.map_append]

theorem cons {line line' : TagLine} (hframe : line.frame = line'.frame)
    (h : SameFrames lines lines') : SameFrames (line :: lines) (line' :: lines') := by
  have htag := TagLine.tag?_eq_of_frame_eq hframe
  unfold SameFrames frames at *
  simp only [List.filter_cons, htag]
  split
  next => rw [List.map_cons, List.map_cons, hframe, h]
  next => exact h

theorem of_untagged (h : ∀ line ∈ lines, line.tag = none) (h' : ∀ line ∈ lines', line.tag = none) :
    SameFrames lines lines' := by
  have hnone {ls : List TagLine} (hls : ∀ line ∈ ls, line.tag = none) : frames ls = [] := by
    have hfilter : ls.filter (fun line => line.tag?.isSome) = [] :=
      List.filter_eq_nil_iff.mpr fun line hline => by simp [TagLine.tag?, hls line hline]
    rw [frames, hfilter, List.map_nil]
  unfold SameFrames
  rw [hnone h, hnone h']

theorem dropOuterBlank (h : SameFrames lines lines') :
    SameFrames (dropOuterBlank lines) (dropOuterBlank lines') := by
  unfold SameFrames frames at *
  rw [filter_tagged_dropOuterBlank, filter_tagged_dropOuterBlank, h]

end SameFrames

variable (s : Settings)

theorem sameFrames_openingLines (today : CivilTime) (description description' : Phrase) :
    SameFrames (openingLines s today description) (openingLines s today description') := by
  have htext : SameFrames
      ((descriptionLines description).map fun line => TagLine.ofText (some line))
      ((descriptionLines description').map fun line => TagLine.ofText (some line)) :=
    .of_untagged (by simp [TagLine.ofText]) (by simp [TagLine.ofText])
  exact ((htext.append (.refl _)).append (.refl _)).append (.refl _)

theorem sameFrames_templateLines (templates : List Focus) (names : List String)
    {descriptions descriptions' : List Phrase} (h : descriptions.length = descriptions'.length) :
    SameFrames (templateLines s templates names descriptions)
      (templateLines s templates names descriptions') := by
  induction descriptions generalizing templates names descriptions' with
  | nil =>
    rw [List.length_eq_zero_iff.mp h.symm]
    exact .refl _
  | cons d ds ih =>
    obtain ⟨d', ds', rfl⟩ := List.exists_cons_of_length_eq_add_one h.symm
    match templates, names with
    | t :: ts, name :: names => exact .cons rfl (ih ts names (by simpa using h))
    | [], _ | _ :: _, [] => exact .refl _

theorem sameFrames_parameterLines (parameters : List Focus) (names : List String)
    {descriptions descriptions' : List Phrase} (h : descriptions.length = descriptions'.length) :
    SameFrames (parameterLines s parameters names descriptions)
      (parameterLines s parameters names descriptions') := by
  induction descriptions generalizing parameters names descriptions' with
  | nil =>
    rw [List.length_eq_zero_iff.mp h.symm]
    exact .refl _
  | cons d ds ih =>
    obtain ⟨d', ds', rfl⟩ := List.exists_cons_of_length_eq_add_one h.symm
    match parameters, names with
    | p :: ps, name :: names =>
      -- the lines of the elements of a parameter have no description of the source
      exact .append (.cons rfl (.refl _)) (ih ps names (by simpa using h))
    | [], _ | _ :: _, [] => exact .refl _

/-! ## Two computations -/

namespace Logged

variable {σ τ α β γ δ : Type} {x : Logged σ α} {y : Logged τ β}

/-- What the results of two computations have in common, each from a state of its own. -/
def Agree (x : Logged σ α) (y : Logged τ β) (R : α → β → Prop) : Prop :=
  ∀ j k, R (x j).1 (y k).1

theorem Agree.pure {R : α → β → Prop} {a : α} {b : β} (h : R a b) :
    Agree (pure a : Logged σ α) (pure b : Logged τ β) R := fun _ _ => h

theorem Agree.bind {R : α → β → Prop} {S : γ → δ → Prop} {next : α → Logged σ γ}
    {next' : β → Logged τ δ} (h : Agree x y R) (hnext : ∀ a b, R a b → Agree (next a) (next' b) S) :
    Agree (x >>= next) (y >>= next') S :=
  fun j k => hnext _ _ (h j k) _ _

theorem Agree.trivial (x : Logged σ α) (y : Logged τ β) : Agree x y fun _ _ => True :=
  fun _ _ => True.intro

end Logged

/-! ## Headers -/

namespace Builder

variable {σ τ : Type}

/-- The same builder with another source of descriptions. -/
def withSource (b : Builder σ) (source : DescriptionSource τ) : Builder τ :=
  { settings := b.settings, source, today := b.today }

variable (b : Builder σ) (source : DescriptionSource τ) (f signature : Focus)
  (kind : DeclarationKind)

theorem askNames_agree (generics : Bool) (names : List String) :
    (b.askNames f kind generics names).Agree
      ((b.withSource source).askNames f kind generics names)
      fun given given' => given.length = given'.length :=
  fun j k => (b.askNames_length f kind generics names j).trans
    ((b.withSource source).askNames_length f kind generics names k).symm

theorem askTemplates_agree : (b.askTemplates f signature kind).Agree
    ((b.withSource source).askTemplates f signature kind) SameFrames := by
  simp only [askTemplates]
  split
  next => exact .pure (.refl _)
  next =>
    exact .bind (b.askNames_agree source f kind true _) fun given given' hlength =>
      .pure (sameFrames_templateLines b.settings _ _ hlength)

theorem askParameters_agree : (b.askParameters f signature kind).Agree
    ((b.withSource source).askParameters f signature kind) SameFrames := by
  simp only [askParameters]
  split
  next => exact .pure (.refl _)
  next =>
    exact .bind (b.askNames_agree source f kind false _) fun given given' hlength =>
      .pure (sameFrames_parameterLines b.settings _ _ hlength)

theorem askReturn_agree : (b.askReturn f signature).Agree
    ((b.withSource source).askReturn f signature) SameFrames := by
  cases hinclude : b.settings.flag .includeReturn with
  | false =>
    simp only [askReturn, withSource, hinclude]
    exact .pure (SameFrames.refl [])
  | true =>
    cases hreturn : signature.renderReturn? (b.settings.flag .parenthesizeCompoundTypes) with
    | none =>
      simp only [askReturn, withSource, hinclude, hreturn]
      exact .pure (SameFrames.refl [])
    | some type =>
      simp only [askReturn, withSource, hinclude, hreturn]
      exact .bind (.trivial _ _) fun _ _ _ => .pure (SameFrames.cons rfl (.refl []))

theorem kindLines_agree : (b.kindLines f kind).Agree ((b.withSource source).kindLines f kind)
    SameFrames := by
  match kind with
  | .classLike =>
    exact .bind (b.askTemplates_agree source f f _) fun _ _ htemplates =>
      .pure (.append (.refl _) htemplates)
  | .typeAlias =>
    exact .bind (b.askTemplates_agree source f f _) fun _ _ htemplates =>
      .pure (.append (.refl _) htemplates)
  | .enumeration | .property | .accessor | .variable | .file => exact .pure (.refl _)
  | .method =>
    exact .bind (b.askTemplates_agree source f _ _) fun _ _ htemplates =>
      .bind (b.askParameters_agree source f _ _) fun _ _ hparameters =>
        .bind (b.askReturn_agree source f _) fun _ _ hreturns =>
          .pure (.append (.append (.append (.refl _) htemplates) hparameters) hreturns)
  | .constructor =>
    exact .bind (b.askParameters_agree source f f _) fun _ _ hparameters =>
      .pure (.cons rfl hparameters)

theorem ownLines_agree : (b.ownLines f kind).Agree ((b.withSource source).ownLines f kind)
    SameFrames := by
  refine .bind (.trivial _ _) fun description description' _ => ?_
  have hopening := sameFrames_openingLines b.settings b.today description description'
  split
  next => exact .pure (hopening.append (.refl _))
  next =>
    exact .bind (b.kindLines_agree source f kind) fun _ _ hlines =>
      .pure (((hopening.append (.refl _)).append hlines).append (.refl _))

theorem lines_agree : (b.lines f kind).Agree ((b.withSource source).lines f kind) SameFrames := by
  unfold Builder.lines
  split
  next => exact .pure (.refl _)
  next => exact b.ownLines_agree source f kind

/-- **Descriptions never change the structure of a header.** For every declaration that is
documented, every setting and any two sources of descriptions, whatever they answer and even
when they fail, both headers are built. Their lines with a tag are the same but for the
descriptions: none is dropped, added, moved or given another tag, value or name. -/
theorem build_frames_eq (j : Journal σ) (k : Journal τ) {kind : DeclarationKind}
    (hkind : b.kindOf f = .ok kind) :
    ∃ draft draft', (b.build f j).1 = .ok draft ∧
      ((b.withSource source).build f k).1 = .ok draft' ∧
      frames draft.lines = frames draft'.lines := by
  have hkind' : (b.withSource source).kindOf f = .ok kind := hkind
  exact ⟨_, _, b.build_eq_close f hkind j, (b.withSource source).build_eq_close f hkind' k,
    (b.lines_agree source f kind j k).dropOuterBlank⟩

/-- A source that writes several lines, describes one parameter too many and no return
value. -/
def unruly : DescriptionSource Unit where
  declaration _ _ := pure (.ok (.plain "Reads files.\n\nSlowly."))
  parameters _ _ _ _ := pure (.ok [.plain "what is read\n@throws", .plain "nothing"])
  returns _ := pure (.error ⟨"no answer"⟩)
  release := pure ()

/-- A function has the lines for its parameter and for its return value without any
descriptions and with unruly ones. -/
theorem build_frames_eq_of_unruly :
    undescribed.kindOf (withParameter "1") = .ok .method ∧
    ∃ draft draft', (undescribed.build (withParameter "1") ⟨(), []⟩).1 = .ok draft ∧
      ((undescribed.withSource unruly).build (withParameter "1") ⟨(), []⟩).1 = .ok draft' ∧
      frames draft.lines = frames draft'.lines ∧
      draft'.tags = ["param", "returns"] ∧ draft'.lines.length = 5 := by
  have hkind : undescribed.kindOf (withParameter "1") = .ok .method := by decide +kernel
  obtain ⟨draft, draft', hbuild, hbuild', hframes⟩ :=
    build_frames_eq undescribed unruly (withParameter "1") ⟨(), []⟩ ⟨(), []⟩ hkind
  have hlines : ((undescribed.withSource unruly).build (withParameter "1")
      ⟨(), []⟩).1.toOption.map (fun draft => (draft.tags, draft.lines.length)) =
        some (["param", "returns"], 5) := by decide +kernel
  rw [hbuild'] at hlines
  have hlines : (draft'.tags, draft'.lines.length) = (["param", "returns"], 5) := by
    simpa [Except.toOption] using hlines
  exact ⟨hkind, draft, draft', hbuild, hbuild', hframes, (Prod.mk.inj hlines).1,
    (Prod.mk.inj hlines).2⟩

end Builder

end DocHeader

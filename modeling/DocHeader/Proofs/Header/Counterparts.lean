import DocHeader.Proofs.Header.Lines
import DocHeader.Proofs.Header.Reuse
import DocHeader.Proofs.Syntax.TreeOrder

/-!
# Which description an accessor repeats

A body may hold a static and an instance property of one name, each with two accessors. An accessor
repeats the header of the first documented accessor of the opposite kind with its name, static or
not. That is the opposite accessor of its own property just when such an accessor, documented as
well, comes before all those that belong to the other property.

## Main definitions

* `IsCounterpart` — the opposite accessor of the same property.
* `IsFirstOf` — the first member of a list with some property.
* `Reuses` — an accessor and the one whose header it repeats.
-/

namespace DocHeader

/-- The opposite accessor of the same property: it has the same name, and both are static or both
are not. -/
structure IsCounterpart (f sibling : Focus) : Prop where
  kind : sibling.kind = oppositeAccessor f.kind
  name : sibling.info.name = f.info.name
  static : sibling.node.hasModifier "static" = f.node.hasModifier "static"

/-- The opposite accessor of the same property, with a header. -/
structure IsDocumentedCounterpart (f sibling : Focus) : Prop extends IsCounterpart f sibling where
  documented : sibling.hasHeader = true

theorem IsDocumentedCounterpart.isPartner {f sibling : Focus}
    (h : IsDocumentedCounterpart f sibling) : IsPartner f sibling :=
  ⟨h.kind, h.name, h.documented⟩

theorem IsPartner.isDocumentedCounterpart_iff {f sibling : Focus} (h : IsPartner f sibling) :
    IsDocumentedCounterpart f sibling ↔ IsCounterpart f sibling :=
  ⟨fun hown => hown.toIsCounterpart, fun hown => ⟨hown, h.documented⟩⟩

/-! ## The first of a list -/

/-- The first member of a list with some property. -/
def IsFirstOf {α : Type} (P : α → Prop) (xs : List α) (x : α) : Prop :=
  ∃ before after, xs = before ++ x :: after ∧ P x ∧ ∀ y ∈ before, ¬P y

namespace IsFirstOf

variable {α : Type} {P Q : α → Prop} {xs before after : List α} {x y : α}

theorem holds (h : IsFirstOf P xs x) : P x := by
  obtain ⟨_, _, -, hx, -⟩ := h
  exact hx

theorem mem (h : IsFirstOf P xs x) : x ∈ xs := by
  obtain ⟨before, after, rfl, -, -⟩ := h
  simp

open Classical in
theorem iff_find? : IsFirstOf P xs x ↔ xs.find? (fun y => decide (P y)) = some x := by
  rw [List.find?_eq_some_iff_append]
  simp only [IsFirstOf, decide_eq_true_eq, Bool.not_eq_true', decide_eq_false_iff_not]
  exact ⟨fun ⟨before, after, hxs, hx, hnone⟩ => ⟨hx, before, after, hxs, hnone⟩,
    fun ⟨hx, before, after, hxs, hnone⟩ => ⟨before, after, hxs, hx, hnone⟩⟩

theorem unique (hx : IsFirstOf P xs x) (hy : IsFirstOf P xs y) : x = y :=
  Option.some_inj.mp ((iff_find?.mp hx).symm.trans (iff_find?.mp hy))

theorem exists_of_mem (hy : y ∈ xs) (h : P y) : ∃ x, IsFirstOf P xs x := by
  classical
  have hsome : (xs.find? fun y => decide (P y)).isSome :=
    List.find?_isSome.mpr ⟨y, hy, decide_eq_true h⟩
  obtain ⟨x, hx⟩ := Option.isSome_iff_exists.mp hsome
  exact ⟨x, iff_find?.mpr hx⟩

/-- What is first in the beginning of a list is first in all of it. -/
theorem append (h : IsFirstOf P before x) : IsFirstOf P (before ++ after) x := by
  obtain ⟨front, rest, rfl, hx, hnone⟩ := h
  exact ⟨front, rest ++ after, by simp, hx, hnone⟩

/-- Where `Q` is the narrower property, the first with `P` has it too just when each member with `P`
alone has one with `Q` before it. -/
theorem narrows_iff (hle : ∀ y, Q y → P y) :
    (∀ x, IsFirstOf P xs x → Q x) ↔ ∀ before y after, xs = before ++ y :: after → P y → ¬Q y →
      ∃ z ∈ before, Q z := by
  constructor
  · rintro hfirst before y after rfl hy hnot
    by_cases hbefore : ∃ z ∈ before, P z
    · obtain ⟨z, hz, hPz⟩ := hbefore
      obtain ⟨x, hx⟩ := exists_of_mem hz hPz
      exact ⟨x, hx.mem, hfirst x hx.append⟩
    · exact absurd (hfirst y ⟨before, after, rfl, hy, fun z hz hPz => hbefore ⟨z, hz, hPz⟩⟩) hnot
  · rintro hbefore x ⟨before, after, rfl, hx, hnone⟩
    by_contra hnot
    obtain ⟨z, hz, hQz⟩ := hbefore before x after rfl hx hnot
    exact hnone z hz (hle z hQz)

/-- When the first with `P` has the narrower property `Q`, it is the first with `Q`. -/
theorem widen (hle : ∀ y, Q y → P y) (hfirst : ∀ x, IsFirstOf P xs x → Q x)
    (h : IsFirstOf Q xs x) : IsFirstOf P xs x := by
  obtain ⟨y, hy⟩ := exists_of_mem h.mem (hle x h.holds)
  have hQ := hfirst y hy
  have hyQ : IsFirstOf Q xs y := by
    obtain ⟨before, after, hxs, -, hnone⟩ := hy
    exact ⟨before, after, hxs, hQ, fun z hz hQz => hnone z hz (hle z hQz)⟩
  exact h.unique hyQ ▸ hy

end IsFirstOf

/-! ## Accessors -/

/-- An accessor repeats the header of another one: of the first documented accessor among its
siblings that is of the opposite kind and has its name. -/
def Reuses (f paired : Focus) : Prop :=
  ∃ parent, f.parent? = some parent ∧ IsFirstOf (IsPartner f) parent.children paired

variable {f parent paired : Focus}

theorem Reuses.iff_isFirstOf (hparent : f.parent? = some parent) :
    Reuses f paired ↔ IsFirstOf (IsPartner f) parent.children paired := by
  simp [Reuses, hparent]

theorem Focus.parent?_of_mem_children {child : Focus} (h : child ∈ parent.children) :
    child.parent? = some parent := by
  obtain ⟨i, c, -, rfl⟩ := Focus.mem_children.mp h
  rfl

/-- Where nothing is reused there is no paired accessor. -/
theorem pairedAccessor?_eq_none (h : ∀ paired, ¬Reuses f paired) : pairedAccessor? f = none := by
  cases hparent : f.parent? with
  | none => simp [pairedAccessor?, hparent]
  | some parent =>
    rw [pairedAccessor?, hparent, Option.bind_some, List.find?_eq_none]
    intro sibling hsibling hsame
    obtain ⟨hmem, hkind⟩ := List.mem_filter.mp hsibling
    have hpartner : IsPartner f sibling := by
      simp only [Bool.and_eq_true, beq_iff_eq] at hsame
      exact ⟨by simpa using hkind, hsame.1, hsame.2⟩
    obtain ⟨paired, hfirst⟩ := IsFirstOf.exists_of_mem hmem hpartner
    exact h paired ⟨parent, hparent, hfirst⟩

namespace Builder

variable {σ : Type} (b : Builder σ)

/-- The draft of an accessor that repeats the header of another one; no description is asked for. -/
theorem build_of_reuses (hkind : f.kind = "GetAccessor" ∨ f.kind = "SetAccessor")
    (h : Reuses f paired) (j : Journal σ) :
    b.build f j = (.ok ({ kind := .accessor, lines := reusedLines b.settings paired } : Draft).close,
      j) := by
  obtain ⟨parent, hparent, before, after, hchildren, hpaired, hbefore⟩ := h
  have hpair := pairedAccessor?_eq_some hparent hchildren hbefore hpaired
  simp only [build, b.kindOf_accessor hkind, lines, if_true, hpair, Logged.bind_apply,
    Logged.pure_apply]

/-- The draft of an accessor that repeats no header. -/
theorem build_of_not_reuses (hkind : f.kind = "GetAccessor" ∨ f.kind = "SetAccessor")
    (h : ∀ paired, ¬Reuses f paired) (j : Journal σ) :
    (b.build f j).1 =
      .ok ({ kind := .accessor, lines := (b.ownLines f .accessor j).1 } : Draft).close := by
  rw [b.build_eq_close f (b.kindOf_accessor hkind), lines, if_pos rfl, pairedAccessor?_eq_none h]

/-- **Whose description an accessor repeats.** An accessor in a body repeats the header of the first
documented accessor of the opposite kind with its name, if there is one, and describes itself
otherwise. What it repeats belongs to its own property, and the first documented opposite accessor of
its own property is repeated, just when every one of the other property of that name has a documented
one of its own property before it. -/
theorem build_reuses_counterpart_iff (hkind : f.kind = "GetAccessor" ∨ f.kind = "SetAccessor")
    (hparent : f.parent? = some parent) :
    (∀ paired, Reuses f paired → paired.parent? = some parent ∧ IsPartner f paired ∧
      (∀ other, Reuses f other → other = paired) ∧
      ∀ j, b.build f j = (.ok ({
        kind := .accessor
        lines := reusedLines b.settings paired } : Draft).close, j)) ∧
    ((∀ paired, ¬Reuses f paired) → ∀ j, (b.build f j).1 =
      .ok ({ kind := .accessor, lines := (b.ownLines f .accessor j).1 } : Draft).close) ∧
    (((∀ paired, Reuses f paired → IsCounterpart f paired) ∧
        ∀ own, IsFirstOf (IsDocumentedCounterpart f) parent.children own → Reuses f own) ↔
      ∀ before stranger after, parent.children = before ++ stranger :: after →
        IsPartner f stranger → ¬IsCounterpart f stranger →
          ∃ own ∈ before, IsDocumentedCounterpart f own) := by
  simp only [Reuses.iff_isFirstOf hparent]
  refine ⟨fun paired h => ⟨Focus.parent?_of_mem_children h.mem, h.holds, fun other h' => h'.unique h,
    b.build_of_reuses hkind ⟨parent, hparent, h⟩⟩, fun h => b.build_of_not_reuses hkind
      fun paired hreuses => h paired ((Reuses.iff_isFirstOf hparent).mp hreuses), ?_⟩
  have hnarrows := @IsFirstOf.narrows_iff Focus (IsPartner f) (IsDocumentedCounterpart f)
    parent.children fun _ h => h.isPartner
  have hown : (∀ paired, IsFirstOf (IsPartner f) parent.children paired → IsCounterpart f paired) ↔
      ∀ paired, IsFirstOf (IsPartner f) parent.children paired → IsDocumentedCounterpart f paired :=
    forall₂_congr fun paired h => h.holds.isDocumentedCounterpart_iff.symm
  have hwiden (h : ∀ paired, IsFirstOf (IsPartner f) parent.children paired →
      IsDocumentedCounterpart f paired) (own : Focus)
      (hfirst : IsFirstOf (IsDocumentedCounterpart f) parent.children own) :
      IsFirstOf (IsPartner f) parent.children own :=
    hfirst.widen (fun sibling h => h.isPartner) h
  rw [hown, and_iff_left_of_imp hwiden, hnarrows]
  refine forall_congr' fun before => forall_congr' fun stranger => forall_congr' fun after =>
    imp_congr_right fun _ => ⟨fun h hpartner hnot => ?_, fun h hpartner hnot => ?_⟩
  · exact h hpartner fun hown => hnot hown.toIsCounterpart
  · exact h hpartner fun hown => hnot (hpartner.isDocumentedCounterpart_iff.mpr hown)

/-- A member of a class. -/
def levelMember (kind : String) (modifiers : List String) (header : Option String) : Node :=
  .mk { kind, fullStart := 0, start := 0, stop := 1, text := "", name := some "level", modifiers,
        header } []

/-- A class with a static property and one of its instances, both with the same name and each with a
documented getter, and with the setter of the latter. -/
def twoLevels (staticFirst : Bool) : Node :=
  let shared := levelMember "GetAccessor" ["static"] (some "/** Of all. */")
  let own := levelMember "GetAccessor" [] (some "/** Of one. */")
  let setter := levelMember "SetAccessor" [] none
  .mk { kind := "ClassDeclaration", fullStart := 0, start := 0, stop := 1, text := "" }
    (if staticFirst then [shared, own, setter] else [own, shared, setter])

/-- The setter of this class. -/
def levelSetter (staticFirst : Bool) : Focus :=
  ⟨levelMember "SetAccessor" [] none, [(twoLevels staticFirst, 2)]⟩

/-- The setter repeats the header of its own getter when that comes first. -/
theorem build_reuses_counterpart_of_own_first :
    (levelSetter false).kind = "SetAccessor" ∧
    (levelSetter false).parent? = some (.root (twoLevels false)) ∧
    ∃ own, Reuses (levelSetter false) own ∧ IsCounterpart (levelSetter false) own ∧
      (undescribed.build (levelSetter false) ⟨(), []⟩).1 = .ok {
        kind := .accessor
        lines := [.ofText (some (.plain "Of one.")), .blank, .ofTag "inheritdoc"]
        closed := true } := by
  let own : Focus := ⟨levelMember "GetAccessor" [] (some "/** Of one. */"), [(twoLevels false, 0)]⟩
  let shared : Focus :=
    ⟨levelMember "GetAccessor" ["static"] (some "/** Of all. */"), [(twoLevels false, 1)]⟩
  have hchildren : (Focus.root (twoLevels false)).children = [own, shared, levelSetter false] := rfl
  have hown : IsDocumentedCounterpart (levelSetter false) own := ⟨⟨rfl, rfl, rfl⟩, by decide⟩
  have hparent : (levelSetter false).parent? = some (.root (twoLevels false)) := rfl
  obtain ⟨hreused, -, hiff⟩ := undescribed.build_reuses_counterpart_iff (.inr rfl) hparent
  have hreuses : Reuses (levelSetter false) own := by
    refine (hiff.mpr fun before stranger after hsplit _ hnot => ?_).2 own
      ⟨[], _, hchildren, hown, by simp⟩
    rw [hchildren] at hsplit
    cases before with
    | nil =>
      cases hsplit
      exact absurd hown.toIsCounterpart hnot
    | cons first before =>
      obtain rfl : own = first := (List.cons.inj hsplit).1
      exact ⟨own, List.mem_cons_self, hown⟩
  obtain ⟨-, -, -, hbuild⟩ := hreused own hreuses
  refine ⟨rfl, rfl, own, hreuses, hown.toIsCounterpart, ?_⟩
  rw [hbuild]
  decide +kernel

/-- The setter repeats the header of the static getter when that comes first, and not that of its own
getter. -/
theorem build_reuses_stranger :
    ∃ shared own, Reuses (levelSetter true) shared ∧ ¬IsCounterpart (levelSetter true) shared ∧
      IsFirstOf (IsDocumentedCounterpart (levelSetter true))
        (Focus.root (twoLevels true)).children own ∧
      ¬Reuses (levelSetter true) own ∧
      (undescribed.build (levelSetter true) ⟨(), []⟩).1.toOption.map Draft.lines =
        some [.ofText (some (.plain "Of all.")), .blank, .ofTag "inheritdoc"] := by
  let shared : Focus :=
    ⟨levelMember "GetAccessor" ["static"] (some "/** Of all. */"), [(twoLevels true, 0)]⟩
  let own : Focus := ⟨levelMember "GetAccessor" [] (some "/** Of one. */"), [(twoLevels true, 1)]⟩
  have hchildren : (Focus.root (twoLevels true)).children = [shared, own, levelSetter true] := rfl
  have hshared : IsFirstOf (IsPartner (levelSetter true)) (Focus.root (twoLevels true)).children
      shared := ⟨[], _, hchildren, ⟨rfl, rfl, by decide⟩, by simp⟩
  have hstranger : ¬IsCounterpart (levelSetter true) shared := fun h => absurd h.static (by decide)
  refine ⟨shared, own, ⟨_, rfl, hshared⟩, hstranger,
    ⟨[shared], _, hchildren, ⟨⟨rfl, rfl, rfl⟩, by decide⟩, fun sibling hsibling h => ?_⟩, ?_,
    by decide +kernel⟩
  · rw [List.mem_singleton.mp hsibling] at h
    exact hstranger h.toIsCounterpart
  · intro hown
    have hsame := ((Reuses.iff_isFirstOf rfl).mp hown).unique hshared
    have hheader : some "/** Of one. */" = some "/** Of all. */" :=
      congrArg (fun f => f.info.header) hsame
    exact absurd hheader (by decide)

end Builder

end DocHeader

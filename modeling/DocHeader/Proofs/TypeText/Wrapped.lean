import DocHeader.Proofs.TypeText.Compound
import DocHeader.TypeText.Declared

/-!
# Types behind a sign

A sign stands in front of a type, and parentheses around a compound type keep the sign from
binding to its first member alone. Behind a sign a type is scanned as by itself; between
parentheses one bracket more is open at every place. So balanced brackets stay balanced, and the
separators of a type in parentheses are not at the outermost level any more.

## Main definitions

* `TypeText.Nowhere` — what a scan of a text meets at no place.
* `TypeText.IsBalanced` — a text that closes all its brackets and literals, and no others.
* `TypeText.Scan.IsDeeper` — a scan with more brackets open, and alike otherwise.
-/

namespace DocHeader.TypeText

namespace Scan

/-- A closing bracket comes where no bracket is open. -/
def IsUnmatched (s : Scan) (c : Char) : Prop :=
  s.IsOutside 0 ∧ c ∈ closers ∧ ¬(c = '>' ∧ s.previous = some '=')

instance (s : Scan) (depth : Nat) : Decidable (s.IsOutside depth) :=
  inferInstanceAs (Decidable (_ ∧ _))

instance (s : Scan) (c : Char) : Decidable (s.IsUnmatched c) :=
  inferInstanceAs (Decidable (_ ∧ _ ∧ ¬(_ ∧ _)))

/-- A scan with `k` more brackets open than another one. What comes next means the same to both
of them, but for the separators and the closing brackets. -/
structure IsDeeper (k : Nat) (outer inner : Scan) : Prop where
  literal : inner.literal = outer.literal
  depth : inner.depth = outer.depth + k
  arrow : inner.previous = some '=' ↔ outer.previous = some '='
  escape : inner.previous = some '\\' ↔ outer.previous = some '\\'

end Scan

/-- At no place of a text does a scan meet the next character in a certain state. -/
def Nowhere (P : Scan → Char → Prop) (cs : List Char) : Prop :=
  ∀ before c after, cs = before ++ c :: after → ¬P (Scan.ofText before) c

/-- The brackets of a text are balanced: a bracket is open before each closing one, and neither
a bracket nor a literal is open at the end. -/
structure IsBalanced (cs : List Char) : Prop where
  matched : Nowhere Scan.IsUnmatched cs
  closed : (Scan.ofText cs).IsOutside 0

/-! ## Deeper scans -/

namespace Scan

variable {k depth : Nat} {outer inner : Scan} {c : Char}

theorem IsDeeper.isOutside (h : IsDeeper k outer inner) (houter : outer.IsOutside depth) :
    inner.IsOutside (depth + k) :=
  ⟨h.literal.trans houter.1, by rw [h.depth, houter.2]⟩

/-- A closing bracket that is unmatched deeper inside is unmatched further out. -/
theorem IsDeeper.isUnmatched (h : IsDeeper k outer inner) (hinner : inner.IsUnmatched c) :
    outer.IsUnmatched c := by
  obtain ⟨⟨hliteral, hdepth⟩, hc, harrow⟩ := hinner
  rw [h.depth] at hdepth
  exact ⟨⟨h.literal ▸ hliteral, by omega⟩, hc, by rwa [← h.arrow]⟩

/-- Scans that are outside of literals after the same character. -/
theorem IsDeeper.of_isOutside (houter : outer.IsOutside depth)
    (hinner : inner.IsOutside (depth + k)) (hprevious : inner.previous = outer.previous) :
    IsDeeper k outer inner :=
  ⟨hinner.1.trans houter.1.symm, by rw [hinner.2, houter.2], by rw [hprevious], by rw [hprevious]⟩

/-- Scans that are in a literal after the same character. -/
theorem IsDeeper.of_isInside {mark : Char} (houter : outer.IsInside mark depth)
    (hinner : inner.IsInside mark (depth + k)) (hprevious : inner.previous = outer.previous) :
    IsDeeper k outer inner :=
  ⟨hinner.1.trans houter.1.symm, by rw [hinner.2, houter.2], by rw [hprevious], by rw [hprevious]⟩

/-- Scans go on side by side, as long as the outer one meets no unmatched bracket: there the
depth would be cut off. -/
theorem IsDeeper.step (h : IsDeeper k outer inner) (hmatched : ¬outer.IsUnmatched c) :
    IsDeeper k (outer.step c) (inner.step c) := by
  have hprevious : (inner.step c).previous = (outer.step c).previous := by simp
  rcases hliteral : outer.literal with _ | mark
  · have houter : outer.IsOutside outer.depth := ⟨hliteral, rfl⟩
    have hinner := h.isOutside houter
    by_cases hmark : c ∈ marks
    · exact .of_isInside (houter.step_mark hmark) (hinner.step_mark hmark) hprevious
    by_cases hopener : c ∈ openers
    · have hinner' := hinner.step_opener hopener
      rw [Nat.add_right_comm] at hinner'
      exact .of_isOutside (houter.step_opener hopener) hinner' hprevious
    by_cases hcloser : c ∈ closers ∧ ¬(c = '>' ∧ outer.previous = some '=')
    · have hopen : 0 < outer.depth :=
        Nat.pos_of_ne_zero fun hzero => hmatched ⟨⟨hliteral, hzero⟩, hcloser⟩
      have hinner' := hinner.step_closer hcloser.1 (by rw [h.arrow]; exact hcloser.2)
      rw [Nat.sub_add_comm hopen] at hinner'
      exact .of_isOutside (houter.step_closer hcloser.1 hcloser.2) hinner' hprevious
    · have harrow : c ∈ closers → c = '>' ∧ outer.previous = some '=' := fun hc =>
        by_contra fun hne => hcloser ⟨hc, hne⟩
      exact .of_isOutside (houter.step_other hmark hopener harrow)
        (hinner.step_other hmark hopener (by rwa [h.arrow])) hprevious
  · have houter : outer.IsInside mark outer.depth := ⟨hliteral, rfl⟩
    have hinner : inner.IsInside mark (outer.depth + k) := ⟨h.literal.trans hliteral, h.depth⟩
    by_cases hc : c = mark
    · subst hc
      by_cases hescape : outer.previous = some '\\'
      · exact .of_isInside (houter.step_escaped hescape)
          (hinner.step_escaped (h.escape.mpr hescape)) hprevious
      · exact .of_isOutside (houter.step_mark hescape)
          (hinner.step_mark (by rwa [Ne, h.escape])) hprevious
    · exact .of_isInside (houter.step_ne hc) (hinner.step_ne hc) hprevious

end Scan

/-! ## Places of a text -/

namespace Nowhere

variable {P : Scan → Char → Prop} {cs rest : List Char} {c : Char}

theorem of_append (h : Nowhere P (cs ++ rest)) : Nowhere P cs := by
  intro before c after heq
  refine h before c (after ++ rest) ?_
  rw [heq, List.append_assoc, List.cons_append]

theorem concat (h : Nowhere P cs) (hlast : ¬P (Scan.ofText cs) c) : Nowhere P (cs ++ [c]) := by
  intro before d after heq
  rcases after.eq_nil_or_concat with rfl | ⟨init, last, rfl⟩
  · obtain ⟨rfl, rfl⟩ : cs = before ∧ c = d := by simpa using heq
    exact hlast
  · refine h before d init ?_
    rw [List.concat_eq_append, ← List.cons_append, ← List.append_assoc] at heq
    exact (List.append_inj' heq rfl).1

end Nowhere

theorem nowhere_iff_take {P : Scan → Char → Prop} {cs : List Char} :
    Nowhere P cs ↔ ∀ i (h : i < cs.length), ¬P (Scan.ofText (cs.take i)) cs[i] := by
  constructor
  · intro hnowhere i h
    exact hnowhere _ _ (cs.drop (i + 1)) (by rw [List.getElem_cons_drop, List.take_append_drop])
  · rintro hnowhere before c after rfl
    simpa using hnowhere before.length (by simp)

instance {P : Scan → Char → Prop} [∀ s c, Decidable (P s c)] (cs : List Char) :
    Decidable (Nowhere P cs) :=
  decidable_of_iff _ nowhere_iff_take.symm

instance (cs : List Char) : Decidable (IsBalanced cs) :=
  decidable_of_iff (Nowhere Scan.IsUnmatched cs ∧ (Scan.ofText cs).IsOutside 0)
    ⟨fun h => ⟨h.1, h.2⟩, fun h => ⟨h.matched, h.closed⟩⟩

/-- A type is not compound when no separator stands at its outermost level. -/
theorem isCompound_eq_false_iff {type : String} :
    isCompound type = false ↔ Nowhere (fun s c => s.separates c = true) type.toList := by
  rw [← Bool.not_eq_true, isCompound, Scan.meetsSeparator_iff]
  constructor
  · exact fun h before c after heq hc => h ⟨before, c, after, heq, hc⟩
  · rintro h ⟨before, c, after, heq, hc⟩
    exact h before c after heq hc

/-! ## A text behind another one -/

section Behind

variable {k : Nat} {lead cs : List Char} {P : Scan → Char → Prop}

/-- Behind a text that leaves `k` brackets open, a text with matched brackets is scanned `k`
brackets deeper. -/
theorem Scan.IsDeeper.behind (hlead : Scan.IsDeeper k {} (Scan.ofText lead))
    (hmatched : Nowhere Scan.IsUnmatched cs) :
    Scan.IsDeeper k (Scan.ofText cs) (Scan.ofText (lead ++ cs)) := by
  induction cs using List.reverseRecOn with
  | nil => rwa [List.append_nil]
  | append_singleton cs c ih =>
    rw [← List.append_assoc, Scan.ofText_append, Scan.ofText_append]
    exact (ih hmatched.of_append).step (hmatched cs c [] rfl)

/-- Behind such a text, something is met nowhere when no deeper scan meets it. -/
theorem Nowhere.behind (hlead : Scan.IsDeeper k {} (Scan.ofText lead))
    (hmatched : Nowhere Scan.IsUnmatched cs) (hnone : Nowhere P lead)
    (hcs : Nowhere (fun s c => ∃ inner, Scan.IsDeeper k s inner ∧ P inner c) cs) :
    Nowhere P (lead ++ cs) := by
  induction cs using List.reverseRecOn with
  | nil => rwa [List.append_nil]
  | append_singleton cs c ih =>
    rw [← List.append_assoc]
    refine (ih hmatched.of_append hcs.of_append).concat fun hc => ?_
    exact hcs cs c [] rfl ⟨_, hlead.behind hmatched.of_append, hc⟩

/-- Brackets stay matched behind such a text. -/
theorem Nowhere.matched_behind (hlead : Scan.IsDeeper k {} (Scan.ofText lead))
    (hmatched : Nowhere Scan.IsUnmatched cs) (hnone : Nowhere Scan.IsUnmatched lead) :
    Nowhere Scan.IsUnmatched (lead ++ cs) :=
  .behind hlead hmatched hnone fun before c after heq ⟨_, hdeeper, hc⟩ =>
    hmatched before c after heq (hdeeper.isUnmatched hc)

end Behind

/-! ## Signs and parentheses -/

/-- The signs that nodes have, and no sign. -/
def signs : List String := ["", "?", "!", "...", "*"]

/-- A text opens and closes nothing, and separates nothing. -/
structure IsIdle (cs : List Char) : Prop where
  deeper : Scan.IsDeeper 0 {} (Scan.ofText cs)
  matched : Nowhere Scan.IsUnmatched cs
  whole : Nowhere (fun s c => s.separates c = true) cs

theorem isIdle_of_mem_signs : ∀ sign ∈ signs, IsIdle sign.toList := by
  intro sign hsign
  simp only [signs, List.mem_cons, List.not_mem_nil, or_false] at hsign
  rcases hsign with rfl | rfl | rfl | rfl | rfl
  all_goals exact ⟨⟨by decide, by decide, by decide, by decide⟩, by decide, by decide⟩

section Idle

variable {sign cs : List Char} (hsign : IsIdle sign)

include hsign

theorem IsIdle.isOutside : (Scan.ofText sign).IsOutside 0 := hsign.deeper.isOutside ⟨rfl, rfl⟩

/-- What follows a sign and a parenthesis is scanned one bracket deeper. -/
theorem IsIdle.opened : Scan.IsDeeper 1 {} (Scan.ofText (sign ++ ['('])) := by
  rw [Scan.ofText_append]
  have hopened := hsign.isOutside.step_opener (c := '(') (by decide)
  exact ⟨hopened.1, hopened.2, by simp, by simp⟩

theorem IsIdle.matched_opened : Nowhere Scan.IsUnmatched (sign ++ ['(']) :=
  hsign.matched.concat fun hopener => absurd hopener.2.1 (by decide)

/-- A balanced text stays balanced behind a sign. -/
theorem IsIdle.isBalanced_append (hcs : IsBalanced cs) : IsBalanced (sign ++ cs) :=
  ⟨hcs.matched.matched_behind hsign.deeper hsign.matched,
    (hsign.deeper.behind hcs.matched).isOutside hcs.closed⟩

/-- A balanced text stays balanced in parentheses: these match each other. -/
theorem IsIdle.isBalanced_parenthesized (hcs : IsBalanced cs) :
    IsBalanced (sign ++ ['('] ++ cs ++ [')']) := by
  have hinside : (Scan.ofText (sign ++ ['('] ++ cs)).IsOutside 1 :=
    (hsign.opened.behind hcs.matched).isOutside hcs.closed
  refine ⟨(hcs.matched.matched_behind hsign.opened hsign.matched_opened).concat ?_, ?_⟩
  · rintro ⟨houtside, -⟩
    exact absurd (houtside.2.symm.trans hinside.2) (by decide)
  · rw [Scan.ofText_append]
    exact hinside.step_closer (by decide) (by simp)

/-- Behind a sign a type has the separators that it has by itself. -/
theorem IsIdle.whole_append (hmatched : Nowhere Scan.IsUnmatched cs)
    (hcs : Nowhere (fun s c => s.separates c = true) cs) :
    Nowhere (fun s c => s.separates c = true) (sign ++ cs) := by
  refine .behind hsign.deeper hmatched hsign.whole fun before c after heq ⟨inner, hdeeper, hc⟩ => ?_
  obtain ⟨hseparator, hinner⟩ := Scan.separates_iff.mp hc
  refine hcs before c after heq (Scan.separates_iff.mpr ⟨hseparator, ?_⟩)
  exact ⟨hdeeper.literal.symm.trans hinner.1, hdeeper.depth.symm.trans hinner.2⟩

/-- In parentheses a type has no separator at its outermost level. -/
theorem IsIdle.whole_parenthesized (hcs : IsBalanced cs) :
    Nowhere (fun s c => s.separates c = true) (sign ++ ['('] ++ cs ++ [')']) := by
  refine .concat (.behind hsign.opened hcs.matched (hsign.whole.concat ?_) ?_) ?_
  · simp [Scan.separates_iff]
  · rintro before c after - ⟨inner, hdeeper, hc⟩
    have hzero := (Scan.separates_iff.mp hc).2.2
    rw [hdeeper.depth] at hzero
    omega
  · simp [Scan.separates_iff]

end Idle

/-! ## Wrapped types -/

/-- A sign makes parentheses necessary when it binds tightly, or when they are asked for. -/
theorem wrap_cases (parenthesize : Bool) (type sign : String) :
    (isCompound type = true ∧ wrap parenthesize type sign = sign ++ ("(" ++ type ++ ")")) ∨
      ((parenthesize = true ∨ sign = "?" ∨ sign = "!" → isCompound type = false) ∧
        wrap parenthesize type sign = sign ++ type) := by
  unfold wrap
  split
  next hdue =>
    exact .inl ⟨(Bool.and_eq_true_iff.mp hdue).1, rfl⟩
  next hnone =>
    refine .inr ⟨fun hdue => ?_, rfl⟩
    have hwanted : (parenthesize || bindsTightly sign) = true := by simpa [bindsTightly] using hdue
    simpa [hwanted] using hnone

section Wrap

variable (parenthesize : Bool) {type sign : String} (hbalanced : IsBalanced type.toList)
  (hsign : sign ∈ signs)

include hbalanced hsign

theorem isBalanced_wrap : IsBalanced (wrap parenthesize type sign).toList := by
  have hidle := isIdle_of_mem_signs sign hsign
  rcases wrap_cases parenthesize type sign with ⟨-, hwrap⟩ | ⟨-, hwrap⟩
  · rw [hwrap]
    simpa using hidle.isBalanced_parenthesized hbalanced
  · rw [hwrap]
    simpa using hidle.isBalanced_append hbalanced

theorem isCompound_wrap (hdue : parenthesize = true ∨ sign = "?" ∨ sign = "!") :
    isCompound (wrap parenthesize type sign) = false := by
  have hidle := isIdle_of_mem_signs sign hsign
  rw [isCompound_eq_false_iff]
  rcases wrap_cases parenthesize type sign with ⟨-, hwrap⟩ | ⟨hsimple, hwrap⟩
  · rw [hwrap]
    simpa using hidle.whole_parenthesized hbalanced
  · rw [hwrap, String.toList_append]
    exact hidle.whole_append hbalanced.matched (isCompound_eq_false_iff.mp (hsimple hdue))

/-- **A sign in front of a type whose brackets are balanced.** The type follows the sign, between
one pair of parentheses if it is compound, or as it is. Either way the brackets are balanced
again. When parentheses are asked for, or the sign binds tightly, what comes out is never
compound, so it is left as it is when it is wrapped once more. -/
theorem wrap_keeps_balance :
    (wrap parenthesize type sign = sign ++ type ∨
        isCompound type = true ∧ wrap parenthesize type sign = sign ++ ("(" ++ type ++ ")")) ∧
      IsBalanced (wrap parenthesize type sign).toList ∧
      (parenthesize = true ∨ sign = "?" ∨ sign = "!" →
        isCompound (wrap parenthesize type sign) = false) ∧
      (parenthesize = true →
        wrap true (wrap parenthesize type sign) "" = wrap parenthesize type sign) := by
  refine ⟨?_, isBalanced_wrap parenthesize hbalanced hsign,
    isCompound_wrap parenthesize hbalanced hsign, fun hasked => ?_⟩
  · rcases wrap_cases parenthesize type sign with hcompound | ⟨-, hwrap⟩
    · exact .inr hcompound
    · exact .inl hwrap
  · have hsimple := isCompound_wrap parenthesize hbalanced hsign (.inl hasked)
    rcases wrap_cases true (wrap parenthesize type sign) "" with ⟨hcompound, -⟩ | ⟨-, hwrap⟩
    · exact absurd hcompound (by simp [hsimple])
    · rw [hwrap, String.empty_append]

end Wrap

/-- A union of a literal that holds a separator and a function, optional. -/
theorem wrap_keeps_balance_of_union :
    IsBalanced "'|' | ((a: A<B>) => [C])".toList ∧ "?" ∈ signs ∧
      wrap false "'|' | ((a: A<B>) => [C])" "?" = "?('|' | ((a: A<B>) => [C]))" ∧
      IsBalanced "?('|' | ((a: A<B>) => [C]))".toList ∧
      isCompound "?('|' | ((a: A<B>) => [C]))" = false := by
  have hbalanced : IsBalanced "'|' | ((a: A<B>) => [C])".toList := by decide
  have hsign : "?" ∈ signs := by decide
  have hwrap : wrap false "'|' | ((a: A<B>) => [C])" "?" = "?('|' | ((a: A<B>) => [C]))" := by
    decide
  obtain ⟨-, hagain, hsimple, -⟩ := wrap_keeps_balance false hbalanced hsign
  rw [hwrap] at hagain hsimple
  exact ⟨hbalanced, hsign, hwrap, hagain, hsimple (.inr (.inl rfl))⟩

end DocHeader.TypeText

/-! ## Types of nodes -/

namespace DocHeader.Focus

theorem typeSign_mem_signs (f : Focus) : f.typeSign ∈ TypeText.signs := by
  unfold typeSign
  repeat' split
  all_goals decide

/-- A balanced type of a node stays balanced with the sign of the node. -/
theorem isBalanced_renderType (parenthesize : Bool) {f : Focus}
    (hbalanced : TypeText.IsBalanced f.typeText.toList) :
    TypeText.IsBalanced (f.renderType parenthesize).toList :=
  TypeText.isBalanced_wrap parenthesize hbalanced f.typeSign_mem_signs

end DocHeader.Focus

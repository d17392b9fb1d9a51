import DocHeader.TypeText.Basic
import Mathlib.Data.List.Infix

/-!
# Compound types

A type is a union or an intersection when a separator stands outside of all brackets and string
literals. In a literal a backslash takes the next character along, whatever that is. The scan of
a type looks back one character only, so it takes the mark at the end of a literal for one that
is escaped when the last character of the literal is a backslash. It follows the brackets and
literals of all other types.

## Main definitions

* `TypeText.LiteralBody` — what can stand between the marks of a literal.
* `TypeText.Outside` — a text that ends outside of literals, with brackets open.
* `TypeText.IsSeparated` — a separator stands outside of brackets and literals.
* `TypeText.EndsPlainly` — no literal of a text ends in a backslash.
-/

namespace DocHeader.TypeText

/-- Opening brackets. -/
def openers : List Char := ['(', '[', '\x7b', '<']

/-- Closing brackets. -/
def closers : List Char := [')', ']', '\x7d', '>']

/-- The marks of literals. -/
def marks : List Char := ['\'', '"', '\x60']

/-- What stands between the marks of a literal: a backslash with any character after it, or any
character but a backslash and the mark. -/
inductive LiteralBody (mark : Char) : List Char → Prop where
  | nil : LiteralBody mark []
  | escape {body : List Char} (c : Char) (hbody : LiteralBody mark body) :
    LiteralBody mark (body ++ ['\\', c])
  | char {body : List Char} {c : Char} (hmark : c ≠ mark) (hescape : c ≠ '\\')
    (hbody : LiteralBody mark body) : LiteralBody mark (body ++ [c])

/-- The closing bracket after a text is the head of an arrow. -/
def IsArrowHead (before : List Char) (c : Char) : Prop := c = '>' ∧ before.getLast? = some '='

instance (before : List Char) (c : Char) : Decidable (IsArrowHead before c) :=
  inferInstanceAs (Decidable (c = '>' ∧ before.getLast? = some '='))

/-- A text ends outside of literals, with so many brackets open. A closing bracket without an
opening one counts for nothing, and the head of an arrow is none. -/
inductive Outside : List Char → Nat → Prop where
  | nil : Outside [] 0
  | literal {before body : List Char} {depth : Nat} {mark : Char}
    (hbefore : Outside before depth) (hmark : mark ∈ marks) (hbody : LiteralBody mark body) :
    Outside (before ++ mark :: (body ++ [mark])) depth
  | opener {before : List Char} {depth : Nat} {c : Char} (hbefore : Outside before depth)
    (hc : c ∈ openers) : Outside (before ++ [c]) (depth + 1)
  | closer {before : List Char} {depth : Nat} {c : Char} (hbefore : Outside before depth)
    (hc : c ∈ closers) (harrow : ¬IsArrowHead before c) : Outside (before ++ [c]) (depth - 1)
  | other {before : List Char} {depth : Nat} {c : Char} (hbefore : Outside before depth)
    (hmark : c ∉ marks) (hopener : c ∉ openers) (hcloser : c ∈ closers → IsArrowHead before c) :
    Outside (before ++ [c]) depth

/-- A separator stands in a text outside of all brackets and literals. -/
def IsSeparated (cs : List Char) : Prop :=
  ∃ before c after, cs = before ++ c :: after ∧ (c = '|' ∨ c = '&') ∧ Outside before 0

/-- No literal of a text has a backslash as its last character. -/
def EndsPlainly (cs : List Char) : Prop :=
  ∀ before mark body after depth, cs = before ++ mark :: (body ++ [mark]) ++ after →
    Outside before depth → mark ∈ marks → LiteralBody mark body → body.getLast? ≠ some '\\'

namespace Scan

/-- What is open after a text. -/
def ofText (cs : List Char) : Scan := cs.foldl step {}

/-- No literal is open, and so many brackets are. -/
def IsOutside (s : Scan) (depth : Nat) : Prop := s.literal = none ∧ s.depth = depth

/-- A literal with this mark is open, and so many brackets are. -/
def IsInside (s : Scan) (mark : Char) (depth : Nat) : Prop :=
  s.literal = some mark ∧ s.depth = depth

/-- A scan follows the brackets and the literals of a text: at each place it is outside of
literals just when the text is, and knows how many brackets are open there. -/
def Follows (cs : List Char) : Prop :=
  ∀ before after, cs = before ++ after →
    ∀ depth, (ofText before).IsOutside depth ↔ Outside before depth

/-! ## One character -/

theorem ofText_append (cs : List Char) (c : Char) : ofText (cs ++ [c]) = (ofText cs).step c := by
  simp [ofText]

@[simp] theorem previous_step (s : Scan) (c : Char) : (s.step c).previous = some c := by
  unfold step
  repeat' split
  all_goals rfl

/-- A scan remembers the last character. -/
theorem previous_ofText (cs : List Char) : (ofText cs).previous = cs.getLast? := by
  rcases cs.eq_nil_or_concat with rfl | ⟨init, last, rfl⟩
  · rfl
  · rw [List.concat_eq_append, ofText_append, previous_step, List.getLast?_concat]

end Scan

theorem isQuotation_iff {c : Char} : isQuotation c = true ↔ c ∈ marks := by
  simp [isQuotation, marks, or_assoc]

theorem isOpener_iff {c : Char} : isOpener c = true ↔ c ∈ openers := by
  simp [isOpener, openers, or_assoc]

theorem isCloser_iff {c : Char} : isCloser c = true ↔ c ∈ closers := by
  simp [isCloser, closers, or_assoc]

/-! The characters that count are of one kind each. -/

theorem not_mem_marks_of_opener : ∀ c ∈ openers, c ∉ marks := by simp [openers, marks]

theorem not_mem_marks_of_closer : ∀ c ∈ closers, c ∉ marks := by simp [closers, marks]

theorem not_mem_openers_of_closer : ∀ c ∈ closers, c ∉ openers := by simp [closers, openers]

theorem ne_backslash_of_mark : ∀ c ∈ marks, c ≠ '\\' := by simp [marks]

namespace Scan

variable {s : Scan} {mark c : Char} {depth : Nat}

/-- A mark opens a literal. -/
theorem IsOutside.step_mark (hs : s.IsOutside depth) (hc : c ∈ marks) :
    (s.step c).IsInside c depth := by
  simp [step, hs.1, isQuotation_iff.mpr hc, IsInside, hs.2]

/-- An opening bracket counts. -/
theorem IsOutside.step_opener (hs : s.IsOutside depth) (hc : c ∈ openers) :
    (s.step c).IsOutside (depth + 1) := by
  simp [step, hs.1, isQuotation_iff, not_mem_marks_of_opener c hc, isOpener_iff.mpr hc, IsOutside,
    hs.2]

/-- A closing bracket counts, unless it is the head of an arrow. -/
theorem IsOutside.step_closer (hs : s.IsOutside depth) (hc : c ∈ closers)
    (harrow : ¬(c = '>' ∧ s.previous = some '=')) : (s.step c).IsOutside (depth - 1) := by
  have hhead : (c == '>' && s.previous == some '=') = false := by simpa using harrow
  simp [step, hs.1, isQuotation_iff, not_mem_marks_of_closer c hc, isOpener_iff,
    not_mem_openers_of_closer c hc, isCloser_iff.mpr hc, hhead, IsOutside, hs.2]

/-- All other characters count for nothing. -/
theorem IsOutside.step_other (hs : s.IsOutside depth) (hmark : c ∉ marks) (hopener : c ∉ openers)
    (hcloser : c ∈ closers → c = '>' ∧ s.previous = some '=') : (s.step c).IsOutside depth := by
  have hhead : ¬(isCloser c = true ∧ (c = '>' → ¬s.previous = some '=')) := by
    rw [isCloser_iff]
    exact fun ⟨hc, hne⟩ => hne (hcloser hc).1 (hcloser hc).2
  simp [step, hs.1, isQuotation_iff, hmark, isOpener_iff, hopener, ← imp_iff_not_or, hhead,
    IsOutside, hs.2]

/-- A literal stays open at a character that is not its mark. -/
theorem IsInside.step_ne (hs : s.IsInside mark depth) (hc : c ≠ mark) :
    (s.step c).IsInside mark depth := by
  simp [step, hs.1, hc, IsInside, hs.2]

/-- A literal stays open at every character after a backslash. -/
theorem IsInside.step_escaped (hs : s.IsInside mark depth) (hprevious : s.previous = some '\\') :
    (s.step c).IsInside mark depth := by
  simp [step, hs.1, hprevious, IsInside, hs.2]

/-- The mark of a literal ends it, unless a backslash stands before the mark. -/
theorem IsInside.step_mark (hs : s.IsInside mark depth) (hprevious : s.previous ≠ some '\\') :
    (s.step mark).IsOutside depth := by
  simp [step, hs.1, hprevious, IsOutside, hs.2]

theorem IsInside.not_isOutside (hs : s.IsInside mark depth) {d : Nat} : ¬s.IsOutside d := by
  simp [IsOutside, hs.1]

/-! ## One literal -/

theorem ofText_body (before body : List Char) (mark c : Char) :
    ofText (before ++ mark :: (body ++ [c])) = (ofText (before ++ mark :: body)).step c := by
  rw [← ofText_append, List.append_assoc, List.cons_append]

/-- A literal stays open all through what can stand between its marks. -/
theorem isInside_ofText_body {before body : List Char} (hbody : LiteralBody mark body)
    (hmark : mark ∈ marks) (hbefore : (ofText before).IsOutside depth) :
    (ofText (before ++ mark :: body)).IsInside mark depth := by
  induction hbody with
  | nil =>
    rw [ofText_append]
    exact hbefore.step_mark hmark
  | @escape body c _ ih =>
    have hopen := ih.step_ne (ne_backslash_of_mark mark hmark).symm
    rw [List.append_cons body, ofText_body, ofText_body]
    exact hopen.step_escaped (previous_step _ _)
  | char hne _ _ ih =>
    rw [ofText_body]
    exact ih.step_ne hne

/-- The last character before a place in a literal is a backslash just when the last one of the
literal is: its mark is none. -/
theorem previous_ofText_body {before body : List Char} (hmark : mark ∈ marks) :
    (ofText (before ++ mark :: body)).previous = some '\\' ↔ body.getLast? = some '\\' := by
  rw [previous_ofText, List.getLast?_append, List.getLast?_cons]
  cases hlast : body.getLast? with
  | none => simp [ne_backslash_of_mark mark hmark]
  | some last => simp

/-- A literal ends at its mark, for a scan, just when its last character is no backslash. -/
theorem isOutside_ofText_literal {before body : List Char} (hbody : LiteralBody mark body)
    (hmark : mark ∈ marks) (hbefore : (ofText before).IsOutside depth) :
    (ofText (before ++ mark :: (body ++ [mark]))).IsOutside depth ↔
      body.getLast? ≠ some '\\' := by
  have hinside := isInside_ofText_body hbody hmark hbefore
  rw [ofText_body, Ne, ← previous_ofText_body hmark]
  constructor
  · intro hout hprevious
    exact (hinside.step_escaped hprevious).not_isOutside hout
  · intro hprevious
    exact hinside.step_mark hprevious

end Scan

/-! ## A whole text -/

/-- The texts a text begins with have the same literals. -/
theorem EndsPlainly.of_append {cs rest : List Char} (h : EndsPlainly (cs ++ rest)) :
    EndsPlainly cs := by
  intro before mark body after depth heq
  refine h before mark body (after ++ rest) depth ?_
  rw [heq, List.append_assoc]

/-- What stands in a literal ends in a backslash only when another one escapes it. -/
theorem LiteralBody.eq_append_of_getLast? {mark : Char} {body : List Char}
    (hbody : LiteralBody mark body) (hlast : body.getLast? = some '\\') :
    ∃ init, body = init ++ ['\\', '\\'] := by
  cases hbody with
  | nil => simp at hlast
  | @escape init c _ =>
    obtain rfl : c = '\\' := by simpa using hlast
    exact ⟨init, rfl⟩
  | char _ hescape _ =>
    rw [List.getLast?_concat, Option.some.injEq] at hlast
    exact absurd hlast hescape

/-- A text without two backslashes next to each other ends its literals plainly. -/
theorem endsPlainly_of_lone_backslashes {cs : List Char} (h : ¬['\\', '\\'] <:+: cs) :
    EndsPlainly cs := by
  rintro before mark body after depth rfl _ _ hbody hlast
  obtain ⟨init, rfl⟩ := hbody.eq_append_of_getLast? hlast
  exact h ⟨before ++ mark :: init, mark :: after, by simp⟩

namespace Scan

/-- Where a text is outside of literals, so is the scan. -/
theorem isOutside_ofText {cs : List Char} {depth : Nat} (hout : Outside cs depth)
    (hplain : EndsPlainly cs) : (ofText cs).IsOutside depth := by
  induction hout with
  | nil => exact ⟨rfl, rfl⟩
  | @literal before body depth mark hbefore hmark hbody ih =>
    refine (isOutside_ofText_literal hbody hmark (ih hplain.of_append)).mpr ?_
    exact hplain before mark body [] depth (by simp) hbefore hmark hbody
  | opener _ hc ih =>
    rw [ofText_append]
    exact (ih hplain.of_append).step_opener hc
  | closer _ hc harrow ih =>
    rw [ofText_append]
    exact (ih hplain.of_append).step_closer hc (by rwa [previous_ofText])
  | other _ hmark hopener hcloser ih =>
    rw [ofText_append]
    exact (ih hplain.of_append).step_other hmark hopener (by rwa [previous_ofText])

/-- Where a scan of a text is: outside of literals, as the text is, or in a literal, which may
have a backslash whose character is to come. -/
inductive At (cs : List Char) : Prop where
  | outside {depth : Nat} (hscan : (ofText cs).IsOutside depth) (hout : Outside cs depth)
  | inside {before body : List Char} {mark : Char} {depth : Nat} (heq : cs = before ++ mark :: body)
    (hscan : (ofText cs).IsInside mark depth) (hbefore : Outside before depth)
    (hmark : mark ∈ marks) (hbody : LiteralBody mark body)
  | escape {before body : List Char} {mark : Char} {depth : Nat}
    (heq : cs = before ++ mark :: (body ++ ['\\'])) (hscan : (ofText cs).IsInside mark depth)
    (hbefore : Outside before depth) (hmark : mark ∈ marks) (hbody : LiteralBody mark body)

/-- One more character outside of literals. -/
theorem At.step_outside {cs : List Char} {c : Char} {depth : Nat}
    (hscan : (ofText cs).IsOutside depth) (hout : Outside cs depth) : At (cs ++ [c]) := by
  by_cases hmark : c ∈ marks
  · refine .inside rfl ?_ hout hmark .nil
    rw [ofText_append]
    exact hscan.step_mark hmark
  by_cases hopener : c ∈ openers
  · refine .outside ?_ (hout.opener hopener)
    rw [ofText_append]
    exact hscan.step_opener hopener
  by_cases hcloser : c ∈ closers ∧ ¬IsArrowHead cs c
  · refine .outside ?_ (hout.closer hcloser.1 hcloser.2)
    rw [ofText_append]
    exact hscan.step_closer hcloser.1 (by rw [previous_ofText]; exact hcloser.2)
  · have harrow : c ∈ closers → IsArrowHead cs c := fun hc => by_contra fun h => hcloser ⟨hc, h⟩
    refine .outside ?_ (hout.other hmark hopener harrow)
    rw [ofText_append]
    exact hscan.step_other hmark hopener (by rwa [previous_ofText])

/-- One more character in a literal. Its mark ends it, if the text ends its literals plainly. -/
theorem At.step_inside {before body : List Char} {mark c : Char} {depth : Nat}
    (hscan : (ofText (before ++ mark :: body)).IsInside mark depth) (hbefore : Outside before depth)
    (hmark : mark ∈ marks) (hbody : LiteralBody mark body)
    (hplain : EndsPlainly (before ++ mark :: (body ++ [c]))) :
    At (before ++ mark :: (body ++ [c])) := by
  by_cases hc : c = mark
  · subst hc
    have hlast := hplain before c body [] depth (by simp) hbefore hmark hbody
    have hscan := isOutside_ofText hbefore hplain.of_append
    exact .outside ((isOutside_ofText_literal hbody hmark hscan).mpr hlast)
      (hbefore.literal hmark hbody)
  have hstep : (ofText (before ++ mark :: (body ++ [c]))).IsInside mark depth := by
    rw [ofText_body]
    exact hscan.step_ne hc
  by_cases hescape : c = '\\'
  · subst hescape
    exact .escape rfl hstep hbefore hmark hbody
  · exact .inside rfl hstep hbefore hmark (hbody.char hc hescape)

/-- The place of a scan in a text whose literals end plainly. -/
theorem at_of_endsPlainly {cs : List Char} (hplain : EndsPlainly cs) : At cs := by
  induction cs using List.reverseRecOn with
  | nil => exact .outside ⟨rfl, rfl⟩ .nil
  | append_singleton cs c ih =>
    cases ih hplain.of_append with
    | outside hscan hout => exact At.step_outside hscan hout
    | inside heq hscan hbefore hmark hbody =>
      subst heq
      rw [List.append_assoc, List.cons_append] at hplain ⊢
      exact At.step_inside hscan hbefore hmark hbody hplain
    | @escape before body mark depth heq hscan hbefore hmark hbody =>
      have hescape : (ofText cs).previous = some '\\' := by
        rw [heq, previous_ofText_body hmark, List.getLast?_concat]
      refine .inside (by simp [heq]) ?_ hbefore hmark (hbody.escape c)
      rw [ofText_append]
      exact hscan.step_escaped hescape

/-- A scan follows the texts whose literals end plainly, and no others. -/
theorem follows_iff {cs : List Char} : Follows cs ↔ EndsPlainly cs := by
  constructor
  · intro hfollows before mark body after depth heq hbefore hmark hbody
    have hscan := (hfollows before _ (heq.trans (List.append_assoc _ _ _)) depth).mpr hbefore
    rw [← isOutside_ofText_literal hbody hmark hscan, hfollows _ after heq]
    exact hbefore.literal hmark hbody
  · rintro hplain before after rfl depth
    have hplain := hplain.of_append
    refine ⟨fun hscan => ?_, fun hout => isOutside_ofText hout hplain⟩
    cases at_of_endsPlainly hplain with
    | outside hscan' hout => rwa [← hscan.2, hscan'.2]
    | inside _ hinside => exact absurd hscan hinside.not_isOutside
    | escape _ hinside => exact absurd hscan hinside.not_isOutside

/-- A separator is met from a place on when there is one that counts at its own place. -/
theorem meetsSeparator_iff {cs : List Char} (s : Scan) : s.meetsSeparator cs = true ↔
    ∃ before c after, cs = before ++ c :: after ∧ (before.foldl step s).separates c = true := by
  induction cs generalizing s with
  | nil => simp [meetsSeparator]
  | cons head tail ih =>
    rw [meetsSeparator, Bool.or_eq_true, ih]
    constructor
    · rintro (hhead | ⟨before, c, after, rfl, hc⟩)
      · exact ⟨[], head, tail, rfl, hhead⟩
      · exact ⟨head :: before, c, after, rfl, hc⟩
    · rintro ⟨before, c, after, heq, hc⟩
      cases before with
      | nil =>
        obtain ⟨rfl, rfl⟩ : head = c ∧ tail = after := by simpa using heq
        exact .inl hc
      | cons first before =>
        obtain ⟨rfl, rfl⟩ : head = first ∧ tail = before ++ c :: after := by simpa using heq
        exact .inr ⟨before, c, after, rfl, hc⟩

/-- A separator counts for a scan that is outside of all brackets and literals. -/
theorem separates_iff {s : Scan} {c : Char} :
    s.separates c = true ↔ (c = '|' ∨ c = '&') ∧ s.IsOutside 0 := by
  simp [separates, isSeparator, IsOutside, and_comm]

end Scan

/-- A type whose literals all end in another character than a backslash is compound just when a
separator stands in it outside of all brackets and literals. These are the types whose brackets
and literals are followed. -/
theorem isCompound_iff_isSeparated (type : String) :
    (EndsPlainly type.toList → (isCompound type = true ↔ IsSeparated type.toList)) ∧
      (Scan.Follows type.toList ↔ EndsPlainly type.toList) := by
  refine ⟨fun hplain => ?_, Scan.follows_iff⟩
  rw [isCompound, Scan.meetsSeparator_iff]
  have hfollows := Scan.follows_iff.mpr hplain
  constructor
  · rintro ⟨before, c, after, heq, hc⟩
    obtain ⟨hc, hscan⟩ := Scan.separates_iff.mp hc
    exact ⟨before, c, after, heq, hc, (hfollows before (c :: after) heq 0).mp hscan⟩
  · rintro ⟨before, c, after, heq, hc, hout⟩
    have hscan := (hfollows before (c :: after) heq 0).mpr hout
    exact ⟨before, c, after, heq, Scan.separates_iff.mpr ⟨hc, hscan⟩⟩

theorem isSeparated_escapedMark : IsSeparated "'it\\'s' | Map<string, () => A>".toList :=
  ((isCompound_iff_isSeparated _).1 (endsPlainly_of_lone_backslashes (by decide))).mp (by decide)

/-- A union of two literals, the first of a backslash alone, is taken for no union: for the scan
its first literal ends where the second one begins. -/
theorem isCompound_escapedBackslash :
    IsSeparated "'\\\\' | '/'".toList ∧ isCompound "'\\\\' | '/'" = false := by
  have hliteral : Outside ([] ++ '\'' :: (['\\', '\\'] ++ ['\''])) 0 :=
    .literal .nil (by decide) (.escape '\\' .nil)
  have hblank : Outside ("'\\\\'".toList ++ [' ']) 0 :=
    .other hliteral (by decide) (by decide) (by decide)
  exact ⟨⟨"'\\\\' ".toList, '|', " '/'".toList, by decide, .inl rfl, hblank⟩, by decide⟩

end DocHeader.TypeText

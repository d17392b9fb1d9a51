import DocHeader.Proofs.Text.Ends
import DocHeader.Text.Blank

/-!
# Lines and blanks of a text that is put together

A text is split at more characters than the line feed, and trimmed of more than spaces. Texts
without such characters come out of a text as they were put into it.

## Main statements

* `Text.lines_flatMap` — texts that each follow a line feed are lines.
* `Text.exists_lines_append` — the first line begins with what holds no boundary.
* `Text.trim_of_isCore` — a text is trimmed of the blanks around it.
-/

namespace DocHeader.Text

variable {xs ys core : List Char}

theorem lines_cons_of_free {c : Char} (hc : isLineBoundary c = false) (cs : List Char) :
    lines (c :: cs) = consToFirst c (lines cs) := by
  have hreturn : c ≠ '\r' := by
    rintro rfl
    exact absurd hc (by decide)
  rw [lines, if_neg (by simp [hc])]
  exact fun _ heq _ => hreturn heq

theorem lines_newline_cons (cs : List Char) : lines ('\n' :: cs) = [] :: lines cs := by
  rw [lines, if_pos (by decide)]
  simp

/-- A line ends at a line feed. -/
theorem lines_append_newline (hxs : ∀ c ∈ xs, isLineBoundary c = false) (ys : List Char) :
    lines (xs ++ '\n' :: ys) = xs :: lines ys := by
  induction xs with
  | nil => exact lines_newline_cons ys
  | cons c xs ih =>
    obtain ⟨hc, hxs⟩ := List.forall_mem_cons.mp hxs
    rw [List.cons_append, lines_cons_of_free hc, ih hxs]
    rfl

/-- The first line begins with what holds no boundary. -/
theorem exists_lines_append (hxs : ∀ c ∈ xs, isLineBoundary c = false) (hsome : xs ≠ [])
    (ys : List Char) : ∃ more rest, lines (xs ++ ys) = (xs ++ more) :: rest := by
  induction xs with
  | nil => exact absurd rfl hsome
  | cons c xs ih =>
    obtain ⟨hc, hxs⟩ := List.forall_mem_cons.mp hxs
    rw [List.cons_append, lines_cons_of_free hc]
    by_cases hnil : xs = []
    · subst hnil
      cases hlines : lines ys with
      | nil => exact ⟨[], [], by simp [hlines, consToFirst]⟩
      | cons line rest => exact ⟨line, rest, by simp [hlines, consToFirst]⟩
    · obtain ⟨more, rest, hlines⟩ := ih hxs hnil
      exact ⟨more, rest, by rw [hlines]; rfl⟩

/-- A text without a boundary is a line. -/
theorem lines_of_free (hxs : ∀ c ∈ xs, isLineBoundary c = false) (hsome : xs ≠ []) :
    lines xs = [xs] := by
  induction xs with
  | nil => exact absurd rfl hsome
  | cons c xs ih =>
    obtain ⟨hc, hxs⟩ := List.forall_mem_cons.mp hxs
    rw [lines_cons_of_free hc]
    by_cases hnil : xs = []
    · subst hnil
      rfl
    · rw [ih hxs hnil]
      rfl

/-- Texts that each follow a line feed are lines. -/
theorem lines_flatMap {rows : List (List Char)} (hxs : ∀ c ∈ xs, isLineBoundary c = false)
    (hrows : ∀ row ∈ rows, ∀ c ∈ row, isLineBoundary c = false) (ys : List Char) :
    lines (xs ++ rows.flatMap ('\n' :: ·) ++ '\n' :: ys) = xs :: (rows ++ lines ys) := by
  induction rows generalizing xs with
  | nil => simpa using lines_append_newline hxs ys
  | cons row rows ih =>
    obtain ⟨hrow, hrows⟩ := List.forall_mem_cons.mp hrows
    have hrest := ih hrow hrows
    rw [List.flatMap_cons, List.cons_append, List.append_assoc, List.cons_append,
      lines_append_newline hxs, hrest, List.cons_append]

/-- A text is trimmed of the blanks around it. -/
theorem trim_of_isCore (h : IsCore (fun c => isBlank c = true) xs core) : trim xs = core :=
  dropEnds_of_isCore h

/-- What does not end in a blank is not trimmed there. -/
theorem trimEnd_of_last (h : ∀ c ∈ xs.getLast?, isBlank c = false) : trimEnd xs = xs := by
  have hlast (hsome : xs ≠ []) : ¬isBlank (xs.getLast hsome) = true := by
    simp [h _ (List.getLast?_eq_some_getLast hsome)]
  exact List.rdropWhile_eq_self_iff.mpr hlast

end DocHeader.Text

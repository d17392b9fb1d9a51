import DocHeader.Text.Search
import Mathlib.Data.List.Basic

/-!
# Splitting at a character

How a text that is put together splits into its lines, or at any other character.

## Main statements

* `splitOn_append_cons` — a separator between two texts splits them.
* `splitOn_flatMap` — pieces that each follow a separator split one by one.
* `splitOn_append_left`, `splitOn_append_of_notMem` — what holds no separator only makes the first
  or the last piece longer.
* `splitLast_eq_some` — a text is cut at its last separator.
-/

namespace DocHeader

variable {c : Char} {x : List Char} {pieces : List (List Char)}

theorem splitOn_append_cons (c : Char) (x y : List Char) :
    (x ++ c :: y).splitOn c = x.splitOn c ++ y.splitOn c := by
  rw [List.splitOn_eq_splitOnP, List.splitOnP_append_cons _ _ (by simp),
    ← List.splitOn_eq_splitOnP, ← List.splitOn_eq_splitOnP]

theorem splitOn_of_notMem (h : c ∉ x) : x.splitOn c = [x] := by
  have hsingle : ([c].intercalate [x]).splitOn c = [x] :=
    List.splitOn_intercalate c (by simpa using h) (by simp)
  simpa using hsingle

/-- The first separator tells what comes before it and what comes after. -/
theorem append_cons_inj {y a b : List Char} (hx : c ∉ x) (hy : c ∉ y)
    (h : x ++ c :: a = y ++ c :: b) : x = y ∧ a = b := by
  have hsplit := congrArg (List.splitOn c) h
  rw [splitOn_append_cons, splitOn_append_cons, splitOn_of_notMem hx, splitOn_of_notMem hy]
    at hsplit
  obtain ⟨rfl, -⟩ := List.cons.inj hsplit
  exact ⟨rfl, by simpa using h⟩

/-- A text is split from its end: a separator begins a piece, any other character is put in front
of the first one. -/
theorem splitOn_cons (c d : Char) (x : List Char) : (d :: x).splitOn c =
    if d = c then [] :: x.splitOn c else (x.splitOn c).modifyHead (d :: ·) := by
  rw [List.splitOn_eq_splitOnP, List.splitOnP_cons_eq_if_modifyHead, ← List.splitOn_eq_splitOnP]
  simp only [beq_iff_eq]

/-- Pieces that are joined, each behind its separator. -/
theorem toList_joinWith {separator : String} (hseparator : separator.toList = [c]) (first : String)
    (rest : List String) : (joinWith separator (first :: rest)).toList =
      first.toList ++ rest.flatMap fun piece => c :: piece.toList := by
  induction rest generalizing first with
  | nil => simp [joinWith]
  | cons second rest ih =>
    rw [joinWith, String.toList_append, String.toList_append, hseparator, ih, List.flatMap_cons]
    · simp
    · simp

theorem toList_joinWith_cons {separator : String} (hseparator : separator.toList = [c])
    (first second : String) (rest : List String) :
    (joinWith separator (first :: second :: rest)).toList =
      first.toList ++ c :: (joinWith separator (second :: rest)).toList := by
  rw [toList_joinWith hseparator, toList_joinWith hseparator, List.flatMap_cons, List.cons_append]

/-- What is done to the first of several texts. -/
theorem forall_mem_modifyHead {P Q : List Char → Prop} {f : List Char → List Char}
    (h : ∀ piece ∈ pieces, P piece) (hfirst : ∀ piece, P piece → Q (f piece))
    (hrest : ∀ piece, P piece → Q piece) : ∀ piece ∈ pieces.modifyHead f, Q piece := by
  cases pieces with
  | nil => exact List.forall_mem_nil _
  | cons first rest =>
    obtain ⟨hhead, htail⟩ := List.forall_mem_cons.mp h
    exact List.forall_mem_cons.mpr ⟨hfirst first hhead, fun piece h => hrest piece (htail piece h)⟩

/-- No piece holds the separator. -/
theorem notMem_of_mem_splitOn (c : Char) (x : List Char) : ∀ piece ∈ x.splitOn c, c ∉ piece := by
  induction x with
  | nil => simp
  | cons d x ih =>
    rw [splitOn_cons]
    split
    next => exact List.forall_mem_cons.mpr ⟨List.not_mem_nil, ih⟩
    next hne =>
      exact forall_mem_modifyHead ih (fun piece h => by simp [Ne.symm hne, h]) fun _ h => h

/-- The pieces of a text are parts of it. -/
theorem sublist_of_mem_splitOn (c : Char) (x : List Char) :
    ∀ piece ∈ x.splitOn c, piece.Sublist x := by
  induction x with
  | nil => simp
  | cons d x ih =>
    rw [splitOn_cons]
    split
    next => exact List.forall_mem_cons.mpr ⟨List.nil_sublist _, fun piece h => (ih piece h).cons d⟩
    next => exact forall_mem_modifyHead ih (fun _ h => h.cons_cons d) fun _ h => h.cons d

/-- There is one piece more than there are separators. -/
theorem length_splitOn (c : Char) (x : List Char) : (x.splitOn c).length = x.count c + 1 := by
  induction x with
  | nil => simp
  | cons d x ih =>
    rw [splitOn_cons]
    by_cases hd : d = c
    · simp [hd, ih]
    · simp [hd, ih]

/-- The pieces of a text make up the text again, each in front of a separator. -/
theorem flatMap_splitOn_append (c : Char) (x : List Char) :
    ((x.splitOn c).flatMap fun piece => piece ++ [c]) = x ++ [c] := by
  induction x with
  | nil => simp
  | cons d x ih =>
    obtain ⟨first, rest, hsplit⟩ := List.exists_cons_of_ne_nil (List.splitOn_ne_nil c x)
    rw [splitOn_cons]
    by_cases hd : d = c
    · rw [if_pos hd, List.flatMap_cons, ih, hd]
      rfl
    · rw [hsplit, List.flatMap_cons] at ih
      rw [if_neg hd, hsplit, List.modifyHead_cons, List.flatMap_cons, List.cons_append,
        List.cons_append, ih, List.cons_append]

/-- A text splits at each piece that follows a separator. -/
theorem splitOn_flatMap (c : Char) (x : List Char) (pieces : List (List Char)) :
    (x ++ pieces.flatMap (c :: ·)).splitOn c = x.splitOn c ++ pieces.flatMap (·.splitOn c) := by
  induction pieces generalizing x with
  | nil => simp
  | cons piece rest ih =>
    rw [List.flatMap_cons, List.flatMap_cons, List.cons_append, splitOn_append_cons, ih]

theorem flatMap_splitOn_of_notMem (h : ∀ piece ∈ pieces, c ∉ piece) :
    pieces.flatMap (·.splitOn c) = pieces := by
  induction pieces with
  | nil => rfl
  | cons piece rest ih =>
    rw [List.flatMap_cons, splitOn_of_notMem (h piece List.mem_cons_self),
      ih fun piece hpiece => h piece (List.mem_cons_of_mem _ hpiece)]
    rfl

/-- A piece with a separator in it makes for more lines than there are pieces. -/
theorem length_flatMap_splitOn (c : Char) (pieces : List (List Char)) :
    pieces.length ≤ (pieces.flatMap (·.splitOn c)).length ∧
      ((pieces.flatMap (·.splitOn c)).length = pieces.length → ∀ piece ∈ pieces, c ∉ piece) := by
  induction pieces with
  | nil => simp
  | cons piece rest ih =>
    obtain ⟨hle, hfree⟩ := ih
    have hpos : 0 < (piece.splitOn c).length :=
      List.length_pos_of_ne_nil (List.splitOn_ne_nil c piece)
    simp only [List.flatMap_cons, List.length_append, List.length_cons]
    refine ⟨by omega, fun hlength => List.forall_mem_cons.mpr ⟨fun hmem => ?_, hfree (by omega)⟩⟩
    obtain ⟨before, after, rfl⟩ := List.append_of_mem hmem
    rw [splitOn_append_cons, List.length_append] at hlength
    have hbefore := List.length_pos_of_ne_nil (List.splitOn_ne_nil c before)
    have hafter := List.length_pos_of_ne_nil (List.splitOn_ne_nil c after)
    omega

/-- The last separator of a text. -/
theorem eq_append_cons_of_mem_last (h : c ∈ x) :
    ∃ before after, x = before ++ c :: after ∧ c ∉ after := by
  obtain ⟨after, before, hsplit, hfree⟩ := List.eq_append_cons_of_mem (List.mem_reverse.mpr h)
  refine ⟨before.reverse, after.reverse, ?_, by simpa using hfree⟩
  have hx := congrArg List.reverse hsplit
  simpa using hx

/-- A text is cut at its last separator. -/
theorem splitLast_eq_some {before after : List Char} :
    Text.splitLast c x = some (before, after) ↔ x = before ++ c :: after ∧ c ∉ after := by
  constructor
  · intro h
    rw [Text.splitLast] at h
    split at h
    next => cases h
    next d behind hdrop =>
      have hlast := List.head?_dropWhile_not (· != c) x.reverse
      rw [hdrop] at hlast
      obtain rfl : d = c := by simpa using hlast
      obtain ⟨rfl, rfl⟩ := Prod.mk.inj (Option.some.inj h)
      have hwhole := List.takeWhile_append_dropWhile (p := (· != d)) (l := x.reverse)
      rw [hdrop] at hwhole
      refine ⟨by simpa using congrArg List.reverse hwhole.symm, fun hmem => ?_⟩
      have hother := List.all_eq_true.mp List.all_takeWhile d (List.mem_reverse.mp hmem)
      simp at hother
  · rintro ⟨rfl, hfree⟩
    have hstop : ∀ d ∈ after.reverse, (d != c) = true := by
      simp only [List.mem_reverse, bne_iff_ne]
      exact fun d hd heq => hfree (heq ▸ hd)
    have hreverse : (before ++ c :: after).reverse = after.reverse ++ c :: before.reverse := by simp
    simp [Text.splitLast, hreverse, List.dropWhile_append_of_pos hstop,
      List.takeWhile_append_of_pos hstop]

/-- What holds no separator only makes the first piece longer. -/
theorem splitOn_append_left (h : c ∉ x) (y : List Char) :
    (x ++ y).splitOn c = (y.splitOn c).modifyHead (x ++ ·) := by
  induction x with
  | nil => exact (congrFun List.modifyHead_id _).symm
  | cons d x ih =>
    simp only [List.mem_cons, not_or] at h
    rw [List.cons_append, splitOn_cons, if_neg (Ne.symm h.1), ih h.2, List.modifyHead_modifyHead]
    rfl

/-- What holds no separator makes the last piece longer. -/
theorem splitOn_append_of_notMem (c : Char) (x : List Char) :
    ∃ first last, c ∉ last ∧ ∀ y, c ∉ y → (x ++ y).splitOn c = first ++ [last ++ y] := by
  by_cases hmem : c ∈ x
  · obtain ⟨before, after, rfl, hfree⟩ := eq_append_cons_of_mem_last hmem
    refine ⟨before.splitOn c, after, hfree, fun y hy => ?_⟩
    have hlast : c ∉ after ++ y := by simp [hfree, hy]
    rw [List.append_assoc, List.cons_append, splitOn_append_cons, splitOn_of_notMem hlast]
  · refine ⟨[], x, hmem, fun y hy => ?_⟩
    have hlast : c ∉ x ++ y := by simp [hmem, hy]
    rw [splitOn_of_notMem hlast, List.nil_append]

end DocHeader

import Mathlib.Data.List.DropRight

/-!
# Lists without their ends

What is left of a list when the longest stretches of unwanted items at both ends are cut off.
Unwanted items between others stay.

## Main definitions

* `IsCore` — what is left of a list, apart from how it is found.
* `dropEnds` — what is left of a list, found from both ends.
-/

namespace DocHeader

variable {α β : Type}

/-- A list is what is left of another one without the items at its ends for which `p` holds: no
such item is first or last in it. -/
structure IsCore (p : α → Prop) (xs core : List α) : Prop where
  cut : ∃ before after, xs = before ++ core ++ after ∧ (∀ x ∈ before, p x) ∧ ∀ x ∈ after, p x
  first : ∀ x ∈ core.head?, ¬p x
  last : ∀ x ∈ core.getLast?, ¬p x

/-- A list without the items at its ends for which `p` holds. -/
def dropEnds (p : α → Bool) (xs : List α) : List α := (xs.dropWhile p).rdropWhile p

theorem dropWhile_append_of_kept {p : α → Bool} {kept : List α}
    (hkept : ∀ x ∈ kept.head?, p x = false) (xs : List α) :
    (xs ++ kept).dropWhile p = xs.dropWhile p ++ kept := by
  have hself : kept.dropWhile p = kept := by
    cases kept with
    | nil => rfl
    | cons x kept => exact List.dropWhile_cons_of_neg (by simp [hkept x rfl])
  rw [List.dropWhile_append]
  split
  next hall => rw [hself, List.isEmpty_iff.mp hall, List.nil_append]
  next => rfl

theorem filter_dropWhile {p q : α → Bool} (h : ∀ x, q x = true → p x = false) (xs : List α) :
    (xs.dropWhile q).filter p = xs.filter p := by
  induction xs with
  | nil => rfl
  | cons x xs ih =>
    cases hq : q x with
    | true => rw [List.dropWhile_cons_of_pos hq, List.filter_cons_of_neg (by simp [h x hq]), ih]
    | false => rw [List.dropWhile_cons_of_neg (by simp [hq])]

theorem filter_rdropWhile {p q : α → Bool} (h : ∀ x, q x = true → p x = false) (xs : List α) :
    (xs.rdropWhile q).filter p = xs.filter p := by
  rw [List.rdropWhile, List.filter_reverse, filter_dropWhile h, List.filter_reverse,
    List.reverse_reverse]

/-- Items of a sort that no unwanted item is of are all left. -/
theorem filter_dropEnds {p q : α → Bool} (h : ∀ x, q x = true → p x = false) (xs : List α) :
    (dropEnds q xs).filter p = xs.filter p := by
  rw [dropEnds, filter_rdropWhile h, filter_dropWhile h]

theorem dropEnds_sublist (p : α → Bool) (xs : List α) : (dropEnds p xs).Sublist xs :=
  (List.rdropWhile_prefix _ _).sublist.trans (List.dropWhile_sublist _)

namespace IsCore

variable {p : α → Prop} {xs core : List α}

theorem mem (h : IsCore p xs core) {x : α} (hx : x ∈ core) : x ∈ xs := by
  obtain ⟨before, after, rfl, -⟩ := h.cut
  simp [hx]

/-- Nothing is to be cut off when neither the first item nor the last one is unwanted. -/
theorem of_ends (hfirst : ∀ x ∈ core.head?, ¬p x) (hlast : ∀ x ∈ core.getLast?, ¬p x) :
    IsCore p core core :=
  ⟨⟨[], [], by simp, by simp, by simp⟩, hfirst, hlast⟩

/-- Nothing more is to be cut off. -/
theorem self (h : IsCore p xs core) : IsCore p core core := .of_ends h.first h.last

/-- More items of the kind at the ends make no difference. -/
theorem extend (h : IsCore p xs core) {before after : List α} (hbefore : ∀ x ∈ before, p x)
    (hafter : ∀ x ∈ after, p x) : IsCore p (before ++ xs ++ after) core := by
  obtain ⟨before', after', rfl, hbefore', hafter'⟩ := h.cut
  refine ⟨⟨before ++ before', after' ++ after, by simp, ?_, ?_⟩, h.first, h.last⟩
  · exact List.forall_mem_append.mpr ⟨hbefore, hbefore'⟩
  · exact List.forall_mem_append.mpr ⟨hafter', hafter⟩

/-- Items may be replaced, when the same ones are unwanted then. -/
theorem map (h : IsCore p xs core) {q : β → Prop} {f : α → β} (hq : ∀ x ∈ xs, q (f x) ↔ p x) :
    IsCore q (xs.map f) (core.map f) := by
  obtain ⟨before, after, rfl, hbefore, hafter⟩ := h.cut
  have hcore : ∀ x ∈ core, q (f x) ↔ p x := fun x hx => hq x (by simp [hx])
  refine ⟨⟨before.map f, after.map f, by simp, ?_, ?_⟩, ?_, ?_⟩
  · exact List.forall_mem_map.mpr fun x hx => (hq x (by simp [hx])).mpr (hbefore x hx)
  · exact List.forall_mem_map.mpr fun x hx => (hq x (by simp [hx])).mpr (hafter x hx)
  · rw [List.head?_map]
    intro y hy
    obtain ⟨x, hx, rfl⟩ := Option.map_eq_some_iff.mp hy
    rw [hcore x (List.mem_of_mem_head? hx)]
    exact h.first x hx
  · rw [List.getLast?_map]
    intro y hy
    obtain ⟨x, hx, rfl⟩ := Option.map_eq_some_iff.mp hy
    rw [hcore x (List.mem_of_mem_getLast? hx)]
    exact h.last x hx

end IsCore

section DropEnds

variable {p : α → Bool} {xs core : List α}

theorem isCore_dropEnds (p : α → Bool) (xs : List α) :
    IsCore (fun x => p x = true) xs (dropEnds p xs) := by
  have hfront := List.takeWhile_append_dropWhile (p := p) (l := xs)
  have hback : dropEnds p xs ++ (xs.dropWhile p).rtakeWhile p = xs.dropWhile p :=
    List.rdropWhile_append_rtakeWhile
  refine ⟨⟨xs.takeWhile p, (xs.dropWhile p).rtakeWhile p, ?_, ?_, ?_⟩, ?_, ?_⟩
  · rw [List.append_assoc, hback, hfront]
  · exact fun x hx => List.mem_takeWhile_imp hx
  · exact fun x hx => List.mem_rtakeWhile_imp hx
  · intro x hx
    have hnot := List.head?_dropWhile_not p xs
    rw [← hback, List.head?_append, Option.mem_def.mp hx] at hnot
    simpa using hnot
  · intro x hx
    have hnot := List.head?_dropWhile_not p (xs.dropWhile p).reverse
    rw [dropEnds, List.rdropWhile, List.getLast?_reverse] at hx
    rw [Option.mem_def.mp hx] at hnot
    simpa using hnot

/-- There is only one way to cut off the ends. -/
theorem dropEnds_of_isCore (h : IsCore (fun x => p x = true) xs core) : dropEnds p xs = core := by
  obtain ⟨before, after, rfl, hbefore, hafter⟩ := h.cut
  rcases core.eq_nil_or_concat with rfl | ⟨init, last, rfl⟩
  · have hall : ∀ x ∈ before ++ [] ++ after, p x = true :=
      List.forall_mem_append.mpr ⟨by simpa using hbefore, hafter⟩
    rw [dropEnds, List.dropWhile_eq_nil_iff.mpr hall, List.rdropWhile_nil]
  · have hfirst : ∀ x ∈ (init.concat last ++ after).head?, p x = false := by
      intro x hx
      refine Bool.eq_false_iff.mpr (h.first x ?_)
      rw [List.head?_append] at hx
      cases init <;> simpa using hx
    have hlast : ¬p last = true := h.last last (by simp)
    have hreverse : (init ++ [last] ++ after).reverse.dropWhile p = (init ++ [last]).reverse := by
      rw [List.reverse_append, List.dropWhile_append_of_pos (by simpa using hafter),
        List.reverse_append, List.reverse_singleton, List.singleton_append,
        List.dropWhile_cons_of_neg hlast]
    rw [dropEnds, List.append_assoc, dropWhile_append_of_kept hfirst,
      List.dropWhile_eq_nil_iff.mpr hbefore, List.nil_append, List.concat_eq_append,
      List.rdropWhile, hreverse, List.reverse_reverse]

/-- Only a list without wanted items is cut off as a whole. -/
theorem dropEnds_eq_nil_iff : dropEnds p xs = [] ↔ xs.dropWhile p = [] := by
  refine ⟨fun h => List.dropWhile_eq_nil_iff.mpr ?_, fun h => by rw [dropEnds, h]; rfl⟩
  obtain ⟨before, after, hcut, hbefore, hafter⟩ := (isCore_dropEnds p xs).cut
  rw [hcut, h, List.append_nil]
  exact List.forall_mem_append.mpr ⟨hbefore, hafter⟩

/-- At the end of two lists, one behind the other, items are cut off the second one, and off the
first one when nothing else is left. -/
theorem rdropWhile_append (p : α → Bool) (xs ys : List α) : (xs ++ ys).rdropWhile p =
    if (ys.rdropWhile p).isEmpty then xs.rdropWhile p else xs ++ ys.rdropWhile p := by
  simp only [List.rdropWhile, List.reverse_append, List.dropWhile_append, List.isEmpty_reverse]
  split
  next => rfl
  next => rw [List.reverse_append, List.reverse_reverse]

/-- Nothing is cut off behind items that are wanted. -/
theorem dropEnds_append_of_kept {kept : List α} (hkept : ∀ x ∈ kept, p x = false)
    (hsome : kept ≠ []) (xs : List α) : dropEnds p (xs ++ kept) = xs.dropWhile p ++ kept := by
  have hlast (hne : xs.dropWhile p ++ kept ≠ []) : ¬p ((xs.dropWhile p ++ kept).getLast hne) := by
    rw [List.getLast_append_of_ne_nil _ hsome]
    simp [hkept _ (List.getLast_mem hsome)]
  rw [dropEnds, dropWhile_append_of_kept fun x hx => hkept x (List.mem_of_mem_head? hx)]
  exact List.rdropWhile_eq_self_iff.mpr hlast

end DropEnds

end DocHeader

import DocHeader.Proofs.Text.Splitting
import DocHeader.Text.Location

/-!
# Rows of a text

A row is what stands between two line feeds, or between a line feed and an end of the text. The
line of an offset tells which row it is on, by the number of line feeds before it.

## Main definitions

* `IsRow` — a line of a text, with what stands before and after it.

## Main statements

* `IsRow.line_eq_iff` — an offset is on a line just when it lies between its ends.
-/

namespace DocHeader

/-- What is taken while a test holds ends where it first fails. -/
theorem takeWhile_append_of_stop {α : Type} {p : α → Bool} {xs ys : List α}
    (hxs : ∀ x ∈ xs, p x = true) (hys : ∀ y ∈ ys.head?, p y = false) :
    (xs ++ ys).takeWhile p = xs := by
  have hstop : ys.takeWhile p = [] := by
    cases ys with
    | nil => rfl
    | cons y ys => simp [hys y rfl]
  rw [List.takeWhile_append_of_pos hxs, hstop, List.append_nil]

/-- A line of a text, with what stands before and after it. -/
structure IsRow (cs before row after : List Char) : Prop where
  whole : cs = before ++ (row ++ after)
  begins : ∀ c ∈ before.getLast?, c = '\n'
  unbroken : '\n' ∉ row
  ends : ∀ c ∈ after.head?, c = '\n'

namespace IsRow

variable {cs before row after : List Char} {m : Nat}

theorem take_eq (h : IsRow cs before row after) (hm : m ≤ row.length) :
    cs.take (before.length + m) = before ++ row.take m := by
  rw [h.whole, List.take_length_add_append, List.take_append_of_le_length hm]

theorem drop_eq (h : IsRow cs before row after) (hm : m ≤ row.length) :
    cs.drop (before.length + m) = row.drop m ++ after := by
  rw [h.whole, List.drop_length_add_append, List.drop_append_of_le_length hm]

theorem length_le (h : IsRow cs before row after) (hm : m ≤ row.length) :
    before.length + m ≤ cs.length := by
  rw [h.whole, List.length_append, List.length_append]
  omega

theorem afterLastNewline_take (h : IsRow cs before row after) (hm : m ≤ row.length) :
    Text.afterLastNewline (cs.take (before.length + m)) = row.take m := by
  have hrow : ∀ c ∈ (row.take m).reverse, (c != '\n') = true := by
    intro c hc
    have hmem : c ∈ row := List.mem_of_mem_take (List.mem_reverse.mp hc)
    exact bne_iff_ne.mpr fun heq => h.unbroken (heq ▸ hmem)
  have hbefore : ∀ c ∈ before.reverse.head?, (c != '\n') = false := by
    intro c hc
    rw [List.head?_reverse] at hc
    simp [h.begins c hc]
  rw [h.take_eq hm, Text.afterLastNewline, List.reverse_append,
    takeWhile_append_of_stop hrow hbefore, List.reverse_reverse]

/-! Line feeds are counted up to an offset before a line, on it, and behind it. -/

theorem count_take_mono (cs : List Char) {n k : Nat} (h : n ≤ k) :
    (cs.take n).count '\n' ≤ (cs.take k).count '\n' :=
  (List.take_prefix_take_left h).sublist.count_le '\n'

theorem count_take_before (h : IsRow cs before row after) (hm : m < before.length) :
    (cs.take m).count '\n' < before.count '\n' := by
  -- the offset is not behind the line feed that the line follows
  obtain rfl | ⟨front, last, rfl⟩ := List.eq_nil_or_concat before
  · cases hm
  · obtain rfl : last = '\n' := h.begins last (by simp)
    have hfront : cs.take front.length = front := by simp [h.whole]
    have hle : m ≤ front.length := by
      simp only [List.concat_eq_append, List.length_append, List.length_singleton] at hm
      omega
    have hcount := count_take_mono cs hle
    rw [hfront] at hcount
    simp only [List.concat_eq_append, List.count_append, List.count_singleton_self]
    omega

theorem count_take_within (h : IsRow cs before row after) (hm : m ≤ row.length) :
    (cs.take (before.length + m)).count '\n' = before.count '\n' := by
  have hnone : (row.take m).count '\n' = 0 :=
    List.count_eq_zero.mpr fun hmem => h.unbroken (List.mem_of_mem_take hmem)
  rw [h.take_eq hm, List.count_append, hnone, Nat.add_zero]

theorem count_take_behind (h : IsRow cs before row after)
    (hm : before.length + row.length < m) (hle : m ≤ cs.length) :
    before.count '\n' < (cs.take m).count '\n' := by
  -- the offset is behind the line feed that ends the line
  cases hafter : after with
  | nil =>
    rw [h.whole, hafter, List.append_nil, List.length_append] at hle
    omega
  | cons c rest =>
    obtain rfl : c = '\n' := h.ends c (by simp [hafter])
    have hbehind : cs.take (before.length + row.length + 1) = before ++ (row ++ ['\n']) := by
      simp [h.whole, hafter, Nat.add_assoc, List.take_length_add_append]
    have hcount := count_take_mono cs (Nat.succ_le_of_lt hm)
    rw [Nat.succ_eq_add_one, hbehind, List.count_append, List.count_append,
      List.count_singleton_self] at hcount
    omega

/-- An offset is on a line just when it lies between its ends. -/
theorem line_eq_iff {source : String} (h : IsRow source.toList before row after)
    (hle : m ≤ source.toList.length) :
    (Location.ofOffset source m).line = (before.count '\n' + 1 : Nat) ↔
      before.length ≤ m ∧ m ≤ before.length + row.length := by
  have hcount : (Location.ofOffset source m).line = (before.count '\n' + 1 : Nat) ↔
      (source.toList.take m).count '\n' = before.count '\n' := by
    simp only [Location.ofOffset]
    omega
  rw [hcount]
  constructor
  · intro heq
    constructor
    · by_contra hlow
      have := h.count_take_before (Nat.lt_of_not_le hlow)
      omega
    · by_contra hhigh
      have := h.count_take_behind (Nat.lt_of_not_le hhigh) hle
      omega
  · rintro ⟨hlow, hhigh⟩
    obtain ⟨k, rfl⟩ := Nat.exists_eq_add_of_le hlow
    exact h.count_take_within (by omega)

end IsRow

end DocHeader

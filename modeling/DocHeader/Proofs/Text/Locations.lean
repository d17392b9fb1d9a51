import DocHeader.Proofs.Generation.Builds
import DocHeader.Proofs.Header.Written
import DocHeader.Proofs.Text.Rows

/-!
# Locations and offsets

An offset of a text has a location: its row, and its place on the row. The way there counts line
feeds and looks for the last one; the way back splits the text and adds up lengths. Both agree
with the same rows, so each leads back to where the other one came from.

## Main definitions

* `Location.IsWithin` — a location on one of the rows of a text.

## Main statements

* `Location.offset_inverse` — offsets and locations of a text lead to each other.
-/

namespace DocHeader

/-! ## Rows of all offsets -/

/-- A text cut behind its last line feed. -/
theorem exists_last_row (cs : List Char) : ∃ before start, cs = before ++ start ∧
    (∀ c ∈ before.getLast?, c = '\n') ∧ '\n' ∉ start := by
  by_cases hmem : '\n' ∈ cs
  · obtain ⟨front, start, rfl, hfree⟩ := eq_append_cons_of_mem_last hmem
    exact ⟨front ++ ['\n'], start, by simp, by simp, hfree⟩
  · exact ⟨[], cs, by simp, by simp, hmem⟩

/-- Every offset is on a row. -/
theorem exists_isRow {cs : List Char} {p : Nat} (hp : p ≤ cs.length) :
    ∃ before row after m, IsRow cs before row after ∧ m ≤ row.length ∧ p = before.length + m := by
  obtain ⟨before, start, htake, hbegins, hstart⟩ := exists_last_row (cs.take p)
  let stop := (cs.drop p).takeWhile (· != '\n')
  let after := (cs.drop p).dropWhile (· != '\n')
  have hdrop : stop ++ after = cs.drop p := List.takeWhile_append_dropWhile
  have hstop : '\n' ∉ stop := fun hmem => by
    simpa using List.all_eq_true.mp List.all_takeWhile _ hmem
  have hwhole : cs = before ++ (start ++ stop ++ after) := by
    rw [List.append_assoc, hdrop, ← List.append_assoc, ← htake, List.take_append_drop]
  have hends : ∀ c ∈ after.head?, c = '\n' := by
    intro c hc
    have hnot := List.head?_dropWhile_not (· != '\n') (cs.drop p)
    rw [Option.mem_def.mp hc] at hnot
    simpa using hnot
  have hlength := congrArg List.length htake
  rw [List.length_take, Nat.min_eq_left hp, List.length_append] at hlength
  exact ⟨before, start ++ stop, after, start.length,
    ⟨hwhole, hbegins, by simp [hstart, hstop], hends⟩, by simp, hlength⟩

namespace IsRow

variable {cs before row after : List Char} {m : Nat}

/-- A row among those that a text is split into: the rows before it make up what stands before
it. -/
theorem exists_splitOn (h : IsRow cs before row after) :
    ∃ rows rest, cs.splitOn '\n' = rows ++ row :: rest ∧ rows.length = before.count '\n' ∧
      (rows.flatMap fun r => r ++ ['\n']) = before := by
  have hrest : ∃ rest, (row ++ after).splitOn '\n' = row :: rest := by
    cases hafter : after with
    | nil => exact ⟨[], by rw [List.append_nil, splitOn_of_notMem h.unbroken]⟩
    | cons c after =>
      obtain rfl := h.ends c (by simp [hafter])
      exact ⟨after.splitOn '\n', by rw [splitOn_append_cons, splitOn_of_notMem h.unbroken]; rfl⟩
  obtain ⟨rest, hrest⟩ := hrest
  obtain rfl | ⟨front, last, rfl⟩ := List.eq_nil_or_concat before
  · exact ⟨[], rest, by rw [h.whole, List.nil_append, hrest]; rfl, rfl, rfl⟩
  · obtain rfl := h.begins last (by simp)
    refine ⟨front.splitOn '\n', rest, ?_, ?_, ?_⟩
    · rw [h.whole, List.concat_eq_append, List.append_assoc, List.singleton_append,
        splitOn_append_cons, hrest]
    · rw [length_splitOn]
      simp
    · rw [flatMap_splitOn_append, List.concat_eq_append]

/-- A row further down, when another one is put in front of the text. -/
theorem below (h : IsRow cs before row after) {first : List Char} :
    IsRow (first ++ '\n' :: cs) (first ++ '\n' :: before) row after where
  whole := by rw [h.whole, List.append_assoc, List.cons_append]
  begins := by
    intro c hc
    cases hbefore : before with
    | nil => simpa [hbefore, eq_comm] using hc
    | cons d ds =>
      rw [hbefore, List.getLast?_append, List.getLast?_cons_cons] at hc
      exact h.begins c (by simpa [hbefore] using hc)
  unbroken := h.unbroken
  ends := h.ends

end IsRow

/-- The pieces that a text is split into are its rows. -/
theorem exists_isRow_of_splitOn {cs row : List Char} {rows rest : List (List Char)}
    (h : cs.splitOn '\n' = rows ++ row :: rest) :
    ∃ before after, IsRow cs before row after ∧ before.count '\n' = rows.length := by
  have hfree : ∀ r ∈ rows ++ row :: rest, '\n' ∉ r := h ▸ notMem_of_mem_splitOn '\n' cs
  have hwhole : cs = ['\n'].intercalate (rows ++ row :: rest) := by
    rw [← h, List.intercalate_splitOn]
  clear h
  induction rows generalizing cs with
  | nil =>
    rw [List.nil_append, intercalate_cons_eq] at hwhole
    refine ⟨[], rest.flatMap ('\n' :: ·), ⟨hwhole, by simp, hfree row (by simp), ?_⟩, rfl⟩
    cases rest <;> simp
  | cons first rows ih =>
    obtain ⟨second, others, hothers⟩ : ∃ second others, rows ++ row :: rest = second :: others :=
      List.exists_cons_of_ne_nil (by simp)
    obtain ⟨before, after, hrow, hcount⟩ := ih (fun r hr => hfree r (by simp [hr])) rfl
    have hfirst : first.count '\n' = 0 := List.count_eq_zero.mpr (hfree first (by simp))
    rw [List.cons_append, hothers, List.intercalate_cons_cons, ← hothers, List.append_assoc,
      List.singleton_append] at hwhole
    rw [hwhole]
    refine ⟨first ++ '\n' :: before, after, hrow.below, ?_⟩
    rw [List.count_append, List.count_cons_self, hfirst, hcount, List.length_cons, Nat.zero_add]

namespace Location

/-- A row begins behind the rows before it and their line feeds. -/
theorem lineStart_append (rows rest : List (List Char)) :
    lineStart ((rows ++ rest).map List.length) rows.length =
      (rows.flatMap fun r => r ++ ['\n']).length := by
  induction rows with
  | nil => cases rest <;> rfl
  | cons row rows ih =>
    rw [List.cons_append, List.map_cons, List.length_cons, lineStart, ih, List.flatMap_cons,
      List.length_append, List.length_append, List.length_singleton]

/-- A location on one of the rows of a text, at most one place behind its last character. -/
structure IsWithin (text : String) (l : Location) : Prop where
  line : 1 ≤ l.line ∧ l.line ≤ (text.toList.splitOn '\n').length
  column : ∀ row ∈ (text.toList.splitOn '\n')[(l.line - 1).toNat]?,
    1 ≤ l.column ∧ l.column ≤ row.length + 1

section Row

variable {text : String} {before row after : List Char} {m : Nat}

/-- The location of an offset is made of the row and the place on it. -/
theorem ofOffset_of_isRow (h : IsRow text.toList before row after) (hm : m ≤ row.length) :
    ofOffset text (before.length + m) = ⟨before.count '\n' + 1, m + 1⟩ := by
  rw [ofOffset, h.count_take_within hm, h.afterLastNewline_take hm, List.length_take,
    Nat.min_eq_left hm]

/-- The offset of a location is made of what stands before its row, and its place on it. -/
theorem toOffset_of_isRow (h : IsRow text.toList before row after) (hm : m ≤ row.length) :
    toOffset text ⟨before.count '\n' + 1, m + 1⟩ = .ok (before.length + m) := by
  obtain ⟨rows, rest, hsplit, hcount, hbefore⟩ := h.exists_splitOn
  have hstart : lineStart ((rows ++ row :: rest).map List.length) rows.length = before.length := by
    rw [lineStart_append, hbefore]
  have hline : ¬((rows.length : Int) + 1 < 1 ∨ ((rows ++ row :: rest).length : Int) <
      (rows.length : Int) + 1) := by
    simp only [List.length_append, List.length_cons]
    omega
  have hcolumn : ¬((m : Int) + 1 < 1 ∨ (row.length : Int) + 1 < (m : Int) + 1) := by omega
  have hindex : ((rows.length : Int) + 1 - 1).toNat = rows.length := by omega
  have hlength : ((rows ++ row :: rest).map List.length)[rows.length]?.getD 0 = row.length := by
    simp
  rw [toOffset, hsplit, ← hcount]
  simp only [List.length_map, hindex, hlength, hstart, Bool.or_eq_true, decide_eq_true_eq]
  rw [if_neg hline, if_neg hcolumn]
  congr 2
  omega

/-- A location within a text is on one of its rows. -/
theorem isWithin_iff {l : Location} : l.IsWithin text ↔
    ∃ before row after m, IsRow text.toList before row after ∧ m ≤ row.length ∧
      l = ⟨before.count '\n' + 1, m + 1⟩ := by
  constructor
  · obtain ⟨line, column⟩ := l
    rintro ⟨⟨hfirst, hlast⟩, hcolumn⟩
    dsimp only at hfirst hlast hcolumn
    have hindex : (line - 1).toNat < (text.toList.splitOn '\n').length := by omega
    have hsplit := List.take_append_drop (line - 1).toNat (text.toList.splitOn '\n')
    rw [List.drop_eq_getElem_cons hindex] at hsplit
    obtain ⟨before, after, hrow, hcount⟩ := exists_isRow_of_splitOn hsplit.symm
    obtain ⟨hlow, hhigh⟩ := hcolumn _ (List.getElem?_eq_getElem hindex)
    rw [List.length_take, Nat.min_eq_left (Nat.le_of_lt hindex)] at hcount
    refine ⟨before, _, after, (column - 1).toNat, hrow, by omega, ?_⟩
    rw [hcount, Location.mk.injEq]
    omega
  · rintro ⟨before, row, after, m, hrow, hm, rfl⟩
    obtain ⟨rows, rest, hsplit, hcount, -⟩ := hrow.exists_splitOn
    have hindex : ((rows.length : Int) + 1 - 1).toNat = rows.length := by omega
    rw [← hcount]
    constructor
    · rw [hsplit, List.length_append, List.length_cons]
      dsimp only
      omega
    · dsimp only
      intro other hother
      rw [hsplit, hindex, List.getElem?_append_right (Nat.le_refl _), Nat.sub_self] at hother
      obtain rfl : row = other := by simpa using hother
      omega

/-- Only locations within a text have an offset. -/
theorem isWithin_of_toOffset {l : Location} {p : Nat} (h : toOffset text l = .ok p) :
    l.IsWithin text := by
  rw [toOffset] at h
  simp only [List.length_map, Bool.or_eq_true, decide_eq_true_eq] at h
  split at h
  next => cases h
  next hline =>
    split at h
    next => cases h
    next hcolumn =>
      refine ⟨by omega, fun row hrow => ?_⟩
      rw [List.getElem?_map, Option.mem_def.mp hrow, Option.map_some, Option.getD_some] at hcolumn
      omega

/-- A request that is refused with a location had a position in the text, and tells the location
of the position. -/
theorem eq_ofOffset_of_refused {g : Generator} {file : String} {position : Int} {sink : Sink}
    {d d' : Desk} {file' : String} {position' : Int} {l : Location}
    (h : g.atPositionOf file position sink text d =
      (.error (.unsupportedPosition file' position' (some l)), d')) :
    file' = file ∧ position' = position ∧ 0 ≤ position ∧ position ≤ text.length ∧
      l = ofOffset text position.toNat := by
  simp only [Generator.atPositionOf] at h
  split at h
  · cases h
  rename_i hinside
  simp only [Bool.or_eq_true, decide_eq_true_eq, not_or, Int.not_lt] at hinside
  rcases Desk.parse_cases g.surroundings file text d with
    ⟨tree, d₁, hparse, -⟩ | ⟨e, d₁, hparse, -⟩ <;>
    simp only [Work.lift_bind, hparse] at h
  case inr => cases h
  rcases Generator.targetAt_cases file text tree position.toNat with
    ⟨f, htarget⟩ | hstrands | hnone
  case inr.inl =>
    simp only [Work.bind_apply, Work.ofExcept_apply, hstrands] at h
    cases h
  case inr.inr =>
    simp only [Work.bind_apply, Work.ofExcept_apply, hnone] at h
    cases h
    exact ⟨rfl, Int.toNat_of_nonneg hinside.1, hinside.1, hinside.2, rfl⟩
  simp only [Work.bind_apply, Work.ofExcept_apply, htarget] at h
  -- a position with a target may only be refused because its header cannot be built
  split at h
  · cases h
  rcases g.header_cases f text sink.snippets d₁ with
    ⟨header, d₂, hheader, -⟩ | ⟨e, d₂, hheader, -⟩ <;>
    simp only [Work.lift_bind, hheader] at h
  case inr => cases h
  split at h
  · cases h
  · generalize (g.look { scope := .position, filesProcessed := 1 } d₂) = looked at h
    rcases g.handOver_cases file f sink looked.1 header looked.2 with
      ⟨-, hunusable⟩ | ⟨-, hdelivered⟩
    · rw [hunusable] at h
      cases h
    · rw [hdelivered] at h
      cases h

end Row

/-- **Offsets and locations are inverse.** Every offset of a text has a location that leads back to
it. A location leads to an offset just when it is on one of the rows of the text, at most one
place behind its last character; the offset lies in the text and has that location. So the location
in a refusal leads back to the position that is refused. -/
theorem offset_inverse (text : String) :
    (∀ p ≤ text.length, toOffset text (ofOffset text p) = .ok p) ∧
    (∀ l, (∃ e, toOffset text l = .error e) ↔ ¬l.IsWithin text) ∧
    (∀ l p, toOffset text l = .ok p → p ≤ text.length ∧ ofOffset text p = l) ∧
    ∀ (g : Generator) file position sink d file' position' l,
      (g.atPositionOf file position sink text d).1 =
        .error (.unsupportedPosition file' position' (some l)) →
      position' = position ∧ 0 ≤ position ∧ toOffset text l = .ok position.toNat := by
  have hback (p : Nat) (hp : p ≤ text.length) : toOffset text (ofOffset text p) = .ok p := by
    have hlist : p ≤ text.toList.length := hp
    obtain ⟨before, row, after, m, hrow, hm, rfl⟩ := exists_isRow hlist
    rw [ofOffset_of_isRow hrow hm, toOffset_of_isRow hrow hm]
  refine ⟨hback, fun l => ?_, fun l p h => ?_, fun g file position sink d file' position' l h => ?_⟩
  · constructor
    · rintro ⟨e, he⟩ hwithin
      obtain ⟨before, row, after, m, hrow, hm, rfl⟩ := isWithin_iff.mp hwithin
      rw [toOffset_of_isRow hrow hm] at he
      cases he
    · intro hoff
      cases hoffset : toOffset text l with
      | error e => exact ⟨e, rfl⟩
      | ok p => exact absurd (isWithin_of_toOffset hoffset) hoff
  · obtain ⟨before, row, after, m, hrow, hm, rfl⟩ := isWithin_iff.mp (isWithin_of_toOffset h)
    rw [toOffset_of_isRow hrow hm, Except.ok.injEq] at h
    subst h
    exact ⟨hrow.length_le hm, ofOffset_of_isRow hrow hm⟩
  · obtain ⟨-, hposition, hlow, hhigh, rfl⟩ := eq_ofOffset_of_refused (Prod.ext h rfl)
    exact ⟨hposition, hlow, hback _ (by omega)⟩

/-- The end of a text behind a line feed is the beginning of a row. The place behind the line feed
is no longer on the row before it. -/
theorem offset_inverse_behind_newline :
    3 ≤ "ab\n".length ∧ ofOffset "ab\n" 3 = ⟨2, 1⟩ ∧ toOffset "ab\n" ⟨2, 1⟩ = .ok 3 ∧
      toOffset "ab\n" ⟨1, 4⟩ = .error (.noColumn 4 1) ∧ ¬IsWithin "ab\n" ⟨1, 4⟩ := by
  have hlocation : ofOffset "ab\n" 3 = ⟨2, 1⟩ := by decide
  have houtside : toOffset "ab\n" ⟨1, 4⟩ = .error (.noColumn 4 1) := by decide +kernel
  have hback := (offset_inverse "ab\n").1 3 (by decide)
  rw [hlocation] at hback
  exact ⟨by decide, hlocation, hback, houtside, ((offset_inverse "ab\n").2.1 _).mp ⟨_, houtside⟩⟩

end Location

end DocHeader

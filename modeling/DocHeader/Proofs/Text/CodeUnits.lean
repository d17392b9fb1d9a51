import DocHeader.Text.Utf16

/-!
# Code units and characters

The offsets of a compiler count the code units of a text, and an offset between two characters
is the number of units that come before it. The conversion carries it to the number of
characters that come before it, an offset inside a surrogate pair to the index of its character,
and it keeps the order of offsets. Without wide characters it could be left out: the table and
the identity agree.

## Main definitions

* `Utf16.units` — the code units of a text.
* `Utf16.Marks` — an offset and the character index of the same place.
-/

namespace DocHeader

namespace Utf16

/-- The code units of a character: one, or a high and a low surrogate. -/
def charUnits (c : Char) : List Nat :=
  if c.toNat ≤ 0xffff then [c.toNat]
  else [0xd800 + (c.toNat - 0x10000) / 0x400, 0xdc00 + (c.toNat - 0x10000) % 0x400]

/-- The code units of a text. -/
def units (cs : List Char) : List Nat := cs.flatMap charUnits

/-- An offset in code units and an index in characters that mean the same place between two
characters of a text. -/
def Marks (cs : List Char) (offset index : Int) : Prop :=
  ∃ before after, cs = before ++ after ∧ offset = (units before).length ∧ index = before.length

/-! ## Units -/

@[simp] theorem units_nil : units [] = [] := rfl

@[simp] theorem units_cons (c : Char) (cs : List Char) : units (c :: cs) = charUnits c ++ units cs :=
  rfl

@[simp] theorem units_append (cs ds : List Char) : units (cs ++ ds) = units cs ++ units ds :=
  List.flatMap_append

@[simp] theorem length_charUnits (c : Char) : (charUnits c).length = width c := by
  unfold charUnits width isWide
  by_cases hwide : c.toNat ≤ 0xffff
  · simp [hwide, show ¬0xffff < c.toNat by omega]
  · simp [hwide, show 0xffff < c.toNat by omega]

theorem width_pos (c : Char) : 0 < width c := by
  unfold width
  split <;> omega

theorem isWide_eq_false {c : Char} (h : c.toNat ≤ 0xffff) : isWide c = false := by
  simp [isWide, h]

/-- Each character has a unit at least. -/
theorem length_le_length_units (cs : List Char) : cs.length ≤ (units cs).length := by
  induction cs with
  | nil => exact Nat.le_refl 0
  | cons c cs ih =>
    have hpos := width_pos c
    simp only [units_cons, List.length_append, length_charUnits, List.length_cons]
    omega

/-! ## The table of a text -/

theorem length_unitIndices (i : Nat) (cs : List Char) :
    (unitIndices i cs).length = (units cs).length + 1 := by
  induction cs generalizing i with
  | nil => rfl
  | cons c cs ih =>
    simp only [unitIndices, units_cons, List.length_append, List.length_replicate,
      length_charUnits, ih]
    omega

/-- Behind the units of a beginning the table goes on as that of the rest. -/
theorem drop_unitIndices (i : Nat) (before after : List Char) :
    (unitIndices i (before ++ after)).drop (units before).length =
      unitIndices (i + before.length) after := by
  induction before generalizing i with
  | nil => rfl
  | cons c before ih =>
    have hreplicate : (List.replicate (width c) i).length = (charUnits c).length := by simp
    rw [List.cons_append, unitIndices, units_cons, List.length_append, ← List.drop_drop,
      ← hreplicate, List.drop_left, ih, List.length_cons]
    congr 1
    omega

theorem getElem?_unitIndices (i : Nat) (before after : List Char) (k : Nat) :
    (unitIndices i (before ++ after))[(units before).length + k]? =
      (unitIndices (i + before.length) after)[k]? := by
  rw [← drop_unitIndices, List.getElem?_drop]

theorem head_unitIndices (i : Nat) (cs : List Char) : (unitIndices i cs)[0]? = some i := by
  cases cs with
  | nil => rfl
  | cons c cs =>
    rw [unitIndices, List.getElem?_append_left (by simpa using width_pos c)]
    simp [width_pos]

/-- The table gives every unit of a character the index of the character. -/
theorem getElem?_unitIndices_inside (before after : List Char) {c : Char} {k : Nat}
    (hk : k < width c) :
    (unitIndices 0 (before ++ c :: after))[(units before).length + k]? = some before.length := by
  rw [getElem?_unitIndices, unitIndices, List.getElem?_append_left (by simpa using hk)]
  simp [hk]

theorem le_of_mem_unitIndices {i j : Nat} {cs : List Char} (h : j ∈ unitIndices i cs) : i ≤ j := by
  induction cs generalizing i with
  | nil => simp_all [unitIndices]
  | cons c cs ih =>
    rcases List.mem_append.mp h with hunit | hrest
    · exact Nat.le_of_eq (List.eq_of_mem_replicate hunit).symm
    · have hle := ih hrest
      omega

/-- No index of the table comes before a smaller one. -/
theorem unitIndices_sorted (i : Nat) (cs : List Char) :
    (unitIndices i cs).Pairwise fun j k => j ≤ k := by
  induction cs generalizing i with
  | nil => simp [unitIndices]
  | cons c cs ih =>
    rw [unitIndices, List.pairwise_append]
    refine ⟨List.pairwise_replicate.mpr (.inr (Nat.le_refl i)), ih (i + 1), ?_⟩
    intro j hj k hk
    have hle := le_of_mem_unitIndices hk
    have heq := List.eq_of_mem_replicate hj
    omega

theorem le_length_of_mem_unitIndices {i j : Nat} {cs : List Char} (h : j ∈ unitIndices i cs) :
    j ≤ i + cs.length := by
  induction cs generalizing i with
  | nil => simp_all [unitIndices]
  | cons c cs ih =>
    rcases List.mem_append.mp h with hunit | hrest
    · have heq := List.eq_of_mem_replicate hunit
      omega
    · have hle := ih hrest
      rw [List.length_cons]
      omega

/-- Without wide characters the table counts. -/
theorem unitIndices_of_narrow (i : Nat) {cs : List Char} (h : ∀ c ∈ cs, c.toNat ≤ 0xffff) :
    unitIndices i cs = List.range' i (cs.length + 1) := by
  induction cs generalizing i with
  | nil => rfl
  | cons c cs ih =>
    obtain ⟨hc, hcs⟩ := List.forall_mem_cons.mp h
    rw [unitIndices, width, isWide_eq_false hc, ih (i + 1) hcs, List.length_cons,
      List.range'_succ (n := cs.length + 1)]
    rfl

theorem length_units_of_narrow {cs : List Char} (h : ∀ c ∈ cs, c.toNat ≤ 0xffff) :
    (units cs).length = cs.length := by
  have hlength := length_unitIndices 0 cs
  rw [unitIndices_of_narrow 0 h, List.length_range'] at hlength
  omega

/-! ## Places -/

/-- Of two places in a text one comes before the other, with the text between them. -/
theorem Marks.split {cs : List Char} {offset index offset' index' : Int}
    (h : Marks cs offset index) (h' : Marks cs offset' index') :
    ∃ before between after, cs = before ++ (between ++ after) ∧
      (offset = (units before).length ∧ index = before.length ∧
          offset' = offset + (units between).length ∧ index' = index + between.length ∨
        offset' = (units before).length ∧ index' = before.length ∧
          offset = offset' + (units between).length ∧ index = index' + between.length) := by
  obtain ⟨before, after, rfl, rfl, rfl⟩ := h
  obtain ⟨before', after', hsplit, rfl, rfl⟩ := h'
  rcases List.append_eq_append_iff.mp hsplit with ⟨between, rfl, rfl⟩ | ⟨between, rfl, rfl⟩
  · exact ⟨before, between, after', rfl, .inl (by simp)⟩
  · exact ⟨before', between, after, by simp, .inr (by simp)⟩

/-- Offsets and indices have the same order. -/
theorem Marks.le_iff {cs : List Char} {offset index offset' index' : Int}
    (h : Marks cs offset index) (h' : Marks cs offset' index') :
    offset ≤ offset' ↔ index ≤ index' := by
  obtain ⟨-, between, -, -, ⟨-, -, hoffset, hindex⟩ | ⟨-, -, hoffset, hindex⟩⟩ := h.split h'
  · omega
  · have hunits := length_le_length_units between
    have hempty : between.length = 0 → (units between).length = 0 := by
      intro hlength
      rw [List.eq_nil_of_length_eq_zero hlength]
      rfl
    omega

/-- The text between two places, cut out by characters or by units, is the same. -/
theorem Marks.units_slice {cs : List Char} {offset index offset' index' : Int}
    (h : Marks cs offset index) (h' : Marks cs offset' index') :
    units ((cs.take index'.toNat).drop index.toNat) =
      ((units cs).take offset'.toNat).drop offset.toNat := by
  obtain ⟨before, between, after, rfl, ⟨rfl, rfl, rfl, rfl⟩ | ⟨rfl, rfl, rfl, rfl⟩⟩ := h.split h'
  · have hindex : ((before.length : Int) + between.length).toNat = (before ++ between).length := by
      rw [List.length_append]
      omega
    have hoffset : (((units before).length : Int) + (units between).length).toNat =
        (units before ++ units between).length := by
      rw [List.length_append]
      omega
    rw [hindex, hoffset, ← List.append_assoc, List.take_left, units_append, units_append,
      List.take_left, Int.toNat_natCast, Int.toNat_natCast, List.drop_left, List.drop_left]
  · -- nothing lies between a place and an earlier one
    rw [List.drop_eq_nil_of_le (by rw [List.length_take]; omega),
      List.drop_eq_nil_of_le (by rw [List.length_take]; omega), units_nil]

end Utf16

/-! ## The conversion -/

namespace OffsetMap

open Utf16

variable {cs : List Char} {offset index : Int}

/-- The table of a text gives the indices that stand in it. -/
theorem toIndex?_table (cs : List Char) (o : Nat) :
    (table (unitIndices 0 cs).toArray).toIndex? o =
      (unitIndices 0 cs)[o]?.map fun i : Nat => (i : Int) := by
  have hnonneg : ¬(o : Int) < 0 := by omega
  simp [toIndex?, hnonneg]

/-- Without wide characters an offset is an index already. -/
theorem toIndex?_table_of_narrow (h : ∀ c ∈ cs, c.toNat ≤ 0xffff) {o : Nat}
    (ho : o ≤ (units cs).length) :
    (table (unitIndices 0 cs).toArray).toIndex? o = identity.toIndex? o := by
  rw [length_units_of_narrow h] at ho
  rw [toIndex?_table, unitIndices_of_narrow 0 h, List.getElem?_range' (by omega)]
  simp [toIndex?]

theorem ofText_of_narrow (h : ∀ c ∈ cs, c.toNat ≤ 0xffff) : ofText cs = identity := by
  have hnone : cs.any isWide = false :=
    List.any_eq_false.mpr fun c hc => by simp [isWide_eq_false (h c hc)]
  simp [ofText, hnone]

/-- The conversion for a text gives what the table of the text gives. -/
theorem toIndex?_ofText (cs : List Char) {o : Nat} (ho : o ≤ (units cs).length) :
    (ofText cs).toIndex? o = (unitIndices 0 cs)[o]?.map fun i : Nat => (i : Int) := by
  rw [← toIndex?_table]
  by_cases hwide : cs.any isWide = true
  · rw [ofText, if_pos hwide]
  · have hnarrow : ∀ c ∈ cs, c.toNat ≤ 0xffff := by simpa [isWide] using hwide
    rw [ofText_of_narrow hnarrow, toIndex?_table_of_narrow hnarrow ho]

/-- An offset between two characters is converted exactly. -/
theorem toIndex?_of_marks (h : Marks cs offset index) :
    (ofText cs).toIndex? offset = some index := by
  obtain ⟨before, after, rfl, rfl, rfl⟩ := h
  have hentry := getElem?_unitIndices 0 before after 0
  rw [head_unitIndices, Nat.zero_add, Nat.add_zero] at hentry
  rw [toIndex?_ofText _ (by simp), hentry, Option.map_some]

/-- An offset inside a character is converted to the index of the character. -/
theorem toIndex?_inside {before after : List Char} {c : Char} {o : Nat}
    (hlow : (units before).length < o) (hhigh : o < (units (before ++ [c])).length) :
    (ofText (before ++ c :: after)).toIndex? o = some (before.length : Int) := by
  have hwidth : o - (units before).length < width c := by
    rw [units_append, List.length_append, units_cons, units_nil, List.append_nil,
      length_charUnits] at hhigh
    omega
  have hentry := getElem?_unitIndices_inside before after hwidth
  rw [Nat.add_sub_cancel' (Nat.le_of_lt hlow)] at hentry
  have hwithin : o ≤ (units (before ++ c :: after)).length := by
    simp only [units_append, units_cons, units_nil, List.length_append, List.append_nil] at hhigh ⊢
    omega
  rw [toIndex?_ofText _ hwithin, hentry, Option.map_some]

/-- Every offset within a text is converted to an index within it, and the order is kept. -/
theorem toIndex?_mono {o o' : Nat} (hle : o ≤ o') (hwithin : o' ≤ (units cs).length) :
    ∃ i i' : Nat, (ofText cs).toIndex? o = some (i : Int) ∧
      (ofText cs).toIndex? o' = some (i' : Int) ∧ i ≤ i' ∧ i' ≤ cs.length := by
  have hlength := length_unitIndices 0 cs
  have hlow : o < (unitIndices 0 cs).length := by omega
  have hhigh : o' < (unitIndices 0 cs).length := by omega
  refine ⟨(unitIndices 0 cs)[o], (unitIndices 0 cs)[o'], ?_, ?_, ?_, ?_⟩
  · rw [toIndex?_ofText _ (by omega), List.getElem?_eq_getElem hlow, Option.map_some]
  · rw [toIndex?_ofText _ hwithin, List.getElem?_eq_getElem hhigh, Option.map_some]
  · rcases Nat.eq_or_lt_of_le hle with rfl | hlt
    · exact Nat.le_refl _
    · exact List.pairwise_iff_getElem.mp (unitIndices_sorted 0 cs) o o' hlow hhigh hlt
  · have hbound := le_length_of_mem_unitIndices (List.getElem_mem hhigh)
    omega

end OffsetMap

end DocHeader

/-!
# Associations

Lists of named values in the order in which the names were first written. Writing a name
again keeps its place and takes the new value.

## Main definitions

* `Association.set` — the list after one more value is written.
* `Association.get?` — the value of a name.
-/

namespace DocHeader.Association

variable {α β : Type} [DecidableEq α]

/-- The list after `value` is written under `key`: in place when the key is known. -/
def set (key : α) (value : β) : List (α × β) → List (α × β)
  | [] => [(key, value)]
  | (k, v) :: rest => if k = key then (k, value) :: rest else (k, v) :: set key value rest

/-- The value of a key. -/
def get? (key : α) : List (α × β) → Option β
  | [] => none
  | (k, v) :: rest => if k = key then some v else get? key rest

/-- The list without a key. -/
def erase (key : α) (entries : List (α × β)) : List (α × β) := entries.filter fun e => e.1 ≠ key

/-- The association of a list of writes, one after the other. -/
def ofWrites (writes : List (α × β)) : List (α × β) :=
  writes.foldl (fun entries w => set w.1 w.2 entries) []

@[simp] theorem get?_nil (key : α) : get? key ([] : List (α × β)) = none := rfl

/-- A key has no value just when it is none of the keys. -/
theorem get?_eq_none {key : α} {entries : List (α × β)} :
    get? key entries = none ↔ ∀ e ∈ entries, e.1 ≠ key := by
  induction entries with
  | nil => simp
  | cons e rest ih =>
    obtain ⟨k, v⟩ := e
    by_cases hk : k = key <;> simp [get?, hk, ih]

/-- A value is found just where it stands, when no key stands there twice. -/
theorem get?_eq_some {key : α} {value : β} {entries : List (α × β)}
    (hdistinct : (entries.map (·.1)).Nodup) :
    get? key entries = some value ↔ (key, value) ∈ entries := by
  induction entries with
  | nil => simp
  | cons e rest ih =>
    obtain ⟨k, v⟩ := e
    obtain ⟨hfresh, hrest⟩ := List.nodup_cons.mp hdistinct
    by_cases hk : k = key
    · subst hk
      have hnone : (k, value) ∉ rest := fun hmem => hfresh (List.mem_map.mpr ⟨_, hmem, rfl⟩)
      simp [get?, hnone, eq_comm]
    · simp [get?, hk, ih hrest, Ne.symm hk]

/-- A written value is found under its key, and every other key is found as before. -/
theorem get?_set (key other : α) (value : β) (entries : List (α × β)) :
    get? other (set key value entries) =
      if other = key then some value else get? other entries := by
  induction entries with
  | nil => by_cases h : key = other <;> simp [set, get?, h, eq_comm]
  | cons e rest ih =>
    obtain ⟨k, v⟩ := e
    by_cases hk : k = key
    · subst hk
      by_cases h : k = other
      · simp [set, get?, h]
      · simp [set, get?, h, show ¬other = k from fun e => h e.symm]
    · by_cases h : k = other
      · subst h
        simp [set, get?, hk]
      · simp [set, get?, hk, h, ih]

/-- An erased key is not found, and every other key is found as before. -/
theorem get?_erase (key other : α) (entries : List (α × β)) :
    get? other (erase key entries) = if other = key then none else get? other entries := by
  induction entries with
  | nil => simp [erase]
  | cons e rest ih =>
    obtain ⟨k, v⟩ := e
    by_cases hk : k = key
    · subst hk
      simp only [erase, ne_eq, not_true_eq_false, decide_false, List.filter_cons_of_neg,
        Bool.false_eq_true, not_false_eq_true]
      by_cases h : k = other
      · subst h
        simpa [erase] using ih
      · have ho : ¬other = k := fun e => h e.symm
        simpa [erase, get?, h, ho] using ih
    · have hkeep : erase key ((k, v) :: rest) = (k, v) :: erase key rest := by simp [erase, hk]
      rw [hkeep]
      by_cases h : k = other
      · subst h
        simp [get?, hk]
      · simp [get?, h, ih]

/-- Writing a key adds it to the keys, and takes none away. -/
theorem mem_keys_set (key other : α) (value : β) (entries : List (α × β)) :
    other ∈ (set key value entries).map (·.1) ↔ other = key ∨ other ∈ entries.map (·.1) := by
  induction entries with
  | nil => simp [set]
  | cons e rest ih =>
    obtain ⟨k, v⟩ := e
    by_cases hk : k = key
    · simp [set, hk]
    · rw [set, if_neg hk, List.map_cons, List.mem_cons, ih, List.map_cons, List.mem_cons]
      exact or_left_comm

/-- No key is there twice after a value is written. -/
theorem nodup_keys_set (key : α) (value : β) {entries : List (α × β)}
    (h : (entries.map (·.1)).Nodup) : ((set key value entries).map (·.1)).Nodup := by
  induction entries with
  | nil => simp [set]
  | cons e rest ih =>
    obtain ⟨k, v⟩ := e
    obtain ⟨hfresh, hrest⟩ := List.nodup_cons.mp h
    by_cases hk : k = key
    · rw [set, if_pos hk]
      exact List.nodup_cons.mpr ⟨hfresh, hrest⟩
    · rw [set, if_neg hk, List.map_cons]
      refine List.nodup_cons.mpr ⟨fun hmem => ?_, ih hrest⟩
      exact ((mem_keys_set key k value rest).mp hmem).elim hk hfresh

/-- The keys of an association are those that were written. -/
theorem mem_keys_ofWrites (key : α) (writes : List (α × β)) :
    key ∈ (ofWrites writes).map (·.1) ↔ key ∈ writes.map (·.1) := by
  have hfold (entries : List (α × β)) :
      key ∈ (writes.foldl (fun entries w => set w.1 w.2 entries) entries).map (·.1) ↔
        key ∈ entries.map (·.1) ∨ key ∈ writes.map (·.1) := by
    induction writes generalizing entries with
    | nil => simp
    | cons w rest ih =>
      rw [List.foldl_cons, ih, mem_keys_set, List.map_cons, List.mem_cons]
      simp only [or_assoc, or_left_comm]
  simpa [ofWrites] using hfold []

end DocHeader.Association

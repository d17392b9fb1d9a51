import DocHeader.Edit.Batch
import DocHeader.Proofs.Disk.Calm
import DocHeader.Proofs.Edit.Woven

/-!
# Batches and the disk

What applying a batch does to the files of a disk. When every insertion lies within the
text of its file, each file gets its text with its own insertions, in the order in which
they were collected, and nothing else changes. One insertion that does not, in whatever
file, keeps the whole batch from being applied.

A batch that could not be applied has left every file alone when writing stopped before
the last file was replaced. When a backup could not be removed after that, the files have
their insertions all the same.

## Main definitions

* `Writer.Holds` — a path leads to a text within the base directory.
* `EditBatch.Fits` — every insertion lies within the text of its file.
* `EditBatch.newTexts`, `EditBatch.targets` — what applying a batch writes, and where.
* `EditBatch.Commits` — all files of a batch get replaced.
* `EditBatch.FailsOnce` — nothing fails after a failure to replace the files.
* `EditBatch.Idle` — each file of a batch has its new text already.
-/

namespace DocHeader

variable {w : Writer} {j j' : Journal Disk} {t : FileTree} {b : EditBatch} {file : String}

/-! ## Reading -/

namespace Writer

/-- A path leads to a text within the base directory. -/
def Holds (w : Writer) (t : FileTree) (path text : String) : Prop :=
  (w.placeOf path).isWithin w.base = true ∧ t.readAt (w.placeOf path) = .ok text

/-- The text a path leads to, and the empty text where it leads to none. -/
def textOf (w : Writer) (t : FileTree) (path : String) : String :=
  (t.readAt (w.placeOf path)).toOption.getD ""

theorem Holds.textOf_eq {path text : String} (h : w.Holds t path text) :
    w.textOf t path = text := by
  rw [textOf, h.2]
  rfl

theorem Holds.find?_eq {path text : String} (h : w.Holds t path text) :
    ∃ content, t.find? (w.placeOf path) = some (.file content) ∧ content.decoded = .ok text :=
  FileTree.textAt_eq_ok.mp h.2

theorem read_of_holds {path text : String} (h : w.Holds j.state.tree path text) :
    w.read path j = (.ok text, j) := by
  obtain ⟨content, hfound, -⟩ := h.find?_eq
  have hvalid : w.validate j.state.tree path = .ok (w.placeOf path) :=
    validate_eq_ok.mpr ⟨rfl, by simp [hfound], h.1⟩
  simp only [read, Disk.currentTree_bind, hvalid, h.2, Logged.pure_apply]

theorem read_of_not_holds {path : String} (h : ∀ text, ¬w.Holds j.state.tree path text) :
    ∃ e, w.read path j = (.error e, j) := by
  cases hvalid : w.validate j.state.tree path with
  | error e =>
    simp only [read, Disk.currentTree_bind, hvalid, Logged.pure_apply]
    exact ⟨e, rfl⟩
  | ok place =>
    obtain ⟨rfl, -, hwithin⟩ := validate_eq_ok.mp hvalid
    cases hread : j.state.tree.readAt (w.placeOf path) with
    | ok text => exact absurd ⟨hwithin, hread⟩ (h text)
    | error e =>
      simp only [read, Disk.currentTree_bind, hvalid, hread, Logged.pure_apply]
      exact ⟨_, rfl⟩

end Writer

namespace EditBatch

/-- Every insertion lies within the text of its file. -/
def Fits (b : EditBatch) (w : Writer) (t : FileTree) : Prop :=
  ∀ i ∈ b, ∃ text, w.Holds t i.file text ∧ i.Fits text.length

/-- The files of a batch with their new texts. -/
def newTexts (b : EditBatch) (w : Writer) (t : FileTree) : List (String × String) :=
  b.byFile.map fun x => (x.1, wovenText (w.textOf t x.1) x.2)

/-- The places of the files of a batch, with their new texts. -/
def targets (b : EditBatch) (w : Writer) (t : FileTree) : List (Place × String) :=
  w.targetsOf (b.newTexts w t)

/-- All files of a batch get replaced by their new texts. -/
def Commits (b : EditBatch) (w : Writer) (j : Journal Disk) : Prop :=
  b.Fits w j.state.tree ∧ w.Replaces (b.targets w j.state.tree) j

/-- When something keeps the files of a batch from being replaced, nothing fails after
that. -/
def FailsOnce (b : EditBatch) (w : Writer) (j : Journal Disk) : Prop :=
  b.Fits w j.state.tree → ¬w.Replaces (b.targets w j.state.tree) j →
    w.hazards.SafeUndo (w.replaceAll (b.targets w j.state.tree) j).2.state.steps

/-- Each file of a batch has its new text already. -/
def Idle (b : EditBatch) (w : Writer) (t : FileTree) : Prop :=
  ∀ p text, lastText p (b.targets w t) = some text → t.readAt p = .ok text

/-! ## Grouping -/

theorem mem_files : file ∈ b.files ↔ ∃ i ∈ b, i.file = file := by
  rw [files, Association.mem_keys_ofWrites]
  simp

@[simp] theorem mem_ofFile {i : Insertion} : i ∈ b.ofFile file ↔ i ∈ b ∧ i.file = file := by
  simp [ofFile]

theorem mem_byFile {insertions : List Insertion} :
    (file, insertions) ∈ b.byFile ↔ (∃ i ∈ b, i.file = file) ∧ insertions = b.ofFile file := by
  simp only [byFile, List.mem_map, mem_files, Prod.mk.injEq]
  constructor
  · rintro ⟨_, hfile, rfl, rfl⟩
    exact ⟨hfile, rfl⟩
  · rintro ⟨hfile, rfl⟩
    exact ⟨file, hfile, rfl, rfl⟩

/-- A batch fits when the insertions of each file lie within its text. -/
theorem fits_iff_byFile : b.Fits w t ↔
    ∀ x ∈ b.byFile, ∃ text, w.Holds t x.1 text ∧ ∀ i ∈ x.2, i.Fits text.length := by
  constructor
  · rintro h ⟨file, insertions⟩ hx
    obtain ⟨⟨i, hi, rfl⟩, rfl⟩ := mem_byFile.mp hx
    obtain ⟨text, htext, -⟩ := h i hi
    refine ⟨text, htext, fun k hk => ?_⟩
    obtain ⟨hkb, hfile⟩ := mem_ofFile.mp hk
    obtain ⟨text', htext', hfits⟩ := h k hkb
    rw [hfile] at htext'
    rwa [← htext.textOf_eq, htext'.textOf_eq]
  · intro h i hi
    obtain ⟨text, htext, hfits⟩ := h (i.file, b.ofFile i.file) (mem_byFile.mpr ⟨⟨i, hi, rfl⟩, rfl⟩)
    exact ⟨text, htext, hfits i (mem_ofFile.mpr ⟨hi, rfl⟩)⟩

/-! ## New texts -/

/-- The texts of files with their insertions are found, and nothing changes. -/
theorem newContents_of_fits {edits : List (String × List Insertion)}
    (h : ∀ x ∈ edits, ∃ text, w.Holds j.state.tree x.1 text ∧
      ∀ i ∈ x.2, i.Fits text.length) :
    newContents w edits j =
      (.ok (edits.map fun x => (x.1, wovenText (w.textOf j.state.tree x.1) x.2)), j) := by
  induction edits with
  | nil => rfl
  | cons x rest ih =>
    obtain ⟨file, insertions⟩ := x
    obtain ⟨⟨text, hholds, hfits⟩, hrest⟩ := List.forall_mem_cons.mp h
    simp only [newContents, Logged.bind_apply, Writer.read_of_holds hholds,
      applyInsertions_of_fits hfits, ih hrest, Logged.pure_apply, List.map_cons,
      hholds.textOf_eq, Except.map]

/-- An insertion that does not lie within the text of its file is noticed before anything
has changed. -/
theorem newContents_of_not_fits {edits : List (String × List Insertion)}
    (h : ¬∀ x ∈ edits, ∃ text, w.Holds j.state.tree x.1 text ∧
      ∀ i ∈ x.2, i.Fits text.length) :
    ∃ reason, newContents w edits j = (.error reason, j) := by
  induction edits with
  | nil => exact absurd (by simp) h
  | cons x rest ih =>
    obtain ⟨file, insertions⟩ := x
    by_cases hholds : ∃ text, w.Holds j.state.tree file text
    · obtain ⟨text, hholds⟩ := hholds
      by_cases hfits : ∀ i ∈ insertions, i.Fits text.length
      · have hrest : ¬∀ x ∈ rest, ∃ text, w.Holds j.state.tree x.1 text ∧
            ∀ i ∈ x.2, i.Fits text.length := by
          intro hall
          exact h (List.forall_mem_cons.mpr ⟨⟨text, hholds, hfits⟩, hall⟩)
        obtain ⟨reason, hreason⟩ := ih hrest
        simp only [newContents, Logged.bind_apply, Writer.read_of_holds hholds,
          applyInsertions_of_fits hfits, hreason, Logged.pure_apply, Except.map]
        exact ⟨reason, rfl⟩
      · obtain ⟨fault, hfault⟩ := applyInsertions_of_not_fits (by
          simpa only [not_forall, exists_prop] using hfits)
        simp only [newContents, Logged.bind_apply, Writer.read_of_holds hholds, hfault,
          Logged.pure_apply]
        exact ⟨_, rfl⟩
    · obtain ⟨e, he⟩ := Writer.read_of_not_holds fun text htext => hholds ⟨text, htext⟩
      simp only [newContents, Logged.bind_apply, he, Logged.pure_apply]
      exact ⟨_, rfl⟩

/-- Where all insertions fit, computing new texts comes to every file, so also to one with a place
that is null. -/
theorem meetsUnplaced_of_forall {disk : Disk} {unplaced : List String}
    {edits : List (String × List Insertion)}
    (h : ∀ x ∈ edits, ∃ text, w.Holds disk.tree x.1 text ∧ ∀ i ∈ x.2, i.Fits text.length)
    (hunplaced : ∃ x ∈ edits, x.1 ∈ unplaced) : meetsUnplaced w unplaced disk edits = true := by
  induction edits with
  | nil => simp at hunplaced
  | cons x rest ih =>
    obtain ⟨file, insertions⟩ := x
    obtain ⟨⟨text, hholds, hfits⟩, hrest⟩ := List.forall_mem_cons.mp h
    simp only [meetsUnplaced, Writer.read_of_holds (j := ⟨disk, []⟩) hholds,
      applyInsertions_of_fits hfits, Bool.or_eq_true, List.contains_iff_mem]
    obtain ⟨_, hx, hmem⟩ := hunplaced
    rcases List.mem_cons.mp hx with rfl | hx
    · exact .inl hmem
    · exact .inr (ih hrest ⟨_, hx, hmem⟩)

theorem meetsUnplaced_of_fits {disk : Disk} {unplaced : List String} (h : b.Fits w disk.tree)
    {i : Insertion} (hi : i ∈ b) (hunplaced : i.file ∈ unplaced) :
    meetsUnplaced w unplaced disk b.byFile = true :=
  meetsUnplaced_of_forall (fits_iff_byFile.mp h)
    ⟨(i.file, b.ofFile i.file), mem_byFile.mpr ⟨⟨i, hi, rfl⟩, rfl⟩, hunplaced⟩

/-- Each file of a batch that fits is a file. -/
theorem Fits.targets_are_files (h : b.Fits w t) :
    ∀ x ∈ b.targets w t, ∃ content, t.find? x.1 = some (.file content) := by
  intro x hx
  obtain ⟨_, hy, rfl⟩ := List.mem_map.mp hx
  obtain ⟨⟨file, insertions⟩, hfile, rfl⟩ := List.mem_map.mp hy
  obtain ⟨text, hholds, -⟩ := fits_iff_byFile.mp h _ hfile
  obtain ⟨content, hcontent, -⟩ := hholds.find?_eq
  exact ⟨content, hcontent⟩

/-! ## Applying -/

theorem Fits.targets_exist (h : b.Fits w t) : ∀ x ∈ b.targets w t, t.find? x.1 ≠ none := by
  intro x hx
  obtain ⟨content, hcontent⟩ := h.targets_are_files x hx
  simp [hcontent]

/-- A batch that does not fit is not applied, and nothing changes. -/
theorem apply_of_not_fits (h : ¬b.Fits w j.state.tree) :
    (b.apply w j).1 = false ∧ (b.apply w j).2.state = j.state := by
  have hne : b.isEmpty = false := by
    cases b with
    | nil => exact absurd (fun i hi => by cases hi) h
    | cons i rest => rfl
  obtain ⟨reason, hreason⟩ := newContents_of_not_fits (mt fits_iff_byFile.mpr h)
  simp only [apply, hne, Bool.false_eq_true, if_false, Logged.bind_apply, hreason, noteFailure,
    Logged.warn_apply, Logged.pure_apply, and_self]

/-- A batch that fits is applied by writing the new texts of its files. -/
theorem apply_of_fits (hne : b.isEmpty = false) (h : b.Fits w j.state.tree) :
    ((b.apply w j).1 = true ↔ (w.commit (b.targets w j.state.tree) j).1 = .ok ()) ∧
      (b.apply w j).2.state = (w.commit (b.targets w j.state.tree) j).2.state := by
  have hnew : newContents w b.byFile j = (.ok (b.newTexts w j.state.tree), j) :=
    newContents_of_fits (fits_iff_byFile.mp h)
  have hvalid : w.validateAll j.state.tree (b.newTexts w j.state.tree) =
      .ok (b.targets w j.state.tree) := by
    refine Writer.validateAll_eq_ok.mpr ⟨rfl, fun x hx => ?_⟩
    obtain ⟨⟨file, insertions⟩, hfile, rfl⟩ := List.mem_map.mp hx
    obtain ⟨text, hholds, -⟩ := fits_iff_byFile.mp h _ hfile
    obtain ⟨content, hcontent, -⟩ := hholds.find?_eq
    exact ⟨by simp [hcontent], hholds.1⟩
  rcases hcommit : w.commit (b.targets w j.state.tree) j with ⟨r, j'⟩
  simp only [apply, hne, Bool.false_eq_true, if_false, Logged.bind_apply, hnew,
    Writer.writeAll_of_valid hvalid, hcommit]
  cases r with
  | error e => simp [noteFailure, Logged.bind_apply]
  | ok _ => simp [Logged.bind_apply]

/-! ## Each file and its insertions -/

theorem mem_targets {p : Place} {text : String} : (p, text) ∈ b.targets w t ↔
    ∃ i ∈ b, p = w.placeOf i.file ∧
      text = wovenText (w.textOf t i.file) (b.ofFile i.file) := by
  simp only [targets, Writer.targetsOf, newTexts, List.map_map, List.mem_map, Function.comp_apply,
    Prod.exists, mem_byFile, Prod.mk.injEq]
  constructor
  · rintro ⟨file, insertions, ⟨⟨i, hi, rfl⟩, rfl⟩, rfl, rfl⟩
    exact ⟨i, hi, rfl, rfl⟩
  · rintro ⟨i, hi, rfl, rfl⟩
    exact ⟨i.file, b.ofFile i.file, ⟨⟨i, hi, rfl⟩, rfl⟩, rfl, rfl⟩

/-- When paths name different files, each file gets its own insertions and no others. -/
theorem overwritten_targets
    (hnames : ∀ i ∈ b, ∀ k ∈ b, w.placeOf i.file = w.placeOf k.file → i.file = k.file)
    {i : Insertion} (hi : i ∈ b) {text : String} (h : w.Holds t i.file text) :
    t.overwritten (b.targets w t) (w.placeOf i.file) =
      some (.file (.text (wovenText text (b.ofFile i.file)))) := by
  have hmem : (w.placeOf i.file, wovenText text (b.ofFile i.file)) ∈ b.targets w t :=
    mem_targets.mpr ⟨i, hi, rfl, by rw [h.textOf_eq]⟩
  cases hlast : lastText (w.placeOf i.file) (b.targets w t) with
  | none => exact absurd rfl (lastText_eq_none.mp hlast _ hmem)
  | some last =>
    obtain ⟨k, hk, hplace, rfl⟩ := mem_targets.mp (mem_of_lastText hlast)
    rw [FileTree.overwritten, hlast, ← hnames i hi k hk hplace, h.textOf_eq]

/-- **A batch is applied when all its insertions fit, and then file by file.** Where
nothing else goes wrong and paths name different files, applying a batch succeeds just
when every insertion lies within the text that its file holds, and then each file gets
its text with its own insertions, woven in the order in which they were collected, while
nothing else changes. When it does not succeed, nothing changes at all. -/
theorem apply_weaves_each_file (w : Writer) (b : EditBatch) (j : Journal Disk)
    (hj : w.hazards.Undisturbed j.state)
    (hnames : ∀ i ∈ b, ∀ k ∈ b, w.placeOf i.file = w.placeOf k.file → i.file = k.file) :
    ((b.apply w j).1 = true ↔ ∀ i ∈ b, ∃ text, w.Holds j.state.tree i.file text ∧
      0 ≤ i.offset ∧ i.offset ≤ text.length) ∧
    ((b.apply w j).1 = true →
      (∀ i ∈ b, ∀ text, w.Holds j.state.tree i.file text →
        (b.apply w j).2.state.tree.find? (w.placeOf i.file) =
          some (.file (.text (wovenText text (b.ofFile i.file))))) ∧
      ∀ p, (∀ i ∈ b, w.placeOf i.file ≠ p) →
        (b.apply w j).2.state.tree.find? p = j.state.tree.find? p) ∧
    ((b.apply w j).1 = false →
      ∀ p, (b.apply w j).2.state.tree.find? p = j.state.tree.find? p) := by
  change ((b.apply w j).1 = true ↔ b.Fits w j.state.tree) ∧ _
  cases hempty : b.isEmpty with
  | true =>
    obtain rfl := List.isEmpty_iff.mp hempty
    exact ⟨⟨fun _ i hi => (by cases hi), fun _ => rfl⟩,
      fun _ => ⟨fun i hi => (by cases hi), fun _ _ => rfl⟩, fun _ _ => rfl⟩
  | false =>
    by_cases hfits : b.Fits w j.state.tree
    · obtain ⟨happlied, hstate⟩ := apply_of_fits hempty hfits
      obtain ⟨j', hcommit, hfound⟩ := Writer.commit_of_undisturbed hj hfits.targets_are_files
      rw [hcommit] at happlied hstate
      have htrue : (b.apply w j).1 = true := happlied.mpr rfl
      rw [hstate, htrue]
      refine ⟨⟨fun _ => hfits, fun _ => rfl⟩, fun _ => ⟨fun i hi text h => ?_, fun p hp => ?_⟩,
        fun h => by cases h⟩
      · rw [hfound, overwritten_targets hnames hi h]
      · rw [hfound, FileTree.overwritten_of_not_target]
        rintro ⟨q, text⟩ hx rfl
        obtain ⟨i, hi, hplace, -⟩ := mem_targets.mp hx
        exact hp i hi hplace.symm
    · obtain ⟨hfalse, hstate⟩ := apply_of_not_fits hfits
      rw [hstate, hfalse]
      exact ⟨⟨fun h => (by cases h), fun h => absurd h hfits⟩, fun h => (by cases h),
        fun _ _ => rfl⟩

/-- A disk with two files. -/
def aAndB : Journal Disk where
  state := { tree := ⟨[(["a"], .file (.text "A")), (["b"], .file (.text "B"))]⟩ }

theorem aAndB_clean (p : Place) (hp : aAndB.state.tree.find? p ≠ none) :
    ¬p.IsStaging ∧ ¬p.IsBackup :=
  FileTree.clean_of_names (by decide) p hp

/-- Insertions into two files, collected in turns, go each to its own file. -/
theorem apply_in_turns :
    (apply ⟨[], [], {}⟩ [⟨"a", 1, "X"⟩, ⟨"b", 0, "Y"⟩, ⟨"a", 0, "Z"⟩] aAndB).1 = true ∧
    (apply ⟨[], [], {}⟩ [⟨"a", 1, "X"⟩, ⟨"b", 0, "Y"⟩, ⟨"a", 0, "Z"⟩] aAndB).2.state.tree.find?
      ["a"] = some (.file (.text "ZAX")) := by
  have ha : Writer.Holds ⟨[], [], {}⟩ aAndB.state.tree "a" "A" := ⟨by decide, by decide⟩
  have hb : Writer.Holds ⟨[], [], {}⟩ aAndB.state.tree "b" "B" := ⟨by decide, by decide⟩
  obtain ⟨hwhen, happlied, -⟩ := apply_weaves_each_file ⟨[], [], {}⟩
    [⟨"a", 1, "X"⟩, ⟨"b", 0, "Y"⟩, ⟨"a", 0, "Z"⟩] aAndB (.of_clean aAndB_clean) (by decide)
  have htrue := hwhen.mpr (by
    simp only [List.forall_mem_cons]
    exact ⟨⟨"A", ha, by decide⟩, ⟨"B", hb, by decide⟩, ⟨"A", ha, by decide⟩, by simp⟩)
  exact ⟨htrue, (happlied htrue).1 _ List.mem_cons_self "A" ha⟩

/-! ## Failure -/

/-- When only one step fails and nothing else goes wrong, nothing fails after a failure. -/
theorem failsOnce_of_single {k : Nat} (hj : w.hazards.Calm j.state)
    (hk : ∀ n ≠ k, ∀ step, w.hazards.fails n step = none) : b.FailsOnce w j := by
  intro hfits hnot
  obtain ⟨n, hn, step, hfail⟩ :=
    (Writer.replaceAll_of_calm hj hfits.targets_are_files).resolve_left hnot
  have hnk : n = k := by
    by_contra hne
    exact hfail (hk n hne step)
  have hquiet : ∀ m ≥ (w.replaceAll (b.targets w j.state.tree) j).2.state.steps, ∀ step,
      w.hazards.fails m step = none := fun m hm => hk m (by omega)
  exact ⟨fun m hm _ _ => hquiet m hm _, fun m hm _ => hquiet m hm _, fun m hm _ => hquiet m hm _⟩

/-- Short of the last replacement nothing changes, when nothing fails after the failure. -/
theorem apply_of_not_commits (hempty : b.isEmpty = false) (hone : b.FailsOnce w j)
    (h : ¬b.Commits w j) (p : Place) :
    (b.apply w j).2.state.tree.find? p = j.state.tree.find? p := by
  by_cases hfits : b.Fits w j.state.tree
  · have hreplaces : ¬w.Replaces (b.targets w j.state.tree) j := fun hall => h ⟨hfits, hall⟩
    obtain ⟨e, j', hcommit, hsame⟩ :=
      Writer.commit_of_not_replaces (hone hfits hreplaces) hreplaces
    rw [(apply_of_fits hempty hfits).2, hcommit]
    exact hsame p
  · rw [(apply_of_not_fits hfits).2]

/-- Where files can always be restored and backups and temporary files removed, a batch
either gives its files their new texts or changes nothing. -/
theorem apply_cases (b : EditBatch) (j : Journal Disk) (hsafe : w.hazards.SafeUndo 0) :
    ((b.apply w j).1 = true ∧ b.Fits w j.state.tree ∧
      ∀ p, (b.apply w j).2.state.tree.find? p =
        j.state.tree.overwritten (b.targets w j.state.tree) p) ∨
    ((b.apply w j).1 = false ∧
      ∀ p, (b.apply w j).2.state.tree.find? p = j.state.tree.find? p) := by
  cases hempty : b.isEmpty with
  | true =>
    obtain rfl := List.isEmpty_iff.mp hempty
    exact .inl ⟨rfl, fun i hi => (by cases hi), fun _ => rfl⟩
  | false =>
    by_cases hcommits : b.Commits w j
    · obtain ⟨hfits, hreplaces⟩ := hcommits
      obtain ⟨happlied, hstate⟩ := apply_of_fits hempty hfits
      obtain ⟨j', hcommit, hfound⟩ := Writer.commit_ok_of_replaces hfits.targets_exist
        (fun n backup => hsafe.removeBackup n (Nat.zero_le n) backup) hreplaces
      rw [hcommit] at happlied hstate
      exact .inl ⟨happlied.mpr rfl, hfits, fun p => by rw [hstate, hfound]⟩
    · have hsame := apply_of_not_commits hempty (fun _ _ => hsafe.mono (Nat.zero_le _)) hcommits
      refine .inr ⟨?_, hsame⟩
      by_cases hfits : b.Fits w j.state.tree
      · obtain ⟨happlied, -⟩ := apply_of_fits hempty hfits
        obtain ⟨e, j', hcommit, -⟩ := Writer.commit_of_not_replaces
          (hsafe.mono (Nat.zero_le _)) fun hreplaces => hcommits ⟨hfits, hreplaces⟩
        rw [hcommit] at happlied
        simpa using happlied
      · exact (apply_of_not_fits hfits).1

/-- After the last replacement only a backup that cannot be removed makes the batch count
as not applied, and every file holds its new text all the same. -/
theorem apply_false_of_commits (hempty : b.isEmpty = false) (hfalse : (b.apply w j).1 = false)
    (h : b.Commits w j) :
    (∃ n backup, w.hazards.fails n (.removeBackup backup) ≠ none) ∧
      ∀ i ∈ b, (b.apply w j).2.state.tree.find? (w.placeOf i.file) =
        j.state.tree.overwritten (b.targets w j.state.tree) (w.placeOf i.file) := by
  obtain ⟨hfits, hreplaces⟩ := h
  obtain ⟨happlied, hstate⟩ := apply_of_fits hempty hfits
  rcases hcommit : w.commit (b.targets w j.state.tree) j with ⟨e | _, j'⟩
  · obtain ⟨hfail, hfound⟩ :=
      Writer.commit_error_of_replaces hfits.targets_exist hreplaces hcommit
    refine ⟨hfail, fun i hi => ?_⟩
    rw [hstate, hcommit]
    exact hfound _ (mem_targets.mpr ⟨i, hi, rfl, rfl⟩)
  · rw [hcommit] at happlied
    rw [happlied.mpr rfl] at hfalse
    cases hfalse

/-- **A batch that is said not to be applied, and its files.** When nothing fails after a
failure to replace the files, the files of a batch that could not be applied read as they
did just when the batch did not replace them, or wrote what was there already. Short of the
last replacement nothing has changed anywhere. After it a backup could not be removed, and
every file holds its new text. -/
theorem apply_false_keeps_iff (w : Writer) (b : EditBatch) (j : Journal Disk)
    (hone : b.FailsOnce w j) (hfalse : (b.apply w j).1 = false) :
    ((∀ i ∈ b, (b.apply w j).2.state.tree.readAt (w.placeOf i.file) =
        j.state.tree.readAt (w.placeOf i.file)) ↔
      (b.Commits w j → b.Idle w j.state.tree)) ∧
    (¬b.Commits w j → ∀ p, (b.apply w j).2.state.tree.find? p = j.state.tree.find? p) ∧
    (b.Commits w j →
      (∃ n backup, w.hazards.fails n (.removeBackup backup) ≠ none) ∧
      ∀ i ∈ b, (b.apply w j).2.state.tree.find? (w.placeOf i.file) =
        j.state.tree.overwritten (b.targets w j.state.tree) (w.placeOf i.file)) := by
  have hempty : b.isEmpty = false := by
    cases b with
    | nil => cases hfalse
    | cons i rest => rfl
  have hkept := apply_of_not_commits hempty hone
  have hwritten := apply_false_of_commits hempty hfalse
  refine ⟨⟨fun hsame hcommits p text hlast => ?_, fun hidle i hi => ?_⟩, hkept, hwritten⟩
  · obtain ⟨i, hi, rfl, -⟩ := mem_targets.mp (mem_of_lastText hlast)
    have hnow := (hwritten hcommits).2 i hi
    rw [FileTree.overwritten, hlast] at hnow
    rw [← hsame i hi]
    exact FileTree.textAt_eq_ok.mpr ⟨_, hnow, rfl⟩
  · by_cases hcommits : b.Commits w j
    · have hnow := (hwritten hcommits).2 i hi
      cases hlast : lastText (w.placeOf i.file) (b.targets w j.state.tree) with
      | none =>
        exact absurd rfl (lastText_eq_none.mp hlast _ (mem_targets.mpr ⟨i, hi, rfl, rfl⟩))
      | some text =>
        rw [FileTree.overwritten, hlast] at hnow
        rw [hidle hcommits _ text hlast]
        exact FileTree.textAt_eq_ok.mpr ⟨_, hnow, rfl⟩
    · exact FileTree.readAt_congr (hkept hcommits _)

/-- A writer whose step with number `k` fails, and no other. -/
def busyAt (k : Nat) : Writer where
  here := []
  base := []
  hazards := { fails := fun n _ => if n = k then some "busy" else none }

/-- When the file cannot be replaced, which is the fourth step, nothing changes. -/
theorem apply_keeps_when_replacing_fails :
    (apply (busyAt 3) [⟨"a", 0, "x"⟩] aAndB).1 = false ∧
    ∀ p, (apply (busyAt 3) [⟨"a", 0, "x"⟩] aAndB).2.state.tree.find? p =
      aAndB.state.tree.find? p := by
  have hfalse : (apply (busyAt 3) [⟨"a", 0, "x"⟩] aAndB).1 = false := by decide +kernel
  have hnot : ¬Commits [⟨"a", 0, "x"⟩] (busyAt 3) aAndB := by
    rintro ⟨-, hreplaces⟩
    exact absurd hreplaces (by unfold Writer.Replaces; decide +kernel)
  have hcalm := (Hazards.Undisturbed.of_clean aAndB_clean).toCalm
  have hone : FailsOnce [⟨"a", 0, "x"⟩] (busyAt 3) aAndB :=
    failsOnce_of_single ⟨rfl, fun _ => rfl, hcalm.plain, hcalm.distinct, hcalm.free⟩
      fun _ hn _ => if_neg hn
  exact ⟨hfalse, (apply_false_keeps_iff (busyAt 3) _ aAndB hone hfalse).2.1 hnot⟩

/-- When the backup cannot be removed, which is the fifth step, the batch is said not to be
applied, and the file has changed. -/
theorem apply_changes_when_removing_fails :
    (∀ n ≠ 4, ∀ step, (busyAt 4).hazards.fails n step = none) ∧
    (apply (busyAt 4) [⟨"a", 0, "x"⟩] aAndB).1 = false ∧
    aAndB.state.tree.readAt ["a"] = .ok "A" ∧
    (apply (busyAt 4) [⟨"a", 0, "x"⟩] aAndB).2.state.tree.readAt ["a"] = .ok "xA" :=
  ⟨fun _ hn _ => if_neg hn, by decide +kernel, by decide +kernel, by decide +kernel⟩

end EditBatch

end DocHeader

import DocHeader.Disk.Writer
import Mathlib.Data.List.Basic

/-!
# The steps of writing

What each step of writing may do to a file tree. A step that fails leaves the tree as it
was; one that succeeds puts or removes what it is there for, and nothing else.

Temporary files and backups never share a name, because they end differently.

## Main definitions

* `Place.IsStaging`, `Place.IsBackup` — places of temporary files, and of backups.
* `Hazards.SafeUndo` — from some step on, restoring and removing never fail.
-/

namespace DocHeader

/-- A place that a temporary file may get. -/
def Place.IsStaging (p : Place) : Prop := ∃ target stamp, p = Writer.stagingPlace target stamp

/-- A place that a backup may get. -/
def Place.IsBackup (p : Place) : Prop := ∃ target stamp, p = Writer.backupPlace target stamp

/-- From the step with number `first` on, restoring a target and removing a backup or a
temporary file never fail. -/
structure Hazards.SafeUndo (h : Hazards) (first : Nat) : Prop where
  restore : ∀ n ≥ first, ∀ backup target, h.fails n (.restore backup target) = none
  removeBackup : ∀ n ≥ first, ∀ backup, h.fails n (.removeBackup backup) = none
  removeStaged : ∀ n ≥ first, ∀ staged, h.fails n (.removeStaged staged) = none

theorem Hazards.SafeUndo.mono {h : Hazards} {m n : Nat} (hsafe : h.SafeUndo m) (hle : m ≤ n) :
    h.SafeUndo n where
  restore k hk := hsafe.restore k (Nat.le_trans hle hk)
  removeBackup k hk := hsafe.removeBackup k (Nat.le_trans hle hk)
  removeStaged k hk := hsafe.removeStaged k (Nat.le_trans hle hk)

/-! ## Names -/

theorem Place.IsStaging.ne_nil {p : Place} (h : p.IsStaging) : p ≠ [] := by
  obtain ⟨target, stamp, rfl⟩ := h
  simp [Writer.stagingPlace, Place.sibling]

theorem Place.IsBackup.ne_nil {p : Place} (h : p.IsBackup) : p ≠ [] := by
  obtain ⟨target, stamp, rfl⟩ := h
  simp [Writer.backupPlace, Place.sibling]

theorem Place.name_eq_of_sibling_eq {p q : Place} {a b : String}
    (h : p.sibling a = q.sibling b) : a = b := by
  have hlast := congrArg List.getLast? h
  simpa [Place.sibling] using hlast

/-- The name of a temporary file ends in a `p`. -/
theorem Place.IsStaging.name_end {p : Place} (h : p.IsStaging) :
    p.name.toList.getLast? = some 'p' := by
  obtain ⟨target, stamp, rfl⟩ := h
  simp [Writer.stagingPlace, Place.sibling, Place.name, List.getLast?_cons]

/-- The name of a backup ends in a `k`. -/
theorem Place.IsBackup.name_end {p : Place} (h : p.IsBackup) :
    p.name.toList.getLast? = some 'k' := by
  obtain ⟨target, stamp, rfl⟩ := h
  simp [Writer.backupPlace, Place.sibling, Place.name, List.getLast?_cons]

theorem Place.IsBackup.ne_staging {p q : Place} (hp : p.IsBackup) (hq : q.IsStaging) :
    p ≠ q := by
  rintro rfl
  have hend := hp.name_end
  rw [hq.name_end] at hend
  cases hend

namespace Writer

variable {w : Writer} {j j' : Journal Disk}

/-! ## Steps that lead to new contents -/

/-- Staging at a place leaves the tree as it was, or adds a file with the content where
nothing was. -/
theorem stageAt_cases {staged : Place} {content : String} {r : Except WriteError Place}
    (hne : staged ≠ []) (h : w.stageAt staged content j = (r, j')) :
    (∃ e, r = .error e ∧ ∀ p, j'.state.tree.find? p = j.state.tree.find? p) ∨
    (r = .ok staged ∧ j.state.tree.find? staged = none ∧
      j'.state.tree = j.state.tree.put staged (.file (.text content))) := by
  simp only [stageAt, Disk.currentTree_bind] at h
  cases hfree : j.state.tree.contains staged with
  | true =>
    simp only [hfree, if_true, Logged.pure_apply] at h
    cases h
    exact .inl ⟨_, rfl, fun _ => rfl⟩
  | false =>
    rw [hfree] at h
    rw [FileTree.contains_eq_false] at hfree
    cases hfails : w.hazards.fails j.state.steps (.stage staged) with
    | some message =>
      simp only [Bool.false_eq_true, if_false, Disk.tryStep_bind, hfails,
        Logged.pure_apply] at h
      cases h
      exact .inl ⟨_, rfl, fun _ => rfl⟩
    | none =>
      simp only [Bool.false_eq_true, if_false, Disk.tryStep_bind, hfails,
        Disk.change_bind] at h
      by_cases harrived : w.hazards.arriving content = content
      · simp only [harrived, beq_self_eq_true, if_true, Logged.pure_apply] at h
        cases h
        exact .inr ⟨rfl, hfree, rfl⟩
      · simp only [beq_iff_eq, harrived, if_false, Disk.change_bind,
          Logged.pure_apply] at h
        cases h
        refine .inl ⟨_, rfl, fun p => ?_⟩
        rw [FileTree.changed, FileTree.changed, FileTree.find?_remove hne,
          FileTree.find?_put hne]
        split
        · rename_i hp
          rw [hp, hfree]
        · rfl

/-- Staging leaves the tree as it was, or adds a temporary file with the content. -/
theorem stage_cases {target : Place} {content : String} {r : Except WriteError Place}
    (h : w.stage target content j = (r, j')) :
    (∃ e, r = .error e ∧ ∀ p, j'.state.tree.find? p = j.state.tree.find? p) ∨
    ∃ staged : Place, r = .ok staged ∧ staged.IsStaging ∧ j.state.tree.find? staged = none ∧
      j'.state.tree = j.state.tree.put staged (.file (.text content)) := by
  cases hspace : w.checkSpace target content with
  | error e =>
    simp only [stage, hspace, Logged.pure_apply] at h
    cases h
    exact .inl ⟨e, rfl, fun _ => rfl⟩
  | ok _ =>
    have hstaging : (stagingPlace target (w.hazards.stamp j.state.stamps)).IsStaging :=
      ⟨_, _, rfl⟩
    simp only [stage, hspace, Disk.nextStamp_bind] at h
    rcases stageAt_cases hstaging.ne_nil h with herror | ⟨hr, hnone, htree⟩
    · exact .inl herror
    · exact .inr ⟨_, hr, hstaging, hnone, htree⟩

/-- Backing up at a place leaves the tree as it was, or adds a copy of the target where
nothing was. -/
theorem backUpAt_cases {target backup : Place} {r : Except WriteError Backup}
    (h : w.backUpAt target backup j = (r, j')) :
    (∃ e, r = .error e ∧ j'.state.tree = j.state.tree) ∨
    ∃ content : Content, r = .ok ⟨target, backup⟩ ∧ j.state.tree.find? backup = none ∧
      j.state.tree.find? target = some (.file content) ∧
      j'.state.tree = j.state.tree.put backup (.file content) := by
  simp only [backUpAt, Disk.currentTree_bind] at h
  cases hfree : j.state.tree.contains backup with
  | true =>
    simp only [hfree, if_true, Logged.pure_apply] at h
    cases h
    exact .inl ⟨_, rfl, rfl⟩
  | false =>
    cases hfails : w.hazards.fails j.state.steps (.copyBackup target backup) with
    | some message =>
      simp only [hfree, Bool.false_eq_true, if_false, Disk.tryStep_bind,
        hfails, Logged.pure_apply] at h
      cases h
      exact .inl ⟨_, rfl, rfl⟩
    | none =>
      simp only [hfree, Bool.false_eq_true, if_false, Disk.tryStep_bind,
        hfails] at h
      cases hcontent : j.state.tree.content? target with
      | none =>
        simp only [hcontent, Logged.pure_apply] at h
        cases h
        exact .inl ⟨_, rfl, rfl⟩
      | some content =>
        simp only [hcontent, Disk.change_bind, Logged.pure_apply] at h
        cases h
        exact .inr ⟨content, rfl, FileTree.contains_eq_false.mp hfree,
          FileTree.content?_eq_some.mp hcontent, rfl⟩

/-- Backing up leaves the tree as it was, or adds a backup of the target. -/
theorem backUp_cases {target : Place} {r : Except WriteError Backup}
    (h : w.backUp target j = (r, j')) :
    (∃ e, r = .error e ∧ j'.state.tree = j.state.tree) ∨
    ∃ (backup : Place) (content : Content), r = .ok ⟨target, backup⟩ ∧ backup.IsBackup ∧
      j.state.tree.find? backup = none ∧ j.state.tree.find? target = some (.file content) ∧
      j'.state.tree = j.state.tree.put backup (.file content) := by
  cases hfails : w.hazards.fails j.state.steps (.nameBackup target) with
  | some message =>
    simp only [backUp, Disk.tryStep_bind, hfails, Logged.pure_apply] at h
    cases h
    exact .inl ⟨_, rfl, rfl⟩
  | none =>
    simp only [backUp, Disk.tryStep_bind, hfails,
      Disk.nextStamp_bind] at h
    rcases backUpAt_cases h with herror | ⟨content, hr, hnone, htarget, htree⟩
    · exact .inl herror
    · exact .inr ⟨_, content, hr, ⟨_, _, rfl⟩, hnone, htarget, htree⟩

/-- Replacing leaves the tree as it was, or moves the staged file over its target. -/
theorem replace_cases {s : StagedFile} {r : Except WriteError Unit}
    (h : w.replace s j = (r, j')) :
    (∃ e, r = .error e ∧ j'.state.tree = j.state.tree) ∨
    ∃ content, r = .ok () ∧ j.state.tree.find? s.staged = some (.file content) ∧
      j'.state.tree = (j.state.tree.put s.target (.file content)).remove s.staged := by
  cases hfails : w.hazards.fails j.state.steps (.replace s.staged s.target) with
  | some message =>
    simp only [replace, Disk.tryStep_bind, hfails, Logged.pure_apply] at h
    cases h
    exact .inl ⟨_, rfl, rfl⟩
  | none =>
    simp only [replace, Disk.tryStep_bind, hfails,
      Disk.currentTree_bind] at h
    cases hcontent : j.state.tree.content? s.staged with
    | none =>
      simp only [hcontent, Logged.pure_apply] at h
      cases h
      exact .inl ⟨_, rfl, rfl⟩
    | some content =>
      simp only [hcontent, Disk.change_bind, Logged.pure_apply] at h
      cases h
      exact .inr ⟨content, rfl, FileTree.content?_eq_some.mp hcontent, rfl⟩

/-! ## Steps that clean up -/

/-- Removing leaves the tree as it was because the step fails, or removes the file. -/
theorem removeFile_cases {step : WriteStep} {p : Place} {r : Except WriteError Unit}
    (h : w.removeFile step p j = (r, j')) :
    j'.state.steps = j.state.steps + 1 ∧
    ((∃ e, r = .error e ∧ w.hazards.fails j.state.steps step ≠ none ∧
      j'.state.tree = j.state.tree) ∨
    (r = .ok () ∧ j'.state.tree = j.state.tree.remove p)) := by
  cases hfails : w.hazards.fails j.state.steps step with
  | some message =>
    simp only [removeFile, Disk.tryStep_bind, hfails, Logged.pure_apply] at h
    cases h
    exact ⟨rfl, .inl ⟨_, rfl, by simp, rfl⟩⟩
  | none =>
    simp only [removeFile, Disk.tryStep_bind, hfails, Disk.change_bind,
      Logged.pure_apply] at h
    cases h
    exact ⟨rfl, .inr ⟨rfl, rfl⟩⟩

/-- A removal that fails is reported as such. -/
theorem removeFile_eq_error {step : WriteStep} {p : Place} {e : WriteError}
    (h : w.removeFile step p j = (.error e, j')) : ∃ message, e = .failed message := by
  cases hfails : w.hazards.fails j.state.steps step with
  | some message =>
    simp only [removeFile, Disk.tryStep_bind, hfails, Logged.pure_apply] at h
    cases h
    exact ⟨message, rfl⟩
  | none =>
    simp only [removeFile, Disk.tryStep_bind, hfails, Disk.change_bind, Logged.pure_apply] at h
    cases h

/-- Restoring leaves the tree as it was, or copies the backup back. -/
theorem restore_cases {b : Backup} {r : Except WriteError Unit} (h : w.restore b j = (r, j')) :
    (∃ message, r = .error (.notRestored b.target b.backup message) ∧
      j'.state.tree = j.state.tree) ∨
    ∃ e, r = .ok () ∧ j.state.tree.find? b.backup = some e ∧
      j'.state.tree = j.state.tree.put b.target e := by
  cases hfails : w.hazards.fails j.state.steps (.restore b.backup b.target) with
  | some message =>
    simp only [restore, Disk.tryStep_bind, hfails, Logged.pure_apply] at h
    cases h
    exact .inl ⟨message, rfl, rfl⟩
  | none =>
    simp only [restore, Disk.tryStep_bind, hfails, Disk.currentTree_bind] at h
    cases hfound : j.state.tree.find? b.backup with
    | none =>
      simp only [hfound, Logged.pure_apply] at h
      cases h
      exact .inl ⟨_, rfl, rfl⟩
    | some e =>
      simp only [hfound, Disk.change_bind, Logged.pure_apply] at h
      cases h
      exact .inr ⟨e, rfl, rfl, rfl⟩

/-- A backup that is there is copied back, unless the step fails. -/
theorem restore_of_not_fails {b : Backup} {e : Entry}
    (hfound : j.state.tree.find? b.backup = some e)
    (hok : w.hazards.fails j.state.steps (.restore b.backup b.target) = none) :
    ∃ j', w.restore b j = (.ok (), j') ∧ j'.state.steps = j.state.steps + 1 ∧
      j'.state.tree = j.state.tree.put b.target e := by
  simp only [restore, Disk.tryStep_bind, hok, Disk.currentTree_bind, hfound,
    Disk.change_bind, Logged.pure_apply]
  exact ⟨_, rfl, rfl, rfl⟩

end Writer

end DocHeader

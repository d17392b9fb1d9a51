import DocHeader.Proofs.Disk.Calm

/-!
# A stamp is used once

Nothing that a writer does gives a stamp back. So a disk on which writing has succeeded is as
undisturbed as it was before: only files that were there were replaced, and the names for the
next temporary files and backups are still free.

## Main definitions

* `Logged.KeepsStamps` — a computation gives no stamp back.
* `Writer.commit_undisturbed` — the next file can be written as well.
-/

namespace DocHeader

/-- A computation gives no stamp back. -/
def Logged.KeepsStamps {α : Type} (x : Logged Disk α) : Prop :=
  ∀ j, j.state.stamps ≤ (x j).2.state.stamps

namespace Logged.KeepsStamps

variable {α β : Type}

protected theorem pure (a : α) : KeepsStamps (pure a) := fun _ => Nat.le_refl _

protected theorem bind {x : Logged Disk α} {f : α → Logged Disk β} (hx : KeepsStamps x)
    (hf : ∀ a, KeepsStamps (f a)) : KeepsStamps (x >>= f) :=
  fun j => Nat.le_trans (hx j) (hf (x j).1 (x j).2)

theorem currentTree : KeepsStamps Disk.currentTree := fun _ => Nat.le_refl _

theorem nextStamp (h : Hazards) : KeepsStamps (Disk.nextStamp h) := fun _ => Nat.le_succ _

theorem tryStep (h : Hazards) (step : WriteStep) : KeepsStamps (Disk.tryStep h step) :=
  fun _ => Nat.le_refl _

theorem warn (message : String) : KeepsStamps (Logged.warn message) := fun _ => Nat.le_refl _

theorem change (c : Change) : KeepsStamps (Disk.change c) := fun _ => Nat.le_refl _

end Logged.KeepsStamps

namespace Writer

open Logged (KeepsStamps)

variable {w : Writer} {targets : List (Place × String)} {ss : List StagedFile} {bs : List Backup}

/-! ## Steps -/

theorem keepsStamps_stage (target : Place) (content : String) :
    KeepsStamps (w.stage target content) := by
  unfold stage
  split
  · exact .pure _
  · refine .bind (.nextStamp _) fun stamp => .bind .currentTree fun t => ?_
    split
    · exact .pure _
    · refine .bind (.tryStep _ _) fun failure => ?_
      split
      · exact .pure _
      · refine .bind (.change _) fun _ => ?_
        split
        · exact .pure _
        · exact .bind (.change _) fun _ => .pure _

theorem keepsStamps_backUp (target : Place) : KeepsStamps (w.backUp target) := by
  refine .bind (.tryStep _ _) fun failure => ?_
  split
  · exact .pure _
  · refine .bind (.nextStamp _) fun stamp => .bind .currentTree fun t => ?_
    split
    · exact .pure _
    · refine .bind (.tryStep _ _) fun failure => ?_
      split
      · exact .pure _
      · split
        · exact .pure _
        · exact .bind (.change _) fun _ => .pure _

theorem keepsStamps_replace (s : StagedFile) : KeepsStamps (w.replace s) := by
  refine .bind (.tryStep _ _) fun failure => ?_
  split
  · exact .pure _
  · refine .bind .currentTree fun t => ?_
    split
    · exact .pure _
    · exact .bind (.change _) fun _ => .bind (.change _) fun _ => .pure _

theorem keepsStamps_removeFile (step : WriteStep) (p : Place) :
    KeepsStamps (w.removeFile step p) := by
  refine .bind (.tryStep _ _) fun failure => ?_
  split
  · exact .pure _
  · exact .bind (.change _) fun _ => .pure _

theorem keepsStamps_restore (b : Backup) : KeepsStamps (w.restore b) := by
  refine .bind (.tryStep _ _) fun failure => ?_
  split
  · exact .pure _
  · refine .bind .currentTree fun t => ?_
    split
    · exact .pure _
    · exact .bind (.change _) fun _ => .pure _

/-! ## Phases -/

theorem keepsStamps_stageAll (targets : List (Place × String)) :
    KeepsStamps (w.stageAll targets) := by
  induction targets with
  | nil => exact .pure _
  | cons x rest ih =>
    refine .bind (keepsStamps_stage x.1 x.2) fun r => ?_
    split
    · exact .pure _
    · exact .bind ih fun others => .pure _

theorem keepsStamps_commitAll (ss : List StagedFile) : KeepsStamps (w.commitAll ss) := by
  induction ss with
  | nil => exact .pure _
  | cons s rest ih =>
    refine .bind (keepsStamps_backUp s.target) fun r => ?_
    split
    · exact .pure _
    · refine .bind (keepsStamps_replace s) fun r => ?_
      split
      · exact .pure _
      · exact .bind ih fun others => .pure _

theorem keepsStamps_rollBack (bs : List Backup) : KeepsStamps (w.rollBack bs) := by
  induction bs with
  | nil => exact .pure _
  | cons b rest ih =>
    refine .bind (keepsStamps_restore b) fun r => ?_
    split
    · exact .pure _
    · refine .bind (keepsStamps_removeFile _ _) fun r => ?_
      split
      · exact .pure _
      · exact ih

theorem keepsStamps_removeStaged (ss : List StagedFile) : KeepsStamps (w.removeStaged ss) := by
  induction ss with
  | nil => exact .pure _
  | cons s rest ih =>
    refine .bind .currentTree fun t => ?_
    split
    · refine .bind (keepsStamps_removeFile _ _) fun r => ?_
      split
      · exact .pure _
      · exact ih
    · exact ih

theorem keepsStamps_removeBackups (bs : List Backup) : KeepsStamps (w.removeBackups bs) := by
  induction bs with
  | nil => exact .pure _
  | cons b rest ih =>
    refine .bind (keepsStamps_removeFile _ _) fun r => ?_
    split
    · exact .pure _
    · exact ih

theorem keepsStamps_undo (bs : List Backup) (cause : WriteError) :
    KeepsStamps (w.undo bs cause) := by
  refine .bind (keepsStamps_rollBack _) fun r => ?_
  split
  · exact .pure _
  · exact .bind (.warn _) fun _ => .pure _

theorem keepsStamps_replaceAll (targets : List (Place × String)) :
    KeepsStamps (w.replaceAll targets) := by
  refine .bind (keepsStamps_stageAll targets) fun staging => ?_
  dsimp only
  split
  · exact .pure _
  · exact .bind (keepsStamps_commitAll _) fun outcome => .pure _

/-! ## Writing -/

theorem keepsStamps_commit (targets : List (Place × String)) :
    KeepsStamps (w.commit targets) := by
  refine .bind (keepsStamps_replaceAll targets) fun (staged, backups, outcome) => ?_
  cases outcome <;>
    refine .bind ?_ fun settled => .bind (keepsStamps_removeStaged staged) fun cleaned => ?_
  case ok.refine_1 => exact .pure _
  case error.refine_1 e => exact keepsStamps_undo backups e
  all_goals
    cases cleaned with
    | error e => exact .pure _
    | ok _ =>
      cases settled with
      | error e => exact .pure _
      | ok _ => exact keepsStamps_removeBackups backups

/-- Where a file was written and nothing new is there, the next one can be written as well. -/
theorem commit_undisturbed {j j' : Journal Disk} {r : Except WriteError Unit}
    (hj : w.hazards.Undisturbed j.state) (h : w.commit targets j = (r, j'))
    (hsame : ∀ p, j.state.tree.find? p = none → j'.state.tree.find? p = none) :
    w.hazards.Undisturbed j'.state where
  toCalm := by
    have hle := keepsStamps_commit (w := w) targets j
    rw [h] at hle
    exact hj.toCalm.next hle fun p hp hnone => absurd (hsame p hnone) hp
  steady := hj.steady

end Writer

end DocHeader

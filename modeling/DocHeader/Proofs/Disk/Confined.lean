import DocHeader.Proofs.Disk.AllOrNothing

/-!
# Where writing changes the disk

Each change that writing makes is recorded in the history of the disk, so that the history
tells of everything that was ever on it, temporary files and backups included. Writing
targets that lie below a directory changes nothing but places below that directory,
whichever steps fail: temporary files and backups lie beside their targets.

## Main definitions

* `Place.IsBelow` — strictly below a directory, by whole components.
* `Disk.ChangesTo` — one disk becomes another by changes at certain places.
* `Logged.ChangesAt` — a computation changes a disk at certain places only.
-/

namespace DocHeader

/-- A place lies below a directory and is not the directory itself. -/
structure Place.IsBelow (p base : Place) : Prop where
  within : base <+: p
  ne : p ≠ base

theorem Place.isWithin_iff {p base : Place} : p.isWithin base = true ↔ base <+: p :=
  List.isPrefixOf_iff_prefix

/-- What lies beside something below a directory lies below the directory, too. -/
theorem Place.IsBelow.sibling {p base : Place} (h : p.IsBelow base) (name : String) :
    (p.sibling name).IsBelow base := by
  obtain ⟨⟨rest, rfl⟩, hne⟩ := h
  have hrest : rest ≠ [] := by
    rintro rfl
    exact hne (List.append_nil base)
  have hplace : Place.sibling (base ++ rest) name = base ++ (rest.dropLast ++ [name]) := by
    rw [Place.sibling, List.dropLast_append_of_ne_nil hrest, List.append_assoc]
  rw [hplace]
  exact ⟨List.prefix_append _ _, by simp⟩

/-! ## Changes -/

/-- A change is seen at its own place only. -/
theorem FileTree.find?_changed {t : FileTree} {c : Change} {p : Place} (h : c.place ≠ p) :
    (t.changed c).find? p = t.find? p := by
  cases p with
  | nil => rfl
  | cons part parts =>
    have hne : part :: parts ≠ c.place := Ne.symm h
    cases c with
    | put place entry => exact (Association.get?_set ..).trans (if_neg hne)
    | remove place => exact (Association.get?_erase ..).trans (if_neg hne)

/-- Changes at other places are not seen. -/
theorem FileTree.find?_foldl_changed {t : FileTree} {cs : List Change} {p : Place}
    (h : ∀ c ∈ cs, c.place ≠ p) : (cs.foldl changed t).find? p = t.find? p := by
  induction cs generalizing t with
  | nil => rfl
  | cons c rest ih =>
    obtain ⟨hc, hrest⟩ := List.forall_mem_cons.mp h
    rw [List.foldl_cons, ih hrest, find?_changed hc]

/-- The changes `cs`, all of them at places with the property `P`, lead from the disk `d`
to `d'` and are recorded there. -/
structure Disk.ChangedBy (P : Place → Prop) (cs : List Change) (d d' : Disk) : Prop where
  places : ∀ c ∈ cs, P c.place
  recorded : d'.history = d.history ++ cs
  tree : d'.tree = cs.foldl FileTree.changed d.tree

/-- Changes at places with the property `P` lead from one disk to another. -/
def Disk.ChangesTo (P : Place → Prop) (d d' : Disk) : Prop := ∃ cs, Disk.ChangedBy P cs d d'

namespace Disk

variable {P : Place → Prop} {d d' d'' : Disk}

/-- The number of steps and names used is no change. -/
theorem ChangesTo.of_same (hhistory : d'.history = d.history) (htree : d'.tree = d.tree) :
    ChangesTo P d d' :=
  ⟨[], by simp, by simp [hhistory], htree⟩

theorem ChangesTo.trans (h : ChangesTo P d d') (h' : ChangesTo P d' d'') :
    ChangesTo P d d'' := by
  obtain ⟨cs, hplaces, hrecorded, htree⟩ := h
  obtain ⟨cs', hplaces', hrecorded', htree'⟩ := h'
  refine ⟨cs ++ cs', fun c hc => ?_, ?_, ?_⟩
  · exact (List.mem_append.mp hc).elim (hplaces c) (hplaces' c)
  · rw [hrecorded', hrecorded, List.append_assoc]
  · rw [htree', htree, List.foldl_append]

/-- Places without the property are as they were. -/
theorem ChangesTo.find?_eq (h : ChangesTo P d d') {p : Place} (hp : ¬P p) :
    d'.tree.find? p = d.tree.find? p := by
  obtain ⟨cs, hplaces, -, htree⟩ := h
  rw [htree, FileTree.find?_foldl_changed]
  rintro c hc rfl
  exact hp (hplaces c hc)

end Disk

/-! ## Computations -/

/-- A computation changes a disk only at places with the property `P`, and its result has the
property `Q`. -/
def Logged.ChangesAt {α : Type} (P : Place → Prop) (x : Logged Disk α) (Q : α → Prop) : Prop :=
  ∀ j, Disk.ChangesTo P j.state (x j).2.state ∧ Q (x j).1

namespace Logged.ChangesAt

variable {α β : Type} {P : Place → Prop} {Q : α → Prop} {R : β → Prop}

protected theorem pure {a : α} (h : Q a) : ChangesAt P (pure a) Q := fun _ =>
  ⟨.of_same rfl rfl, h⟩

protected theorem bind {x : Logged Disk α} {f : α → Logged Disk β} (hx : ChangesAt P x Q)
    (hf : ∀ a, Q a → ChangesAt P (f a) R) : ChangesAt P (x >>= f) R := by
  intro j
  obtain ⟨hchanges, hresult⟩ := hx j
  obtain ⟨hchanges', hresult'⟩ := hf _ hresult (x j).2
  exact ⟨hchanges.trans hchanges', hresult'⟩

theorem currentTree : ChangesAt P Disk.currentTree fun _ => True := fun _ =>
  ⟨.of_same rfl rfl, trivial⟩

theorem nextStamp (h : Hazards) : ChangesAt P (Disk.nextStamp h) fun _ => True := fun _ =>
  ⟨.of_same rfl rfl, trivial⟩

theorem tryStep (h : Hazards) (step : WriteStep) :
    ChangesAt P (Disk.tryStep h step) fun _ => True := fun _ =>
  ⟨.of_same rfl rfl, trivial⟩

theorem warn (message : String) : ChangesAt P (Logged.warn message) fun _ => True := fun _ =>
  ⟨.of_same rfl rfl, trivial⟩

theorem change {c : Change} (h : P c.place) : ChangesAt P (Disk.change c) fun _ => True :=
  fun _ => ⟨⟨[c], by simpa using h, rfl, rfl⟩, trivial⟩

end Logged.ChangesAt

/-! ## Writing -/

/-- A target and its temporary file lie below a directory. -/
structure StagedFile.IsBelow (s : StagedFile) (base : Place) : Prop where
  target : s.target.IsBelow base
  staged : s.staged.IsBelow base

/-- A target and its backup lie below a directory. -/
structure Backup.IsBelow (b : Backup) (base : Place) : Prop where
  target : b.target.IsBelow base
  backup : b.backup.IsBelow base

namespace Writer

open Logged (ChangesAt)

variable {w : Writer} {base : Place} {targets : List (Place × String)}
  {ss : List StagedFile} {bs : List Backup}

theorem changesAt_stageAt {staged : Place} (h : staged.IsBelow base) (content : String) :
    ChangesAt (·.IsBelow base) (w.stageAt staged content)
      fun r => ∀ p, r = .ok p → p.IsBelow base := by
  refine .bind .currentTree fun t _ => ?_
  split
  · exact .pure (by simp)
  · refine .bind (.tryStep _ _) fun failure _ => ?_
    split
    · exact .pure (by simp)
    · refine .bind (.change h) fun _ _ => ?_
      split
      · exact .pure fun p hp => Except.ok.inj hp ▸ h
      · exact .bind (.change h) fun _ _ => .pure (by simp)

theorem changesAt_stage {target : Place} (h : target.IsBelow base) (content : String) :
    ChangesAt (·.IsBelow base) (w.stage target content)
      fun r => ∀ p, r = .ok p → p.IsBelow base := by
  unfold stage
  split
  · exact .pure (by simp)
  · exact .bind (.nextStamp _) fun stamp _ => changesAt_stageAt (h.sibling _) content

theorem changesAt_stageAll (h : ∀ x ∈ targets, x.1.IsBelow base) :
    ChangesAt (·.IsBelow base) (w.stageAll targets) fun r => ∀ s ∈ r.1, s.IsBelow base := by
  induction targets with
  | nil => exact .pure (by simp)
  | cons x rest ih =>
    obtain ⟨hx, hrest⟩ := List.forall_mem_cons.mp h
    refine .bind (changesAt_stage hx x.2) fun r hr => ?_
    split
    · exact .pure (by simp)
    · rename_i staged
      refine .bind (ih hrest) fun others hothers => ?_
      exact .pure (List.forall_mem_cons.mpr ⟨⟨hx, hr staged rfl⟩, hothers⟩)

theorem changesAt_backUpAt {target backup : Place} (htarget : target.IsBelow base)
    (hbackup : backup.IsBelow base) :
    ChangesAt (·.IsBelow base) (w.backUpAt target backup)
      fun r => ∀ b, r = .ok b → b.IsBelow base := by
  refine .bind .currentTree fun t _ => ?_
  split
  · exact .pure (by simp)
  · refine .bind (.tryStep _ _) fun failure _ => ?_
    split
    · exact .pure (by simp)
    · split
      · exact .pure (by simp)
      · refine .bind (.change hbackup) fun _ _ => .pure ?_
        rintro _ ⟨⟩
        exact ⟨htarget, hbackup⟩

theorem changesAt_backUp {target : Place} (h : target.IsBelow base) :
    ChangesAt (·.IsBelow base) (w.backUp target)
      fun r => ∀ b, r = .ok b → b.IsBelow base := by
  refine .bind (.tryStep _ _) fun failure _ => ?_
  split
  · exact .pure (by simp)
  · exact .bind (.nextStamp _) fun stamp _ => changesAt_backUpAt h (h.sibling _)

theorem changesAt_replace {s : StagedFile} (h : s.IsBelow base) :
    ChangesAt (·.IsBelow base) (w.replace s) fun _ => True := by
  refine .bind (.tryStep _ _) fun failure _ => ?_
  split
  · exact .pure trivial
  · refine .bind .currentTree fun t _ => ?_
    split
    · exact .pure trivial
    · exact .bind (.change h.target) fun _ _ => .bind (.change h.staged) fun _ _ => .pure trivial

theorem changesAt_commitAll (h : ∀ s ∈ ss, s.IsBelow base) :
    ChangesAt (·.IsBelow base) (w.commitAll ss) fun r => ∀ b ∈ r.1, b.IsBelow base := by
  induction ss with
  | nil => exact .pure (by simp)
  | cons s rest ih =>
    obtain ⟨hs, hrest⟩ := List.forall_mem_cons.mp h
    refine .bind (changesAt_backUp hs.target) fun r hr => ?_
    split
    · exact .pure (by simp)
    · rename_i backup
      have hbackup := hr backup rfl
      refine .bind (changesAt_replace hs) fun r _ => ?_
      split
      · exact .pure (List.forall_mem_singleton.mpr hbackup)
      · refine .bind (ih hrest) fun others hothers => ?_
        exact .pure (List.forall_mem_cons.mpr ⟨hbackup, hothers⟩)

theorem changesAt_removeFile {p : Place} (h : p.IsBelow base) (step : WriteStep) :
    ChangesAt (·.IsBelow base) (w.removeFile step p) fun _ => True := by
  refine .bind (.tryStep _ _) fun failure _ => ?_
  split
  · exact .pure trivial
  · exact .bind (.change h) fun _ _ => .pure trivial

theorem changesAt_restore {b : Backup} (h : b.IsBelow base) :
    ChangesAt (·.IsBelow base) (w.restore b) fun _ => True := by
  refine .bind (.tryStep _ _) fun failure _ => ?_
  split
  · exact .pure trivial
  · refine .bind .currentTree fun t _ => ?_
    split
    · exact .pure trivial
    · exact .bind (.change h.target) fun _ _ => .pure trivial

theorem changesAt_rollBack (h : ∀ b ∈ bs, b.IsBelow base) :
    ChangesAt (·.IsBelow base) (w.rollBack bs) fun _ => True := by
  induction bs with
  | nil => exact .pure trivial
  | cons b rest ih =>
    obtain ⟨hb, hrest⟩ := List.forall_mem_cons.mp h
    refine .bind (changesAt_restore hb) fun r _ => ?_
    split
    · exact .pure trivial
    · refine .bind (changesAt_removeFile hb.backup _) fun r _ => ?_
      split
      · exact .pure trivial
      · exact ih hrest

theorem changesAt_removeStaged (h : ∀ s ∈ ss, s.IsBelow base) :
    ChangesAt (·.IsBelow base) (w.removeStaged ss) fun _ => True := by
  induction ss with
  | nil => exact .pure trivial
  | cons s rest ih =>
    obtain ⟨hs, hrest⟩ := List.forall_mem_cons.mp h
    refine .bind .currentTree fun t _ => ?_
    split
    · refine .bind (changesAt_removeFile hs.staged _) fun r _ => ?_
      split
      · exact .pure trivial
      · exact ih hrest
    · exact ih hrest

theorem changesAt_removeBackups (h : ∀ b ∈ bs, b.IsBelow base) :
    ChangesAt (·.IsBelow base) (w.removeBackups bs) fun _ => True := by
  induction bs with
  | nil => exact .pure trivial
  | cons b rest ih =>
    obtain ⟨hb, hrest⟩ := List.forall_mem_cons.mp h
    refine .bind (changesAt_removeFile hb.backup _) fun r _ => ?_
    split
    · exact .pure trivial
    · exact ih hrest

theorem changesAt_undo (h : ∀ b ∈ bs, b.IsBelow base) (cause : WriteError) :
    ChangesAt (·.IsBelow base) (w.undo bs cause) fun _ => True := by
  have hreverse : ∀ b ∈ bs.reverse, b.IsBelow base := fun b hb => h b (List.mem_reverse.mp hb)
  refine .bind (changesAt_rollBack hreverse) fun r _ => ?_
  split
  · exact .pure trivial
  · exact .bind (.warn _) fun _ _ => .pure trivial

theorem changesAt_replaceAll (h : ∀ x ∈ targets, x.1.IsBelow base) :
    ChangesAt (·.IsBelow base) (w.replaceAll targets)
      fun r => (∀ s ∈ r.1, s.IsBelow base) ∧ ∀ b ∈ r.2.1, b.IsBelow base := by
  refine .bind (changesAt_stageAll h) fun staging hstaged => ?_
  dsimp only
  split
  · exact .pure ⟨hstaged, by simp⟩
  · exact .bind (changesAt_commitAll hstaged) fun outcome hbackups => .pure ⟨hstaged, hbackups⟩

/-- Writing targets below a directory changes nothing but places below it, whatever fails. -/
theorem changesAt_commit (h : ∀ x ∈ targets, x.1.IsBelow base) :
    ChangesAt (·.IsBelow base) (w.commit targets) fun _ => True := by
  refine .bind (changesAt_replaceAll h) fun (staged, backups, outcome) hreplacing => ?_
  obtain ⟨hstaged, hbackups⟩ := hreplacing
  cases outcome <;> refine .bind (Q := fun _ => True) ?_ fun settled _ =>
    .bind (changesAt_removeStaged hstaged) fun cleaned _ => ?_
  case ok.refine_1 => exact .pure trivial
  case error.refine_1 e => exact changesAt_undo hbackups e
  all_goals
    cases cleaned with
    | error e => exact .pure trivial
    | ok _ =>
      cases settled with
      | error e => exact .pure trivial
      | ok _ => exact changesAt_removeBackups hbackups

end Writer

end DocHeader

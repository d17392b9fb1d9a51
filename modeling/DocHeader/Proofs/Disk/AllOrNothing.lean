import DocHeader.Proofs.Disk.Phases

/-!
# All files or none

Writing many files either gives each of them its new content or leaves every place of the
disk as it was, wherever a step before the last replacement fails. Once all files are
replaced nothing takes that back: when a backup cannot be removed then, writing is said to
have failed, and yet every file holds its new content.

## Main definitions

* `Replaced` — the tree after all targets were replaced, the backups still there.
* `Writer.targetsOf` — the places and texts that contents by path stand for.
* `Writer.Replaces` — all targets get replaced.
-/

namespace DocHeader

/-- All targets in the tree `t` were replaced, the backups `bs` were added, and `t'` has
come out. -/
structure Replaced (t t' : FileTree) (targets : List (Place × String)) (bs : List Backup) :
    Prop where
  named : ∀ b ∈ bs, b.backup.IsBackup
  fresh : ∀ b ∈ bs, t.find? b.backup = none
  found : ∀ p ∉ backupPlaces bs, t'.find? p = t.overwritten targets p

namespace Writer

/-- The targets that contents by path stand for. -/
def targetsOf [Resolution] (w : Writer) (contents : List (String × String)) : List (Place × String) :=
  contents.map fun x => (w.placeOf x.1, x.2)

/-- No failure keeps the targets from being staged, backed up and replaced. -/
def Replaces (w : Writer) (targets : List (Place × String)) (j : Journal Disk) : Prop :=
  (w.replaceAll targets j).1.2.2 = .ok ()

variable {w : Writer} {j j' : Journal Disk} {ss : List StagedFile} {bs : List Backup}
  {targets : List (Place × String)} {r : Except WriteError Unit}

/-! ## Cleaning up -/

/-- Rolling back follows the backups. -/
theorem rollBack_of_unwinds {ps : List Place} {u : FileTree} {first : Nat}
    (hsafe : w.hazards.SafeUndo first) (hfirst : first ≤ j.state.steps)
    (h : Unwinds ps bs j.state.tree u) :
    ∃ j', w.rollBack bs j = (.ok (), j') ∧ first ≤ j'.state.steps ∧
      ∀ p ∉ ps, j'.state.tree.find? p = u.find? p := by
  induction bs generalizing j with
  | nil => exact ⟨j, rfl, hfirst, h⟩
  | cons b rest ih =>
    obtain ⟨e, hfound, -, -, hrest⟩ := h
    obtain ⟨j₁, hrestore, hsteps, htree⟩ :=
      restore_of_not_fails hfound (hsafe.restore _ hfirst b.backup b.target)
    rcases hremove : w.removeFile (.removeBackup b.backup) b.backup j₁ with ⟨r, j₂⟩
    obtain ⟨hsteps', ⟨e, rfl, hfails, -⟩ | ⟨rfl, htree'⟩⟩ := removeFile_cases hremove
    · exact absurd (hsafe.removeBackup _ (by omega) b.backup) hfails
    · simp only [rollBack, Logged.bind_apply, hrestore, hremove]
      refine ih (by omega) ?_
      rw [htree', htree]
      exact hrest

/-- Once nothing is at the place `q`, removing the files at `ps` removes those at `q :: ps`. -/
theorem removed_cons {t t₁ t' : FileTree} {q : Place} {ps : List Place}
    (hq : ∀ p, t₁.find? p = if p = q then none else t.find? p)
    (hframe : ∀ p ∉ ps, t'.find? p = t₁.find? p)
    (hgone : r = .ok () → ∀ p ∈ ps, t'.find? p = none) :
    (∀ p ∉ q :: ps, t'.find? p = t.find? p) ∧
      (r = .ok () → ∀ p ∈ q :: ps, t'.find? p = none) := by
  constructor
  · intro p hp
    rw [hframe p (List.not_mem_of_not_mem_cons hp), hq, if_neg (List.ne_of_not_mem_cons hp)]
  · intro hr p hp
    by_cases hrest : p ∈ ps
    · exact hgone hr p hrest
    · have hpq : p = q := (List.mem_cons.mp hp).resolve_right hrest
      rw [hframe p hrest, hq, if_pos hpq]

/-- Removing temporary files removes nothing else, and fails only when a removal fails. -/
theorem removeStaged_spec (hnamed : ∀ s ∈ ss, s.staged.IsStaging)
    (h : w.removeStaged ss j = (r, j')) :
    (∀ p ∉ stagedPlaces ss, j'.state.tree.find? p = j.state.tree.find? p) ∧
    (r = .ok () → ∀ p ∈ stagedPlaces ss, j'.state.tree.find? p = none) ∧
    (∀ e, r = .error e →
      ∃ n ≥ j.state.steps, ∃ s ∈ ss, w.hazards.fails n (.removeStaged s.staged) ≠ none) := by
  induction ss generalizing j with
  | nil =>
    simp only [removeStaged, Logged.pure_apply] at h
    cases h
    exact ⟨fun _ _ => rfl, fun _ p hp => (by cases hp), fun e he => (by cases he)⟩
  | cons s rest ih =>
    obtain ⟨hstaged, hnamed⟩ := List.forall_mem_cons.mp hnamed
    simp only [removeStaged, Disk.currentTree_bind] at h
    cases hthere : j.state.tree.contains s.staged with
    | false =>
      simp only [hthere, Bool.false_eq_true, if_false] at h
      obtain ⟨hframe, hgone, hfails⟩ := ih hnamed h
      have hnone (p : Place) : j.state.tree.find? p =
          if p = s.staged then none else j.state.tree.find? p := by
        split
        · rename_i hp
          rw [hp, FileTree.contains_eq_false.mp hthere]
        · rfl
      obtain ⟨hframe', hgone'⟩ := removed_cons hnone hframe hgone
      refine ⟨hframe', hgone', fun e he => ?_⟩
      obtain ⟨n, hn, s', hs', hfail⟩ := hfails e he
      exact ⟨n, hn, s', List.mem_cons_of_mem s hs', hfail⟩
    | true =>
      rcases hremove : w.removeFile (.removeStaged s.staged) s.staged j with ⟨first, j₁⟩
      simp only [hthere, if_true, Logged.bind_apply, hremove] at h
      obtain ⟨hsteps, ⟨e, rfl, hfail, htree⟩ | ⟨rfl, htree⟩⟩ := removeFile_cases hremove
      · simp only [Logged.pure_apply] at h
        cases h
        exact ⟨fun p _ => by rw [htree], fun hr => (by cases hr),
          fun _ _ => ⟨_, Nat.le_refl _, s, List.mem_cons_self, hfail⟩⟩
      · obtain ⟨hframe, hgone, hfails⟩ := ih hnamed h
        have hfound (p : Place) : j₁.state.tree.find? p =
            if p = s.staged then none else j.state.tree.find? p := by
          rw [htree, FileTree.find?_remove hstaged.ne_nil]
        obtain ⟨hframe', hgone'⟩ := removed_cons hfound hframe hgone
        refine ⟨hframe', hgone', fun e he => ?_⟩
        obtain ⟨n, hn, s', hs', hfail⟩ := hfails e he
        exact ⟨n, by omega, s', List.mem_cons_of_mem s hs', hfail⟩

/-- Temporary files that are not there need no removal. -/
theorem removeStaged_of_absent (h : ∀ s ∈ ss, j.state.tree.find? s.staged = none) :
    w.removeStaged ss j = (.ok (), j) := by
  induction ss with
  | nil => rfl
  | cons s rest ih =>
    obtain ⟨hnone, hrest⟩ := List.forall_mem_cons.mp h
    simp only [removeStaged, Disk.currentTree_bind, FileTree.contains_eq_false.mpr hnone,
      Bool.false_eq_true, if_false, ih hrest]

/-- Removing backups removes nothing else, and fails only when a removal fails. -/
theorem removeBackups_spec (hnamed : ∀ b ∈ bs, b.backup.IsBackup)
    (h : w.removeBackups bs j = (r, j')) :
    (∀ p ∉ backupPlaces bs, j'.state.tree.find? p = j.state.tree.find? p) ∧
    (r = .ok () → ∀ p ∈ backupPlaces bs, j'.state.tree.find? p = none) ∧
    (∀ e, r = .error e →
      ∃ n ≥ j.state.steps, ∃ b ∈ bs, w.hazards.fails n (.removeBackup b.backup) ≠ none) := by
  induction bs generalizing j with
  | nil =>
    simp only [removeBackups, Logged.pure_apply] at h
    cases h
    exact ⟨fun _ _ => rfl, fun _ p hp => (by cases hp), fun e he => (by cases he)⟩
  | cons b rest ih =>
    obtain ⟨hbackup, hnamed⟩ := List.forall_mem_cons.mp hnamed
    rcases hremove : w.removeFile (.removeBackup b.backup) b.backup j with ⟨first, j₁⟩
    simp only [removeBackups, Logged.bind_apply, hremove] at h
    obtain ⟨hsteps, ⟨e, rfl, hfail, htree⟩ | ⟨rfl, htree⟩⟩ := removeFile_cases hremove
    · simp only [Logged.pure_apply] at h
      cases h
      exact ⟨fun p _ => by rw [htree], fun hr => (by cases hr),
        fun _ _ => ⟨_, Nat.le_refl _, b, List.mem_cons_self, hfail⟩⟩
    · obtain ⟨hframe, hgone, hfails⟩ := ih hnamed h
      have hfound (p : Place) : j₁.state.tree.find? p =
          if p = b.backup then none else j.state.tree.find? p := by
        rw [htree, FileTree.find?_remove hbackup.ne_nil]
      obtain ⟨hframe', hgone'⟩ := removed_cons hfound hframe hgone
      refine ⟨hframe', hgone', fun e he => ?_⟩
      obtain ⟨n, hn, b', hb', hfail⟩ := hfails e he
      exact ⟨n, by omega, b', List.mem_cons_of_mem b hb', hfail⟩

/-! ## Replacing all targets -/

/-- A tree that is unwound to `u` is unwound to whatever agrees with `u`. -/
theorem unwinds_congr {ps : List Place} {t u v : FileTree} (h : Unwinds ps bs t u)
    (hsame : ∀ p ∉ ps, u.find? p = v.find? p) : Unwinds ps bs t v := by
  induction bs generalizing t with
  | nil => exact fun p hp => (h p hp).trans (hsame p hp)
  | cons b rest ih =>
    obtain ⟨e, he, hname, htarget, hrest⟩ := h
    exact ⟨e, he, hname, htarget, ih hrest⟩

/-- Wherever replacing stops, temporary files lie where nothing was, and the backups
unwind everything else. -/
theorem replaceAll_unwinds (h : w.replaceAll targets j = ((ss, bs, r), j')) :
    (∀ s ∈ ss, s.staged.IsStaging) ∧ (∀ s ∈ ss, j.state.tree.find? s.staged = none) ∧
      Unwinds (stagedPlaces ss) bs.reverse j'.state.tree j.state.tree := by
  rcases hstage : w.stageAll targets j with ⟨⟨staged, staging⟩, j₁⟩
  obtain ⟨hstaging, -⟩ := stageAll_spec hstage
  simp only [replaceAll, Logged.bind_apply, hstage] at h
  cases staging with
  | error e =>
    simp only [Logged.pure_apply] at h
    cases h
    exact ⟨hstaging.named, hstaging.fresh, hstaging.frame⟩
  | ok _ =>
    rcases hcommit : w.commitAll staged j₁ with ⟨⟨backups, outcome⟩, j₂⟩
    simp only [Logged.bind_apply, hcommit, Logged.pure_apply] at h
    cases h
    exact ⟨hstaging.named, hstaging.fresh,
      unwinds_congr (commitAll_unwinds hstaging.named hcommit) hstaging.frame⟩

/-- When nothing stops replacing, every target holds its last text, the temporary files are
gone, and only backups have been added. -/
theorem replaceAll_replaced (hexists : ∀ x ∈ targets, j.state.tree.find? x.1 ≠ none)
    (h : w.replaceAll targets j = ((ss, bs, .ok ()), j')) :
    Replaced j.state.tree j'.state.tree targets bs ∧
      ∀ s ∈ ss, j'.state.tree.find? s.staged = none := by
  rcases hstage : w.stageAll targets j with ⟨⟨staged, staging⟩, j₁⟩
  obtain ⟨hstaging, hwaiting⟩ := stageAll_spec hstage
  simp only [replaceAll, Logged.bind_apply, hstage] at h
  cases staging with
  | error e => cases h
  | ok _ =>
    rcases hcommit : w.commitAll staged j₁ with ⟨⟨backups, outcome⟩, j₂⟩
    simp only [Logged.bind_apply, hcommit, Logged.pure_apply] at h
    cases h
    have hapart : ∀ s ∈ ss, ∀ x ∈ targets, s.staged ≠ x.1 := by
      intro s hs x hx heq
      exact hexists x hx (heq ▸ hstaging.fresh s hs)
    obtain ⟨hbackups, hfinal⟩ :=
      commitAll_replaced hstaging.named hstaging.distinct hapart (hwaiting rfl) hcommit
    -- a place is no backup's, and its temporary file is gone
    have hbefore : ∀ p ∉ stagedPlaces ss,
        j₁.state.tree.overwritten targets p = j.state.tree.overwritten targets p := by
      intro p hp
      simp only [FileTree.overwritten, hstaging.frame p hp]
    have hstaged : ∀ p ∈ stagedPlaces ss, j.state.tree.overwritten targets p = none := by
      intro p hp
      obtain ⟨s, hs, rfl⟩ := mem_stagedPlaces.mp hp
      rw [FileTree.overwritten_of_not_target _ fun x hx => (hapart s hs x hx).symm,
        hstaging.fresh s hs]
    have hdisjoint : ∀ b ∈ bs, b.backup ∉ stagedPlaces ss := by
      intro b hb hmem
      obtain ⟨s, hs, heq⟩ := mem_stagedPlaces.mp hmem
      exact (hbackups b hb).1.ne_staging (hstaging.named s hs) heq.symm
    refine ⟨⟨fun b hb => (hbackups b hb).1, fun b hb => ?_, fun p hp => ?_⟩, fun s hs => ?_⟩
    · rw [← hstaging.frame b.backup (hdisjoint b hb)]
      exact (hbackups b hb).2
    · rw [hfinal p hp]
      split
      · rename_i hmem
        rw [hstaged p hmem]
      · rename_i hmem
        rw [hbefore p hmem]
    · have hmem : s.staged ∈ stagedPlaces ss := mem_stagedPlaces.mpr ⟨s, hs, rfl⟩
      have hno : s.staged ∉ backupPlaces bs := by
        intro hb
        obtain ⟨b, hb, heq⟩ := mem_backupPlaces.mp hb
        exact hdisjoint b hb (heq ▸ hmem)
      rw [hfinal _ hno, if_pos hmem]

/-! ## Committing -/

/-- Undoing follows the backups, and reports the failure that led to it. -/
theorem undo_of_unwinds {ps : List Place} {u : FileTree} {first : Nat}
    (hsafe : w.hazards.SafeUndo first) (hfirst : first ≤ j.state.steps) (cause : WriteError)
    (h : Unwinds ps bs.reverse j.state.tree u) :
    ∃ j', w.undo bs cause j = (.error cause, j') ∧ first ≤ j'.state.steps ∧
      ∀ p ∉ ps, j'.state.tree.find? p = u.find? p := by
  obtain ⟨j', hrun, hsteps, hback⟩ := rollBack_of_unwinds hsafe hfirst h
  simp only [undo, Logged.bind_apply, hrun, Logged.warn_apply, Logged.pure_apply]
  exact ⟨_, rfl, hsteps, hback⟩

/-- A failure before the last replacement is reported, and every place is as it was, when
no other failure follows. -/
theorem commit_of_not_replaces
    (hsafe : w.hazards.SafeUndo (w.replaceAll targets j).2.state.steps)
    (h : ¬w.Replaces targets j) :
    ∃ e j', w.commit targets j = (.error e, j') ∧
      ∀ p, j'.state.tree.find? p = j.state.tree.find? p := by
  rcases hreplace : w.replaceAll targets j with ⟨⟨ss, bs, r⟩, j₁⟩
  obtain ⟨hnamed, hfresh, hunwinds⟩ := replaceAll_unwinds hreplace
  simp only [Replaces, hreplace] at h
  rw [hreplace] at hsafe
  cases r with
  | ok _ => exact absurd rfl h
  | error cause =>
    obtain ⟨j₂, hundo, hsteps, hback⟩ := undo_of_unwinds hsafe (Nat.le_refl _) cause hunwinds
    rcases hremove : w.removeStaged ss j₂ with ⟨removed, j₃⟩
    obtain ⟨hframe, hgone, hfails⟩ := removeStaged_spec hnamed hremove
    have hremoved : removed = .ok () := by
      cases removed with
      | ok _ => rfl
      | error e =>
        obtain ⟨n, hn, s, -, hfail⟩ := hfails e rfl
        exact absurd (hsafe.removeStaged n (Nat.le_trans hsteps hn) s.staged) hfail
    simp only [commit, Logged.bind_apply, hreplace, hundo, hremove, hremoved,
      Logged.pure_apply]
    refine ⟨cause, j₃, rfl, fun p => ?_⟩
    by_cases hp : p ∈ stagedPlaces ss
    · obtain ⟨s, hs, rfl⟩ := mem_stagedPlaces.mp hp
      rw [hgone hremoved _ hp, hfresh s hs]
    · rw [hframe p hp, hback p hp]

/-- After the last replacement only the backups are still to be removed. -/
theorem commit_of_replaces (hexists : ∀ x ∈ targets, j.state.tree.find? x.1 ≠ none)
    (h : w.Replaces targets j) :
    ∃ bs j₁, Replaced j.state.tree j₁.state.tree targets bs ∧
      w.commit targets j = w.removeBackups bs j₁ := by
  rcases hreplace : w.replaceAll targets j with ⟨⟨ss, bs, r⟩, j₁⟩
  simp only [Replaces, hreplace] at h
  subst h
  obtain ⟨hreplaced, habsent⟩ := replaceAll_replaced hexists hreplace
  refine ⟨bs, j₁, hreplaced, ?_⟩
  simp only [commit, Logged.bind_apply, hreplace, Logged.pure_apply,
    removeStaged_of_absent habsent]

/-- Once the backups are gone as well, nothing but the targets has changed. -/
theorem find?_of_settled {t t' t'' : FileTree} (h : Replaced t t' targets bs)
    (hexists : ∀ x ∈ targets, t.find? x.1 ≠ none)
    (hframe : ∀ p ∉ backupPlaces bs, t''.find? p = t'.find? p)
    (hgone : ∀ p ∈ backupPlaces bs, t''.find? p = none) (p : Place) :
    t''.find? p = t.overwritten targets p := by
  by_cases hp : p ∈ backupPlaces bs
  · obtain ⟨b, hb, rfl⟩ := mem_backupPlaces.mp hp
    have hother : ∀ x ∈ targets, x.1 ≠ b.backup := by
      intro x hx heq
      exact hexists x hx (heq ▸ h.fresh b hb)
    rw [hgone _ hp, FileTree.overwritten_of_not_target t hother, h.fresh b hb]
  · rw [hframe p hp, h.found p hp]

/-- A target is none of the backups. -/
theorem target_notMem_backupPlaces {t t' : FileTree} (h : Replaced t t' targets bs) {p : Place}
    (hp : t.find? p ≠ none) : p ∉ backupPlaces bs := by
  intro hmem
  obtain ⟨b, hb, rfl⟩ := mem_backupPlaces.mp hmem
  exact hp (h.fresh b hb)

/-- After the last replacement nothing goes wrong when backups can be removed: each target
holds its last text, and nothing else has changed. -/
theorem commit_ok_of_replaces (hexists : ∀ x ∈ targets, j.state.tree.find? x.1 ≠ none)
    (hsafe : ∀ n backup, w.hazards.fails n (.removeBackup backup) = none)
    (h : w.Replaces targets j) :
    ∃ j', w.commit targets j = (.ok (), j') ∧
      ∀ p, j'.state.tree.find? p = j.state.tree.overwritten targets p := by
  obtain ⟨bs, j₁, hreplaced, hcommit⟩ := commit_of_replaces hexists h
  rcases hremove : w.removeBackups bs j₁ with ⟨r, j₂⟩
  obtain ⟨hframe, hgone, hfails⟩ := removeBackups_spec hreplaced.named hremove
  have hr : r = .ok () := by
    cases r with
    | ok _ => rfl
    | error e =>
      obtain ⟨n, -, b, -, hfail⟩ := hfails e rfl
      exact absurd (hsafe n b.backup) hfail
  rw [hcommit, hremove, hr]
  exact ⟨j₂, rfl, find?_of_settled hreplaced hexists hframe (hgone hr)⟩

/-- A failure after the last replacement is one to remove a backup, and every file holds
its new content all the same. -/
theorem commit_error_of_replaces {e : WriteError}
    (hexists : ∀ x ∈ targets, j.state.tree.find? x.1 ≠ none) (h : w.Replaces targets j)
    (hcommit : w.commit targets j = (.error e, j')) :
    (∃ n backup, w.hazards.fails n (.removeBackup backup) ≠ none) ∧
      ∀ x ∈ targets, j'.state.tree.find? x.1 = j.state.tree.overwritten targets x.1 := by
  obtain ⟨bs, j₁, hreplaced, hremove⟩ := commit_of_replaces hexists h
  rw [hremove] at hcommit
  obtain ⟨hframe, -, hfails⟩ := removeBackups_spec hreplaced.named hcommit
  obtain ⟨n, -, b, -, hfail⟩ := hfails e rfl
  refine ⟨⟨n, b.backup, hfail⟩, fun x hx => ?_⟩
  have hother := target_notMem_backupPlaces hreplaced (hexists x hx)
  rw [hframe _ hother, hreplaced.found _ hother]

/-! ## Writing -/

theorem validate_eq_ok [Resolution] {t : FileTree} {path : String} {p : Place} :
    w.validate t path = .ok p ↔
      p = w.placeOf path ∧ t.find? (w.placeOf path) ≠ none ∧
        (w.placeOf path).isWithin w.base = true := by
  cases hthere : t.contains (w.placeOf path) with
  | false =>
    have hnone := FileTree.contains_eq_false.mp hthere
    simp [validate, hthere, hnone]
  | true =>
    have hsome : t.find? (w.placeOf path) ≠ none := by
      intro hnone
      rw [FileTree.contains_eq_false.mpr hnone] at hthere
      cases hthere
    cases hwithin : (w.placeOf path).isWithin w.base with
    | false => simp [validate, hthere, hwithin]
    | true => simp [validate, hthere, hwithin, hsome, eq_comm]

/-- Contents are accepted when each path leads to something within the base directory. -/
theorem validateAll_eq_ok [Resolution] {t : FileTree} {contents : List (String × String)} :
    w.validateAll t contents = .ok targets ↔
      targets = w.targetsOf contents ∧ ∀ x ∈ contents, t.find? (w.placeOf x.1) ≠ none ∧
        (w.placeOf x.1).isWithin w.base = true := by
  induction contents generalizing targets with
  | nil =>
    simp only [validateAll, targetsOf, List.map_nil, Except.ok.injEq]
    exact ⟨fun h => ⟨h.symm, by simp⟩, fun h => h.1.symm⟩
  | cons x rest ih =>
    obtain ⟨path, text⟩ := x
    rw [List.forall_mem_cons]
    cases hvalid : w.validate t path with
    | error e =>
      have hnot : ¬(t.find? (w.placeOf path) ≠ none ∧
          (w.placeOf path).isWithin w.base = true) := by
        intro h
        rw [validate_eq_ok.mpr ⟨rfl, h⟩] at hvalid
        cases hvalid
      simp only [validateAll, hvalid, reduceCtorEq, false_iff, not_and]
      exact fun _ h => absurd h hnot
    | ok place =>
      obtain ⟨rfl, hplace⟩ := validate_eq_ok.mp hvalid
      cases hrest : w.validateAll t rest with
      | error e =>
        simp only [validateAll, hvalid, hrest, Except.map, reduceCtorEq, false_iff, not_and]
        intro _ _ hall
        rw [ih.mpr ⟨rfl, hall⟩] at hrest
        cases hrest
      | ok others =>
        obtain ⟨rfl, hall⟩ := ih.mp hrest
        simp only [validateAll, hvalid, hrest, Except.map, Except.ok.injEq]
        exact ⟨fun h => ⟨h.symm, hplace, hall⟩, fun h => h.1.symm⟩

theorem writeAll_of_invalid [Resolution] {contents : List (String × String)} {e : WriteError}
    (h : w.validateAll j.state.tree contents = .error e) :
    w.writeAll contents j = (.error e, j) := by
  simp only [writeAll, Disk.currentTree_bind, h, Logged.pure_apply]

theorem writeAll_of_valid [Resolution] {contents : List (String × String)}
    (h : w.validateAll j.state.tree contents = .ok targets) :
    w.writeAll contents j = w.commit targets j := by
  simp only [writeAll, Disk.currentTree_bind, h]

/-- **Writing many files is all or nothing.** Staging, naming backups, copying them and
replacing may fail anywhere, as long as restoring and removing do not. When writing fails,
every place of the disk holds what it held. When it succeeds, each target holds the last
text given for it, every other place holds what it held, and nothing has appeared or
vanished, so neither temporary files nor backups are left. -/
theorem writeAll_allOrNothing (w : Writer) (hsafe : w.hazards.SafeUndo 0)
    (contents : List (String × String)) (j : Journal Disk) :
    (∀ e, (w.writeAll contents j).1 = .error e →
      ∀ p, (w.writeAll contents j).2.state.tree.find? p = j.state.tree.find? p) ∧
    ((w.writeAll contents j).1 = .ok () →
      (∀ p, (w.writeAll contents j).2.state.tree.find? p =
        j.state.tree.overwritten (w.targetsOf contents) p) ∧
      ∀ p, (w.writeAll contents j).2.state.tree.contains p = j.state.tree.contains p) := by
  cases hvalid : w.validateAll j.state.tree contents with
  | error e =>
    rw [writeAll_of_invalid hvalid]
    exact ⟨fun _ _ _ => rfl, fun h => by cases h⟩
  | ok targets =>
    rw [writeAll_of_valid hvalid]
    obtain ⟨rfl, hpaths⟩ := validateAll_eq_ok.mp hvalid
    have hexists : ∀ x ∈ w.targetsOf contents, j.state.tree.find? x.1 ≠ none := by
      intro x hx
      obtain ⟨y, hy, rfl⟩ := List.mem_map.mp hx
      exact (hpaths y hy).1
    by_cases hreplaces : w.Replaces (w.targetsOf contents) j
    · obtain ⟨j', hcommit, hfound⟩ := commit_ok_of_replaces hexists
        (fun n backup => hsafe.removeBackup n (Nat.zero_le n) backup) hreplaces
      rw [hcommit]
      refine ⟨fun e he => (by cases he), fun _ => ⟨hfound, fun p => ?_⟩⟩
      rw [FileTree.contains, hfound, FileTree.isSome_overwritten hexists]
    · obtain ⟨e, j', hcommit, hsame⟩ :=
        commit_of_not_replaces (hsafe.mono (Nat.zero_le _)) hreplaces
      rw [hcommit]
      exact ⟨fun _ _ => hsame, fun h => by cases h⟩

/-- A disk with a text and with a file that is none. -/
def twoFiles : Journal Disk where
  state := { tree := ⟨[(["a"], .file (.text "A")), (["b"], .file (.bytes [255]))]⟩ }

/-- A writer that cannot replace `b`. -/
def failingAtB : Writer where
  here := []
  base := []
  hazards :=
    { fails := fun _ step =>
        match step with
        | .replace _ target => if target = ["b"] then some "denied" else none
        | _ => none }

/-- The file `a` is replaced under two names before `b` fails, and gets its text back. -/
theorem writeAll_takes_back_both_names :
    (failingAtB.writeAll [("a", "1"), ("./a", "2"), ("b", "3")] twoFiles).1 =
      .error (.failed "denied") ∧
    ∀ p, (failingAtB.writeAll [("a", "1"), ("./a", "2"), ("b", "3")] twoFiles).2.state.tree.find?
      p = twoFiles.state.tree.find? p := by
  have hfails : (failingAtB.writeAll [("a", "1"), ("./a", "2"), ("b", "3")] twoFiles).1 =
      .error (.failed "denied") := by decide +kernel
  exact ⟨hfails, (writeAll_allOrNothing failingAtB
    ⟨fun _ _ _ _ => rfl, fun _ _ _ => rfl, fun _ _ _ => rfl⟩ _ twoFiles).1 _ hfails⟩

end Writer

end DocHeader

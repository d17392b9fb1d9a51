import DocHeader.Proofs.Disk.AllOrNothing
import Mathlib.Data.List.Nodup

/-!
# Files that stay replaced

When writing many files fails, the files that were replaced are restored from the last one to
the first, and that ends at the first one that cannot be restored. The files that were replaced
before it are not tried any more: each of them keeps its new content, and its backup stays beside
it. So no other file is left behind just when none was replaced before the one that cannot be
restored, or none was changed by that.

## Main definitions

* `BackedUp` — backups of the files of a tree.
* `Swapped`, `Committed` — what has happened to a tree when one target was replaced, and when
  replacing stops.
* `Writer.backupsMade` — the backups that are there when writing fails.
* `Writer.StopsRestoring` — writing fails, and then a target cannot be restored.
* `Stranded` — what is restored then and what is not.
-/

namespace DocHeader

/-- The tree `t'` has the backups `bs` of files of the tree `t`, each under a new name. -/
structure BackedUp (t t' : FileTree) (bs : List Backup) : Prop where
  named : ∀ b ∈ bs, b.backup.IsBackup
  fresh : ∀ b ∈ bs, t.find? b.backup = none
  file : ∀ b ∈ bs, ∃ old, t.find? b.target = some (.file old)
  held : ∀ b ∈ bs, t'.find? b.backup = t.find? b.target
  distinct : bs.Pairwise fun b c => b.target ≠ c.target ∧ b.backup ≠ c.backup

namespace BackedUp

variable {t u t' u' : FileTree} {b c : Backup} {bs : List Backup}

theorem nil : BackedUp t t' [] := ⟨by simp, by simp, by simp, by simp, .nil⟩

theorem target_ne_nil (h : BackedUp t t' bs) (hb : b ∈ bs) : b.target ≠ [] := by
  intro hroot
  obtain ⟨old, hold⟩ := h.file b hb
  rw [hroot] at hold
  cases hold

/-- What was there is not where a backup is. -/
theorem ne_backup (h : BackedUp t t' bs) (hb : b ∈ bs) {p : Place} (hp : t.find? p ≠ none) :
    p ≠ b.backup :=
  fun heq => hp (heq ▸ h.fresh b hb)

theorem target_ne_backup (h : BackedUp t t' bs) (hb : b ∈ bs) (hc : c ∈ bs) :
    b.target ≠ c.backup := by
  obtain ⟨old, hold⟩ := h.file b hb
  exact h.ne_backup hc (by simp [hold])

theorem reverse (h : BackedUp t t' bs) : BackedUp t t' bs.reverse where
  named b hb := h.named b (List.mem_reverse.mp hb)
  fresh b hb := h.fresh b (List.mem_reverse.mp hb)
  file b hb := h.file b (List.mem_reverse.mp hb)
  held b hb := h.held b (List.mem_reverse.mp hb)
  distinct := List.pairwise_reverse.mpr (h.distinct.imp fun hne => ⟨hne.1.symm, hne.2.symm⟩)

/-- Backups stay backups while neither they nor what they are of is touched. -/
theorem congr (h : BackedUp t t' bs) (htargets : ∀ b ∈ bs, u.find? b.target = t.find? b.target)
    (hfree : ∀ b ∈ bs, u.find? b.backup = t.find? b.backup)
    (hkept : ∀ b ∈ bs, u'.find? b.backup = t'.find? b.backup) : BackedUp u u' bs where
  named := h.named
  fresh b hb := (hfree b hb).trans (h.fresh b hb)
  file b hb := by rw [htargets b hb]; exact h.file b hb
  held b hb := by rw [hkept b hb, htargets b hb]; exact h.held b hb
  distinct := h.distinct

theorem cons {old : Content} (h : BackedUp t t' bs) (hname : b.backup.IsBackup)
    (hfree : t.find? b.backup = none) (hfile : t.find? b.target = some (.file old))
    (hheld : t'.find? b.backup = t.find? b.target)
    (hne : ∀ c ∈ bs, b.target ≠ c.target ∧ b.backup ≠ c.backup) : BackedUp t t' (b :: bs) where
  named := List.forall_mem_cons.mpr ⟨hname, h.named⟩
  fresh := List.forall_mem_cons.mpr ⟨hfree, h.fresh⟩
  file := List.forall_mem_cons.mpr ⟨⟨old, hfile⟩, h.file⟩
  held := List.forall_mem_cons.mpr ⟨hheld, h.held⟩
  distinct := List.pairwise_cons.mpr ⟨hne, h.distinct⟩

theorem of_cons (h : BackedUp t t' (b :: bs)) : BackedUp t t' bs where
  named c hc := h.named c (List.mem_cons_of_mem b hc)
  fresh c hc := h.fresh c (List.mem_cons_of_mem b hc)
  file c hc := h.file c (List.mem_cons_of_mem b hc)
  held c hc := h.held c (List.mem_cons_of_mem b hc)
  distinct := (List.pairwise_cons.mp h.distinct).2

/-- Once the first of the backups is copied back and removed, the others are as they were. -/
theorem restored (h : BackedUp t t' (b :: bs)) (e : Entry) :
    BackedUp t ((t'.put b.target e).remove b.backup) bs := by
  have hname := h.named b List.mem_cons_self
  have htarget := h.target_ne_nil List.mem_cons_self
  refine h.of_cons.congr (fun _ _ => rfl) (fun _ _ => rfl) fun c hc => ?_
  have hmem := List.mem_cons_of_mem b hc
  obtain ⟨-, hne⟩ := (List.pairwise_cons.mp h.distinct).1 c hc
  rw [FileTree.find?_remove hname.ne_nil, if_neg hne.symm, FileTree.find?_put htarget,
    if_neg (h.target_ne_backup List.mem_cons_self hmem).symm]

end BackedUp

/-! ## Replacing, up to a failure -/

/-- A backed up target holds its new text, or it is the last one and was not replaced. -/
def HoldsNew (t t' : FileTree) (targets : List (Place × String)) (bs : List Backup) : Prop :=
  ∀ before b after, bs = before ++ b :: after →
    (∃ text, (b.target, text) ∈ targets ∧ t'.find? b.target = some (.file (.text text))) ∨
      (after = [] ∧ t'.find? b.target = t.find? b.target)

namespace HoldsNew

variable {t u t' : FileTree} {targets : List (Place × String)} {b : Backup} {bs : List Backup}

theorem nil : HoldsNew t t' targets [] := fun before b after h => by simp at h

theorem cons (h : HoldsNew t t' targets bs)
    (hb : (∃ text, (b.target, text) ∈ targets ∧ t'.find? b.target = some (.file (.text text))) ∨
      (bs = [] ∧ t'.find? b.target = t.find? b.target)) : HoldsNew t t' targets (b :: bs) := by
  intro before c after hsplit
  cases before with
  | nil =>
    obtain ⟨rfl, rfl⟩ := List.cons.inj hsplit
    exact hb
  | cons first before =>
    obtain ⟨rfl, rfl⟩ := List.cons.inj hsplit
    exact h before c after rfl

theorem of_mem {x : Place × String} (h : HoldsNew t t' targets bs) :
    HoldsNew t t' (x :: targets) bs := fun before c after hsplit =>
  (h before c after hsplit).imp_left fun ⟨text, hmem, hnew⟩ =>
    ⟨text, List.mem_cons_of_mem x hmem, hnew⟩

theorem congr (h : HoldsNew t t' targets bs)
    (hsame : ∀ b ∈ bs, u.find? b.target = t.find? b.target) : HoldsNew u t' targets bs :=
  fun before c after hsplit => (h before c after hsplit).imp_right fun ⟨hlast, hold⟩ =>
    ⟨hlast, hold.trans (hsame c (by simp [hsplit])).symm⟩

end HoldsNew

/-- The target of a staged file was backed up and replaced, and the tree `t₁` has come out. -/
structure Swapped (t t₁ : FileTree) (s : StagedFile) (text : String) (b : Backup) : Prop where
  staging : s.staged.IsStaging
  named : b.backup.IsBackup
  free : t.find? b.backup = none
  target : b.target = s.target
  found : ∃ old : Content, t.find? s.target = some (.file old) ∧ ∀ p, t₁.find? p =
    if p = s.staged then none else if p = s.target then some (.file (.text text)) else
      if p = b.backup then some (.file old) else t.find? p

namespace Swapped

variable {t t₁ : FileTree} {s : StagedFile} {text : String} {b : Backup} {p : Place}

theorem file (h : Swapped t t₁ s text b) : ∃ old, t.find? b.target = some (.file old) := by
  obtain ⟨old, hfile, -⟩ := h.found
  exact ⟨old, h.target ▸ hfile⟩

theorem find?_target (h : Swapped t t₁ s text b) (hapart : s.staged ≠ s.target) :
    t₁.find? b.target = some (.file (.text text)) := by
  obtain ⟨old, -, hfound⟩ := h.found
  rw [h.target, hfound, if_neg hapart.symm, if_pos rfl]

theorem find?_backup (h : Swapped t t₁ s text b) : t₁.find? b.backup = t.find? b.target := by
  obtain ⟨old, hfile, hfound⟩ := h.found
  have hne : b.backup ≠ s.target := by
    intro heq
    rw [← heq, h.free] at hfile
    cases hfile
  rw [hfound, if_neg (h.named.ne_staging h.staging), if_neg hne, if_pos rfl, h.target, hfile]

theorem find?_of_ne (h : Swapped t t₁ s text b) (hstaged : p ≠ s.staged) (htarget : p ≠ b.target)
    (hbackup : p ≠ b.backup) : t₁.find? p = t.find? p := by
  obtain ⟨old, -, hfound⟩ := h.found
  rw [hfound, if_neg hstaged, if_neg (h.target ▸ htarget), if_neg hbackup]

/-- Where nothing is now, nothing was, and neither the target nor its backup is there. -/
theorem free_before (h : Swapped t t₁ s text b) (hnone : t₁.find? p = none)
    (hstaged : p ≠ s.staged) : p ≠ b.target ∧ p ≠ b.backup ∧ t.find? p = none := by
  obtain ⟨old, -, hfound⟩ := h.found
  rw [hfound, if_neg hstaged] at hnone
  split at hnone
  · cases hnone
  · split at hnone
    · cases hnone
    · exact ⟨h.target ▸ ‹_›, ‹_›, hnone⟩

end Swapped

/-- What has happened to the tree `t` when replacing stops. -/
structure Committed (t t' : FileTree) (ss : List StagedFile) (targets : List (Place × String))
    (bs : List Backup) : Prop where
  backedUp : BackedUp t t' bs
  holds : HoldsNew t t' targets bs
  inOrder : bs.map (·.target) <+: ss.map (·.target)
  frame : ∀ p ∉ stagedPlaces ss, (∀ b ∈ bs, p ≠ b.target ∧ p ≠ b.backup) →
    t'.find? p = t.find? p

namespace Committed

variable {t t₁ t' : FileTree} {ss : List StagedFile} {s : StagedFile} {b : Backup}
  {bs : List Backup} {targets : List (Place × String)} {text : String}

theorem nothing (hsame : ∀ p, t'.find? p = t.find? p) : Committed t t' ss targets [] where
  backedUp := .nil
  holds := .nil
  inOrder := List.nil_prefix
  frame p _ _ := hsame p

/-- A target was backed up, and could not be replaced. -/
theorem single {old : Content} (hname : b.backup.IsBackup) (hfree : t.find? b.backup = none)
    (hfile : t.find? b.target = some (.file old)) (htarget : b.target = s.target)
    (hfound : ∀ p, t'.find? p = if p = b.backup then some (.file old) else t.find? p) :
    Committed t t' (s :: ss) targets [b] := by
  have hne : b.target ≠ b.backup := by
    intro heq
    rw [heq, hfree] at hfile
    cases hfile
  refine ⟨BackedUp.nil.cons hname hfree hfile ?_ (by simp), HoldsNew.nil.cons (.inr ⟨rfl, ?_⟩),
    by simp [htarget], fun p _ hp => ?_⟩
  · rw [hfound, if_pos rfl, hfile]
  · rw [hfound, if_neg hne]
  · rw [hfound, if_neg (hp b List.mem_cons_self).2]

/-- The targets that come after one that was replaced are others, and are still as they were. -/
theorem later_targets (hswap : Swapped t t₁ s text b) (hnew : s.target ∉ ss.map (·.target))
    (hthere : ∀ s' ∈ ss, t.find? s'.target ≠ none)
    (hapart : ∀ s' ∈ ss, s.staged ≠ s'.target) (h : Committed t₁ t' ss targets bs) :
    ∀ c ∈ bs, c.target ≠ b.target ∧ c.target ≠ b.backup ∧
      t₁.find? c.target = t.find? c.target := by
  intro c hc
  have hmem := h.inOrder.subset (List.mem_map_of_mem hc)
  have htarget : c.target ≠ b.target := fun heq => hnew (hswap.target ▸ heq ▸ hmem)
  obtain ⟨s', hs', heq⟩ := List.mem_map.mp hmem
  have hbackup : c.target ≠ b.backup := fun hsame =>
    hthere s' hs' (by rw [heq, hsame, hswap.free])
  exact ⟨htarget, hbackup, hswap.find?_of_ne (heq ▸ (hapart s' hs').symm) htarget hbackup⟩

/-- The backups made after a target was replaced are others, and nothing was there before. -/
theorem later_backups (hswap : Swapped t t₁ s text b) (h : Committed t₁ t' ss targets bs) :
    ∀ c ∈ bs, c.backup ≠ b.target ∧ c.backup ≠ b.backup ∧ t.find? c.backup = none := fun c hc =>
  hswap.free_before (h.backedUp.fresh c hc) ((h.backedUp.named c hc).ne_staging hswap.staging)

/-- A target was backed up and replaced, and replacing went on with the others. -/
theorem cons (hswap : Swapped t t₁ s text b) (hnamed : ∀ s' ∈ ss, s'.staged.IsStaging)
    (hnew : s.target ∉ ss.map (·.target)) (hthere : ∀ s' ∈ ss, t.find? s'.target ≠ none)
    (hapart : ∀ s₁ ∈ s :: ss, ∀ s₂ ∈ s :: ss, s₁.staged ≠ s₂.target)
    (h : Committed t₁ t' ss targets bs) :
    Committed t t' (s :: ss) ((s.target, text) :: targets) (b :: bs) := by
  obtain ⟨hhead, hrest⟩ := List.forall_mem_cons.mp hapart
  obtain ⟨hself, hothers⟩ := List.forall_mem_cons.mp hhead
  have htargets := h.later_targets hswap hnew hthere hothers
  have hbackups := h.later_backups hswap
  obtain ⟨old, hfile⟩ := hswap.file
  -- what is done later touches neither the target nor its backup
  have hstill : t'.find? b.target = some (.file (.text text)) := by
    rw [h.frame _ _ fun c hc => ⟨(htargets c hc).1.symm, (hbackups c hc).1.symm⟩]
    · exact hswap.find?_target hself
    · rw [mem_stagedPlaces, hswap.target]
      rintro ⟨s', hs', heq⟩
      exact hrest s' hs' s List.mem_cons_self heq
  have hheld : t'.find? b.backup = t.find? b.target := by
    rw [h.frame _ _ fun c hc => ⟨(htargets c hc).2.1.symm, (hbackups c hc).2.1.symm⟩]
    · exact hswap.find?_backup
    · rw [mem_stagedPlaces]
      rintro ⟨s', hs', heq⟩
      exact hswap.named.ne_staging (hnamed s' hs') heq.symm
  have hlater : BackedUp t t' bs := h.backedUp.congr (fun c hc => (htargets c hc).2.2.symm)
    (fun c hc => (hbackups c hc).2.2.trans (h.backedUp.fresh c hc).symm) fun _ _ => rfl
  refine ⟨hlater.cons hswap.named hswap.free hfile hheld fun c hc =>
    ⟨(htargets c hc).1.symm, (hbackups c hc).2.1.symm⟩, ?_, ?_, fun p hp hother => ?_⟩
  · have hholds := h.holds.congr fun c hc => (htargets c hc).2.2.symm
    refine hholds.of_mem.cons (.inl ⟨text, ?_, hstill⟩)
    rw [hswap.target]
    exact List.mem_cons_self
  · simpa [hswap.target] using h.inOrder
  · obtain ⟨⟨hpt, hpb⟩, hother⟩ := List.forall_mem_cons.mp hother
    rw [h.frame p (List.not_mem_of_not_mem_cons hp) hother,
      hswap.find?_of_ne (List.ne_of_not_mem_cons hp) hpt hpb]

end Committed

namespace Writer

variable {w : Writer} {j j' : Journal Disk} {ss : List StagedFile} {b : Backup}
  {bs : List Backup} {targets : List (Place × String)} {r : Except WriteError Unit}

/-- What has happened when replacing stops, wherever it does. -/
theorem commitAll_committed (hnamed : ∀ s ∈ ss, s.staged.IsStaging)
    (hfresh : (stagedPlaces ss).Nodup) (hdistinct : (ss.map (·.target)).Nodup)
    (hthere : ∀ s ∈ ss, j.state.tree.find? s.target ≠ none)
    (hapart : ∀ s₁ ∈ ss, ∀ s₂ ∈ ss, s₁.staged ≠ s₂.target)
    (hwaiting : Waiting j.state.tree ss targets) (h : w.commitAll ss j = ((bs, r), j')) :
    Committed j.state.tree j'.state.tree ss targets bs := by
  induction ss generalizing j bs targets with
  | nil =>
    simp only [commitAll, Logged.pure_apply] at h
    cases h
    exact .nothing fun _ => rfl
  | cons s rest ih =>
    cases targets with
    | nil => cases hwaiting
    | cons x later =>
    obtain ⟨target, text⟩ := x
    obtain rfl : s.target = target := by
      cases hwaiting with
      | cons hhead _ => exact hhead.1
    rcases hback : w.backUp s.target j with ⟨first, j₁⟩
    simp only [commitAll, Logged.bind_apply, hback] at h
    rcases backUp_cases hback with ⟨e, rfl, hsame⟩ |
      ⟨backup, old, rfl, hname, hfree, hfile, htree⟩
    · simp only [Logged.pure_apply] at h
      cases h
      exact .nothing fun p => by rw [hsame]
    · rcases hreplace : w.replace s j₁ with ⟨_ | _, j₂⟩
      · simp only [Logged.bind_apply, hreplace, Logged.pure_apply] at h
        cases h
        rcases replace_cases hreplace with ⟨-, -, hsame⟩ | ⟨-, hok, -⟩
        · refine .single hname hfree hfile rfl fun p => ?_
          rw [hsame, htree, FileTree.find?_put hname.ne_nil]
        · cases hok
      · rcases hrest : w.commitAll rest j₂ with ⟨⟨others, outcome⟩, j₃⟩
        simp only [Logged.bind_apply, hreplace, hrest, Logged.pure_apply] at h
        cases h
        obtain ⟨-, -, hfound, hwaiting⟩ := replaced_of_waiting hnamed hfresh
          (fun s' hs' => hapart s' hs' s List.mem_cons_self) hwaiting hback hreplace
        obtain ⟨hstaged, hnamed⟩ := List.forall_mem_cons.mp hnamed
        obtain ⟨hnew, hdistinct⟩ := List.nodup_cons.mp hdistinct
        obtain ⟨-, hthere⟩ := List.forall_mem_cons.mp hthere
        have hswap : Swapped j.state.tree j₂.state.tree s text ⟨s.target, backup⟩ :=
          ⟨hstaged, hname, hfree, rfl, hfound⟩
        have hthere₂ : ∀ s' ∈ rest, j₂.state.tree.find? s'.target ≠ none := by
          intro s' hs' hnone
          have hne := hapart s List.mem_cons_self s' (List.mem_cons_of_mem s hs')
          exact hthere s' hs' (hswap.free_before hnone hne.symm).2.2
        refine .cons hswap hnamed hnew hthere hapart
          (ih hnamed (List.nodup_cons.mp hfresh).2 hdistinct hthere₂ (fun s₁ hs₁ s₂ hs₂ => hapart s₁
            (List.mem_cons_of_mem s hs₁) s₂ (List.mem_cons_of_mem s hs₂)) hwaiting hrest)

/-- The backups that are there when replacing stops, in the order of their targets. -/
def backupsMade (w : Writer) (targets : List (Place × String)) (j : Journal Disk) : List Backup :=
  (w.replaceAll targets j).1.2.1

theorem map_target_of_waiting {t : FileTree} (h : Waiting t ss targets) :
    ss.map (·.target) = targets.map Prod.fst := by
  induction h with
  | nil => rfl
  | cons hhead _ ih => simp only [List.map_cons, hhead.1, ih]

/-- What has happened when staging or replacing stops. -/
theorem replaceAll_committed (hdistinct : (targets.map Prod.fst).Nodup)
    (hthere : ∀ x ∈ targets, j.state.tree.find? x.1 ≠ none)
    (h : w.replaceAll targets j = ((ss, bs, r), j')) :
    BackedUp j.state.tree j'.state.tree bs ∧ HoldsNew j.state.tree j'.state.tree targets bs ∧
      bs.map (·.target) <+: targets.map Prod.fst ∧
      ∀ p ∉ stagedPlaces ss, (∀ b ∈ bs, p ≠ b.target ∧ p ≠ b.backup) →
        j'.state.tree.find? p = j.state.tree.find? p := by
  rcases hstage : w.stageAll targets j with ⟨⟨staged, staging⟩, j₁⟩
  obtain ⟨hstaging, hwaiting⟩ := stageAll_spec hstage
  simp only [replaceAll, Logged.bind_apply, hstage] at h
  cases staging with
  | error e =>
    simp only [Logged.pure_apply] at h
    cases h
    exact ⟨.nil, .nil, List.nil_prefix,
      fun p hp _ => hstaging.frame p hp⟩
  | ok _ =>
    rcases hcommit : w.commitAll staged j₁ with ⟨⟨backups, outcome⟩, j₂⟩
    simp only [Logged.bind_apply, hcommit, Logged.pure_apply] at h
    cases h
    have hmap := map_target_of_waiting (hwaiting rfl)
    -- the targets were there before staging, the temporary files were not
    have hbefore : ∀ s ∈ ss, j.state.tree.find? s.target ≠ none := by
      intro s hs
      have hmem : s.target ∈ targets.map Prod.fst := hmap ▸ List.mem_map_of_mem hs
      obtain ⟨x, hx, heq⟩ := List.mem_map.mp hmem
      exact heq ▸ hthere x hx
    have hapart : ∀ s₁ ∈ ss, ∀ s₂ ∈ ss, s₁.staged ≠ s₂.target := by
      intro s₁ hs₁ s₂ hs₂ heq
      exact hbefore s₂ hs₂ (heq ▸ hstaging.fresh s₁ hs₁)
    have hframe : ∀ s ∈ ss, j₁.state.tree.find? s.target = j.state.tree.find? s.target := by
      intro s hs
      refine hstaging.frame _ fun hmem => ?_
      obtain ⟨s', hs', heq⟩ := mem_stagedPlaces.mp hmem
      exact hapart s' hs' s hs heq
    obtain ⟨hbacked, hholds, horder, hrest⟩ := commitAll_committed hstaging.named hstaging.distinct
      (hmap ▸ hdistinct) (fun s hs => by rw [hframe s hs]; exact hbefore s hs) hapart
      (hwaiting rfl) hcommit
    have htargets : ∀ b ∈ bs, j.state.tree.find? b.target = j₁.state.tree.find? b.target := by
      intro b hb
      obtain ⟨s, hs, heq⟩ := List.mem_map.mp (horder.subset (List.mem_map_of_mem hb))
      exact heq ▸ (hframe s hs).symm
    refine ⟨hbacked.congr htargets (fun b hb => ?_) fun _ _ => rfl, hholds.congr htargets,
      hmap ▸ horder, fun p hp hother => (hrest p hp hother).trans (hstaging.frame p hp)⟩
    refine (hstaging.frame _ fun hmem => ?_).symm
    obtain ⟨s, hs, heq⟩ := mem_stagedPlaces.mp hmem
    exact (hbacked.named b hb).ne_staging (hstaging.named s hs) heq.symm

/-! ## Rolling back, up to a failure -/

/-- Rolling back ends at the first target that cannot be restored. Those before it are restored, and
nothing else has changed. -/
theorem rollBack_stops {t : FileTree} {message : String} (hbacked : BackedUp t j.state.tree bs)
    (h : w.rollBack bs j = (.error (.notRestored b.target b.backup message), j')) :
    ∃ done rest, bs = done ++ b :: rest ∧
      (∀ c ∈ done, j'.state.tree.find? c.target = t.find? c.target ∧
        j'.state.tree.find? c.backup = none) ∧
      ∀ p, (∀ c ∈ done, p ≠ c.target ∧ p ≠ c.backup) →
        j'.state.tree.find? p = j.state.tree.find? p := by
  induction bs generalizing j with
  | nil =>
    simp only [rollBack, Logged.pure_apply] at h
    cases h
  | cons c rest ih =>
    rcases hrestore : w.restore c j with ⟨first, j₁⟩
    simp only [rollBack, Logged.bind_apply, hrestore] at h
    rcases restore_cases hrestore with ⟨_, rfl, htree⟩ | ⟨e, rfl, hfound, htree⟩
    · simp only [Logged.pure_apply] at h
      cases b
      cases h
      exact ⟨[], rest, rfl, by simp, fun p _ => by rw [htree]⟩
    rcases hremove : w.removeFile (.removeBackup c.backup) c.backup j₁ with ⟨_ | _, j₂⟩
    · simp only [Logged.bind_apply, hremove, Logged.pure_apply] at h
      obtain ⟨_, rfl⟩ := removeFile_eq_error hremove
      cases h
    simp only [Logged.bind_apply, hremove] at h
    rcases removeFile_cases hremove with ⟨-, ⟨_, hbad, -⟩ | ⟨-, htree₂⟩⟩
    · cases hbad
    rw [htree] at htree₂
    obtain ⟨done, rest', rfl, hdone, hframe⟩ := ih (htree₂ ▸ hbacked.restored e) h
    have hchanged (p : Place) : j₂.state.tree.find? p =
        if p = c.backup then none else if p = c.target then some e else j.state.tree.find? p := by
      rw [htree₂, FileTree.find?_remove (hbacked.named c List.mem_cons_self).ne_nil,
        FileTree.find?_put (hbacked.target_ne_nil List.mem_cons_self)]
    have hapart : ∀ d ∈ done, c.target ≠ d.target ∧ c.backup ≠ d.backup := fun d hd =>
      (List.pairwise_cons.mp hbacked.distinct).1 d (List.mem_append_left _ hd)
    have hdiffer : ∀ d ∈ done, c.target ≠ d.backup ∧ d.target ≠ c.backup := by
      intro d hd
      have hmem := List.mem_cons_of_mem c (List.mem_append_left (b :: rest') hd)
      exact ⟨hbacked.target_ne_backup List.mem_cons_self hmem,
        hbacked.target_ne_backup hmem List.mem_cons_self⟩
    refine ⟨c :: done, rest', rfl, List.forall_mem_cons.mpr ⟨⟨?_, ?_⟩, hdone⟩, fun p hp => ?_⟩
    · rw [hframe c.target fun d hd => ⟨(hapart d hd).1, (hdiffer d hd).1⟩, hchanged,
        if_neg (hbacked.target_ne_backup List.mem_cons_self List.mem_cons_self), if_pos rfl,
        ← hfound, hbacked.held c List.mem_cons_self]
    · rw [hframe c.backup fun d hd => ⟨(hdiffer d hd).2.symm, (hapart d hd).2⟩, hchanged,
        if_pos rfl]
    · obtain ⟨⟨hpt, hpb⟩, hp⟩ := List.forall_mem_cons.mp hp
      rw [hframe p hp, hchanged, if_neg hpb, if_neg hpt]

/-! ## Writing -/

/-- Writing fails before all targets are replaced, and undoing that ends at the backup `b`, which
cannot be copied back. -/
structure StopsRestoring [Resolution] (w : Writer) (contents : List (String × String))
    (j : Journal Disk) (b : Backup) : Prop where
  valid : w.validateAll j.state.tree contents = .ok (w.targetsOf contents)
  fails : ¬w.Replaces (w.targetsOf contents) j
  stops : ∃ message, (w.rollBack (w.backupsMade (w.targetsOf contents) j).reverse
    (w.replaceAll (w.targetsOf contents) j).2).1 = .error (.notRestored b.target b.backup message)

end Writer

/-- What is there in the tree `t'` when writing to the tree `t` has failed and the target of `b`
could not be restored: the targets replaced after it are restored, those replaced before it are
not. -/
structure Stranded (t t' : FileTree) (targets : List (Place × String)) (before : List Backup)
    (b : Backup) (after : List Backup) : Prop where
  restored : ∀ c ∈ after, t'.find? c.target = t.find? c.target ∧ t'.find? c.backup = none
  kept : ∀ c ∈ before ++ [b], t'.find? c.backup = t.find? c.target
  replaced : ∀ c ∈ before, ∃ text, (c.target, text) ∈ targets ∧
    t'.find? c.target = some (.file (.text text))

namespace Stranded

variable {t t₁ t' t'' : FileTree} {targets : List (Place × String)} {before after : List Backup}
  {b : Backup}

/-- What is left behind when rolling back ends at the backup `b`. -/
theorem of_rolledBack (hbacked : BackedUp t t₁ (before ++ b :: after))
    (hholds : HoldsNew t t₁ targets (before ++ b :: after))
    (hdone : ∀ c ∈ after, t'.find? c.target = t.find? c.target ∧ t'.find? c.backup = none)
    (hsame : ∀ p, (∀ c ∈ after, p ≠ c.target ∧ p ≠ c.backup) → t'.find? p = t₁.find? p) :
    Stranded t t' targets before b after := by
  have hsplit := List.append_cons before b after
  have hapart : ∀ c ∈ before ++ [b], ∀ d ∈ after, c.target ≠ d.target ∧ c.backup ≠ d.backup :=
    (List.pairwise_append.mp (hsplit ▸ hbacked.distinct)).2.2
  have hdiffer : ∀ c ∈ before ++ [b], ∀ d ∈ after, c.target ≠ d.backup ∧ c.backup ≠ d.target := by
    intro c hc d hd
    have hc' : c ∈ before ++ b :: after := hsplit ▸ List.mem_append_left after hc
    have hd' : d ∈ before ++ b :: after := hsplit ▸ List.mem_append_right (before ++ [b]) hd
    exact ⟨hbacked.target_ne_backup hc' hd', (hbacked.target_ne_backup hd' hc').symm⟩
  refine ⟨hdone, fun c hc => ?_, fun c hc => ?_⟩
  · rw [hsame c.backup fun d hd => ⟨(hdiffer c hc d hd).2, (hapart c hc d hd).2⟩]
    exact hbacked.held c (hsplit ▸ List.mem_append_left after hc)
  · have hmem : c ∈ before ++ [b] := List.mem_append_left [b] hc
    rw [hsame c.target fun d hd => ⟨(hapart c hmem d hd).1, (hdiffer c hmem d hd).1⟩]
    obtain ⟨front, back, rfl⟩ := List.append_of_mem hc
    rcases hholds front c (back ++ b :: after) (by simp) with hnew | ⟨hlast, -⟩
    · exact hnew
    · simp at hlast

/-- Nothing but the targets and backups that are left behind has changed. -/
theorem find?_of_rolledBack {p : Place} (hbacked : BackedUp t t₁ (before ++ b :: after))
    (hdone : ∀ c ∈ after, t'.find? c.target = t.find? c.target ∧ t'.find? c.backup = none)
    (hsame : ∀ p, (∀ c ∈ after, p ≠ c.target ∧ p ≠ c.backup) → t'.find? p = t₁.find? p)
    (hframe : (∀ c ∈ before ++ b :: after, p ≠ c.target ∧ p ≠ c.backup) →
      t₁.find? p = t.find? p)
    (hp : ∀ c ∈ before ++ [b], p ≠ c.target ∧ p ≠ c.backup) : t'.find? p = t.find? p := by
  by_cases hother : ∀ c ∈ after, p ≠ c.target ∧ p ≠ c.backup
  · rw [hsame p hother]
    refine hframe fun c hc => ?_
    rw [List.append_cons] at hc
    exact (List.mem_append.mp hc).elim (hp c) (hother c)
  · obtain ⟨c, hc, hpc⟩ : ∃ c ∈ after, p = c.target ∨ p = c.backup := by
      simpa [← not_or, ← or_iff_not_imp_left] using hother
    rcases hpc with rfl | rfl
    · exact (hdone c hc).1
    · rw [(hdone c hc).2, hbacked.fresh c (by simp [hc])]

theorem congr (h : Stranded t t' targets before b after)
    (hsame : ∀ c ∈ before ++ b :: after, t''.find? c.target = t'.find? c.target ∧
      t''.find? c.backup = t'.find? c.backup) : Stranded t t'' targets before b after where
  restored c hc := by
    obtain ⟨htarget, hbackup⟩ := hsame c (by simp [hc])
    rw [htarget, hbackup]
    exact h.restored c hc
  kept c hc := by
    rw [(hsame c (by rcases List.mem_append.mp hc with hc | hc <;> simp_all)).2]
    exact h.kept c hc
  replaced c hc := by
    rw [(hsame c (List.mem_append_left _ hc)).1]
    exact h.replaced c hc

/-- All other targets are restored just when none of those replaced before it was changed. -/
theorem restores_others_iff (hdistinct : (targets.map Prod.fst).Nodup)
    (h : Stranded t t' targets before b after) :
    (∀ c ∈ before ++ after, t'.find? c.target = t.find? c.target) ↔
      ∀ c ∈ before, ∃ text, (c.target, text) ∈ targets ∧
        t.find? c.target = some (.file (.text text)) := by
  refine ⟨fun hall c hc => ?_, fun hsame c hc => ?_⟩
  · obtain ⟨text, hmem, hnew⟩ := h.replaced c hc
    exact ⟨text, hmem, (hall c (List.mem_append_left after hc)).symm.trans hnew⟩
  · rcases List.mem_append.mp hc with hc | hc
    · obtain ⟨text, hmem, hnew⟩ := h.replaced c hc
      obtain ⟨text', hmem', hold⟩ := hsame c hc
      obtain rfl : text = text' :=
        (Prod.mk.inj (List.inj_on_of_nodup_map hdistinct hmem hmem' rfl)).2
      rw [hnew, hold]
    · exact (h.restored c hc).1

end Stranded

namespace Writer

variable {w : Writer} {j : Journal Disk} {b : Backup}

/-- Undoing ends at a target that cannot be restored, and then the temporary files are removed. When
that succeeds, nothing has changed but the targets and backups that are left behind. -/
theorem undo_strands {targets : List (Place × String)} {ss : List StagedFile} {bs : List Backup}
    {r removed : Except WriteError Unit} {j₁ j₂ j₃ : Journal Disk} {message : String}
    (hdistinct : (targets.map Prod.fst).Nodup)
    (hthere : ∀ x ∈ targets, j.state.tree.find? x.1 ≠ none)
    (hreplace : w.replaceAll targets j = ((ss, bs, r), j₁))
    (hback : w.rollBack bs.reverse j₁ = (.error (.notRestored b.target b.backup message), j₂))
    (hremove : w.removeStaged ss j₂ = (removed, j₃)) :
    ∃ before after, bs = before ++ b :: after ∧
      (before ++ b :: after).map (·.target) <+: targets.map Prod.fst ∧
      Stranded j.state.tree j₃.state.tree targets before b after ∧
      (removed = .ok () → ∀ p, (∀ c ∈ before ++ [b], p ≠ c.target ∧ p ≠ c.backup) →
        j₃.state.tree.find? p = j.state.tree.find? p) := by
  obtain ⟨hnamed, hfresh, -⟩ := replaceAll_unwinds hreplace
  obtain ⟨hbacked, hholds, horder, hframe⟩ := replaceAll_committed hdistinct hthere hreplace
  obtain ⟨done, rest, hsplit, hdone, hsame⟩ := rollBack_stops hbacked.reverse hback
  obtain rfl : bs = rest.reverse ++ b :: done.reverse := by
    rw [← bs.reverse_reverse, hsplit, List.reverse_append, List.reverse_cons, List.append_assoc,
      List.singleton_append]
  obtain ⟨hleft, hgone, -⟩ := removeStaged_spec hnamed hremove
  have hdone' : ∀ c ∈ done.reverse, j₂.state.tree.find? c.target = j.state.tree.find? c.target ∧
      j₂.state.tree.find? c.backup = none := fun c hc => hdone c (List.mem_reverse.mp hc)
  have hsame' : ∀ p, (∀ c ∈ done.reverse, p ≠ c.target ∧ p ≠ c.backup) →
      j₂.state.tree.find? p = j₁.state.tree.find? p :=
    fun p hp => hsame p fun c hc => hp c (List.mem_reverse.mpr hc)
  -- neither targets nor backups are temporary files
  have hstay : ∀ c ∈ rest.reverse ++ b :: done.reverse,
      j₃.state.tree.find? c.target = j₂.state.tree.find? c.target ∧
        j₃.state.tree.find? c.backup = j₂.state.tree.find? c.backup := by
    refine fun c hc => ⟨hleft _ fun hmem => ?_, hleft _ fun hmem => ?_⟩
    · obtain ⟨s, hs, heq⟩ := mem_stagedPlaces.mp hmem
      obtain ⟨old, hold⟩ := hbacked.file c hc
      rw [← heq, hfresh s hs] at hold
      cases hold
    · obtain ⟨s, hs, heq⟩ := mem_stagedPlaces.mp hmem
      exact (hbacked.named c hc).ne_staging (hnamed s hs) heq.symm
  refine ⟨rest.reverse, done.reverse, rfl, horder,
    (Stranded.of_rolledBack hbacked hholds hdone' hsame').congr hstay, fun hok p hp => ?_⟩
  by_cases hmem : p ∈ stagedPlaces ss
  · obtain ⟨s, hs, rfl⟩ := mem_stagedPlaces.mp hmem
    rw [hgone hok _ hmem, hfresh s hs]
  · rw [hleft p hmem]
    exact Stranded.find?_of_rolledBack hbacked hdone' hsame' (hframe p hmem) hp

/-- **What a failing restore leaves behind.** When writing fails after some targets were replaced,
and one of these cannot be restored, the targets that were replaced after it hold their old content
and their backups are gone. The backup of the one that cannot be restored holds its old content; so
do the backups of the targets that were replaced before it, and these still hold their new texts.
Hence all others are restored just when none was replaced before it, or none was changed by that. -/
theorem writeAll_restores_others_iff [Resolution] {contents : List (String × String)}
    (hdistinct : ((w.targetsOf contents).map Prod.fst).Nodup)
    (hstops : w.StopsRestoring contents j b) :
    ∃ before after, w.backupsMade (w.targetsOf contents) j = before ++ b :: after ∧
      (before ++ b :: after).map (·.target) <+: (w.targetsOf contents).map Prod.fst ∧
      Stranded j.state.tree (w.writeAll contents j).2.state.tree (w.targetsOf contents) before b
        after ∧
      ((∀ c ∈ before ++ after, (w.writeAll contents j).2.state.tree.find? c.target =
          j.state.tree.find? c.target) ↔
        ∀ c ∈ before, ∃ text, (c.target, text) ∈ w.targetsOf contents ∧
          j.state.tree.find? c.target = some (.file (.text text))) ∧
      ∃ e, (w.writeAll contents j).1 = .error e ∧
        ((∃ n staged, w.hazards.fails n (.removeStaged staged) ≠ none) ∨
          (∃ message, e = .notRestored b.target b.backup message) ∧
            ∀ p, (∀ c ∈ before ++ [b], p ≠ c.target ∧ p ≠ c.backup) →
              (w.writeAll contents j).2.state.tree.find? p = j.state.tree.find? p) := by
  obtain ⟨hvalid, hfails, message, hstop⟩ := hstops
  have hthere : ∀ x ∈ w.targetsOf contents, j.state.tree.find? x.1 ≠ none := by
    intro x hx
    obtain ⟨y, hy, rfl⟩ := List.mem_map.mp hx
    exact ((validateAll_eq_ok.mp hvalid).2 y hy).1
  rcases hreplace : w.replaceAll (w.targetsOf contents) j with ⟨⟨ss, bs, r⟩, j₁⟩
  have hmade : w.backupsMade (w.targetsOf contents) j = bs := by rw [backupsMade, hreplace]
  obtain ⟨cause, rfl⟩ : ∃ cause, r = .error cause := by
    cases r with
    | ok _ => exact absurd (by rw [Replaces, hreplace]) hfails
    | error cause => exact ⟨cause, rfl⟩
  rw [hmade, hreplace] at hstop
  rcases hback : w.rollBack bs.reverse j₁ with ⟨stopped, j₂⟩
  obtain rfl : stopped = .error (.notRestored b.target b.backup message) := by rwa [hback] at hstop
  rcases hremove : w.removeStaged ss j₂ with ⟨removed, j₃⟩
  obtain ⟨before, after, rfl, horder, hstranded, hlast⟩ :=
    undo_strands hdistinct hthere hreplace hback hremove
  have hrun := writeAll_of_valid hvalid
  simp only [commit, Logged.bind_apply, hreplace, undo, hback, Logged.pure_apply, hremove] at hrun
  refine ⟨before, after, hmade, horder, ?_⟩
  cases removed with
  | error e =>
    obtain ⟨hnamed, -⟩ := replaceAll_unwinds hreplace
    obtain ⟨-, -, hbroken⟩ := removeStaged_spec hnamed hremove
    obtain ⟨n, -, s, -, hbad⟩ := hbroken e rfl
    rw [hrun]
    exact ⟨hstranded, hstranded.restores_others_iff hdistinct, e, rfl, .inl ⟨n, s.staged, hbad⟩⟩
  | ok _ =>
    rw [hrun]
    exact ⟨hstranded, hstranded.restores_others_iff hdistinct, _, rfl,
      .inr ⟨⟨message, rfl⟩, hlast rfl⟩⟩

/-- A disk with three texts. -/
def threeTexts : Journal Disk where
  state := { tree := ⟨[(["a"], .file (.text "A")), (["b"], .file (.text "B")),
    (["c"], .file (.text "C"))]⟩ }

/-- A writer that cannot replace `c`, and that cannot restore `b`. -/
def stuckAtB : Writer where
  here := []
  base := []
  hazards :=
    { fails := fun _ step =>
        match step with
        | .replace _ target => if target = ["c"] then some "denied" else none
        | .restore _ target => if target = ["b"] then some "busy" else none
        | _ => none }

/-- The backup of `b`. -/
def backupOfB : Backup := ⟨["b"], ["b.4.bak"]⟩

theorem stuckAtB_stopsRestoring :
    stuckAtB.StopsRestoring [("a", "1"), ("b", "2"), ("c", "3")] threeTexts backupOfB :=
  ⟨by decide +kernel, by unfold Replaces; decide +kernel, "busy", by decide +kernel⟩

/-- The backup of `b`, which cannot be restored, holds its old content. -/
theorem writeAll_keeps_backup_of_stuck :
    stuckAtB.StopsRestoring [("a", "1"), ("b", "2"), ("c", "3")] threeTexts backupOfB ∧
    (stuckAtB.writeAll [("a", "1"), ("b", "2"), ("c", "3")] threeTexts).2.state.tree.find?
      ["b.4.bak"] = some (.file (.text "B")) := by
  obtain ⟨before, after, -, -, hstranded, -⟩ :=
    writeAll_restores_others_iff (by decide +kernel) stuckAtB_stopsRestoring
  exact ⟨stuckAtB_stopsRestoring, hstranded.kept backupOfB (by simp)⟩

/-- The file `a`, which could be restored, keeps its new text, because `b` cannot be restored. -/
theorem writeAll_leaves_first_replaced :
    (∀ n backup, stuckAtB.hazards.fails n (.restore backup ["a"]) = none) ∧
    stuckAtB.StopsRestoring [("a", "1"), ("b", "2"), ("c", "3")] threeTexts backupOfB ∧
    (stuckAtB.writeAll [("a", "1"), ("b", "2"), ("c", "3")] threeTexts).1 =
      .error (.notRestored ["b"] ["b.4.bak"] "busy") ∧
    (stuckAtB.writeAll [("a", "1"), ("b", "2"), ("c", "3")] threeTexts).2.state.tree.find? ["a"] =
      some (.file (.text "1")) :=
  ⟨fun _ _ => rfl, stuckAtB_stopsRestoring, by decide +kernel, by decide +kernel⟩

end Writer

end DocHeader

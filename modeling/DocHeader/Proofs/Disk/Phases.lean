import DocHeader.Proofs.Disk.Steps
import Mathlib.Data.List.Forall2

/-!
# The phases of writing

What is true of the file tree after all targets have been staged, and after they have been
backed up and replaced, wherever either phase stops.

Backups can be unwound: when they are copied back from the last to the first, the tree gets
back what it held, also where two targets are the same file and the later backup holds the
new content of the earlier replacement.

## Main definitions

* `lastText`, `FileTree.overwritten` — what is at a place once all targets are written.
* `Staging`, `Waiting` — the tree after staging.
* `Unwinds` — copying backups back leads from one tree to another.
-/

namespace DocHeader

/-- The places of temporary files. -/
def stagedPlaces (ss : List StagedFile) : List Place := ss.map (·.staged)

/-- The places of backups. -/
def backupPlaces (bs : List Backup) : List Place := bs.map (·.backup)

@[simp] theorem stagedPlaces_cons (s : StagedFile) (ss : List StagedFile) :
    stagedPlaces (s :: ss) = s.staged :: stagedPlaces ss := rfl

theorem mem_stagedPlaces {p : Place} {ss : List StagedFile} :
    p ∈ stagedPlaces ss ↔ ∃ s ∈ ss, s.staged = p := List.mem_map

theorem mem_backupPlaces {p : Place} {bs : List Backup} :
    p ∈ backupPlaces bs ↔ ∃ b ∈ bs, b.backup = p := List.mem_map

/-- The last of the texts that are given for a place. -/
def lastText (p : Place) : List (Place × String) → Option String
  | [] => none
  | (q, text) :: rest =>
    match lastText p rest with
    | some later => some later
    | none => if q = p then some text else none

/-- What is at a place once every target holds its last text. -/
def FileTree.overwritten (t : FileTree) (targets : List (Place × String)) (p : Place) :
    Option Entry :=
  match lastText p targets with
  | some text => some (.file (.text text))
  | none => t.find? p

/-- The temporary files `ss` have been added to the tree `t`, and `t'` has come out. -/
structure Staging (t t' : FileTree) (ss : List StagedFile) : Prop where
  named : ∀ s ∈ ss, s.staged.IsStaging
  fresh : ∀ s ∈ ss, t.find? s.staged = none
  distinct : (stagedPlaces ss).Nodup
  frame : ∀ p ∉ stagedPlaces ss, t'.find? p = t.find? p

/-- The text for each target waits in its temporary file. -/
def Waiting (t : FileTree) (ss : List StagedFile) (targets : List (Place × String)) : Prop :=
  List.Forall₂ (fun s x => s.target = x.1 ∧ t.find? s.staged = some (.file (.text x.2))) ss
    targets

/-- Copying backups back and removing them, in the order of the list, leads from the tree
`t` to one that agrees with `u`, except for the places `ps`. -/
def Unwinds (ps : List Place) : List Backup → FileTree → FileTree → Prop
  | [], t, u => ∀ p ∉ ps, t.find? p = u.find? p
  | b :: rest, t, u =>
    ∃ e, t.find? b.backup = some e ∧ b.backup.IsBackup ∧ b.target ≠ [] ∧
      Unwinds ps rest ((t.put b.target e).remove b.backup) u

/-! ## The last text -/

theorem mem_of_lastText {p : Place} {text : String} {targets : List (Place × String)}
    (h : lastText p targets = some text) : (p, text) ∈ targets := by
  induction targets with
  | nil => cases h
  | cons x rest ih =>
    obtain ⟨q, new⟩ := x
    cases hrest : lastText p rest with
    | some later =>
      simp only [lastText, hrest, Option.some.injEq] at h
      exact List.mem_cons_of_mem _ (ih (h ▸ hrest))
    | none =>
      by_cases hq : q = p
      · simp only [lastText, hrest, hq, if_true, Option.some.injEq] at h
        simp [hq, h]
      · simp [lastText, hrest, hq] at h

theorem lastText_eq_none {p : Place} {targets : List (Place × String)} :
    lastText p targets = none ↔ ∀ x ∈ targets, x.1 ≠ p := by
  induction targets with
  | nil => simp [lastText]
  | cons x rest ih =>
    obtain ⟨q, new⟩ := x
    rw [List.forall_mem_cons, ← ih]
    cases hrest : lastText p rest with
    | some later => simp [lastText, hrest]
    | none => simp [lastText, hrest]

theorem FileTree.overwritten_of_not_target (t : FileTree) {targets : List (Place × String)}
    {p : Place} (h : ∀ x ∈ targets, x.1 ≠ p) : t.overwritten targets p = t.find? p := by
  rw [overwritten, lastText_eq_none.mpr h]

/-! ## Unwinding -/

/-- When the backups `bs` unwind to `u`, one more backup unwinds whatever agrees with `u`. -/
theorem Unwinds.snoc {ps qs : List Place} {bs : List Backup} {b : Backup} {t u v : FileTree}
    (h : Unwinds ps bs t u)
    (hlast : ∀ u', (∀ p ∉ ps, u'.find? p = u.find? p) → Unwinds qs [b] u' v) :
    Unwinds qs (bs ++ [b]) t v := by
  induction bs generalizing t with
  | nil => exact hlast t h
  | cons c rest ih =>
    obtain ⟨e, he, hname, htarget, hrest⟩ := h
    exact ⟨e, he, hname, htarget, ih hrest⟩

/-- The backup of a target takes back whatever has happened to the target alone. -/
theorem unwinds_single {ps : List Place} {b : Backup} {old : Content} {t u : FileTree}
    (hname : b.backup.IsBackup) (hfree : t.find? b.backup = none)
    (htarget : t.find? b.target = some (.file old))
    (hheld : u.find? b.backup = some (.file old))
    (hframe : ∀ p ∉ ps, p ≠ b.target → p ≠ b.backup → u.find? p = t.find? p) :
    Unwinds ps [b] u t := by
  have hroot : b.target ≠ [] := by
    intro heq
    rw [heq] at htarget
    cases htarget
  refine ⟨.file old, hheld, hname, hroot, fun p hp => ?_⟩
  rw [FileTree.find?_remove hname.ne_nil, FileTree.find?_put hroot]
  by_cases hpb : p = b.backup
  · rw [if_pos hpb, hpb, hfree]
  · by_cases hpt : p = b.target
    · rw [if_neg hpb, if_pos hpt, hpt, htarget]
    · rw [if_neg hpb, if_neg hpt, hframe p hp hpt hpb]

theorem Waiting.congr {t t' : FileTree} {ss : List StagedFile}
    {targets : List (Place × String)} (h : Waiting t ss targets)
    (hsame : ∀ s ∈ ss, t'.find? s.staged = t.find? s.staged) : Waiting t' ss targets := by
  induction h with
  | nil => exact .nil
  | cons hhead _ ih =>
    obtain ⟨hs, hrest⟩ := List.forall_mem_cons.mp hsame
    exact .cons ⟨hhead.1, hs.trans hhead.2⟩ (ih hrest)

/-- Overwriting files that are there adds none and takes none away. -/
theorem FileTree.isSome_overwritten {t : FileTree} {targets : List (Place × String)}
    (hexists : ∀ x ∈ targets, t.find? x.1 ≠ none) (p : Place) :
    (t.overwritten targets p).isSome = t.contains p := by
  unfold overwritten
  split
  · rename_i text hlast
    have hthere := hexists _ (mem_of_lastText hlast)
    simp [contains, Option.isSome_iff_ne_none.mpr hthere]
  · rfl

namespace Writer

variable {w : Writer} {j j' : Journal Disk} {ss : List StagedFile}
  {targets : List (Place × String)}

/-! ## Staging -/

/-- Staging adds temporary files where nothing was, wherever it stops. -/
theorem stageAll_spec {r : Except WriteError Unit}
    (h : w.stageAll targets j = ((ss, r), j')) :
    Staging j.state.tree j'.state.tree ss ∧ (r = .ok () → Waiting j'.state.tree ss targets) := by
  have hnil (t t' : FileTree) (ht : ∀ p, t'.find? p = t.find? p) : Staging t t' [] :=
    ⟨by simp, by simp, List.nodup_nil, fun p _ => ht p⟩
  induction targets generalizing j ss with
  | nil =>
    simp only [stageAll, Logged.pure_apply] at h
    cases h
    exact ⟨hnil _ _ fun _ => rfl, fun _ => .nil⟩
  | cons x rest ih =>
    obtain ⟨target, content⟩ := x
    rcases hstage : w.stage target content j with ⟨first, j₁⟩
    simp only [stageAll, Logged.bind_apply, hstage] at h
    rcases stage_cases hstage with ⟨e, rfl, hsame⟩ | ⟨staged, rfl, hnamed, hfree, htree⟩
    · simp only [Logged.pure_apply] at h
      cases h
      exact ⟨hnil _ _ hsame, fun hr => by cases hr⟩
    · rcases hrest : w.stageAll rest j₁ with ⟨⟨others, outcome⟩, j₂⟩
      simp only [Logged.bind_apply, hrest, Logged.pure_apply] at h
      cases h
      obtain ⟨hothers, hwaiting⟩ := ih hrest
      have hfound (p : Place) : j₁.state.tree.find? p =
          if p = staged then some (.file (.text content)) else j.state.tree.find? p := by
        rw [htree, FileTree.find?_put hnamed.ne_nil]
      have hne : ∀ s ∈ others, s.staged ≠ staged := by
        intro s hs heq
        have := hothers.fresh s hs
        simp [hfound, heq] at this
      have hnew : staged ∉ stagedPlaces others := by
        rw [mem_stagedPlaces]
        rintro ⟨s, hs, heq⟩
        exact hne s hs heq
      refine ⟨⟨?_, ?_, ?_, ?_⟩, ?_⟩
      · exact List.forall_mem_cons.mpr ⟨hnamed, hothers.named⟩
      · refine List.forall_mem_cons.mpr ⟨hfree, fun s hs => ?_⟩
        have := hothers.fresh s hs
        rwa [hfound, if_neg (hne s hs)] at this
      · exact List.nodup_cons.mpr ⟨hnew, hothers.distinct⟩
      · intro p hp
        rw [hothers.frame p (List.not_mem_of_not_mem_cons hp), hfound,
          if_neg (List.ne_of_not_mem_cons hp)]
      · intro hr
        refine .cons ⟨rfl, ?_⟩ (hwaiting hr)
        rw [hothers.frame staged hnew, hfound, if_pos rfl]

/-! ## Replacing -/

/-- The tree after a target was backed up and replaced. -/
theorem find?_replaced {s : StagedFile} {backup p : Place} {old new : Content} {t : FileTree}
    (hbackup : backup.IsBackup) (hstaged : s.staged.IsStaging)
    (htarget : t.find? s.target = some (.file old)) :
    (((t.put backup (.file old)).put s.target (.file new)).remove s.staged).find? p =
      if p = s.staged then none else if p = s.target then some (.file new) else
        if p = backup then some (.file old) else t.find? p := by
  have hroot : s.target ≠ [] := by
    intro heq
    rw [heq] at htarget
    cases htarget
  rw [FileTree.find?_remove hstaged.ne_nil, FileTree.find?_put hroot,
    FileTree.find?_put hbackup.ne_nil]

/-- Wherever replacing stops, the backups made so far unwind it. -/
theorem commitAll_unwinds {bs : List Backup} {r : Except WriteError Unit}
    (hnamed : ∀ s ∈ ss, s.staged.IsStaging) (h : w.commitAll ss j = ((bs, r), j')) :
    Unwinds (stagedPlaces ss) bs.reverse j'.state.tree j.state.tree := by
  induction ss generalizing j bs with
  | nil =>
    simp only [commitAll, Logged.pure_apply] at h
    cases h
    exact fun _ _ => rfl
  | cons s rest ih =>
    obtain ⟨hstaged, hnamed⟩ := List.forall_mem_cons.mp hnamed
    rcases hback : w.backUp s.target j with ⟨first, j₁⟩
    simp only [commitAll, Logged.bind_apply, hback] at h
    rcases backUp_cases hback with ⟨e, rfl, hsame⟩ |
      ⟨backup, old, rfl, hbackup, hfree, htarget, htree⟩
    · simp only [Logged.pure_apply] at h
      cases h
      intro p _
      rw [hsame]
    · rcases hreplace : w.replace s j₁ with ⟨second, j₂⟩
      simp only [Logged.bind_apply, hreplace] at h
      have hne : backup ≠ s.target := by
        rintro rfl
        rw [hfree] at htarget
        cases htarget
      rcases replace_cases hreplace with ⟨e, rfl, hsame⟩ | ⟨new, rfl, -, htree'⟩
      · simp only [Logged.pure_apply] at h
        cases h
        -- the target was backed up and not replaced
        have hfound (p : Place) : j'.state.tree.find? p =
            if p = backup then some (.file old) else j.state.tree.find? p := by
          rw [hsame, htree, FileTree.find?_put hbackup.ne_nil]
        refine unwinds_single hbackup hfree htarget ?_ fun p _ _ hpb => ?_
        · rw [hfound, if_pos rfl]
        · rw [hfound, if_neg hpb]
      · rcases hrest : w.commitAll rest j₂ with ⟨⟨others, outcome⟩, j₃⟩
        simp only [Logged.bind_apply, hrest, Logged.pure_apply] at h
        cases h
        have hfound (p : Place) : j₂.state.tree.find? p =
            if p = s.staged then none else if p = s.target then some (.file new) else
              if p = backup then some (.file old) else j.state.tree.find? p := by
          rw [htree', htree, find?_replaced hbackup hstaged htarget]
        have hout : backup ∉ stagedPlaces rest := by
          intro hmem
          obtain ⟨s', hs', heq⟩ := mem_stagedPlaces.mp hmem
          exact hbackup.ne_staging (hnamed s' hs') heq.symm
        rw [List.reverse_cons]
        -- later targets are unwound first; after that the first backup holds what it held
        refine (ih hnamed hrest).snoc fun u hu => ?_
        refine unwinds_single hbackup hfree htarget ?_ fun p hp hpt hpb => ?_
        · rw [hu backup hout, hfound, if_neg (hbackup.ne_staging hstaged), if_neg hne,
            if_pos rfl]
        · rw [hu p (List.not_mem_of_not_mem_cons hp), hfound,
            if_neg (List.ne_of_not_mem_cons hp), if_neg hpt, if_neg hpb]

/-- When a target is backed up and replaced, its text moves from the temporary file to it,
and the texts of the other targets keep waiting. -/
theorem replaced_of_waiting {s : StagedFile} {text : String} {b : Backup} {j₁ : Journal Disk}
    (hnamed : ∀ s' ∈ s :: ss, s'.staged.IsStaging) (hdistinct : (stagedPlaces (s :: ss)).Nodup)
    (hapart : ∀ s' ∈ s :: ss, s'.staged ≠ s.target)
    (hwaiting : Waiting j.state.tree (s :: ss) ((s.target, text) :: targets))
    (hback : w.backUp s.target j = (.ok b, j₁)) (hreplace : w.replace s j₁ = (.ok (), j')) :
    b.backup.IsBackup ∧ j.state.tree.find? b.backup = none ∧
    (∃ old : Content, j.state.tree.find? s.target = some (.file old) ∧
      ∀ p, j'.state.tree.find? p =
        if p = s.staged then none else if p = s.target then some (.file (.text text)) else
          if p = b.backup then some (.file old) else j.state.tree.find? p) ∧
    Waiting j'.state.tree ss targets := by
  obtain ⟨hstaged, hnamed⟩ := List.forall_mem_cons.mp hnamed
  obtain ⟨hnew, -⟩ := List.nodup_cons.mp hdistinct
  cases hwaiting with
  | cons hhead hwaiting =>
  rcases backUp_cases hback with ⟨e, he, -⟩ |
    ⟨backup, old, hb, hbackup, hfree, htarget, htree⟩
  · cases he
  cases hb
  rcases replace_cases hreplace with ⟨e, he, -⟩ | ⟨new, -, hmoved, htree'⟩
  · cases he
  rw [htree, FileTree.find?_put hbackup.ne_nil, if_neg (hbackup.ne_staging hstaged).symm,
    hhead.2] at hmoved
  cases hmoved
  have hfound (p : Place) : j'.state.tree.find? p =
      if p = s.staged then none else if p = s.target then some (.file (.text text)) else
        if p = backup then some (.file old) else j.state.tree.find? p := by
    rw [htree', htree, find?_replaced hbackup hstaged htarget]
  refine ⟨hbackup, hfree, ⟨old, htarget, hfound⟩, Waiting.congr hwaiting fun s' hs' => ?_⟩
  have hother : s'.staged ≠ s.staged := by
    intro heq
    exact hnew (mem_stagedPlaces.mpr ⟨s', hs', heq⟩)
  rw [hfound, if_neg hother, if_neg (hapart s' (List.mem_cons_of_mem s hs')),
    if_neg (hbackup.ne_staging (hnamed s' hs')).symm]

/-- When all targets were replaced, each of them holds its last text, the temporary files
are gone, and only backups have been added. -/
theorem commitAll_replaced {bs : List Backup} (hnamed : ∀ s ∈ ss, s.staged.IsStaging)
    (hdistinct : (stagedPlaces ss).Nodup)
    (hapart : ∀ s ∈ ss, ∀ x ∈ targets, s.staged ≠ x.1)
    (hwaiting : Waiting j.state.tree ss targets)
    (h : w.commitAll ss j = ((bs, .ok ()), j')) :
    (∀ b ∈ bs, b.backup.IsBackup ∧ j.state.tree.find? b.backup = none) ∧
    ∀ p ∉ backupPlaces bs, j'.state.tree.find? p =
      if p ∈ stagedPlaces ss then none else j.state.tree.overwritten targets p := by
  induction ss generalizing j bs targets with
  | nil =>
    cases hwaiting
    simp only [commitAll, Logged.pure_apply] at h
    cases h
    simp [stagedPlaces, FileTree.overwritten, lastText]
  | cons s rest ih =>
    cases targets with
    | nil => cases hwaiting
    | cons x later =>
    obtain ⟨target, text⟩ := x
    obtain rfl : s.target = target := by
      cases hwaiting with
      | cons hhead _ => exact hhead.1
    rcases hback : w.backUp s.target j with ⟨_ | b, j₁⟩
    · simp only [commitAll, Logged.bind_apply, hback, Logged.pure_apply] at h
      cases h
    rcases hreplace : w.replace s j₁ with ⟨_ | _, j₂⟩
    · simp only [commitAll, Logged.bind_apply, hback, hreplace, Logged.pure_apply] at h
      cases h
    rcases hrest : w.commitAll rest j₂ with ⟨⟨others, outcome⟩, j₃⟩
    simp only [commitAll, Logged.bind_apply, hback, hreplace, hrest, Logged.pure_apply] at h
    cases h
    obtain ⟨hbackup, hfree, ⟨old, -, hfound⟩, hwaiting'⟩ := replaced_of_waiting hnamed hdistinct
      (fun s' hs' => hapart s' hs' _ List.mem_cons_self) hwaiting hback hreplace
    obtain ⟨hstaged, hnamed⟩ := List.forall_mem_cons.mp hnamed
    obtain ⟨hnew, hdistinct⟩ := List.nodup_cons.mp hdistinct
    obtain ⟨hbackups, hfinal⟩ := ih hnamed hdistinct
      (fun s' hs' x hx => hapart s' (List.mem_cons_of_mem s hs') x (List.mem_cons_of_mem _ hx))
      hwaiting' hrest
    constructor
    · refine List.forall_mem_cons.mpr ⟨⟨hbackup, hfree⟩, fun b' hb' => ?_⟩
      obtain ⟨hname, hnone⟩ := hbackups b' hb'
      rw [hfound, if_neg (hname.ne_staging hstaged)] at hnone
      split at hnone
      · cases hnone
      · split at hnone
        · cases hnone
        · exact ⟨hname, hnone⟩
    · intro p hp
      rw [hfinal p (List.not_mem_of_not_mem_cons hp)]
      have hpb : p ≠ b.backup := List.ne_of_not_mem_cons hp
      by_cases hps : p = s.staged
      · have hother : ∀ x ∈ later, x.1 ≠ p := by
          intro x hx
          rw [hps]
          exact (hapart s List.mem_cons_self x (List.mem_cons_of_mem _ hx)).symm
        have hnone : j₂.state.tree.overwritten later p = none := by
          rw [FileTree.overwritten_of_not_target _ hother, hfound, if_pos hps]
        rw [hnone, ite_self, stagedPlaces_cons, if_pos (List.mem_cons.mpr (.inl hps))]
      · have hover : j₂.state.tree.overwritten later p =
            j.state.tree.overwritten ((s.target, text) :: later) p := by
          cases hlast : lastText p later with
          | some last => simp only [FileTree.overwritten, lastText, hlast]
          | none =>
            simp only [FileTree.overwritten, lastText, hlast, hfound, if_neg hps,
              if_neg hpb]
            by_cases hpt : p = s.target
            · simp [hpt]
            · simp [hpt, Ne.symm hpt]
        simp only [hover, stagedPlaces_cons, List.mem_cons, hps, false_or]

end Writer

end DocHeader

import DocHeader.Proofs.Disk.AllOrNothing

/-!
# Writing on a calm disk

Where there is room, staged contents arrive and fresh names are free, only a step that
fails can keep files from being replaced. Where no step fails either, writing succeeds.

The names stay free while writing goes on, because stamps are used once and a stamp can be
read off the name that was made with it.

## Main definitions

* `Hazards.Calm` — nothing but a failing step can go wrong from some state of the disk on.
* `Hazards.Undisturbed` — nothing can go wrong.
* `Hazards.HasFailed` — a step has failed already.
-/

namespace DocHeader

/-- From the state `d` of the disk on nothing goes wrong but steps that fail: there is
room, what is staged arrives, and no name of a temporary file or a backup is taken. -/
structure Hazards.Calm (h : Hazards) (d : Disk) : Prop where
  room : h.freeSpace = none
  arrives : ∀ content, h.arriving content = content
  /-- No stamp has a dot, and each of them is new. -/
  plain : ∀ n ≥ d.stamps, '.' ∉ (h.stamp n).toList
  distinct : ∀ m ≥ d.stamps, ∀ n > m, h.stamp m ≠ h.stamp n
  free : ∀ n ≥ d.stamps, ∀ target,
    d.tree.find? (Writer.stagingPlace target (h.stamp n)) = none ∧
      d.tree.find? (Writer.backupPlace target (h.stamp n)) = none

/-- From the state `d` of the disk on nothing goes wrong, and no step fails. -/
structure Hazards.Undisturbed (h : Hazards) (d : Disk) : Prop extends Hazards.Calm h d where
  steady : ∀ n step, h.fails n step = none

/-- One of the steps tried so far fails. -/
def Hazards.HasFailed (h : Hazards) (d : Disk) : Prop :=
  ∃ n < d.steps, ∃ step, h.fails n step ≠ none

/-! ## Names -/

/-- A stamp without dots can be read off a name: it is what stands between the last two
dots. -/
theorem stamp_eq_of_name_eq {a b s s' suffix : String} (hs : '.' ∉ s.toList)
    (hs' : '.' ∉ s'.toList) (h : a ++ "." ++ s ++ suffix = b ++ "." ++ s' ++ suffix) :
    s = s' := by
  have hread (before stamp : List Char) (hstamp : '.' ∉ stamp) :
      (stamp.reverse ++ '.' :: before).takeWhile (· != '.') = stamp.reverse := by
    rw [List.takeWhile_append_of_pos]
    · simp
    · intro c hc
      rw [bne_iff_ne]
      rintro rfl
      exact hstamp (List.mem_reverse.mp hc)
  have hcut := congrArg String.toList h
  simp only [String.toList_append, List.append_cancel_right_eq] at hcut
  have hstamp := congrArg (fun name : List Char => name.reverse.takeWhile (· != '.')) hcut
  simp only [List.reverse_append, String.reduceToList,
    List.reverse_singleton, List.singleton_append, hread _ _ hs, hread _ _ hs',
    List.reverse_inj] at hstamp
  exact String.toList_inj.mp hstamp

theorem stamp_eq_of_stagingPlace_eq {p q : Place} {s s' : String} (hs : '.' ∉ s.toList)
    (hs' : '.' ∉ s'.toList) (h : Writer.stagingPlace p s = Writer.stagingPlace q s') :
    s = s' :=
  stamp_eq_of_name_eq hs hs' (Place.name_eq_of_sibling_eq h)

theorem stamp_eq_of_backupPlace_eq {p q : Place} {s s' : String} (hs : '.' ∉ s.toList)
    (hs' : '.' ∉ s'.toList) (h : Writer.backupPlace p s = Writer.backupPlace q s') :
    s = s' :=
  stamp_eq_of_name_eq hs hs' (Place.name_eq_of_sibling_eq h)

/-- No temporary files and no backups are in a tree in which no name ends as theirs do. -/
theorem FileTree.clean_of_names {t : FileTree}
    (hnames : ∀ e ∈ t.entries, e.1.name.toList.getLast? ≠ some 'p' ∧
      e.1.name.toList.getLast? ≠ some 'k')
    (p : Place) (hp : t.find? p ≠ none) : ¬p.IsStaging ∧ ¬p.IsBackup := by
  cases p with
  | nil => exact ⟨fun h => h.ne_nil rfl, fun h => h.ne_nil rfl⟩
  | cons part parts =>
    have hkey : ¬∀ e ∈ t.entries, e.1 ≠ part :: parts := mt Association.get?_eq_none.mpr hp
    simp only [not_forall, exists_prop, not_not] at hkey
    obtain ⟨e, he, hplace⟩ := hkey
    obtain ⟨hstaging, hbackup⟩ := hnames e he
    rw [hplace] at hstaging hbackup
    exact ⟨fun h => hstaging h.name_end, fun h => hbackup h.name_end⟩

namespace Hazards

variable {h : Hazards} {d d' : Disk}

/-- A tree to which nothing was added but under names with used stamps is as good. -/
theorem Calm.next (hd : h.Calm d) (hle : d.stamps ≤ d'.stamps)
    (hadded : ∀ p, d'.tree.find? p ≠ none → d.tree.find? p = none →
      ∃ n ≥ d.stamps, n < d'.stamps ∧ ∃ target,
        p = Writer.stagingPlace target (h.stamp n) ∨ p = Writer.backupPlace target (h.stamp n)) :
    h.Calm d' where
  room := hd.room
  arrives := hd.arrives
  plain n hn := hd.plain n (Nat.le_trans hle hn)
  distinct m hm n hn := hd.distinct m (Nat.le_trans hle hm) n hn
  free n hn target := by
    have hn' : n ≥ d.stamps := Nat.le_trans hle hn
    obtain ⟨hstaging, hbackup⟩ := hd.free n hn' target
    constructor
    · by_contra hthere
      obtain ⟨m, hm, hlt, target', heq | heq⟩ := hadded _ hthere hstaging
      · exact hd.distinct m hm n (by omega)
          (stamp_eq_of_stagingPlace_eq (hd.plain n hn') (hd.plain m hm) heq).symm
      · exact Place.IsBackup.ne_staging ⟨_, _, rfl⟩ ⟨_, _, rfl⟩ heq.symm
    · by_contra hthere
      obtain ⟨m, hm, hlt, target', heq | heq⟩ := hadded _ hthere hbackup
      · exact Place.IsBackup.ne_staging ⟨_, _, rfl⟩ ⟨_, _, rfl⟩ heq
      · exact hd.distinct m hm n (by omega)
          (stamp_eq_of_backupPlace_eq (hd.plain n hn') (hd.plain m hm) heq).symm

/-- Nothing that is assumed when no hazards are given goes wrong, on a disk that has no
temporary files and no backups. -/
theorem Undisturbed.of_clean (hclean : ∀ p, d.tree.find? p ≠ none → ¬p.IsStaging ∧ ¬p.IsBackup) :
    ({} : Hazards).Undisturbed d where
  room := rfl
  arrives _ := rfl
  steady _ _ := rfl
  plain n _ hdot := by
    have hdigit : Char.isDigit '.' = true :=
      @Nat.isDigit_of_mem_toDigits 10 n '.' (by decide) (by decide) (by simpa using hdot)
    cases hdigit
  distinct m _ n hlt hsame := by
    have hdigits : Nat.toDigits 10 m = Nat.toDigits 10 n := by
      simpa using congrArg String.toList hsame
    have hequal : m = n := by
      calc m = Nat.ofDigitChars 10 (Nat.toDigits 10 m) 0 := by simp
        _ = Nat.ofDigitChars 10 (Nat.toDigits 10 n) 0 := by rw [hdigits]
        _ = n := by simp
    omega
  free n _ target := by
    constructor
    · by_contra hthere
      exact (hclean _ hthere).1 ⟨_, _, rfl⟩
    · by_contra hthere
      exact (hclean _ hthere).2 ⟨_, _, rfl⟩

theorem HasFailed.of_fails {n : Nat} {step : WriteStep} {message : String} (hn : n < d.steps)
    (hfails : h.fails n step = some message) : h.HasFailed d :=
  ⟨n, hn, step, by simp [hfails]⟩

theorem Undisturbed.not_hasFailed (hd : h.Undisturbed d) : ¬h.HasFailed d' := by
  rintro ⟨n, -, step, hfail⟩
  exact hfail (hd.steady n step)

end Hazards

namespace Writer

variable {w : Writer} {j j' : Journal Disk} {ss : List StagedFile}
  {targets : List (Place × String)}

/-! ## Steps -/

/-- Staging keeps the disk calm, unless the step fails. -/
theorem stage_of_calm (hj : w.hazards.Calm j.state) (target : Place) (content : String) :
    (∃ staged j', w.stage target content j = (.ok staged, j') ∧ w.hazards.Calm j'.state) ∨
    ∃ e j', w.stage target content j = (.error e, j') ∧ w.hazards.HasFailed j'.state := by
  have hspace : w.checkSpace target content = .ok () := by simp [checkSpace, hj.room]
  have hfree := (hj.free j.state.stamps (Nat.le_refl _) target).1
  have hname : (stagingPlace target (w.hazards.stamp j.state.stamps)).IsStaging := ⟨_, _, rfl⟩
  simp only [stage, hspace, Disk.nextStamp_bind, stageAt, Disk.currentTree_bind,
    FileTree.contains_eq_false.mpr hfree, Bool.false_eq_true, if_false, Disk.tryStep_bind]
  cases hfails : w.hazards.fails j.state.steps
      (.stage (stagingPlace target (w.hazards.stamp j.state.stamps))) with
  | some message =>
    simp only [Logged.pure_apply]
    exact .inr ⟨_, _, rfl, .of_fails (Nat.lt_succ_self _) hfails⟩
  | none =>
    simp only [Disk.change_bind, hj.arrives, beq_self_eq_true, if_true, Logged.pure_apply]
    refine .inl ⟨_, _, rfl, hj.next (Nat.le_succ _) fun p hp hnone => ?_⟩
    rw [FileTree.changed, FileTree.find?_put hname.ne_nil] at hp
    by_cases heq : p = stagingPlace target (w.hazards.stamp j.state.stamps)
    · exact ⟨_, Nat.le_refl _, Nat.lt_succ_self _, target, .inl heq⟩
    · rw [if_neg heq] at hp
      exact absurd hnone hp

/-- Backing up a file keeps the disk calm and what is on it, unless a step fails. -/
theorem backUp_of_calm (hj : w.hazards.Calm j.state) {target : Place} {content : Content}
    (htarget : j.state.tree.find? target = some (.file content)) :
    (∃ b j', w.backUp target j = (.ok b, j') ∧ w.hazards.Calm j'.state ∧
      ∀ p, j.state.tree.find? p ≠ none → j'.state.tree.find? p = j.state.tree.find? p) ∨
    ∃ e j', w.backUp target j = (.error e, j') ∧ w.hazards.HasFailed j'.state := by
  have hfree := (hj.free j.state.stamps (Nat.le_refl _) target).2
  have hname : (backupPlace target (w.hazards.stamp j.state.stamps)).IsBackup := ⟨_, _, rfl⟩
  simp only [backUp, Disk.tryStep_bind]
  cases hnaming : w.hazards.fails j.state.steps (.nameBackup target) with
  | some message =>
    simp only [Logged.pure_apply]
    exact .inr ⟨_, _, rfl, .of_fails (Nat.lt_succ_self _) hnaming⟩
  | none =>
    simp only [Disk.nextStamp_bind, backUpAt, Disk.currentTree_bind,
      FileTree.contains_eq_false.mpr hfree, Bool.false_eq_true, if_false, Disk.tryStep_bind]
    cases hcopying : w.hazards.fails (j.state.steps + 1)
        (.copyBackup target (backupPlace target (w.hazards.stamp j.state.stamps))) with
    | some message =>
      simp only [Logged.pure_apply]
      exact .inr ⟨_, _, rfl, .of_fails (Nat.lt_succ_self _) hcopying⟩
    | none =>
      simp only [FileTree.content?_eq_some.mpr htarget, Disk.change_bind, Logged.pure_apply]
      refine .inl ⟨_, _, rfl, hj.next (Nat.le_succ _) fun p hp hnone => ?_, fun p hp => ?_⟩
      · rw [FileTree.changed, FileTree.find?_put hname.ne_nil] at hp
        by_cases heq : p = backupPlace target (w.hazards.stamp j.state.stamps)
        · exact ⟨_, Nat.le_refl _, Nat.lt_succ_self _, target, .inr heq⟩
        · rw [if_neg heq] at hp
          exact absurd hnone hp
      · rw [FileTree.changed, FileTree.find?_put hname.ne_nil, if_neg]
        rintro rfl
        exact hp hfree

/-- Replacing a file keeps the disk calm, unless the step fails. -/
theorem replace_of_calm (hj : w.hazards.Calm j.state) {s : StagedFile} {old new : Content}
    (hname : s.staged.IsStaging) (htarget : j.state.tree.find? s.target = some (.file old))
    (hstaged : j.state.tree.find? s.staged = some (.file new)) :
    (∃ j', w.replace s j = (.ok (), j') ∧ w.hazards.Calm j'.state) ∨
    ∃ e j', w.replace s j = (.error e, j') ∧ w.hazards.HasFailed j'.state := by
  have hroot : s.target ≠ [] := by
    intro heq
    rw [heq] at htarget
    cases htarget
  simp only [replace, Disk.tryStep_bind]
  cases hfails : w.hazards.fails j.state.steps (.replace s.staged s.target) with
  | some message =>
    simp only [Logged.pure_apply]
    exact .inr ⟨_, _, rfl, .of_fails (Nat.lt_succ_self _) hfails⟩
  | none =>
    simp only [Disk.currentTree_bind, FileTree.content?_eq_some.mpr hstaged, Disk.change_bind,
      Logged.pure_apply]
    refine .inl ⟨_, rfl, hj.next (Nat.le_refl _) fun p hp hnone => ?_⟩
    rw [FileTree.changed, FileTree.changed, FileTree.find?_remove hname.ne_nil,
      FileTree.find?_put hroot] at hp
    split at hp
    · exact absurd rfl hp
    · split at hp
      · rename_i heq
        rw [heq, htarget] at hnone
        cases hnone
      · exact absurd hnone hp

/-! ## Phases -/

theorem stageAll_of_calm (hj : w.hazards.Calm j.state) (targets : List (Place × String)) :
    (∃ ss j', w.stageAll targets j = ((ss, .ok ()), j') ∧ w.hazards.Calm j'.state) ∨
    ∃ ss e j', w.stageAll targets j = ((ss, .error e), j') ∧ w.hazards.HasFailed j'.state := by
  induction targets generalizing j with
  | nil => exact .inl ⟨[], j, rfl, hj⟩
  | cons x rest ih =>
    obtain ⟨target, content⟩ := x
    rcases stage_of_calm hj target content with ⟨staged, j₁, hstage, hj₁⟩ | ⟨e, j₁, hstage, hfail⟩
    · rcases ih hj₁ with ⟨others, j₂, hrest, hj₂⟩ | ⟨others, e, j₂, hrest, hfail⟩
      · refine .inl ⟨⟨target, staged⟩ :: others, j₂, ?_, hj₂⟩
        simp only [stageAll, Logged.bind_apply, hstage, hrest, Logged.pure_apply]
      · refine .inr ⟨⟨target, staged⟩ :: others, e, j₂, ?_, hfail⟩
        simp only [stageAll, Logged.bind_apply, hstage, hrest, Logged.pure_apply]
    · refine .inr ⟨[], e, j₁, ?_, hfail⟩
      simp only [stageAll, Logged.bind_apply, hstage, Logged.pure_apply]

theorem commitAll_of_calm (hj : w.hazards.Calm j.state)
    (hnamed : ∀ s ∈ ss, s.staged.IsStaging) (hdistinct : (stagedPlaces ss).Nodup)
    (hapart : ∀ s ∈ ss, ∀ x ∈ targets, s.staged ≠ x.1)
    (hfiles : ∀ x ∈ targets, ∃ content, j.state.tree.find? x.1 = some (.file content))
    (hwaiting : Waiting j.state.tree ss targets) :
    (∃ bs j', w.commitAll ss j = ((bs, .ok ()), j')) ∨
    ∃ bs e j', w.commitAll ss j = ((bs, .error e), j') ∧ w.hazards.HasFailed j'.state := by
  induction ss generalizing j targets with
  | nil => exact .inl ⟨[], j, rfl⟩
  | cons s rest ih =>
    cases targets with
    | nil => cases hwaiting
    | cons x later =>
    obtain ⟨target, text⟩ := x
    obtain ⟨rfl, hheld⟩ : s.target = target ∧
        j.state.tree.find? s.staged = some (.file (.text text)) := by
      cases hwaiting with
      | cons hhead _ => exact hhead
    obtain ⟨⟨content, htarget⟩, hlater⟩ := List.forall_mem_cons.mp hfiles
    rcases backUp_of_calm hj htarget with ⟨b, j₁, hback, hj₁, hstill⟩ | ⟨e, j₁, hback, hfail⟩
    case inr =>
      refine .inr ⟨[], e, j₁, ?_, hfail⟩
      simp only [commitAll, Logged.bind_apply, hback, Logged.pure_apply]
    have htarget' : j₁.state.tree.find? s.target = some (.file content) := by
      rw [hstill _ (by simp [htarget]), htarget]
    have hheld' : j₁.state.tree.find? s.staged = some (.file (.text text)) := by
      rw [hstill _ (by simp [hheld]), hheld]
    rcases replace_of_calm hj₁ (hnamed s List.mem_cons_self) htarget' hheld' with
      ⟨j₂, hreplace, hj₂⟩ | ⟨e, j₂, hreplace, hfail⟩
    case inr =>
      refine .inr ⟨[b], e, j₂, ?_, hfail⟩
      simp only [commitAll, Logged.bind_apply, hback, hreplace, Logged.pure_apply]
    obtain ⟨-, hfree, ⟨old, -, hfound⟩, hwaiting'⟩ := replaced_of_waiting hnamed hdistinct
      (fun s' hs' => hapart s' hs' _ List.mem_cons_self) hwaiting hback hreplace
    have hfiles' : ∀ x ∈ later, ∃ content, j₂.state.tree.find? x.1 = some (.file content) := by
      intro x hx
      obtain ⟨kept, hkept⟩ := hlater x hx
      rw [hfound, if_neg (hapart s List.mem_cons_self x (List.mem_cons_of_mem _ hx)).symm]
      split
      · exact ⟨_, rfl⟩
      · split
        · exact ⟨_, rfl⟩
        · exact ⟨kept, hkept⟩
    rcases ih hj₂ (List.forall_mem_cons.mp hnamed).2 (List.nodup_cons.mp hdistinct).2
        (fun s' hs' x hx => hapart s' (List.mem_cons_of_mem s hs') x (List.mem_cons_of_mem _ hx))
        hfiles' hwaiting' with ⟨bs, j₃, hrest⟩ | ⟨bs, e, j₃, hrest, hfail⟩
    · refine .inl ⟨b :: bs, j₃, ?_⟩
      simp only [commitAll, Logged.bind_apply, hback, hreplace, hrest, Logged.pure_apply]
    · refine .inr ⟨b :: bs, e, j₃, ?_, hfail⟩
      simp only [commitAll, Logged.bind_apply, hback, hreplace, hrest, Logged.pure_apply]

/-- On a calm disk only a failing step keeps files from being replaced. -/
theorem replaceAll_of_calm (hj : w.hazards.Calm j.state)
    (hfiles : ∀ x ∈ targets, ∃ content, j.state.tree.find? x.1 = some (.file content)) :
    w.Replaces targets j ∨ w.hazards.HasFailed (w.replaceAll targets j).2.state := by
  rcases stageAll_of_calm hj targets with ⟨ss, j₁, hstage, hj₁⟩ | ⟨ss, e, j₁, hstage, hfail⟩
  case inr =>
    simp only [replaceAll, Logged.bind_apply, hstage, Logged.pure_apply]
    exact .inr hfail
  obtain ⟨hstaging, hwaiting⟩ := stageAll_spec hstage
  have hapart : ∀ s ∈ ss, ∀ x ∈ targets, s.staged ≠ x.1 := by
    intro s hs x hx heq
    obtain ⟨content, hcontent⟩ := hfiles x hx
    have hnone := hstaging.fresh s hs
    rw [heq, hcontent] at hnone
    cases hnone
  have hfiles' : ∀ x ∈ targets, ∃ content, j₁.state.tree.find? x.1 = some (.file content) := by
    intro x hx
    rw [hstaging.frame]
    · exact hfiles x hx
    · rw [mem_stagedPlaces]
      rintro ⟨s, hs, heq⟩
      exact hapart s hs x hx heq
  rcases commitAll_of_calm hj₁ hstaging.named hstaging.distinct hapart hfiles' (hwaiting rfl) with
    ⟨bs, j₂, hcommit⟩ | ⟨bs, e, j₂, hcommit, hfail⟩
  · left
    simp only [Replaces, replaceAll, Logged.bind_apply, hstage, hcommit, Logged.pure_apply]
  · right
    simp only [replaceAll, Logged.bind_apply, hstage, hcommit, Logged.pure_apply]
    exact hfail

/-- Where nothing goes wrong, writing files gives each of them its last text and changes
nothing else. -/
theorem commit_of_undisturbed (hj : w.hazards.Undisturbed j.state)
    (hfiles : ∀ x ∈ targets, ∃ content, j.state.tree.find? x.1 = some (.file content)) :
    ∃ j', w.commit targets j = (.ok (), j') ∧
      ∀ p, j'.state.tree.find? p = j.state.tree.overwritten targets p := by
  have hexists : ∀ x ∈ targets, j.state.tree.find? x.1 ≠ none := by
    intro x hx
    obtain ⟨content, hcontent⟩ := hfiles x hx
    simp [hcontent]
  exact commit_ok_of_replaces hexists (fun n backup => hj.steady n (.removeBackup backup))
    ((replaceAll_of_calm hj.toCalm hfiles).resolve_right hj.not_hasFailed)

end Writer

end DocHeader

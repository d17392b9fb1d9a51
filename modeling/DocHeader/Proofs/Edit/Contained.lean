import DocHeader.Proofs.Disk.Confined
import DocHeader.Proofs.Edit.Applied

/-!
# Nothing is written outside the base directory

Whatever calls a writer gets, one after the other, and whatever the paths of these calls are
resolved to, links included, the disk changes below the base directory only: the targets do,
and with them the temporary files and backups that were ever made. A call that is to write
somewhere else, or where nothing is, does nothing at all.

## Main definitions

* `FileCall` — a call that reads or writes files.
* `FileCalls` — calls one after the other.
-/

namespace DocHeader

/-- A call that reads or writes files. -/
inductive FileCall where
  | read (path : String)
  | write (path content : String)
  | writeAll (contents : List (String × String))
  | insert (path : String) (offset : Int) (text : String)
  | apply (batch : EditBatch)

namespace FileCall

/-- The paths that a call names. -/
def paths : FileCall → List String
  | read path => [path]
  | write path _ => [path]
  | writeAll contents => contents.map (·.1)
  | insert path _ _ => [path]
  | apply batch => batch.map (·.file)

/-- What a call leaves behind. -/
def after [Resolution] (w : Writer) (j : Journal Disk) : FileCall → Journal Disk
  | read path => (w.read path j).2
  | write path content => (w.write path content j).2
  | writeAll contents => (w.writeAll contents j).2
  | insert path offset text => (insertInto w path offset text j).2
  | apply batch => (batch.apply w j).2

end FileCall

/-- Calls one after the other lead from one disk to another. None of them names a directory.
Where paths lead may be different for each call, as links come and go. -/
inductive FileCalls (w : Writer) : Journal Disk → List FileCall → Journal Disk → Prop where
  | nil (j : Journal Disk) : FileCalls w j [] j
  | cons {j j' : Journal Disk} {calls : List FileCall} (links : Resolution) (call : FileCall)
      (hpaths : ∀ path ∈ call.paths, j.state.tree.find? (w.placeOf path) ≠ some .directory)
      (rest : FileCalls w (call.after w j) calls j') : FileCalls w j (call :: calls) j'

variable {w : Writer} {j j' : Journal Disk}

/-! ## One call -/

namespace Writer

variable [Resolution]

/-- Reading leaves everything as it was. -/
theorem read_cases (path : String) :
    (∃ e, w.read path j = (.error e, j)) ∨ ∃ text, w.read path j = (.ok text, j) := by
  rw [read, Disk.currentTree_bind]
  cases w.validate j.state.tree path with
  | error e => exact .inl ⟨e, rfl⟩
  | ok place =>
    dsimp only
    cases j.state.tree.readAt place with
    | error e => exact .inl ⟨_, rfl⟩
    | ok text => exact .inr ⟨text, rfl⟩

/-- Contents that are accepted have targets below the base directory, when that is no file
and no path leads to a directory. -/
theorem isBelow_of_validateAll {t : FileTree} {contents : List (String × String)}
    {targets : List (Place × String)} (hbase : t.content? w.base = none)
    (hpaths : ∀ x ∈ contents, t.find? (w.placeOf x.1) ≠ some .directory)
    (h : w.validateAll t contents = .ok targets) : ∀ x ∈ targets, x.1.IsBelow w.base := by
  obtain ⟨rfl, hvalid⟩ := validateAll_eq_ok.mp h
  simp only [targetsOf, List.forall_mem_map]
  intro x hx
  obtain ⟨hthere, hwithin⟩ := hvalid x hx
  refine ⟨Place.isWithin_iff.mp hwithin, fun heq => ?_⟩
  -- the base directory is there, and neither a file nor a directory
  cases hfound : t.find? (w.placeOf x.1) with
  | none => exact hthere hfound
  | some entry =>
    cases entry with
    | file content =>
      rw [heq] at hfound
      rw [FileTree.content?_eq_some.mpr hfound] at hbase
      cases hbase
    | directory => exact hpaths x hx hfound

/-- Writing changes nothing but places below the base directory. -/
theorem writeAll_changesTo {contents : List (String × String)}
    (hbase : j.state.tree.content? w.base = none)
    (hpaths : ∀ x ∈ contents, j.state.tree.find? (w.placeOf x.1) ≠ some .directory) :
    Disk.ChangesTo (·.IsBelow w.base) j.state (w.writeAll contents j).2.state := by
  cases hvalid : w.validateAll j.state.tree contents with
  | error e =>
    rw [writeAll_of_invalid hvalid]
    exact .of_same rfl rfl
  | ok targets =>
    rw [writeAll_of_valid hvalid]
    exact (changesAt_commit (isBelow_of_validateAll hbase hpaths hvalid) j).1

/-- Contents are refused, and nothing happens, when a path leads out of the base directory
or to nothing. -/
theorem writeAll_of_astray {contents : List (String × String)}
    (h : ∃ x ∈ contents, j.state.tree.find? (w.placeOf x.1) = none ∨
      ¬w.base <+: w.placeOf x.1) :
    ∃ e, w.writeAll contents j = (.error e, j) := by
  cases hvalid : w.validateAll j.state.tree contents with
  | error e => exact ⟨e, writeAll_of_invalid hvalid⟩
  | ok targets =>
    obtain ⟨-, hall⟩ := validateAll_eq_ok.mp hvalid
    obtain ⟨x, hx, hastray⟩ := h
    obtain ⟨hthere, hwithin⟩ := hall x hx
    rcases hastray with hnone | hout
    · exact absurd hnone hthere
    · exact absurd (Place.isWithin_iff.mp hwithin) hout

end Writer

/-- The new contents are for the files of the batch, and reading them changes nothing. -/
theorem EditBatch.newContents_cases [Resolution] (edits : List (String × List Insertion)) :
    (∃ reason, newContents w edits j = (.error reason, j)) ∨
    ∃ contents, newContents w edits j = (.ok contents, j) ∧
      contents.map (·.1) = edits.map (·.1) := by
  induction edits with
  | nil => exact .inr ⟨[], rfl, rfl⟩
  | cons edit rest ih =>
    obtain ⟨file, insertions⟩ := edit
    simp only [newContents, Logged.bind_apply]
    rcases Writer.read_cases (w := w) (j := j) file with ⟨e, hread⟩ | ⟨text, hread⟩
    · exact .inl ⟨e.message, by rw [hread]; rfl⟩
    · rw [hread]
      dsimp only
      cases applyInsertions text insertions with
      | error e => exact .inl ⟨e.message, rfl⟩
      | ok content =>
        dsimp only
        rcases ih with ⟨reason, hrest⟩ | ⟨contents, hrest, hfiles⟩
        · exact .inl ⟨reason, by rw [Logged.bind_apply, hrest]; rfl⟩
        · refine .inr ⟨(file, content) :: contents, ?_, by simp [hfiles]⟩
          rw [Logged.bind_apply, hrest]
          rfl

/-- A batch leaves the disk as it is, or writes new contents for its files. -/
theorem EditBatch.apply_state_cases [Resolution] (b : EditBatch) :
    (b.apply w j).2.state = j.state ∨
    ∃ contents, (∀ x ∈ contents, x.1 ∈ b.files) ∧
      (b.apply w j).2.state = (w.writeAll contents j).2.state := by
  rw [apply]
  by_cases hempty : b.isEmpty = true
  · exact .inl (by rw [if_pos hempty]; rfl)
  · rw [if_neg hempty, Logged.bind_apply]
    rcases newContents_cases (w := w) (j := j) b.byFile with ⟨reason, hnew⟩ |
      ⟨contents, hnew, hfiles⟩
    · exact .inl (by rw [hnew]; rfl)
    · right
      refine ⟨contents, fun x hx => ?_, ?_⟩
      · have hmem : x.1 ∈ contents.map (·.1) := List.mem_map_of_mem hx
        rw [hfiles, byFile, List.map_map] at hmem
        simpa using hmem
      · rw [hnew]
        dsimp only
        rw [Logged.bind_apply]
        rcases w.writeAll contents j with ⟨_ | _, j'⟩ <;> rfl

/-- An insertion leaves the disk as it is, or writes new content for its file. -/
theorem insertInto_state_cases [Resolution] (path : String) (offset : Int) (text : String) :
    (insertInto w path offset text j).2.state = j.state ∨
    ∃ content, (insertInto w path offset text j).2.state =
      (w.writeAll [(path, content)] j).2.state := by
  rw [insertInto, Logged.bind_apply]
  rcases Writer.read_cases (w := w) (j := j) path with ⟨e, hread⟩ | ⟨content, hread⟩
  · exact .inl (by rw [hread]; rfl)
  · rw [hread]
    dsimp only
    split
    · exact .inl rfl
    · refine .inr ⟨.ofList (insertAt content.toList offset.toNat text.toList), ?_⟩
      rw [Logged.bind_apply, Writer.write]
      generalize w.writeAll [(path, .ofList _)] j = written
      rcases written with ⟨_ | _, j'⟩ <;> rfl

/-- A call leaves the disk as it is, or writes new contents for paths that it names. -/
theorem FileCall.after_cases [Resolution] (call : FileCall) :
    (call.after w j).state = j.state ∨
    ∃ contents, (∀ x ∈ contents, x.1 ∈ call.paths) ∧
      (call.after w j).state = (w.writeAll contents j).2.state := by
  cases call with
  | read path =>
    left
    rcases Writer.read_cases (w := w) (j := j) path with ⟨_, hread⟩ | ⟨_, hread⟩ <;>
      rw [after, hread]
  | write path content => exact .inr ⟨[(path, content)], by simp [paths], rfl⟩
  | writeAll contents =>
    exact .inr ⟨contents, fun x hx => List.mem_map_of_mem hx, rfl⟩
  | insert path offset text =>
    rcases insertInto_state_cases (w := w) (j := j) path offset text with hsame | ⟨content, hsame⟩
    · exact .inl hsame
    · exact .inr ⟨[(path, content)], by simp [paths], hsame⟩
  | apply batch =>
    rcases EditBatch.apply_state_cases (w := w) (j := j) batch with hsame |
      ⟨contents, hfiles, hsame⟩
    · exact .inl hsame
    · refine .inr ⟨contents, fun x hx => ?_, hsame⟩
      obtain ⟨i, hi, hfile⟩ := EditBatch.mem_files.mp (hfiles x hx)
      exact hfile ▸ List.mem_map_of_mem hi

/-- A call changes nothing but places below the base directory. -/
theorem FileCall.after_changesTo [Resolution] {call : FileCall}
    (hbase : j.state.tree.content? w.base = none)
    (hpaths : ∀ path ∈ call.paths, j.state.tree.find? (w.placeOf path) ≠ some .directory) :
    Disk.ChangesTo (·.IsBelow w.base) j.state (call.after w j).state := by
  rcases after_cases (w := w) (j := j) call with hsame | ⟨contents, hcontents, hsame⟩
  · exact .of_same (by rw [hsame]) (by rw [hsame])
  · rw [hsame]
    exact Writer.writeAll_changesTo hbase fun x hx => hpaths x.1 (hcontents x hx)

/-! ## Calls one after the other -/

/-- The base directory does not become a file by changes below it. -/
theorem Disk.ChangesTo.content?_base {base : Place} {d d' : Disk}
    (h : ChangesTo (·.IsBelow base) d d') : d'.tree.content? base = d.tree.content? base := by
  simp only [FileTree.content?, h.find?_eq fun hbelow => hbelow.ne rfl]

/-- Calls change nothing but places below the base directory. -/
theorem FileCalls.changesTo {calls : List FileCall} (h : FileCalls w j calls j')
    (hbase : j.state.tree.content? w.base = none) :
    Disk.ChangesTo (·.IsBelow w.base) j.state j'.state := by
  induction h with
  | nil j => exact .of_same rfl rfl
  | cons links call hpaths rest ih =>
    have hcall := FileCall.after_changesTo hbase hpaths
    exact hcall.trans (ih (hcall.content?_base.trans hbase))

/-- **Nothing is written outside the base directory.** Calls one after the other change the
disk by the changes that its history has gained, and each of those happened at or below the
base directory, so everything outside is as it was. Writing that would lead outside, or to
nothing, is refused and does nothing. -/
theorem fileCalls_stay_within {calls : List FileCall}
    (hbase : j.state.tree.content? w.base = none) (h : FileCalls w j calls j') :
    (∃ changes : List Change,
      j'.state.history = j.state.history ++ changes ∧
      j'.state.tree = changes.foldl FileTree.changed j.state.tree ∧
      ∀ c ∈ changes, w.base <+: c.place) ∧
    (∀ p, ¬w.base <+: p → j'.state.tree.find? p = j.state.tree.find? p) ∧
    ∀ [Resolution] (contents : List (String × String)),
      (∃ x ∈ contents, j'.state.tree.find? (w.placeOf x.1) = none ∨
        ¬w.base <+: w.placeOf x.1) →
      ∃ e, w.writeAll contents j' = (.error e, j') := by
  have hchanges := h.changesTo hbase
  refine ⟨?_, fun p hp => hchanges.find?_eq fun hbelow => hp hbelow.within,
    fun _ hastray => Writer.writeAll_of_astray hastray⟩
  obtain ⟨changes, hplaces, hrecorded, htree⟩ := hchanges
  exact ⟨changes, hrecorded, htree, fun c hc => (hplaces c hc).within⟩

/-- Two names that lead elsewhere: one into the directory `src`, and one out of it, to a
directory whose name begins alike. -/
@[reducible] def twoLinks : Resolution where
  placeOf here path :=
    if path = "in.ts" then ["src", "a.ts"]
    else if path = "out.ts" then ["src2", "b.ts"]
    else Resolution.byParts.placeOf here path

/-- A file in the directory `src`, and one in a directory next to it. -/
def insideAndOutside : Journal Disk where
  state.tree := ⟨[(["src"], .directory), (["src", "a.ts"], .file (.text "e")),
    (["src2"], .directory), (["src2", "b.ts"], .file (.text "f"))]⟩

/-- The link that leads out is refused; through the other one the file is written, with a
temporary file and a backup next to it. -/
theorem fileCalls_through_links :
    let w : Writer := ⟨[], ["src"], {}⟩
    let calls : List FileCall := [.insert "out.ts" 0 "x", .write "in.ts" "y", .read "src/a.ts"]
    let j' := calls.foldl (@FileCall.after twoLinks w) insideAndOutside
    insideAndOutside.state.tree.content? w.base = none ∧
    FileCalls w insideAndOutside calls j' ∧
    j'.state.history.map Change.place =
      [["src", ".a.ts.0.tmp"], ["src", "a.ts.1.bak"], ["src", "a.ts"], ["src", ".a.ts.0.tmp"],
        ["src", "a.ts.1.bak"]] ∧
    j'.state.tree.find? ["src2", "b.ts"] = some (.file (.text "f")) := by
  intro w calls j'
  have hbase : insideAndOutside.state.tree.content? w.base = none := rfl
  have hcalls : FileCalls w insideAndOutside calls j' :=
    .cons twoLinks _ (by decide +kernel) (.cons twoLinks _ (by decide +kernel)
      (.cons twoLinks _ (by decide +kernel) (.nil _)))
  have hframe := (fileCalls_stay_within hbase hcalls).2.1 ["src2", "b.ts"] (by decide)
  exact ⟨hbase, hcalls, by decide +kernel, hframe⟩

end DocHeader

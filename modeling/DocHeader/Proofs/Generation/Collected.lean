import DocHeader.Proofs.Generation.Turns

/-!
# Collecting headers

What a request has in hand when it comes to apply what it collected. The count of headers is
the length of the batch, each insertion goes into a file that was asked for, and the disk is
as it was. The result is marked as cancelled just when the last look found the signal set,
and then that look was the last step. Otherwise few steps can have come after it: the
reading and the parsing of a file that brings nothing, and the last report of progress.

## Main definitions

* `Generator.Collected.Grows` — what collecting adds.
* `Generator.Ends` — which steps come after the last look.
* `Generator.Phase` — the outcome of a part of the collecting.
* `Target.gaps`, `Target.blind` — the steps of a request that no look follows.
* `Generator.Collected.outcome` — the result once what was collected was applied, or not.
-/

namespace DocHeader

namespace Generator

open Desk

/-- The files found in a directory. -/
def filesIn (g : Generator) (root : String) (d : Desk) : List String :=
  match Glob.selector g.glob with
  | .error _ => []
  | .ok selects => d.disk.tree.findFiles g.surroundings.here g.excluded selects root

/-- The files that a request visits. -/
def Target.paths (g : Generator) (d : Desk) : Target → List String
  | .file path => [path]
  | .folder root | .workspace root => g.filesIn root d

/-- The steps of a request that never looks: the only file could not be read. -/
def Target.blind : Target → List (List Event)
  | .file _ => [[.unread]]
  | .folder _ | .workspace _ => []

/-- What may come after the last look of a request. A file reports each declaration, a
directory each file. -/
def Target.gaps : Target → List (List Event)
  | .file _ => [[.unparsed], [.parse, .begin], [.advance]]
  | .folder _ | .workspace _ =>
    [[.begin], [.unread, .advance], [.unparsed, .advance], [.parse, .advance], [.advance]]

/-- The scope of a request. -/
def Target.scope : Target → Scope
  | .file _ => .file
  | .folder _ => .folder
  | .workspace _ => .workspace

variable {g : Generator} {s : Surroundings} {d d₁ : Desk} {c c' c'' c₁ : Collected}
  {files files' : List String} {quiet quiet' gaps gaps' : List (List Event)}

/-- What collecting the headers of some files adds to what was collected before. -/
structure Collected.Grows (files : List String) (c c' : Collected) : Prop where
  batch : ∃ added, c'.batch = c.batch ++ added ∧ (∀ i ∈ added, i.file ∈ files) ∧
    c'.result.generated = c.result.generated + added.length
  applied : c'.result.applied = c.result.applied
  warnings : c'.result.warnings = c.result.warnings

/-- Either no look was among some steps, which are one of `quiet`, or what came after the
last look is one of `gaps`. Nothing comes after a look that found the signal set. -/
def Ends (s : Surroundings) (d : Desk) (steps : List Event) (quiet gaps : List (List Event))
    (seen : Bool) : Prop :=
  (seen = false ∧ steps ∈ quiet) ∨
    ∃ gap, d.LastLook s steps gap seen ∧ if seen then gap = [] else gap ∈ gaps

/-- The outcome of a part of the collecting, which began with `c` at the desk `d`. -/
inductive Phase (s : Surroundings) (files : List String) (quiet gaps : List (List Event))
    (d : Desk) (c : Collected) : Except GenerationFault Collected × Desk → Prop where
  | error {e : GenerationFault} {d' : Desk} (hdisk : d'.disk = d.disk) :
    Phase s files quiet gaps d c (.error e, d')
  | ok {c' : Collected} {d' : Desk} {steps : List Event} (hsteps : d.Follows s steps d')
    (hgrows : c.Grows files c') (hends : Ends s d steps quiet gaps c'.result.cancelled) :
    Phase s files quiet gaps d c (.ok c', d')

theorem Collected.Grows.of_batch_eq (hbatch : c'.batch = c.batch)
    (hgenerated : c'.result.generated = c.result.generated)
    (happlied : c'.result.applied = c.result.applied)
    (hwarnings : c'.result.warnings = c.result.warnings) : c.Grows files c' :=
  ⟨⟨[], by simp [hbatch], by simp, by simp [hgenerated]⟩, happlied, hwarnings⟩

theorem Collected.Grows.refl (files : List String) (c : Collected) : c.Grows files c :=
  .of_batch_eq rfl rfl rfl rfl

theorem Collected.Grows.add (c : Collected) {i : Insertion} (hi : i.file ∈ files) :
    c.Grows files (c.add i) :=
  ⟨⟨[i], rfl, by simpa using hi, rfl⟩, rfl, rfl⟩

theorem Collected.Grows.trans (h : c.Grows files c') (h' : c'.Grows files c'') :
    c.Grows files c'' := by
  obtain ⟨added, hbatch, hfiles, hgenerated⟩ := h.batch
  obtain ⟨added', hbatch', hfiles', hgenerated'⟩ := h'.batch
  refine ⟨⟨added ++ added', by simp [hbatch', hbatch], fun i hi => ?_, ?_⟩,
    h'.applied.trans h.applied, h'.warnings.trans h.warnings⟩
  · exact (List.mem_append.mp hi).elim (hfiles i) (hfiles' i)
  · rw [hgenerated', hgenerated, List.length_append, Nat.add_assoc]

theorem Collected.Grows.mono (h : c.Grows files c') (hsub : files ⊆ files') :
    c.Grows files' c' := by
  obtain ⟨added, hbatch, hfiles, hgenerated⟩ := h.batch
  exact ⟨⟨added, hbatch, fun i hi => hsub (hfiles i hi), hgenerated⟩, h.applied, h.warnings⟩

/-- A request starts with nothing. -/
theorem Collected.Grows.of_start {scope : Scope}
    (h : Collected.Grows files { result := { scope } } c) :
    c.result.generated = c.batch.length ∧ ∀ i ∈ c.batch, i.file ∈ files := by
  obtain ⟨added, hbatch, hfiles, hgenerated⟩ := h.batch
  obtain rfl : c.batch = added := hbatch
  exact ⟨by simpa using hgenerated, hfiles⟩

/-! ## Putting parts together -/

variable {a gap steps : List Event} {seen : Bool} {o : Except GenerationFault Collected × Desk}

/-- A look that finds the signal set ends the steps. -/
theorem Ends.of_set (hfollows : d.Follows s a d₁) (hset : d₁.cancelled = true) :
    Ends s d (a ++ [.look]) quiet gaps true :=
  .inr ⟨[], .of_follows hfollows (.single hset), rfl⟩

/-- Steps may come after a look that finds the signal not set. -/
theorem Ends.of_not_set (hfollows : d.Follows s a d₁) (hset : d₁.cancelled = false)
    (hgap : gap ∈ gaps) : Ends s d (a ++ [.look] ++ gap) quiet gaps false :=
  .inr ⟨gap, .append (.of_follows hfollows (.single hset)) gap, hgap⟩

/-- The look that comes last stays so when steps come before. Where there was none, it
depends on what came before. -/
theorem Ends.after (hfollows : d.Follows s a d₁)
    (hquiet : ∀ steps ∈ quiet, Ends s d (a ++ steps) quiet' gaps' false) (hgaps : gaps ⊆ gaps')
    (h : Ends s d₁ steps quiet gaps seen) : Ends s d (a ++ steps) quiet' gaps' seen := by
  rcases h with ⟨rfl, hsteps⟩ | ⟨gap, hlook, hgap⟩
  · exact hquiet steps hsteps
  · refine .inr ⟨gap, hlook.of_follows hfollows, ?_⟩
    cases seen with
    | true => exact hgap
    | false => exact hgaps hgap

/-- Steps without a look widen the gap. -/
theorem Ends.append (h : Ends s d steps quiet gaps false) (b : List Event)
    (hquiet : ∀ steps ∈ quiet, steps ++ b ∈ quiet') (hgaps : ∀ gap ∈ gaps, gap ++ b ∈ gaps') :
    Ends s d (steps ++ b) quiet' gaps' false := by
  rcases h with ⟨-, hsteps⟩ | ⟨gap, hlook, hgap⟩
  · exact .inl ⟨rfl, hquiet steps hsteps⟩
  · exact .inr ⟨gap ++ b, hlook.append b, hgaps gap hgap⟩

/-- Where the signal was seen, no gap is left. -/
theorem Ends.of_seen (h : Ends s d steps quiet gaps true) : Ends s d steps quiet' gaps' true := by
  rcases h with ⟨hseen, -⟩ | hlook
  · exact absurd hseen (by decide)
  · exact .inr hlook

/-- What comes after steps of some other part. -/
theorem Phase.after (hfollows : d.Follows s a d₁) (hgrows : c.Grows files c₁)
    (hquiet : ∀ steps ∈ quiet, Ends s d (a ++ steps) quiet' gaps' false) (hgaps : gaps ⊆ gaps')
    (h : Phase s files quiet gaps d₁ c₁ o) : Phase s files quiet' gaps' d c o := by
  cases h with
  | error hdisk => exact .error (hdisk.trans hfollows.disk)
  | ok hsteps hgrows' hends =>
    exact .ok (hfollows.trans hsteps) (hgrows.trans hgrows') (hends.after hfollows hquiet hgaps)

/-- The disk is as it was, whatever the outcome. -/
theorem Phase.disk_eq (h : Phase s files quiet gaps d c o) : o.2.disk = d.disk := by
  cases h with
  | error hdisk => exact hdisk
  | ok hsteps => exact hsteps.disk

/-- A part asked for fewer files. -/
theorem Phase.mono (hsub : files ⊆ files') (h : Phase s files quiet gaps d c o) :
    Phase s files' quiet gaps d c o := by
  cases h with
  | error hdisk => exact .error hdisk
  | ok hsteps hgrows hends => exact .ok hsteps (hgrows.mono hsub) hends

/-! ## Files -/

theorem collectDeclarations_phase (g : Generator) (file text : String) (reporting : Bool)
    (pending : List Focus) (d : Desk) (hc : c.result.cancelled = false) :
    Phase g.surroundings [file] [[]] [reported reporting] d c
      (g.collectDeclarations file text reporting pending c d) := by
  induction pending generalizing d c with
  | nil => exact .ok (.refl _ d) (.refl _ c) (.inl ⟨hc, List.mem_singleton.mpr rfl⟩)
  | cons f rest ih =>
    rcases g.header_cases f text false d with
      ⟨header, d₁, hheader, hbuilt⟩ | ⟨e, d₁, hheader, hgone⟩
    case inr =>
      rw [g.collectDeclarations_of_unbuilt reporting hheader]
      exact .error hgone.disk
    rcases g.collectDeclarations_of_built reporting hc hheader with
      ⟨hset, d₂, hlooked, hcollect⟩ | ⟨hset, d₂, hlooked, hcollect⟩ <;> rw [hcollect]
    · exact .ok (hbuilt.trans hlooked.follows) (.of_batch_eq rfl rfl rfl rfl) (.of_set hbuilt hset)
    · have hgrows : c.Grows [file] (c.add ⟨file, f.insertionOffset, header⟩) := .add c (by simp)
      have hrest := ih (c := c.add ⟨file, f.insertionOffset, header⟩) d₂ hc
      refine hrest.after (hbuilt.trans hlooked.follows) hgrows ?_ (List.Subset.refl _)
      rintro steps hnone
      rw [List.mem_singleton.mp hnone, List.append_nil]
      simpa using Ends.of_not_set hbuilt hset (List.mem_singleton.mpr rfl)

theorem collectTree_phase (g : Generator) (file text : String) (reporting : Bool) (root : Focus)
    (d : Desk) (hc : c.result.cancelled = false) :
    Phase g.surroundings [file] [announced reporting] [reported reporting] d c
      (g.collectTree file text reporting root c d) := by
  rcases g.collectTree_turns reporting file text root c d with
    ⟨-, hunusable⟩ | ⟨-, d₁, hannounced, hcollect⟩
  · rw [hunusable]
    exact .error rfl
  have hgrows : c.Grows [file] (c.countFile file root) := .of_batch_eq rfl rfl rfl rfl
  have hdeclarations := collectDeclarations_phase (c := c.countFile file root) g file text reporting
    root.pending d₁ hc
  rw [hcollect]
  refine hdeclarations.after hannounced.follows hgrows ?_ (List.Subset.refl _)
  rintro steps hnone
  rw [List.mem_singleton.mp hnone, List.append_nil]
  exact .inl ⟨rfl, List.mem_singleton.mpr rfl⟩

/-- What may come after the last look at a file. -/
def fileGaps (reporting : Bool) : List (List Event) :=
  [[.unparsed], .parse :: announced reporting, reported reporting]

theorem collectFile_phase (g : Generator) (file : String) (reporting : Bool) (d : Desk)
    (hc : c.result.cancelled = false) :
    Phase g.surroundings [file] [[.unread]] (fileGaps reporting) d c
      (g.collectFile file reporting c d) := by
  rcases readText_cases g.surroundings file d with ⟨text, d₁, hread, hdone⟩ | ⟨e, d₁, hread, hdone⟩
  case inr =>
    obtain ⟨d₂, hrecorded, hcollect⟩ := g.collectFile_of_unread (c := c) reporting hread
    rw [hcollect]
    exact .ok (hdone.trans hrecorded.follows) (.of_batch_eq rfl rfl rfl rfl)
      (.inl ⟨hc, List.mem_singleton.mpr rfl⟩)
  rcases g.collectFile_of_read reporting hc hread with
    ⟨hset, d₂, hlooked, hcollect⟩ | ⟨hset, d₂, hlooked, htree, hfailed⟩
  · rw [hcollect]
    exact .ok (hdone.trans hlooked.follows) (.of_batch_eq rfl rfl rfl rfl) (.of_set hdone hset)
  have hlook := hdone.trans hlooked.follows
  rcases parse_cases g.surroundings file text d₂ with
    ⟨root, d₃, hparse, hparsed⟩ | ⟨e, d₃, hparse, hparsed⟩
  · rw [htree root d₃ hparse]
    refine (collectTree_phase g file text reporting root d₃ hc).after (hlook.trans hparsed)
      (.refl _ c) ?_ (by simp [fileGaps])
    rintro steps hannounced
    rw [List.mem_singleton.mp hannounced, List.append_assoc]
    exact .of_not_set hdone hset (by simp [fileGaps])
  · cases hrecoverable : e.isRecoverable with
    | true =>
      obtain ⟨d₄, hrecorded, hcollect⟩ := (hfailed e d₃ hparse).1 hrecoverable
      rw [hcollect]
      exact .ok ((hlook.trans hparsed).trans hrecorded.follows)
        (.of_batch_eq rfl rfl rfl rfl) (hc ▸ .of_not_set hdone hset (by simp [fileGaps]))
    | false =>
      rw [(hfailed e d₃ hparse).2 hrecoverable]
      exact .error (hlook.trans hparsed).disk

/-! ## Directories -/

/-- What may come after the last look at the files of a directory. -/
def directoryGaps : List (List Event) :=
  [[.unread, .advance], [.unparsed, .advance], [.parse, .advance], [.advance]]

theorem collectFiles_phase (g : Generator) (paths : List String) (d : Desk)
    (hc : c.result.cancelled = false) :
    Phase g.surroundings paths [[]] directoryGaps d c (g.collectFiles paths c d) := by
  induction paths generalizing d c with
  | nil => exact .ok (.refl _ d) (.refl _ c) (.inl ⟨hc, List.mem_singleton.mpr rfl⟩)
  | cons file rest ih =>
    rcases g.collectFiles_cons hc file rest d with
      ⟨hset, d₁, hlooked, hcollect⟩ | ⟨hset, d₁, hlooked, hraised, hvisited⟩
    · rw [hcollect]
      exact .ok hlooked.follows (.of_batch_eq rfl rfl rfl rfl) (.of_set (.refl _ d) hset)
    have hfile := collectFile_phase g file false d₁ hc
    rcases hcollect : g.collectFile file false c d₁ with ⟨e | c₁, d₂⟩ <;> rw [hcollect] at hfile
    · obtain ⟨hdisk⟩ | _ := hfile
      rw [hraised e d₂ hcollect]
      exact .error (hdisk.trans hlooked.follows.disk)
    obtain _ | @⟨_, _, steps, hsteps, hgrows, hends⟩ := hfile
    have hgrows' : c.Grows (file :: rest) c₁ := hgrows.mono (by simp)
    -- The look before the file makes up for one that the file does not get.
    have hends' : Ends g.surroundings d ([.look] ++ steps) [] ([.unread] :: fileGaps false)
        c₁.result.cancelled := by
      refine hends.after hlooked.follows ?_ (by simp)
      rintro steps hunread
      rw [List.mem_singleton.mp hunread]
      exact .of_not_set (.refl _ d) hset (by simp)
    cases hstopped : c₁.result.cancelled with
    | true =>
      rw [(hvisited c₁ d₂ hcollect).1 hstopped]
      exact .ok (hlooked.follows.trans hsteps) hgrows' (hstopped ▸ (hstopped ▸ hends').of_seen)
    | false =>
      obtain ⟨d₃, hadvanced, hrest⟩ := (hvisited c₁ d₂ hcollect).2 hstopped
      rw [hrest]
      refine (ih _ hstopped).mono (by simp) |>.after
        ((hlooked.follows.trans hsteps).trans hadvanced.follows) hgrows' ?_ (List.Subset.refl _)
      rintro steps' hnone
      rw [List.mem_singleton.mp hnone, List.append_nil]
      exact (hstopped ▸ hends').append [.advance] (by simp)
        (by simp [fileGaps, directoryGaps, announced, reported])

theorem collectFound_phase (g : Generator) (scope : Scope) (root : String) (files : List String)
    (d : Desk) :
    Phase g.surroundings files [] ([.begin] :: directoryGaps) d { result := { scope } }
      (g.collectFound scope root files d) := by
  have hfound := complete_follows g.surroundings .find d
  rcases g.collectFound_turns scope root files d with
    ⟨hset, d₁, hlooked, hcollect⟩ | ⟨hset, d₁, hbegun, hcollect⟩ <;> rw [hcollect]
  · exact .ok hlooked.follows (.of_batch_eq rfl rfl rfl rfl)
      (.of_set hfound (hfound.cancelled.trans hset))
  · refine (collectFiles_phase (c := { result := { scope } }) g _ _ rfl).after
      hbegun.follows (.refl _ _) ?_ (by simp)
    rintro steps hnone
    rw [List.mem_singleton.mp hnone, List.append_nil]
    exact .of_not_set hfound (hfound.cancelled.trans hset) (by simp)

/-- Where the root is a directory and the glob makes sense, the files found are visited. No
header is refused otherwise. -/
theorem collectDirectory_cases (g : Generator) (scope : Scope) (root : String) (d : Desk) :
    (∃ e, (∀ b, e ≠ .unbuilt b) ∧ g.collectDirectory scope root d = (.error e, d)) ∨
      g.collectDirectory scope root d = g.collectFound scope root (g.filesIn root d) d := by
  cases hdirectory : d.disk.tree.isDirectory g.surroundings.here (Path.ofText root).text with
  | false =>
    simp only [collectDirectory, Work.get_bind, hdirectory, Bool.not_false, if_true]
    exact .inl ⟨.unsupportedScope root (some "not a directory"), by simp, rfl⟩
  | true =>
    simp only [collectDirectory, filesIn, Work.get_bind, hdirectory, Bool.not_true,
      Bool.false_eq_true, if_false]
    cases Glob.selector g.glob with
    | error e => exact .inl ⟨.badGlob e, by simp, rfl⟩
    | ok spec => exact .inr rfl

theorem collectDirectory_phase (g : Generator) (scope : Scope) (root : String) (d : Desk) :
    Phase g.surroundings (g.filesIn root d) [] ([.begin] :: directoryGaps) d
      { result := { scope } } (g.collectDirectory scope root d) := by
  rcases g.collectDirectory_cases scope root d with ⟨e, -, hrefused⟩ | hfound
  · rw [hrefused]
    exact .error rfl
  · rw [hfound]
    exact g.collectFound_phase scope root _ d

/-! ## Requests -/

theorem checkLanguage_of_supported {file : String}
    (h : (SourceLanguage.ofFile? file).isSome = true) (d : Desk) :
    checkLanguage file d = (.ok (), d) := by
  obtain ⟨language, hlanguage⟩ := Option.isSome_iff_exists.mp h
  unfold checkLanguage
  rw [hlanguage]
  rfl

theorem checkLanguage_of_unsupported {file : String} (h : SourceLanguage.ofFile? file = none)
    (d : Desk) : checkLanguage file d = (.error (.unsupportedScope file none), d) := by
  unfold checkLanguage
  rw [h]
  rfl

theorem checkLanguage_cases (file : String) (d : Desk) :
    checkLanguage file d = (.ok (), d) ∨
      checkLanguage file d = (.error (.unsupportedScope file none), d) := by
  cases hlanguage : SourceLanguage.ofFile? file with
  | none => exact .inr (checkLanguage_of_unsupported hlanguage d)
  | some _ => exact .inl (checkLanguage_of_supported (by simp [hlanguage]) d)

theorem collect_phase (g : Generator) (t : Target) (d : Desk) :
    Phase g.surroundings (t.paths g d) t.blind t.gaps d { result := { scope := t.scope } }
      (g.collect t d) := by
  cases t with
  | file path =>
    rw [collect, Work.bind_apply]
    rcases checkLanguage_cases path d with hok | hrefused
    · rw [hok]
      exact collectFile_phase g path true d rfl
    · rw [hrefused]
      exact .error rfl
  | folder root =>
    rw [collect]
    exact g.collectDirectory_phase .folder root d
  | workspace root =>
    rw [collect]
    exact g.collectDirectory_phase .workspace root d

/-! ## Applying -/

/-- The result when what was collected could be applied, or could not. -/
def Collected.outcome (c : Collected) (applied : Bool) : GenerationResult :=
  if applied then { c.result with applied := true }
  else
    { c.result with
      warnings := c.result.warnings ++ ["The edits could not be applied; no file was modified."] }

section

variable (c : Collected) (applied : Bool)

@[simp] theorem Collected.outcome_generated :
    (c.outcome applied).generated = c.result.generated := by
  cases applied <;> rfl

@[simp] theorem Collected.outcome_cancelled :
    (c.outcome applied).cancelled = c.result.cancelled := by
  cases applied <;> rfl

@[simp] theorem Collected.outcome_applied :
    (c.outcome applied).applied = (applied || c.result.applied) := by
  cases applied <;> rfl

@[simp] theorem Collected.outcome_warnings :
    (c.outcome applied).warnings = c.result.warnings ++
      if applied then [] else ["The edits could not be applied; no file was modified."] := by
  cases applied <;> simp [Collected.outcome]

end

/-- A request that has collected its headers is given up because the place of one is null, or it
comes to apply them. -/
theorem conclude_cases (g : Generator) (c : Collected) (d : Desk) :
    (c.result.cancelled = false ∧
      EditBatch.meetsUnplaced g.writer c.unplaced d.disk c.batch.byFile = true ∧
      g.conclude c d = (.error .unusable, d)) ∨
    ((c.result.cancelled = true ∨
        EditBatch.meetsUnplaced g.writer c.unplaced d.disk c.batch.byFile = false) ∧
      g.conclude c d = (.ok (g.finish c d).1, (g.finish c d).2)) := by
  rw [conclude, Work.get_bind]
  cases c.result.cancelled with
  | true => exact .inr ⟨.inl rfl, rfl⟩
  | false =>
    cases EditBatch.meetsUnplaced g.writer c.unplaced d.disk c.batch.byFile with
    | true => exact .inl ⟨rfl, rfl, rfl⟩
    | false => exact .inr ⟨.inr rfl, rfl⟩

/-- Where no place is null, the request comes to its end. -/
theorem conclude_of_placed (g : Generator) (d : Desk)
    (hplaced : c.result.cancelled = false → c.unplaced = []) :
    g.conclude c d = (.ok (g.finish c d).1, (g.finish c d).2) := by
  rcases g.conclude_cases c d with ⟨hclear, hmeets, -⟩ | ⟨-, hfinished⟩
  · rw [hplaced hclear, EditBatch.meetsUnplaced_nil] at hmeets
    cases hmeets
  · exact hfinished

/-- A request is given up while it collects or when it has collected, or it comes to apply what
it collected. -/
theorem generate_cases (g : Generator) (t : Target) (d : Desk) :
    (∃ e d', g.collect t d = (.error e, d') ∧ g.generate t d = (.error e, d')) ∨
    (∃ c d', g.collect t d = (.ok c, d') ∧ c.result.cancelled = false ∧
      g.generate t d = (.error .unusable, d')) ∨
    ∃ c d₁, g.collect t d = (.ok c, d₁) ∧
      g.generate t d = (.ok (g.finish c d₁).1, (g.finish c d₁).2) := by
  rw [generate, Work.bind_apply]
  rcases g.collect t d with ⟨e | c, d₁⟩
  · exact .inl ⟨e, d₁, rfl, rfl⟩
  · rcases g.conclude_cases c d₁ with ⟨hc, -, hunusable⟩ | ⟨-, hfinished⟩
    · exact .inr (.inl ⟨c, d₁, rfl, hc, hunusable⟩)
    · exact .inr (.inr ⟨c, d₁, rfl, hfinished⟩)

theorem finish_of_idle (g : Generator) (d : Desk)
    (hidle : c.result.cancelled = true ∨ c.result.generated = 0) :
    g.finish c d = (c.result, d) := by
  cases hset : c.result.cancelled with
  | true => simp only [finish, hset, if_true, Desk.pure_apply]
  | false =>
    have hnone : c.result.generated = 0 := hidle.resolve_left (by simp [hset])
    simp only [finish, hset, Bool.false_eq_true, if_false, applyCollected, hnone, beq_self_eq_true,
      if_true, Desk.pure_apply]

theorem finish_of_pending (g : Generator) (d : Desk) (hc : c.result.cancelled = false)
    (hpos : 0 < c.result.generated) :
    g.finish c d =
      (c.outcome (c.batch.apply g.writer ⟨d.disk, d.records⟩).1,
        { d with
          disk := (c.batch.apply g.writer ⟨d.disk, d.records⟩).2.state
          records := (c.batch.apply g.writer ⟨d.disk, d.records⟩).2.records }) := by
  have hsome : (c.result.generated == 0) = false := beq_false_of_ne (by omega)
  rcases happly : c.batch.apply g.writer ⟨d.disk, d.records⟩ with ⟨applied, j⟩
  cases applied <;>
    simp [finish, hc, applyCollected, hsome, Desk.bind_apply, onDisk, happly, Collected.outcome]

/-- Applying completes no step, and marks nothing as cancelled. -/
theorem finish_spec (g : Generator) (c : Collected) (d : Desk) :
    (g.finish c d).1.cancelled = c.result.cancelled ∧ (g.finish c d).2.events = d.events ∧
      (g.finish c d).2.cancelled = d.cancelled := by
  by_cases hidle : c.result.cancelled = true ∨ c.result.generated = 0
  · rw [finish_of_idle g d hidle]
    exact ⟨rfl, rfl, rfl⟩
  · obtain ⟨hc, hpos⟩ := not_or.mp hidle
    rw [finish_of_pending g d (by simpa using hc) (by omega)]
    exact ⟨c.outcome_cancelled _, rfl, rfl⟩

end Generator

end DocHeader

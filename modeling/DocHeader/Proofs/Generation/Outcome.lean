import DocHeader.Proofs.Edit.Applied
import DocHeader.Proofs.Generation.Cancelled

/-!
# What a result says about the files

A result counts the headers that were collected, and says whether they are in the files now.
The files bear it out: they have all their headers when the result says so, and otherwise
they are as they were. The warning about edits that could not be applied, the sentence that
says so and the exit code come with each other.

## Main definitions

* `EditBatch.Spliced` — a file before and after a request, and its insertions.
* `GenerationResult.Unapplied` — headers could not be inserted, and nobody cancelled.
-/

namespace DocHeader

/-- A file before and after its insertions: without any it is as it was, and otherwise it
has its text with all of them. -/
structure EditBatch.Spliced (b : EditBatch) (w : Writer) (t t' : FileTree) (file : String) :
    Prop where
  kept : b.ofFile file = [] → t'.find? (w.placeOf file) = t.find? (w.placeOf file)
  woven : b.ofFile file ≠ [] → ∃ text, w.Holds t file text ∧
    t'.find? (w.placeOf file) = some (.file (.text (wovenText text (b.ofFile file))))

/-- When a batch has given its files their new texts, each file has its insertions. -/
theorem EditBatch.Fits.spliced {b : EditBatch} {w : Writer} {t t' : FileTree}
    {files : List String} (hfits : b.Fits w t)
    (hfound : ∀ p, t'.find? p = t.overwritten (b.targets w t) p)
    (hsub : ∀ i ∈ b, i.file ∈ files)
    (hdistinct : ∀ x ∈ files, ∀ y ∈ files, w.placeOf x = w.placeOf y → x = y)
    {file : String} (hfile : file ∈ files) : b.Spliced w t t' file where
  kept hnone := by
    rw [hfound, FileTree.overwritten_of_not_target]
    rintro ⟨p, text⟩ hx rfl
    obtain ⟨i, hi, hplace, -⟩ := mem_targets.mp hx
    have hsame : i.file = file := hdistinct _ (hsub i hi) _ hfile hplace.symm
    exact absurd (mem_ofFile.mpr ⟨hi, hsame⟩) (by simp [hnone])
  woven hsome := by
    obtain ⟨i, hmem⟩ := List.exists_mem_of_ne_nil _ hsome
    obtain ⟨hi, rfl⟩ := mem_ofFile.mp hmem
    obtain ⟨text, hholds, -⟩ := hfits i hi
    refine ⟨text, hholds, ?_⟩
    rw [hfound, overwritten_targets (fun i hi k hk => hdistinct _ (hsub i hi) _ (hsub k hk)) hi
      hholds]

/-! ## Reports -/

namespace GenerationResult

/-- There are headers that could not be inserted, and the request was not cancelled. -/
def Unapplied (r : GenerationResult) : Prop :=
  0 < r.generated ∧ r.applied = false ∧ r.cancelled = false

theorem report_exit (r : GenerationResult) (format : ReportFormat) (aside : Bool) :
    (r.report format aside).exit = r.exitCode := by
  cases format <;> cases aside <;> simp only [report] <;> split <;> rfl

/-- The exit code is one just when edits could not be applied. -/
theorem report_exit_eq_one_iff (r : GenerationResult) (format : ReportFormat) (aside : Bool) :
    (r.report format aside).exit = 1 ↔ r.Unapplied := by
  rw [report_exit]
  simp [exitCode, Unapplied, Nat.pos_iff_ne_zero, and_assoc]

/-- Only the sentence about edits that could not be applied has the letter `u`. -/
theorem notMem_message {r : GenerationResult} (h : ¬r.Unapplied) : 'u' ∉ r.message.toList := by
  have hcount : 'u' ∉ Nat.toDigits 10 r.generated := by
    intro hmem
    have hdigit : Char.isDigit 'u' = true :=
      Nat.isDigit_of_mem_toDigits (by decide) (by decide) hmem
    cases hdigit
  have hnoun : 'u' ∉ (if r.generated = 1 then "header" else "headers" : String).toList := by
    split <;> decide
  have hedits : 'u' ∉ (if r.scope = .position then "." else "; no edits were applied.").toList := by
    split <;> decide
  cases hcancelled : r.cancelled with
  | true => simp [message, hcancelled, hcount, hnoun, hedits]
  | false =>
    by_cases hnone : r.generated = 0
    · simp [message, hcancelled, hnone]
    · have happlied : r.applied = true := by
        by_contra hnot
        exact h ⟨by omega, by simpa using hnot, hcancelled⟩
      simp [message, hcancelled, hnone, happlied, hcount, hnoun]

/-- The sentence says that the edits could not be applied just when that is so. -/
theorem message_ends_iff (r : GenerationResult) :
    (∃ start, r.message = start ++ ", but the edits could not be applied.") ↔ r.Unapplied := by
  constructor
  · rintro ⟨start, hmessage⟩
    by_contra hnot
    refine notMem_message hnot ?_
    rw [hmessage, String.toList_append]
    exact List.mem_append_right _ (by decide)
  · rintro ⟨hpos, happlied, hcancelled⟩
    refine ⟨"Generated " ++ (toString r.generated ++ " JSDoc " ++
      if r.generated == 1 then "header" else "headers"), ?_⟩
    have hsome : (r.generated == 0) = false := beq_false_of_ne (by omega)
    simp [message, hcancelled, hsome, happlied]

end GenerationResult

namespace Generator

/-- What a result says about the files that were visited, and the insertions `b` collected for
them, when the file tree was `t` before the request and is `t'` after it. -/
structure Truthful (w : Writer) (files : List String) (b : EditBatch) (t t' : FileTree)
    (r : GenerationResult) : Prop where
  generated : r.generated = b.length
  visited : ∀ i ∈ b, i.file ∈ files
  kept : r.cancelled = true ∨ r.applied = false → ∀ p, t'.find? p = t.find? p
  applied : r.applied = true → 0 < r.generated ∧ r.cancelled = false
  spliced : r.applied = true → ∀ file ∈ files, b.Spliced w t t' file
  framed : r.applied = true → ∀ p, (∀ file ∈ files, w.placeOf file ≠ p) →
    t'.find? p = t.find? p
  warned : "The edits could not be applied; no file was modified." ∈ r.warnings ↔ r.Unapplied
  told : (∃ start, r.message = start ++ ", but the edits could not be applied.") ↔ r.Unapplied
  failed : ∀ format aside, (r.report format aside).exit = 1 ↔ r.Unapplied

variable {w : Writer} {files : List String} {c : Collected} {t t' : FileTree} {scope : Scope}

/-- Nothing was collected, or the request was cancelled. -/
theorem truthful_of_idle (hgrows : Collected.Grows files { result := { scope } } c)
    (hidle : c.result.cancelled = true ∨ c.result.generated = 0) :
    Truthful w files c.batch t t c.result where
  generated := hgrows.of_start.1
  visited := hgrows.of_start.2
  kept _ _ := rfl
  applied h := absurd h (by simp [hgrows.applied])
  spliced h := absurd h (by simp [hgrows.applied])
  framed _ _ _ := rfl
  warned := by
    have hnot : ¬c.result.Unapplied := by
      rintro ⟨hpos, -, hcancelled⟩
      rcases hidle with hset | hnone
      · rw [hcancelled] at hset
        cases hset
      · omega
    simp [hgrows.warnings, hnot]
  told := c.result.message_ends_iff
  failed := c.result.report_exit_eq_one_iff

/-- What was collected could be applied. -/
theorem truthful_of_applied (hgrows : Collected.Grows files { result := { scope } } c)
    (hcancelled : c.result.cancelled = false) (hpos : 0 < c.result.generated)
    (hdistinct : ∀ x ∈ files, ∀ y ∈ files, w.placeOf x = w.placeOf y → x = y)
    (hfits : c.batch.Fits w t) (hfound : ∀ p, t'.find? p = t.overwritten (c.batch.targets w t) p) :
    Truthful w files c.batch t t' (c.outcome true) where
  generated := hgrows.of_start.1
  visited := hgrows.of_start.2
  kept h := absurd h (by simp [hcancelled])
  applied _ := ⟨hpos, hcancelled⟩
  spliced _ _ hfile := hfits.spliced hfound hgrows.of_start.2 hdistinct hfile
  framed _ p hp := by
    rw [hfound, FileTree.overwritten_of_not_target]
    rintro ⟨q, text⟩ hx rfl
    obtain ⟨i, hi, hplace, -⟩ := EditBatch.mem_targets.mp hx
    exact hp _ (hgrows.of_start.2 i hi) hplace.symm
  warned := by
    have hnot : ¬(c.outcome true).Unapplied := by simp [GenerationResult.Unapplied]
    simp [hgrows.warnings, hnot]
  told := (c.outcome true).message_ends_iff
  failed := (c.outcome true).report_exit_eq_one_iff

/-- What was collected could not be applied. -/
theorem truthful_of_unapplied (hgrows : Collected.Grows files { result := { scope } } c)
    (hcancelled : c.result.cancelled = false) (hpos : 0 < c.result.generated)
    (hsame : ∀ p, t'.find? p = t.find? p) :
    Truthful w files c.batch t t' (c.outcome false) where
  generated := hgrows.of_start.1
  visited := hgrows.of_start.2
  kept _ := hsame
  applied h := absurd h (by simp [hgrows.applied])
  spliced h := absurd h (by simp [hgrows.applied])
  framed _ p _ := hsame p
  warned := by
    have hunapplied : (c.outcome false).Unapplied := by
      simp [GenerationResult.Unapplied, hgrows.applied, hcancelled, hpos]
    simp [hunapplied]
  told := (c.outcome false).message_ends_iff
  failed := (c.outcome false).report_exit_eq_one_iff

/-- **The result tells the truth about the files.** Where the files can be restored and what
is left of a write can be removed, and no two of the visited files are the same: a request
that is given up leaves all files alone. Any other one has collected some insertions, and its
result has their number. When the result is marked as cancelled or not as applied, no file has
changed; when it is marked as applied, there was something to apply, nobody cancelled, and
each visited file has its insertions while nothing else has changed. The warning, the sentence
and the exit code tell of edits that could not be applied just when there were some, and
nobody cancelled. -/
theorem generate_truthful (g : Generator) (t : Target) (d : Desk)
    (hsafe : g.writer.hazards.SafeUndo 0)
    (hdistinct : ∀ x ∈ t.paths g d, ∀ y ∈ t.paths g d,
      g.writer.placeOf x = g.writer.placeOf y → x = y) :
    (∀ e d', g.generate t d = (.error e, d') →
      ∀ p, d'.disk.tree.find? p = d.disk.tree.find? p) ∧
    ∀ r d', g.generate t d = (.ok r, d') → ∃ c d₁, g.collect t d = (.ok c, d₁) ∧
      Truthful g.writer (t.paths g d) c.batch d.disk.tree d'.disk.tree r := by
  have hphase := collect_phase g t d
  rcases generate_cases g t d with
    ⟨e, d', hcollect, hgenerate⟩ | ⟨c, d', hcollect, -, hgenerate⟩ |
      ⟨c, d₁, hcollect, hgenerate⟩ <;>
    rw [hcollect] at hphase <;> rw [hgenerate]
  iterate 2
    · refine ⟨fun e' d'' h p => ?_, fun r d'' h => (by cases h)⟩
      obtain ⟨-, rfl⟩ := Prod.mk.inj h
      rw [hphase.disk_eq]
  refine ⟨fun e' d'' h => (by cases h), fun r d' h => ⟨c, d₁, hcollect, ?_⟩⟩
  obtain ⟨hr, rfl⟩ := Prod.mk.inj h
  obtain rfl := Except.ok.inj hr
  cases hphase with
  | ok hsteps hgrows hends =>
  by_cases hidle : c.result.cancelled = true ∨ c.result.generated = 0
  · rw [finish_of_idle g d₁ hidle, hsteps.disk]
    exact truthful_of_idle hgrows hidle
  obtain ⟨hcancelled, hpos⟩ : c.result.cancelled = false ∧ 0 < c.result.generated := by
    simpa [Nat.pos_iff_ne_zero] using hidle
  rw [finish_of_pending g d₁ hcancelled hpos, hsteps.disk]
  rcases c.batch.apply_cases ⟨d.disk, d₁.records⟩ hsafe with
    ⟨happly, hfits, hfound⟩ | ⟨happly, hsame⟩
  · rw [happly]
    exact truthful_of_applied hgrows hcancelled hpos hdistinct hfits hfound
  · rw [happly]
    exact truthful_of_unapplied hgrows hcancelled hpos hsame

/-- Headers for files with one enumeration, none of which can be replaced. -/
def documentingDenied : Generator where
  surroundings := { helper := fun _ _ _ => .finished enumeration.compact "" 0 }
  builder := ⟨{}, .blank "", { year := 2024, month := 1, day := 1 }⟩
  writer :=
    { here := []
      base := []
      hazards :=
        { fails := fun _ step => if step matches .replace .. then some "denied" else none } }

/-- When the file cannot be replaced, its header is counted, the edits are said to be not
applied, and the file is as it was. -/
theorem generate_truthful_when_denied :
    documentingDenied.writer.hazards.SafeUndo 0 ∧
    ∃ r d', documentingDenied.generate (.file "a.ts") oneFile = (.ok r, d') ∧
      r.generated = 1 ∧ r.Unapplied ∧
      ∀ p, d'.disk.tree.find? p = oneFile.disk.tree.find? p := by
  have hsafe : documentingDenied.writer.hazards.SafeUndo 0 :=
    ⟨fun _ _ _ _ => rfl, fun _ _ _ => rfl, fun _ _ _ => rfl⟩
  have hresult : (documentingDenied.generate (.file "a.ts") oneFile).1.toOption.map
      (fun r : GenerationResult => (r.generated, (r.report .json false).exit, r.applied)) =
        some (1, 1, false) := by decide +kernel
  obtain ⟨-, htruthful⟩ := generate_truthful documentingDenied (.file "a.ts") oneFile hsafe
    fun x hx y hy _ => (List.mem_singleton.mp hx).trans (List.mem_singleton.mp hy).symm
  rcases hrun : documentingDenied.generate (.file "a.ts") oneFile with ⟨e | r, d'⟩
  · rw [hrun] at hresult
    cases hresult
  · obtain ⟨c, d₁, -, htruthful⟩ := htruthful r d' hrun
    rw [hrun] at hresult
    obtain ⟨hgenerated, hexit, happlied⟩ : r.generated = 1 ∧ (r.report .json false).exit = 1 ∧
        r.applied = false := by simpa [Except.toOption] using hresult
    exact ⟨hsafe, r, d', rfl, hgenerated, (htruthful.failed _ _).mp hexit,
      htruthful.kept (.inr happlied)⟩

end Generator

end DocHeader

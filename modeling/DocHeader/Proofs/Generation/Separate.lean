import DocHeader.Proofs.Disk.Located
import DocHeader.Proofs.Generation.Gains
import DocHeader.Proofs.Generation.Outcome
import Mathlib.Data.List.Nodup

/-!
# Files together and one by one

A request for the files of a directory comes to the same as requests for each of the files
alone, in whatever order the files are listed. The files have one batch in common, yet each of
them gets its own insertions and no others.

The argument has three parts. Nothing that is recorded for a file gives a request up, so all
requests have a result. A file brings the same share to the common batch as to the batch of its
own. And what applying a batch does to a file depends on the insertions into that file only.

## Main definitions

* `Generator.generateFound` — the request for files that were found.
* `Generator.Separable` — files that can as well be documented one by one.
* `Generator.Together` — the outcome for all files and the outcomes for each of them.
-/

namespace DocHeader

namespace Generator

variable {g : Generator} {c c' : Collected} {d d' d₁ : Desk} {file root : String}
  {files : List String} {scope : Scope}

/-- Document the declarations of files that were found in a directory, in the order in which
they are listed. -/
def generateFound (g : Generator) (scope : Scope) (root : String) (files : List String) :
    Work GenerationResult := do
  let c ← g.collectFound scope root files
  g.conclude c

/-! ## Shares of files -/

/-- The files of a directory bring what each of them brings to a request of its own. -/
theorem collectFiles_eq_gain (g : Generator) {share : String → Share} {alone : String → Desk}
    (hsource : g.builder.source.Respects fun _ _ => True)
    (hhelper : ∀ file ∈ files, g.surroundings.Respects (fun _ _ => True) file)
    (hdisk : ∀ file ∈ files, (alone file).disk = d.disk)
    (hshare : ∀ file ∈ files, ∃ d₁, g.collectFile file true (.start .file) (alone file) =
      (.ok ((Collected.start .file).gain (share file)), d₁))
    (hc : c.result.cancelled = false) (hcollect : g.collectFiles files c d = (.ok c', d'))
    (hc' : c'.result.cancelled = false) : c' = c.gain (.all (files.map share)) := by
  induction files generalizing c d with
  | nil =>
    obtain ⟨hsame, -⟩ := Prod.mk.inj hcollect
    exact (Except.ok.inj hsame).symm.trans c.gain_nothing.symm
  | cons file rest ih =>
    obtain ⟨hfirst, hothers⟩ := List.forall_mem_cons.mp hhelper
    obtain ⟨hsame, hsame'⟩ := List.forall_mem_cons.mp hdisk
    obtain ⟨⟨e₁, halone⟩, hshare'⟩ := List.forall_mem_cons.mp hshare
    rcases g.collectFiles_cons hc file rest d with
      ⟨-, d₁, -, hstopped⟩ | ⟨-, d₁, hlooked, -, hvisited⟩
    · rw [hstopped] at hcollect
      cases hcollect
      cases hc'
    have hdisk' := (g.collectFile_phase file false d₁ hc).disk_eq
    have halike : d₁.Alike (fun _ _ => True) (fun _ _ => True) (alone file) :=
      ⟨hlooked.keeps.disk.trans hsame.symm, trivial, trivial⟩
    have hmatched : Matched _ _ c (.start .file) _ _ :=
      collectFile_matched hsource hfirst false true halike hc rfl
    rw [halone] at hmatched
    generalize hfile : g.collectFile file false c d₁ = o at hmatched
    rw [hfile] at hdisk'
    generalize hright : (Collected.start .file).gain (share file) = right at hmatched
    cases hmatched with
    | left hstopped =>
      rw [(hvisited _ _ hfile).1 hstopped] at hcollect
      cases hcollect
      rw [hstopped] at hc'
      cases hc'
    | right hstopped =>
      rw [← hright] at hstopped
      cases hstopped
    | @gained s d₂ _ halike' =>
      obtain rfl := Collected.gain_injective _ hright
      obtain ⟨d₃, hadvanced, hrest⟩ := (hvisited _ _ hfile).2 hc
      rw [hrest] at hcollect
      have hback : d₃.disk = d.disk := by
        rw [hadvanced.keeps.disk, hdisk', hlooked.keeps.disk]
      rw [← hback] at hsame'
      rw [ih (c := c.gain (share file)) hothers hsame' hshare' hc hcollect, List.map_cons,
        Share.all, Collected.gain_append]

/-! ## Applying what was gained -/

/-- Where nothing goes wrong, finishing gives each file its insertions. -/
theorem finish_of_undisturbed (g : Generator) (hc : c.result.cancelled = false)
    (hcount : c.result.generated = c.batch.length)
    (hfits : c.batch.Fits g.writer d.disk.tree) (hj : g.writer.hazards.Undisturbed d.disk)
    (p : Place) :
    (g.finish c d).2.disk.tree.find? p =
      d.disk.tree.overwritten (c.batch.targets g.writer d.disk.tree) p := by
  by_cases hnone : c.result.generated = 0
  · rw [finish_of_idle g d (.inr hnone), List.length_eq_zero_iff.mp (hcount.symm.trans hnone)]
    rfl
  · have hempty : c.batch.isEmpty = false := by
      rw [List.isEmpty_eq_false_iff, ← List.length_pos_iff, ← hcount]
      omega
    obtain ⟨j', hcommit, hfound⟩ :=
      Writer.commit_of_undisturbed (j := ⟨d.disk, d.records⟩) hj hfits.targets_are_files
    have hstate := (EditBatch.apply_of_fits (j := ⟨d.disk, d.records⟩) hempty hfits).2
    rw [finish_of_pending g d hc (by omega)]
    rw [hcommit] at hstate
    simp only [hstate]
    exact hfound p

/-- Finishing changes nothing in a result but whether it was applied, and what is warned of. -/
theorem finish_fst (g : Generator) (c : Collected) (d : Desk) :
    ∃ applied warnings, (g.finish c d).1 = { c.result with applied, warnings } := by
  by_cases hidle : c.result.cancelled = true ∨ c.result.generated = 0
  · rw [finish_of_idle g d hidle]
    exact ⟨c.result.applied, c.result.warnings, rfl⟩
  · obtain ⟨hc, hpos⟩ := not_or.mp hidle
    rw [finish_of_pending g d (by simpa using hc) (by omega)]
    cases (c.batch.apply g.writer ⟨d.disk, d.records⟩).1 with
    | true => exact ⟨true, c.result.warnings, rfl⟩
    | false => exact ⟨c.result.applied, _, rfl⟩

/-- What is done to a file depends on the insertions into that file only. -/
theorem find?_eq_of_spliced {w : Writer} {t u u' : FileTree} {b b' : EditBatch}
    (h : b.Spliced w t u file) (h' : b'.Spliced w t u' file)
    (hsame : b.ofFile file = b'.ofFile file) :
    u.find? (w.placeOf file) = u'.find? (w.placeOf file) := by
  by_cases hnone : b.ofFile file = []
  · rw [h.kept hnone, h'.kept (hsame ▸ hnone)]
  · obtain ⟨text, htext, hfound⟩ := h.woven hnone
    obtain ⟨text', htext', hfound'⟩ := h'.woven (hsame ▸ hnone)
    rw [hfound, hfound', ← htext.textOf_eq, ← htext'.textOf_eq, hsame]

/-- Of what all files bring, a file gets what it brings itself. -/
theorem ofFile_flatMap {batch : String → EditBatch} (hfiles : files.Nodup)
    (hown : ∀ x ∈ files, ∀ i ∈ batch x, i.file = x) (hfile : file ∈ files) :
    EditBatch.ofFile (files.flatMap batch) file = batch file := by
  induction files with
  | nil => cases hfile
  | cons x rest ih =>
    obtain ⟨hx, hrest⟩ := List.nodup_cons.mp hfiles
    obtain ⟨hown, howns⟩ := List.forall_mem_cons.mp hown
    rw [List.flatMap_cons, EditBatch.ofFile, List.filter_append]
    by_cases heq : file = x
    · have hall : (batch x).filter (fun i => i.file == file) = batch x := by
        refine List.filter_eq_self.mpr ?_
        intro i hi
        rw [hown i hi, heq, beq_self_eq_true]
      have hnone : (rest.flatMap batch).filter (fun i => i.file == file) = [] := by
        refine List.filter_eq_nil_iff.mpr ?_
        intro i hi
        obtain ⟨y, hy, hiy⟩ := List.mem_flatMap.mp hi
        rw [howns y hy i hiy, beq_iff_eq, heq]
        rintro rfl
        exact hx hy
      rw [hall, hnone, List.append_nil, heq]
    · have hnone : (batch x).filter (fun i => i.file == file) = [] := by
        refine List.filter_eq_nil_iff.mpr ?_
        intro i hi
        rw [hown i hi, beq_iff_eq]
        exact Ne.symm heq
      rw [hnone, List.nil_append]
      exact ih hrest howns ((List.mem_cons.mp hfile).resolve_left heq)

/-! ## All files and each of them -/

/-- Files that can as well be documented one by one: they are distinct, they are source files
the writer may write to, and it meets no fault. The helper goes by the file and its text only,
the source of descriptions by the declaration only, and what the helper gives for a file
concerns that file alone. -/
structure Separable (g : Generator) (files : List String) (disk : Disk) : Prop where
  distinct : (files.map g.writer.placeOf).Nodup
  supported : ∀ file ∈ files, (SourceLanguage.ofFile? file).isSome = true
  within : ∀ file ∈ files, (g.writer.placeOf file).isWithin g.writer.base = true
  here : g.writer.here = g.surroundings.here
  undisturbed : g.writer.hazards.Undisturbed disk
  helper : ∀ earlier earlier' file text,
    g.surroundings.helper earlier file text = g.surroundings.helper earlier' file text
  answers : g.builder.source.Respects fun _ _ => True
  benign : ∀ file ∈ files, g.Benign disk.tree file

/-- The outcome of a request for all files is that of requests for each of them alone, which
are given by `single`: the counts are their sums, the failures are theirs in the order of the
files, each file holds what it does after its own request, and nothing else has changed. -/
structure Together (w : Writer) (files : List String) (t : FileTree) (r : GenerationResult)
    (t' : FileTree) (single : String → GenerationResult × Desk) : Prop where
  generated : r.generated = (files.map fun file => (single file).1.generated).sum
  processed : r.filesProcessed = (files.map fun file => (single file).1.filesProcessed).sum
  failures : r.failures = files.flatMap fun file => (single file).1.failures
  contents : ∀ file ∈ files,
    t'.find? (w.placeOf file) = (single file).2.disk.tree.find? (w.placeOf file)
  framed : ∀ p, (∀ file ∈ files, w.placeOf file ≠ p) → t'.find? p = t.find? p

theorem generateFound_of_collect (g : Generator)
    (hcollect : g.collectFound scope root files d = (.ok c, d₁)) :
    g.generateFound scope root files d = g.conclude c d₁ := by
  simp only [generateFound, Work.bind_apply, hcollect]

theorem generate_file_of_collect (g : Generator)
    (hsupported : (SourceLanguage.ofFile? file).isSome = true)
    (hcollect : g.collectFile file true (.start .file) d = (.ok c, d₁)) :
    g.generate (.file file) d = g.conclude c d₁ := by
  simp only [generate, collect, Work.bind_apply, checkLanguage_of_supported hsupported, hcollect]

/-- Where shares without a null place were gained, no place is null. -/
theorem unplaced_of_gained {P : Share → Prop}
    (h : c.result.cancelled = false →
      ∃ s, c = (Collected.start scope).gain s ∧ s.unplaced = [] ∧ P s) :
    c.result.cancelled = false → c.unplaced = [] := by
  intro hclear
  obtain ⟨s, rfl, hplaced, -⟩ := h hclear
  exact hplaced

/-- A request for a directory documents the files found there. -/
theorem generate_eq_generateFound (g : Generator) {t : Target} {selects : String → Bool}
    (ht : t = .folder root ∨ t = .workspace root) (hglob : Glob.selector g.glob = .ok selects)
    (hroot : d.disk.tree.isDirectory g.surroundings.here (Path.ofText root).text = true) :
    g.generate t d = g.generateFound t.scope root (g.filesIn root d) d := by
  have hdirectory (scope : Scope) : g.collectDirectory scope root d =
      g.collectFound scope root (g.filesIn root d) d := by
    simp only [collectDirectory, filesIn, hglob, Work.get_bind, hroot, Bool.not_true,
      Bool.false_eq_true, if_false]
  rcases ht with rfl | rfl
  · simp only [generate, generateFound, collect, Target.scope, Work.bind_apply, hdirectory]
  · simp only [generate, generateFound, collect, Target.scope, Work.bind_apply, hdirectory]

theorem collectFound_eq_gain (g : Generator) {share : String → Share} {alone : String → Desk}
    (h : g.Separable files d.disk) (hdisk : ∀ file ∈ files, (alone file).disk = d.disk)
    (hshare : ∀ file ∈ files, ∃ d₁, g.collectFile file true (.start .file) (alone file) =
      (.ok ((Collected.start .file).gain (share file)), d₁))
    (hcollect : g.collectFound scope root files d = (.ok c', d'))
    (hc' : c'.result.cancelled = false) :
    c' = (Collected.start scope).gain (.all (files.map share)) := by
  rcases g.collectFound_turns scope root files d with
    ⟨-, d₁, -, hfound⟩ | ⟨-, d₁, hbegun, hfound⟩ <;> rw [hfound] at hcollect
  · cases hcollect
    cases hc'
  · refine g.collectFiles_eq_gain h.answers ?_ ?_ hshare rfl hcollect hc'
    · intro file _ earlier earlier' _
      exact ⟨trivial, fun text => h.helper earlier earlier' file text⟩
    · intro file hfile
      rw [hdisk file hfile, hbegun.keeps.disk]

namespace Separable

variable {disk : Disk}

theorem distinct_places (h : g.Separable files disk) :
    ∀ x ∈ files, ∀ y ∈ files, g.writer.placeOf x = g.writer.placeOf y → x = y :=
  fun _ hx _ hy heq => List.inj_on_of_nodup_map h.distinct hx hy heq

/-- Insertions within the texts of the files fit. -/
theorem fits (h : g.Separable files disk) {b : EditBatch}
    (hb : ∀ i ∈ b, g.Placed disk.tree files i) : b.Fits g.writer disk.tree := by
  intro i hi
  obtain ⟨hfile, text, htext, hfits⟩ := hb i hi
  refine ⟨text, ⟨h.within _ hfile, ?_⟩, hfits⟩
  rw [Writer.placeOf, h.here]
  exact FileTree.readAt_of_read htext

theorem finish_find? (h : g.Separable files d.disk) {s : Share}
    (hs : ∀ i ∈ s.insertions, g.Placed d.disk.tree files i) (scope : Scope) (p : Place) :
    (g.finish ((Collected.start scope).gain s) d).2.disk.tree.find? p =
      d.disk.tree.overwritten (EditBatch.targets s.insertions g.writer d.disk.tree) p := by
  have hbatch : ((Collected.start scope).gain s).batch = s.insertions := List.nil_append _
  rw [g.finish_of_undisturbed rfl (by simp [Collected.gain]) (hbatch ▸ h.fits hs) h.undisturbed,
    hbatch]

/-- Finishing splices what was gained into each file. -/
theorem finish_spliced (h : g.Separable files d.disk) {s : Share}
    (hs : ∀ i ∈ s.insertions, g.Placed d.disk.tree files i) (scope : Scope)
    (hfile : file ∈ files) :
    EditBatch.Spliced s.insertions g.writer d.disk.tree
      (g.finish ((Collected.start scope).gain s) d).2.disk.tree file :=
  (h.fits hs).spliced (h.finish_find? hs scope) (fun i hi => (hs i hi).1) h.distinct_places hfile

end Separable

/-- What a request for one file has gained, unless it was cancelled. -/
theorem Separable.exists_share (h : g.Separable files d.disk) (hfile : file ∈ files)
    {single : GenerationResult × Desk}
    (hsingle : g.generate (.file file) d = (.ok single.1, single.2))
    (hcancelled : single.1.cancelled = false) :
    ∃ share d₁, (∀ i ∈ share.insertions, g.Placed d.disk.tree [file] i) ∧ d₁.disk = d.disk ∧
      g.collectFile file true (.start .file) d =
        (.ok ((Collected.start .file).gain share), d₁) ∧
      single = g.finish ((Collected.start .file).gain share) d₁ := by
  obtain ⟨c, d₁, hcollect, hgained⟩ :=
    g.collectFile_gains true (c := .start .file) (h.benign file hfile).passes rfl
  have hdisk := (g.collectFile_phase file true d (c := .start .file) rfl).disk_eq
  rw [g.generate_file_of_collect (h.supported file hfile) hcollect,
    g.conclude_of_placed d₁ (unplaced_of_gained hgained)] at hsingle
  obtain ⟨hresult, hdesk⟩ := Prod.mk.inj hsingle
  have heq : single = g.finish c d₁ := Prod.ext (Except.ok.inj hresult).symm hdesk.symm
  have hnot : c.result.cancelled = false := by
    rw [← (g.finish_spec c d₁).1, ← heq, hcancelled]
  obtain ⟨share, rfl, -, hshare⟩ := hgained hnot
  rw [hcollect] at hdisk
  exact ⟨share, d₁, hshare, hdisk, hcollect, heq⟩

/-- A request counts what it has gained. -/
theorem finish_counts (g : Generator) (scope : Scope) (s : Share) (d : Desk) :
    (g.finish ((Collected.start scope).gain s) d).1.generated = s.insertions.length ∧
      (g.finish ((Collected.start scope).gain s) d).1.filesProcessed = s.parsed ∧
      (g.finish ((Collected.start scope).gain s) d).1.failures = s.failures := by
  obtain ⟨applied, warnings, hresult⟩ := g.finish_fst ((Collected.start scope).gain s) d
  rw [hresult]
  simp [Collected.gain]

/-- What all files bring together comes to what each of them brings. -/
theorem Separable.together (h : g.Separable files d.disk) (scope : Scope)
    {share : String → Share} {left : String → Desk} {single : String → GenerationResult × Desk}
    (hplaced : ∀ file ∈ files, ∀ i ∈ (share file).insertions, g.Placed d.disk.tree [file] i)
    (hleft : ∀ file ∈ files, (left file).disk = d.disk)
    (hsingle : ∀ file ∈ files,
      single file = g.finish ((Collected.start .file).gain (share file)) (left file)) :
    Together g.writer files d.disk.tree
      (g.finish ((Collected.start scope).gain (.all (files.map share))) d).1
      (g.finish ((Collected.start scope).gain (.all (files.map share))) d).2.disk.tree single := by
  have hbatch : (Share.all (files.map share)).insertions =
      files.flatMap fun file => (share file).insertions := by
    rw [Share.insertions_all, List.flatMap_map]
  have howned : ∀ file ∈ files, ∀ i ∈ (share file).insertions, g.Placed d.disk.tree files i := by
    intro file hfile i hi
    obtain ⟨hmem, hfits⟩ := hplaced file hfile i hi
    exact ⟨List.mem_singleton.mp hmem ▸ hfile, hfits⟩
  have hall : ∀ i ∈ (Share.all (files.map share)).insertions, g.Placed d.disk.tree files i := by
    intro i hi
    rw [hbatch] at hi
    obtain ⟨file, hfile, hi⟩ := List.mem_flatMap.mp hi
    exact howned file hfile i hi
  have hfile_eq : ∀ file ∈ files, ∀ i ∈ (share file).insertions, i.file = file :=
    fun file hfile i hi => List.mem_singleton.mp (hplaced file hfile i hi).1
  have hcounts : ∀ file ∈ files, (single file).1.generated = (share file).insertions.length ∧
      (single file).1.filesProcessed = (share file).parsed ∧
      (single file).1.failures = (share file).failures := by
    intro file hfile
    rw [hsingle file hfile]
    exact g.finish_counts .file (share file) (left file)
  obtain ⟨hgenerated, hprocessed, hfailures⟩ := g.finish_counts scope (.all (files.map share)) d
  constructor
  case generated =>
    rw [hgenerated, hbatch, List.length_flatMap,
      List.map_congr_left fun file hfile => (hcounts file hfile).1]
  case processed =>
    rw [hprocessed, Share.parsed_all, List.map_map,
      List.map_congr_left fun file hfile => (hcounts file hfile).2.1]
    rfl
  case failures =>
    rw [hfailures, Share.failures_all, List.flatMap_map,
      List.flatMap_congr fun file hfile => (hcounts file hfile).2.2]
  case contents =>
    intro file hfile
    have hspliced := h.finish_spliced hall scope hfile
    have h' : g.Separable files (left file).disk := by rwa [hleft file hfile]
    have hspliced' := h'.finish_spliced (s := share file)
      (by rw [hleft file hfile]; exact howned file hfile) .file hfile
    rw [hleft file hfile, ← hsingle file hfile] at hspliced'
    refine find?_eq_of_spliced hspliced hspliced' ?_
    have hself : EditBatch.ofFile (share file).insertions file = (share file).insertions := by
      refine List.filter_eq_self.mpr ?_
      intro i hi
      rw [hfile_eq file hfile i hi, beq_self_eq_true]
    rw [hbatch, ofFile_flatMap (.of_map _ h.distinct) hfile_eq hfile, hself]
  case framed =>
    intro p hp
    rw [h.finish_find? hall, FileTree.overwritten_of_not_target]
    rintro ⟨q, text⟩ hx rfl
    obtain ⟨i, hi, hplace, -⟩ := EditBatch.mem_targets.mp hx
    exact hp _ (hall i hi).1 hplace.symm

/-- **A request for the files of a directory is the same as separate requests for each of them,
in any order.** Let some files be distinct source files, let what the helper gives go by the
file and its text and concern that file alone, let descriptions go by the declaration, and let
writing meet no fault. Then, in whatever order the files are listed, the request for all of
them has a result, and so have the requests for each file alone. Unless one of these was
cancelled, the count of headers for all files is the sum of their counts, the failures are
theirs in the order of the files, each file holds just what its own request leaves in it, and
nothing else has changed. The request for a folder or a workspace is that for the files found
there. -/
theorem generateFound_together (g : Generator) (scope : Scope) (root : String)
    (files : List String) (d : Desk) (alone : String → Desk) (h : g.Separable files d.disk)
    (halone : ∀ file ∈ files, (alone file).disk = d.disk) :
    (∃ r d', g.generateFound scope root files d = (.ok r, d')) ∧
    (∀ file ∈ files, ∃ r d', g.generate (.file file) (alone file) = (.ok r, d')) ∧
    (∀ r d' single, g.generateFound scope root files d = (.ok r, d') → r.cancelled = false →
      (∀ file ∈ files,
        g.generate (.file file) (alone file) = (.ok (single file).1, (single file).2) ∧
          (single file).1.cancelled = false) →
      Together g.writer files d.disk.tree r d'.disk.tree single) ∧
    ∀ t selects, t = .folder root ∨ t = .workspace root → Glob.selector g.glob = .ok selects →
      d.disk.tree.isDirectory g.surroundings.here (Path.ofText root).text = true →
      g.generate t d = g.generateFound t.scope root (g.filesIn root d) d := by
  have hbenign : ∀ file ∈ files, g.Benign (alone file).disk.tree file := by
    intro file hfile
    rw [halone file hfile]
    exact h.benign file hfile
  obtain ⟨c, d₁, hcollect, hgained⟩ := g.collectFound_gains scope root h.benign
  have hrun := (g.generateFound_of_collect hcollect).trans
    (g.conclude_of_placed d₁ (unplaced_of_gained hgained))
  refine ⟨⟨_, _, hrun⟩, ?_, ?_, fun t selects ht hglob => g.generate_eq_generateFound ht hglob⟩
  · intro file hfile
    obtain ⟨c₁, e, hcollect₁, hgained₁⟩ :=
      g.collectFile_gains true (c := .start .file) (hbenign file hfile).passes rfl
    exact ⟨_, _, (g.generate_file_of_collect (h.supported file hfile) hcollect₁).trans
      (g.conclude_of_placed e (unplaced_of_gained hgained₁))⟩
  intro r d' single hgenerate hcancelled hsingles
  rw [hrun] at hgenerate
  obtain ⟨hresult, rfl⟩ := Prod.mk.inj hgenerate
  obtain rfl := Except.ok.inj hresult
  have hnot : c.result.cancelled = false := by rw [← (g.finish_spec c d₁).1, hcancelled]
  have hshares : ∀ file ∈ files, ∃ share e,
      (∀ i ∈ share.insertions, g.Placed d.disk.tree [file] i) ∧ e.disk = d.disk ∧
        g.collectFile file true (.start .file) (alone file) =
          (.ok ((Collected.start .file).gain share), e) ∧
        single file = g.finish ((Collected.start .file).gain share) e := by
    intro file hfile
    have hsame := halone file hfile
    have h' : g.Separable files (alone file).disk := by rwa [hsame]
    rw [← hsame]
    exact h'.exists_share hfile (hsingles file hfile).1 (hsingles file hfile).2
  have : Nonempty Desk := ⟨d⟩
  choose! share left hplaced hleft hcollected hsingle using hshares
  obtain rfl := g.collectFound_eq_gain h halone
    (fun file hfile => ⟨left file, hcollected file hfile⟩) hcollect hnot
  have hdisk := (g.collectFound_phase scope root files d).disk_eq
  rw [hcollect] at hdisk
  rw [← hdisk] at h hplaced hleft ⊢
  exact h.together scope hplaced hleft hsingle

/-- Headers for files with one enumeration each. The helper is too slow for one of them. -/
def documentingSlowly : Generator where
  surroundings :=
    { helper := fun _ file _ =>
        if file == "b.ts" then .timedOut else .finished enumeration.compact "" 0 }
  builder := ⟨{}, .blank "", { year := 2024, month := 1, day := 1 }⟩
  writer := ⟨[], [], {}⟩

/-- A disk with three files. -/
def threeFiles : Desk where
  disk :=
    { tree := ⟨[(["a.ts"], .file (.text "e")), (["b.ts"], .file (.text "e")),
        (["c.ts"], .file (.text "e"))]⟩ }

theorem threeFiles_separable :
    documentingSlowly.Separable ["c.ts", "b.ts", "a.ts"] threeFiles.disk where
  distinct := by decide
  supported := by decide
  within := by decide
  here := rfl
  undisturbed := .of_clean (FileTree.clean_of_names (by decide))
  helper _ _ _ _ := rfl
  answers := DescriptionSource.fixed_respects "" ""
  benign := by
    have hread : ∀ file ∈ ["c.ts", "b.ts", "a.ts"],
        threeFiles.disk.tree.read [] file = .ok "e" ∧
          (documentingSlowly.surroundings.helper [] file "e").isBenign file "e" = true := by
      decide +kernel
    intro file hfile text htext earlier
    obtain ⟨hholds, hbenign⟩ := hread file hfile
    obtain rfl : "e" = text := Except.ok.inj (hholds.symm.trans htext)
    exact hbenign

/-- Of three files two get their headers, and one is recorded as failed. Each of them is as it
would be after a request of its own. -/
theorem generateFound_together_of_three :
    documentingSlowly.Separable ["c.ts", "b.ts", "a.ts"] threeFiles.disk ∧
    ∃ r d' single,
      documentingSlowly.generateFound .folder "." ["c.ts", "b.ts", "a.ts"] threeFiles =
        (.ok r, d') ∧
      r.generated = 2 ∧ r.failures.map (·.file) = ["b.ts"] ∧
      Together documentingSlowly.writer ["c.ts", "b.ts", "a.ts"] threeFiles.disk.tree r
        d'.disk.tree single := by
  obtain ⟨⟨r, d', hrun⟩, halone, htogether, -⟩ := generateFound_together documentingSlowly .folder
    "." _ threeFiles (fun _ => threeFiles) threeFiles_separable (fun _ _ => rfl)
  have hresult : (documentingSlowly.generateFound .folder "." ["c.ts", "b.ts", "a.ts"]
      threeFiles).1.toOption.map
        (fun r : GenerationResult => (r.generated, r.failures.map (·.file), r.cancelled)) =
      some (2, ["b.ts"], false) := by decide +kernel
  have hcalm : ∀ file ∈ ["c.ts", "b.ts", "a.ts"],
      (documentingSlowly.generate (.file file) threeFiles).1.toOption.map
        (fun r : GenerationResult => r.cancelled) = some false := by decide +kernel
  rw [hrun] at hresult
  obtain ⟨hgenerated, hfailures, hcancelled⟩ : r.generated = 2 ∧
      r.failures.map (·.file) = ["b.ts"] ∧ r.cancelled = false := by
    simpa [Except.toOption] using hresult
  have : Nonempty GenerationResult := ⟨r⟩
  have : Nonempty Desk := ⟨d'⟩
  choose! result left hgenerate using halone
  refine ⟨threeFiles_separable, r, d', fun file => (result file, left file), hrun, hgenerated,
    hfailures, htogether r d' _ hrun hcancelled ?_⟩
  intro file hfile
  have hnot := hcalm file hfile
  rw [hgenerate file hfile] at hnot
  exact ⟨hgenerate file hfile, Option.some.inj hnot⟩

end Generator

end DocHeader

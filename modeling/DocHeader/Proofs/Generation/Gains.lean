import DocHeader.Proofs.Declaration.Pending
import DocHeader.Proofs.Edit.Woven
import DocHeader.Proofs.Generation.Shares
import DocHeader.Proofs.Header.Lines

/-!
# Requests that are not given up

Where nothing but failures of single files goes wrong, a request for files is not given up:
each failure is recorded, and the builder refuses no declaration of a file. What is gained are
insertions into the files that were asked for, each within the text that is read there.

## Main definitions

* `HelperRun.isBenign` — a run of the helper that concerns its file alone.
* `Generator.Gains` — the outcome of a part of the collecting that is not given up.
* `Generator.Placed` — an insertion within the text of its file.
-/

namespace DocHeader

/-- A run of the helper on a text concerns its file alone: it gives a tree with fields of their
types and declarations that begin within the text, or a failure that gets recorded. -/
def HelperRun.isBenign (run : HelperRun) (file text : String) : Bool :=
  match run.parse file text with
  | .ok root => root.isTyped && root.pending.all fun f =>
      decide (0 ≤ f.insertionOffset ∧ f.insertionOffset ≤ text.length)
  | .error e => e.isRecoverable

namespace Generator

open Desk

variable {g : Generator} {c : Collected} {d : Desk} {file text : String}
  {files : List String} {P P' : Insertion → Prop}
  {o : Except GenerationFault Collected × Desk}

/-- What is collected at the beginning. -/
abbrev Collected.start (scope : Scope) : Collected := { result := { scope } }

/-! ## Requests that have a result -/

/-- A part of the collecting is not given up, and unless it is cancelled it gains insertions
that satisfy `P`. -/
def Gains (P : Insertion → Prop) (c : Collected) (o : Except GenerationFault Collected × Desk) :
    Prop :=
  ∃ c₁ d₁, o = (.ok c₁, d₁) ∧
    (c₁.result.cancelled = false →
      ∃ s, c₁ = c.gain s ∧ s.unplaced = [] ∧ ∀ i ∈ s.insertions, P i)

theorem Gains.nothing : Gains P c (.ok c, d) := by
  refine ⟨c, d, rfl, fun _ => ⟨{}, c.gain_nothing.symm, rfl, ?_⟩⟩
  intro i hi
  cases hi

theorem Gains.stopped : Gains P c (.ok c.stop, d) := by
  refine ⟨c.stop, d, rfl, ?_⟩
  intro hset
  cases hset

theorem Gains.after {s : Share} (hplaced : s.unplaced = []) (hs : ∀ i ∈ s.insertions, P i)
    (h : Gains P (c.gain s) o) : Gains P c o := by
  obtain ⟨c₁, d₁, rfl, hgained⟩ := h
  refine ⟨c₁, d₁, rfl, ?_⟩
  intro hc₁
  obtain ⟨t, rfl, hplaced', ht⟩ := hgained hc₁
  refine ⟨s ++ t, c.gain_append s t |>.symm, by simp [hplaced, hplaced'], ?_⟩
  intro i hi
  rcases List.mem_append.mp hi with hi | hi
  · exact hs i hi
  · exact ht i hi

theorem Gains.mono (hP : ∀ i, P i → P' i) (h : Gains P c o) : Gains P' c o := by
  obtain ⟨c₁, d₁, rfl, hgained⟩ := h
  refine ⟨c₁, d₁, rfl, ?_⟩
  intro hc₁
  obtain ⟨s, hs, hplaced, hmem⟩ := hgained hc₁
  exact ⟨s, hs, hplaced, fun i hi => hP i (hmem i hi)⟩

/-- A declaration of a file gets a header, when nothing stops its build. -/
theorem header_of_pending (g : Generator) {tree f : Focus} (hf : f ∈ tree.pending)
    (hgoes : ¬g.builder.Stops f false) (text : String) (d : Desk) :
    ∃ header d₁, g.header f text false d = (.ok header, d₁) := by
  obtain ⟨kind, hkind⟩ := g.builder.kindOf_of_mem_pending hf
  obtain ⟨draft, hdraft, -, -⟩ := g.builder.build_of_kind f hkind ⟨d.exchange, d.records⟩
  rw [← Builder.attempt_of_not_stops hgoes] at hdraft
  rcases hbuild : g.builder.attempt f false ⟨d.exchange, d.records⟩ with ⟨built, j⟩
  rw [hbuild] at hdraft
  obtain rfl : built = .ok draft := hdraft
  simp only [header, Desk.bind_apply, onExchange, hbuild, Desk.pure_apply]
  exact ⟨_, _, rfl⟩

theorem collectDeclarations_gains (g : Generator) (reporting : Bool) {tree : Focus}
    {pending : List Focus} (hpending : ∀ f ∈ pending, f ∈ tree.pending)
    (hgoes : ∀ f ∈ pending, ¬g.builder.Stops f false)
    (hP : ∀ f ∈ pending, ∀ header, P ⟨file, f.insertionOffset, header⟩)
    (hc : c.result.cancelled = false) :
    Gains P c (g.collectDeclarations file text reporting pending c d) := by
  induction pending generalizing c d with
  | nil => exact .nothing
  | cons f rest ih =>
    obtain ⟨hf, hrest⟩ := List.forall_mem_cons.mp hpending
    obtain ⟨hgoesf, hgoesrest⟩ := List.forall_mem_cons.mp hgoes
    obtain ⟨hPf, hPrest⟩ := List.forall_mem_cons.mp hP
    obtain ⟨header, d₁, hheader⟩ := g.header_of_pending hf hgoesf text d
    rcases g.collectDeclarations_of_built reporting hc hheader with
      ⟨-, d₂, -, hcollect⟩ | ⟨-, d₂, -, hcollect⟩ <;> rw [hcollect]
    · exact .stopped
    · rw [Collected.add_eq_gain]
      refine Gains.after rfl ?_ (ih hrest hgoesrest hPrest hc)
      intro i hi
      rw [List.mem_singleton.mp hi]
      exact hPf header

/-- An insertion into one of the files, within the text that is read there. -/
def Placed (g : Generator) (t : FileTree) (files : List String) (i : Insertion) : Prop :=
  i.file ∈ files ∧ ∃ text, t.read g.surroundings.here i.file = .ok text ∧ i.Fits text.length

/-- Whatever the helper is given before, its run on a file concerns that file alone. -/
def Benign (g : Generator) (t : FileTree) (file : String) : Prop :=
  ∀ text, t.read g.surroundings.here file = .ok text →
    ∀ earlier, (g.surroundings.helper earlier file text).isBenign file text = true

/-- What the helper gives for a file does not give a request up: a failure that gets recorded, or
a tree in which nothing stops the build of a header and no place for one is null. Its headers
satisfy `P`. -/
def Passes (g : Generator) (P : Insertion → Prop) (file : String) (run : HelperRun)
    (text : String) : Prop :=
  (∃ e, run.parse file text = .error e ∧ e.isRecoverable = true) ∨
    ∃ tree, run.parse file text = .ok tree ∧
      ∀ f ∈ tree.pending, ¬g.builder.Stops f false ∧ f.isUnplaced = false ∧
        ∀ header, P ⟨file, f.insertionOffset, header⟩

theorem collectFile_gains (g : Generator) (reporting : Bool)
    (hpasses : ∀ text, d.disk.tree.read g.surroundings.here file = .ok text →
      ∀ earlier, g.Passes P file (g.surroundings.helper earlier file text) text)
    (hc : c.result.cancelled = false) : Gains P c (g.collectFile file reporting c d) := by
  rcases hread : readText g.surroundings file d with ⟨e | text, d₁⟩
  · obtain ⟨d₂, -, hcollect⟩ := g.collectFile_of_unread (c := c) reporting hread
    rw [hcollect, Collected.fail_eq_gain]
    exact .after rfl (by simp) .nothing
  rcases g.collectFile_of_read reporting hc hread with
    ⟨-, d₂, -, hcollect⟩ | ⟨-, d₂, -, htree, hfailed⟩
  · rw [hcollect]
    exact .stopped
  have htext : d.disk.tree.read g.surroundings.here file = .ok text := by
    rw [← readText_fst, hread]
  have hrun := hpasses text htext d₂.parsed
  rcases hparse : parse g.surroundings file text d₂ with ⟨e | tree, d₃⟩ <;>
    rw [Passes, ← parse_fst, hparse] at hrun
  · obtain ⟨_, ⟨⟩, hrecoverable⟩ | ⟨_, ⟨⟩, -⟩ := hrun
    obtain ⟨d₄, -, hcollect⟩ := (hfailed e d₃ hparse).1 hrecoverable
    rw [hcollect, Collected.fail_eq_gain]
    exact .after rfl (by simp) .nothing
  · obtain ⟨_, ⟨⟩, -⟩ | ⟨_, ⟨⟩, hheaders⟩ := hrun
    have hplaced : tree.pending.any Focus.isUnplaced = false :=
      List.any_eq_false.mpr fun f hf => by simp [(hheaders f hf).2.1]
    rcases g.collectTree_turns reporting file text tree c d₃ with
      ⟨hunsorted, -⟩ | ⟨-, d₄, -, hcollect⟩
    · simp [Focus.isUnsortable, hplaced] at hunsorted
    rw [htree tree d₃ hparse, hcollect, Collected.countFile_eq_gain]
    exact .after (by simp [unplacedIn, hplaced]) (by simp)
      (g.collectDeclarations_gains reporting (fun f hf => hf)
        (fun f hf => (hheaders f hf).1) (fun f hf => (hheaders f hf).2.2) hc)

/-- A run that concerns its file alone does not give a request up, and its headers are placed
within the text. -/
theorem Benign.passes {t : FileTree} (h : g.Benign t file) (text : String)
    (htext : t.read g.surroundings.here file = .ok text) (earlier : List String) :
    g.Passes (g.Placed t [file]) file (g.surroundings.helper earlier file text) text := by
  have hrun := h text htext earlier
  rw [HelperRun.isBenign] at hrun
  split at hrun
  · rename_i tree hparse
    obtain ⟨htyped, hwithin⟩ := (Bool.and_eq_true _ _).mp hrun
    refine .inr ⟨tree, hparse, fun f hf => ⟨?_, ?_, fun header => ?_⟩⟩
    · exact Builder.not_stops_of_isTyped (Focus.isTyped_of_mem_pending htyped hf)
    · exact Focus.isUnplaced_of_isTyped (Focus.isTyped_of_mem_pending htyped hf)
    · have hoffset := List.all_eq_true.mp hwithin f hf
      exact ⟨List.mem_singleton.mpr rfl, text, htext, by simpa [Insertion.Fits] using hoffset⟩
  · rename_i e hparse
    exact .inl ⟨e, hparse, hrun⟩

theorem collectFiles_gains (g : Generator) (hbenign : ∀ file ∈ files, g.Benign d.disk.tree file)
    (hc : c.result.cancelled = false) :
    Gains (g.Placed d.disk.tree files) c (g.collectFiles files c d) := by
  induction files generalizing c d with
  | nil => exact .nothing
  | cons file rest ih =>
    obtain ⟨hfirst, hothers⟩ := List.forall_mem_cons.mp hbenign
    rcases g.collectFiles_cons hc file rest d with
      ⟨-, d₁, -, hcollect⟩ | ⟨-, d₁, hlooked, -, hvisited⟩
    · rw [hcollect]
      exact .stopped
    rw [← hlooked.keeps.disk] at hfirst
    have hdisk := (g.collectFile_phase file false d₁ hc).disk_eq
    obtain ⟨c₁, d₂, hfile, hgained⟩ := g.collectFile_gains false hfirst.passes hc
    rw [hfile] at hdisk
    cases hstopped : c₁.result.cancelled with
    | true =>
      rw [(hvisited _ _ hfile).1 hstopped]
      refine ⟨c₁, d₂, rfl, ?_⟩
      intro hnot
      rw [hstopped] at hnot
      cases hnot
    | false =>
      obtain ⟨s, rfl, hplaced, hs⟩ := hgained hstopped
      obtain ⟨d₃, hadvanced, hrest⟩ := (hvisited _ _ hfile).2 hc
      have hback : d₃.disk = d.disk := by rw [hadvanced.keeps.disk, hdisk, hlooked.keeps.disk]
      have hgains := ih (c := c.gain s) (hback ▸ hothers) hc
      rw [hrest]
      rw [hback] at hgains
      rw [hlooked.keeps.disk] at hs
      refine .after hplaced ?_ (hgains.mono ?_)
      · intro i hi
        obtain ⟨hmem, hfits⟩ := hs i hi
        exact ⟨List.mem_cons.mpr (.inl (List.mem_singleton.mp hmem)), hfits⟩
      · intro i hi
        exact ⟨List.mem_cons_of_mem file hi.1, hi.2⟩

theorem collectFound_gains (g : Generator) (scope : Scope) (root : String)
    (hbenign : ∀ file ∈ files, g.Benign d.disk.tree file) :
    Gains (g.Placed d.disk.tree files) (.start scope)
      (g.collectFound scope root files d) := by
  rcases g.collectFound_turns scope root files d with
    ⟨-, d₁, -, hcollect⟩ | ⟨-, d₁, hbegun, hcollect⟩ <;> rw [hcollect]
  · exact .stopped
  · rw [← hbegun.keeps.disk] at hbenign ⊢
    exact g.collectFiles_gains hbenign rfl

end Generator

end DocHeader

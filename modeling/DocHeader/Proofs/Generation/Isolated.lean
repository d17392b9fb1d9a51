import DocHeader.Proofs.Generation.Accounts
import DocHeader.Proofs.Syntax.Described

/-!
# One file among others

What one file does to a request for a directory. A file that cannot be read, or for which the
helper gives a failure that gets recorded, does nothing to the others: what is collected for
them is what would be collected without it. The same is true of a file with a tree, whatever
its fields hold, as long as nothing stops the builds in it and no place for a header is null.
But a tree in which a node lacks a field that is needed, or has a value that no node can be made
of, gives the whole request up. So does a tree with a field that a header cannot be built from,
and a place that is null: at once when it has to be put in order with others, and otherwise when
what was collected is applied.

## Main definitions

* `Generator.Fails`, `Generator.Succeeds`, `Generator.Breaks`, `Generator.Misplaces` — files of
  these four sorts.
* `Generator.Spared` — the outcomes of a request with a file and of one without it.
-/

namespace DocHeader

/-- A failure of a file, and nothing else. -/
def Share.IsFailureOf (s : Share) (file : String) : Prop :=
  ∃ reason, s = { failures := [⟨file, reason⟩] }

/-- The headers of a file that was parsed, and nothing else. -/
structure Share.IsHeadersOf (s : Share) (file : String) : Prop where
  failures : s.failures = []
  parsed : s.parsed = 1
  insertions : ∀ i ∈ s.insertions, i.file = file
  unplaced : s.unplaced = []

namespace Generator

open Desk

variable {g : Generator} {c c' c₁ : Collected} {d d' d₁ : Desk} {bad root file text : String}
  {files before after : List String} {scope : Scope} {t : FileTree} {own : Share → Prop}
  {R : Exchange → Exchange → Prop} {f : Focus} {pending : List Focus}

/-- A file cannot be read, or cannot be parsed for a reason that gets recorded. -/
def Fails (g : Generator) (t : FileTree) (bad : String) : Prop :=
  ∀ text, t.read g.surroundings.here bad = .ok text → ∀ earlier,
    ∃ e, (g.surroundings.helper earlier bad text).parse bad text = .error e ∧
      e.isRecoverable = true

/-- A file can be read and has a tree, nothing stops the builds in it, and no place for a header
is null. -/
def Succeeds (g : Generator) (t : FileTree) (bad : String) : Prop :=
  ∃ text, t.read g.surroundings.here bad = .ok text ∧ ∀ earlier,
    ∃ tree, (g.surroundings.helper earlier bad text).parse bad text = .ok tree ∧
      ∀ f ∈ tree.pending, ¬g.builder.Stops f false ∧ f.isUnplaced = false

/-- A file can be read, but what the helper prints for it describes no tree, or one whose
declarations cannot be put in order, or one in which a build is stopped. -/
def Breaks (g : Generator) (t : FileTree) (bad : String) : Prop :=
  ∃ text, t.read g.surroundings.here bad = .ok text ∧ ∀ earlier,
    (g.surroundings.helper earlier bad text).Misprints text ∨
      ∃ tree, (g.surroundings.helper earlier bad text).parse bad text = .ok tree ∧
        (tree.isUnsortable = true ∨ ∃ f ∈ tree.pending, g.builder.Stops f false)

/-- A file can be read and has a tree with one declaration to document, whose place is null. -/
def Misplaces (g : Generator) (t : FileTree) (bad : String) : Prop :=
  ∃ text, t.read g.surroundings.here bad = .ok text ∧ ∀ earlier,
    ∃ tree f, (g.surroundings.helper earlier bad text).parse bad text = .ok tree ∧
      tree.pending = [f] ∧ f.isUnplaced = true

/-- Where the helper goes by a file and its text only, each file is of one of the four sorts. -/
theorem fails_or_succeeds_or_breaks_or_misplaces (t : FileTree)
    (hhelper : ∀ earlier earlier' text,
      g.surroundings.helper earlier bad text = g.surroundings.helper earlier' bad text) :
    g.Fails t bad ∨ g.Succeeds t bad ∨ g.Breaks t bad ∨ g.Misplaces t bad := by
  cases hread : t.read g.surroundings.here bad with
  | error e =>
    refine .inl fun text htext => ?_
    rw [hread] at htext
    cases htext
  | ok text =>
    let run := g.surroundings.helper [] bad text
    have hsame (earlier : List String) : g.surroundings.helper earlier bad text = run :=
      hhelper earlier [] text
    by_cases hmisprints : run.Misprints text
    · exact .inr (.inr (.inl ⟨text, hread, fun earlier => .inl (hsame earlier ▸ hmisprints)⟩))
    rcases (run.not_misprints_iff text bad).mp hmisprints with ⟨tree, htree⟩ | ⟨e, hfailed, he⟩
    case inr =>
      refine .inl fun text' htext earlier => ⟨e, ?_, he⟩
      obtain rfl : text = text' := Except.ok.inj (hread.symm.trans htext)
      rw [hsame, hfailed]
    by_cases hbreaks : tree.isUnsortable = true ∨ ∃ f ∈ tree.pending, g.builder.Stops f false
    · refine .inr (.inr (.inl ⟨text, hread, fun earlier => .inr ⟨tree, ?_, hbreaks⟩⟩))
      rw [hsame, htree]
    obtain ⟨hsorted, hgoes⟩ := not_or.mp hbreaks
    by_cases hplaced : ∀ f ∈ tree.pending, f.isUnplaced = false
    · refine .inr (.inl ⟨text, hread, fun earlier => ⟨tree, ?_, fun f hf =>
        ⟨fun hstops => hgoes ⟨f, hf, hstops⟩, hplaced f hf⟩⟩⟩)
      rw [hsame, htree]
    · -- a null place that need not be compared with others is the only one
      simp only [not_forall, Bool.not_eq_false] at hplaced
      obtain ⟨f, hf, hunplaced⟩ := hplaced
      have hany : tree.pending.any Focus.isUnplaced = true :=
        List.any_eq_true.mpr ⟨f, hf, hunplaced⟩
      have hsingle : tree.pending.length ≤ 1 := by
        simpa [Focus.isUnsortable, hany] using hsorted
      obtain ⟨only, hpending⟩ : ∃ only, tree.pending = [only] :=
        List.length_eq_one_iff.mp (Nat.le_antisymm hsingle (List.length_pos_of_mem hf))
      obtain rfl : f = only := List.mem_singleton.mp (hpending ▸ hf)
      refine .inr (.inr (.inr ⟨text, hread, fun earlier => ⟨tree, f, ?_, hpending, hunplaced⟩⟩))
      rw [hsame, htree]

/-- What the helper was given is the same, apart from a file. -/
def SameBut (bad : String) (earlier earlier' : List String) : Prop :=
  earlier.filter (· != bad) = earlier'.filter (· != bad)

theorem sameBut_equivalence (bad : String) : Equivalence (SameBut bad) :=
  InvImage.equivalence Eq (List.filter (· != bad)) eq_equivalence

/-- The outcomes of two requests, only the first of which visits a certain file. They were given
up for the same reason, or have collected the same, but that the first has gained a share
besides, which is what `own` says of it. Nothing is said when one of them was cancelled. -/
inductive Spared (own : Share → Prop) :
    Except GenerationFault Collected → Except GenerationFault Collected → Prop where
  | failed {e : GenerationFault} : Spared own (.error e) (.error e)
  | collected {c : Collected} {s rest : Share} (hown : own s) :
    Spared own (.ok ((c.gain s).gain rest)) (.ok (c.gain rest))
  | left {c : Collected} {o' : Except GenerationFault Collected}
    (hstopped : c.result.cancelled = true) : Spared own (.ok c) o'
  | right {c' : Collected} {o : Except GenerationFault Collected}
    (hstopped : c'.result.cancelled = true) : Spared own o (.ok c')

/-! ## Files that break a request -/

/-- A declaration whose build is stopped gets no header. -/
theorem header_of_stops (g : Generator) {snippet : Bool} (hstops : g.builder.Stops f snippet)
    (text : String) (d : Desk) : ∃ e d₁, g.header f text snippet d = (.error e, d₁) := by
  obtain ⟨fault, j, hattempt⟩ := Builder.attempt_of_stops hstops ⟨d.exchange, d.records⟩
  simp only [header, Desk.bind_apply, onExchange, hattempt, Desk.pure_apply]
  exact ⟨_, _, rfl⟩

theorem collectDeclarations_of_stops {reporting : Bool} (hf : f ∈ pending)
    (hstops : g.builder.Stops f false) (hc : c.result.cancelled = false)
    (hcollect : g.collectDeclarations file text reporting pending c d = (.ok c₁, d₁)) :
    c₁.result.cancelled = true := by
  induction pending generalizing c d with
  | nil => cases hf
  | cons first rest ih =>
    rcases g.header_cases first text false d with
      ⟨header, d₂, hheader, -⟩ | ⟨e, d₂, hheader, -⟩
    case inr =>
      rw [g.collectDeclarations_of_unbuilt reporting hheader] at hcollect
      cases hcollect
    rcases g.collectDeclarations_of_built reporting hc hheader with
      ⟨-, d₃, -, hstopped⟩ | ⟨-, d₃, -, hrest⟩
    · rw [hstopped] at hcollect
      cases hcollect
      rfl
    · rw [hrest] at hcollect
      rcases List.mem_cons.mp hf with rfl | hf
      · obtain ⟨e, d₄, hunbuilt⟩ := g.header_of_stops hstops text d
        rw [hheader] at hunbuilt
        cases hunbuilt
      · exact ih (c := c.add _) hf hc hcollect

/-- A visit to a file that can be read is cancelled, or goes by what the helper prints for it: a
failure is recorded, or the headers of a tree are collected. -/
theorem collectFile_of_readable (reporting : Bool)
    (htext : d.disk.tree.read g.surroundings.here bad = .ok text)
    (hc : c.result.cancelled = false)
    (hcollect : g.collectFile bad reporting c d = (.ok c₁, d₁))
    (hnot : c₁.result.cancelled = false) :
    ∃ d₂ d₃ : Desk,
      (∃ e, (g.surroundings.helper d₂.parsed bad text).parse bad text = .error e ∧
        e.isRecoverable = true) ∨
      ∃ tree, (g.surroundings.helper d₂.parsed bad text).parse bad text = .ok tree ∧
        g.collectTree bad text reporting tree c d₃ = (.ok c₁, d₁) := by
  have hread : readText g.surroundings bad d = (.ok text, (readText g.surroundings bad d).2) :=
    Prod.ext ((readText_fst _ _ _).trans htext) rfl
  rcases g.collectFile_of_read reporting hc hread with
    ⟨-, d₂, -, hstopped⟩ | ⟨-, d₂, -, htree, hfailed⟩
  · rw [hstopped] at hcollect
    cases hcollect
    cases hnot
  have hrun := parse_fst g.surroundings bad text d₂
  rcases hparse : parse g.surroundings bad text d₂ with ⟨e | tree, d₃⟩ <;> rw [hparse] at hrun
  · cases hrecoverable : e.isRecoverable with
    | true => exact ⟨d₂, d₃, .inl ⟨e, hrun.symm, hrecoverable⟩⟩
    | false =>
      rw [(hfailed e d₃ hparse).2 hrecoverable] at hcollect
      cases hcollect
  · rw [htree tree d₃ hparse] at hcollect
    exact ⟨d₂, d₃, .inr ⟨tree, hrun.symm, hcollect⟩⟩

/-- A visit to a file that breaks a request gives it up, unless it is cancelled. -/
theorem collectFile_of_breaks (reporting : Bool) (hbad : g.Breaks d.disk.tree bad)
    (hc : c.result.cancelled = false)
    (hcollect : g.collectFile bad reporting c d = (.ok c₁, d₁)) :
    c₁.result.cancelled = true := by
  by_contra hnot
  rw [Bool.not_eq_true] at hnot
  obtain ⟨text, htext, hhelper⟩ := hbad
  obtain ⟨d₂, d₃, ⟨e, hfailed, hrecoverable⟩ | ⟨tree, hparsed, htree⟩⟩ :=
    collectFile_of_readable reporting htext hc hcollect hnot
  · rcases hhelper d₂.parsed with hmisprints | ⟨tree, hparsed, -⟩
    · exact absurd hmisprints
        ((HelperRun.not_misprints_iff _ _ bad).mpr (.inr ⟨e, hfailed, hrecoverable⟩))
    · rw [hfailed] at hparsed
      cases hparsed
  · rcases hhelper d₂.parsed with hmisprints | ⟨tree', hparsed', hbreaks⟩
    · exact absurd hmisprints ((HelperRun.not_misprints_iff _ _ bad).mpr (.inl ⟨tree, hparsed⟩))
    obtain rfl : tree = tree' := Except.ok.inj (hparsed.symm.trans hparsed')
    rcases g.collectTree_turns reporting bad text tree c d₃ with
      ⟨-, hunusable⟩ | ⟨hsorted, d₄, -, hdeclarations⟩
    · rw [hunusable] at htree
      cases htree
    rw [hdeclarations] at htree
    rcases hbreaks with hunsorted | ⟨f, hf, hstops⟩
    · rw [hsorted] at hunsorted
      cases hunsorted
    · rw [collectDeclarations_of_stops (c := c.countFile bad tree) hf hstops hc htree] at hnot
      cases hnot

/-- A header for a file was collected, and the place of one is null. -/
def Collected.Misplaced (bad : String) (c : Collected) : Prop :=
  bad ∈ c.unplaced ∧ ∃ i ∈ c.batch, i.file = bad

theorem Collected.Misplaced.gain (h : c.Misplaced bad) (s : Share) : (c.gain s).Misplaced bad := by
  obtain ⟨hunplaced, i, hi, hfile⟩ := h
  exact ⟨List.mem_append_left _ hunplaced, i, List.mem_append_left _ hi, hfile⟩

/-- A visit to a file whose only declaration has no place collects its header all the same. -/
theorem collectFile_of_misplaces (reporting : Bool) (hbad : g.Misplaces d.disk.tree bad)
    (hc : c.result.cancelled = false)
    (hcollect : g.collectFile bad reporting c d = (.ok c₁, d₁))
    (hnot : c₁.result.cancelled = false) :
    c₁.Misplaced bad := by
  obtain ⟨text, htext, hhelper⟩ := hbad
  obtain ⟨d₂, d₃, ⟨e, hfailed, -⟩ | ⟨tree, hparsed, htree⟩⟩ :=
    collectFile_of_readable reporting htext hc hcollect hnot
  · obtain ⟨tree, f, hparsed, -⟩ := hhelper d₂.parsed
    rw [hfailed] at hparsed
    cases hparsed
  obtain ⟨tree', f, hparsed', hpending, hunplaced⟩ := hhelper d₂.parsed
  obtain rfl : tree = tree' := Except.ok.inj (hparsed.symm.trans hparsed')
  rcases g.collectTree_turns reporting bad text tree c d₃ with
    ⟨-, hunusable⟩ | ⟨-, d₄, -, hdeclarations⟩
  · rw [hunusable] at htree
    cases htree
  rw [hdeclarations, hpending] at htree
  rcases g.header_cases f text false d₄ with ⟨header, d₅, hheader, -⟩ | ⟨e, d₅, hheader, -⟩
  case inr =>
    rw [g.collectDeclarations_of_unbuilt reporting hheader] at htree
    cases htree
  rcases g.collectDeclarations_of_built (c := c.countFile bad tree) reporting hc hheader with
    ⟨-, d₆, -, hstopped⟩ | ⟨-, d₆, -, hrest⟩
  · rw [hstopped] at htree
    cases htree
    cases hnot
  · rw [hrest] at htree
    cases htree
    simp [Collected.Misplaced, Collected.add, Collected.countFile, unplacedIn, hpending, hunplaced]

/-- What a visit to a file leaves in what is collected is still there when all files were visited,
unless the run is cancelled. -/
theorem collectFiles_of_visit {Q : Collected → Prop} (hkept : ∀ c s, Q c → Q (c.gain s))
    (hvisit : ∀ c d' c₁ d₁, d'.disk = d.disk → c.result.cancelled = false →
      g.collectFile bad false c d' = (.ok c₁, d₁) → c₁.result.cancelled = false → Q c₁)
    (hmem : bad ∈ files) (hc : c.result.cancelled = false)
    (hcollect : g.collectFiles files c d = (.ok c₁, d₁)) (hnot : c₁.result.cancelled = false) :
    Q c₁ := by
  induction files generalizing c d with
  | nil => cases hmem
  | cons file rest ih =>
    rcases g.collectFiles_cons hc file rest d with
      ⟨-, d₂, -, hstopped⟩ | ⟨-, d₂, hlooked, hraised, hvisited⟩
    · rw [hstopped] at hcollect
      cases hcollect
      cases hnot
    have hdisk := (g.collectFile_phase file false d₂ hc).disk_eq
    rcases hfile : g.collectFile file false c d₂ with ⟨e | c₂, d₃⟩
    · rw [hraised e d₃ hfile] at hcollect
      cases hcollect
    rw [hfile] at hdisk
    cases hset : c₂.result.cancelled with
    | true =>
      rw [(hvisited c₂ d₃ hfile).1 hset] at hcollect
      cases hcollect
      rw [hset] at hnot
      cases hnot
    | false =>
      obtain ⟨d₄, hadvanced, hrest⟩ := (hvisited c₂ d₃ hfile).2 hset
      rw [hrest] at hcollect
      rcases List.mem_cons.mp hmem with rfl | hmem
      · obtain ⟨done, -, -, hall⟩ := g.collectFiles_visited rest c₂ d₄
        rw [hcollect] at hall
        obtain ⟨-, s, -, rfl⟩ := hall c₁ rfl hnot
        exact hkept c₂ s (hvisit c d₂ c₂ d₃ hlooked.keeps.disk hc hfile hset)
      · have hback : d₄.disk = d.disk := by rw [hadvanced.keeps.disk, hdisk, hlooked.keeps.disk]
        exact ih (hback ▸ hvisit) hmem hset hcollect

theorem collectFound_of_visit {Q : Collected → Prop} (hkept : ∀ c s, Q c → Q (c.gain s))
    (hvisit : ∀ c d' c₁ d₁, d'.disk = d.disk → c.result.cancelled = false →
      g.collectFile bad false c d' = (.ok c₁, d₁) → c₁.result.cancelled = false → Q c₁)
    (hmem : bad ∈ files) (hcollect : g.collectFound scope root files d = (.ok c₁, d₁))
    (hnot : c₁.result.cancelled = false) : Q c₁ := by
  rcases g.collectFound_turns scope root files d with
    ⟨-, d₂, -, hfound⟩ | ⟨-, d₂, hbegun, hfound⟩ <;> rw [hfound] at hcollect
  · cases hcollect
    cases hnot
  · rw [← hbegun.keeps.disk] at hvisit
    exact collectFiles_of_visit hkept hvisit hmem rfl hcollect hnot

/-- A request that is cancelled while it collects changes no file. -/
theorem conclude_of_cancelled (g : Generator) (d : Desk) (hset : c.result.cancelled = true) :
    g.conclude c d = (.ok c.result, d) := by
  rw [g.conclude_of_placed d (by simp [hset]), finish_of_idle g d (.inl hset)]

/-- A request for files is given up while it collects, or comes to its end with what it collected.
Until then the disk is as it was. -/
theorem generateFound_cases {o : Except GenerationFault GenerationResult}
    (hgenerate : g.generateFound scope root files d = (o, d')) :
    ((∃ e, o = .error e) ∧ d'.disk = d.disk) ∨
    ∃ c d₁, g.collectFound scope root files d = (.ok c, d₁) ∧ d₁.disk = d.disk ∧
      g.conclude c d₁ = (o, d') := by
  have hdisk := (g.collectFound_phase scope root files d).disk_eq
  rcases hcollect : g.collectFound scope root files d with ⟨e | c, d₁⟩ <;> rw [hcollect] at hdisk
  · rw [generateFound, Work.bind_apply, hcollect] at hgenerate
    cases hgenerate
    exact .inl ⟨⟨e, rfl⟩, hdisk⟩
  · rw [g.generateFound_of_collect hcollect] at hgenerate
    exact .inr ⟨c, d₁, rfl, hdisk, hgenerate⟩

/-- A request that has such a file among others changes no file, and has no result unless it is
cancelled. -/
theorem generateFound_of_breaks (hbad : g.Breaks d.disk.tree bad) (hmem : bad ∈ files)
    {o : Except GenerationFault GenerationResult}
    (hgenerate : g.generateFound scope root files d = (o, d')) :
    d'.disk = d.disk ∧ ∀ r, o = .ok r → r.cancelled = true := by
  rcases generateFound_cases hgenerate with
    ⟨⟨e, rfl⟩, hdisk⟩ | ⟨c, d₁, hcollect, hdisk, hconclude⟩
  · exact ⟨hdisk, fun r hr => by cases hr⟩
  have hset : c.result.cancelled = true := by
    by_contra hnot
    refine collectFound_of_visit (Q := fun _ => False) (fun _ _ => id) ?_ hmem hcollect
      (by simpa using hnot)
    intro c' d₂ c₁ d₃ hsame hc' hfile hclear
    rw [collectFile_of_breaks false (hsame ▸ hbad) hc' hfile] at hclear
    cases hclear
  rw [g.conclude_of_cancelled d₁ hset] at hconclude
  cases hconclude
  refine ⟨hdisk, ?_⟩
  intro r hr
  cases hr
  exact hset

/-- A request that has collected a header without a place is given up when it comes to apply
it, or could not apply what it collected anyway. -/
theorem conclude_of_unplaced {i : Insertion} (hi : i ∈ c.batch) (hunplaced : i.file ∈ c.unplaced)
    (hc : c.result.cancelled = false) (hpos : 0 < c.result.generated) :
    g.conclude c d = (.error .unusable, d) ∨
      (g.conclude c d).2.disk = d.disk ∧ (g.conclude c d).1 = .ok (c.outcome false) := by
  rcases g.conclude_cases c d with ⟨-, -, hunusable⟩ | ⟨hplaced, hfinished⟩
  · exact .inl hunusable
  have hnot : ¬c.batch.Fits g.writer d.disk.tree := by
    intro hfits
    rw [EditBatch.meetsUnplaced_of_fits hfits hi hunplaced, hc] at hplaced
    simp at hplaced
  obtain ⟨hfalse, hstate⟩ := EditBatch.apply_of_not_fits (j := ⟨d.disk, d.records⟩) hnot
  rw [hfinished, finish_of_pending g d hc hpos, hfalse]
  exact .inr ⟨hstate, rfl⟩

/-- A request that has a file whose only declaration has no place among others changes no file,
and applies nothing. -/
theorem generateFound_of_misplaces (hbad : g.Misplaces d.disk.tree bad) (hmem : bad ∈ files)
    {o : Except GenerationFault GenerationResult}
    (hgenerate : g.generateFound scope root files d = (o, d')) :
    d'.disk = d.disk ∧ ∀ r, o = .ok r → r.cancelled = true ∨ r.applied = false := by
  rcases generateFound_cases hgenerate with
    ⟨⟨e, rfl⟩, hdisk⟩ | ⟨c, d₁, hcollect, hdisk, hconclude⟩
  · exact ⟨hdisk, fun r hr => by cases hr⟩
  cases hset : c.result.cancelled with
  | true =>
    rw [g.conclude_of_cancelled d₁ hset] at hconclude
    cases hconclude
    refine ⟨hdisk, ?_⟩
    intro r hr
    cases hr
    exact .inl hset
  | false =>
    have hphase := g.collectFound_phase scope root files d
    rw [hcollect] at hphase
    obtain _ | ⟨-, hgrows, -⟩ := hphase
    obtain ⟨hunplaced, i, hi, rfl⟩ : c.Misplaced bad :=
      collectFound_of_visit (fun _ s h => h.gain s)
        (fun c' d₂ c₁ d₃ hsame hc' => collectFile_of_misplaces false (hsame ▸ hbad) hc')
        hmem hcollect hset
    have hpos : 0 < c.result.generated := by
      rw [hgrows.of_start.1]
      exact List.length_pos_of_mem hi
    rcases conclude_of_unplaced (g := g) (d := d₁) hi hunplaced hset hpos with
      hunusable | ⟨hkept, hfailed⟩
    · rw [hunusable] at hconclude
      cases hconclude
      exact ⟨hdisk, fun r hr => by cases hr⟩
    · rw [hconclude] at hkept hfailed
      refine ⟨hkept.trans hdisk, ?_⟩
      intro r hr
      obtain rfl : r = c.outcome false := Except.ok.inj (hr.symm.trans hfailed)
      exact .inr (by simpa using hgrows.applied)

/-- The syntax tree of a file with one enumeration, whose place is null. -/
def unplacedEnumeration : Json :=
  .object
    [("kind", .string "SourceFile"), ("start", .ofInt 0), ("end", .ofInt 1),
      ("children", .array [.object
        [("kind", .string "EnumDeclaration"), ("start", .null), ("end", .ofInt 1)]])]

/-- Headers for files with one enumeration each, one of which has no place. -/
def documentingUnplaced : Generator where
  surroundings :=
    { helper := fun _ file _ =>
        if file == "a.ts" then .finished unplacedEnumeration.compact "" 0
        else .finished enumeration.compact "" 0 }
  builder := ⟨{}, .blank "", { year := 2024, month := 1, day := 1 }⟩
  writer := ⟨[], [], {}⟩

example :
    ((documentingUnplaced.generateFound .folder "." ["a.ts", "b.ts"] threeFiles).1 matches
      .error .unusable) = true ∧
    (documentingUnplaced.generateFound .folder "." ["a.ts", "b.ts"]
      threeFiles).2.disk.tree.find? ["b.ts"] = some (.file (.text "e")) := by
  decide +kernel

/-! ## Files that keep to themselves -/

/-- A visit to a file brings a share of its own, and leaves the desk as it was for all others,
unless the request is cancelled meanwhile. -/
def KeepsApart (g : Generator) (R : Exchange → Exchange → Prop) (own : Share → Prop)
    (bad : String) (t : FileTree) : Prop :=
  ∀ (c : Collected) (d : Desk), d.disk.tree = t → c.result.cancelled = false →
    ∃ c₁ d₁, g.collectFile bad false c d = (.ok c₁, d₁) ∧
      (c₁.result.cancelled = false →
        ∃ s, own s ∧ c₁ = c.gain s ∧ d₁.Alike R (SameBut bad) d)

/-- A file that fails is recorded. All that changes is that the helper may have been given the
file. -/
theorem Fails.keepsApart (hbad : g.Fails t bad) :
    g.KeepsApart Eq (·.IsFailureOf bad) bad t := by
  rintro c d rfl hc
  have hkept := readText_keeps g.surroundings bad d
  rcases hread : readText g.surroundings bad d with ⟨e | text, d₁⟩ <;> rw [hread] at hkept
  · obtain ⟨d₂, hrecorded, hcollect⟩ := g.collectFile_of_unread (c := c) false hread
    have hkeeps := hkept.trans hrecorded.keeps
    rw [Collected.fail_eq_gain] at hcollect
    refine ⟨_, d₂, hcollect, fun _ => ⟨_, ⟨_, rfl⟩, rfl, hkeeps.disk, hkeeps.exchange, ?_⟩⟩
    rw [SameBut, hkeeps.parsed]
  rcases g.collectFile_of_read false hc hread with
    ⟨-, d₂, -, hcollect⟩ | ⟨-, d₂, hlooked, -, hfailed⟩
  · exact ⟨_, d₂, hcollect, nofun⟩
  have htext : d.disk.tree.read g.surroundings.here bad = .ok text := by
    rw [← readText_fst, hread]
  have hkeeps := hkept.trans hlooked.keeps
  obtain ⟨e, htree, hrecoverable⟩ := hbad text htext d₂.parsed
  have hgiven := parse_keeps g.surroundings bad text d₂
  have hparse : parse g.surroundings bad text d₂ =
      (.error e, (parse g.surroundings bad text d₂).2) :=
    Prod.ext ((parse_fst _ _ _ _).trans htree) rfl
  obtain ⟨d₃, hrecorded, hcollect⟩ := (hfailed _ _ hparse).1 hrecoverable
  have hgiven' := hgiven.trans hrecorded.keeps
  rw [Collected.fail_eq_gain] at hcollect
  refine ⟨_, d₃, hcollect, fun _ => ⟨_, ⟨_, rfl⟩, rfl, hgiven'.disk.trans hkeeps.disk,
    hgiven'.exchange.trans hkeeps.exchange, ?_⟩⟩
  rw [SameBut, hgiven'.parsed, hkeeps.parsed]
  simp

/-- A file that has a tree brings its headers. What the source of descriptions was asked may be
told afterwards. -/
theorem Succeeds.keepsApart (hbad : g.Succeeds t bad) :
    g.KeepsApart (fun _ _ => True) (·.IsHeadersOf bad) bad t := by
  rintro c d rfl hc
  obtain ⟨text, htext, hhelper⟩ := hbad
  have hpasses : ∀ text, d.disk.tree.read g.surroundings.here bad = .ok text → ∀ earlier,
      g.Passes (fun i => i.file = bad) bad (g.surroundings.helper earlier bad text) text := by
    intro text' htext' earlier
    obtain rfl : text = text' := Except.ok.inj (htext.symm.trans htext')
    obtain ⟨tree, htree, hgoes⟩ := hhelper earlier
    exact .inr ⟨tree, htree, fun f hf => ⟨(hgoes f hf).1, (hgoes f hf).2, fun _ => rfl⟩⟩
  obtain ⟨c₁, d₁, hcollect, hgained⟩ := g.collectFile_gains false hpasses hc
  refine ⟨c₁, d₁, hcollect, fun hnot => ?_⟩
  obtain ⟨s, rfl, hplaced, hown⟩ := hgained hnot
  -- what the visit brings besides insertions
  obtain ⟨calls, hvisited⟩ := g.collectFile_visited false bad c d
  rw [hcollect] at hvisited
  obtain ⟨-, hdisk, hgiven, s', hs', hsame⟩ := hvisited.all _ rfl hnot
  obtain rfl := Collected.gain_injective c hsame
  obtain ⟨tree, htree, -⟩ := hhelper d.parsed
  have hvisit : g.surroundings.visit d.disk.tree d.parsed bad = ⟨bad, .parsed tree⟩ := by
    simp only [Surroundings.visit, htext, htree]
  rw [hvisit] at hs' hgiven
  refine ⟨s, ⟨hs'.failures, hs'.parsed, hown, hplaced⟩, rfl, hdisk, trivial, ?_⟩
  rw [SameBut, hgiven]
  simp [Visit.given]

/-- Two runs over the same files, one of which has gained a share before. -/
theorem Spared.of_matched {s : Share} {o o' : Except GenerationFault Collected × Desk}
    {P : List String → List String → Prop} (hown : own s) (h : Matched R P (c.gain s) c o o') :
    Spared own o.1 o'.1 := by
  cases h with
  | failed => exact .failed
  | left hstopped => exact .left hstopped
  | right hstopped => exact .right hstopped
  | gained halike => exact .collected hown

theorem collectFiles_spared (hR : Equivalence R) (hsource : g.builder.source.Respects R)
    (hhelper : ∀ file ∈ before ++ after, g.surroundings.Respects (SameBut bad) file)
    (hbad : g.KeepsApart R own bad d.disk.tree) (h : d.Alike R (SameBut bad) d')
    (hc : c.result.cancelled = false) :
    Spared own (g.collectFiles (before ++ bad :: after) c d).1
      (g.collectFiles (before ++ after) c d').1 := by
  induction before generalizing c d d' with
  | nil =>
    rw [List.nil_append, List.nil_append]
    rcases g.collectFiles_cons hc bad after d with
      ⟨-, d₁, -, hcollect⟩ | ⟨-, d₁, hlooked, -, hvisited⟩
    · rw [hcollect]
      exact .left rfl
    obtain ⟨c₁, d₂, hfile, hbrings⟩ := hbad c d₁ (by rw [hlooked.keeps.disk]) hc
    cases hset : c₁.result.cancelled with
    | true =>
      rw [(hvisited _ _ hfile).1 hset]
      exact .left hset
    | false =>
      obtain ⟨s, hown, rfl, halike⟩ := hbrings hset
      obtain ⟨d₃, hadvanced, hrest⟩ := (hvisited _ _ hfile).2 hset
      have hafter : d₃.Alike R (SameBut bad) d' :=
        .trans hR (sameBut_equivalence bad) (halike.keeps hadvanced.keeps (.refl d₁))
          (h.keeps hlooked.keeps (.refl d'))
      rw [hrest]
      exact .of_matched hown (collectFiles_matched hsource after hhelper hafter hset hc)
  | cons file rest ih =>
    obtain ⟨hfirst, hothers⟩ := List.forall_mem_cons.mp hhelper
    rw [List.cons_append, List.cons_append]
    rcases g.collectFiles_cons hc file (rest ++ bad :: after) d with
      ⟨-, d₁, -, hcollect⟩ | ⟨-, d₁, hlooked, hraised, hvisited⟩
    · rw [hcollect]
      exact .left rfl
    rcases g.collectFiles_cons hc file (rest ++ after) d' with
      ⟨-, d₁', -, hcollect'⟩ | ⟨-, d₁', hlooked', hraised', hvisited'⟩
    · rw [hcollect']
      exact .right rfl
    have hdisk := (g.collectFile_phase file false d₁ hc).disk_eq
    have hmatched := collectFile_matched hsource hfirst false false
      (h.keeps hlooked.keeps hlooked'.keeps) hc hc
    generalize hfile : g.collectFile file false c d₁ = o at hmatched
    generalize hfile' : g.collectFile file false c d₁' = o' at hmatched
    rw [hfile] at hdisk
    cases hmatched with
    | failed =>
      rw [hraised _ _ hfile, hraised' _ _ hfile']
      exact .failed
    | left hstopped =>
      rw [(hvisited _ _ hfile).1 hstopped]
      exact .left hstopped
    | right hstopped =>
      rw [(hvisited' _ _ hfile').1 hstopped]
      exact .right hstopped
    | gained halike =>
      obtain ⟨d₃, hadvanced, hrest⟩ := (hvisited _ _ hfile).2 hc
      obtain ⟨d₃', hadvanced', hrest'⟩ := (hvisited' _ _ hfile').2 hc
      have hback : d₃.disk = d.disk := by rw [hadvanced.keeps.disk, hdisk, hlooked.keeps.disk]
      rw [hrest, hrest']
      exact ih hothers (hback ▸ hbad) (halike.keeps hadvanced.keeps hadvanced'.keeps)
        ((c.gain_cancelled _).trans hc)

theorem collectFound_spared (hR : Equivalence R) (hsource : g.builder.source.Respects R)
    (hhelper : ∀ file ∈ before ++ after, g.surroundings.Respects (SameBut bad) file)
    (hbad : g.KeepsApart R own bad d.disk.tree) :
    Spared own (g.collectFound scope root (before ++ bad :: after) d).1
      (g.collectFound scope root (before ++ after) d).1 := by
  rcases g.collectFound_turns scope root (before ++ bad :: after) d with
    ⟨-, d₁, -, hcollect⟩ | ⟨-, d₁, hbegun, hcollect⟩
  · rw [hcollect]
    exact .left rfl
  rcases g.collectFound_turns scope root (before ++ after) d with
    ⟨-, d₁', -, hcollect'⟩ | ⟨-, d₁', hbegun', hcollect'⟩
  · rw [hcollect']
    exact .right rfl
  rw [hcollect, hcollect']
  have halike : d.Alike R (SameBut bad) d := ⟨rfl, hR.refl _, rfl⟩
  rw [← hbegun.keeps.disk] at hbad
  exact collectFiles_spared hR hsource hhelper hbad (halike.keeps hbegun.keeps hbegun'.keeps) rfl

/-- **What one file does to the others.** A run of the helper gives a tree or a failure that gets
recorded, just when it does not print the object of a whole file which describes no tree. Let some
file be visited among others, let what the helper gives for these not depend on its runs on that
file, and what descriptions are given not on the log.

When the file fails, the request collects for all others what it would collect without it, and
records the failure besides. When the file has a tree in which nothing stops a build and no place
for a header is null, whatever else its fields hold, the same is collected for the others, and the
headers of the file besides, if descriptions do not depend on those asked for before. But when no
tree is described, or its declarations cannot be put in order, or a build is stopped, the request
is given up unless it is cancelled, and no file changes. When the only declaration has no place,
no file changes either, and nothing is applied. When the helper goes by the file and its text
only, the file is of one of these sorts. -/
theorem collectFound_isolates (g : Generator) (scope : Scope) (root bad : String)
    (before after : List String) (d : Desk) (hdistinct : bad ∉ before ++ after)
    (hsource : g.builder.source.Respects Eq)
    (hhelper : ∀ file ≠ bad, ∀ earlier earlier', SameBut bad earlier earlier' → ∀ text,
      g.surroundings.helper earlier file text = g.surroundings.helper earlier' file text) :
    (∀ run text file, ¬HelperRun.Misprints run text ↔
      (∃ tree, run.parse file text = .ok tree) ∨
        ∃ e, run.parse file text = .error e ∧ e.isRecoverable = true) ∧
    (g.Fails d.disk.tree bad →
      Spared (·.IsFailureOf bad) (g.collectFound scope root (before ++ bad :: after) d).1
        (g.collectFound scope root (before ++ after) d).1) ∧
    (g.Succeeds d.disk.tree bad → g.builder.source.Respects (fun _ _ => True) →
      Spared (·.IsHeadersOf bad) (g.collectFound scope root (before ++ bad :: after) d).1
        (g.collectFound scope root (before ++ after) d).1) ∧
    (g.Breaks d.disk.tree bad → ∀ o d',
      g.generateFound scope root (before ++ bad :: after) d = (o, d') →
        d'.disk = d.disk ∧ ∀ r, o = .ok r → r.cancelled = true) ∧
    (g.Misplaces d.disk.tree bad → ∀ o d',
      g.generateFound scope root (before ++ bad :: after) d = (o, d') →
        d'.disk = d.disk ∧ ∀ r, o = .ok r → r.cancelled = true ∨ r.applied = false) ∧
    ((∀ earlier earlier' text,
        g.surroundings.helper earlier bad text = g.surroundings.helper earlier' bad text) →
      g.Fails d.disk.tree bad ∨ g.Succeeds d.disk.tree bad ∨ g.Breaks d.disk.tree bad ∨
        g.Misplaces d.disk.tree bad) := by
  have hothers : ∀ file ∈ before ++ after, g.surroundings.Respects (SameBut bad) file := by
    intro file hfile earlier earlier' hsame
    have hother : file ≠ bad := by
      rintro rfl
      exact hdistinct hfile
    refine ⟨?_, hhelper file hother earlier earlier' hsame⟩
    rw [SameBut, List.filter_append, List.filter_append, hsame]
  refine ⟨fun run text file => run.not_misprints_iff text file, fun hfails => ?_,
    fun hsucceeds hanswers => ?_, fun hbreaks o d' => ?_, fun hmisplaces o d' => ?_,
    fails_or_succeeds_or_breaks_or_misplaces _⟩
  · exact collectFound_spared eq_equivalence hsource hothers hfails.keepsApart
  · have hall : Equivalence fun _ _ : Exchange => True :=
      ⟨fun _ => trivial, fun _ => trivial, fun _ _ => trivial⟩
    exact collectFound_spared hall hanswers hothers hsucceeds.keepsApart
  · exact generateFound_of_breaks hbreaks (by simp)
  · exact generateFound_of_misplaces hmisplaces (by simp)

/-- The syntax tree of a file with one enumeration, whose name is a number and whose modifiers are
a text. -/
def oddEnumeration : Json :=
  .object
    [("kind", .string "SourceFile"), ("start", .ofInt 0), ("end", .ofInt 1),
      ("children", .array [.object
        [("kind", .string "EnumDeclaration"), ("start", .ofInt 0), ("end", .ofInt 1),
          ("name", .ofInt 5), ("modifiers", .string "ab")]])]

/-- Headers for files with one enumeration each. For one of them the helper is too slow, and the
enumeration of another is odd. -/
def documentingOddly : Generator where
  surroundings :=
    { helper := fun _ file _ =>
        if file == "a.ts" then .timedOut
        else if file == "b.ts" then .finished oddEnumeration.compact "" 0
        else .finished enumeration.compact "" 0 }
  builder := ⟨{}, .blank "", { year := 2024, month := 1, day := 1 }⟩
  writer := ⟨[], [], {}⟩

/-- A file for which the helper is too slow is left out, and the others are documented. So are
they beside a file with an odd tree. -/
theorem collectFound_isolates_slow_and_odd :
    documentingOddly.Fails threeFiles.disk.tree "a.ts" ∧
    Spared (·.IsFailureOf "a.ts")
      (documentingOddly.collectFound .folder "." ["c.ts", "b.ts", "a.ts"] threeFiles).1
      (documentingOddly.collectFound .folder "." ["c.ts", "b.ts"] threeFiles).1 ∧
    documentingOddly.Succeeds threeFiles.disk.tree "b.ts" ∧
    Spared (·.IsHeadersOf "b.ts")
      (documentingOddly.collectFound .folder "." ["c.ts", "b.ts", "a.ts"] threeFiles).1
      (documentingOddly.collectFound .folder "." ["c.ts", "a.ts"] threeFiles).1 := by
  have hfails : documentingOddly.Fails threeFiles.disk.tree "a.ts" := fun _ _ _ => ⟨_, rfl, rfl⟩
  have hsucceeds : documentingOddly.Succeeds threeFiles.disk.tree "b.ts" := by
    have hgoes : ((documentingOddly.surroundings.helper [] "b.ts" "e").parse "b.ts"
        "e").toOption.any (fun tree => decide (∀ f ∈ tree.pending,
          ¬documentingOddly.builder.Stops f false ∧ f.isUnplaced = false)) = true := by
      decide +kernel
    refine ⟨"e", by decide, fun _ => ?_⟩
    cases htree : (documentingOddly.surroundings.helper [] "b.ts" "e").parse "b.ts" "e" with
    | error e => simp [htree, Except.toOption] at hgoes
    | ok tree => exact ⟨tree, htree, by simpa [htree, Except.toOption] using hgoes⟩
  obtain ⟨-, hslow, -⟩ := collectFound_isolates documentingOddly .folder "." "a.ts"
    ["c.ts", "b.ts"] [] threeFiles (by decide) (DescriptionSource.fixed_respects "" "")
    (fun _ _ _ _ _ _ => rfl)
  obtain ⟨-, -, hodd, -⟩ := collectFound_isolates documentingOddly .folder "." "b.ts"
    ["c.ts"] ["a.ts"] threeFiles (by decide) (DescriptionSource.fixed_respects "" "")
    (fun _ _ _ _ _ _ => rfl)
  exact ⟨hfails, hslow hfails, hsucceeds,
    hodd hsucceeds (DescriptionSource.fixed_respects "" "")⟩

/-- Headers for files with one enumeration each. For one of them the helper prints an object
that lacks all fields but the kind. -/
def documentingMisprinted : Generator where
  surroundings :=
    { helper := fun _ file _ =>
        if file == "a.ts" then
          .finished (Json.object [("kind", .string "SourceFile")]).compact "" 0
        else .finished enumeration.compact "" 0 }
  builder := ⟨{}, .blank "", { year := 2024, month := 1, day := 1 }⟩
  writer := ⟨[], [], {}⟩

/-- One tree without offsets keeps all files of a folder from being documented. -/
theorem generateFound_stops_at_misprint :
    ((documentingMisprinted.generateFound .folder "." ["a.ts", "b.ts", "c.ts"] threeFiles).1 matches
      .error (.unparsed (.malformed (.missingField "start")))) = true ∧
    (documentingMisprinted.generateFound .folder "." ["a.ts", "b.ts", "c.ts"]
      threeFiles).2.disk.tree.find? ["b.ts"] = some (.file (.text "e")) ∧
    (documentingMisprinted.generateFound .folder "." ["b.ts", "c.ts"]
      threeFiles).2.disk.tree.find? ["b.ts"] =
        some (.file (.text "/**\n * @enum \x7bnumber\x7d\n */\ne")) := by
  decide +kernel

end Generator

end DocHeader

import DocHeader.Proofs.Generation.Collected
import DocHeader.Proofs.Header.Misfits
import Mathlib.Algebra.GroupWithZero.Nat

/-!
# What a file brings

A file brings insertions to a request, or a failure. What it brings does not depend on the
files visited before: two runs over the same files, from desks that the source of descriptions
and the syntax helper cannot tell apart, collect the same, as long as neither of them is
cancelled. It does not matter whether progress is reported for each declaration.

## Main definitions

* `Share` — what files bring to a request.
* `Collected.gain` — what is collected with a share more.
* `Desk.Alike` — desks that differ in nothing that the headers of files depend on.
* `Generator.Matched` — the outcomes of two runs that took the same course.
-/

namespace DocHeader

/-- What files bring to a request. -/
structure Share where
  insertions : List Insertion := []
  failures : List FileFailure := []
  /-- The number of files that were parsed. -/
  parsed : Nat := 0
  /-- The files with an insertion whose place is null. -/
  unplaced : List String := []
  deriving Inhabited

namespace Share

/-- What two groups of files bring. -/
def append (s t : Share) : Share :=
  ⟨s.insertions ++ t.insertions, s.failures ++ t.failures, s.parsed + t.parsed,
    s.unplaced ++ t.unplaced⟩

instance : Append Share := ⟨append⟩

variable (s t : Share)

@[simp] theorem insertions_append : (s ++ t).insertions = s.insertions ++ t.insertions := rfl

@[simp] theorem failures_append : (s ++ t).failures = s.failures ++ t.failures := rfl

@[simp] theorem parsed_append : (s ++ t).parsed = s.parsed + t.parsed := rfl

@[simp] theorem unplaced_append : (s ++ t).unplaced = s.unplaced ++ t.unplaced := rfl

/-- What all files of a list bring. -/
def all : List Share → Share
  | [] => {}
  | s :: rest => s ++ all rest

@[simp] theorem insertions_all (shares : List Share) :
    (all shares).insertions = shares.flatMap insertions := by
  induction shares with
  | nil => rfl
  | cons s rest ih => simp [all, ih]

@[simp] theorem failures_all (shares : List Share) :
    (all shares).failures = shares.flatMap failures := by
  induction shares with
  | nil => rfl
  | cons s rest ih => simp [all, ih]

@[simp] theorem parsed_all (shares : List Share) :
    (all shares).parsed = (shares.map parsed).sum := by
  induction shares with
  | nil => rfl
  | cons s rest ih => simp [all, ih]

end Share

namespace Generator

/-! ## Gaining shares -/

/-- What is collected with a share more. -/
def Collected.gain (c : Collected) (s : Share) : Collected where
  result := { c.result with
    generated := c.result.generated + s.insertions.length
    filesProcessed := c.result.filesProcessed + s.parsed
    failures := c.result.failures ++ s.failures }
  batch := c.batch ++ s.insertions
  unplaced := c.unplaced ++ s.unplaced

section

variable (c : Collected) (s t : Share)

@[simp] theorem Collected.gain_cancelled :
    (c.gain s).result.cancelled = c.result.cancelled := rfl

@[simp] theorem Collected.gain_batch : (c.gain s).batch = c.batch ++ s.insertions := rfl

@[simp] theorem Collected.gain_unplaced : (c.gain s).unplaced = c.unplaced ++ s.unplaced := rfl

@[simp] theorem Collected.gain_nothing : c.gain {} = c := by simp [gain]

theorem Collected.gain_append : c.gain (s ++ t) = (c.gain s).gain t := by
  simp [gain, Nat.add_assoc]

theorem Collected.add_eq_gain (i : Insertion) : c.add i = c.gain { insertions := [i] } := by
  simp [gain, add]

theorem Collected.countFile_eq_gain (file : String) (root : Focus) :
    c.countFile file root = c.gain { parsed := 1, unplaced := unplacedIn file root } := by
  simp [gain, countFile]

theorem Collected.fail_eq_gain (file reason : String) :
    c.fail file reason = c.gain { failures := [⟨file, firstLine reason⟩] } := by
  simp [gain, fail]

/-- Two shares are the same when gaining them comes to the same. -/
theorem Collected.gain_injective {s t : Share} (h : c.gain s = c.gain t) : s = t := by
  obtain ⟨insertions, failures, parsed, unplaced⟩ := s
  obtain ⟨insertions', failures', parsed', unplaced'⟩ := t
  simp only [gain, Collected.mk.injEq, GenerationResult.mk.injEq, List.append_cancel_left_eq,
    Nat.add_left_cancel_iff, true_and] at h
  obtain ⟨⟨-, hparsed, hfailures⟩, hinsertions, hunplaced⟩ := h
  rw [hinsertions, hfailures.1, hparsed, hunplaced]

end

end Generator

/-! ## Desks that are alike -/

/-- Two desks that differ in nothing that the headers of files depend on: they have the same
disk, their exchanges are related by `R` and the files given to the helper by `P`. -/
structure Desk.Alike (R : Exchange → Exchange → Prop) (P : List String → List String → Prop)
    (d d' : Desk) : Prop where
  disk : d.disk = d'.disk
  exchange : R d.exchange d'.exchange
  parsed : P d.parsed d'.parsed

/-- The syntax helper does not tell apart what it was given before it is given a file. -/
def Surroundings.Respects (P : List String → List String → Prop) (s : Surroundings)
    (file : String) : Prop :=
  ∀ earlier earlier', P earlier earlier' →
    P (earlier ++ [file]) (earlier' ++ [file]) ∧
      ∀ text, s.helper earlier file text = s.helper earlier' file text

variable {R : Exchange → Exchange → Prop} {P : List String → List String → Prop}
  {g : Generator} {s : Surroundings} {d d' d₁ d₁' : Desk} {file : String}

namespace Desk

theorem Alike.keeps (h : d.Alike R P d') (hleft : d.Keeps d₁) (hright : d'.Keeps d₁') :
    d₁.Alike R P d₁' where
  disk := by rw [hleft.disk, hright.disk, h.disk]
  exchange := by rw [hleft.exchange, hright.exchange]; exact h.exchange
  parsed := by rw [hleft.parsed, hright.parsed]; exact h.parsed

theorem Alike.trans {d₂ : Desk} (hR : Equivalence R) (hP : Equivalence P) (h : d.Alike R P d₁)
    (h' : d₁.Alike R P d₂) : d.Alike R P d₂ :=
  ⟨h.disk.trans h'.disk, hR.trans h.exchange h'.exchange, hP.trans h.parsed h'.parsed⟩

theorem readText_alike (s : Surroundings) (file : String) (h : d.Alike R P d') :
    ∃ found d₁ d₁', readText s file d = (found, d₁) ∧ readText s file d' = (found, d₁') ∧
      d₁.Alike R P d₁' := by
  refine ⟨(readText s file d).1, (readText s file d).2, (readText s file d').2, rfl, ?_,
    h.keeps (readText_keeps s file d) (readText_keeps s file d')⟩
  refine Prod.ext ?_ rfl
  rw [readText_fst, readText_fst, h.disk]

theorem parse_alike (text : String) (hhelper : s.Respects P file) (h : d.Alike R P d') :
    ∃ found d₁ d₁', parse s file text d = (found, d₁) ∧ parse s file text d' = (found, d₁') ∧
      d₁.Alike R P d₁' := by
  obtain ⟨hparsed, hrun⟩ := hhelper _ _ h.parsed
  have hgiven : Alike R P { d with parsed := d.parsed ++ [file] }
      { d' with parsed := d'.parsed ++ [file] } := ⟨h.disk, h.exchange, hparsed⟩
  refine ⟨(parse s file text d).1, (parse s file text d).2, (parse s file text d').2, rfl, ?_,
    hgiven.keeps (parse_keeps s file text d) (parse_keeps s file text d')⟩
  refine Prod.ext ?_ rfl
  rw [parse_fst, parse_fst, hrun]

end Desk

namespace Generator

open Desk

theorem header_alike (f : Focus) (text : String) (hsource : g.builder.source.Respects R)
    (h : d.Alike R P d') :
    ∃ built d₁ d₁', g.header f text false d = (built, d₁) ∧
      g.header f text false d' = (built, d₁') ∧ d₁.Alike R P d₁' := by
  obtain ⟨hsame, hexchange⟩ := Builder.attempt_respects (f := f) hsource false
    ⟨d.exchange, d.records⟩ ⟨d'.exchange, d'.records⟩ h.exchange
  rcases hbuild : g.builder.attempt f false ⟨d.exchange, d.records⟩ with ⟨built, j⟩
  rcases hbuild' : g.builder.attempt f false ⟨d'.exchange, d'.records⟩ with ⟨built', j'⟩
  rw [hbuild, hbuild'] at hsame hexchange
  obtain rfl : built = built' := hsame
  have hdone : Alike R P { d with exchange := j.state, records := j.records }
      { d' with exchange := j'.state, records := j'.records } := ⟨h.disk, hexchange, h.parsed⟩
  cases built with
  | error e =>
    refine ⟨.error e, _, _, ?_, ?_, hdone⟩
    · simp only [header, Desk.bind_apply, onExchange, hbuild, Desk.pure_apply]
    · simp only [header, Desk.bind_apply, onExchange, hbuild', Desk.pure_apply]
  | ok draft =>
    refine ⟨.ok (g.written draft f text false), _, _, ?_, ?_,
      hdone.keeps (complete_keeps g.surroundings .build _) (complete_keeps g.surroundings .build _)⟩
    · simp only [header, Desk.bind_apply, onExchange, hbuild, Desk.pure_apply]
    · simp only [header, Desk.bind_apply, onExchange, hbuild', Desk.pure_apply]

/-! ## Runs that match -/

variable {c c' : Collected}

/-- The outcomes of two runs that took the same course: both were given up for the same reason,
or both have gained the same share and left desks that are alike. Nothing is said when one of
them was cancelled. -/
inductive Matched (R : Exchange → Exchange → Prop) (P : List String → List String → Prop)
    (c c' : Collected) :
    Except GenerationFault Collected × Desk → Except GenerationFault Collected × Desk → Prop where
  | failed {e : GenerationFault} {d₁ d₁' : Desk} : Matched R P c c' (.error e, d₁) (.error e, d₁')
  | gained {s : Share} {d₁ d₁' : Desk} (halike : d₁.Alike R P d₁') :
    Matched R P c c' (.ok (c.gain s), d₁) (.ok (c'.gain s), d₁')
  | left {c₁ : Collected} {d₁ : Desk} {o' : Except GenerationFault Collected × Desk}
    (hstopped : c₁.result.cancelled = true) : Matched R P c c' (.ok c₁, d₁) o'
  | right {c₁' : Collected} {d₁' : Desk} {o : Except GenerationFault Collected × Desk}
    (hstopped : c₁'.result.cancelled = true) : Matched R P c c' o (.ok c₁', d₁')

/-- Runs that end where they began match. -/
theorem Matched.of_alike (h : d.Alike R P d') : Matched R P c c' (.ok c, d) (.ok c', d') := by
  have hgained : Matched R P c c' (.ok (c.gain {}), d) (.ok (c'.gain {}), d') := .gained h
  simpa only [Collected.gain_nothing] using hgained

/-- Runs that match go on after both have gained a share. -/
theorem Matched.after {s : Share} {o o' : Except GenerationFault Collected × Desk}
    (h : Matched R P (c.gain s) (c'.gain s) o o') : Matched R P c c' o o' := by
  cases h with
  | failed => exact .failed
  | gained halike =>
    rw [← Collected.gain_append, ← Collected.gain_append]
    exact .gained halike
  | left hstopped => exact .left hstopped
  | right hstopped => exact .right hstopped

theorem collectDeclarations_matched (hsource : g.builder.source.Respects R) (file text : String)
    (reporting reporting' : Bool) (pending : List Focus) (h : d.Alike R P d')
    (hc : c.result.cancelled = false) (hc' : c'.result.cancelled = false) :
    Matched R P c c' (g.collectDeclarations file text reporting pending c d)
      (g.collectDeclarations file text reporting' pending c' d') := by
  induction pending generalizing c c' d d' with
  | nil => exact .of_alike h
  | cons f rest ih =>
    obtain ⟨built, d₁, d₁', hheader, hheader', h₁⟩ := header_alike f text hsource h
    cases built with
    | error e =>
      rw [g.collectDeclarations_of_unbuilt reporting hheader,
        g.collectDeclarations_of_unbuilt reporting' hheader']
      exact .failed
    | ok header =>
      rcases g.collectDeclarations_of_built reporting hc hheader with
        ⟨-, d₂, -, hcollect⟩ | ⟨-, d₂, hlooked, hcollect⟩ <;> rw [hcollect]
      · exact .left rfl
      rcases g.collectDeclarations_of_built reporting' hc' hheader' with
        ⟨-, d₂', -, hcollect'⟩ | ⟨-, d₂', hlooked', hcollect'⟩ <;> rw [hcollect']
      · exact .right rfl
      rw [Collected.add_eq_gain, Collected.add_eq_gain]
      exact (ih (h₁.keeps hlooked.keeps hlooked'.keeps) ((c.gain_cancelled _).trans hc)
        ((c'.gain_cancelled _).trans hc')).after

theorem collectFile_matched (hsource : g.builder.source.Respects R)
    (hhelper : g.surroundings.Respects P file) (reporting reporting' : Bool)
    (h : d.Alike R P d') (hc : c.result.cancelled = false) (hc' : c'.result.cancelled = false) :
    Matched R P c c' (g.collectFile file reporting c d) (g.collectFile file reporting' c' d') := by
  obtain ⟨found, d₁, d₁', hread, hread', h₁⟩ := readText_alike g.surroundings file h
  cases found with
  | error e =>
    obtain ⟨d₂, hrecorded, hcollect⟩ := g.collectFile_of_unread (c := c) reporting hread
    obtain ⟨d₂', hrecorded', hcollect'⟩ := g.collectFile_of_unread (c := c') reporting' hread'
    rw [hcollect, hcollect', Collected.fail_eq_gain, Collected.fail_eq_gain]
    exact .gained (h₁.keeps hrecorded.keeps hrecorded'.keeps)
  | ok text =>
  rcases g.collectFile_of_read reporting hc hread with
    ⟨-, d₂, -, hcollect⟩ | ⟨-, d₂, hlooked, htree, hfailed⟩
  · rw [hcollect]
    exact .left rfl
  rcases g.collectFile_of_read reporting' hc' hread' with
    ⟨-, d₂', -, hcollect'⟩ | ⟨-, d₂', hlooked', htree', hfailed'⟩
  · rw [hcollect']
    exact .right rfl
  obtain ⟨found, d₃, d₃', hparse, hparse', h₃⟩ :=
    parse_alike text hhelper (h₁.keeps hlooked.keeps hlooked'.keeps)
  cases found with
  | ok root =>
    rw [htree root d₃ hparse, htree' root d₃' hparse']
    rcases g.collectTree_turns reporting file text root c d₃ with
      ⟨hunsorted, hgiven⟩ | ⟨hsorted, d₄, hannounced, hcollect⟩ <;>
    rcases g.collectTree_turns reporting' file text root c' d₃' with
      ⟨hunsorted', hgiven'⟩ | ⟨hsorted', d₄', hannounced', hcollect'⟩
    · rw [hgiven, hgiven']
      exact .failed
    · rw [hunsorted] at hsorted'
      cases hsorted'
    · rw [hsorted] at hunsorted'
      cases hunsorted'
    rw [hcollect, hcollect', Collected.countFile_eq_gain, Collected.countFile_eq_gain]
    exact (collectDeclarations_matched hsource file text reporting reporting' root.pending
      (h₃.keeps hannounced.keeps hannounced'.keeps) ((c.gain_cancelled _).trans hc)
      ((c'.gain_cancelled _).trans hc')).after
  | error e =>
    cases hrecoverable : e.isRecoverable with
    | true =>
      obtain ⟨d₄, hrecorded, hcollect⟩ := (hfailed e d₃ hparse).1 hrecoverable
      obtain ⟨d₄', hrecorded', hcollect'⟩ := (hfailed' e d₃' hparse').1 hrecoverable
      rw [hcollect, hcollect', Collected.fail_eq_gain, Collected.fail_eq_gain]
      exact .gained (h₃.keeps hrecorded.keeps hrecorded'.keeps)
    | false =>
      rw [(hfailed e d₃ hparse).2 hrecoverable, (hfailed' e d₃' hparse').2 hrecoverable]
      exact .failed

theorem collectFiles_matched (hsource : g.builder.source.Respects R) (files : List String)
    (hhelper : ∀ file ∈ files, g.surroundings.Respects P file) (h : d.Alike R P d')
    (hc : c.result.cancelled = false) (hc' : c'.result.cancelled = false) :
    Matched R P c c' (g.collectFiles files c d) (g.collectFiles files c' d') := by
  induction files generalizing c c' d d' with
  | nil => exact .of_alike h
  | cons file rest ih =>
    obtain ⟨hfirst, hothers⟩ := List.forall_mem_cons.mp hhelper
    rcases g.collectFiles_cons hc file rest d with
      ⟨-, d₁, -, hcollect⟩ | ⟨-, d₁, hlooked, hraised, hvisited⟩
    · rw [hcollect]
      exact .left rfl
    rcases g.collectFiles_cons hc' file rest d' with
      ⟨-, d₁', -, hcollect'⟩ | ⟨-, d₁', hlooked', hraised', hvisited'⟩
    · rw [hcollect']
      exact .right rfl
    have hmatched := collectFile_matched hsource hfirst false false
      (h.keeps hlooked.keeps hlooked'.keeps) hc hc'
    generalize hfile : g.collectFile file false c d₁ = o at hmatched
    generalize hfile' : g.collectFile file false c' d₁' = o' at hmatched
    cases hmatched with
    | failed =>
      rw [hraised _ _ hfile, hraised' _ _ hfile']
      exact .failed
    | left hstopped =>
      rw [(hvisited _ _ hfile).1 hstopped]
      exact .left hstopped
    | right hstopped =>
      rw [(hvisited' _ _ hfile').1 hstopped]
      exact .right hstopped
    | gained halike =>
      obtain ⟨d₃, hadvanced, hrest⟩ := (hvisited _ _ hfile).2 hc
      obtain ⟨d₃', hadvanced', hrest'⟩ := (hvisited' _ _ hfile').2 hc'
      rw [hrest, hrest']
      exact (ih hothers (halike.keeps hadvanced.keeps hadvanced'.keeps)
        ((c.gain_cancelled _).trans hc) ((c'.gain_cancelled _).trans hc')).after

end Generator

end DocHeader

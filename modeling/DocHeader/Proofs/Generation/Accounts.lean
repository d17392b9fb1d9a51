import DocHeader.Proofs.Generation.Heard
import DocHeader.Proofs.Generation.Separate

/-!
# The accounts of a request

Each file that a request visits is counted once: as parsed, or as a failure. Which of the two
it is depends on the disk and on the syntax helper alone, and so does the number of headers it
brings. The receiver of progress hears of every file, and of nothing else; when the request is
for one file, it hears of every declaration. A request that is cancelled stops short, so what
it reports never exceeds what it announced.

## Main definitions

* `Fate`, `Visit` — what becomes of a file that is visited.
* `Surroundings.visits` — what becomes of files that are all visited.
* `Share.IsOf` — what visits bring.
* `Accounts` — the counts of a request for many files.
-/

namespace DocHeader

/-- What becomes of a file. -/
inductive Fate where
  | unread (error : ReadError)
  | unparsed (error : ParseFailure)
  | parsed (tree : Focus)

/-- A file with what becomes of it. -/
structure Visit where
  file : String
  fate : Fate

namespace Visit

/-- The failure that is recorded for a file. -/
def failure? (v : Visit) : Option FileFailure :=
  match v.fate with
  | .unread e => some ⟨v.file, firstLine e.message⟩
  | .unparsed e => some ⟨v.file, firstLine e.message⟩
  | .parsed _ => none

/-- The tree of a file. -/
def tree? (v : Visit) : Option Focus :=
  match v.fate with
  | .parsed tree => some tree
  | _ => none

/-- The files given to the syntax helper once a file was visited. -/
def given (v : Visit) (earlier : List String) : List String :=
  match v.fate with
  | .unread _ => earlier
  | _ => earlier ++ [v.file]

end Visit

/-- What becomes of a file, when `earlier` files were given to the syntax helper. -/
def Surroundings.visit (s : Surroundings) (t : FileTree) (earlier : List String) (file : String) :
    Visit :=
  match t.read s.here file with
  | .error e => ⟨file, .unread e⟩
  | .ok text =>
    match (s.helper earlier file text).parse file text with
    | .error e => ⟨file, .unparsed e⟩
    | .ok tree => ⟨file, .parsed tree⟩

/-- What becomes of files that are visited one after the other. -/
def Surroundings.visits (s : Surroundings) (t : FileTree) (earlier : List String) :
    List String → List Visit
  | [] => []
  | file :: rest =>
    s.visit t earlier file :: s.visits t ((s.visit t earlier file).given earlier) rest

/-- The number of declarations without a header in the trees of files. -/
def undocumented (visits : List Visit) : Nat :=
  ((visits.filterMap Visit.tree?).map fun tree => tree.pending.length).sum

/-- The number of files that were parsed. -/
def parsedFiles (visits : List Visit) : Nat := (visits.filterMap Visit.tree?).length

/-- What visits bring: a header for each declaration without one, and a failure for each file
that could not be read or parsed. -/
structure Share.IsOf (visits : List Visit) (s : Share) : Prop where
  insertions : s.insertions.length = undocumented visits
  failures : s.failures = visits.filterMap Visit.failure?
  parsed : s.parsed = parsedFiles visits

/-- The counts of a request that visited files: each file is counted once, as parsed or as a
failure, and each declaration without a header is counted. -/
structure Accounts (visits : List Visit) (r : GenerationResult) : Prop where
  processed : r.filesProcessed = parsedFiles visits
  failures : r.failures = visits.filterMap Visit.failure?
  once : r.filesProcessed + r.failures.length = visits.length
  generated : r.generated = undocumented visits

/-- The calls of a request that announces some units and reports the first of them. -/
def Bounded (calls : List ProgressCall) : Prop :=
  calls = [] ∨ ∃ (total : Nat) (title : String) (messages : List String),
    calls = .begin total title :: messages.map .advance ∧ messages.length ≤ total

/-! ## Visits -/

section

variable {visits visits' : List Visit} {v : Visit} {s t : Share}

theorem Visit.counted_once (v : Visit) : (v.tree?.isSome = true ∧ v.failure? = none) ∨
    (v.tree? = none ∧ v.failure?.isSome = true) := by
  unfold tree? failure?
  cases v.fate <;> simp

/-- Files are parsed or fail. -/
theorem parsedFiles_add_failures (visits : List Visit) :
    parsedFiles visits + (visits.filterMap Visit.failure?).length = visits.length := by
  induction visits with
  | nil => rfl
  | cons v rest ih =>
    simp only [parsedFiles] at ih ⊢
    rcases v.counted_once with ⟨htree, hfailure⟩ | ⟨htree, hfailure⟩
    · obtain ⟨tree, htree⟩ := Option.isSome_iff_exists.mp htree
      simp only [List.filterMap_cons, htree, hfailure, List.length_cons]
      omega
    · obtain ⟨failure, hfailure⟩ := Option.isSome_iff_exists.mp hfailure
      simp only [List.filterMap_cons, htree, hfailure, List.length_cons]
      omega

theorem Surroundings.file_visit (s : Surroundings) (t : FileTree) (earlier : List String)
    (file : String) : (s.visit t earlier file).file = file := by
  unfold visit
  split
  · rfl
  · split <;> rfl

/-- The visits are those of the files, in their order. -/
theorem Surroundings.map_file_visits (s : Surroundings) (t : FileTree)
    (earlier files : List String) : (s.visits t earlier files).map Visit.file = files := by
  induction files generalizing earlier with
  | nil => rfl
  | cons file rest ih => simp [visits, ih, file_visit]

theorem Share.IsOf.nothing : Share.IsOf [] {} := ⟨rfl, rfl, rfl⟩

theorem Share.IsOf.append (h : s.IsOf visits) (h' : t.IsOf visits') :
    (s ++ t).IsOf (visits ++ visits') where
  insertions := by simp [undocumented, h.insertions, h'.insertions]
  failures := by simp [h.failures, h'.failures]
  parsed := by simp [parsedFiles, h.parsed, h'.parsed]

/-- A file that fails brings its failure. -/
theorem Share.IsOf.of_failure {failure : FileFailure} (hfailure : v.failure? = some failure) :
    Share.IsOf [v] { failures := [failure] } := by
  have htree : v.tree? = none := by
    rcases v.counted_once with ⟨-, hnone⟩ | ⟨hnone, -⟩
    · simp [hnone] at hfailure
    · exact hnone
  exact ⟨by simp [undocumented, htree], by simp [hfailure], by simp [parsedFiles, htree]⟩

/-- A file that is parsed brings its headers. -/
theorem Share.IsOf.of_tree {file : String} {tree : Focus} {insertions : List Insertion}
    {unplaced : List String} (h : insertions.length = tree.pending.length) :
    Share.IsOf [⟨file, .parsed tree⟩] { insertions, parsed := 1, unplaced } :=
  ⟨by simp [undocumented, Visit.tree?, h], rfl, rfl⟩

end

namespace Generator

open Desk

variable {g : Generator} {c c' : Collected} {d d' : Desk} {file text : String}
  {files : List String}

/-- The announcement of the declarations of a tree. -/
def announcement (tree : Focus) : ProgressCall :=
  .begin tree.pending.length
    ("Generating JSDoc for " ++ toString tree.pending.length ++ " declaration(s)")

/-- The reports of declarations. -/
def reports (declarations : List Focus) : List ProgressCall :=
  declarations.map fun f => .advance ((given? f.info.name).getD f.kind)

/-- The announcement of the files of a directory. -/
def announcementOf (root : String) (files : List String) : ProgressCall :=
  .begin files.length
    ("Generating JSDoc for " ++ toString files.length ++ " file(s) in " ++ root)

/-- The calls of a request for one file, when it is not stopped. -/
def callsOf (v : Visit) : List ProgressCall :=
  match v.tree? with
  | some tree => announcement tree :: reports tree.pending
  | none => []

/-- A run that is given up or cancelled, without another word to the receiver. -/
def Halted (d : Desk) (o : Except GenerationFault Collected × Desk) : Prop :=
  o.2.receiver = d.receiver ∧ ∀ c', o.1 = .ok c' → c'.result.cancelled = true

theorem Halted.of_error {e : GenerationFault} (h : d'.receiver = d.receiver) :
    Halted d (.error e, d') := ⟨h, fun _ hok => nomatch hok⟩

theorem Halted.of_cancelled (h : d'.receiver = d.receiver) (hc : c.result.cancelled = true) :
    Halted d (.ok c, d') := by
  refine ⟨h, ?_⟩
  rintro c' ⟨⟩
  exact hc

/-! ## Declarations -/

/-- The outcome of collecting the headers of declarations, of which those in `done` were
reported. Unless the run was given up or cancelled they are all, and each has its header. -/
structure Reported (reporting : Bool) (pending done : List Focus) (c : Collected) (d : Desk)
    (o : Except GenerationFault Collected × Desk) : Prop where
  among : done <+: pending
  heard : o.2.ledger = (if reporting then reports done else []).foldl Ledger.hear d.ledger
  all : ∀ c', o.1 = .ok c' → c'.result.cancelled = false → done = pending ∧
    ∃ insertions : List Insertion, insertions.length = pending.length ∧ c' = c.gain { insertions }

section

variable {reporting : Bool} {f : Focus} {pending done rest : List Focus} {i : Insertion}
  {o : Except GenerationFault Collected × Desk}

/-- A run that is given up or cancelled before the first report. -/
theorem Reported.stopped (hledger : o.2.ledger = d.ledger)
    (hstopped : ∀ c', o.1 = .ok c' → c'.result.cancelled = true) :
    Reported reporting pending [] c d o where
  among := List.nil_prefix
  heard := by cases reporting <;> simpa [reports] using hledger
  all c' hok hnot := by
    rw [hstopped c' hok] at hnot
    cases hnot

/-- One more declaration is reported before the others. -/
theorem Reported.cons (h : Reported reporting rest done (c.add i) d' o)
    (hledger : d'.ledger = (if reporting then reports [f] else []).foldl Ledger.hear d.ledger) :
    Reported reporting (f :: rest) (f :: done) c d o where
  among := List.cons_prefix_cons.mpr ⟨rfl, h.among⟩
  heard := by
    rw [h.heard, hledger]
    cases reporting <;> rfl
  all c' hok hnot := by
    obtain ⟨rfl, insertions, hlength, rfl⟩ := h.all c' hok hnot
    refine ⟨rfl, i :: insertions, by simp [hlength], ?_⟩
    rw [Collected.add_eq_gain, ← Collected.gain_append]
    rfl

end

theorem collectDeclarations_reported (g : Generator) (file text : String) (reporting : Bool)
    (pending : List Focus) (c : Collected) (d : Desk) :
    ∃ done, Reported reporting pending done c d
      (g.collectDeclarations file text reporting pending c d) := by
  induction pending generalizing c d with
  | nil =>
    refine ⟨[], List.prefix_rfl, by simp [collectDeclarations, reports], ?_⟩
    rintro c' ⟨⟩ -
    exact ⟨rfl, [], rfl, c.gain_nothing.symm⟩
  | cons f rest ih =>
    have hkept := g.header_leaves_ledger f text false d
    rcases hheader : g.header f text false d with ⟨e | header, d₁⟩ <;> rw [hheader] at hkept
    · refine ⟨[], .stopped ?_ ?_⟩ <;>
        simp only [collectDeclarations, Work.lift_bind, hheader, Work.throw_apply]
      · exact hkept
      · rintro c' ⟨⟩
    have hlooked := (g.look_leaves_ledger c.result d₁).trans hkept
    cases hset : (g.look c.result d₁).1.cancelled with
    | true =>
      refine ⟨[], .stopped ?_ ?_⟩ <;>
        simp only [collectDeclarations, Work.lift_bind, hheader, hset, if_true, Work.pure_apply]
      · exact hlooked
      · rintro c' ⟨⟩
        exact hset
    | false =>
      cases reporting with
      | true =>
        obtain ⟨done, hrest⟩ := ih (c.add ⟨file, f.insertionOffset, header⟩)
          (advance g.surroundings ((given? f.info.name).getD f.kind) (g.look c.result d₁).2).2
        refine ⟨f :: done, ?_⟩
        simp only [collectDeclarations, Work.lift_bind, hheader, hset, Bool.false_eq_true,
          if_false, if_true]
        exact hrest.cons (by rw [advance_ledger, hlooked]; rfl)
      | false =>
        obtain ⟨done, hrest⟩ := ih (c.add ⟨file, f.insertionOffset, header⟩)
          (g.look c.result d₁).2
        refine ⟨f :: done, ?_⟩
        simp only [collectDeclarations, Work.lift_bind, hheader, hset, Bool.false_eq_true,
          if_false]
        exact hrest.cons hlooked

/-! ## Files -/

/-- The outcome of a visit to a file. What is reported is bounded, and nothing is where a
directory is visited. Unless the run was given up or cancelled it has gained what the visit
brings, and all is reported. -/
structure Visited (g : Generator) (reporting : Bool) (file : String) (c : Collected) (d : Desk)
    (calls : List ProgressCall) (o : Except GenerationFault Collected × Desk) : Prop where
  bounded : Bounded calls
  quiet : reporting = false → calls = []
  heard : d.Hears calls o.2
  all : ∀ c', o.1 = .ok c' → c'.result.cancelled = false →
    (reporting = true → calls = callsOf (g.surroundings.visit d.disk.tree d.parsed file)) ∧
    o.2.disk = d.disk ∧
    o.2.parsed = (g.surroundings.visit d.disk.tree d.parsed file).given d.parsed ∧
    ∃ s, Share.IsOf [g.surroundings.visit d.disk.tree d.parsed file] s ∧ c' = c.gain s

section

variable {reporting : Bool} {calls : List ProgressCall} {v : Visit} {tree : Focus}
  {done : List Focus} {o : Except GenerationFault Collected × Desk}

/-- A visit that is given up or cancelled before anything is announced. -/
theorem Visited.stopped (h : Halted d o) : Visited g reporting file c d [] o where
  bounded := .inl rfl
  quiet _ := rfl
  heard := h.1
  all c' hok hnot := by
    rw [h.2 c' hok] at hnot
    cases hnot

/-- A visit to a file that cannot be read or parsed. -/
theorem Visited.failed {reason : String}
    (hvisit : g.surroundings.visit d.disk.tree d.parsed file = v)
    (hfailure : v.failure? = some ⟨file, firstLine reason⟩)
    (hledger : d'.ledger = { d.ledger with parsed := v.given d.parsed }) :
    Visited g reporting file c d [] (.ok (c.fail file reason), d') where
  bounded := .inl rfl
  quiet _ := rfl
  heard := congrArg Ledger.receiver hledger
  all c' hok _ := by
    cases hok
    have hcalls : callsOf v = [] := by
      rcases v.counted_once with ⟨-, hnone⟩ | ⟨hnone, -⟩
      · simp [hnone] at hfailure
      · simp [callsOf, hnone]
    rw [hvisit, hcalls]
    exact ⟨fun _ => rfl, congrArg Ledger.disk hledger, congrArg Ledger.parsed hledger, _,
      .of_failure hfailure, c.fail_eq_gain file reason⟩

/-- A visit to a file that is parsed. -/
theorem Visited.parsed
    (hvisit : g.surroundings.visit d.disk.tree d.parsed file = ⟨file, .parsed tree⟩)
    (hledger : d'.ledger =
      (if reporting then [announcement tree] else []).foldl Ledger.hear (d.ledger.give file))
    (h : Reported reporting tree.pending done (c.countFile file tree) d' o) :
    Visited g reporting file c d (if reporting then announcement tree :: reports done else [])
      o where
  bounded := by
    cases reporting with
    | false => exact .inl rfl
    | true =>
      refine .inr ⟨tree.pending.length, "Generating JSDoc for " ++
        toString tree.pending.length ++ " declaration(s)",
        done.map fun f => (given? f.info.name).getD f.kind, ?_, ?_⟩
      · simp [announcement, reports, Function.comp_def]
      · simpa using h.among.length_le
  quiet hquiet := by simp [hquiet]
  heard := by
    have hheard := h.heard
    rw [hledger, Ledger.foldl_hear, Ledger.foldl_hear] at hheard
    have hreceiver := congrArg Ledger.receiver hheard
    cases reporting <;> exact hreceiver
  all c' hok hnot := by
    obtain ⟨rfl, insertions, hlength, rfl⟩ := h.all c' hok hnot
    have hheard := h.heard
    rw [hledger, Ledger.foldl_hear, Ledger.foldl_hear] at hheard
    rw [hvisit]
    refine ⟨?_, congrArg Ledger.disk hheard, congrArg Ledger.parsed hheard,
      { insertions, parsed := 1, unplaced := unplacedIn file tree ++ [] }, .of_tree hlength, ?_⟩
    · rintro rfl
      rfl
    · rw [Collected.countFile_eq_gain, ← Collected.gain_append]
      rfl

end

/-- A visit to a file halts, or the file fails, or its tree is what is worked on. -/
theorem collectFile_stages (g : Generator) (reporting : Bool) (file : String) (c : Collected)
    (d : Desk) :
    Halted d (g.collectFile file reporting c d) ∨
    (∃ reason d', (g.surroundings.visit d.disk.tree d.parsed file).failure? =
        some ⟨file, firstLine reason⟩ ∧
      d'.ledger = { d.ledger with
        parsed := (g.surroundings.visit d.disk.tree d.parsed file).given d.parsed } ∧
      g.collectFile file reporting c d = (.ok (c.fail file reason), d')) ∨
    ∃ text tree d', g.surroundings.visit d.disk.tree d.parsed file = ⟨file, .parsed tree⟩ ∧
      d'.ledger = d.ledger.give file ∧
      g.collectFile file reporting c d = g.collectTree file text reporting tree c d' := by
  have hread := readText_fst g.surroundings file d
  have hkept := readText_leaves_ledger (s := g.surroundings) file d
  rcases hfound : readText g.surroundings file d with ⟨e | text, d₁⟩ <;> rw [hfound] at hread hkept
  · have hvisit : g.surroundings.visit d.disk.tree d.parsed file = ⟨file, .unread e⟩ := by
      simp only [Surroundings.visit, ← hread]
    have hrecorded := recordFailure_leaves_ledger c.result file e.message d₁
    refine .inr (.inl ⟨e.message, (recordFailure c.result file e.message d₁).2, ?_, ?_, ?_⟩)
    · rw [hvisit]
      rfl
    · rw [hvisit]
      exact hrecorded.trans hkept
    · simp only [collectFile, Work.lift_bind, hfound, Work.pure_apply]
      rfl
  have hlooked := (g.look_leaves_ledger c.result d₁).trans hkept
  rcases hlook : g.look c.result d₁ with ⟨r, d₂⟩
  rw [hlook] at hlooked
  cases hset : r.cancelled with
  | true =>
    have hgoes : g.collectFile file reporting c d = (.ok { c with result := r }, d₂) := by
      simp only [collectFile, Work.lift_bind, hfound, hlook, hset, if_true, Work.pure_apply]
    exact .inl (hgoes ▸ .of_cancelled (congrArg Ledger.receiver hlooked) hset)
  | false =>
    have hparse := parse_fst g.surroundings file text d₂
    have hgiven := parse_ledger g.surroundings file text d₂
    rw [show d₂.parsed = d.parsed from congrArg Ledger.parsed hlooked] at hparse
    rw [hlooked] at hgiven
    rcases hrun : parse g.surroundings file text d₂ with ⟨e | tree, d₃⟩ <;>
      rw [hrun] at hparse hgiven
    · have hvisit : g.surroundings.visit d.disk.tree d.parsed file = ⟨file, .unparsed e⟩ := by
        simp only [Surroundings.visit, ← hread, ← hparse]
      cases hrecoverable : e.isRecoverable with
      | true =>
        have hrecorded := recordFailure_leaves_ledger c.result file e.message d₃
        refine .inr (.inl ⟨e.message, (recordFailure c.result file e.message d₃).2, ?_, ?_, ?_⟩)
        · rw [hvisit]
          rfl
        · rw [hvisit]
          exact hrecorded.trans hgiven
        · simp only [collectFile, Work.lift_bind, hfound, hlook, hset, Bool.false_eq_true,
            if_false, hrun, hrecoverable, if_true, Work.pure_apply]
          rfl
      | false =>
        have hgoes : g.collectFile file reporting c d = (.error (.unparsed e), d₃) := by
          simp only [collectFile, Work.lift_bind, hfound, hlook, hset, Bool.false_eq_true,
            if_false, hrun, hrecoverable, Work.throw_apply]
        exact .inl (hgoes ▸ .of_error (congrArg Ledger.receiver hgiven))
    · refine .inr (.inr ⟨text, tree, d₃, ?_, hgiven, ?_⟩)
      · simp only [Surroundings.visit, ← hread, ← hparse]
      · simp only [collectFile, Work.lift_bind, hfound, hlook, hset, Bool.false_eq_true,
          if_false, hrun]

/-- The declarations of a tree are announced where they are reported, and then worked on, if they
can be put in order. -/
theorem collectTree_announces (g : Generator) (file text : String) (reporting : Bool)
    (tree : Focus) (c : Collected) (d : Desk) :
    g.collectTree file text reporting tree c d = (.error .unusable, d) ∨
    ∃ d', d'.ledger = (if reporting then [announcement tree] else []).foldl Ledger.hear d.ledger ∧
      g.collectTree file text reporting tree c d =
        g.collectDeclarations file text reporting tree.pending (c.countFile file tree) d' := by
  cases hsorted : tree.isUnsortable with
  | true => exact .inl (by simp only [collectTree, hsorted, if_true, Work.throw_apply])
  | false =>
    refine .inr ?_
    cases reporting with
    | true =>
      refine ⟨_, begin_ledger g.surroundings tree.pending.length ("Generating JSDoc for " ++
        toString tree.pending.length ++ " declaration(s)") d, ?_⟩
      simp only [collectTree, hsorted, Work.lift_bind, Bool.false_eq_true, if_false, if_true]
    | false =>
      refine ⟨d, rfl, ?_⟩
      simp only [collectTree, hsorted, Bool.false_eq_true, if_false]

theorem collectFile_visited (g : Generator) (reporting : Bool) (file : String) (c : Collected)
    (d : Desk) :
    ∃ calls, Visited g reporting file c d calls (g.collectFile file reporting c d) := by
  rcases g.collectFile_stages reporting file c d with hhalted |
    ⟨reason, d', hfailure, hledger, hgoes⟩ | ⟨text, tree, d', hvisit, hledger, hgoes⟩
  · exact ⟨[], .stopped hhalted⟩
  · rw [hgoes]
    exact ⟨[], .failed rfl hfailure hledger⟩
  · rcases g.collectTree_announces file text reporting tree c d' with
      hunusable | ⟨d₁, hannounced, htree⟩
    · rw [hgoes, hunusable]
      exact ⟨[], .stopped (.of_error (congrArg Ledger.receiver hledger))⟩
    obtain ⟨done, hreported⟩ := g.collectDeclarations_reported file text reporting tree.pending
      (c.countFile file tree) d₁
    rw [hledger] at hannounced
    rw [hgoes, htree]
    exact ⟨_, .parsed hvisit hannounced hreported⟩

/-! ## Directories -/

/-- The next file of a directory: the run halts there, or it reports the file and goes on with
what the visit brought. -/
theorem collectFiles_next (g : Generator) (file : String) (rest : List String) (c : Collected)
    (d : Desk) :
    Halted d (g.collectFiles (file :: rest) c d) ∨
    ∃ s d', Share.IsOf [g.surroundings.visit d.disk.tree d.parsed file] s ∧
      d'.ledger = { d.ledger.hear (.advance file) with
        parsed := (g.surroundings.visit d.disk.tree d.parsed file).given d.parsed } ∧
      g.collectFiles (file :: rest) c d = g.collectFiles rest (c.gain s) d' := by
  have hlooked := g.look_leaves_ledger c.result d
  rcases hlook : g.look c.result d with ⟨r, d₁⟩
  rw [hlook] at hlooked
  cases hset : r.cancelled with
  | true =>
    have hgoes : g.collectFiles (file :: rest) c d = (.ok { c with result := r }, d₁) := by
      simp only [collectFiles, Work.lift_bind, hlook, hset, if_true, Work.pure_apply]
    exact .inl (hgoes ▸ .of_cancelled (congrArg Ledger.receiver hlooked) hset)
  | false =>
    obtain ⟨calls, hvisited⟩ := g.collectFile_visited false file c d₁
    obtain rfl : calls = [] := hvisited.quiet rfl
    have hquiet := hvisited.heard.trans (congrArg Ledger.receiver hlooked)
    have hall := hvisited.all
    rw [show d₁.disk = d.disk from congrArg Ledger.disk hlooked,
      show d₁.parsed = d.parsed from congrArg Ledger.parsed hlooked] at hall
    rcases hfile : g.collectFile file false c d₁ with ⟨e | c₁, d₂⟩ <;> rw [hfile] at hquiet hall
    · have hgoes : g.collectFiles (file :: rest) c d = (.error e, d₂) := by
        simp only [collectFiles, Work.lift_bind, hlook, hset, Bool.false_eq_true, if_false]
        simp only [Work.bind_apply, hfile]
      exact .inl (hgoes ▸ .of_error hquiet)
    cases hstopped : c₁.result.cancelled with
    | true =>
      have hgoes : g.collectFiles (file :: rest) c d = (.ok c₁, d₂) := by
        simp only [collectFiles, Work.lift_bind, hlook, hset, Bool.false_eq_true, if_false]
        simp only [Work.bind_apply, hfile, hstopped, if_true, Work.pure_apply]
      exact .inl (hgoes ▸ .of_cancelled hquiet hstopped)
    | false =>
      obtain ⟨-, hdisk, hgiven, s, hs, rfl⟩ := hall c₁ rfl hstopped
      refine .inr ⟨s, (advance g.surroundings file d₂).2, hs, ?_, ?_⟩
      · rw [advance_ledger, ledger, hdisk, hgiven]
        exact congrArg (fun r => Ledger.hear ⟨d.disk, _, r⟩ (.advance file)) hquiet
      · simp only [collectFiles, Work.lift_bind, hlook, hset, Bool.false_eq_true, if_false]
        simp only [Work.bind_apply, hfile]
        simp only [hstopped, Bool.false_eq_true, if_false, Work.lift_bind]

/-- The files whose visits are reported are the first ones. Unless the run was given up or
cancelled they are all, and it has gained what the visits bring. -/
theorem collectFiles_visited (g : Generator) (files : List String) (c : Collected) (d : Desk) :
    ∃ done, done <+: files ∧ d.Hears (done.map .advance) (g.collectFiles files c d).2 ∧
      ∀ c', (g.collectFiles files c d).1 = .ok c' → c'.result.cancelled = false →
        done = files ∧
        ∃ s, Share.IsOf (g.surroundings.visits d.disk.tree d.parsed files) s ∧ c' = c.gain s := by
  induction files generalizing c d with
  | nil =>
    refine ⟨[], List.prefix_rfl, rfl, ?_⟩
    rintro c' ⟨⟩ -
    exact ⟨rfl, {}, .nothing, c.gain_nothing.symm⟩
  | cons file rest ih =>
    rcases g.collectFiles_next file rest c d with ⟨hquiet, hhalted⟩ | ⟨s, d₁, hs, hledger, hgoes⟩
    · refine ⟨[], List.nil_prefix, hquiet, fun c' hok hnot => ?_⟩
      rw [hhalted c' hok] at hnot
      cases hnot
    · obtain ⟨done, hprefix, hheard, hrest⟩ := ih (c.gain s) d₁
      rw [show d₁.disk = d.disk from congrArg Ledger.disk hledger,
        show d₁.parsed = _ from congrArg Ledger.parsed hledger] at hrest
      rw [hgoes]
      refine ⟨file :: done, List.cons_prefix_cons.mpr ⟨rfl, hprefix⟩, ?_, fun c' hok hnot => ?_⟩
      · rw [Hears, hheard, show d₁.receiver = _ from congrArg Ledger.receiver hledger]
        rfl
      · obtain ⟨rfl, t, ht, rfl⟩ := hrest c' hok hnot
        exact ⟨rfl, s ++ t, hs.append ht, (c.gain_append s t).symm⟩

/-- The files found are announced, and then visited. -/
theorem collectFound_visited (g : Generator) (scope : Scope) (root : String) (files : List String)
    (d : Desk) :
    ∃ calls, d.Hears calls (g.collectFound scope root files d).2 ∧ Bounded calls ∧
      ∀ c', (g.collectFound scope root files d).1 = .ok c' → c'.result.cancelled = false →
        calls = announcementOf root files :: files.map .advance ∧
        ∃ s, Share.IsOf (g.surroundings.visits d.disk.tree d.parsed files) s ∧
          c' = (Collected.start scope).gain s := by
  have hfound := complete_leaves_ledger (s := g.surroundings) (e := .find) rfl d
  have hlooked := (g.look_leaves_ledger { scope } (complete g.surroundings .find d).2).trans hfound
  cases hset : (g.look { scope } (complete g.surroundings .find d).2).1.cancelled with
  | true =>
    refine ⟨[], ?_, .inl rfl, ?_⟩ <;>
      simp only [collectFound, Work.lift_bind, hset, if_true, Work.pure_apply]
    · exact congrArg Ledger.receiver hlooked
    · rintro c' ⟨⟩ hnot
      rw [hset] at hnot
      cases hnot
  | false =>
    have hscope := g.look_fst hset
    have hbegun := begin_ledger g.surroundings files.length ("Generating JSDoc for " ++
      toString files.length ++ " file(s) in " ++ root)
      (g.look { scope } (complete g.surroundings .find d).2).2
    rcases hbegin : begin g.surroundings files.length ("Generating JSDoc for " ++
      toString files.length ++ " file(s) in " ++ root)
      (g.look { scope } (complete g.surroundings .find d).2).2 with ⟨_, d₁⟩
    rw [hbegin, hlooked] at hbegun
    have hgoes : g.collectFound scope root files d = g.collectFiles files (.start scope) d₁ := by
      simp only [collectFound, Work.lift_bind, Bool.false_eq_true, if_false, hbegin, hscope]
    have hreceiver : d₁.receiver = d.receiver.hear (announcementOf root files) :=
      congrArg Ledger.receiver hbegun
    obtain ⟨done, hprefix, hheard, hall⟩ := g.collectFiles_visited files (.start scope) d₁
    rw [show d₁.disk = d.disk from congrArg Ledger.disk hbegun,
      show d₁.parsed = d.parsed from congrArg Ledger.parsed hbegun] at hall
    rw [hgoes]
    refine ⟨announcementOf root files :: done.map .advance, ?_, ?_, ?_⟩
    · rw [Hears, hheard, hreceiver]
      rfl
    · exact .inr ⟨files.length, _, done, rfl, hprefix.length_le⟩
    · intro c' hok hnot
      obtain ⟨rfl, hgained⟩ := hall c' hok hnot
      exact ⟨rfl, hgained⟩

/-! ## Requests -/

/-- Finishing is not heard. -/
theorem finish_receiver (g : Generator) (c : Collected) (d : Desk) :
    (g.finish c d).2.receiver = d.receiver := by
  by_cases hidle : c.result.cancelled = true ∨ c.result.generated = 0
  · rw [finish_of_idle g d hidle]
  · obtain ⟨hc, hpos⟩ := not_or.mp hidle
    rw [finish_of_pending g d (by simpa using hc) (by omega)]
    rfl

/-- What was gained is what is counted. -/
theorem finish_accounts (g : Generator) (scope : Scope) {visits : List Visit} {s : Share}
    (hs : s.IsOf visits) (d : Desk) :
    Accounts visits (g.finish ((Collected.start scope).gain s) d).1 := by
  obtain ⟨hgenerated, hprocessed, hfailures⟩ := g.finish_counts scope s d
  refine ⟨hprocessed.trans hs.parsed, hfailures.trans hs.failures, ?_,
    hgenerated.trans hs.insertions⟩
  rw [hprocessed, hs.parsed, hfailures, hs.failures, parsedFiles_add_failures]

/-- A request for a directory is given up at once, or documents the files found there. -/
theorem generate_directory_cases (g : Generator) {t : Target} {root : String}
    (ht : t = .folder root ∨ t = .workspace root) (d : Desk) :
    (∃ e, g.generate t d = (.error e, d)) ∨
      g.generate t d = g.generateFound t.scope root (g.filesIn root d) d := by
  rcases ht with rfl | rfl
  all_goals
    simp only [generate, generateFound, collect, Target.scope, Work.bind_apply]
  · rcases g.collectDirectory_cases .folder root d with ⟨e, -, hrefused⟩ | hfound
    · exact .inl ⟨e, by rw [hrefused]⟩
    · exact .inr (by rw [hfound])
  · rcases g.collectDirectory_cases .workspace root d with ⟨e, -, hrefused⟩ | hfound
    · exact .inl ⟨e, by rw [hrefused]⟩
    · exact .inr (by rw [hfound])

/-- **The accounts of a request.** A request for files, however they were found, that is neither
given up nor cancelled has visited all of them: it counts each file once, as parsed or as one
failure, in the order of the files, and it counts the declarations without a header in the trees
that were parsed; the receiver of progress was told the number of files, and then of each. A
request for a folder or a workspace is one for the files found there, unless it is given up at
once. A request for one file that is parsed tells the receiver the number of declarations, and
then of each. Whether or not a request is given up or cancelled, it reports no more than it
announced. -/
theorem generate_accounts (g : Generator) (d : Desk) :
    (∀ (scope : Scope) (root : String) (files : List String),
      (∃ calls, Bounded calls ∧ d.Hears calls (g.generateFound scope root files d).2) ∧
      ∀ r, (g.generateFound scope root files d).1 = .ok r → r.cancelled = false →
        (g.surroundings.visits d.disk.tree d.parsed files).map Visit.file = files ∧
        Accounts (g.surroundings.visits d.disk.tree d.parsed files) r ∧
        d.Hears (announcementOf root files :: files.map .advance)
          (g.generateFound scope root files d).2) ∧
    (∀ (t : Target) (root : String), t = .folder root ∨ t = .workspace root →
      (∃ e, g.generate t d = (.error e, d)) ∨
        g.generate t d = g.generateFound t.scope root (g.filesIn root d) d) ∧
    ∀ path : String,
      (∃ calls, Bounded calls ∧ d.Hears calls (g.generate (.file path) d).2) ∧
      ∀ r, (g.generate (.file path) d).1 = .ok r → r.cancelled = false →
        Accounts [g.surroundings.visit d.disk.tree d.parsed path] r ∧
        d.Hears (callsOf (g.surroundings.visit d.disk.tree d.parsed path))
          (g.generate (.file path) d).2 := by
  refine ⟨fun scope root files => ?_, fun t root ht => g.generate_directory_cases ht d,
    fun path => ?_⟩
  · obtain ⟨calls, hheard, hbounded, hall⟩ := g.collectFound_visited scope root files d
    rcases hcollect : g.collectFound scope root files d with ⟨e | c, d₁⟩ <;>
      rw [hcollect] at hheard hall
    · simp only [generateFound, Work.bind_apply, hcollect]
      refine ⟨⟨calls, hbounded, hheard⟩, ?_⟩
      rintro r ⟨⟩
    · rw [g.generateFound_of_collect hcollect]
      rcases g.conclude_cases c d₁ with ⟨-, -, hunusable⟩ | ⟨-, hconcluded⟩
      · rw [hunusable]
        refine ⟨⟨calls, hbounded, hheard⟩, ?_⟩
        rintro r ⟨⟩
      rw [hconcluded]
      have hfinished := (g.finish_receiver c d₁).trans hheard
      refine ⟨⟨calls, hbounded, hfinished⟩, ?_⟩
      rintro r ⟨⟩ hnot
      rw [(g.finish_spec c d₁).1] at hnot
      obtain ⟨rfl, s, hs, rfl⟩ := hall c rfl hnot
      exact ⟨g.surroundings.map_file_visits _ _ files, g.finish_accounts scope hs d₁, hfinished⟩
  · by_cases hsupported : (SourceLanguage.ofFile? path).isSome = true
    · obtain ⟨calls, hvisited⟩ := g.collectFile_visited true path (.start .file) d
      have hheard := hvisited.heard
      have hall := hvisited.all
      rcases hcollect : g.collectFile path true (.start .file) d with ⟨e | c, d₁⟩ <;>
        rw [hcollect] at hheard hall
      · simp only [generate, collect, Work.bind_apply, checkLanguage_of_supported hsupported,
          hcollect]
        refine ⟨⟨calls, hvisited.bounded, hheard⟩, ?_⟩
        rintro r ⟨⟩
      · rw [g.generate_file_of_collect hsupported hcollect]
        rcases g.conclude_cases c d₁ with ⟨-, -, hunusable⟩ | ⟨-, hconcluded⟩
        · rw [hunusable]
          refine ⟨⟨calls, hvisited.bounded, hheard⟩, ?_⟩
          rintro r ⟨⟩
        rw [hconcluded]
        have hfinished := (g.finish_receiver c d₁).trans hheard
        refine ⟨⟨calls, hvisited.bounded, hfinished⟩, ?_⟩
        rintro r ⟨⟩ hnot
        rw [(g.finish_spec c d₁).1] at hnot
        obtain ⟨hcalls, -, -, s, hs, rfl⟩ := hall c rfl hnot
        obtain rfl := hcalls rfl
        exact ⟨g.finish_accounts .file hs d₁, hfinished⟩
    · have hrefused := checkLanguage_of_unsupported (Option.not_isSome_iff_eq_none.mp hsupported) d
      simp only [generate, collect, Work.bind_apply, hrefused]
      refine ⟨⟨[], .inl rfl, rfl⟩, ?_⟩
      rintro r ⟨⟩

/-- Of two files the second cannot be read. -/
theorem generateFound_accounts_for_missing_file :
    let g := documenting fun _ _ => false
    ∃ r, (g.generateFound .folder "." ["a.ts", "b.ts"] oneFile).1 = .ok r ∧
      r.filesProcessed = 1 ∧ r.failures.length = 1 ∧
      Accounts (g.surroundings.visits oneFile.disk.tree [] ["a.ts", "b.ts"]) r ∧
      oneFile.Hears (announcementOf "." ["a.ts", "b.ts"] :: [.advance "a.ts", .advance "b.ts"])
        (g.generateFound .folder "." ["a.ts", "b.ts"] oneFile).2 := by
  intro g
  have hcounts : (g.generateFound .folder "." ["a.ts", "b.ts"] oneFile).1.toOption.map
      (fun r => (r.cancelled, r.filesProcessed, r.failures.length)) = some (false, 1, 1) := by
    decide +kernel
  cases hrun : (g.generateFound .folder "." ["a.ts", "b.ts"] oneFile).1 with
  | error e => simp [hrun, Except.toOption] at hcounts
  | ok r =>
    simp only [hrun, Except.toOption, Option.map_some, Option.some.injEq, Prod.mk.injEq] at hcounts
    obtain ⟨hnot, hprocessed, hfailures⟩ := hcounts
    obtain ⟨-, haccounts, hheard⟩ :=
      ((g.generate_accounts oneFile).1 .folder "." ["a.ts", "b.ts"]).2 r hrun hnot
    exact ⟨r, rfl, hprocessed, hfailures, haccounts, hheard⟩

end Generator

end DocHeader

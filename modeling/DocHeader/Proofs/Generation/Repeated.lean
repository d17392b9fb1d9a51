import DocHeader.Proofs.Declaration.Headed
import DocHeader.Proofs.Generation.Position
import DocHeader.Proofs.Generation.Separate

/-!
# Requests made twice

No request inserts a header for a declaration that has one, be it its own or that of its anchor.
And a request for a file that was applied leaves no declaration of the file without a header.
So the same request made again finds nothing to do, as long as the syntax helper finds the same
tree with the new headers in it.

## Main definitions

* `Focus.IsBare` — a declaration without a header.
* `Generator.Documents` — an insertion is the header of a declaration.
* `Generator.Deserved` — an insertion is the header of a declaration without one.
* `Generator.Brings` — what a file adds to the headers that are collected.
* `Generator.HandsOver` — a request for a position that gives its sink a header.
* `Generator.Documented` — a file all of whose declarations have headers.
* `Generator.HasNothingToDo` — a request for a file that finds nothing to do.
-/

namespace DocHeader

/-- Neither the declaration nor its anchor has a header. -/
def Focus.IsBare (f : Focus) : Prop :=
  given? f.info.header = none ∧ given? f.anchor.info.header = none

theorem Focus.hasHeader_eq_false_iff {f : Focus} : f.hasHeader = false ↔ f.IsBare := by
  simp [hasHeader, IsBare]

namespace Generator

open Desk

variable {g : Generator} {c c' : Collected} {d d' e : Desk} {file text path : String}
  {files : List String} {reporting : Bool}

/-- An insertion into a file is the header of a declaration. -/
structure Documents (g : Generator) (file text : String) (f : Focus) (i : Insertion) : Prop where
  file : i.file = file
  offset : i.offset = f.insertionOffset
  built : ∃ j, g.HeaderOf f text false j i.text

/-- An insertion is the header of a declaration of its file that has none. -/
def Deserved (g : Generator) (t : FileTree) (i : Insertion) : Prop :=
  ∃ text earlier tree f, t.read g.surroundings.here i.file = .ok text ∧
    (g.surroundings.helper earlier i.file text).parse i.file text = .ok tree ∧
    tree.IsCandidate f ∧ f.IsBare ∧ g.Documents i.file text f i

/-! ## Declarations -/

/-- The headers that are collected are those of the first declarations, in their order. Without
a cancellation they are those of all. -/
theorem collectDeclarations_documents {pending : List Focus} (hc : c.result.cancelled = false)
    (h : g.collectDeclarations file text reporting pending c d = (.ok c', d')) :
    ∃ made added, c'.batch = c.batch ++ added ∧
      List.Forall₂ (g.Documents file text) made added ∧ made <+: pending ∧
      (c'.result.cancelled = false → made = pending) := by
  induction pending generalizing c d with
  | nil =>
    cases h
    exact ⟨[], [], by simp, .nil, List.nil_prefix, fun _ => rfl⟩
  | cons f rest ih =>
    rcases g.header_cases f text false d with
      ⟨header, d₁, hheader, -⟩ | ⟨e, d₁, hheader, -⟩
    case inr =>
      rw [g.collectDeclarations_of_unbuilt reporting hheader] at h
      cases h
    rcases g.collectDeclarations_of_built reporting hc hheader with
      ⟨-, d₂, -, hcollect⟩ | ⟨-, d₂, -, hcollect⟩ <;> rw [hcollect] at h
    · cases h
      exact ⟨[], [], by simp [Collected.stop], .nil, List.nil_prefix, nofun⟩
    · obtain ⟨made, added, hbatch, hmade, hprefix, hall⟩ := ih (c := c.add _) hc h
      refine ⟨f :: made, ⟨file, f.insertionOffset, header⟩ :: added, ?_, .cons ?_ hmade, ?_, ?_⟩
      · rw [hbatch, Collected.add, List.append_assoc, List.singleton_append]
      · exact ⟨rfl, rfl, _, headerOf_of_header hheader⟩
      · exact List.cons_prefix_cons.mpr ⟨rfl, hprefix⟩
      · intro hcancelled
        rw [hall hcancelled]

/-! ## Files -/

/-- What a file brings: nothing, or it was read and parsed, and the headers of its first
declarations without one are collected. -/
inductive Brings (g : Generator) (d : Desk) (file : String) (c c' : Collected) : Prop where
  | nothing (batch : c'.batch = c.batch)
  | headers {text : String} {tree : Focus} {made : List Focus} {added : List Insertion}
    (read : d.disk.tree.read g.surroundings.here file = .ok text)
    (parsed : (g.surroundings.helper d.parsed file text).parse file text = .ok tree)
    (batch : c'.batch = c.batch ++ added)
    (documents : List.Forall₂ (g.Documents file text) made added)
    (first : made <+: tree.pending)
    (all : c'.result.cancelled = false → made = tree.pending)

theorem collectFile_brings (hc : c.result.cancelled = false)
    (h : g.collectFile file reporting c d = (.ok c', d')) : g.Brings d file c c' := by
  have htext := readText_fst g.surroundings file d
  have hread_keeps := readText_keeps g.surroundings file d
  rcases hread : readText g.surroundings file d with ⟨e | text, d₁⟩ <;>
    rw [hread] at htext hread_keeps
  · obtain ⟨d₂, -, hcollect⟩ := g.collectFile_of_unread (c := c) reporting hread
    rw [hcollect] at h
    cases h
    exact .nothing rfl
  rcases g.collectFile_of_read reporting hc hread with
    ⟨-, d₂, -, hcollect⟩ | ⟨-, d₂, hlooked, htree, hfailed⟩
  · rw [hcollect] at h
    cases h
    exact .nothing rfl
  have hrun := parse_fst g.surroundings file text d₂
  rw [hlooked.keeps.parsed, hread_keeps.parsed] at hrun
  rcases hparse : parse g.surroundings file text d₂ with ⟨e | tree, d₃⟩ <;> rw [hparse] at hrun
  · cases hrecoverable : e.isRecoverable with
    | true =>
      obtain ⟨d₄, -, hcollect⟩ := (hfailed e d₃ hparse).1 hrecoverable
      rw [hcollect] at h
      cases h
      exact .nothing rfl
    | false =>
      rw [(hfailed e d₃ hparse).2 hrecoverable] at h
      cases h
  · rw [htree tree d₃ hparse] at h
    rcases g.collectTree_turns reporting file text tree c d₃ with
      ⟨-, hunusable⟩ | ⟨-, d₄, -, hcollect⟩
    · rw [hunusable] at h
      cases h
    rw [hcollect] at h
    obtain ⟨made, added, hbatch, hdocuments, hfirst, hall⟩ :=
      collectDeclarations_documents (c := c.countFile file tree) hc h
    exact .headers htext.symm hrun.symm hbatch hdocuments hfirst hall

/-- What a file brings are headers of declarations without one. -/
theorem Brings.deserved (h : g.Brings d file c c')
    (hbatch : ∀ i ∈ c.batch, g.Deserved d.disk.tree i) :
    ∀ i ∈ c'.batch, g.Deserved d.disk.tree i := by
  cases h with
  | nothing batch => rwa [batch]
  | @headers text tree made added hread hparsed batch documents first all =>
    rw [batch]
    intro i hi
    rcases List.mem_append.mp hi with hi | hi
    · exact hbatch i hi
    · obtain ⟨f, hf, hdocuments⟩ := exists_rel_of_mem documents hi
      obtain ⟨hcandidate, hbare⟩ := Focus.mem_pending.mp (first.subset hf)
      obtain rfl := hdocuments.file
      exact ⟨text, d.parsed, tree, f, hread, hparsed, hcandidate,
        Focus.hasHeader_eq_false_iff.mp hbare, hdocuments⟩

theorem collectFiles_deserved (hc : c.result.cancelled = false)
    (hbatch : ∀ i ∈ c.batch, g.Deserved d.disk.tree i)
    (h : g.collectFiles files c d = (.ok c', d')) :
    ∀ i ∈ c'.batch, g.Deserved d.disk.tree i := by
  induction files generalizing c d with
  | nil =>
    cases h
    exact hbatch
  | cons file rest ih =>
    rcases g.collectFiles_cons hc file rest d with
      ⟨-, d₁, -, hcollect⟩ | ⟨-, d₁, hlooked, hraised, hvisited⟩
    · rw [hcollect] at h
      cases h
      exact hbatch
    rw [← hlooked.keeps.disk] at hbatch ⊢
    have hdisk := (g.collectFile_phase file false d₁ hc).disk_eq
    rcases hfile : g.collectFile file false c d₁ with ⟨e | c₁, d₂⟩ <;> rw [hfile] at hdisk
    · rw [hraised e d₂ hfile] at h
      cases h
    have hbatch₁ := (collectFile_brings hc hfile).deserved hbatch
    cases hstopped : c₁.result.cancelled with
    | true =>
      rw [(hvisited c₁ d₂ hfile).1 hstopped] at h
      cases h
      exact hbatch₁
    | false =>
      obtain ⟨d₃, hadvanced, hrest⟩ := (hvisited c₁ d₂ hfile).2 hstopped
      rw [hrest] at h
      have hback : d₃.disk = d₁.disk := hadvanced.keeps.disk.trans hdisk
      rw [← hback] at hbatch₁ ⊢
      exact ih hstopped hbatch₁ h

theorem collectDirectory_deserved {scope : Scope} {root : String}
    (h : g.collectDirectory scope root d = (.ok c', d')) :
    ∀ i ∈ c'.batch, g.Deserved d.disk.tree i := by
  rcases g.collectDirectory_cases scope root d with ⟨e, -, hrefused⟩ | hfound
  · rw [hrefused] at h
    cases h
  rw [hfound] at h
  rcases g.collectFound_turns scope root (g.filesIn root d) d with
    ⟨-, d₁, -, hcollect⟩ | ⟨-, d₁, hbegun, hcollect⟩ <;> rw [hcollect] at h
  · cases h
    exact List.forall_mem_nil _
  · rw [← hbegun.keeps.disk]
    exact collectFiles_deserved (c := .start scope) rfl (List.forall_mem_nil _) h

/-- **What a request collects is deserved.** It is the header of a declaration without one. -/
theorem collect_deserved {t : Target} (h : g.collect t d = (.ok c', d')) :
    ∀ i ∈ c'.batch, g.Deserved d.disk.tree i := by
  cases t with
  | file path =>
    rw [collect, Work.bind_apply] at h
    rcases checkLanguage_cases path d with hok | hrefused
    · rw [hok] at h
      exact (collectFile_brings (c := .start .file) rfl h).deserved (List.forall_mem_nil _)
    · rw [hrefused] at h
      cases h
  | folder root => exact collectDirectory_deserved h
  | workspace root => exact collectDirectory_deserved h

/-- A request leaves the disk alone, or applies a batch of such headers. -/
theorem generate_deserved {t : Target} {o : Except GenerationFault GenerationResult}
    (h : g.generate t d = (o, d')) :
    d'.disk = d.disk ∨ ∃ batch log, (∀ i ∈ batch, g.Deserved d.disk.tree i) ∧
      d'.disk = (EditBatch.apply g.writer batch ⟨d.disk, log⟩).2.state := by
  have hdisk := (collect_phase g t d).disk_eq
  rcases g.generate_cases t d with
    ⟨e, d₁, hcollect, hgiven⟩ | ⟨c, d₁, hcollect, -, hgiven⟩ | ⟨c, d₁, hcollect, hgiven⟩ <;>
    rw [hcollect] at hdisk <;> rw [hgiven] at h <;> cases h
  · exact .inl hdisk
  · exact .inl hdisk
  by_cases hidle : c.result.cancelled = true ∨ c.result.generated = 0
  · rw [finish_of_idle g d₁ hidle]
    exact .inl hdisk
  · obtain ⟨hcancelled, hsome⟩ := not_or.mp hidle
    rw [finish_of_pending g d₁ (by simpa using hcancelled) (by omega), hdisk]
    exact .inr ⟨c.batch, d₁.records, collect_deserved hcollect, rfl⟩

/-! ## Positions -/

/-- Work on a source file has a text to work on, or is given up before anything is done. -/
theorem atPosition_cases (g : Generator) (file : String) (position : Int) (sink : Sink)
    (given : Option String) (d : Desk) :
    (∃ fault d' steps, g.atPosition file position sink given d = (.error fault, d') ∧
      d.Follows g.surroundings steps d' ∧ .insert ∉ steps) ∨
    ((SourceLanguage.ofFile? file).isSome = true ∧
      ∃ text, TextOf g.surroundings d file given text) := by
  cases hlanguage : SourceLanguage.ofFile? file with
  | none =>
    have hrefused := checkLanguage_of_unsupported hlanguage d
    refine .inl ⟨.unsupportedScope file none, d, [], ?_, .refl _ d, List.not_mem_nil⟩
    simp only [atPosition, Work.bind_apply, hrefused]
  | some language =>
    have hsupported : (SourceLanguage.ofFile? file).isSome = true := by simp [hlanguage]
    cases given with
    | some text => exact .inr ⟨rfl, text, .inl rfl⟩
    | none =>
      have hfst := readText_fst g.surroundings file d
      rcases readText_cases g.surroundings file d with
        ⟨text, d₁, hread, -⟩ | ⟨fault, d₁, hread, hunread⟩ <;> rw [hread] at hfst
      · exact .inr ⟨rfl, text, .inr ⟨rfl, hfst.symm⟩⟩
      · refine .inl ⟨.unreadable fault, d₁, [.unread], ?_, hunread, by decide⟩
        simp only [atPosition, Work.bind_apply (checkLanguage file) _ d,
          checkLanguage_of_supported hsupported, Work.lift_bind, hread, Work.throw_apply]

/-- A request for a position has handed the header of a declaration without one to its sink. -/
def HandsOver (g : Generator) (file : String) (position : Int) (sink : Sink)
    (given : Option String) (d : Desk) (o : Except GenerationFault GenerationResult × Desk) :
    Prop :=
  ∃ text tree f header j d₁, TextOf g.surroundings d file given text ∧
    (g.surroundings.helper d.parsed file text).parse file text = .ok tree ∧
    tree.IsTarget text position f ∧ f.IsBare ∧
    g.HeaderOf f text sink.snippets j header ∧
    o = (.ok (g.deliver file f sink parsedResult header d₁).1,
      (g.deliver file f sink parsedResult header d₁).2)

/-- **A position's header is deserved.** The sink is left alone, or it is handed the header of a
declaration without one. -/
theorem atPosition_deserved (g : Generator) (file : String) (position : Int) (sink : Sink)
    (given : Option String) (d : Desk) :
    (∃ o d' steps, g.atPosition file position sink given d = (o, d') ∧
      d.Follows g.surroundings steps d' ∧ .insert ∉ steps) ∨
    g.HandsOver file position sink given d (g.atPosition file position sink given d) := by
  rcases g.atPosition_cases file position sink given d with
    ⟨fault, d', steps, hrun, hfollows, hinsert⟩ | ⟨hlanguage, text, htext⟩
  · exact .inl ⟨_, d', steps, hrun, hfollows, hinsert⟩
  rcases atPosition_of_text hlanguage htext position sink with
    ⟨-, d', hrun, hfollows⟩ | ⟨-, d₁, hreading, hrun⟩
  · exact .inl ⟨_, d', _, hrun, hfollows, by decide⟩
  have hnone : .insert ∉ readingSteps given :=
    List.count_eq_zero.mp (count_insert_readingSteps given)
  have hleft {o : Except GenerationFault GenerationResult} {d' : Desk} {steps : List Event}
      (h : d₁.Follows g.surroundings steps d') (hinsert : .insert ∉ steps) :
      ∃ o' d'' steps, (o, d') = (o', d'') ∧ d.Follows g.surroundings steps d'' ∧
        .insert ∉ steps :=
    ⟨o, d', _, rfl, hreading.follows.trans h, by simp [hnone, hinsert]⟩
  rw [hrun]
  have hpositions := g.atPositionOf_positions file text position sink d₁
  generalize g.atPositionOf file position sink text d₁ = o at hpositions
  cases hpositions with
  | outside _ => exact .inl (hleft (.refl _ d₁) (by decide))
  | unparsed _ _ h => exact .inl (hleft h (by decide))
  | stranded _ _ h => exact .inl (hleft h (by decide))
  | misplaced _ _ h => exact .inl (hleft h (by decide))
  | documented _ _ _ h => exact .inl (hleft h (by decide))
  | unbuilt _ _ _ h => exact .inl (hleft h (by decide))
  | dropped _ _ _ _ h => exact .inl (hleft h (by decide))
  | unplaced _ _ _ h => exact .inl (hleft h (by decide))
  | delivered htree hf hheader _ hbuilt _ _ =>
    rw [hreading.keeps.parsed] at htree
    exact .inr ⟨text, _, _, _, _, _, htext, htree, hf, Focus.hasHeader_eq_false_iff.mp hheader,
      hbuilt, rfl⟩

/-! ## The same request again -/

/-- A request for a file finds nothing to do: it asks for no description, and the disk and the
exchange with the assistant are as they were. -/
def HasNothingToDo (g : Generator) (path : String) (d : Desk) : Prop :=
  ∃ r d' steps, g.generate (.file path) d = (.ok r, d') ∧ r.generated = 0 ∧ r.applied = false ∧
    d'.disk = d.disk ∧ d'.exchange = d.exchange ∧ d'.events = d.events ++ steps ∧ .build ∉ steps

/-- The text of a file, if there is one, has a tree all of whose declarations have headers. -/
def Documented (g : Generator) (path : String) (d : Desk) : Prop :=
  ∀ text, d.disk.tree.read g.surroundings.here path = .ok text →
    ∃ tree, (g.surroundings.helper d.parsed path text).parse path text = .ok tree ∧
      tree.pending = []

theorem collectFile_of_documented (reporting : Bool) (hc : c.result.cancelled = false)
    (h : g.Documented file d) :
    ∃ c' d' steps, g.collectFile file reporting c d = (.ok c', d') ∧
      c'.result.generated = c.result.generated ∧ c'.result.applied = c.result.applied ∧
      c'.unplaced = c.unplaced ∧ d.Follows g.surroundings steps d' ∧ d'.exchange = d.exchange ∧
      .build ∉ steps := by
  have hfst := readText_fst g.surroundings file d
  have hkeeps := readText_keeps g.surroundings file d
  rcases readText_cases g.surroundings file d with
    ⟨text, d₁, hread, hdone⟩ | ⟨fault, d₁, hread, hdone⟩ <;> rw [hread] at hfst hkeeps
  case inr =>
    obtain ⟨d₂, hrecorded, hcollect⟩ := g.collectFile_of_unread (c := c) reporting hread
    exact ⟨_, d₂, _, hcollect, rfl, rfl, rfl, hdone.trans hrecorded.follows,
      (hkeeps.trans hrecorded.keeps).exchange, by decide⟩
  obtain ⟨tree, htree, hnone⟩ := h text hfst.symm
  rcases g.collectFile_of_read reporting hc hread with
    ⟨-, d₂, hlooked, hcollect⟩ | ⟨-, d₂, hlooked, hparsed, -⟩
  · exact ⟨_, d₂, _, hcollect, rfl, rfl, rfl, hdone.trans hlooked.follows,
      (hkeeps.trans hlooked.keeps).exchange, by decide⟩
  have hrun := parse_fst g.surroundings file text d₂
  have hparse_keeps := parse_keeps g.surroundings file text d₂
  rw [hlooked.keeps.parsed, hkeeps.parsed, htree] at hrun
  rcases parse_cases g.surroundings file text d₂ with
    ⟨found, d₃, hparse, hsteps⟩ | ⟨fault, d₃, hparse, hsteps⟩ <;>
    rw [hparse] at hrun hparse_keeps <;> cases hrun
  rcases g.collectTree_turns reporting file text tree c d₃ with
    ⟨hunsorted, -⟩ | ⟨-, d₄, hannounced, hcollect⟩
  · simp [Focus.isUnsortable, hnone] at hunsorted
  rw [hnone] at hcollect
  refine ⟨c.countFile file tree, d₄, _, (hparsed tree d₃ hparse).trans hcollect, rfl, rfl,
    by simp [Collected.countFile, unplacedIn, hnone],
    ((hdone.trans hlooked.follows).trans hsteps).trans hannounced.follows, ?_, ?_⟩
  · rw [hannounced.keeps.exchange, hparse_keeps.exchange, hlooked.keeps.exchange, hkeeps.exchange]
  · simp [(announced_clean reporting).2]

theorem hasNothingToDo_of_documented (hlanguage : (SourceLanguage.ofFile? path).isSome = true)
    (h : g.Documented path d) : g.HasNothingToDo path d := by
  obtain ⟨c, d', steps, hcollect, hgenerated, happlied, hplaced, hfollows, hexchange, hbuild⟩ :=
    collectFile_of_documented (c := .start .file) true rfl h
  refine ⟨c.result, d', steps, ?_, hgenerated, happlied, hfollows.disk, hexchange,
    hfollows.events, hbuild⟩
  rw [g.generate_file_of_collect hlanguage hcollect, g.conclude_of_placed d' fun _ => hplaced,
    finish_of_idle g d' (.inr hgenerated)]

/-- A request for a file that has a result is one for a source file. -/
theorem collectFile_of_generate {r : GenerationResult}
    (h : g.generate (.file path) d = (.ok r, d')) :
    (SourceLanguage.ofFile? path).isSome = true ∧
    ∃ c d₁, g.collectFile path true (.start .file) d = (.ok c, d₁) ∧ g.finish c d₁ = (r, d') := by
  cases hlanguage : SourceLanguage.ofFile? path with
  | none =>
    rw [generate, Work.bind_apply, collect, Work.bind_apply,
      checkLanguage_of_unsupported hlanguage] at h
    cases h
  | some language =>
    have hsupported : (SourceLanguage.ofFile? path).isSome = true := by simp [hlanguage]
    refine ⟨rfl, ?_⟩
    rcases g.generate_cases (.file path) d with
      ⟨e, d₁, -, hgiven⟩ | ⟨c, d₁, -, -, hgiven⟩ | ⟨c, d₁, hcollect, hgiven⟩ <;>
      rw [hgiven] at h <;> cases h
    rw [collect, Work.bind_apply, checkLanguage_of_supported hsupported] at hcollect
    exact ⟨c, d₁, hcollect, rfl⟩

/-- A request for a file that was applied and not cancelled has inserted the header of each
declaration without one. -/
theorem documents_all_of_applied {r : GenerationResult}
    (h : g.generate (.file path) d = (.ok r, d')) (happlied : r.applied = true)
    (hcancelled : r.cancelled = false) :
    ∃ text tree batch log, d.disk.tree.read g.surroundings.here path = .ok text ∧
      (g.surroundings.helper d.parsed path text).parse path text = .ok tree ∧
      List.Forall₂ (g.Documents path text) tree.pending batch ∧
      (EditBatch.apply g.writer batch ⟨d.disk, log⟩).1 = true ∧
      d'.disk = (EditBatch.apply g.writer batch ⟨d.disk, log⟩).2.state := by
  obtain ⟨-, c, d₁, hcollect, hfinish⟩ := collectFile_of_generate h
  have hphase := g.collectFile_phase path true d (c := .start .file) rfl
  rw [hcollect] at hphase
  obtain _ | ⟨hsteps, hgrows, -⟩ := hphase
  obtain ⟨hcount, -⟩ := hgrows.of_start
  have hnot : c.result.cancelled = false := by
    rw [← (g.finish_spec c d₁).1, hfinish]
    exact hcancelled
  -- where nothing was collected nothing is marked as applied
  have hpos : 0 < c.result.generated := by
    by_contra hnone
    rw [finish_of_idle g d₁ (.inr (by omega))] at hfinish
    cases hfinish
    simp [hgrows.applied] at happlied
  rw [finish_of_pending g d₁ hnot hpos, hsteps.disk] at hfinish
  cases hfinish
  cases collectFile_brings (c := .start .file) rfl hcollect with
  | nothing batch =>
    rw [hcount, batch] at hpos
    exact absurd hpos (Nat.lt_irrefl 0)
  | headers hread hparsed batch documents _ all =>
    rw [all hnot] at documents
    rw [List.nil_append] at batch
    simp only [Collected.outcome_applied, hgrows.applied, Bool.or_false] at happlied
    exact ⟨_, _, c.batch, d₁.records, hread, hparsed, batch ▸ documents, happlied, rfl⟩

/-- **Headers are inserted once.** What a request inserts are headers of declarations that have
none, neither of their own nor at their anchor: the batch that a request for files applies is
made of such headers, and so is what a request for a position hands to its sink. A request for a
file that was applied and not cancelled has inserted one header for each declaration of the tree
without one. When the syntax helper then finds the same tree in the text of the file, with a
header at each node that got one, the same request finds nothing to do. -/
theorem generate_documents_once (g : Generator) :
    (∀ t d o d', g.generate t d = (o, d') → d'.disk = d.disk ∨
      ∃ batch log, (∀ i ∈ batch, g.Deserved d.disk.tree i) ∧
        d'.disk = (EditBatch.apply g.writer batch ⟨d.disk, log⟩).2.state) ∧
    (∀ file position sink given d,
      (∃ o d' steps, g.atPosition file position sink given d = (o, d') ∧
        d.Follows g.surroundings steps d' ∧ .insert ∉ steps) ∨
      g.HandsOver file position sink given d (g.atPosition file position sink given d)) ∧
    ∀ path d r d', g.generate (.file path) d = (.ok r, d') → r.applied = true →
      r.cancelled = false →
      ∃ text tree batch log, d.disk.tree.read g.surroundings.here path = .ok text ∧
        (g.surroundings.helper d.parsed path text).parse path text = .ok tree ∧
        List.Forall₂ (g.Documents path text) tree.pending batch ∧
        (∀ f ∈ tree.pending, f.IsBare) ∧
        (EditBatch.apply g.writer batch ⟨d.disk, log⟩).1 = true ∧
        d'.disk = (EditBatch.apply g.writer batch ⟨d.disk, log⟩).2.state ∧
        ∀ e, e.disk = d'.disk →
          (∀ text', d'.disk.tree.read g.surroundings.here path = .ok text' →
            ∃ tree', (g.surroundings.helper e.parsed path text').parse path text' = .ok tree' ∧
              tree.node.Headed tree.IsOwner [] tree'.node) →
          g.HasNothingToDo path e := by
  refine ⟨fun t d o d' h => generate_deserved h, g.atPosition_deserved, ?_⟩
  intro path d r d' h happlied hcancelled
  obtain ⟨hlanguage, -⟩ := collectFile_of_generate h
  obtain ⟨text, tree, batch, log, hread, htree, hdocuments, hdone, hdisk⟩ :=
    documents_all_of_applied h happlied hcancelled
  refine ⟨text, tree, batch, log, hread, htree, hdocuments, ?_, hdone, hdisk, ?_⟩
  · intro f hf
    exact Focus.hasHeader_eq_false_iff.mp (Focus.mem_pending.mp hf).2
  · intro e he hagain
    refine hasNothingToDo_of_documented hlanguage ?_
    intro text' hread'
    rw [he] at hread'
    obtain ⟨tree', htree', hheaded⟩ := hagain text' hread'
    obtain ⟨n, rfl, -⟩ := HelperRun.parse_root htree
    obtain ⟨n', rfl, -⟩ := HelperRun.parse_root htree'
    exact ⟨_, htree', Focus.pending_eq_nil_of_headed (.root hheaded)⟩

/-- The text of a file with one enumeration, once it is documented. -/
def documentedText : String := "/**\n * @enum \x7bnumber\x7d\n */\ne"

/-- The syntax tree of that text. -/
def documentedEnumeration : Json :=
  .object
    [("kind", .string "SourceFile"), ("start", .ofInt 26), ("end", .ofInt 27),
      ("children", .array [.object
        [("kind", .string "EnumDeclaration"), ("start", .ofInt 26), ("end", .ofInt 27),
          ("jsDoc", .string "/**\n * @enum \x7bnumber\x7d\n */")]])]

/-- Headers for files with one enumeration. The syntax helper finds those that are there. -/
def documentingAgain : Generator where
  surroundings :=
    { helper := fun _ _ text =>
        if text == "e" then .finished enumeration.compact "" 0
        else .finished documentedEnumeration.compact "" 0 }
  builder := ⟨{}, .blank "", { year := 2024, month := 1, day := 1 }⟩
  writer := ⟨[], [], {}⟩

/-- After the enumeration was documented, the same request finds nothing to do. -/
theorem generate_documents_enumeration_once :
    ∃ r d', documentingAgain.generate (.file "a.ts") oneFile = (.ok r, d') ∧
      r.applied = true ∧ r.cancelled = false ∧ documentingAgain.HasNothingToDo "a.ts" d' := by
  let run (text : String) := documentingAgain.surroundings.helper [] "a.ts" text
  have hfirst :
      (documentingAgain.generate (.file "a.ts") oneFile).1.toOption.map
        (fun r : GenerationResult => (r.applied, r.cancelled)) = some (true, false) ∧
      (documentingAgain.generate (.file "a.ts") oneFile).2.disk.tree.read [] "a.ts" =
        .ok documentedText := by decide +kernel
  have hrefound : (match (run "e").parse "a.ts" "e",
        (run documentedText).parse "a.ts" documentedText with
      | .ok tree, .ok tree' => decide (tree.node.Headed tree.IsOwner [] tree'.node)
      | _, _ => false) = true := by decide +kernel
  obtain ⟨-, -, hagain⟩ := generate_documents_once documentingAgain
  rcases hrun : documentingAgain.generate (.file "a.ts") oneFile with ⟨e | r, d'⟩ <;>
    rw [hrun] at hfirst <;> obtain ⟨hresult, hwritten⟩ := hfirst
  · cases hresult
  obtain ⟨happlied, hcancelled⟩ : r.applied = true ∧ r.cancelled = false := by
    simpa [Except.toOption] using hresult
  obtain ⟨text, tree, -, -, hread, htree, -, -, -, -, hsecond⟩ :=
    hagain "a.ts" oneFile r d' hrun happlied hcancelled
  have htext : oneFile.disk.tree.read [] "a.ts" = .ok "e" := by decide
  obtain rfl : text = "e" := Except.ok.inj (hread.symm.trans htext)
  refine ⟨r, d', rfl, happlied, hcancelled, hsecond d' rfl ?_⟩
  intro text' hread'
  obtain rfl : text' = documentedText := Except.ok.inj (hread'.symm.trans hwritten)
  rw [show (run "e").parse "a.ts" "e" = .ok tree from htree] at hrefound
  cases htree' : (run documentedText).parse "a.ts" documentedText with
  | error e =>
    rw [htree'] at hrefound
    cases hrefound
  | ok tree' =>
    rw [htree'] at hrefound
    exact ⟨tree', htree', of_decide_eq_true hrefound⟩

end Generator

end DocHeader

import DocHeader.Proofs.Declaration.Targets
import DocHeader.Proofs.Disk.Stamps
import DocHeader.Proofs.Edit.Applied
import DocHeader.Proofs.Generation.Builds
import DocHeader.Proofs.Header.Lines
import DocHeader.Proofs.Header.Misfits
import DocHeader.Proofs.Syntax.Described

/-!
# Requests for a position

How a request for a position ends, whatever its sink: nothing documents the position, the
declaration there has a header, the signal was set while its header was built, or the header
is handed to the sink. Only then the sink is called, and only once.

## Main definitions

* `Generator.Positions` — the ends of a request for a position of a text.
* `Generator.EndsInFile`, `Generator.IntoFile` — what becomes of one that writes into a file.
* `Generator.GivenUp` — what becomes of one that meets a field of the wrong type.
-/

namespace DocHeader

/-! ## Insertions into a file -/

section

variable {w : Writer} {j : Journal Disk} {path text : String} {offset : Int}

/-- An insertion into a file outside the base directory is refused. -/
theorem insertInto_of_astray (h : (w.placeOf path).isWithin w.base = false) (offset : Int)
    (new : String) :
    ∃ log, insertInto w path offset new j = (false, { j with records := log }) := by
  have hnot (text : String) : ¬w.Holds j.state.tree path text := fun hholds => by
    simp [hholds.1] at h
  obtain ⟨e, hread⟩ := Writer.read_of_not_holds hnot
  exact ⟨_, by simp only [insertInto, Logged.bind_apply, hread]; rfl⟩

/-- So is one at an offset outside the text. -/
theorem insertInto_of_outside (hholds : w.Holds j.state.tree path text)
    (h : ¬Focus.Inside text offset) (new : String) :
    ∃ log, insertInto w path offset new j = (false, { j with records := log }) := by
  have hout : (decide (offset < 0) || decide ((text.toList.length : Int) < offset)) = true := by
    simp only [Focus.Inside, String.length_toList] at h ⊢
    simp only [Bool.or_eq_true, decide_eq_true_eq]
    omega
  exact ⟨_, by
    simp only [insertInto, Logged.bind_apply, Writer.read_of_holds hholds, hout, if_true]
    rfl⟩

/-- Any other one goes into the file, where nothing goes wrong, and nothing else changes. The
next one can go in as well. -/
theorem insertInto_of_inside (hj : w.hazards.Undisturbed j.state)
    (hholds : w.Holds j.state.tree path text) (h : Focus.Inside text offset) (new : String) :
    ∃ j', insertInto w path offset new j = (true, j') ∧
      j'.state.tree.find? (w.placeOf path) =
        some (.file (.text (.ofList (insertAt text.toList offset.toNat new.toList)))) ∧
      (∀ p, p ≠ w.placeOf path → j'.state.tree.find? p = j.state.tree.find? p) ∧
      w.hazards.Undisturbed j'.state := by
  have hin : (decide (offset < 0) || decide ((text.toList.length : Int) < offset)) = false := by
    simp only [Focus.Inside] at h
    simp only [String.length_toList, Bool.or_eq_false_iff, decide_eq_false_iff_not]
    omega
  obtain ⟨content, hfound, -⟩ := hholds.find?_eq
  let spliced : String := .ofList (insertAt text.toList offset.toNat new.toList)
  have hvalid : w.validateAll j.state.tree [(path, spliced)] = .ok [(w.placeOf path, spliced)] :=
    Writer.validateAll_eq_ok.mpr ⟨rfl, by simp [hfound, hholds.1]⟩
  have hfile : ∀ t ∈ [(w.placeOf path, spliced)], ∃ c, j.state.tree.find? t.1 = some (.file c) := by
    simp [hfound]
  obtain ⟨j', hcommit, htree⟩ := Writer.commit_of_undisturbed hj hfile
  have hwrite : w.write path spliced j = (.ok (), j') :=
    (Writer.writeAll_of_valid hvalid).trans hcommit
  have hframe : ∀ p, p ≠ w.placeOf path → j'.state.tree.find? p = j.state.tree.find? p := by
    intro p hp
    rw [htree, FileTree.overwritten_of_not_target _ (by simpa using Ne.symm hp)]
  refine ⟨j', ?_, ?_, hframe, Writer.commit_undisturbed hj hcommit fun p hnone => ?_⟩
  · simp only [insertInto, Logged.bind_apply, Writer.read_of_holds hholds, hin,
      Bool.false_eq_true, if_false]
    simp only [spliced] at hwrite
    rw [hwrite]
    rfl
  · simp [htree, FileTree.overwritten, lastText, spliced]
  · -- the file itself was there before
    have hp : p ≠ w.placeOf path := by
      rintro rfl
      simp [hfound] at hnone
    rw [hframe p hp, hnone]

end

namespace Generator

open Desk

variable {g : Generator} {file text : String} {position : Int} {sink : Sink} {d d' : Desk}
  {given : Option String}

/-- The result of a request for a position before anything is inserted. -/
def parsedResult : GenerationResult := { scope := .position, filesProcessed := 1 }

/-- A header is the draft of a declaration, written in front of it. -/
def HeaderOf (g : Generator) (f : Focus) (text : String) (snippet : Bool) (j : Journal Exchange)
    (header : String) : Prop :=
  ∃ draft, (g.builder.build f j).1 = .ok draft ∧ g.written draft f text snippet = header

/-- Where its place is not null, it is what the builder gives. -/
theorem HeaderOf.built {f : Focus} {snippet : Bool} {j : Journal Exchange} {header : String}
    (h : g.HeaderOf f text snippet j header) (hplaced : f.isUnplaced = false) :
    (g.builder.buildText f text snippet j).1 = .ok header := by
  obtain ⟨draft, hdraft, rfl⟩ := h
  rw [Builder.buildText_apply, hdraft, written, if_neg (by simp [hplaced])]
  rfl

/-- How a request for a position of a text ends. -/
inductive Positions (g : Generator) (file text : String) (position : Int) (sink : Sink) (d : Desk) :
    Except GenerationFault GenerationResult × Desk → Prop where
  /-- The position lies outside the text. -/
  | outside (h : ¬Focus.Inside text position) :
    Positions g file text position sink d (.error (.unsupportedPosition file position none), d)
  | unparsed {e : ParseFailure} {d' : Desk} (hinside : Focus.Inside text position)
    (htree : (g.surroundings.helper d.parsed file text).parse file text = .error e)
    (h : d.Follows g.surroundings [.unparsed] d') :
    Positions g file text position sink d (.error (.unparsed e), d')
  /-- The search for a declaration meets an offset that it cannot compare. -/
  | stranded {tree : Focus} {d' : Desk}
    (htree : (g.surroundings.helper d.parsed file text).parse file text = .ok tree)
    (hstrands : tree.strandsAt position.toNat = true) (h : d.Follows g.surroundings [.parse] d') :
    Positions g file text position sink d (.error .unusable, d')
  /-- Nothing documents the position. -/
  | misplaced {tree : Focus} {l : Location} {d' : Desk}
    (htree : (g.surroundings.helper d.parsed file text).parse file text = .ok tree)
    (hf : tree.Misplaced text position) (h : d.Follows g.surroundings [.parse] d') :
    Positions g file text position sink d
      (.error (.unsupportedPosition file position (some l)), d')
  | documented {tree f : Focus} {d' : Desk}
    (htree : (g.surroundings.helper d.parsed file text).parse file text = .ok tree)
    (hf : tree.IsTarget text position f) (hheader : f.hasHeader = true)
    (h : d.Follows g.surroundings [.parse] d') :
    Positions g file text position sink d (.ok parsedResult, d')
  | unbuilt {tree f : Focus} {e : BuildError} {d' : Desk}
    (htree : (g.surroundings.helper d.parsed file text).parse file text = .ok tree)
    (hf : tree.IsTarget text position f)
    (hnone : (∀ kind, g.builder.kindOf f ≠ .ok kind) ∨ g.builder.Stops f sink.snippets)
    (h : d.Follows g.surroundings [.parse] d') :
    Positions g file text position sink d (.error (.unbuilt e), d')
  /-- The signal was set by the end of the build. -/
  | dropped {tree f : Focus} {d' : Desk}
    (htree : (g.surroundings.helper d.parsed file text).parse file text = .ok tree)
    (hf : tree.IsTarget text position f) (hheader : f.hasHeader = false)
    (hset : d.signalAfter g.surroundings [.parse, .build] = true)
    (h : d.Follows g.surroundings [.parse, .build, .look] d') :
    Positions g file text position sink d (.ok { parsedResult with cancelled := true }, d')
  /-- The place of the header is null, and the sink needs it. -/
  | unplaced {tree f : Focus} {d' : Desk}
    (htree : (g.surroundings.helper d.parsed file text).parse file text = .ok tree)
    (hf : tree.IsTarget text position f) (hplace : f.isUnplaced = true)
    (h : d.Follows g.surroundings [.parse, .build, .look] d') :
    Positions g file text position sink d (.error .unusable, d')
  /-- The header is handed to the sink. -/
  | delivered {tree f : Focus} {header : String} {log : List LogRecord} {d' : Desk}
    (htree : (g.surroundings.helper d.parsed file text).parse file text = .ok tree)
    (hf : tree.IsTarget text position f) (hheader : f.hasHeader = false)
    (hclear : d.signalAfter g.surroundings [.parse, .build] = false)
    (hbuilt : g.HeaderOf f text sink.snippets ⟨d.exchange, log⟩ header)
    (hplaced : f.isUnplaced = true → sink.needsOffset d'.disk = false)
    (h : d.Follows g.surroundings [.parse, .build, .look] d') :
    Positions g file text position sink d
      (.ok (g.deliver file f sink parsedResult header d').1,
        (g.deliver file f sink parsedResult header d').2)

theorem headerOf_of_header {f : Focus} {snippet : Bool} {header : String}
    (h : g.header f text snippet d = (.ok header, d')) :
    g.HeaderOf f text snippet ⟨d.exchange, d.records⟩ header := by
  rw [Generator.header, Desk.bind_apply, onExchange] at h
  rcases hattempt : g.builder.attempt f snippet ⟨d.exchange, d.records⟩ with ⟨e | draft, j⟩ <;>
    simp only [hattempt] at h <;> cases h
  exact ⟨draft, by rw [Builder.build_of_attempt hattempt], rfl⟩

/-- What is refused a header is of no kind that can be documented, or the build is stopped. -/
theorem kindOf_of_unbuilt {f : Focus} {snippet : Bool} {e : BuildError}
    (h : g.header f text snippet d = (.error e, d')) :
    (∀ kind, g.builder.kindOf f ≠ .ok kind) ∨ g.builder.Stops f snippet := by
  by_contra hgoes
  obtain ⟨hkind, hgoes⟩ := not_or.mp hgoes
  obtain ⟨kind, hkind⟩ := not_forall_not.mp hkind
  obtain ⟨draft, hdraft, -, -⟩ := g.builder.build_of_kind f hkind ⟨d.exchange, d.records⟩
  rw [← Builder.attempt_of_not_stops hgoes] at hdraft
  rcases hattempt : g.builder.attempt f snippet ⟨d.exchange, d.records⟩ with ⟨built, j⟩
  rw [hattempt] at hdraft
  obtain rfl : built = .ok draft := hdraft
  simp only [header, Desk.bind_apply, onExchange, hattempt] at h
  cases h

theorem atPositionOf_positions (g : Generator) (file text : String) (position : Int) (sink : Sink)
    (d : Desk) :
    Positions g file text position sink d (g.atPositionOf file position sink text d) := by
  simp only [atPositionOf]
  split
  · rename_i hout
    refine .outside fun hinside => ?_
    obtain ⟨hlow, hhigh⟩ := hinside
    simp only [Bool.or_eq_true, decide_eq_true_eq] at hout
    omega
  rename_i hin
  have hinside : Focus.Inside text position := by
    simp only [Bool.or_eq_true, decide_eq_true_eq, not_or] at hin
    exact ⟨by omega, by omega⟩
  have htree := parse_fst g.surroundings file text d
  have hkeeps := parse_keeps g.surroundings file text d
  rcases parse_cases g.surroundings file text d with
    ⟨tree, d₁, hparse, hparsed⟩ | ⟨e, d₁, hparse, hparsed⟩ <;> rw [hparse] at htree hkeeps <;>
    simp only [Work.lift_bind, hparse]
  case inr => exact .unparsed hinside htree.symm hparsed
  have hnat : (position.toNat : Int) = position := Int.toNat_of_nonneg hinside.1
  by_cases hstrands : tree.strandsAt position.toNat = true
  · simp only [Work.bind_apply, Work.ofExcept_apply, targetAt, hstrands, if_true]
    exact .stranded htree.symm hstrands hparsed
  rcases targetAt_spec file tree hinside ((Bool.not_eq_true _).mp hstrands) with
    ⟨f, htarget, hf⟩ | ⟨hnone, hmisplaced⟩ <;>
    simp only [Work.bind_apply, Work.ofExcept_apply]
  case inr =>
    simp only [hnone, hnat]
    exact .misplaced htree.symm hmisplaced hparsed
  simp only [htarget]
  cases hheader : f.hasHeader with
  | true => exact .documented htree.symm hf hheader (hparsed.trans (note_follows _ _ _ _))
  | false =>
    rcases g.header_cases f text sink.snippets d₁ with
      ⟨header, d₂, hrun, hbuilt⟩ | ⟨e, d₂, hrun, hgone⟩ <;>
      simp only [Bool.false_eq_true, if_false, Work.lift_bind, hrun]
    case inr =>
      exact .unbuilt htree.symm hf (kindOf_of_unbuilt hrun) (hparsed.trans hgone)
    have hheld := headerOf_of_header hrun
    rw [hkeeps.exchange] at hheld
    have hfollows := hparsed.trans hbuilt
    have hsignal := hfollows.cancelled
    rcases g.look_turns (r := parsedResult) rfl d₂ with
      ⟨hset, d₃, hlook, hlooked⟩ | ⟨hclear, d₃, hlook, hlooked⟩
    · simp only [parsedResult] at hlook
      simp only [hlook, if_true]
      exact .dropped htree.symm hf hheader (hsignal ▸ hset) (hfollows.trans hlooked.follows)
    · simp only [parsedResult] at hlook
      simp only [hlook, Bool.false_eq_true, if_false]
      rcases g.handOver_cases file f sink parsedResult header d₃ with
        ⟨hplace, hunusable⟩ | ⟨hplaced, hdelivered⟩
      · exact hunusable ▸ .unplaced htree.symm hf hplace (hfollows.trans hlooked.follows)
      · exact hdelivered ▸ .delivered htree.symm hf hheader (hsignal ▸ hclear) hheld hplaced
          (hfollows.trans hlooked.follows)

/-! ## The text -/

/-- The text that a request for a position works on: it is given, or read from the file. -/
def TextOf (s : Surroundings) (d : Desk) (file : String) (given : Option String) (text : String) :
    Prop :=
  given = some text ∨ given = none ∧ d.disk.tree.read s.here file = .ok text

/-- The signal was set when the text had been read from the file. -/
def StoppedByRead (s : Surroundings) (d : Desk) (given : Option String) : Prop :=
  given = none ∧ d.signalAfter s [.read] = true

/-- The steps before the text of a request for a position is parsed. -/
def readingSteps (given : Option String) : List Event :=
  if given.isSome then [] else [.read, .look]

/-- A request for a position of a source file works on its text, unless it is stopped after
reading it. -/
theorem atPosition_of_text (hlanguage : (SourceLanguage.ofFile? file).isSome = true)
    (htext : TextOf g.surroundings d file given text) (position : Int) (sink : Sink) :
    (StoppedByRead g.surroundings d given ∧
      ∃ d', g.atPosition file position sink given d =
        (.ok { scope := .position, cancelled := true }, d') ∧
        d.Follows g.surroundings [.read, .look] d') ∨
    (¬StoppedByRead g.surroundings d given ∧
      ∃ d', d.Passes g.surroundings (readingSteps given) d' ∧
        g.atPosition file position sink given d = g.atPositionOf file position sink text d') := by
  have hchecked := checkLanguage_of_supported hlanguage d
  rcases htext with rfl | ⟨rfl, hread⟩
  · have hgoes : g.atPosition file position sink (some text) d =
        g.atPositionOf file position sink text d := by
      simp only [atPosition, Work.bind_apply (checkLanguage file) _ d, hchecked]
    refine .inr ⟨?_, d, ⟨.refl _ d, .refl d⟩, hgoes⟩
    rintro ⟨hnone, -⟩
    cases hnone
  have hfst := readText_fst g.surroundings file d
  have hkeeps := readText_keeps g.surroundings file d
  rw [hread] at hfst
  rcases readText_cases g.surroundings file d with
    ⟨text', d₁, hrun, hdone⟩ | ⟨e, d₁, hrun, hdone⟩ <;> rw [hrun] at hfst hkeeps <;> cases hfst
  have hsignal := hdone.cancelled
  rcases g.look_turns (r := { scope := .position }) rfl d₁ with
    ⟨hset, d₂, hlook, hlooked⟩ | ⟨hclear, d₂, hlook, hlooked⟩
  · refine .inl ⟨⟨rfl, hsignal ▸ hset⟩, d₂, ?_, hdone.trans hlooked.follows⟩
    simp only [atPosition, Work.bind_apply (checkLanguage file) _ d, hchecked]
    simp only [Work.lift_bind, hrun, hlook, if_true, Work.pure_apply]
  · refine .inr ⟨?_, d₂, ⟨hdone.trans hlooked.follows, hkeeps.trans hlooked.keeps⟩, ?_⟩
    · rintro ⟨-, hset⟩
      rw [hsignal, hset] at hclear
      cases hclear
    · simp only [atPosition, Work.bind_apply (checkLanguage file) _ d, hchecked]
      simp only [Work.lift_bind, hrun, hlook, Bool.false_eq_true, if_false]

/-! ## Into a file -/

/-- Why a request for a position leaves the file as it was, though the position has a target:
the target has a header, the signal was set by the end of the build, or the file or the offset
is refused. -/
inductive Withheld (s : Surroundings) (d : Desk) (w : Writer) (path text : String)
    (given : Option String) (f : Focus) : Prop where
  | documented (h : f.hasHeader = true)
  | signalled (h : d.signalAfter s (readingSteps given ++ [.parse, .build]) = true)
  | astray (h : (w.placeOf path).isWithin w.base = false)
  | outside (h : ¬Focus.Inside text f.insertionOffset)

/-- A header was spliced into the text of a file, and nothing else has changed. -/
structure Spliced (d d' : Desk) (p : Place) (text : String) (offset : Int) (header : String) :
    Prop where
  inside : Focus.Inside text offset
  file : d'.disk.tree.find? p =
    some (.file (.text (.ofList (insertAt text.toList offset.toNat header.toList))))
  framed : ∀ q, q ≠ p → d'.disk.tree.find? q = d.disk.tree.find? q

/-- A sink that refuses the header leaves the result without one. -/
theorem deliver_of_refused (g : Generator) (file : String) {f : Focus} {header : String}
    {d₁ : Desk} (r : GenerationResult)
    (h : sink.insert header f.insertionOffset d = (false, d₁)) :
    ∃ r' d', g.deliver file f sink r header d = (r', d') ∧
      r'.generated = r.generated ∧ r'.applied = r.applied ∧
      d₁.Follows g.surroundings [.insert] d' := by
  refine ⟨{ r with warnings := r.warnings ++ ["Could not insert the JSDoc header into " ++ file] },
    (complete g.surroundings .insert d₁).2, ?_, rfl, rfl, complete_follows _ .insert d₁⟩
  simp only [deliver, Desk.bind_apply, h, Bool.false_eq_true, if_false, Desk.pure_apply]

/-- The header that a sink takes is reported. The look after that may still mark the result. -/
theorem deliver_of_inserted (g : Generator) (file : String) {f : Focus} {header : String}
    {d₁ : Desk} {r : GenerationResult} (hr : r.cancelled = false)
    (h : sink.insert header f.insertionOffset d = (true, d₁)) :
    ∃ r' d', g.deliver file f sink r header d = (r', d') ∧
      r'.generated = 1 ∧ r'.applied = true ∧
      d₁.Follows g.surroundings [.insert, .advance, .look] d' := by
  let d₂ := (complete g.surroundings .insert d₁).2
  let d₃ := (advance g.surroundings file d₂).2
  have hadvanced : d₁.Follows g.surroundings [.insert, .advance] d₃ :=
    (complete_follows g.surroundings .insert d₁).trans (advance_follows g.surroundings file d₂)
  have hrun : g.deliver file f sink r header d =
      g.look { r with generated := 1, applied := true } d₃ := by
    simp only [deliver, Desk.bind_apply, h, if_true, d₂, d₃]
  rcases g.look_turns (r := { r with generated := 1, applied := true }) hr d₃ with
    ⟨-, d', hlook, hlooked⟩ | ⟨-, d', hlook, hlooked⟩
  all_goals
    exact ⟨_, d', hrun.trans hlook, rfl, rfl, hadvanced.trans hlooked.follows⟩

/-- What becomes of a header that is handed to the sink of a file: it is refused, or spliced into
the file. -/
inductive Handed (w : Writer) (path text : String) (f : Focus) (header : String) (d : Desk)
    (r : GenerationResult) (d' : Desk) : Prop where
  | refused
    (why : (w.placeOf path).isWithin w.base = false ∨ ¬Focus.Inside text f.insertionOffset)
    (generated : r.generated = 0) (applied : r.applied = false) (disk : d'.disk = d.disk)
  | taken (within : (w.placeOf path).isWithin w.base = true) (generated : r.generated = 1)
    (applied : r.applied = true)
    (spliced : Spliced d d' (w.placeOf path) text f.insertionOffset header)

/-- The sink of a file refuses a header, or the file gets it. -/
theorem deliver_file (g : Generator) {w : Writer} {path : String}
    (hj : w.hazards.Undisturbed d.disk) (hread : d.disk.tree.readAt (w.placeOf path) = .ok text)
    (file : String) (f : Focus) (header : String) :
    ∃ r d' rest, g.deliver file f (.file w path) parsedResult header d = (r, d') ∧
      d'.events = d.events ++ .insert :: rest ∧ .insert ∉ rest ∧
      Handed w path text f header d r d' := by
  let j : Journal Disk := ⟨d.disk, d.records⟩
  have hsink {inserted : Bool} {j' : Journal Disk}
      (h : insertInto w path f.insertionOffset header j = (inserted, j')) :
      (Sink.file w path).insert header f.insertionOffset d =
        (inserted, { d with disk := j'.state, records := j'.records }) := by
    simp only [Sink.file, onDisk, j] at h ⊢
    rw [h]
  have hrefused {log : List LogRecord}
      (why : (w.placeOf path).isWithin w.base = false ∨ ¬Focus.Inside text f.insertionOffset)
      (h : insertInto w path f.insertionOffset header j = (false, { j with records := log })) :
      ∃ r d' rest, g.deliver file f (.file w path) parsedResult header d = (r, d') ∧
        d'.events = d.events ++ .insert :: rest ∧ .insert ∉ rest ∧
        Handed w path text f header d r d' := by
    obtain ⟨r, d', hrun, hgenerated, happlied, hfollows⟩ :=
      g.deliver_of_refused file parsedResult (hsink h)
    exact ⟨r, d', [], hrun, hfollows.events, List.not_mem_nil,
      .refused why hgenerated happlied hfollows.disk⟩
  cases hwithin : (w.placeOf path).isWithin w.base with
  | false =>
    obtain ⟨log, hinsert⟩ := insertInto_of_astray (j := j) hwithin f.insertionOffset header
    exact hrefused (.inl hwithin) hinsert
  | true =>
    have hholds : w.Holds d.disk.tree path text := ⟨hwithin, hread⟩
    by_cases hinside : Focus.Inside text f.insertionOffset
    · obtain ⟨j', hinsert, hfile, hframe, -⟩ :=
        insertInto_of_inside (j := j) hj hholds hinside header
      obtain ⟨r, d', hrun, hgenerated, happlied, hfollows⟩ :=
        g.deliver_of_inserted file (r := parsedResult) rfl (hsink hinsert)
      refine ⟨r, d', [.advance, .look], hrun, hfollows.events, by simp,
        .taken hwithin hgenerated happlied ⟨hinside, ?_, fun q hq => ?_⟩⟩ <;> rw [hfollows.disk]
      · exact hfile
      · exact hframe q hq
    · obtain ⟨log, hinsert⟩ := insertInto_of_outside (j := j) hholds hinside header
      exact hrefused (.inr hinside) hinsert

/-- The header that a file takes was not withheld. -/
theorem not_withheld_of_taken {s : Surroundings} {w : Writer} {path : String} {f : Focus}
    (hheader : f.hasHeader = false)
    (hclear : d.signalAfter s (readingSteps given ++ [.parse, .build]) = false)
    (hwithin : (w.placeOf path).isWithin w.base = true)
    (hinside : Focus.Inside text f.insertionOffset) :
    ¬Withheld s d w path text given f := by
  intro h
  cases h with
  | documented h => simp [hheader] at h
  | signalled h => simp [hclear] at h
  | astray h => simp [hwithin] at h
  | outside h => exact h hinside

/-- A file is documented at its top. -/
theorem insertionOffset_of_unclassified {tree f : Focus} (hroot : tree.kind = rootKind)
    (hf : tree.IsTarget text position f) (hnone : tree.classifyAt? position.toNat = none) :
    f.insertionOffset = 0 := by
  obtain ⟨-, hsome | ⟨-, rfl, -⟩⟩ := hf
  · rw [hnone] at hsome
    cases hsome
  · simp [Focus.insertionOffset, hroot, rootKind]

/-- A file that can be read needs the place of a header. -/
theorem needsOffset_of_holds {w : Writer} {path : String} {disk : Disk}
    (h : w.Holds disk.tree path text) : (Sink.file w path).needsOffset disk = true := by
  simp only [Sink.file, Writer.read_of_holds (j := ⟨disk, []⟩) h]
  rfl

theorem count_insert_readingSteps (given : Option String) :
    (readingSteps given).count .insert = 0 := by
  cases given <;> rfl

/-- How a request for a position that writes into a file ends. -/
def EndsInFile (g : Generator) (file path text : String) (position : Int) (w : Writer)
    (given : Option String) (tree : Focus) (d : Desk) :
    Except GenerationFault GenerationResult → Desk → Prop
  | .error e, d' => (∃ l, e = .unsupportedPosition file position l) ∧ d'.disk = d.disk
  | .ok r, d' =>
    (r.generated = 0 ∧ r.applied = false ∧ d'.disk = d.disk ∧
      (StoppedByRead g.surroundings d given ∨
        ∃ f, tree.IsTarget text position f ∧ Withheld g.surroundings d w path text given f)) ∨
    (r.generated = 1 ∧ r.applied = true ∧ ¬StoppedByRead g.surroundings d given ∧
      ∃ f header log, tree.IsTarget text position f ∧
        ¬Withheld g.surroundings d w path text given f ∧
        (tree.classifyAt? position.toNat = none → f.insertionOffset = 0) ∧
        (g.builder.buildText f text false ⟨d.exchange, log⟩).1 = .ok header ∧
        Spliced d d' (w.placeOf path) text f.insertionOffset header)

/-- What a request for a position that writes into a file comes to: its sink is called at most
once, and the position is refused just when nothing documents it, unless the request was stopped
after the text was read. -/
structure IntoFile (g : Generator) (file path text : String) (position : Int) (w : Writer)
    (given : Option String) (tree : Focus) (d : Desk)
    (o : Except GenerationFault GenerationResult × Desk) : Prop where
  calls : ∃ steps, o.2.events = d.events ++ steps ∧ steps.count .insert ≤ 1
  refused : (∃ e, o.1 = .error e) ↔
    ¬StoppedByRead g.surroundings d given ∧ tree.Misplaced text position
  ends : EndsInFile g file path text position w given tree d o.1 o.2

/-- A request for a position is given up at a field of the wrong type. No sink is called, and the
disk is as it was. -/
structure GivenUp (tree : Focus) (d : Desk) (o : Except GenerationFault GenerationResult × Desk) :
    Prop where
  mistyped : tree.isTyped = false
  raised : ∃ e, o.1 = .error e ∧ ∀ file position l, e ≠ .unsupportedPosition file position l
  calls : ∃ steps, o.2.events = d.events ++ steps ∧ steps.count .insert = 0
  disk : o.2.disk = d.disk

section

variable {w : Writer} {path : String} {tree f : Focus} {r : GenerationResult} {steps : List Event}

theorem GivenUp.of_error {e : GenerationFault} (hmistyped : tree.isTyped ≠ true)
    (he : ∀ file position l, e ≠ .unsupportedPosition file position l)
    (h : d.Follows g.surroundings (readingSteps given ++ steps) d')
    (hsteps : steps.count .insert = 0) : GivenUp tree d (.error e, d') where
  mistyped := (Bool.not_eq_true _).mp hmistyped
  raised := ⟨e, rfl, he⟩
  calls := ⟨_, h.events, by simp [count_insert_readingSteps, hsteps]⟩
  disk := h.disk

theorem IntoFile.of_stopped (hstopped : StoppedByRead g.surroundings d given)
    (h : d.Follows g.surroundings [.read, .look] d') :
    IntoFile g file path text position w given tree d
      (.ok { scope := .position, cancelled := true }, d') where
  calls := ⟨_, h.events, by decide⟩
  refused := by simp [hstopped]
  ends := .inl ⟨rfl, rfl, h.disk, .inl hstopped⟩

theorem IntoFile.of_misplaced {l : Option Location}
    (hgoes : ¬StoppedByRead g.surroundings d given) (hmisplaced : tree.Misplaced text position)
    (h : d.Follows g.surroundings (readingSteps given ++ steps) d')
    (hsteps : steps.count .insert = 0) :
    IntoFile g file path text position w given tree d
      (.error (.unsupportedPosition file position l), d') where
  calls := ⟨_, h.events, by simp [count_insert_readingSteps, hsteps]⟩
  refused := by simp [hgoes, hmisplaced]
  ends := ⟨⟨l, rfl⟩, h.disk⟩

theorem IntoFile.of_withheld (hf : tree.IsTarget text position f)
    (hwithheld : Withheld g.surroundings d w path text given f) (hgenerated : r.generated = 0)
    (happlied : r.applied = false)
    (h : d.Follows g.surroundings (readingSteps given ++ steps) d')
    (hsteps : steps.count .insert = 0) :
    IntoFile g file path text position w given tree d (.ok r, d') where
  calls := ⟨_, h.events, by simp [count_insert_readingSteps, hsteps]⟩
  refused := by simp [hf.not_misplaced]
  ends := .inl ⟨hgenerated, happlied, h.disk, .inr ⟨f, hf, hwithheld⟩⟩

/-- A header that was built in time is refused by the file, or spliced into it. -/
theorem IntoFile.of_delivered {header : String} {log : List LogRecord}
    (hcalm : w.hazards.Undisturbed d.disk)
    (hfile : d.disk.tree.readAt (w.placeOf path) = .ok text) (hroot : tree.kind = rootKind)
    (hgoes : ¬StoppedByRead g.surroundings d given) (hf : tree.IsTarget text position f)
    (hheader : f.hasHeader = false)
    (hclear : d.signalAfter g.surroundings (readingSteps given ++ [.parse, .build]) = false)
    (hbuilt : g.HeaderOf f text false ⟨d.exchange, log⟩ header)
    (hplaced : f.isUnplaced = true → (Sink.file w path).needsOffset d'.disk = false)
    (h : d.Follows g.surroundings (readingSteps given ++ [.parse, .build, .look]) d') :
    IntoFile g file path text position w given tree d
      (.ok (g.deliver file f (.file w path) parsedResult header d').1,
        (g.deliver file f (.file w path) parsedResult header d').2) := by
  obtain ⟨r, d'', rest, hdeliver, hevents, hrest, hhanded⟩ := g.deliver_file (d := d')
    (h.disk.symm ▸ hcalm) (h.disk.symm ▸ hfile) file f header
  rw [hdeliver]
  refine ⟨⟨readingSteps given ++ [.parse, .build, .look] ++ .insert :: rest, ?_, ?_⟩,
    by simp [hf.not_misplaced], ?_⟩
  · rw [hevents, h.events, List.append_assoc]
  · simp [count_insert_readingSteps, List.count_eq_zero.mpr hrest]
  cases hhanded with
  | refused why generated applied disk =>
    exact .inl ⟨generated, applied, disk.trans h.disk, .inr ⟨f, hf, why.elim .astray .outside⟩⟩
  | taken within generated applied spliced =>
    have hframed : ∀ q, q ≠ w.placeOf path → d''.disk.tree.find? q = d.disk.tree.find? q := by
      intro q hq
      rw [spliced.framed q hq, h.disk]
    have hplace : f.isUnplaced = false := by
      by_contra hnull
      have hneeded := hplaced (by simpa using hnull)
      rw [h.disk, needsOffset_of_holds ⟨within, hfile⟩] at hneeded
      cases hneeded
    exact .inr ⟨generated, applied, hgoes, f, header, log, hf,
      not_withheld_of_taken hheader hclear within spliced.inside,
      insertionOffset_of_unclassified hroot hf, hbuilt.built hplace, spliced.inside,
      spliced.file, hframed⟩

end

/-- **A request for a position that writes into a file.** The position is refused just when
nothing documents it, unless the request was stopped after the text was read. Otherwise either
the request was stopped there or the header of the target was withheld, and the disk is as it
was, or the header was built and the file is its old text with the header spliced in, once:
before the target, and at the top when that is the file. The sink is called at most once. A tree
with a field of the wrong type may have the request given up instead, before the sink is called. -/
theorem atPosition_into_file (g : Generator) (file path : String) (position : Int) (w : Writer)
    {text : String} {given : Option String} {d : Desk} {tree : Focus}
    (hlanguage : (SourceLanguage.ofFile? file).isSome = true)
    (htext : TextOf g.surroundings d file given text)
    (hfile : d.disk.tree.readAt (w.placeOf path) = .ok text)
    (htree : (g.surroundings.helper d.parsed file text).parse file text = .ok tree)
    (hcalm : w.hazards.Undisturbed d.disk) :
    IntoFile g file path text position w given tree d
      (g.atPosition file position (.file w path) given d) ∨
    GivenUp tree d (g.atPosition file position (.file w path) given d) := by
  obtain ⟨n, hn, hnkind⟩ := HelperRun.parse_root htree
  have hroot : tree.kind = rootKind := by rw [hn]; exact hnkind
  rcases atPosition_of_text (g := g) hlanguage htext position (.file w path) with
    ⟨hstopped, d', hrun, hfollows⟩ | ⟨hgoes, d₁, hreading, hrun⟩ <;> rw [hrun]
  · exact .inl (.of_stopped hstopped hfollows)
  have hsame {other : Focus}
      (h : (g.surroundings.helper d₁.parsed file text).parse file text = .ok other) :
      other = tree := by
    rw [hreading.keeps.parsed, htree] at h
    cases h
    rfl
  have hafter {steps : List Event} {d' : Desk} (h : d₁.Follows g.surroundings steps d') :=
    hreading.follows.trans h
  have hsigned := hreading.follows.signalAfter_eq [.parse, .build]
  have hpositions := g.atPositionOf_positions file text position (.file w path) d₁
  generalize g.atPositionOf file position (.file w path) text d₁ = o at hpositions
  cases hpositions with
  | outside hout =>
    have hmisplaced : tree.Misplaced text position := by
      simp only [Focus.Inside, Classical.not_and_iff_not_or_not, Int.not_le] at hout
      exact hout.imp_right .inl
    exact .inl (.of_misplaced hgoes hmisplaced (hafter (.refl _ d₁)) rfl)
  | unparsed _ hfailed _ =>
    rw [hreading.keeps.parsed, htree] at hfailed
    cases hfailed
  | misplaced hparsed hmisplaced hsteps =>
    cases hsame hparsed
    exact .inl (.of_misplaced hgoes hmisplaced (hafter hsteps) rfl)
  | stranded hparsed hstrands hsteps =>
    cases hsame hparsed
    refine .inr (.of_error (fun htyped => ?_) nofun (hafter hsteps) rfl)
    rw [Focus.strandsAt_of_isTyped htyped] at hstrands
    cases hstrands
  | unbuilt hparsed hf hnone hsteps =>
    -- a target is of a kind that can be documented
    cases hsame hparsed
    obtain ⟨kind, hbuildable⟩ := g.builder.kindOf_of_supported (hf.supportedKind?_isSome hroot)
    have hstops := hnone.resolve_left fun hkind => hkind kind hbuildable
    exact .inr (.of_error (fun htyped => Builder.not_stops_of_isTyped (hf.isTyped htyped) hstops)
      nofun (hafter hsteps) rfl)
  | documented hparsed hf hheader hsteps =>
    cases hsame hparsed
    exact .inl (.of_withheld hf (.documented hheader) rfl rfl (hafter hsteps) rfl)
  | dropped hparsed hf hheader hset hsteps =>
    cases hsame hparsed
    exact .inl (.of_withheld hf (.signalled (hsigned ▸ hset)) rfl rfl (hafter hsteps) rfl)
  | unplaced hparsed hf hplace hsteps =>
    cases hsame hparsed
    refine .inr (.of_error (fun htyped => ?_) nofun (hafter hsteps) rfl)
    rw [Focus.isUnplaced_of_isTyped (hf.isTyped htyped)] at hplace
    cases hplace
  | delivered hparsed hf hheader hclear hbuilt hplaced hsteps =>
    cases hsame hparsed
    rw [hreading.keeps.exchange] at hbuilt
    exact .inl (.of_delivered hcalm hfile hroot hgoes hf hheader (hsigned ▸ hclear) hbuilt hplaced
      (hafter hsteps))

/-- At the end of a file that is one enumeration, the enumeration is documented, though the
signal is set by the report of that. -/
theorem atPosition_at_end_of_file :
    let g := documenting fun e _ => e == .advance
    (g.atPosition "a.ts" 1 (.file ⟨[], [], {}⟩ "a.ts") none oneFile).1.toOption.map
        (·.generated) = some 1 ∧
      ∃ tree, (g.surroundings.helper [] "a.ts" "e").parse "a.ts" "e" = .ok tree ∧
        tree.isTyped = true ∧
        IntoFile g "a.ts" "a.ts" "e" 1 ⟨[], [], {}⟩ none tree oneFile
          (g.atPosition "a.ts" 1 (.file ⟨[], [], {}⟩ "a.ts") none oneFile) := by
  intro g
  have hparsed : ((g.surroundings.helper [] "a.ts" "e").parse "a.ts" "e").toOption.any
      Focus.isTyped = true := by
    decide +kernel
  refine ⟨by decide +kernel, ?_⟩
  cases htree : (g.surroundings.helper [] "a.ts" "e").parse "a.ts" "e" with
  | error e => simp [htree, Except.toOption] at hparsed
  | ok tree =>
    have htyped : tree.isTyped = true := by simpa [htree, Except.toOption] using hparsed
    refine ⟨tree, rfl, htyped, (g.atPosition_into_file "a.ts" "a.ts" 1 ⟨[], [], {}⟩ (d := oneFile)
      (by decide) (.inr ⟨rfl, by decide⟩) (by decide) htree
      (.of_clean (FileTree.clean_of_names (by decide)))).resolve_right fun hgivenUp => ?_⟩
    rw [hgivenUp.mistyped] at htyped
    cases htyped

end Generator

end DocHeader

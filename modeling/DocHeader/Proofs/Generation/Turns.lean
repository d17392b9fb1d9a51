import DocHeader.Proofs.Generation.Steps

/-!
# The turns of a request

What each part of a request for more than one declaration does next, by what its last step
gave. A look may end it; a header may be refused; a file may be left out. All else goes on,
and what is done in between changes nothing that the headers of other files depend on.

## Main definitions

* `Desk.Keeps` — nothing has changed that a header depends on.
* `Collected.stop`, `Collected.fail` — what is collected after a look, and after a failure.
-/

namespace DocHeader

namespace Desk

variable {s : Surroundings} {d d' d'' : Desk}

/-- The disk, the exchange with the assistant and the files given to the helper are the same. -/
structure Keeps (d d' : Desk) : Prop where
  disk : d'.disk = d.disk
  exchange : d'.exchange = d.exchange
  parsed : d'.parsed = d.parsed

theorem Keeps.refl (d : Desk) : d.Keeps d := ⟨rfl, rfl, rfl⟩

theorem Keeps.trans (h : d.Keeps d') (h' : d'.Keeps d'') : d.Keeps d'' :=
  ⟨h'.disk.trans h.disk, h'.exchange.trans h.exchange, h'.parsed.trans h.parsed⟩

theorem cancel_keeps (d : Desk) : d.Keeps (cancel d).2 := by
  cases hset : d.cancelled <;> simp only [cancel, bind_apply, get_apply, hset] <;>
    exact ⟨rfl, rfl, rfl⟩

theorem complete_keeps (s : Surroundings) (e : Event) (d : Desk) :
    d.Keeps (complete s e d).2 := by
  cases hsets : s.cancelsAfter e ((d.events ++ [e]).count e) with
  | true =>
    obtain ⟨hdisk, hexchange, hparsed⟩ := cancel_keeps { d with events := d.events ++ [e] }
    simp only [complete, bind_apply, modify_apply, get_apply, hsets, if_true]
    exact ⟨hdisk, hexchange, hparsed⟩
  | false =>
    simp only [complete, bind_apply, modify_apply, get_apply, hsets, Bool.false_eq_true, if_false]
    exact ⟨rfl, rfl, rfl⟩

theorem report_keeps (s : Surroundings) (e : Event) (step : Meter → String × Meter) (d : Desk) :
    d.Keeps (report s e step d).2 := by
  obtain ⟨hdisk, hexchange, hparsed⟩ := complete_keeps s e
    { d with meter := (step d.meter).2, progress := d.progress ++ (step d.meter).1 }
  exact ⟨hdisk, hexchange, hparsed⟩

/-- What is read is what the file holds. -/
theorem readText_fst (s : Surroundings) (file : String) (d : Desk) :
    (readText s file d).1 = d.disk.tree.read s.here file := by
  cases hread : d.disk.tree.read s.here file <;>
    simp only [readText, bind_apply, get_apply, hread, pure_apply]

/-- What is parsed is what the helper gives. -/
theorem parse_fst (s : Surroundings) (file text : String) (d : Desk) :
    (parse s file text d).1 = (s.helper d.parsed file text).parse file text := by
  cases htree : (s.helper d.parsed file text).parse file text <;>
    simp only [parse, bind_apply, get_apply, htree, pure_apply]

theorem readText_keeps (s : Surroundings) (file : String) (d : Desk) :
    d.Keeps (readText s file d).2 := by
  cases hread : d.disk.tree.read s.here file with
  | ok text =>
    simp only [readText, bind_apply, get_apply, hread, pure_apply]
    exact complete_keeps s .read d
  | error e =>
    simp only [readText, bind_apply, get_apply, hread, pure_apply]
    exact complete_keeps s .unread d

/-- Parsing gives the file to the helper, and changes nothing else. -/
theorem parse_keeps (s : Surroundings) (file text : String) (d : Desk) :
    Keeps { d with parsed := d.parsed ++ [file] } (parse s file text d).2 := by
  cases htree : (s.helper d.parsed file text).parse file text with
  | ok root =>
    simp only [parse, bind_apply, get_apply, modify_apply, htree, pure_apply]
    exact complete_keeps s .parse _
  | error e =>
    simp only [parse, bind_apply, get_apply, modify_apply, htree, pure_apply]
    exact complete_keeps s .unparsed _

theorem note_keeps (level : LogLevel) (message : String) (d : Desk) :
    d.Keeps (note level message d).2 := ⟨rfl, rfl, rfl⟩

/-- Completed steps that change nothing headers depend on. -/
structure Passes (s : Surroundings) (d : Desk) (steps : List Event) (d' : Desk) : Prop where
  follows : d.Follows s steps d'
  keeps : d.Keeps d'

end Desk

namespace Generator

open Desk

/-- What is collected when a look has found the signal set. -/
def Collected.stop (c : Collected) : Collected :=
  { c with result := { c.result with cancelled := true } }

/-- What is collected when a file has failed. -/
def Collected.fail (c : Collected) (file reason : String) : Collected :=
  { c with result := { c.result with
      failures := c.result.failures ++ [⟨file, firstLine reason⟩] } }

/-- The report of a declaration, where declarations are reported. -/
def reported (reporting : Bool) : List Event := if reporting then [.advance] else []

/-- The announcement of the declarations, where declarations are reported. -/
def announced (reporting : Bool) : List Event := if reporting then [.begin] else []

variable {c c₁ : Collected} {d d₁ d₂ : Desk} {file text : String}

/-- A look marks the result just when the signal is set, and changes nothing else. -/
theorem look_turns (g : Generator) {r : GenerationResult} (hr : r.cancelled = false) (d : Desk) :
    (d.cancelled = true ∧ ∃ d', g.look r d = ({ r with cancelled := true }, d') ∧
      d.Passes g.surroundings [.look] d') ∨
    (d.cancelled = false ∧ ∃ d', g.look r d = (r, d') ∧ d.Passes g.surroundings [.look] d') := by
  have hkeeps : d.Keeps (g.look r d).2 := by
    have hlook := complete_keeps g.surroundings .look d
    simp only [look, Desk.bind_apply]
    split
    next => exact hlook.trans (note_keeps _ _ _)
    next => exact hlook
  rcases g.look_cases hr d with ⟨hset, d', hlook, hfollows⟩ | ⟨hset, d', hlook, hfollows⟩ <;>
    rw [hlook] at hkeeps
  · exact .inl ⟨hset, d', hlook, hfollows, hkeeps⟩
  · exact .inr ⟨hset, d', hlook, hfollows, hkeeps⟩

theorem recordFailure_turns (g : Generator) (c : Collected) (file reason : String) (d : Desk) :
    ∃ d', recordFailure c.result file reason d = ((c.fail file reason).result, d') ∧
      d.Passes g.surroundings [] d' :=
  ⟨_, rfl, note_follows _ .warning _ d, note_keeps .warning _ d⟩

/-- A header is handed to a sink, unless its place is null and needed. -/
theorem handOver_cases (g : Generator) (file : String) (f : Focus) (sink : Sink)
    (r : GenerationResult) (header : String) (d : Desk) :
    (f.isUnplaced = true ∧ g.handOver file f sink r header d = (.error .unusable, d)) ∨
    ((f.isUnplaced = true → sink.needsOffset d.disk = false) ∧
      g.handOver file f sink r header d =
        (.ok (g.deliver file f sink r header d).1, (g.deliver file f sink r header d).2)) := by
  rw [handOver, Work.get_bind]
  split
  next h => exact .inl ⟨((Bool.and_eq_true _ _).mp h).1, rfl⟩
  next h => exact .inr ⟨fun hplace => by simpa [hplace] using h, rfl⟩

/-! ## Declarations -/

section

variable (g : Generator) (reporting : Bool) {f : Focus} {rest : List Focus}

/-- A declaration that is refused ends the request. -/
theorem collectDeclarations_of_unbuilt {e : BuildError}
    (hheader : g.header f text false d = (.error e, d₁)) :
    g.collectDeclarations file text reporting (f :: rest) c d = (.error (.unbuilt e), d₁) := by
  simp only [collectDeclarations, Work.lift_bind, hheader, Work.throw_apply]

/-- The header of a declaration is discarded when the signal was set meanwhile. Otherwise it is
collected, and the next declaration follows. -/
theorem collectDeclarations_of_built (hc : c.result.cancelled = false) {header : String}
    (hheader : g.header f text false d = (.ok header, d₁)) :
    (d₁.cancelled = true ∧ ∃ d₂, d₁.Passes g.surroundings [.look] d₂ ∧
      g.collectDeclarations file text reporting (f :: rest) c d = (.ok c.stop, d₂)) ∨
    (d₁.cancelled = false ∧ ∃ d₂, d₁.Passes g.surroundings (.look :: reported reporting) d₂ ∧
      g.collectDeclarations file text reporting (f :: rest) c d =
        g.collectDeclarations file text reporting rest
          (c.add ⟨file, f.insertionOffset, header⟩) d₂) := by
  rcases g.look_turns hc d₁ with ⟨hset, d₂, hlook, hlooked⟩ | ⟨hset, d₂, hlook, hlooked⟩
  · refine .inl ⟨hset, d₂, hlooked, ?_⟩
    simp only [collectDeclarations, Work.lift_bind, hheader, hlook, if_true, Work.pure_apply,
      Collected.stop]
  refine .inr ⟨hset, ?_⟩
  cases reporting with
  | true =>
    refine ⟨_, ⟨hlooked.follows.trans (advance_follows _ ((given? f.info.name).getD f.kind) d₂),
      hlooked.keeps.trans (report_keeps _ _ _ d₂)⟩, ?_⟩
    simp only [collectDeclarations, Work.lift_bind, hheader, hlook, hc, if_true,
      Bool.false_eq_true, if_false]
  | false =>
    refine ⟨d₂, hlooked, ?_⟩
    simp only [collectDeclarations, Work.lift_bind, hheader, hlook, hc, Bool.false_eq_true,
      if_false]

/-- The declarations of a tree are put in order, and announced where they are reported. -/
theorem collectTree_turns (file text : String) (root : Focus) (c : Collected) (d : Desk) :
    (root.isUnsortable = true ∧
      g.collectTree file text reporting root c d = (.error .unusable, d)) ∨
    (root.isUnsortable = false ∧ ∃ d₁, d.Passes g.surroundings (announced reporting) d₁ ∧
      g.collectTree file text reporting root c d =
        g.collectDeclarations file text reporting root.pending (c.countFile file root) d₁) := by
  cases hsorted : root.isUnsortable with
  | true => exact .inl ⟨rfl, by simp only [collectTree, hsorted, if_true, Work.throw_apply]⟩
  | false =>
    refine .inr ⟨rfl, ?_⟩
    cases reporting with
    | true =>
      refine ⟨_, ⟨begin_follows _ root.pending.length ("Generating JSDoc for " ++
        toString root.pending.length ++ " declaration(s)") d, report_keeps _ _ _ d⟩, ?_⟩
      simp only [collectTree, hsorted, Work.lift_bind, Bool.false_eq_true, if_false, if_true]
    | false =>
      refine ⟨d, ⟨.refl _ d, .refl d⟩, ?_⟩
      simp only [collectTree, hsorted, Bool.false_eq_true, if_false]

end

/-! ## Files -/

section

variable (g : Generator) (reporting : Bool)

/-- A file that cannot be read is left out. -/
theorem collectFile_of_unread {e : ReadError}
    (hread : readText g.surroundings file d = (.error e, d₁)) :
    ∃ d₂, d₁.Passes g.surroundings [] d₂ ∧
      g.collectFile file reporting c d = (.ok (c.fail file e.message), d₂) := by
  obtain ⟨d₂, hrecord, hrecorded⟩ := recordFailure_turns g c file e.message d₁
  refine ⟨d₂, hrecorded, ?_⟩
  simp only [collectFile, Work.lift_bind, hread, hrecord, Work.pure_apply]
  rfl

/-- A file that was read is not parsed when the signal was set meanwhile. -/
theorem collectFile_of_read (hc : c.result.cancelled = false)
    (hread : readText g.surroundings file d = (.ok text, d₁)) :
    (d₁.cancelled = true ∧ ∃ d₂, d₁.Passes g.surroundings [.look] d₂ ∧
      g.collectFile file reporting c d = (.ok c.stop, d₂)) ∨
    (d₁.cancelled = false ∧ ∃ d₂, d₁.Passes g.surroundings [.look] d₂ ∧
      (∀ root d₃, parse g.surroundings file text d₂ = (.ok root, d₃) →
        g.collectFile file reporting c d = g.collectTree file text reporting root c d₃) ∧
      ∀ e d₃, parse g.surroundings file text d₂ = (.error e, d₃) →
        (e.isRecoverable = true → ∃ d₄, d₃.Passes g.surroundings [] d₄ ∧
          g.collectFile file reporting c d = (.ok (c.fail file e.message), d₄)) ∧
        (e.isRecoverable = false →
          g.collectFile file reporting c d = (.error (.unparsed e), d₃))) := by
  rcases g.look_turns hc d₁ with ⟨hset, d₂, hlook, hlooked⟩ | ⟨hset, d₂, hlook, hlooked⟩
  · refine .inl ⟨hset, d₂, hlooked, ?_⟩
    simp only [collectFile, Work.lift_bind, hread, hlook, if_true, Work.pure_apply, Collected.stop]
  refine .inr ⟨hset, d₂, hlooked, fun root d₃ hparse => ?_, fun e d₃ hparse => ⟨fun h => ?_,
    fun h => ?_⟩⟩
  · simp only [collectFile, Work.lift_bind, hread, hlook, hc, Bool.false_eq_true, if_false, hparse]
  · obtain ⟨d₄, hrecord, hrecorded⟩ := recordFailure_turns g c file e.message d₃
    refine ⟨d₄, hrecorded, ?_⟩
    simp only [collectFile, Work.lift_bind, hread, hlook, hc, Bool.false_eq_true, if_false, hparse,
      h, if_true, hrecord, Work.pure_apply]
    rfl
  · simp only [collectFile, Work.lift_bind, hread, hlook, hc, Bool.false_eq_true, if_false, hparse,
      h, Work.throw_apply]

end

/-! ## Directories -/

section

variable (g : Generator)

/-- The next file is visited unless the signal was set. -/
theorem collectFiles_cons (hc : c.result.cancelled = false) (file : String) (rest : List String)
    (d : Desk) :
    (d.cancelled = true ∧ ∃ d₁, d.Passes g.surroundings [.look] d₁ ∧
      g.collectFiles (file :: rest) c d = (.ok c.stop, d₁)) ∨
    (d.cancelled = false ∧ ∃ d₁, d.Passes g.surroundings [.look] d₁ ∧
      (∀ e d₂, g.collectFile file false c d₁ = (.error e, d₂) →
        g.collectFiles (file :: rest) c d = (.error e, d₂)) ∧
      ∀ c₁ d₂, g.collectFile file false c d₁ = (.ok c₁, d₂) →
        (c₁.result.cancelled = true → g.collectFiles (file :: rest) c d = (.ok c₁, d₂)) ∧
        (c₁.result.cancelled = false → ∃ d₃, d₂.Passes g.surroundings [.advance] d₃ ∧
          g.collectFiles (file :: rest) c d = g.collectFiles rest c₁ d₃)) := by
  rcases g.look_turns hc d with ⟨hset, d₁, hlook, hlooked⟩ | ⟨hset, d₁, hlook, hlooked⟩
  · refine .inl ⟨hset, d₁, hlooked, ?_⟩
    simp only [collectFiles, Work.lift_bind, hlook, if_true, Work.pure_apply, Collected.stop]
  refine .inr ⟨hset, d₁, hlooked, fun e d₂ hfile => ?_, fun c₁ d₂ hfile => ⟨fun h => ?_,
    fun h => ?_⟩⟩
  all_goals
    simp only [collectFiles, Work.lift_bind, hlook, hc, Bool.false_eq_true, if_false]
    simp only [Work.bind_apply, hfile]
  · simp only [h, if_true, Work.pure_apply]
  · refine ⟨_, ⟨advance_follows _ file d₂, report_keeps _ _ _ d₂⟩, ?_⟩
    simp only [h, Bool.false_eq_true, if_false, Work.lift_bind]

/-- The files found are visited unless the signal was set meanwhile. -/
theorem collectFound_turns (scope : Scope) (root : String) (files : List String) (d : Desk) :
    (d.signalAfter g.surroundings [.find] = true ∧ ∃ d₁, d.Passes g.surroundings [.find, .look] d₁ ∧
      g.collectFound scope root files d =
        (.ok { result := { scope, cancelled := true } }, d₁)) ∨
    (d.signalAfter g.surroundings [.find] = false ∧ ∃ d₁,
      d.Passes g.surroundings [.find, .look, .begin] d₁ ∧
      g.collectFound scope root files d =
        g.collectFiles files { result := { scope } } d₁) := by
  have hfound := complete_follows g.surroundings .find d
  have hkept := complete_keeps g.surroundings .find d
  rcases g.look_turns (r := { scope }) rfl (complete g.surroundings .find d).2 with
    ⟨hset, d₁, hlook, hlooked⟩ | ⟨hset, d₁, hlook, hlooked⟩ <;> rw [hfound.cancelled] at hset
  · refine .inl ⟨hset, d₁, ⟨hfound.trans hlooked.follows, hkept.trans hlooked.keeps⟩, ?_⟩
    simp only [collectFound, Work.lift_bind, hlook, if_true, Work.pure_apply]
  · have hbegun := begin_follows g.surroundings files.length
      ("Generating JSDoc for " ++ toString files.length ++ " file(s) in " ++ root) d₁
    refine .inr ⟨hset, _, ⟨(hfound.trans hlooked.follows).trans hbegun,
      (hkept.trans hlooked.keeps).trans (report_keeps _ _ _ d₁)⟩, ?_⟩
    simp only [collectFound, Work.lift_bind, hlook, Bool.false_eq_true, if_false]

end

end Generator

end DocHeader

import DocHeader.Proofs.Generation.Cancelled
import DocHeader.Proofs.Generation.Course

/-!
# When headers are built

Which builds a request begins, and what comes of a header when the cancellation signal is set
while it is built. A request looks at the signal after each build, and drops the header when it
is set. But it does not look before each build: after a file was parsed, after the declarations
were announced and after a declaration was reported it goes on to the next build. And a request
for a position that is given the text does not look before its build at all.

## Main definitions

* `Generator.Goes` — the outcome of a part of the collecting, with its course.
* `Request` — a request of any scope.
* `Request.leads` — the steps that may come before a build since the last look.
-/

namespace DocHeader

/-- Work that is given up at once, or not at all. -/
theorem Work.ofExcept_apply {α : Type} (x : Except GenerationFault α) (d : Desk) :
    (liftM x : Work α) d = (x, d) := by
  cases x <;> rfl

/-- The sink completes no steps by itself, and leaves the cancellation signal alone. -/
def Sink.IsQuiet (sink : Sink) : Prop :=
  ∀ text offset d, (sink.insert text offset d).2.events = d.events ∧
    (sink.insert text offset d).2.cancelled = d.cancelled

theorem Sink.file_isQuiet (w : Writer) (path : String) : (Sink.file w path).IsQuiet :=
  fun _ _ _ => ⟨rfl, rfl⟩

namespace Generator

open Desk

variable {g : Generator} {s : Surroundings} {c c' c₁ : Collected} {d d' d₁ : Desk}
  {file text root : String} {files : List String} {scope : Scope} {reporting : Bool}
  {allowed : List (List Event)} {a since steps : List Event} {st st₁ : Stage} {n : Nat}
  {o : Except GenerationFault Collected × Desk}

/-! ## Collecting -/

/-- The outcome of a part of the collecting: it took a course and was given up, or has counted
the headers that were kept and is marked as cancelled when the course was ended by a look. A
header that is refused is built like any other. -/
inductive Goes (s : Surroundings) (allowed : List (List Event)) (st : Stage) :
    Except GenerationFault Collected × Desk → Prop where
  | error {e : GenerationFault} {st' : Stage} {steps : List Event}
    (h : Course s allowed st steps st' .running)
    (hrefused : ∀ b, e = .unbuilt b → st'.since ∈ allowed) :
    Goes s allowed st (.error e, st'.desk)
  | ok {c : Collected} {st' : Stage} {steps : List Event} {ending : Ending}
    (h : Course s allowed st steps st' ending)
    (hcancelled : c.result.cancelled = decide (ending ≠ .running))
    (hkept : c.result.generated = st'.kept) : Goes s allowed st (.ok c, st'.desk)

theorem Goes.refused {e : GenerationFault} (hrefused : ∀ b, e = .unbuilt b → since ∈ allowed) :
    Goes s allowed ⟨d, since, n⟩ (.error e, d) := by
  have hcourse : Course s allowed ⟨d, since, n⟩ [] ⟨d, since, n⟩ .running := .done
  exact .error hcourse hrefused

theorem Goes.finished (hc : c.result.cancelled = false) :
    Goes s allowed ⟨d, since, c.result.generated⟩ (.ok c, d) := by
  have hcourse : Course s allowed ⟨d, since, c.result.generated⟩ []
      ⟨d, since, c.result.generated⟩ .running := .done
  exact .ok hcourse hc rfl

theorem Goes.after (h : Course s allowed st a st₁ .running) (hrest : Goes s allowed st₁ o) :
    Goes s allowed st o := by
  cases hrest with
  | error h' hrefused => exact .error (h.trans h') hrefused
  | ok h' hcancelled hkept => exact .ok (h.trans h') hcancelled hkept

theorem Goes.passed (hlook : .look ∉ a) (hbuild : .build ∉ a) (h : d.Follows s a d₁)
    (hrest : Goes s allowed ⟨d₁, since ++ a, n⟩ o) : Goes s allowed ⟨d, since, n⟩ o :=
  .after (.passed hlook hbuild h.completes .done) hrest

theorem Goes.looked (hclear : d.cancelled = false) (h : d.Follows s [.look] d₁)
    (hrest : Goes s allowed ⟨d₁, [.look], n⟩ o) : Goes s allowed ⟨d, since, n⟩ o :=
  .after (.looked hclear h.completes .done) hrest

theorem Goes.stopped (hset : d.cancelled = true) (h : d.Follows s [.look] d₁)
    (hkept : c.result.generated = n) : Goes s allowed ⟨d, since, n⟩ (.ok c.stop, d₁) := by
  have hcourse : Course s allowed ⟨d, since, n⟩ [.look] ⟨d₁, [.look], n⟩ .stopped :=
    .stopped hset h.completes
  exact .ok hcourse rfl hkept

theorem reported_clean (reporting : Bool) :
    Event.look ∉ reported reporting ∧ Event.build ∉ reported reporting := by
  cases reporting <;> decide

theorem announced_clean (reporting : Bool) :
    Event.look ∉ announced reporting ∧ Event.build ∉ announced reporting := by
  cases reporting <;> decide

theorem collectDeclarations_goes (g : Generator) (file text : String) (pending : List Focus)
    (hsince : since ∈ allowed) (hnext : .look :: reported reporting ∈ allowed)
    (hc : c.result.cancelled = false) :
    Goes g.surroundings allowed ⟨d, since, c.result.generated⟩
      (g.collectDeclarations file text reporting pending c d) := by
  induction pending generalizing c d since with
  | nil => exact .finished hc
  | cons f rest ih =>
    rcases g.header_cases f text false d with
      ⟨header, d₁, hheader, hbuilt⟩ | ⟨e, d₁, hheader, hgone⟩
    case inr =>
      rw [g.collectDeclarations_of_unbuilt reporting hheader]
      exact .passed (a := []) (by simp) (by simp) hgone
        (.refused fun _ _ => by simpa using hsince)
    rcases g.collectDeclarations_of_built reporting hc hheader with
      ⟨hset, d₂, hlooked, hcollect⟩ | ⟨hclear, d₂, hlooked, hcollect⟩ <;> rw [hcollect]
    · exact .ok (.dropped hsince hbuilt.completes hset hlooked.follows.completes) rfl rfl
    · obtain ⟨dl, hlook, hreport⟩ :=
        Completes.split (a := [.look]) (b := reported reporting) hlooked.follows.completes
      obtain ⟨hclean, hclean'⟩ := reported_clean reporting
      have hkept : Course g.surroundings allowed ⟨d, since, c.result.generated⟩ _
          ⟨d₂, .look :: reported reporting, c.result.generated + 1⟩ .running :=
        .built hsince hbuilt.completes hclear hlook (.passed hclean hclean' hreport .done)
      exact .after hkept (ih (c := c.add _) hnext hc)

theorem collectTree_goes (g : Generator) (file text : String) (tree : Focus)
    (hfirst : since ++ announced reporting ∈ allowed)
    (hnext : .look :: reported reporting ∈ allowed) (hc : c.result.cancelled = false) :
    Goes g.surroundings allowed ⟨d, since, c.result.generated⟩
      (g.collectTree file text reporting tree c d) := by
  rcases g.collectTree_turns reporting file text tree c d with
    ⟨-, hunusable⟩ | ⟨-, d₁, hannounced, hcollect⟩
  · rw [hunusable]
    exact .refused nofun
  obtain ⟨hclean, hclean'⟩ := announced_clean reporting
  rw [hcollect]
  exact .passed hclean hclean' hannounced.follows
    (g.collectDeclarations_goes (c := c.countFile file tree) file text _ hfirst hnext hc)

theorem collectFile_goes (g : Generator) (file : String) (since : List Event)
    (hfirst : [.look, .parse] ++ announced reporting ∈ allowed)
    (hnext : .look :: reported reporting ∈ allowed) (hc : c.result.cancelled = false) :
    Goes g.surroundings allowed ⟨d, since, c.result.generated⟩
      (g.collectFile file reporting c d) := by
  rcases readText_cases g.surroundings file d with ⟨text, d₁, hread, hdone⟩ | ⟨e, d₁, hread, hdone⟩
  case inr =>
    obtain ⟨d₂, hrecorded, hcollect⟩ := g.collectFile_of_unread (c := c) reporting hread
    rw [hcollect]
    exact .passed (by decide) (by decide) (hdone.trans hrecorded.follows)
      (.finished (c := c.fail file e.message) hc)
  refine .passed (by decide) (by decide) hdone ?_
  rcases g.collectFile_of_read reporting hc hread with
    ⟨hset, d₂, hlooked, hcollect⟩ | ⟨hclear, d₂, hlooked, htree, hfailed⟩
  · rw [hcollect]
    exact .stopped hset hlooked.follows rfl
  refine .looked hclear hlooked.follows ?_
  rcases parse_cases g.surroundings file text d₂ with
    ⟨tree, d₃, hparse, hparsed⟩ | ⟨e, d₃, hparse, hparsed⟩
  · rw [htree tree d₃ hparse]
    exact .passed (by decide) (by decide) hparsed
      (g.collectTree_goes file text tree hfirst hnext hc)
  · cases hrecoverable : e.isRecoverable with
    | true =>
      obtain ⟨d₄, hrecorded, hcollect⟩ := (hfailed e d₃ hparse).1 hrecoverable
      rw [hcollect]
      exact .passed (by decide) (by decide) (hparsed.trans hrecorded.follows)
        (.finished (c := c.fail file e.message) hc)
    | false =>
      rw [(hfailed e d₃ hparse).2 hrecoverable]
      exact .passed (by decide) (by decide) hparsed (.refused nofun)

theorem collectFiles_goes (g : Generator) (files : List String) (since : List Event)
    (hfirst : [.look, .parse] ∈ allowed) (hnext : [.look] ∈ allowed)
    (hc : c.result.cancelled = false) :
    Goes g.surroundings allowed ⟨d, since, c.result.generated⟩ (g.collectFiles files c d) := by
  induction files generalizing c d since with
  | nil => exact .finished hc
  | cons file rest ih =>
    rcases g.collectFiles_cons hc file rest d with
      ⟨hset, d₁, hlooked, hcollect⟩ | ⟨hclear, d₁, hlooked, hraised, hvisited⟩
    · rw [hcollect]
      exact .stopped hset hlooked.follows rfl
    refine .looked hclear hlooked.follows ?_
    have hfile : Goes g.surroundings allowed _ (g.collectFile file false c d₁) :=
      g.collectFile_goes file [.look] hfirst hnext hc
    generalize hcollect : g.collectFile file false c d₁ = o at hfile
    cases hfile with
    | error h hrefused =>
      rw [hraised _ _ hcollect]
      exact .error h hrefused
    | @ok c₁ st' steps ending h hcancelled hkept =>
      -- A course that was ended inside the file ends the loop.
      by_cases hrunning : ending = .running
      · subst hrunning
        obtain ⟨d₃, hadvanced, hrest⟩ := (hvisited _ _ hcollect).2 hcancelled
        rw [hrest]
        have hreported : Course g.surroundings allowed st' ([.advance] ++ [])
            ⟨d₃, st'.since ++ [.advance], c₁.result.generated⟩ .running := by
          rw [hkept]
          exact .passed (by decide) (by decide) hadvanced.follows.completes .done
        exact .after (h.trans hreported) (ih _ hcancelled)
      · rw [(hvisited _ _ hcollect).1 (by simp [hcancelled, hrunning])]
        exact .ok h hcancelled hkept

theorem collectFound_goes (g : Generator) (scope : Scope) (root : String) (files : List String)
    (hfirst : [.look, .parse] ∈ allowed) (hnext : [.look] ∈ allowed) :
    Goes g.surroundings allowed ⟨d, [], 0⟩ (g.collectFound scope root files d) := by
  have hclean : Event.look ∉ [Event.find] ∧ Event.build ∉ [Event.find] := by decide
  rcases g.collectFound_turns scope root files d with
    ⟨hset, d₁, hlooked, hcollect⟩ | ⟨hclear, d₁, hbegun, hcollect⟩ <;> rw [hcollect]
  · obtain ⟨df, hfound, hlook⟩ :=
      Completes.split (a := [.find]) (b := [.look]) hlooked.follows.completes
    have hcourse : Course g.surroundings allowed ⟨d, [], 0⟩ _ ⟨d₁, [.look], 0⟩ .stopped :=
      .passed hclean.1 hclean.2 hfound (.stopped (hfound.cancelled.trans hset) hlook)
    exact .ok hcourse rfl rfl
  · obtain ⟨df, hfound, hrest⟩ :=
      Completes.split (a := [.find]) (b := [.look, .begin]) hbegun.follows.completes
    obtain ⟨dl, hlook, hbegin⟩ := Completes.split (a := [.look]) (b := [.begin]) hrest
    have hcourse : Course g.surroundings allowed ⟨d, [], 0⟩ _ ⟨d₁, [.look, .begin], 0⟩ .running :=
      .passed hclean.1 hclean.2 hfound (.looked (hfound.cancelled.trans hclear) hlook
        (.passed (by decide) (by decide) hbegin .done))
    exact .after hcourse
      (g.collectFiles_goes (c := { result := { scope } }) files _ hfirst hnext rfl)

/-! ## Requests -/

/-- A request of any scope. -/
inductive Request where
  | position (file : String) (offset : Int) (sink : Sink) (text : Option String)
  | many (t : Target)

/-- Carry out a request. -/
def carryOut (g : Generator) : Request → Work GenerationResult
  | .position file offset sink text => g.atPosition file offset sink text
  | .many t => g.generate t

/-- The steps that may come before a build since the last look. -/
def Request.leads : Request → List (List Event)
  | .position _ _ _ none => [[.look, .parse]]
  | .position _ _ _ (some _) => [[.parse]]
  | .many (.file _) => [[.look, .parse, .begin], [.look, .advance]]
  | .many (.folder _) | .many (.workspace _) => [[.look, .parse], [.look]]

theorem collect_goes (g : Generator) (t : Target) (d : Desk) :
    Goes g.surroundings (Request.many t).leads ⟨d, [], 0⟩ (g.collect t d) := by
  have hdirectory (scope : Scope) (root : String) :
      Goes g.surroundings [[.look, .parse], [.look]] ⟨d, [], 0⟩
        (g.collectDirectory scope root d) := by
    rcases g.collectDirectory_cases scope root d with ⟨e, hsound, hrefused⟩ | hfound
    · rw [hrefused]
      exact .refused fun b he => absurd he (hsound b)
    · rw [hfound]
      exact g.collectFound_goes scope root _ (by decide) (by decide)
  cases t with
  | file path =>
    rw [collect, Work.bind_apply]
    rcases checkLanguage_cases path d with hok | hrefused
    · rw [hok]
      exact g.collectFile_goes (c := { result := { scope := .file } }) path []
        (by simp [Request.leads, announced]) (by simp [Request.leads, reported]) rfl
    · rw [hrefused]
      exact .refused (by simp)
  | folder root => exact hdirectory .folder root
  | workspace root => exact hdirectory .workspace root

/-- The outcome of a request, with its course. A header that is dropped is not counted, and
the disk is as it was. -/
inductive Scheduled (s : Surroundings) (allowed : List (List Event)) (st : Stage) :
    Except GenerationFault GenerationResult × Desk → Prop where
  | error {e : GenerationFault} {st' : Stage} {steps : List Event}
    (h : Course s allowed st steps st' .running)
    (hrefused : ∀ b, e = .unbuilt b → st'.since ∈ allowed) :
    Scheduled s allowed st (.error e, st'.desk)
  | ok {r : GenerationResult} {st' : Stage} {steps : List Event} {ending : Ending}
    (h : Course s allowed st steps st' ending)
    (hcancelled : r.cancelled = decide (ending ≠ .running))
    (hdropped : ending = .dropped →
      r.generated = st'.kept ∧ r.applied = false ∧ st'.desk.disk = st.desk.disk) :
    Scheduled s allowed st (.ok r, st'.desk)

variable {o' : Except GenerationFault GenerationResult × Desk} {sink : Sink} {offset : Int}
  {r : GenerationResult}

theorem Scheduled.after (h : Course s allowed st a st₁ .running)
    (hdisk : st₁.desk.disk = st.desk.disk) (hrest : Scheduled s allowed st₁ o') :
    Scheduled s allowed st o' := by
  cases hrest with
  | error h' hrefused => exact .error (h.trans h') hrefused
  | ok h' hcancelled hdropped => exact .ok (h.trans h') hcancelled (hdisk ▸ hdropped)

theorem Scheduled.passed (hlook : .look ∉ a) (hbuild : .build ∉ a) (h : d.Follows s a d₁)
    (hrest : Scheduled s allowed ⟨d₁, since ++ a, n⟩ o') : Scheduled s allowed ⟨d, since, n⟩ o' :=
  .after (.passed hlook hbuild h.completes .done) h.disk hrest

theorem Scheduled.refused {e : GenerationFault} (hrefused : ∀ b, e = .unbuilt b → since ∈ allowed) :
    Scheduled s allowed ⟨d, since, n⟩ (.error e, d) := by
  have hcourse : Course s allowed ⟨d, since, n⟩ [] ⟨d, since, n⟩ .running := .done
  exact .error hcourse hrefused

theorem Scheduled.finished (hr : r.cancelled = false) :
    Scheduled s allowed ⟨d, since, n⟩ (.ok r, d) := by
  have hcourse : Course s allowed ⟨d, since, n⟩ [] ⟨d, since, n⟩ .running := .done
  exact .ok hcourse hr nofun

/-- A header that is handed over is not dropped. -/
theorem deliver_scheduled (g : Generator) (file : String) (f : Focus) (header : String)
    (hquiet : sink.IsQuiet) (hr : r.cancelled = false) (d : Desk) :
    Scheduled g.surroundings allowed ⟨d, since, n⟩
      (.ok (g.deliver file f sink r header d).1, (g.deliver file f sink r header d).2) := by
  obtain ⟨hevents, hcancelled⟩ := hquiet header f.insertionOffset d
  rcases hinsert : sink.insert header f.insertionOffset d with ⟨inserted, d₁⟩
  rw [hinsert] at hevents hcancelled
  have hinserted : d.Completes g.surroundings [.insert] (complete g.surroundings .insert d₁).2 :=
    (complete_follows g.surroundings .insert d₁).completes.of_eq hevents hcancelled
  simp only [deliver, Desk.bind_apply, hinsert]
  cases inserted with
  | false =>
    have hcourse : Course g.surroundings allowed ⟨d, since, n⟩ ([.insert] ++ [])
        ⟨_, since ++ [.insert], n⟩ .running := .passed (by decide) (by decide) hinserted .done
    exact .ok hcourse hr nofun
  | true =>
    -- The last look marks the result, though the header is inserted by then.
    have hadvanced := hinserted.trans (advance_follows g.surroundings file _).completes
    simp only [if_true]
    let r' : GenerationResult := { r with generated := 1, applied := true }
    have hr' : r'.cancelled = false := hr
    rcases g.look_turns hr' _ with
      ⟨hset, d₂, hlook, hlooked⟩ | ⟨hclear, d₂, hlook, hlooked⟩ <;> rw [Desk.bind_apply, hlook]
    · have hcourse : Course g.surroundings allowed ⟨d, since, n⟩ _ ⟨d₂, [.look], n⟩ .stopped :=
        .passed (by decide) (by decide) hadvanced (.stopped hset hlooked.follows.completes)
      exact .ok hcourse rfl nofun
    · have hcourse : Course g.surroundings allowed ⟨d, since, n⟩ _ ⟨d₂, [.look], n⟩ .running :=
        .passed (by decide) (by decide) hadvanced (.looked hclear hlooked.follows.completes .done)
      exact .ok hcourse hr nofun

theorem targetAt_cases (file text : String) (tree : Focus) (position : Nat) :
    (∃ f, targetAt file text tree position = .ok f) ∨
      targetAt file text tree position = .error (.unparsed (.malformed .wrongForm)) ∨
      targetAt file text tree position =
        .error (.unsupportedPosition file position (some (Location.ofOffset text position))) := by
  unfold targetAt
  split
  · exact .inr (.inl rfl)
  cases tree.classifyAt? position with
  | some f => exact .inl ⟨f, rfl⟩
  | none =>
    cases (text.toList.take position).all Text.isBlank with
    | true => exact .inl ⟨tree, rfl⟩
    | false => exact .inr (.inr rfl)

/-- A header that is built is dropped or handed over. -/
theorem atPositionOf_scheduled (g : Generator) (file : String) (offset : Int) (text : String)
    (hquiet : sink.IsQuiet) (hlead : since ++ [.parse] ∈ allowed) :
    Scheduled g.surroundings allowed ⟨d, since, 0⟩ (g.atPositionOf file offset sink text d) := by
  simp only [atPositionOf]
  split
  · exact .refused nofun
  rcases parse_cases g.surroundings file text d with
    ⟨tree, d₁, hparse, hparsed⟩ | ⟨e, d₁, hparse, hparsed⟩
  case inr =>
    simp only [Work.lift_bind, hparse]
    exact .passed (by decide) (by decide) hparsed (.refused nofun)
  simp only [Work.lift_bind, hparse]
  refine .passed (by decide) (by decide) hparsed ?_
  rcases targetAt_cases file text tree offset.toNat with ⟨f, htarget⟩ | hnone | hnone
  case inr.inl | inr.inr =>
    simp only [Work.bind_apply, Work.ofExcept_apply, hnone]
    exact .refused nofun
  simp only [Work.bind_apply, Work.ofExcept_apply, htarget]
  split
  · exact .passed (a := []) (by simp) (by simp) (note_follows _ _ _ _) (.finished rfl)
  rcases g.header_cases f text sink.snippets d₁ with
    ⟨header, d₂, hheader, hbuilt⟩ | ⟨e, d₂, hheader, hgone⟩
  case inr =>
    simp only [Work.lift_bind, hheader]
    exact .passed (a := []) (by simp) (by simp) hgone (.refused fun _ _ => by simpa using hlead)
  simp only [Work.lift_bind, hheader]
  rcases g.look_turns (r := { scope := .position, filesProcessed := 1 }) rfl d₂ with
    ⟨hset, d₃, hlook, hlooked⟩ | ⟨hclear, d₃, hlook, hlooked⟩ <;>
    simp only [hlook]
  · have hcourse : Course g.surroundings allowed ⟨d₁, since ++ [.parse], 0⟩ [.build, .look]
        ⟨d₃, [.look], 0⟩ .dropped :=
      .dropped hlead hbuilt.completes hset hlooked.follows.completes
    exact .ok hcourse rfl fun _ => ⟨rfl, rfl, hlooked.follows.disk.trans hbuilt.disk⟩
  · have hcourse : Course g.surroundings allowed ⟨d₁, since ++ [.parse], 0⟩ [.build, .look]
        ⟨d₃, [.look], 1⟩ .running :=
      .built hlead hbuilt.completes hclear hlooked.follows.completes .done
    refine .after hcourse (hlooked.follows.disk.trans hbuilt.disk) ?_
    simp only [Bool.false_eq_true, if_false]
    rcases g.handOver_cases file f sink { scope := .position, filesProcessed := 1 } header d₃ with
      ⟨-, hunusable⟩ | ⟨-, hdelivered⟩
    · rw [hunusable]
      exact .refused nofun
    · rw [hdelivered]
      exact g.deliver_scheduled file f header hquiet rfl d₃

theorem atPosition_scheduled (g : Generator) (file : String) (offset : Int)
    (given : Option String) (hquiet : sink.IsQuiet) :
    Scheduled g.surroundings (Request.position file offset sink given).leads ⟨d, [], 0⟩
      (g.atPosition file offset sink given d) := by
  rcases checkLanguage_cases file d with hok | hrefused
  case inr =>
    simp only [atPosition, Work.bind_apply, hrefused]
    exact .refused nofun
  simp only [atPosition, Work.bind_apply _ _ d, hok]
  cases given with
  | some text => exact g.atPositionOf_scheduled file offset text hquiet (by simp [Request.leads])
  | none =>
    rcases readText_cases g.surroundings file d with
      ⟨text, d₁, hread, hdone⟩ | ⟨e, d₁, hread, hdone⟩
    case inr =>
      simp only [Work.lift_bind, hread]
      exact .passed (by decide) (by decide) hdone (.refused nofun)
    simp only [Work.lift_bind, hread]
    refine .passed (by decide) (by decide) hdone ?_
    rcases g.look_turns (r := { scope := .position }) rfl d₁ with
      ⟨hset, d₂, hlook, hlooked⟩ | ⟨hclear, d₂, hlook, hlooked⟩ <;>
      simp only [hlook]
    · have hcourse : Course g.surroundings (Request.position file offset sink none).leads
          ⟨d₁, [] ++ [.read], 0⟩ [.look] ⟨d₂, [.look], 0⟩ .stopped :=
        .stopped hset hlooked.follows.completes
      exact .ok hcourse rfl nofun
    · have hcourse : Course g.surroundings (Request.position file offset sink none).leads
          ⟨d₁, [] ++ [.read], 0⟩ [.look] ⟨d₂, [.look], 0⟩ .running :=
        .looked hclear hlooked.follows.completes .done
      exact .after hcourse hlooked.follows.disk
        (g.atPositionOf_scheduled file offset text hquiet (by simp [Request.leads]))

theorem generate_scheduled (g : Generator) (t : Target) (d : Desk) :
    Scheduled g.surroundings (Request.many t).leads ⟨d, [], 0⟩ (g.generate t d) := by
  have hphase := collect_phase g t d
  have hgoes := collect_goes g t d
  rcases generate_cases g t d with
    ⟨e, d', hcollect, hgenerate⟩ | ⟨c, d', hcollect, hclear, hgenerate⟩ |
      ⟨c, d₁, hcollect, hgenerate⟩ <;>
    rw [hcollect] at hphase hgoes <;> rw [hgenerate]
  · cases hgoes with
    | error h hrefused => exact .error h hrefused
  · cases hgoes with
    | @ok c st' steps ending h hcancelled hkept =>
      have hrunning : ending = .running := by simpa [hclear] using hcancelled
      exact .error (hrunning ▸ h) nofun
  · obtain _ | @⟨_, _, _, -, hgrows, -⟩ := id hphase
    obtain _ | @⟨_, st', steps, ending, h, hcancelled, hkept⟩ := hgoes
    obtain ⟨hmark, hevents, hsignal⟩ := finish_spec g c st'.desk
    by_cases hrunning : ending = .running
    · subst hrunning
      have hcourse : Course g.surroundings (Request.many t).leads st' ([] ++ [])
          ⟨(g.finish c st'.desk).2, st'.since ++ [], st'.kept⟩ .running :=
        .passed (by simp) (by simp)
          (.of_idle hevents hsignal) .done
      exact .ok (h.trans hcourse) (hmark.trans hcancelled) nofun
    · have hset : c.result.cancelled = true := by simp [hcancelled, hrunning]
      rw [finish_of_idle g _ (.inl hset)]
      exact .ok h hcancelled fun _ => ⟨hkept, hgrows.applied, hphase.disk_eq⟩

/-! ## What is built -/

/-- The sink of a request is quiet. -/
def Request.IsQuiet : Request → Prop
  | .position _ _ sink _ => sink.IsQuiet
  | .many _ => True

/-- Some steps lead up to a build. -/
def Request.LedTo (q : Request) (s : Surroundings) (d : Desk) (past : List Event) : Prop :=
  ∃ since ∈ q.leads, d.Since s past since

/-- Which headers are built in some steps that lead to an outcome, and what comes of them. -/
structure Builds (s : Surroundings) (q : Request) (d : Desk) (steps : List Event)
    (o : Except GenerationFault GenerationResult × Desk) : Prop where
  /-- Between the last look, which found the signal not set, and a build there are few steps. -/
  led : ∀ before after, steps = before ++ .build :: after → q.LedTo s d before
  /-- The same holds of a build that is refused. -/
  refused : ∀ b, o.1 = .error (.unbuilt b) → q.LedTo s d steps
  /-- A header is dropped when the signal is set by the end of its build. -/
  dropped : ∀ before after, steps = before ++ .build :: after →
    d.signalAfter s (before ++ [.build]) = true →
      after = [.look] ∧ ∃ r, o.1 = .ok r ∧ Stopped d r o.2 ∧ r.generated = before.count .build
  /-- Once the signal is set, at most one more header is built. -/
  single : ∀ before after, steps = before ++ after → d.signalAfter s before = true →
    after.count .build ≤ 1

/-- When a header that is dropped comes last, no other is built from then on. -/
theorem count_build_le_one
    (hdropped : ∀ before after, steps = before ++ .build :: after →
      d.signalAfter s (before ++ [.build]) = true → after = [.look])
    {before after : List Event} (hsteps : steps = before ++ after)
    (hset : d.signalAfter s before = true) : after.count .build ≤ 1 := by
  induction after generalizing before with
  | nil => exact Nat.zero_le 1
  | cons e rest ih =>
    have hset' := signalAfter_append_of_set hset [e]
    by_cases hbuild : e = .build
    · subst hbuild
      rw [hdropped before rest hsteps hset']
      decide
    · rw [List.count_cons_of_ne hbuild]
      exact ih (by rw [hsteps, List.append_assoc, List.singleton_append]) hset'

theorem Scheduled.builds {q : Request} (h : Scheduled s q.leads ⟨d, [], 0⟩ o') :
    ∃ steps, d.Completes s steps o'.2 ∧ Builds s q d steps o' := by
  have hstart : d.Completes s [] d := .of_idle rfl rfl
  have hsince : d.Since s [] [] := .inl ⟨rfl, List.not_mem_nil⟩
  cases h with
  | @error e st' steps h hrefused =>
    have hdropped (before after : List Event) (hsteps : steps = before ++ .build :: after)
        (hset : d.signalAfter s (before ++ [.build]) = true) : False := by
      obtain ⟨-, hending, -⟩ := (h.build_spec hstart hsince hsteps).2 hset
      cases hending
    refine ⟨steps, h.completes, ?_, ?_, ?_, ?_⟩
    · exact fun before after hsteps => (h.build_spec hstart hsince hsteps).1
    · exact fun b he => ⟨_, hrefused b (Except.error.inj he), h.since_spec rfl hstart hsince⟩
    · exact fun before after hsteps hset => (hdropped before after hsteps hset).elim
    · exact fun before after =>
        count_build_le_one fun before after hsteps hset => (hdropped before after hsteps hset).elim
  | @ok r st' steps ending h hcancelled hdropped =>
    refine ⟨steps, h.completes, ?_, nofun, ?_, ?_⟩
    · exact fun before after hsteps => (h.build_spec hstart hsince hsteps).1
    · intro before after hsteps hset
      obtain ⟨hafter, rfl, hkept⟩ := (h.build_spec hstart hsince hsteps).2 hset
      obtain ⟨hgenerated, happlied, hdisk⟩ := hdropped rfl
      exact ⟨hafter, r, rfl, ⟨hcancelled, happlied, hdisk⟩, by simpa [hgenerated] using hkept⟩
    · exact fun before after => count_build_le_one fun before after hsteps hset =>
        ((h.build_spec hstart hsince hsteps).2 hset).1

/-- **A header may be built after the signal was set, and is dropped then.** Every request looks
at the signal after each build, and drops the header when it is set, with all else it has
collected. So once the signal is set, at most one more header is built. Before a build the
request need not look, though. A request for a file goes on from the parsing and the first
report of progress to its first header, and from each report of a declaration to the next
header; a request for a directory goes on from the parsing of a file to its first header, and
a request for a position, given the text, does not look at all before it builds. When the
signal is set by one of these steps, or right after the look itself, a header is built after
that. -/
theorem carryOut_builds (g : Generator) (q : Request) (d : Desk) (hquiet : q.IsQuiet) :
    ∃ steps, d.Completes g.surroundings steps (g.carryOut q d).2 ∧
      Builds g.surroundings q d steps (g.carryOut q d) := by
  have hscheduled : Scheduled g.surroundings q.leads ⟨d, [], 0⟩ (g.carryOut q d) := by
    cases q with
    | position file offset sink given => exact g.atPosition_scheduled file offset given hquiet
    | many t => exact g.generate_scheduled t d
  exact hscheduled.builds

/-- Document the enumeration of a file, given its text. -/
def enumerationAt (path text : String) : Request :=
  .position path 0 (.file ⟨[], [], {}⟩ path) (some text)

/-- When the signal is set while the given text is parsed, the header is built and dropped. -/
theorem carryOut_builds_after_parse :
    (enumerationAt "a.ts" "e").IsQuiet ∧
    ∃ r d', (documenting fun e _ => e == .parse).carryOut (enumerationAt "a.ts" "e") oneFile =
        (.ok r, d') ∧
      d'.events = [.parse, .build, .look] ∧ Stopped oneFile r d' ∧ r.generated = 0 := by
  have hquiet : (enumerationAt "a.ts" "e").IsQuiet := Sink.file_isQuiet _ _
  have hevents : ((documenting fun e _ => e == .parse).carryOut (enumerationAt "a.ts" "e")
      oneFile).2.events = [.parse, .build, .look] := by decide +kernel
  obtain ⟨steps, hcompletes, hbuilds⟩ := carryOut_builds (documenting fun e _ => e == .parse)
    (enumerationAt "a.ts" "e") oneFile hquiet
  rcases hrun : (documenting fun e _ => e == .parse).carryOut (enumerationAt "a.ts" "e") oneFile
    with ⟨o, d'⟩
  rw [hrun] at hevents hcompletes hbuilds
  have hsteps : steps = [.parse] ++ .build :: [.look] := hcompletes.events.symm.trans hevents
  obtain ⟨-, r, rfl, hstopped, hgenerated⟩ := hbuilds.dropped [.parse] [.look] hsteps rfl
  exact ⟨hquiet, r, d', rfl, hevents, hstopped, hgenerated⟩

/-- A header is built although the signal was set before the request, when the text is given,
and although it was set by the parsing of the file. -/
theorem builds_after_signal :
    ((documenting fun _ _ => false).carryOut (enumerationAt "a.ts" "e")
      { oneFile with cancelled := true }).2.events = [.parse, .build, .look] ∧
    ((documenting fun e _ => e == .parse).carryOut (.many (.file "a.ts")) oneFile).2.events =
      [.read, .look, .parse] ++ [.begin, .build, .look] ∧
    oneFile.signalAfter (documenting fun e _ => e == .parse).surroundings [.read, .look, .parse] =
      true := by
  decide +kernel

end Generator

end DocHeader

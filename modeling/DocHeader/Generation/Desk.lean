import DocHeader.Assistant.Client
import DocHeader.Disk.Writer
import DocHeader.Generation.Fault
import DocHeader.Generation.Progress

/-!
# The desk

Everything that a request for headers works on: the disk, the exchange with the
assistant, the log, the progress report and the cancellation signal. The signal never
interrupts a step; requests look at it between their steps.

## Main definitions

* `Event` — what a request does step by step; the signal may be set after every step.
* `Surroundings` — what a request cannot change: the current directory, the syntax
  helper, and when the signal is set.
* `Desk` — the state.
* `Work` — computations on the desk that may be given up.
-/

namespace DocHeader

/-- A completed step. -/
inductive Event where
  | read
  /-- A file could not be read. -/
  | unread
  | find
  | parse
  /-- A file could not be parsed. -/
  | unparsed
  | build
  | begin
  | advance
  | insert
  /-- The request looked at the cancellation signal. -/
  | look
  deriving DecidableEq, Repr

/-- The name of a step. -/
def Event.label : Event → String
  | .read => "read"
  | .unread => "unread"
  | .find => "find"
  | .parse => "parse"
  | .unparsed => "unparsed"
  | .build => "build"
  | .begin => "begin"
  | .advance => "advance"
  | .insert => "insert"
  | .look => "look"

/-- What a request cannot change. -/
structure Surroundings where
  /-- The current directory. -/
  here : Place := []
  /-- The run of the syntax helper on a file and its text, after those on earlier files. -/
  helper : (earlier : List String) → (file text : String) → HelperRun :=
    fun _ _ _ => .notInstalled
  /-- Whether the cancellation signal is set right after the `n`-th event of a sort. -/
  cancelsAfter : Event → Nat → Bool := fun _ _ => false

/-- The state that requests work on. -/
structure Desk where
  disk : Disk := {}
  exchange : Exchange := {}
  records : List LogRecord := []
  /-- Whether the cancellation signal is set. -/
  cancelled : Bool := false
  /-- The completed steps in order. -/
  events : List Event := []
  meter : Meter := {}
  /-- What the meter has printed. -/
  progress : String := ""
  /-- The headers that were printed and not inserted. -/
  printed : String := ""
  /-- The files given to the syntax helper, in order. -/
  parsed : List String := []

/-- Work at the desk that may be given up. -/
abbrev Work := ExceptT GenerationFault (StateM Desk)

namespace Work

variable {α β : Type}

@[simp] theorem pure_apply (a : α) (d : Desk) : (pure a : Work α) d = (.ok a, d) := rfl

@[simp] theorem throw_apply (e : GenerationFault) (d : Desk) :
    (throw e : Work α) d = (.error e, d) := rfl

/-- Work that is given up is not continued. -/
theorem bind_apply (x : Work α) (f : α → Work β) (d : Desk) :
    (x >>= f) d =
      match x d with
      | (.ok a, d') => f a d'
      | (.error e, d') => (.error e, d') := by
  change (ExceptT.bindCont f (x d).1) (x d).2 = _
  rcases x d with ⟨_ | a, d'⟩ <;> rfl

/-- A step that cannot be given up. -/
@[simp] theorem lift_bind (x : StateM Desk α) (f : α → Work β) (d : Desk) :
    ((liftM x : Work α) >>= f) d = f (x d).1 (x d).2 := rfl

@[simp] theorem get_bind (f : Desk → Work β) (d : Desk) : ((get : Work Desk) >>= f) d = f d d :=
  rfl

end Work

namespace Desk

variable {α β : Type}

@[simp] theorem pure_apply (a : α) (d : Desk) : (pure a : StateM Desk α) d = (a, d) := rfl

theorem bind_apply (x : StateM Desk α) (f : α → StateM Desk β) (d : Desk) :
    (x >>= f) d = f (x d).1 (x d).2 := rfl

@[simp] theorem get_apply (d : Desk) : (get : StateM Desk Desk) d = (d, d) := rfl

@[simp] theorem modify_apply (f : Desk → Desk) (d : Desk) :
    (modify f : StateM Desk PUnit) d = (⟨⟩, f d) := rfl

/-- Work on the disk. -/
def onDisk (work : Logged Disk α) : StateM Desk α := fun d =>
  let (a, j) := work ⟨d.disk, d.records⟩
  (a, { d with disk := j.state, records := j.records })

/-- Work with the assistant. -/
def onExchange (work : Logged Exchange α) : StateM Desk α := fun d =>
  let (a, j) := work ⟨d.exchange, d.records⟩
  (a, { d with exchange := j.state, records := j.records })

/-- Write a log record. -/
def note (level : LogLevel) (message : String) : StateM Desk Unit :=
  modify fun d => { d with records := d.records ++ [⟨level, message⟩] }

@[simp] theorem note_apply (level : LogLevel) (message : String) (d : Desk) :
    note level message d = ((), { d with records := d.records ++ [⟨level, message⟩] }) := rfl

/-- Set the cancellation signal. Only the first time is noted. -/
def cancel : StateM Desk Unit := do
  if (← get).cancelled then pure ()
  else
    note .info "Cancellation requested"
    modify fun d => { d with cancelled := true }

/-- Note that a step is completed; the signal may be set now. -/
def complete (s : Surroundings) (e : Event) : StateM Desk Unit := do
  modify fun d => { d with events := d.events ++ [e] }
  if s.cancelsAfter e ((← get).events.count e) then cancel

/-- Report progress. -/
def report (s : Surroundings) (e : Event) (step : Meter → String × Meter) : StateM Desk Unit := do
  modify fun d =>
    let (line, meter) := step d.meter
    { d with meter, progress := d.progress ++ line }
  complete s e

/-- Begin to report progress. -/
def begin (s : Surroundings) (total : Nat) (title : String) : StateM Desk Unit :=
  report s .begin fun _ => Meter.begin total title

/-- Report one unit of progress. -/
def advance (s : Surroundings) (message : String) : StateM Desk Unit :=
  report s .advance fun m => m.advance message

/-- The text of a file. -/
def readText (s : Surroundings) (file : String) : StateM Desk (Except ReadError String) := do
  match (← get).disk.tree.read s.here file with
  | .ok text =>
    complete s .read
    pure (.ok text)
  | .error e =>
    complete s .unread
    pure (.error e)

/-- The syntax tree of a file. -/
def parse (s : Surroundings) (file text : String) : StateM Desk (Except ParseFailure Focus) := do
  let run := s.helper (← get).parsed file text
  modify fun d => { d with parsed := d.parsed ++ [file] }
  match run.parse file text with
  | .ok root =>
    complete s .parse
    pure (.ok root)
  | .error e =>
    complete s .unparsed
    pure (.error e)

/-- Whether the cancellation signal is set. It may be set right after the look. -/
def look (s : Surroundings) : StateM Desk Bool := do
  let seen := (← get).cancelled
  complete s .look
  pure seen

end Desk

end DocHeader

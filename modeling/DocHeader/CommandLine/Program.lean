import DocHeader.CommandLine.Usage
import DocHeader.Description.Generated
import DocHeader.Generation.Run
import DocHeader.Settings.File

/-!
# The program

A command line is carried out on a machine: the settings are found, the syntax helper is
looked for, the assistant is opened, and the task is given to a generator. Every failure
after the settings is a line on standard error.

A settings file that cannot be read as a file at all, or whose custom tags are not even of
the right form, ends the program without a report.

## Main definitions

* `Machine` — what a run of the program finds and cannot change.
* `SetupError` — why a task was not begun.
* `Machine.run` — a run of the program.
-/

namespace DocHeader

/-- What a run of the program finds and cannot change. -/
structure Machine where
  surroundings : Surroundings
  environment : Variables := []
  hazards : Hazards := {}
  now : CivilTime
  /-- The text on standard input. -/
  input : String := ""
  /-- The path of the syntax helper that comes with the program. -/
  bundledHelper : String := helperName

/-- Why a task was not begun. -/
inductive SetupError where
  | settings (error : SettingsFileError)
  | noHelper (path : String)
  | assistant (error : AssistantError)

/-- The wording of an error. -/
def SetupError.message : SetupError → String
  | .settings error => error.message
  | .noHelper path => helperMissing path
  | .assistant error => error.message

/-- Whether an error of a settings file is reported in a line. -/
def SettingsFileError.isReported : SettingsFileError → Bool
  | .unreadable (.file cause _) => cause == .notFound
  | .badSettings .kindNotText | .badSettings .kindsNotList | .badSettings .badOverride => false
  | _ => true

/-- Why a spot is no position in a text. -/
inductive SpotError where
  | unreadable (error : ReadError)
  | outside (error : LocationError)

/-- The wording of an error. -/
def SpotError.message : SpotError → String
  | .unreadable error => error.message
  | .outside error => error.message

/-- The report on a failure. -/
def failureReport (message : String) : Report where
  exit := 1
  stderr := "Error: " ++ message ++ "\n"

namespace Machine

/-- The directory that relative paths are read from. -/
def here (m : Machine) : Place := m.surroundings.here

/-! ## Setting up -/

/-- The settings for a target: those of the file that the options name, or those of the
nearest settings file, if there is one. -/
def settings (m : Machine) (tree : FileTree) (config : String) (target : Place) :
    Except SettingsFileError Settings :=
  if !config.isEmpty then loadSettings tree m.here (Path.ofText config)
  else
    match findSettings tree m.here ⟨"/", target⟩ with
    | some file => loadSettings tree m.here file
    | none => .ok {}

/-- The path of the syntax helper: that of the options, of the environment, or the
bundled one. -/
def helperPath (m : Machine) (given : String) : String :=
  if !given.isEmpty then (Path.ofText given).text
  else
    match given? (m.environment.get? helperVariable) with
    | some path => (Path.ofText path).text
    | none => m.bundledHelper

/-- The directory that a task may write into: its target, or the directory of it. -/
def baseOf (m : Machine) (tree : FileTree) (target : Place) : Place :=
  if tree.isDirectory m.here (Place.text target) then target else target.dropLast

/-- The assistant that settings ask for. -/
def openAssistant (m : Machine) (s : Settings) (patience : Patience) :
    StateM Desk (Except AssistantError (Option Assistant)) :=
  Desk.onExchange (Logged.onState (Assistant.ofSettings s m.environment patience))

/-- Set up the generator for a task: settings, then helper, then assistant. -/
def prepare (m : Machine) (a : Arguments) : ExceptT SetupError (StateM Desk) Generator := do
  let tree := (← get).disk.tree
  let target := (Path.ofText a.task.target).resolve m.here
  match m.settings tree a.options.config target with
  | .error e => throw (.settings e)
  | .ok s =>
    let helper := m.helperPath a.options.helper
    if !tree.leads m.here helper then throw (.noHelper helper)
    match ← m.openAssistant s ⟨a.options.maxRetries, a.options.timeout⟩ with
    | .error e => throw (.assistant e)
    | .ok assistant =>
      pure
        { surroundings := m.surroundings
          builder := ⟨s, .select s assistant, m.now⟩
          writer :=
            { here := m.here, base := m.baseOf tree target, hazards := m.hazards }
          glob := a.options.glob }

/-! ## Carrying out -/

/-- The offset of a spot, and the text if it is known. A line needs the text, which is
read from the file when it is not given. -/
def locate (m : Machine) (tree : FileTree) (file : String) (text : Option String) (column : Int) :
    Spot → Except SpotError (Int × Option String)
  | .offset offset => .ok (offset, text)
  | .line line => do
    let text ← match text with
      | some text => pure text
      | none =>
        match tree.read m.here file with
        | .ok text => pure text
        | .error e => throw (.unreadable e)
    match Location.toOffset text ⟨line, column⟩ with
    | .ok offset => pure (offset, some text)
    | .error e => throw (.outside e)

/-- Let a generator work, let it go, and report. A header that was printed takes standard
output; the report then steps aside. -/
def conclude (a : Arguments) (g : Generator) (work : Work GenerationResult) :
    StateM Desk Report := do
  let outcome ← work.run
  g.close
  match outcome with
  | .ok r => pure (r.report a.options.format a.printing)
  | .error e => pure (failureReport e.message)

/-- Carry out a task with a generator. -/
def perform (m : Machine) (a : Arguments) (g : Generator) : StateM Desk Report := do
  match a.task with
  | .file file => conclude a g (g.forFile file)
  | .folder path => conclude a g (g.forFolder path)
  | .workspace path => conclude a g (g.forWorkspace path)
  | .position file spot =>
    let text := if a.options.stdin then some m.input else none
    match m.locate (← get).disk.tree file text a.options.column spot with
    | .error e => pure (failureReport e.message)
    | .ok (offset, text) =>
      let sink := if a.printing then .console a.options.snippet else .file g.writer file
      conclude a g (g.atPosition file offset sink text)

/-- A report together with what was written before it. -/
def printedBefore (verbose : Bool) (d : Desk) (r : Report) : Report :=
  { r with
    stdout := d.printed ++ r.stdout
    stderr := (if verbose then d.progress else "") ++ r.stderr }

/-- Carry out a task on a new desk. -/
def runTask (m : Machine) (a : Arguments) : StateM Desk (Except SettingsFileError Report) := do
  match ← (m.prepare a).run with
  | .error (.settings e) =>
    pure (if e.isReported then .ok (failureReport e.message) else .error e)
  | .error e => pure (.ok (failureReport e.message))
  | .ok g =>
    let r ← m.perform a g
    pure (.ok (printedBefore a.options.verbose (← get) r))

/-- A run of the program on a new desk. -/
def run (m : Machine) (texts : List String) : StateM Desk (Except SettingsFileError Report) :=
  match Invocation.ofTexts texts with
  | .help command => pure (.ok { exit := 0, stdout := helpText command })
  | .version => pure (.ok { exit := 0, stdout := versionText })
  | .nothing => pure (.ok { exit := 1, stdout := helpText none })
  | .refused command error => pure (.ok (refusal command error))
  | .run a => m.runTask a

end Machine

end DocHeader

import DocHeader.Assistant.Client
import DocHeader.CommandLine.Word
import DocHeader.Decimal.Reading
import DocHeader.Syntax.Language

/-!
# Arguments

What a command line asks for: one of four commands with its target and its options, the
help text, or the version. Words are understood from left to right, and the first one that
cannot be is reported.

## Main definitions

* `Arguments` — a command with its target and its options.
* `Invocation` — what a command line asks for.
* `Invocation.ofTexts` — the reading of a command line.
-/

namespace DocHeader

/-- Where in a file a declaration is looked for. -/
inductive Spot where
  | offset (offset : Int)
  | line (line : Int)
  deriving DecidableEq, Repr

/-- The option that gives a spot. -/
def Spot.option : Spot → CommandOption
  | .offset _ => .offset
  | .line _ => .line

/-- The options of a command with their values. -/
structure OptionValues where
  spot : Option Spot := none
  column : Int := 1
  stdin : Bool := false
  print : Bool := false
  snippet : Bool := false
  /-- The settings file; empty when there is none. -/
  config : String := ""
  format : ReportFormat := .summary
  /-- The path of the syntax helper; empty for the default. -/
  helper : String := ""
  timeout : Numeral := halfMinute
  maxRetries : Int := 3
  verbose : Bool := false
  glob : String := supportedGlob

/-- What is to be documented. -/
inductive Task where
  | position (file : String) (spot : Spot)
  | file (file : String)
  | folder (path : String)
  | workspace (path : String)
  deriving DecidableEq, Repr

/-- The file or directory a task is about. -/
def Task.target : Task → String
  | .position target _ | .file target | .folder target | .workspace target => target

/-- A task with its options. -/
structure Arguments where
  task : Task
  options : OptionValues := {}

/-- Whether a header is printed and not inserted. -/
def Arguments.printing (a : Arguments) : Bool := a.options.print || a.options.stdin

/-- What a command line asks for. -/
inductive Invocation where
  | help (command : Option Command)
  | version
  /-- Nothing at all. -/
  | nothing
  | refused (command : Option Command) (error : UsageError)
  | run (arguments : Arguments)

namespace OptionValues

/-- The value of an option as a whole number. -/
def integer (o : CommandOption) (value : String) : Except UsageError Int :=
  match readInteger? value with
  | some n => .ok n
  | none => .error (.badValue o value)

/-- The value of an option as a real number. -/
def real (o : CommandOption) (value : String) : Except UsageError Numeral :=
  match readReal? value with
  | some x => .ok (.real x)
  | none => .error (.badValue o value)

/-- The report format of a name. -/
def formatOfName (name : String) : Except UsageError ReportFormat :=
  if name == "summary" then .ok .summary
  else if name == "json" then .ok .json
  else .error (.badValue .format name)

/-- Give the spot. An offset and a line exclude each other; the later of two of one sort
counts. -/
def setSpot (v : OptionValues) (spot : Spot) : Except UsageError OptionValues :=
  match v.spot with
  | some earlier =>
    if earlier.option = spot.option then .ok { v with spot }
    else .error (.conflict spot.option earlier.option)
  | none => .ok { v with spot }

/-- Give an option a value. -/
def set (v : OptionValues) (o : CommandOption) (value : String) :
    Except UsageError OptionValues := do
  match o with
  | .offset => v.setSpot (.offset (← integer o value))
  | .line => v.setSpot (.line (← integer o value))
  | .column => pure { v with column := ← integer o value }
  | .config => pure { v with config := value }
  | .format => pure { v with format := ← formatOfName value }
  | .helper => pure { v with helper := value }
  | .timeout => pure { v with timeout := ← real o value }
  | .maxRetries => pure { v with maxRetries := ← integer o value }
  | .glob => pure { v with glob := value }
  | _ => pure v

/-- Set an option that takes no value. -/
def raise (v : OptionValues) : CommandOption → OptionValues
  | .stdin => { v with stdin := true }
  | .print => { v with print := true }
  | .snippet => { v with snippet := true }
  | .verbose => { v with verbose := true }
  | _ => v

end OptionValues

/-- Whether what follows the letter of the help option leaves it as it is. The letter may
be repeated, and other letters come too late; a value or another dash is refused. -/
def leavesHelp (more : String) : Bool :=
  match more.toList.dropWhile (· == 'h') with
  | '=' :: _ => false
  | '-' :: _ => false
  | _ => true

namespace Command

/-- The task of a command. -/
def task (c : Command) (target : String) (spot : Option Spot) : Except UsageError Task :=
  match c with
  | .position =>
    match spot with
    | some spot => .ok (.position target spot)
    | none => .error .noSpot
  | .file => .ok (.file target)
  | .folder => .ok (.folder target)
  | .workspace => .ok (.workspace target)

/-- What a command line asks for once its words have been understood. Whatever is missing
is reported before what is too much. -/
def finish (c : Command) (target : Option String) (values : OptionValues) (extra : List String) :
    Invocation :=
  match target.or c.defaultTarget? with
  | none => .refused c (.noTarget c.targetName)
  | some target =>
    match c.task target values.spot with
    | .error e => .refused c e
    | .ok task => if extra.isEmpty then .run ⟨task, values⟩ else .refused c (.unrecognized extra)

/-- Understand the words after the name of a command. The first value is the target; a
marker around it means nothing. -/
def read (c : Command) (target : Option String) (values : OptionValues) (extra : List String) :
    List Word → Invocation
  | [] => c.finish target values extra
  | .value text :: rest =>
    if target.isSome then c.read target values (extra ++ [text]) rest
    else
      match rest with
      | .marker :: rest => c.read text values extra rest
      | rest => c.read text values extra rest
  | .marker :: rest =>
    if target.isSome then c.read target values (extra ++ ["--"]) rest
    else
      match rest with
      | .value text :: rest => c.read text values extra rest
      | rest =>
        match c.defaultTarget? with
        | some target => c.read target values extra rest
        | none => c.read none values (extra ++ ["--"]) rest
  | .unknown text :: rest => c.read target values (extra ++ [text]) rest
  | .helpLetter more :: _ =>
    if leavesHelp more then .help c else .refused c (.strayValue .help more)
  | .option o (some value) :: rest =>
    if o.takesValue then
      match values.set o value with
      | .error e => .refused c e
      | .ok values => c.read target values extra rest
    else .refused c (.strayValue o value)
  | .option o none :: rest =>
    if o.takesValue then
      match rest with
      | .value text :: rest =>
        match values.set o text with
        | .error e => .refused c e
        | .ok values => c.read target values extra rest
      | _ => .refused c (.noValue o)
    else if o = .help then .help c
    else c.read target (values.raise o) extra rest

end Command

namespace Invocation

/-- Understand words up to the name of a command, and the texts after it as its
arguments. -/
def read (extra : List String) : List (Word × String) → Invocation
  | [] => if extra.isEmpty then .nothing else .refused none (.unrecognized extra)
  | (.value name, _) :: rest =>
    match Command.ofName? name with
    | none => .refused none (.badCommand name)
    | some c =>
      match Word.ofTexts c.options (rest.map (·.2)) with
      | .error e => .refused c e
      | .ok words => c.read none {} extra words
  | (.marker, text) :: _ => .refused none (.badCommand text)
  | (.unknown text, _) :: rest => read (extra ++ [text]) rest
  | (.helpLetter more, _) :: _ =>
    if leavesHelp more then .help none else .refused none (.strayValue .help more)
  | (.option o (some value), _) :: _ => .refused none (.strayValue o value)
  | (.option o none, _) :: _ => if o = .version then .version else .help none

/-- What a command line asks for. -/
def ofTexts (texts : List String) : Invocation :=
  match Word.ofTexts programOptions texts with
  | .error e => .refused none e
  | .ok words => read [] (words.zip texts)

end Invocation

end DocHeader

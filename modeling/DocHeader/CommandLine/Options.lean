import DocHeader.Generation.Result
import DocHeader.Text.Quoted
import DocHeader.Text.Search

/-!
# Options of the command line

The options of the program and of its commands, and everything that can be wrong with a
command line.

## Main definitions

* `Command` — the commands, one for each scope.
* `CommandOption` — the options.
* `Command.options` — the options of a command.
* `UsageError` — what is wrong with a command line.
-/

namespace DocHeader

/-- The options of the program and of its commands. -/
inductive CommandOption where
  | help
  | version
  | offset
  | line
  | column
  | stdin
  | print
  | snippet
  | config
  | format
  | helper
  | timeout
  | maxRetries
  | verbose
  | glob
  deriving DecidableEq, Repr

namespace CommandOption

/-- The name of an option. -/
def name : CommandOption → String
  | .help => "--help"
  | .version => "--version"
  | .offset => "--offset"
  | .line => "--line"
  | .column => "--column"
  | .stdin => "--stdin"
  | .print => "--print"
  | .snippet => "--snippet"
  | .config => "--config"
  | .format => "--format"
  | .helper => "--helper"
  | .timeout => "--timeout"
  | .maxRetries => "--max-retries"
  | .verbose => "--verbose"
  | .glob => "--glob"

/-- Whether an option is followed by a value. -/
def takesValue : CommandOption → Bool
  | .help | .version | .stdin | .print | .snippet | .verbose => false
  | _ => true

/-- What an option is for. -/
def purpose : CommandOption → String
  | .help => "show this help and exit"
  | .version => "show the version and exit"
  | .offset => "character offset in the file"
  | .line => "line, counted from 1"
  | .column => "column, counted from 1 (default: 1)"
  | .stdin => "read the text of the file from standard input (implies --print)"
  | .print => "print the header and do not insert it"
  | .snippet => "with --print, write editable regions as snippet tab stops"
  | .config => "settings file (default: the nearest .jsdoc-generator.json)"
  | .format => "how the result is reported: summary or json (default: summary)"
  | .helper => "path of the syntax helper (default: the bundled helper)"
  | .timeout => "seconds that a request for a description may take (default: 30.0)"
  | .maxRetries => "attempts for a request that is answered too early (default: 3)"
  | .verbose => "report progress"
  | .glob => "files to include"

end CommandOption

/-- The commands: one for each scope. -/
abbrev Command := Scope

namespace Command

/-- All commands. -/
def all : List Command := [.position, .file, .folder, .workspace]

/-- The command of a name. -/
def ofName? (name : String) : Option Command := all.find? fun c => c.label == name

/-- The options that every command has. -/
def commonOptions : List CommandOption :=
  [.config, .format, .helper, .timeout, .maxRetries, .verbose]

/-- The options of a command. -/
def options : Command → List CommandOption
  | .position =>
    [.help, .offset, .line, .column, .stdin, .print, .snippet] ++ commonOptions
  | .file => .help :: commonOptions
  | .folder | .workspace => [.help, .glob] ++ commonOptions

/-- What the target of a command is called. -/
def targetName : Command → String
  | .position | .file => "file"
  | .folder | .workspace => "path"

/-- The target of a command that is given none. -/
def defaultTarget? : Command → Option String
  | .workspace => some "."
  | _ => none

end Command

/-- The options before the command. -/
def programOptions : List CommandOption := [.help, .version]

/-- What is wrong with a command line. -/
inductive UsageError where
  /-- A shortened option could be several options. -/
  | ambiguous (word : String)
  | noValue (option : CommandOption)
  /-- A value is attached to an option that takes none. -/
  | strayValue (option : CommandOption) (value : String)
  | badValue (option : CommandOption) (value : String)
  /-- An option excludes one that was given before. -/
  | conflict (option earlier : CommandOption)
  | noTarget (name : String)
  /-- Neither an offset nor a line is given. -/
  | noSpot
  | badCommand (name : String)
  | unrecognized (words : List String)
  deriving DecidableEq, Repr

/-- The wording of an error. -/
def UsageError.message : UsageError → String
  | .ambiguous word => "ambiguous option: " ++ word
  | .noValue option => "argument " ++ option.name ++ ": expected one argument"
  | .strayValue option value =>
    "argument " ++ option.name ++ ": ignored explicit argument " ++ quoted value
  | .badValue option value => "argument " ++ option.name ++ ": invalid value: " ++ quoted value
  | .conflict option earlier =>
    "argument " ++ option.name ++ ": not allowed with argument " ++ earlier.name
  | .noTarget name => "the following arguments are required: " ++ name
  | .noSpot => "one of the arguments --offset --line is required"
  | .badCommand name =>
    "argument command: invalid choice: " ++ quoted name ++ " (choose from " ++
      joinWith ", " (Command.all.map fun c => quoted c.label) ++ ")"
  | .unrecognized words => "unrecognized arguments: " ++ joinWith " " words

end DocHeader

import DocHeader.CommandLine.Arguments

/-!
# Usage

The answers that need no work: the help texts, the version, and what is said about a
command line that cannot be understood.

## Main definitions

* `usageLine` — the usage of the program or of a command, in a line.
* `helpText` — the usage with all options.
* `versionText` — the version.
* `refusal` — the report on a command line that cannot be understood.
-/

namespace DocHeader

/-- The name of the program. -/
def programName : String := "jsdocgen"

/-- The version of the program. -/
def programVersion : String := "1.0.0"

/-- The name of the program, or of one of its commands. -/
def nameOf : Option Command → String
  | none => programName
  | some c => programName ++ " " ++ c.label

/-- The options of the program, or of one of its commands. -/
def optionsOf : Option Command → List CommandOption
  | none => programOptions
  | some c => c.options

/-- What follows the options. -/
def operandsOf : Option Command → String
  | none => "\x7b" ++ joinWith "," (Command.all.map Scope.label) ++ "\x7d ..."
  | some c => if c.defaultTarget?.isSome then "[" ++ c.targetName ++ "]" else c.targetName

/-- An option as it is written in a usage line. -/
def optionUsage (o : CommandOption) : String :=
  "[" ++ o.name ++ (if o.takesValue then " VALUE" else "") ++ "]"

/-- The usage of the program, or of one of its commands. -/
def usageLine (command : Option Command) : String :=
  "usage: " ++ joinWith " "
    ([nameOf command] ++ (optionsOf command).map optionUsage ++ [operandsOf command])

/-- The help text of the program, or of one of its commands. -/
def helpText (command : Option Command) : String :=
  GenerationResult.printed
    ([usageLine command, "",
      "Generate JSDoc headers for TypeScript and JavaScript declarations", "", "options:"] ++
      (optionsOf command).map fun o => "  " ++ o.name ++ "  " ++ o.purpose)

/-- What is said about a command line that cannot be understood. -/
def refusal (command : Option Command) (error : UsageError) : Report where
  exit := 2
  stderr := GenerationResult.printed
    [usageLine command, nameOf command ++ ": error: " ++ error.message]

/-- The version as it is printed. -/
def versionText : String := programName ++ " " ++ programVersion ++ "\n"

end DocHeader

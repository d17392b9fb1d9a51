import DocHeader.Json.Printer

/-!
# Results

What a request for headers comes to: how many headers were generated, whether they were
inserted, and which files failed; and how that is reported.

## Main definitions

* `Scope` — what a request covers.
* `GenerationResult` — the outcome of a request.
* `GenerationResult.message` — the outcome in a sentence.
* `GenerationResult.report` — what is printed, and the exit code.
-/

namespace DocHeader

/-- What a request covers. -/
inductive Scope where
  | position
  | file
  | folder
  | workspace
  deriving DecidableEq, Repr

/-- The name of a scope. -/
def Scope.label : Scope → String
  | .position => "position"
  | .file => "file"
  | .folder => "folder"
  | .workspace => "workspace"

/-- A file that could not be processed, and the first line of the reason. -/
structure FileFailure where
  file : String
  error : String
  deriving DecidableEq, Repr

/-- The outcome of a request. -/
structure GenerationResult where
  scope : Scope
  /-- The number of headers generated, inserted or not. -/
  generated : Nat := 0
  cancelled : Bool := false
  /-- Whether the headers were inserted. -/
  applied : Bool := false
  /-- The number of files that were parsed. -/
  filesProcessed : Nat := 0
  failures : List FileFailure := []
  warnings : List String := []
  deriving DecidableEq, Repr

/-- What is printed for a result, and the exit code. -/
structure Report where
  exit : Nat
  stdout : String := ""
  stderr : String := ""
  deriving DecidableEq, Repr

/-- How a result is reported. -/
inductive ReportFormat where
  | summary
  | json
  deriving DecidableEq, Repr

namespace GenerationResult

/-- The outcome in a sentence. -/
def message (r : GenerationResult) : String :=
  let headers :=
    toString r.generated ++ " JSDoc " ++ if r.generated == 1 then "header" else "headers"
  if r.cancelled then
    let edits := if r.scope = .position then "." else "; no edits were applied."
    "Generation cancelled after " ++ headers ++ edits
  else if r.generated == 0 then "No JSDoc generated."
  else if !r.applied then "Generated " ++ headers ++ ", but the edits could not be applied."
  else "Generated " ++ headers ++ "."

/-- The result as JSON. -/
def toJson (r : GenerationResult) : Json :=
  let failure (f : FileFailure) : Json :=
    .object [("filepath", .string f.file), ("error", .string f.error)]
  .object
    [("scope", .string r.scope.label), ("generated", .ofInt r.generated),
      ("cancelled", .bool r.cancelled), ("applied", .bool r.applied),
      ("files_processed", .ofInt r.filesProcessed),
      ("failures", .array (r.failures.map failure)), ("warnings", .ofStrings r.warnings),
      ("message", .string r.message)]

/-- The exit code: one when generated headers could not be inserted. -/
def exitCode (r : GenerationResult) : Nat :=
  if r.generated != 0 && !r.applied && !r.cancelled then 1 else 0

/-- The warnings of a result, one a line. -/
def warningLines (r : GenerationResult) : List String :=
  r.failures.map (fun f => "Warning: Failed to process " ++ f.file ++ ": " ++ f.error) ++
    r.warnings.map ("Warning: " ++ ·)

/-- Lines as they are printed. -/
def printed (lines : List String) : String := String.join (lines.map (· ++ "\n"))

/-- What is printed for a result. Warnings go to standard error; the result itself goes
there too when `aside` says that standard output is taken. -/
def report (r : GenerationResult) (format : ReportFormat) (aside : Bool) : Report :=
  let answer (before after : List String) : Report :=
    if aside then { exit := r.exitCode, stderr := printed (before ++ after) }
    else { exit := r.exitCode, stdout := printed after, stderr := printed before }
  match format with
  | .json => answer [] [r.toJson.indented]
  | .summary =>
    if r.generated == 0 && !r.cancelled then
      { exit := r.exitCode, stderr := printed (r.warningLines ++ ["Warning: " ++ r.message]) }
    else answer r.warningLines [r.message]

end GenerationResult

end DocHeader

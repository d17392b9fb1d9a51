import DocHeader.Json.Printer
import DocHeader.Syntax.Focus
import DocHeader.Syntax.Reader

/-!
# The syntax helper

Source files are parsed by a helper program, which prints a syntax tree as JSON. Here its
output is read: a tree, a complaint about the source, or neither.

## Main definitions

* `HelperRun` — how a run of the helper ended.
* `ParseFailure` — why there is no tree.
* `HelperRun.parse` — the tree of a run.
* `helperMissing` — what to say when the helper itself is missing.
-/

namespace DocHeader

/-- How a run of the helper ended. -/
inductive HelperRun where
  | finished (stdout stderr : String) (code : Int)
  | timedOut
  /-- The program that runs the helper is missing. -/
  | notInstalled
  /-- What was printed is no text, for the reason `problem`. -/
  | undecodable (problem : String)
  deriving DecidableEq, Repr

/-- Why a source file has no tree. -/
inductive ParseFailure where
  | timedOut (file : String)
  | notInstalled
  | undecodable (problem : String)
  /-- The output is no JSON, for the reason `problem`. -/
  | invalidJson (code : Int) (problem stdout stderr : String)
  /-- The helper complains about the source. -/
  | rejected (file : String) (complaint : Json)
  /-- The output is no tree of a whole file. -/
  | unexpected (file : String)
  /-- Some node of the tree is malformed. -/
  | malformed (error : TreeError)

/-- The beginning of an output, for messages. -/
def preview (output : String) : String :=
  if output.length ≤ 200 then output else firstChars 200 output ++ "..."

/-- The wording of a failure. -/
def ParseFailure.message : ParseFailure → String
  | .timedOut file => "TypeScript helper timed out while parsing " ++ file
  | .notInstalled =>
    "Node.js executable 'node' not found. Install Node.js to parse TypeScript files."
  | .undecodable problem => problem
  | .invalidJson code problem stdout stderr =>
    "TypeScript helper returned invalid JSON (returncode=" ++ toString code ++
      ").\nJSONDecodeError: " ++ problem ++ "\nStdout: " ++ preview stdout ++ "\nStderr: " ++
      preview stderr
  | .rejected file complaint => file ++ ": " ++ complaint.plainText
  | .unexpected file => "TypeScript helper returned an unexpected tree for " ++ file
  | .malformed error => error.message

/-- Whether a failure concerns the file alone. A malformed node is a fault of the helper
and ends the whole request. -/
def ParseFailure.isRecoverable : ParseFailure → Bool
  | .malformed _ => false
  | _ => true

/-- The kind of the node of a whole file. -/
def rootKind : String := "SourceFile"

/-- The tree in an output of the helper. -/
def readTree (file text : String) (output : Json) : Except ParseFailure Focus :=
  match output with
  | .object fields =>
    match Json.lookup "error" fields with
    | some complaint => .error (.rejected file complaint)
    | none =>
      match Json.lookup "kind" fields with
      | some (.string kind) =>
        if kind == rootKind then
          match Node.ofJson output text with
          | .ok n => .ok (.root n)
          | .error e => .error (.malformed e)
        else .error (.unexpected file)
      | _ => .error (.unexpected file)
  | _ => .error (.unexpected file)

/-- The tree that a run of the helper on the text of a file gives. What it prints counts;
if it prints nothing, its messages do. -/
def HelperRun.parse (file text : String) : HelperRun → Except ParseFailure Focus
  | .timedOut => .error (.timedOut file)
  | .notInstalled => .error .notInstalled
  | .undecodable problem => .error (.undecodable problem)
  | .finished stdout stderr code =>
    let output := if stdout.isEmpty then stderr else stdout
    match Json.parse output with
    | .error problem => .error (.invalidJson code (problem.message output) stdout stderr)
    | .ok j => readTree file text j

/-- The variable that names the helper. -/
def helperVariable : String := "JSDOCGEN_TS_HELPER_PATH"

/-- The file name of the helper. -/
def helperName : String := "ts-syntax-tree.js"

/-- What to say when the helper is missing. -/
def helperMissing (path : String) : String :=
  joinWith "\n"
    ["TypeScript syntax tree helper not found at " ++ path ++ ".",
      "Options to resolve:",
      "1. Install the compiler next to the helper: 'cd helpers && npm install typescript'",
      "2. Set environment variable: export " ++ helperVariable ++ "=/path/to/" ++ helperName,
      "3. Pass helper_path parameter explicitly: TypeScriptParser(helper_path=Path('/path/to/" ++
        helperName ++ "'))"]

end DocHeader

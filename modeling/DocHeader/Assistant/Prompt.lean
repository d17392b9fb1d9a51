import DocHeader.Json.Basic
import DocHeader.Text.Blank

/-!
# Prompts

What the assistant is asked. Every question consists of a message, which holds the source
of a declaration, and of a tool whose call is the answer; the definition of the tool says
what the answer has to contain.

## Main definitions

* `Tool` — a tool the assistant has to call.
* `Prompter` — a natural language to ask for, never blank.
* `Prompter.message` — the message about a declaration.
* `Prompter.declarationTool`, `Prompter.parametersTool`, `Prompter.returnTool` — the three
  questions.
-/

namespace DocHeader

/-- A tool that the assistant has to call: its name and its whole definition. -/
structure Tool where
  name : String
  definition : Json

/-- The name of the tool that every question offers. -/
def toolName : String := "generate_jsdoc"

/-- What the assistant is told before every question. -/
def systemPrompt : String := "You are a TypeScript description generator"

/-- The schema of a text. -/
def textSchema (description : String) : Json :=
  .object [("type", .string "string"), ("description", .string description)]

/-- The tool with one required field in its answer. -/
def Tool.ofField (description field : String) (schema : Json) : Tool where
  name := toolName
  definition := .object
    [("name", .string toolName), ("description", .string description),
      ("input_schema", .object
        [("type", .string "object"), ("properties", .object [(field, schema)]),
          ("required", .array [.string field])])]

/-- The description of a tool. -/
def Tool.description (t : Tool) : Json := t.definition.field "description"

/-- Who asks the questions: the natural language the answers should have, without outer
blanks. -/
structure Prompter where
  language : String

/-- Why there is nobody to ask. -/
inductive PrompterError where
  /-- The language is blank. -/
  | blankLanguage
  deriving DecidableEq, Repr

/-- The wording of an error. -/
def PrompterError.message : PrompterError → String
  | .blankLanguage => "Description language must not be empty"

namespace Prompter

/-- The prompter for a language. -/
def ofLanguage (language : String) : Except PrompterError Prompter :=
  if hasContent language then .ok ⟨trimmed language⟩ else .error .blankLanguage

/-- The message about a declaration with a source text. -/
def message (p : Prompter) (source kind : String) : String :=
  "Generate the JSDoc for this " ++ kind ++ " in " ++ p.language ++ ":\n" ++ trimmed source

/-- The kinds of declarations without members to leave out. -/
def memberlessKinds : List String := ["function", "enum"]

/-- The question for the description of a declaration. -/
def declarationTool (p : Prompter) (kind : String) : Tool :=
  let members := if memberlessKinds.contains kind then "" else "attributes, methods, or "
  .ofField
    ("Given the " ++ kind ++ " textual (no tags) description in " ++ p.language ++
      ", generates its JSDoc")
    "description"
    (textSchema ("The " ++ kind ++ " description in " ++ p.language ++ ", without tags and no " ++
      members ++ "parameters or type parameters description. Each sentence on a new line."))

/-- What the names of a question are names of. -/
def namesLabel (generics : Bool) : String := if generics then "type parameter" else "parameter"

/-- The question for the descriptions of parameters, or of type parameters. A name that
occurs twice is asked for once. -/
def parametersTool (p : Prompter) (names : List String) (generics : Bool) : Tool :=
  let label := namesLabel generics
  let entry (name : String) : String × Json :=
    (name,
      textSchema ("Textual description in " ++ p.language ++ " for the " ++ name ++ " " ++ label))
  .ofField
    ("Given the " ++ label ++ "s textual descriptions in " ++ p.language ++ ", generates its JSDoc")
    "descriptions"
    (.object
      [("type", .string "object"),
        ("description", .string
          ("A record of <" ++ label ++ " name, description in " ++ p.language ++ "> pairs")),
        ("properties", .object (Association.ofWrites (names.map entry)))])

/-- The question for the description of a return value. -/
def returnTool (p : Prompter) : Tool :=
  .ofField
    ("Given the function return value textual description in " ++ p.language ++
      ", generates its JSDoc")
    "description"
    (textSchema ("The return value description in " ++ p.language))

end Prompter

end DocHeader

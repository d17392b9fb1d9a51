import DocHeader.Assistant.Answer
import DocHeader.Assistant.Client

/-!
# The assistant

A client together with a prompter: the assistant describes declarations, parameters and
return values. An answer that is malformed gives no description; a failing call is
reported to whoever asked.

## Main definitions

* `Assistant` — a client and a prompter.
* `Assistant.ofSettings` — the assistant that settings ask for, if they name a key.
* `Assistant.describe`, `Assistant.describeNames`, `Assistant.describeReturn` — the three
  questions.
-/

namespace DocHeader

/-- Somebody to describe declarations. -/
structure Assistant where
  client : Client
  prompter : Prompter

/-- Why there is no assistant. -/
inductive AssistantError where
  | client (error : ClientError)
  | prompter (error : PrompterError)
  deriving DecidableEq, Repr

/-- The wording of an error. -/
def AssistantError.message : AssistantError → String
  | .client error => error.message
  | .prompter error => error.message

/-- How patient an assistant is. -/
structure Patience where
  maxRetries : Int := 3
  timeout : Numeral := halfMinute

namespace Assistant

/-- The assistant that settings ask for: none when there is no key. Its client is opened
before its language is looked at. -/
def ofSettings (s : Settings) (env : Variables) (patience : Patience := {}) :
    StateM Exchange (Except AssistantError (Option Assistant)) :=
  match s.apiKey? env with
  | none => pure (.ok none)
  | some apiKey => do
    let wanted : Client :=
      { apiKey, model := s.text .model, maxRetries := patience.maxRetries,
        timeout := patience.timeout }
    match ← wanted.opened env with
    | .error e => pure (.error (.client e))
    | .ok client =>
      match Prompter.ofLanguage (s.text .language) with
      | .error e => pure (.error (.prompter e))
      | .ok prompter => pure (.ok (some { client, prompter }))

/-- The answer to a question. -/
def ask (a : Assistant) (source kind : String) (tool : Tool) :
    StateM Exchange (Except CallError Json) :=
  a.client.call systemPrompt (a.prompter.message source kind) tool

/-- The description of a declaration. -/
def describe (a : Assistant) (source kind : String) :
    StateM Exchange (Except CallError (Option String)) := do
  let answer ← a.ask source kind (a.prompter.declarationTool kind)
  pure (answer.map Answer.description?)

/-- The descriptions of parameters, or of type parameters, in the order of their names.
Without names nothing is asked. -/
def describeNames (a : Assistant) (source kind : String) (generics : Bool) (names : List String) :
    StateM Exchange (Except CallError (Option (List String))) :=
  if names.isEmpty then pure (.ok (some []))
  else do
    let answer ← a.ask source kind (a.prompter.parametersTool names generics)
    pure (answer.map fun answer => Answer.descriptions? answer names)

/-- The description of the return value of a function. -/
def describeReturn (a : Assistant) (source : String) :
    StateM Exchange (Except CallError (Option String)) := do
  let answer ← a.ask source DeclarationKind.method.label a.prompter.returnTool
  pure (answer.map Answer.description?)

/-- Let the assistant go. -/
def close (a : Assistant) : StateM Exchange Unit := a.client.close

end Assistant

end DocHeader

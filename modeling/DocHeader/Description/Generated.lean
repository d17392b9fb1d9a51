import DocHeader.Assistant.Service
import DocHeader.Description.Source

/-!
# Generated descriptions

A source that asks the assistant. Declarations are always asked for, constructors of
named classes apart; parameters, type parameters and return values only when the settings
say so. A call that fails is noted, and its descriptions are left open.

## Main definitions

* `DescriptionSource.generated` — the source that asks an assistant.
* `DescriptionSource.select` — the source that settings ask for.
-/

namespace DocHeader

/-- The editable region of a text; the empty one when there is none. -/
def regionOf (text : Option String) : Phrase := .region (text.getD "")

/-- What is shown to the assistant: the node that owns the header, in full. -/
def shownSource (f : Focus) : String := f.anchor.info.text

/-- The answer to a question, or a stand-in after a warning. -/
def askAssistant {α : Type} (question : StateM Exchange (Except CallError α)) (topic : String)
    (otherwise : α) : Logged Exchange α := do
  match ← Logged.onState question with
  | .ok answer => pure answer
  | .error e =>
    Logged.warn (topic ++ ": " ++ e.message)
    pure otherwise

/-- The regions of the texts for `count` names; those without a text are empty. -/
def regionsOf (count : Nat) (texts : List String) : List Phrase :=
  (texts.take count ++ List.replicate (count - texts.length) "").map .region

namespace DescriptionSource

/-- The source that asks an assistant. -/
def generated (a : Assistant) (s : Settings) : DescriptionSource Exchange where
  declaration f kind :=
    match constructorText? (s.text .constructorDescription) f kind with
    | some text => pure (introduction f text)
    | none => do
      let text ← askAssistant (a.describe (shownSource f) kind.label)
        ("Description generation failed for " ++ kind.label) none
      pure (.ok (regionOf text))
  parameters f kind generics names :=
    if !s.flag (if generics then .describeTypeParameters else .describeParameters) then
      pure (.ok (names.map fun _ => emptyRegion))
    else do
      let texts ← askAssistant (a.describeNames (shownSource f) kind.label generics names)
        ("Parameter description generation failed for " ++ kind.label) none
      pure (.ok (regionsOf names.length (texts.getD [])))
  returns f :=
    if !s.flag .describeReturns then pure (.ok emptyRegion)
    else do
      let text ← askAssistant (a.describeReturn (shownSource f))
        "Return description generation failed" none
      pure (.ok (regionOf text))
  release := Logged.onState a.close

/-- The source that settings ask for: their fixed text before the assistant, and open
descriptions without either. -/
def select (s : Settings) (assistant : Option Assistant) : DescriptionSource Exchange :=
  if !(s.text .descriptionPlaceholder).isEmpty then
    .fixed (s.text .descriptionPlaceholder) (s.text .constructorDescription)
  else
    match assistant with
    | some a => .generated a s
    | none => .blank (s.text .constructorDescription)

/-- The source that settings ask for, with an assistant of its own when it needs one. -/
def ofSettings (s : Settings) (env : Variables) :
    StateM Exchange (Except AssistantError (DescriptionSource Exchange)) :=
  if !(s.text .descriptionPlaceholder).isEmpty then pure (.ok (select s none))
  else do
    let assistant ← Assistant.ofSettings s env
    pure (assistant.map (select s))

end DescriptionSource

end DocHeader

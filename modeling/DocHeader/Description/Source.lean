import DocHeader.Log
import DocHeader.Settings.Basic
import DocHeader.Syntax.Focus
import DocHeader.Text.Search

/-!
# Sources of descriptions

Where the texts of a header come from. A source answers three questions about a
declaration, and may fail to answer any of them; it runs on a state of its own.

## Main definitions

* `DescriptionSource` — the three questions.
* `constructorText?`, `introduction` — what constructors of named classes are described with.
* `DescriptionSource.fixed` — a source that always gives the same text.
-/

namespace DocHeader

/-- Why a description could not be given. -/
structure DescriptionFailure where
  message : String
  deriving DecidableEq, Repr

/-- A source of descriptions that works on a state. -/
structure DescriptionSource (σ : Type) where
  /-- The description of a declaration; it may have several lines. -/
  declaration : Focus → DeclarationKind → Logged σ (Except DescriptionFailure Phrase)
  /-- The descriptions of parameters, or of type parameters when `generics` is set, for
  the names in order. -/
  parameters : Focus → DeclarationKind → (generics : Bool) → (names : List String) →
    Logged σ (Except DescriptionFailure (List Phrase))
  /-- The description of the value a function returns. -/
  returns : Focus → Logged σ (Except DescriptionFailure Phrase)
  /-- Give up what the source holds. -/
  release : Logged σ Unit

/-- The place for the name of the class in the text for constructors. -/
def classNameToken : String := "\x7bObject\x7d"

/-- The name of the class of a constructor, when it is no text. -/
def ownerMisfit? (f : Focus) : Option Json :=
  (f.parent?.bind fun owner => owner.info.misfit? "name").filter Json.isTruthy

/-- The text a constructor is described with: none without a setting, for other kinds,
and in a class without a name. It is empty where the name is no text. -/
def constructorText? (text : String) (f : Focus) (kind : DeclarationKind) : Option String :=
  if kind != .constructor || text.isEmpty then none
  else
    match f.parent?.bind fun owner => given? owner.info.name with
    | none => none
    | some name =>
      some (if (ownerMisfit? f).isSome then ""
        else .ofList (Text.replaceAll classNameToken.toList name.toList text.toList))

/-- The editable region of the empty text. -/
def emptyRegion : Phrase := .region ""

/-- The description of a constructor with its text. A name that is no text cannot be put into
it. -/
def introduction (f : Focus) (text : String) : Except DescriptionFailure Phrase :=
  match ownerMisfit? f with
  | some name => .error ⟨"replace() argument 2 must be str, not " ++ name.typeName⟩
  | none => .ok (.region text)

/-- A source that describes every declaration with one text, and constructors with
theirs; parameters and return values are left open. -/
def DescriptionSource.fixed {σ : Type} (text constructorText : String) : DescriptionSource σ where
  declaration f kind :=
    match constructorText? constructorText f kind with
    | some own => pure (introduction f own)
    | none => pure (.ok (.region text))
  parameters _ _ _ names := pure (.ok (names.map fun _ => emptyRegion))
  returns _ := pure (.ok emptyRegion)
  release := pure ()

/-- A source that leaves every description open. -/
def DescriptionSource.blank {σ : Type} (constructorText : String) : DescriptionSource σ :=
  .fixed "" constructorText

end DocHeader

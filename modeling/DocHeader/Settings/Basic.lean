import DocHeader.Association
import DocHeader.Declaration.Kind
import DocHeader.Header.Render

/-!
# Settings

Everything a user can choose: flags, texts, start columns and tags of their own.

## Main definitions

* `Flag`, `TextSetting`, `Column` — the settings of each form, with names and defaults.
* `CustomTag` — a tag the user adds, perhaps for some kinds only.
* `Settings` — a value for every setting.
* `Variables` — the environment, from which a missing key of the assistant is taken.
-/

namespace DocHeader

/-- The settings that are on or off. -/
inductive Flag where
  | includeTypes
  | includeExport
  | includeAsync
  | includeReturn
  | singleLineComments
  | emptyLineAfterHeader
  | functionVariablesAsFunctions
  | parenthesizeCompoundTypes
  | describeTypeParameters
  | describeParameters
  | describeReturns
  deriving DecidableEq, Repr

/-- The settings that are texts. -/
inductive TextSetting where
  | descriptionPlaceholder
  | author
  | dateFormat
  | constructorDescription
  | model
  | apiKey
  | language
  deriving DecidableEq, Repr

/-- The settings that are start columns. -/
inductive Column where
  | value
  | name
  | description
  deriving DecidableEq, Repr

namespace Flag

/-- All flags. -/
def all : List Flag :=
  [.includeTypes, .includeExport, .includeAsync, .includeReturn, .singleLineComments,
    .emptyLineAfterHeader, .functionVariablesAsFunctions, .parenthesizeCompoundTypes,
    .describeTypeParameters, .describeParameters, .describeReturns]

/-- The name of a flag in settings. -/
def key : Flag → String
  | .includeTypes => "include_types"
  | .includeExport => "include_export"
  | .includeAsync => "include_async"
  | .includeReturn => "include_return"
  | .singleLineComments => "single_line_comments"
  | .emptyLineAfterHeader => "empty_line_after_header"
  | .functionVariablesAsFunctions => "function_variables_as_functions"
  | .parenthesizeCompoundTypes => "include_parenthesis_for_multiple_types"
  | .describeTypeParameters => "generate_description_for_type_parameters"
  | .describeParameters => "generate_description_for_parameters"
  | .describeReturns => "generate_description_for_returns"

/-- Whether a flag is on when nothing is said. -/
def initial : Flag → Bool
  | .singleLineComments | .describeTypeParameters | .describeParameters | .describeReturns => false
  | _ => true

end Flag

namespace TextSetting

/-- All text settings. -/
def all : List TextSetting :=
  [.descriptionPlaceholder, .author, .dateFormat, .constructorDescription, .model, .apiKey,
    .language]

/-- The name of a text setting. -/
def key : TextSetting → String
  | .descriptionPlaceholder => "description_placeholder"
  | .author => "author"
  | .dateFormat => "date_format"
  | .constructorDescription => "description_for_constructors"
  | .model => "generative_model"
  | .apiKey => "generative_api_key"
  | .language => "generative_language"

/-- The text when nothing is said. -/
def initial : TextSetting → String
  | .descriptionPlaceholder => "Description placeholder"
  | .constructorDescription => "Creates an instance of \x7bObject\x7d."
  | .model => "claude-sonnet-4-20250514"
  | .language => "English"
  | .author | .dateFormat | .apiKey => ""

end TextSetting

namespace Column

/-- All columns. -/
def all : List Column := [.value, .name, .description]

/-- The name of a column in settings. -/
def key : Column → String
  | .value => "tag_value_column_start"
  | .name => "tag_name_column_start"
  | .description => "tag_description_column_start"

end Column

/-- A tag that the user adds to headers. -/
structure CustomTag where
  /-- The tag without its at sign. -/
  tag : String
  /-- The initial text of its editable value. -/
  placeholder : String := ""
  /-- The kinds it is added to; all kinds when not said. -/
  kinds : Option (List DeclarationKind) := none
  deriving DecidableEq, Repr, Inhabited

/-- Whether a tag is added to headers of a kind. -/
def CustomTag.appliesTo (t : CustomTag) (kind : DeclarationKind) : Bool :=
  match t.kinds with
  | none => true
  | some kinds => kinds.contains kind

/-- The values of all settings. -/
structure Settings where
  flag : Flag → Bool := Flag.initial
  text : TextSetting → String := TextSetting.initial
  column : Column → Int := fun _ => 0
  customTags : List CustomTag := []

instance : Inhabited Settings := ⟨{}⟩

/-- The environment of the program. -/
abbrev Variables := List (String × String)

/-- The value of a variable. -/
def Variables.get? (env : Variables) (name : String) : Option String :=
  Association.get? name env

/-- The variable that holds the key of the assistant. -/
def apiKeyVariable : String := "ANTHROPIC_API_KEY"

namespace Settings

/-- The settings with one flag changed. -/
def setFlag (s : Settings) (f : Flag) (value : Bool) : Settings :=
  { s with flag := fun g => if g = f then value else s.flag g }

/-- The settings with one text changed. -/
def setText (s : Settings) (t : TextSetting) (value : String) : Settings :=
  { s with text := fun u => if u = t then value else s.text u }

/-- The settings with one column changed. -/
def setColumn (s : Settings) (c : Column) (value : Int) : Settings :=
  { s with column := fun d => if d = c then value else s.column d }

/-- The start columns. -/
def layout (s : Settings) : Layout := ⟨s.column .value, s.column .name, s.column .description⟩

/-- The key of the assistant: the setting, else the variable; an empty one is none. -/
def apiKey? (s : Settings) (env : Variables) : Option String :=
  let wanted (key : String) : Option String := if key.isEmpty then none else some key
  (wanted (s.text .apiKey)).or ((env.get? apiKeyVariable).bind wanted)

end Settings

end DocHeader

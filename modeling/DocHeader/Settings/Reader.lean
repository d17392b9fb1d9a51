import DocHeader.Json.Printer
import DocHeader.Settings.Basic
import DocHeader.Text.Search

/-!
# Settings from JSON

Settings are written as an object. Names may be in camel case or in snake case and may
carry the name of the editor extension in front; of two spellings of one setting the one
written last counts. The first bad field is reported.

## Main definitions

* `normalizeKey` — the one spelling of a setting's name.
* `SettingsError` — what is wrong with a field, with its `message`.
* `Settings.ofFields` — the settings of an object.
* `Settings.override` — settings with some values replaced.
-/

namespace DocHeader

/-- What settings of the editor extension begin with. -/
def settingsNamespace : String := "jsdoc-generator."

/-- An underscore between a small letter or a digit and a capital letter after it. -/
def splitWords : Option Char → List Char → List Char
  | _, [] => []
  | before, c :: rest =>
    let boundary := match before with
      | some b => (b.isLower || b.isDigit) && c.isUpper
      | none => false
    if boundary then '_' :: c :: splitWords (some c) rest else c :: splitWords (some c) rest

/-- The one spelling of a setting's name: without the extension, in snake case. -/
def normalizeKey (key : String) : String :=
  let key := (afterBeginning? settingsNamespace key).getD key
  .ofList (Text.lowerCase (splitWords none key.toList))

/-- What a name in settings stands for. -/
inductive SettingName where
  | flag (f : Flag)
  | text (t : TextSetting)
  | column (c : Column)
  | customTags
  deriving DecidableEq, Repr

namespace SettingName

/-- All names. -/
def all : List SettingName :=
  Flag.all.map .flag ++ TextSetting.all.map .text ++ Column.all.map .column ++ [.customTags]

/-- The spelling of a name. -/
def key : SettingName → String
  | .flag f => f.key
  | .text t => t.key
  | .column c => c.key
  | .customTags => "custom_tags"

/-- The setting of a normalized name. -/
def ofKey? (key : String) : Option SettingName := all.find? fun n => n.key == key

end SettingName

/-- What is wrong with settings. -/
inductive SettingsError where
  /-- No setting has this name. -/
  | unknownKey (key : String)
  /-- The custom tags are no list. -/
  | tagsNotList
  | notFlag (key : String) (value : Json)
  | notColumn (key : String) (value : Json)
  | notText (key : String) (value : Json)
  /-- A custom tag is no object with a tag name. -/
  | badTag (value : Json)
  /-- A custom tag names a kind that is none. -/
  | unknownKind (name : String)
  /-- A custom tag has a kind that is no text. -/
  | kindNotText
  /-- The kinds of a custom tag are no list. -/
  | kindsNotList
  /-- A replaced value does not have the form of its setting. -/
  | badOverride

/-- The wording of an error. -/
def SettingsError.message : SettingsError → String
  | .unknownKey key => "Unknown configuration key: " ++ key
  | .tagsNotList => "customTags must be a list"
  | .notFlag key value => key ++ " must be true or false, got " ++ value.shown
  | .notColumn key value => key ++ " must be a non-negative integer, got " ++ value.shown
  | .notText key value => key ++ " must be a string, got " ++ value.shown
  | .badTag value => "Custom tag must be an object with a 'tag' name: " ++ value.shown
  | .unknownKind name => "Unknown declaration kind: " ++ name
  | .kindNotText => "kind name is not a string"
  | .kindsNotList => "kinds are not a list"
  | .badOverride => "setting of the wrong type"

/-- The kind of a name in settings. -/
def kindOfName (name : String) : Except SettingsError DeclarationKind :=
  match DeclarationKind.ofName? name with
  | some kind => .ok kind
  | none => .error (.unknownKind name)

/-- The kinds of a list of names. -/
def kindsOfItems : List Json → Except SettingsError (List DeclarationKind)
  | [] => .ok []
  | .string name :: rest =>
    match kindOfName name with
    | .error e => .error e
    | .ok kind => (kindsOfItems rest).map (kind :: ·)
  | _ :: _ => .error .kindNotText

/-- The kinds a custom tag is limited to. A text is read as the list of its characters,
an object as that of its names. -/
def readKinds : Json → Except SettingsError (Option (List DeclarationKind))
  | .null => .ok none
  | .array items => (kindsOfItems items).map some
  | .string s => (kindsOfItems (s.toList.map fun c => .string (.ofList [c]))).map some
  | .object fields => (kindsOfItems (fields.map fun f => .string f.1)).map some
  | _ => .error .kindsNotList

/-- A text without the at signs it begins with. -/
def withoutAtSigns (s : String) : String := .ofList (s.toList.dropWhile (· == '@'))

/-- The custom tag of a value. -/
def CustomTag.ofJson (j : Json) : Except SettingsError CustomTag :=
  let tag := j.field "tag"
  if !tag.isTruthy then .error (.badTag j)
  else
    (readKinds (j.field "kinds")).map fun kinds =>
      { tag := withoutAtSigns tag.plainText
        placeholder := ((j.field? "placeholder").map Json.plainText).getD ""
        kinds }

/-- The custom tags of a list. -/
def customTagsOfItems : List Json → Except SettingsError (List CustomTag)
  | [] => .ok []
  | j :: rest =>
    match CustomTag.ofJson j with
    | .error e => .error e
    | .ok tag => (customTagsOfItems rest).map (tag :: ·)

namespace Settings

/-- The settings after one field, written under `key`. -/
def setField (s : Settings) (key : String) (value : Json) : Except SettingsError Settings :=
  match SettingName.ofKey? (normalizeKey key) with
  | none => .error (.unknownKey key)
  | some .customTags =>
    match value with
    | .array items => (customTagsOfItems items).map fun tags => { s with customTags := tags }
    | _ => .error .tagsNotList
  | some (.flag f) =>
    match value with
    | .bool b => .ok (s.setFlag f b)
    | _ => .error (.notFlag key value)
  | some (.column c) =>
    match value with
    | .number (.int n) => if n < 0 then .error (.notColumn key value) else .ok (s.setColumn c n)
    | _ => .error (.notColumn key value)
  | some (.text t) =>
    match value with
    | .string text => .ok (s.setText t text)
    | _ => .error (.notText key value)

/-- The settings after all fields, in written order. -/
def setFields (s : Settings) : List (String × Json) → Except SettingsError Settings
  | [] => .ok s
  | (key, value) :: rest =>
    match s.setField key value with
    | .error e => .error e
    | .ok s => s.setFields rest

/-- The settings of an object; what it does not name keeps its default. -/
def ofFields (fields : List (String × Json)) : Except SettingsError Settings :=
  ({} : Settings).setFields fields

/-- The settings with one value replaced, under its normalized name and without regard
to its range. -/
def overrideOne (s : Settings) (key : String) (value : Json) : Except SettingsError Settings :=
  match SettingName.ofKey? key, value with
  | some (.flag f), .bool b => .ok (s.setFlag f b)
  | some (.text t), .string text => .ok (s.setText t text)
  | some (.column c), .number (.int n) => .ok (s.setColumn c n)
  | _, _ => .error .badOverride

/-- The settings with some values replaced; a null value replaces nothing. -/
def override (s : Settings) : List (String × Json) → Except SettingsError Settings
  | [] => .ok s
  | (_, .null) :: rest => s.override rest
  | (key, value) :: rest =>
    match s.overrideOne key value with
    | .error e => .error e
    | .ok s => s.override rest

end Settings

end DocHeader

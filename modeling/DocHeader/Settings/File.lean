import DocHeader.Disk.Tree
import DocHeader.Json.Parser
import DocHeader.Settings.Reader

/-!
# Settings files

Settings are kept in a JSON file, which is looked for in a directory and then in the
directories above it.

## Main definitions

* `findSettings` — the nearest settings file.
* `SettingsFileError` — why a file holds no settings.
* `loadSettings` — the settings of a file.
-/

namespace DocHeader

/-- The name of a settings file. -/
def settingsFileName : String := ".jsdoc-generator.json"

/-- The settings file nearest to a file or a directory: in the directory itself, or in
one of those above. -/
def findSettings (t : FileTree) (here : Place) (target : Path) : Option Path :=
  let start := if t.isDirectory here target.text then target else target.parent
  ((start :: start.parents).map (·.child settingsFileName)).find? fun file =>
    t.isFile here file.text

/-- Why a file holds no settings. -/
inductive SettingsFileError where
  | missing (path : String)
  | unreadable (error : ReadError)
  | badJson (path problem : String)
  | notObject (path : String)
  | badSettings (error : SettingsError)

/-- The wording of an error. -/
def SettingsFileError.message : SettingsFileError → String
  | .missing path => "Configuration file not found: " ++ path
  | .unreadable error => error.message
  | .badJson path problem => "Invalid JSON in configuration file " ++ path ++ ": " ++ problem
  | .notObject path => "Configuration file " ++ path ++ " must contain a JSON object"
  | .badSettings error => error.message

/-- The settings in the text of a file. -/
def readSettings (path text : String) : Except SettingsFileError Settings :=
  match Json.parse text with
  | .error problem => .error (.badJson path (problem.message text))
  | .ok (.object fields) =>
    match Settings.ofFields fields with
    | .ok s => .ok s
    | .error e => .error (.badSettings e)
  | .ok _ => .error (.notObject path)

/-- The settings of a file. -/
def loadSettings (t : FileTree) (here : Place) (file : Path) : Except SettingsFileError Settings :=
  if !t.leads here file.text then .error (.missing file.text)
  else
    match t.read here file.text with
    | .error e => .error (.unreadable e)
    | .ok text => readSettings file.text text

end DocHeader

import DocHeader.CommandLine.Program

/-!
# Main

The program on a real machine. The files of the current directory are loaded, the command
line is carried out on them, and what has changed is written back.

The syntax helper is not started here: its output for a file is read from a file beside
it, whose name has `.tree.json` appended. There is no line to the assistant either, so
its questions stay open.

## Main definitions

* `loadBelow` — the files below a directory.
* `writeBack` — the changes of a run.
* `main` — the program.
-/

namespace DocHeader

/-- What is appended to the name of a file whose tree is saved. -/
def savedTreeSuffix : String := ".tree.json"

/-- The saved output of the syntax helper for a file. -/
def savedTree (tree : FileTree) (here : Place) (file : String) : HelperRun :=
  match tree.read here (file ++ savedTreeSuffix) with
  | .ok output => .finished output "" 0
  | .error _ => .notInstalled

/-- The place of an absolute path. -/
def placeOf (path : String) : Place := (Path.ofText path).resolve []

/-- What a file with some bytes holds. -/
def contentOf (bytes : ByteArray) : Content :=
  match String.fromUTF8? bytes with
  | some text => .text text
  | none => .bytes bytes.toList

/-- The bytes of a content. -/
def bytesOf : Content → ByteArray
  | .text text => text.toUTF8
  | .bytes bytes => ⟨bytes.toArray⟩

/-- A tree with the file or the directory at a path, if something is there. -/
def loadOne (tree : FileTree) (path : String) : IO FileTree := do
  let found := (← IO.currentDir) / path
  if ← found.isDir then return tree.plant (placeOf found.toString) .directory
  if ← found.pathExists then
    let bytes ← IO.FS.readBinFile found
    return tree.plant (placeOf found.toString) (.file (contentOf bytes))
  return tree

/-- A tree with everything below a directory, apart from what dependencies bring along and
what links lead to. -/
partial def loadBelow (tree : FileTree) (directory : String) : IO FileTree := do
  let mut loaded ← loadOne tree directory
  for entry in ← ((← IO.currentDir) / directory).readDir do
    match (← entry.path.symlinkMetadata).type with
    | .dir =>
      if !dependencyDirectories.contains entry.fileName then
        loaded ← loadBelow loaded entry.path.toString
    | .file => loaded ← loadOne loaded entry.path.toString
    | _ => pure ()
  return loaded

/-- The paths that a command line mentions. -/
def mentionedPaths : Invocation → List String
  | .run a => [a.task.target, a.options.config, a.options.helper].filter fun s => !s.isEmpty
  | _ => []

/-- The settings files of a directory and of those above it. -/
def settingsPaths (directory : Path) : List String :=
  (directory :: directory.parents).map fun d => (d.child settingsFileName).text

/-- Write the files that differ from those before. -/
def writeBack (before after : FileTree) : IO Unit := do
  for (place, entry) in after.entries do
    match entry with
    | .file content =>
      if before.find? place != some entry then
        IO.FS.writeBinFile (Place.text place) (bytesOf content)
    | .directory => pure ()
  for (place, entry) in before.entries do
    if entry != .directory && !after.contains place then IO.FS.removeFile (Place.text place)

/-- The time of the file system, in Greenwich. -/
def currentTime : IO CivilTime :=
  IO.FS.withTempFile fun _ path => do
    return .ofEpochSeconds (← path.metadata).modified.sec.toNat

/-- The environment that the program looks at. -/
def currentVariables : IO Variables := do
  let mut found : Variables := []
  for name in [helperVariable, apiKeyVariable] do
    if let some value ← IO.getEnv name then found := found ++ [(name, value)]
  return found

end DocHeader

open DocHeader in
/-- Carry out a command line, print its report, and end with its exit code. -/
def main (arguments : List String) : IO UInt32 := do
  let invocation := Invocation.ofTexts arguments
  let here ← IO.currentDir
  let helper := (Path.ofText (← IO.appDir).toString).child helperName
  let environment ← currentVariables
  let mut tree ← loadBelow {} here.toString
  for path in mentionedPaths invocation ++ settingsPaths (Path.ofText here.toString) ++
      helper.text :: (environment.get? helperVariable).toList do
    tree ← loadOne tree path
  let input ← match invocation with
    | .run a => if a.options.stdin then (← IO.getStdin).readToEnd else pure ""
    | _ => pure ""
  let place := placeOf here.toString
  let surroundings : Surroundings :=
    { here := place, helper := fun _ file _ => savedTree tree place file }
  let machine : Machine :=
    { surroundings, environment, now := ← currentTime, input, bundledHelper := helper.text }
  let (outcome, desk) := machine.run arguments { disk := { tree } }
  writeBack tree desk.disk.tree
  for record in desk.records do
    if record.level == .warning then
      IO.eprintln (record.level.label ++ " " ++ record.message)
  match outcome with
  | .error e =>
    IO.eprintln e.message
    return 1
  | .ok r =>
    IO.print r.stdout
    IO.eprint r.stderr
    return r.exit.toUInt32

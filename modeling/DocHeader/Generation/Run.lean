import DocHeader.Generation.Result
import DocHeader.Generation.Sink
import DocHeader.Syntax.Language

/-!
# Requests

Headers for the declaration at a position, for a file, and for all files of a folder or a
workspace. A request looks at the cancellation signal after every step; once it is set no
further declaration is started.

Requests for more than one declaration collect their insertions and apply them together at
the end, and never after a cancellation. A file that cannot be read or parsed is recorded
and left out.

The place of a header may be null. That does no harm until it is compared with another, or a
text is cut there.

## Main definitions

* `Generator` — settings, surroundings and tools of requests.
* `Generator.atPosition` — the request for one position.
* `Target`, `Generator.collect`, `Generator.conclude` — the other requests in two phases: the
  headers are collected, and then applied together.
* `Generator.forFile`, `Generator.forFolder`, `Generator.forWorkspace` — those requests.
-/

namespace DocHeader

/-- What requests are carried out with. -/
structure Generator where
  surroundings : Surroundings
  builder : Builder Exchange
  /-- Who applies collected insertions. -/
  writer : Writer
  /-- The files that belong to a folder or a workspace. -/
  glob : String := supportedGlob
  /-- The directories that are not entered. -/
  excluded : List String := dependencyDirectories

/-- The first line of a reason. -/
def firstLine (reason : String) : String :=
  let line := String.ofList (reason.toList.takeWhile (· != '\n'))
  if line.isEmpty then "Unknown parse error" else line

namespace Generator

/-! ## Steps -/

/-- Look at the cancellation signal, and mark the result when it is set. -/
def look (g : Generator) (r : GenerationResult) : StateM Desk GenerationResult := do
  let seen ← Desk.look g.surroundings
  if seen && !r.cancelled then
    Desk.note .info ("Generation cancelled after " ++ toString r.generated ++ " header(s)")
    pure { r with cancelled := true }
  else pure r

/-- Record a file that failed. -/
def recordFailure (r : GenerationResult) (file reason : String) : StateM Desk GenerationResult := do
  Desk.note .warning ("Failed to process " ++ file ++ ": " ++ firstLine reason)
  pure { r with failures := r.failures ++ [⟨file, firstLine reason⟩] }

/-- The text of a draft in front of a declaration; one whose place is null is indented like the
last line. -/
def written (g : Generator) (draft : Draft) (f : Focus) (text : String) (snippet : Bool) :
    String :=
  if f.isUnplaced then draft.render (g.builder.style (indentationAt text text.length) snippet)
  else g.builder.renderAt draft f text snippet

/-- The text of the header of a declaration. -/
def header (g : Generator) (f : Focus) (text : String) (snippet : Bool) :
    StateM Desk (Except BuildError String) := do
  match ← Desk.onExchange (g.builder.attempt f snippet) with
  | .error e => pure (.error e)
  | .ok draft =>
    Desk.complete g.surroundings .build
    pure (.ok (g.written draft f text snippet))

/-- A request for a file needs a source file. -/
def checkLanguage (file : String) : Work Unit :=
  match SourceLanguage.ofFile? file with
  | some _ => pure ()
  | none => throw (.unsupportedScope file none)

/-! ## One position -/

/-- The declaration at a position. Where there is none and nothing but blanks comes
before the position, the file itself is documented. -/
def targetAt (file text : String) (root : Focus) (position : Nat) :
    Except GenerationFault Focus :=
  if root.strandsAt position then .error .unusable
  else
    match root.classifyAt? position with
    | some f => .ok f
    | none =>
      if (text.toList.take position).all Text.isBlank then .ok root
      else .error (.unsupportedPosition file position (some (Location.ofOffset text position)))

/-- Hand the header of a declaration to a sink. -/
def deliver (g : Generator) (file : String) (f : Focus) (sink : Sink) (r : GenerationResult)
    (header : String) : StateM Desk GenerationResult := do
  let inserted ← sink.insert header f.insertionOffset
  Desk.complete g.surroundings .insert
  if inserted then
    Desk.advance g.surroundings file
    g.look { r with generated := 1, applied := true }
  else
    pure { r with warnings := r.warnings ++ ["Could not insert the JSDoc header into " ++ file] }

/-- Hand the header of a declaration to a sink, unless its place is null where it is needed. -/
def handOver (g : Generator) (file : String) (f : Focus) (sink : Sink) (r : GenerationResult)
    (header : String) : Work GenerationResult := do
  if f.isUnplaced && sink.needsOffset (← get).disk then throw .unusable
  else g.deliver file f sink r header

/-- Document the declaration at a position of a text. -/
def atPositionOf (g : Generator) (file : String) (position : Int) (sink : Sink) (text : String) :
    Work GenerationResult := do
  if position < 0 || (text.length : Int) < position then
    throw (.unsupportedPosition file position none)
  match ← Desk.parse g.surroundings file text with
  | .error e => throw (.unparsed e)
  | .ok root =>
    let r : GenerationResult := { scope := .position, filesProcessed := 1 }
    let f ← targetAt file text root position.toNat
    if f.hasHeader then
      Desk.note .info (f.summary ++ " already has a JSDoc header")
      pure r
    else
      match ← g.header f text sink.snippets with
      | .error e => throw (.unbuilt e)
      | .ok header =>
        let r ← g.look r
        if r.cancelled then pure r else g.handOver file f sink r header

/-- Document the declaration at a position. The text is read from the file when it is
not given. -/
def atPosition (g : Generator) (file : String) (position : Int) (sink : Sink)
    (text : Option String) : Work GenerationResult := do
  checkLanguage file
  match text with
  | some text => g.atPositionOf file position sink text
  | none =>
    match ← Desk.readText g.surroundings file with
    | .error e => throw (.unreadable e)
    | .ok text =>
      let r ← g.look { scope := .position }
      if r.cancelled then pure r else g.atPositionOf file position sink text

/-! ## Many declarations -/

/-- What a request has collected so far. -/
structure Collected where
  result : GenerationResult
  batch : EditBatch := []
  /-- The files with an insertion whose place is null. -/
  unplaced : List String := []

/-- What is collected with one more header. -/
def Collected.add (c : Collected) (i : Insertion) : Collected where
  result := { c.result with generated := c.result.generated + 1 }
  batch := c.batch ++ [i]
  unplaced := c.unplaced

/-- The file of a tree, when the place of a declaration that lacks a header is null. -/
def unplacedIn (file : String) (root : Focus) : List String :=
  if root.pending.any Focus.isUnplaced then [file] else []

/-- What is collected when one more file was parsed. -/
def Collected.countFile (c : Collected) (file : String) (root : Focus) : Collected where
  result := { c.result with filesProcessed := c.result.filesProcessed + 1 }
  batch := c.batch
  unplaced := c.unplaced ++ unplacedIn file root

/-- Collect the headers of declarations of one file. -/
def collectDeclarations (g : Generator) (file text : String) (reporting : Bool) :
    List Focus → Collected → Work Collected
  | [], c => pure c
  | f :: rest, c => do
    match ← g.header f text false with
    | .error e => throw (.unbuilt e)
    | .ok header =>
      let r ← g.look c.result
      if r.cancelled then pure { c with result := r }
      else
        if reporting then Desk.advance g.surroundings ((given? f.info.name).getD f.kind)
        g.collectDeclarations file text reporting rest (c.add ⟨file, f.insertionOffset, header⟩)

/-- Collect the headers of a tree. With `reporting` the progress counts declarations. -/
def collectTree (g : Generator) (file text : String) (reporting : Bool) (root : Focus)
    (c : Collected) : Work Collected := do
  let pending := root.pending
  if root.isUnsortable then throw .unusable
  else
    if reporting then
      Desk.begin g.surroundings pending.length
        ("Generating JSDoc for " ++ toString pending.length ++ " declaration(s)")
    g.collectDeclarations file text reporting pending (c.countFile file root)

/-- Collect the headers of a file. A file that cannot be read or parsed is recorded. -/
def collectFile (g : Generator) (file : String) (reporting : Bool) (c : Collected) :
    Work Collected := do
  match ← Desk.readText g.surroundings file with
  | .error e => pure { c with result := ← recordFailure c.result file e.message }
  | .ok text =>
    let r ← g.look c.result
    if r.cancelled then pure { c with result := r }
    else
      match ← Desk.parse g.surroundings file text with
      | .ok root => g.collectTree file text reporting root c
      | .error e =>
        if e.isRecoverable then pure { c with result := ← recordFailure c.result file e.message }
        else throw (.unparsed e)

/-- Collect the headers of files, one after the other. -/
def collectFiles (g : Generator) : List String → Collected → Work Collected
  | [], c => pure c
  | file :: rest, c => do
    let r ← g.look c.result
    if r.cancelled then pure { c with result := r }
    else
      let c ← g.collectFile file false c
      if c.result.cancelled then pure c
      else
        Desk.advance g.surroundings file
        g.collectFiles rest c

/-- Apply what was collected, if anything was. -/
def applyCollected (g : Generator) (c : Collected) : StateM Desk GenerationResult := do
  if c.result.generated == 0 then pure c.result
  else if ← Desk.onDisk (c.batch.apply g.writer) then pure { c.result with applied := true }
  else
    pure { c.result with
      warnings := c.result.warnings ++ ["The edits could not be applied; no file was modified."] }

/-- Apply what was collected, unless the request was cancelled. -/
def finish (g : Generator) (c : Collected) : StateM Desk GenerationResult :=
  if c.result.cancelled then pure c.result else g.applyCollected c

/-- Bring a request to its end, unless the place of a header that was collected is null. -/
def conclude (g : Generator) (c : Collected) : Work GenerationResult := do
  if !c.result.cancelled &&
      EditBatch.meetsUnplaced g.writer c.unplaced (← get).disk c.batch.byFile then
    throw .unusable
  else g.finish c

/-- What a request for more than one declaration covers: a file, or all files of a
directory. -/
inductive Target where
  | file (path : String)
  | folder (root : String)
  | workspace (root : String)
  deriving DecidableEq, Repr

/-- Collect the headers of the files that were found in a directory. -/
def collectFound (g : Generator) (scope : Scope) (root : String) (files : List String) :
    Work Collected := do
  Desk.complete g.surroundings .find
  let r ← g.look { scope }
  if r.cancelled then pure { result := r }
  else
    Desk.begin g.surroundings files.length
      ("Generating JSDoc for " ++ toString files.length ++ " file(s) in " ++ root)
    g.collectFiles files { result := r }

/-- Collect the headers of all files of a directory. -/
def collectDirectory (g : Generator) (scope : Scope) (root : String) : Work Collected := do
  let tree := (← get).disk.tree
  if !tree.isDirectory g.surroundings.here (Path.ofText root).text then
    throw (.unsupportedScope root (some "not a directory"))
  match Glob.selector g.glob with
  | .error e => throw (.badGlob e)
  | .ok selects =>
    g.collectFound scope root (tree.findFiles g.surroundings.here g.excluded selects root)

/-- Collect the headers that a request asks for. -/
def collect (g : Generator) : Target → Work Collected
  | .file path => do
    checkLanguage path
    g.collectFile path true { result := { scope := .file } }
  | .folder root => g.collectDirectory .folder root
  | .workspace root => g.collectDirectory .workspace root

/-- Document the declarations that lack a header: collect their headers and apply them. -/
def generate (g : Generator) (t : Target) : Work GenerationResult := do
  let c ← g.collect t
  g.conclude c

/-- Document the declarations of a file that lack a header. -/
def forFile (g : Generator) (file : String) : Work GenerationResult := g.generate (.file file)

/-- Document the declarations of all files of a folder. -/
def forFolder (g : Generator) (folder : String) : Work GenerationResult :=
  g.generate (.folder folder)

/-- Document the declarations of all files of a workspace. -/
def forWorkspace (g : Generator) (root : String) : Work GenerationResult :=
  g.generate (.workspace root)

/-- Let go of what the source of descriptions holds. -/
def close (g : Generator) : StateM Desk Unit := Desk.onExchange g.builder.source.release

end Generator

end DocHeader

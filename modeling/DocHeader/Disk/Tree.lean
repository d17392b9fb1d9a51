import DocHeader.Association
import DocHeader.Disk.Path
import DocHeader.Text.Quoted
import DocHeader.Text.Utf8

/-!
# File trees

The files and directories of a disk, and how a path text leads to them: component by
component, each of which has to exist, and all but the last of which have to be
directories.

## Main definitions

* `Content` — what a file holds: text, or bytes that may be none.
* `FileTree` — entries by place.
* `FileTree.follow`, `FileTree.locate` — the place a path text leads to.
* `FileTree.read` — the text of a file.
-/

namespace DocHeader

/-- What a file holds. -/
inductive Content where
  | text (text : String)
  | bytes (bytes : List UInt8)
  deriving DecidableEq, Repr

/-- The text of a content; bytes are decoded strictly. -/
def Content.decoded : Content → Except Utf8.Fault String
  | .text s => .ok s
  | .bytes b => Utf8.decode b

/-- A file or a directory. -/
inductive Entry where
  | file (content : Content)
  | directory
  deriving DecidableEq, Repr

/-- Why a path does not lead to a file. -/
inductive FileCause where
  | notFound
  | notDirectory
  | isDirectory
  deriving DecidableEq, Repr

/-- The number and the wording of a cause. -/
def FileCause.message : FileCause → String
  | .notFound => "[Errno 2] No such file or directory"
  | .notDirectory => "[Errno 20] Not a directory"
  | .isDirectory => "[Errno 21] Is a directory"

/-- A file could not be read. -/
inductive ReadError where
  /-- The path text does not lead to a file. -/
  | file (cause : FileCause) (path : String)
  /-- The file is no text. -/
  | undecodable (fault : Utf8.Fault)
  deriving DecidableEq, Repr

/-- The wording of an error. -/
def ReadError.message : ReadError → String
  | .file cause path => cause.message ++ ": " ++ quoted path
  | .undecodable fault => fault.message

/-- Files and directories by place. The root is always there. -/
structure FileTree where
  entries : List (Place × Entry) := []
  deriving Inhabited

namespace FileTree

/-- What is at a place. -/
def find? (t : FileTree) (p : Place) : Option Entry :=
  if p.isEmpty then some .directory else Association.get? p t.entries

/-- The content of the file at a place. -/
def content? (t : FileTree) (p : Place) : Option Content :=
  match t.find? p with
  | some (.file content) => some content
  | _ => none

/-- Whether something is at a place. -/
def contains (t : FileTree) (p : Place) : Bool := (t.find? p).isSome

/-- The tree with an entry put at a place. -/
def put (t : FileTree) (p : Place) (e : Entry) : FileTree := ⟨Association.set p e t.entries⟩

/-- The tree with nothing at a place. -/
def remove (t : FileTree) (p : Place) : FileTree := ⟨Association.erase p t.entries⟩

/-- What is put at a place is found there, and nothing else changes. -/
theorem find?_put {p : Place} (hp : p ≠ []) (t : FileTree) (e : Entry) (q : Place) :
    (t.put p e).find? q = if q = p then some e else t.find? q := by
  cases q with
  | nil => simp [find?, Ne.symm hp]
  | cons part parts => simp [find?, put, Association.get?_set]

/-- What is removed is not found, and nothing else changes. -/
theorem find?_remove {p : Place} (hp : p ≠ []) (t : FileTree) (q : Place) :
    (t.remove p).find? q = if q = p then none else t.find? q := by
  cases q with
  | nil => simp [find?, Ne.symm hp]
  | cons part parts => simp [find?, remove, Association.get?_erase]

theorem content?_eq_some {t : FileTree} {p : Place} {content : Content} :
    t.content? p = some content ↔ t.find? p = some (.file content) := by
  unfold content?
  split
  · rename_i found hfound
    simp [hfound]
  · rename_i hother
    simpa using hother content

theorem contains_eq_false {t : FileTree} {p : Place} :
    t.contains p = false ↔ t.find? p = none := by simp [contains]

/-- The tree with a directory at a place, where nothing is there yet. -/
def ensureDirectory (t : FileTree) (p : Place) : FileTree :=
  if t.contains p then t else t.put p .directory

/-- The tree with an entry put at a place and with the directories above it. -/
def plant (t : FileTree) (p : Place) (e : Entry) : FileTree :=
  (((List.range p.length).map fun n => p.take n).foldl ensureDirectory t).put p e

/-- Follow components from a place. An empty component or `.` stays there, `..` goes
up; each of them asks for a directory. -/
def follow (t : FileTree) (at_ : Place) : List String → Except FileCause Place
  | [] => .ok at_
  | part :: rest =>
    match t.find? at_ with
    | some .directory =>
      if part.isEmpty || part == "." then t.follow at_ rest
      else if part == ".." then t.follow at_.dropLast rest
      else if t.contains (at_ ++ [part]) then t.follow (at_ ++ [part]) rest
      else .error .notFound
    | some (.file _) => .error .notDirectory
    | none => .error .notFound

/-- The place a path text leads to from `here`. The empty text leads nowhere. -/
def locate (t : FileTree) (here : Place) (path : String) : Except FileCause Place :=
  if path.isEmpty then .error .notFound
  else t.follow (if beginsWith path "/" then [] else here) (splitAt '/' path)

/-- What a path text leads to. -/
def lookup? (t : FileTree) (here : Place) (path : String) : Option Entry :=
  match t.locate here path with
  | .ok p => t.find? p
  | .error _ => none

/-- Whether a path text leads to a directory. -/
def isDirectory (t : FileTree) (here : Place) (path : String) : Bool :=
  t.lookup? here path == some .directory

/-- Whether a path text leads to a file. -/
def isFile (t : FileTree) (here : Place) (path : String) : Bool :=
  match t.lookup? here path with
  | some (.file _) => true
  | _ => false

/-- Whether a path text leads anywhere. -/
def leads (t : FileTree) (here : Place) (path : String) : Bool := (t.lookup? here path).isSome

/-- The text of the file at a place, which errors call `path`. -/
def textAt (t : FileTree) (p : Place) (path : String) : Except ReadError String :=
  match t.find? p with
  | some (.file content) =>
    match content.decoded with
    | .ok s => .ok s
    | .error fault => .error (.undecodable fault)
  | some .directory => .error (.file .isDirectory path)
  | none => .error (.file .notFound path)

/-- The text of a file is read from its content. -/
theorem textAt_eq_ok {t : FileTree} {p : Place} {path text : String} :
    t.textAt p path = .ok text ↔
      ∃ content, t.find? p = some (.file content) ∧ content.decoded = .ok text := by
  unfold textAt
  split
  · rename_i content hcontent
    cases hdecoded : content.decoded <;> simp [hcontent, hdecoded]
  · rename_i hdirectory
    simp [hdirectory]
  · rename_i hnone
    simp [hnone]

/-- The text of the file a path text leads to. -/
def read (t : FileTree) (here : Place) (path : String) : Except ReadError String :=
  match t.locate here path with
  | .error cause => .error (.file cause path)
  | .ok p => t.textAt p path

/-- The text of the file at a place. -/
def readAt (t : FileTree) (p : Place) : Except ReadError String := t.textAt p (Place.text p)

/-- What is read at a place depends on what is there. -/
theorem readAt_congr {t t' : FileTree} {p : Place} (h : t'.find? p = t.find? p) :
    t'.readAt p = t.readAt p := by simp only [readAt, textAt, h]

/-- The files below a place, as the components from there on. -/
def filesBelow (t : FileTree) (p : Place) : List (List String) :=
  t.entries.filterMap fun (place, entry) =>
    match entry with
    | .file _ => p.isPrefixOf? place
    | .directory => none

end FileTree

end DocHeader

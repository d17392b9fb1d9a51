import DocHeader.Disk.Tree
import DocHeader.Log

/-!
# Writing files, all or nothing

Files are replaced in three phases. Every new content is staged in a temporary file next
to its target and read back. Then each target is backed up and replaced. At last the
backups are removed. If staging or replacing fails, the targets replaced so far get their
backups back, last one first, and in every case the staged files are removed.

Each step may fail; a `Hazards` value says which one does, and with what message.

## Main definitions

* `Change` — an entry put at a place, or removed from it.
* `Disk` — a file tree with its changes and the number of steps and names used so far.
* `Hazards` — free space, failing steps, altered contents, stamps of fresh names.
* `Resolution` — the place that a path text means.
* `Writer` — the directory that reads and writes must stay within.
* `Writer.read`, `Writer.writeAll` — the two operations.
-/

namespace DocHeader

/-- A change of a file tree. -/
inductive Change where
  | put (place : Place) (entry : Entry)
  | remove (place : Place)
  deriving DecidableEq, Repr

/-- The place where a change happens. -/
def Change.place : Change → Place
  | .put place _ => place
  | .remove place => place

/-- The tree after a change. -/
def FileTree.changed (t : FileTree) : Change → FileTree
  | .put place entry => t.put place entry
  | .remove place => t.remove place

/-- A disk that is worked on. -/
structure Disk where
  tree : FileTree := {}
  /-- The changes made so far, in order. -/
  history : List Change := []
  /-- The number of steps tried so far. -/
  steps : Nat := 0
  /-- The number of stamps used so far. -/
  stamps : Nat := 0
  deriving Inhabited

/-- A step of writing that may fail. -/
inductive WriteStep where
  /-- Create the temporary file `staged`. -/
  | stage (staged : Place)
  /-- Choose a name for the backup of a target. -/
  | nameBackup (target : Place)
  /-- Copy a target to its backup. -/
  | copyBackup (target backup : Place)
  /-- Put a staged file in the place of its target. -/
  | replace (staged target : Place)
  /-- Copy a backup back to its target. -/
  | restore (backup target : Place)
  | removeBackup (backup : Place)
  | removeStaged (staged : Place)
  deriving DecidableEq, Repr

/-- What writing has to reckon with. -/
structure Hazards where
  /-- The free bytes; there is always room when not said. -/
  freeSpace : Option Nat := none
  /-- What arrives in a staged file. -/
  arriving : String → String := id
  /-- The message with which the `n`-th step fails. -/
  fails : Nat → WriteStep → Option String := fun _ _ => none
  /-- The part of a fresh name that tells it from others. -/
  stamp : Nat → String := fun n => toString n

/-- Why files could not be read or written. -/
inductive WriteError where
  /-- Nothing is at the path. -/
  | missing (path : String)
  /-- The path leads out of the base directory. -/
  | outside (path : String) (base : Place)
  | unreadable (error : ReadError)
  | noSpace (target : Place) (needed free : Nat)
  /-- A staged file does not hold what was written. -/
  | corrupted (staged : Place) (written readBack : Nat)
  /-- The name of a temporary file is taken. -/
  | noStagingName
  | backupExists (backup : Place)
  /-- A step failed. -/
  | failed (message : String)
  /-- A backup could not be copied back. -/
  | notRestored (target backup : Place) (message : String)
  deriving DecidableEq, Repr

/-- The wording of an error. -/
def WriteError.message : WriteError → String
  | .missing path => "File not found: " ++ path
  | .outside path base =>
    "Refusing to write '" ++ path ++ "': path is outside allowed directory '" ++ base.text ++ "'"
  | .unreadable error => error.message
  | .noSpace target needed free =>
    "Insufficient disk space for '" ++ target.text ++ "': " ++ toString needed ++
      " bytes needed, " ++ toString free ++ " free"
  | .corrupted staged written readBack =>
    "Write validation failed for '" ++ staged.text ++ "': wrote " ++ toString written ++
      " characters, read back " ++ toString readBack
  | .noStagingName => "[Errno 17] No usable temporary file name found"
  | .backupExists backup => "Backup '" ++ backup.text ++ "' already exists"
  | .failed message => message
  | .notRestored target backup message =>
    "CRITICAL: could not restore '" ++ target.text ++ "' from '" ++ backup.text ++ "': " ++
      message ++ ". The backup is kept for manual recovery."

namespace Disk

/-- A fresh stamp. -/
def nextStamp (h : Hazards) : Logged Disk String :=
  Logged.onState fun d => (h.stamp d.stamps, { d with stamps := d.stamps + 1 })

/-- Change the tree. -/
def change (c : Change) : Logged Disk Unit :=
  Logged.onState (modify fun d =>
    { d with tree := d.tree.changed c, history := d.history ++ [c] })

/-- The tree. -/
def currentTree : Logged Disk FileTree := Logged.onState fun d => (d.tree, d)

/-- Try a step: it fails with a message, without effect, when the hazards say so. -/
def tryStep (h : Hazards) (step : WriteStep) : Logged Disk (Option String) :=
  Logged.onState fun d => (h.fails d.steps step, { d with steps := d.steps + 1 })

section

variable {α : Type} (h : Hazards) (j : Journal Disk)

@[simp] theorem nextStamp_bind (f : String → Logged Disk α) : (nextStamp h >>= f) j =
    f (h.stamp j.state.stamps) { j with state.stamps := j.state.stamps + 1 } := rfl

@[simp] theorem change_bind (c : Change) (f : Unit → Logged Disk α) :
    (change c >>= f) j = f () { j with
      state.tree := j.state.tree.changed c
      state.history := j.state.history ++ [c] } := rfl

@[simp] theorem currentTree_bind (f : FileTree → Logged Disk α) :
    (currentTree >>= f) j = f j.state.tree j := rfl

@[simp] theorem tryStep_bind (step : WriteStep) (f : Option String → Logged Disk α) :
    (tryStep h step >>= f) j =
      f (h.fails j.state.steps step) { j with state.steps := j.state.steps + 1 } := rfl

end

end Disk

/-- How a path text that is read from a directory is resolved to a place. -/
class Resolution where
  placeOf : (here : Place) → (path : String) → Place

/-- A path means the place that its components say, as long as no file is a link. -/
instance Resolution.byParts : Resolution where
  placeOf here path := (Path.ofText path).resolve here

/-- Who reads and writes files: only within a base directory. -/
structure Writer where
  /-- The directory that relative paths are read from. -/
  here : Place
  /-- The directory that all files must lie in. -/
  base : Place
  hazards : Hazards := {}

/-- A target with the place of its new content. -/
structure StagedFile where
  target : Place
  staged : Place
  deriving DecidableEq, Repr

/-- A target with the place of its old content. -/
structure Backup where
  target : Place
  backup : Place
  deriving DecidableEq, Repr

/-- The bytes a content needs: its size and a tenth more. -/
def neededSpace (content : String) : Nat := Utf8.byteCount content * 11 / 10

/-- The place of another name in the same directory. -/
def Place.sibling (p : Place) (name : String) : Place := p.dropLast ++ [name]

/-- The last component of a place. -/
def Place.name (p : Place) : String := p.getLast?.getD ""

namespace Writer

/-- The place that a path means. -/
def placeOf [Resolution] (w : Writer) (path : String) : Place := Resolution.placeOf w.here path

/-- The place of a path, which must exist and lie within the base directory. -/
def validate [Resolution] (w : Writer) (t : FileTree) (path : String) : Except WriteError Place :=
  if !t.contains (w.placeOf path) then .error (.missing path)
  else if !(w.placeOf path).isWithin w.base then .error (.outside path w.base)
  else .ok (w.placeOf path)

/-- The text of a file within the base directory. -/
def read [Resolution] (w : Writer) (path : String) : Logged Disk (Except WriteError String) := do
  let t ← Disk.currentTree
  match w.validate t path with
  | .error e => pure (.error e)
  | .ok place =>
    match t.readAt place with
    | .ok s => pure (.ok s)
    | .error e => pure (.error (.unreadable e))

/-! ## Staging -/

/-- Whether there is room for a content. -/
def checkSpace (w : Writer) (target : Place) (content : String) : Except WriteError Unit :=
  match w.hazards.freeSpace with
  | none => .ok ()
  | some free =>
    if free < neededSpace content then .error (.noSpace target (neededSpace content) free)
    else .ok ()

/-- The place of a temporary file for a target. -/
def stagingPlace (target : Place) (stamp : String) : Place :=
  target.sibling ("." ++ target.name ++ "." ++ stamp ++ ".tmp")

/-- Put a content into a new temporary file and read it back. A file that does not hold
the content is removed again. -/
def stageAt (w : Writer) (staged : Place) (content : String) :
    Logged Disk (Except WriteError Place) := do
  if (← Disk.currentTree).contains staged then pure (.error .noStagingName)
  else
    match ← Disk.tryStep w.hazards (.stage staged) with
    | some message => pure (.error (.failed message))
    | none =>
      let arrived := w.hazards.arriving content
      Disk.change (.put staged (.file (.text arrived)))
      if arrived == content then pure (.ok staged)
      else
        Disk.change (.remove staged)
        pure (.error (.corrupted staged content.length arrived.length))

/-- Put a content into a temporary file with a fresh name beside its target. -/
def stage (w : Writer) (target : Place) (content : String) :
    Logged Disk (Except WriteError Place) := do
  match w.checkSpace target content with
  | .error e => pure (.error e)
  | .ok () => w.stageAt (stagingPlace target (← Disk.nextStamp w.hazards)) content

/-- Stage the contents one after the other, up to the first failure. -/
def stageAll (w : Writer) :
    List (Place × String) → Logged Disk (List StagedFile × Except WriteError Unit)
  | [] => pure ([], .ok ())
  | (target, content) :: rest => do
    match ← w.stage target content with
    | .error e => pure ([], .error e)
    | .ok staged =>
      let (others, outcome) ← w.stageAll rest
      pure (⟨target, staged⟩ :: others, outcome)

/-! ## Replacing -/

/-- The place of a backup of a target. -/
def backupPlace (target : Place) (stamp : String) : Place :=
  target.sibling (target.name ++ "." ++ stamp ++ ".bak")

/-- Copy a target to a new backup. -/
def backUpAt (w : Writer) (target backup : Place) : Logged Disk (Except WriteError Backup) := do
  let t ← Disk.currentTree
  if t.contains backup then pure (.error (.backupExists backup))
  else
    match ← Disk.tryStep w.hazards (.copyBackup target backup) with
    | some message => pure (.error (.failed message))
    | none =>
      match t.content? target with
      | none => pure (.error (.unreadable (.file .isDirectory target.text)))
      | some content =>
        Disk.change (.put backup (.file content))
        pure (.ok ⟨target, backup⟩)

/-- Copy a target to a backup with a fresh name. -/
def backUp (w : Writer) (target : Place) : Logged Disk (Except WriteError Backup) := do
  match ← Disk.tryStep w.hazards (.nameBackup target) with
  | some message => pure (.error (.failed message))
  | none => w.backUpAt target (backupPlace target (← Disk.nextStamp w.hazards))

/-- Move a staged file over its target. -/
def replace (w : Writer) (s : StagedFile) : Logged Disk (Except WriteError Unit) := do
  match ← Disk.tryStep w.hazards (.replace s.staged s.target) with
  | some message => pure (.error (.failed message))
  | none =>
    match (← Disk.currentTree).content? s.staged with
    | none => pure (.error (.unreadable (.file .notFound s.staged.text)))
    | some content =>
      Disk.change (.put s.target (.file content))
      Disk.change (.remove s.staged)
      pure (.ok ())

/-- Back up and replace targets one after the other, up to the first failure. The
backups made are returned, that of a target that was not replaced included. -/
def commitAll (w : Writer) :
    List StagedFile → Logged Disk (List Backup × Except WriteError Unit)
  | [] => pure ([], .ok ())
  | s :: rest => do
    match ← w.backUp s.target with
    | .error e => pure ([], .error e)
    | .ok backup =>
      match ← w.replace s with
      | .error e => pure ([backup], .error e)
      | .ok () =>
        let (others, outcome) ← w.commitAll rest
        pure (backup :: others, outcome)

/-! ## Cleaning up -/

/-- Remove a file if it is there. -/
def removeFile (w : Writer) (step : WriteStep) (p : Place) :
    Logged Disk (Except WriteError Unit) := do
  match ← Disk.tryStep w.hazards step with
  | some message => pure (.error (.failed message))
  | none =>
    Disk.change (.remove p)
    pure (.ok ())

/-- Copy a backup back to its target. -/
def restore (w : Writer) (b : Backup) : Logged Disk (Except WriteError Unit) := do
  match ← Disk.tryStep w.hazards (.restore b.backup b.target) with
  | some message => pure (.error (.notRestored b.target b.backup message))
  | none =>
    match (← Disk.currentTree).find? b.backup with
    | none =>
      let cause : ReadError := .file .notFound b.backup.text
      pure (.error (.notRestored b.target b.backup cause.message))
    | some entry =>
      Disk.change (.put b.target entry)
      pure (.ok ())

/-- Restore targets and remove their backups, up to the first failure. -/
def rollBack (w : Writer) : List Backup → Logged Disk (Except WriteError Unit)
  | [] => pure (.ok ())
  | b :: rest => do
    match ← w.restore b with
    | .error e => pure (.error e)
    | .ok () =>
      match ← w.removeFile (.removeBackup b.backup) b.backup with
      | .error e => pure (.error e)
      | .ok () => w.rollBack rest

/-- Remove the staged files that are still there, up to the first failure. -/
def removeStaged (w : Writer) : List StagedFile → Logged Disk (Except WriteError Unit)
  | [] => pure (.ok ())
  | s :: rest => do
    if (← Disk.currentTree).contains s.staged then
      match ← w.removeFile (.removeStaged s.staged) s.staged with
      | .error e => pure (.error e)
      | .ok () => w.removeStaged rest
    else w.removeStaged rest

/-- Remove backups, up to the first failure. -/
def removeBackups (w : Writer) : List Backup → Logged Disk (Except WriteError Unit)
  | [] => pure (.ok ())
  | b :: rest => do
    match ← w.removeFile (.removeBackup b.backup) b.backup with
    | .error e => pure (.error e)
    | .ok () => w.removeBackups rest

/-! ## Writing -/

/-- The places of paths, with their contents. -/
def validateAll [Resolution] (w : Writer) (t : FileTree) :
    List (String × String) → Except WriteError (List (Place × String))
  | [] => .ok []
  | (path, content) :: rest =>
    match w.validate t path with
    | .error e => .error e
    | .ok place => (w.validateAll t rest).map ((place, content) :: ·)

/-- Undo what was replaced after a failure, and note that; a failure to do so is
reported in its stead. -/
def undo (w : Writer) (backups : List Backup) (cause : WriteError) :
    Logged Disk (Except WriteError Unit) := do
  match ← w.rollBack backups.reverse with
  | .error e => pure (.error e)
  | .ok () =>
    Logged.warn ("Rolled back " ++ toString backups.length ++ " file(s) after a failed write")
    pure (.error cause)

/-- Stage all targets and then replace them, up to the first failure. The staged files and
the backups made are returned. -/
def replaceAll (w : Writer) (targets : List (Place × String)) :
    Logged Disk (List StagedFile × List Backup × Except WriteError Unit) := do
  let (staged, staging) ← w.stageAll targets
  match staging with
  | .error e => pure (staged, [], .error e)
  | .ok () =>
    let (backups, outcome) ← w.commitAll staged
    pure (staged, backups, outcome)

/-- Replace targets, or undo what was replaced; remove what is left of the staged files,
and then the backups. -/
def commit (w : Writer) (targets : List (Place × String)) :
    Logged Disk (Except WriteError Unit) := do
  let (staged, backups, outcome) ← w.replaceAll targets
  let settled ← match outcome with
    | .ok () => pure (.ok ())
    | .error e => w.undo backups e
  match ← w.removeStaged staged with
  | .error e => pure (.error e)
  | .ok () =>
    match settled with
    | .error e => pure (.error e)
    | .ok () => w.removeBackups backups

/-- Replace the contents of files, each path with its new content, all of them or none. -/
def writeAll [Resolution] (w : Writer) (contents : List (String × String)) :
    Logged Disk (Except WriteError Unit) := do
  match w.validateAll (← Disk.currentTree) contents with
  | .error e => pure (.error e)
  | .ok targets => w.commit targets

/-- Replace the content of one file. -/
def write [Resolution] (w : Writer) (path content : String) :
    Logged Disk (Except WriteError Unit) :=
  w.writeAll [(path, content)]

end Writer

end DocHeader

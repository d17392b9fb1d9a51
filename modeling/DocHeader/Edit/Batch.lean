import DocHeader.Disk.Writer
import DocHeader.Edit.Insertion

/-!
# Batches of insertions

Insertions into many files are collected and applied together: all files change, or none
does.

## Main definitions

* `EditBatch` — insertions in the order in which they were collected.
* `EditBatch.byFile` — the insertions of each file.
* `EditBatch.apply` — apply a batch.
* `EditBatch.meetsUnplaced` — whether applying a batch meets a place that is null.
* `insertInto` — insert one text right away.
-/

namespace DocHeader

/-- Collected insertions, in order. -/
abbrev EditBatch := List Insertion

namespace EditBatch

/-- The files of a batch, in the order of their first insertions. -/
def files (b : EditBatch) : List String :=
  (Association.ofWrites (b.map fun i => (i.file, ()))).map (·.1)

/-- The insertions into one file. -/
def ofFile (b : EditBatch) (file : String) : List Insertion := b.filter fun i => i.file == file

/-- The insertions of each file. -/
def byFile (b : EditBatch) : List (String × List Insertion) :=
  b.files.map fun file => (file, b.ofFile file)

/-- The new contents of files with their insertions, or why there are none. -/
def newContents [Resolution] (w : Writer) :
    List (String × List Insertion) → Logged Disk (Except String (List (String × String)))
  | [] => pure (.ok [])
  | (file, insertions) :: rest => do
    match ← w.read file with
    | .error e => pure (.error e.message)
    | .ok content =>
      match applyInsertions content insertions with
      | .error e => pure (.error e.message)
      | .ok content =>
        let others ← newContents w rest
        pure (others.map ((file, content) :: ·))

/-- Whether the computing of new contents comes to a file with an insertion whose place is null,
before it fails for another reason. Such a place is compared with no other. -/
def meetsUnplaced [Resolution] (w : Writer) (unplaced : List String) (disk : Disk) :
    List (String × List Insertion) → Bool
  | [] => false
  | (file, insertions) :: rest =>
    match (w.read file ⟨disk, []⟩).1 with
    | .error _ => false
    | .ok content =>
      unplaced.contains file ||
        match applyInsertions content insertions with
        | .error _ => false
        | .ok _ => meetsUnplaced w unplaced disk rest

@[simp] theorem meetsUnplaced_nil [Resolution] (w : Writer) (disk : Disk)
    (groups : List (String × List Insertion)) : meetsUnplaced w [] disk groups = false := by
  induction groups with
  | nil => rfl
  | cons group rest ih =>
    rw [meetsUnplaced]
    split
    · rfl
    · split <;> simp [ih]

/-- Note that a batch could not be applied. -/
def noteFailure (b : EditBatch) (reason : String) : Logged Disk Bool := do
  Logged.warn ("Could not apply " ++ toString b.length ++ " insertion(s): " ++ reason)
  pure false

/-- Apply a batch, and say whether that succeeded. An empty batch always does. -/
def apply [Resolution] (w : Writer) (b : EditBatch) : Logged Disk Bool := do
  if b.isEmpty then pure true
  else
    match ← newContents w b.byFile with
    | .error reason => b.noteFailure reason
    | .ok contents =>
      match ← w.writeAll contents with
      | .error e => b.noteFailure e.message
      | .ok () =>
        Logged.note .info ("Applied " ++ toString b.length ++ " insertion(s) to " ++
          toString contents.length ++ " file(s)")
        pure true

end EditBatch

/-- Insert a text into a file right away, and say whether that succeeded. -/
def insertInto [Resolution] (w : Writer) (file : String) (offset : Int) (text : String) :
    Logged Disk Bool := do
  let failed (reason : String) : Logged Disk Bool := do
    Logged.warn ("Could not insert header into " ++ file ++ ": " ++ reason)
    pure false
  match ← w.read file with
  | .error e => failed e.message
  | .ok content =>
    let cs := content.toList
    if offset < 0 || (cs.length : Int) < offset then
      failed ("Offset " ++ toString offset ++ " is outside '" ++ file ++ "'")
    else
      match ← w.write file (.ofList (insertAt cs offset.toNat text.toList)) with
      | .error e => failed e.message
      | .ok () => pure true

end DocHeader

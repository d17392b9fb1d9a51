import DocHeader.Edit.Batch
import DocHeader.Generation.Desk

/-!
# Sinks

Where a single header goes: into its file, or onto standard output for an editor that
inserts it.

## Main definitions

* `Sink` — a place for one header.
* `Sink.file`, `Sink.console` — the two places.
-/

namespace DocHeader

/-- A place for one header. -/
structure Sink where
  /-- Whether headers are wanted as snippets. -/
  snippets : Bool := false
  /-- Whether the offset is looked at. -/
  needsOffset : Disk → Bool := fun _ => false
  /-- Insert a header at an offset, and say whether that succeeded. -/
  insert : (text : String) → (offset : Int) → StateM Desk Bool

namespace Sink

/-- A file on the disk. One that cannot be read is given up before the offset is looked at. -/
def file (w : Writer) (path : String) : Sink where
  needsOffset disk := (w.read path ⟨disk, []⟩).1.isOk
  insert text offset := Desk.onDisk (insertInto w path offset text)

/-- Standard output. -/
def console (snippets : Bool) : Sink where
  snippets := snippets
  insert text _ := do
    modify fun d => { d with printed := d.printed ++ text }
    pure true

end Sink

end DocHeader

import DocHeader.Declaration.Kind
import DocHeader.Header.TagLine

/-!
# Header drafts

A draft collects the lines of one header until it is closed. Closing drops the blank
lines at both ends, so a header neither begins nor ends with an empty line; after that
the lines never change.

## Main definitions

* `Draft` — the lines of a header and whether they are final.
* `Draft.append`, `Draft.extend` — more lines; refused once the draft is closed.
* `Draft.close` — the final lines.
-/

namespace DocHeader

/-- The header of one declaration while it is written. -/
structure Draft where
  kind : DeclarationKind
  lines : List TagLine := []
  closed : Bool := false
  deriving DecidableEq, Repr, Inhabited

/-- A line was appended to a closed draft. -/
inductive DraftError where
  | closed
  deriving DecidableEq, Repr

/-- The wording of the refusal. -/
def DraftError.message : DraftError → String
  | .closed => "Cannot append to a closed header draft"

/-- The lines without the blank ones at both ends. -/
def dropOuterBlank (lines : List TagLine) : List TagLine :=
  ((lines.dropWhile TagLine.isBlank).reverse.dropWhile TagLine.isBlank).reverse

theorem dropOuterBlank_sublist (lines : List TagLine) :
    (dropOuterBlank lines).Sublist lines := by
  have hlast := (List.dropWhile_sublist TagLine.isBlank
    (l := (lines.dropWhile TagLine.isBlank).reverse)).reverse
  rw [List.reverse_reverse] at hlast
  exact hlast.trans (List.dropWhile_sublist _)

namespace Draft

/-- One more line. -/
def append (d : Draft) (line : TagLine) : Except DraftError Draft :=
  if d.closed then .error .closed else .ok { d with lines := d.lines ++ [line] }

/-- More lines, one after the other. -/
def extend (d : Draft) : List TagLine → Except DraftError Draft
  | [] => .ok d
  | line :: rest =>
    match d.append line with
    | .error e => .error e
    | .ok d => d.extend rest

/-- The draft with its final lines. -/
def close (d : Draft) : Draft := { d with lines := dropOuterBlank d.lines, closed := true }

/-- The draft with its final lines, left alone when it has them already. -/
def finish (d : Draft) : Draft := if d.closed then d else d.close

theorem finish_lines_sublist (d : Draft) : d.finish.lines.Sublist d.lines := by
  unfold finish
  split
  next => exact .refl _
  next => exact dropOuterBlank_sublist _

/-- The tags in order. -/
def tags (d : Draft) : List String := d.lines.filterMap TagLine.tag?

/-- Whether a tag is there. -/
def hasTag (d : Draft) (tag : String) : Bool := d.tags.contains tag

end Draft

end DocHeader

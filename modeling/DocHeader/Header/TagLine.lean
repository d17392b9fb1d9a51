/-!
# Phrases and tag lines

A header is a list of lines. A line has a tag, a value in delimiters, a name and a
description, each of which may be missing; each text is plain or a region for the user
to edit.

## Main definitions

* `Phrase` — a plain text or an editable region.
* `TagLine` — one line of a header.
* `TagLine.isBlank` — a line that shows nothing.
-/

namespace DocHeader

/-- A piece of a header: plain text, or an editable region with its initial text. -/
inductive Phrase where
  | plain (text : String)
  | region (text : String)
  deriving DecidableEq, Repr, Inhabited

namespace Phrase

/-- The text a phrase shows. -/
def shown : Phrase → String
  | .plain text => text
  | .region text => text

/-- Whether a phrase is an editable region. -/
def isRegion : Phrase → Bool
  | .plain _ => false
  | .region _ => true

/-- A phrase of the same sort with another text. -/
def withText (p : Phrase) (text : String) : Phrase :=
  match p with
  | .plain _ => .plain text
  | .region _ => .region text

end Phrase

/-- The text that a phrase shows, if there is one. -/
def shownText : Option Phrase → String
  | none => ""
  | some p => p.shown

/-- One line of a header. -/
structure TagLine where
  /-- The tag, without its at sign. -/
  tag : Option String := none
  /-- The value, shown between the delimiters. -/
  value : Option Phrase := none
  /-- The delimiters of the value. -/
  delimiters : String × String := ("\x7b", "\x7d")
  /-- The name after the value. -/
  name : Option Phrase := none
  /-- The description after the name. -/
  description : Option Phrase := none
  /-- Whether the columns of the layout apply. -/
  align : Bool := true
  /-- Whether the value is an editable region even when it is plain or missing. -/
  forceRegion : Bool := false
  deriving DecidableEq, Repr, Inhabited

namespace TagLine

/-- The tag, when it is not empty. -/
def tag? (line : TagLine) : Option String :=
  match line.tag with
  | some tag => if tag.isEmpty then none else some tag
  | none => none

/-- Whether a line shows nothing. -/
def isBlank (line : TagLine) : Bool :=
  line.tag?.isNone && (shownText line.value).isEmpty && (shownText line.name).isEmpty &&
    (shownText line.description).isEmpty

/-- The empty line. -/
def blank : TagLine := { align := false }

/-- A line of free text. -/
def ofText (description : Option Phrase) : TagLine := { description, align := false }

/-- A line with a tag alone. -/
def ofTag (tag : String) : TagLine := { tag := some tag }

end TagLine

end DocHeader

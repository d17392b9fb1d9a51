import DocHeader.Text.Search

/-!
# Lines and columns

Offsets of a text as lines and columns, both counted from one. Only a line feed ends a
line here, as in the editors that report positions.

## Main definitions

* `Location` — a line and a column.
* `Location.ofOffset` — the location of an offset.
* `Location.toOffset` — the offset of a location.
-/

namespace DocHeader

/-- A line and a column, counted from one. -/
structure Location where
  line : Int
  column : Int
  deriving DecidableEq, Repr

/-- A location outside a text. -/
inductive LocationError where
  | noLine (line : Int) (lines : Nat)
  | noColumn (column line : Int)
  deriving DecidableEq, Repr

/-- The wording of an error. -/
def LocationError.message : LocationError → String
  | .noLine line lines =>
    "Line " ++ toString line ++ " is outside the file (1-" ++ toString lines ++ ")"
  | .noColumn column line => "Column " ++ toString column ++ " is outside line " ++ toString line

namespace Location

/-- The offset at which a line begins, counted from zero, in lines of some lengths. -/
def lineStart : (lengths : List Nat) → (index : Nat) → Nat
  | length :: lengths, index + 1 => length + 1 + lineStart lengths index
  | _, _ => 0

/-- The offset of a location. A column may lie one past the last character of its line. -/
def toOffset (text : String) (l : Location) : Except LocationError Nat :=
  let lengths := (text.toList.splitOn '\n').map List.length
  if l.line < 1 || (lengths.length : Int) < l.line then .error (.noLine l.line lengths.length)
  else
    let index := (l.line - 1).toNat
    let length := lengths[index]?.getD 0
    if l.column < 1 || (length : Int) + 1 < l.column then .error (.noColumn l.column l.line)
    else .ok (lineStart lengths index + (l.column - 1).toNat)

/-- The location of an offset. -/
def ofOffset (text : String) (offset : Nat) : Location :=
  let before := text.toList.take offset
  ⟨before.count '\n' + 1, (Text.afterLastNewline before).length + 1⟩

end Location

end DocHeader

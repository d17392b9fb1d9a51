/-!
# UTF-16 offsets

A compiler that counts in UTF-16 code units gives offsets in which a character above
`U+FFFF` takes two places. An `OffsetMap` carries such offsets to character indices.

## Main definitions

* `Utf16.length` — the number of code units of a text.
* `Utf16.unitIndices` — for each code unit the index of its character.
* `OffsetMap` — the conversion for one text; the identity when no character is wide.
-/

namespace DocHeader.Utf16

/-- Whether a character takes two code units. -/
def isWide (c : Char) : Bool := 0xffff < c.toNat

/-- The number of code units of a character. -/
def width (c : Char) : Nat := if isWide c then 2 else 1

/-- The number of code units of a text. -/
def length : List Char → Nat
  | [] => 0
  | c :: cs => width c + length cs

/-- For each code unit the index of its character, counted from `i`; at the end
stands the index past the last character. -/
def unitIndices (i : Nat) : List Char → List Nat
  | [] => [i]
  | c :: cs => List.replicate (width c) i ++ unitIndices (i + 1) cs

end DocHeader.Utf16

namespace DocHeader

/-- The conversion of code-unit offsets of one text to character indices. -/
inductive OffsetMap where
  /-- No character of the text is wide: offsets are indices already. -/
  | identity
  /-- The character index of every code unit, and of the end. -/
  | table (indices : Array Nat)

namespace OffsetMap

/-- The conversion for a text. -/
def ofText (cs : List Char) : OffsetMap :=
  if cs.any Utf16.isWide then .table (Utf16.unitIndices 0 cs).toArray else .identity

/-- The character index of an offset. A negative offset counts from the end of the
table; an offset outside the table has no index. -/
def toIndex? : OffsetMap → Int → Option Int
  | .identity, offset => some offset
  | .table indices, offset =>
    let o := if offset < 0 then offset + indices.size else offset
    if o < 0 then none else (indices[o.toNat]?).map fun (i : Nat) => (i : Int)

end OffsetMap

end DocHeader

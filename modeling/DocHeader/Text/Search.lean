/-!
# Cutting and replacing

Pieces of a text by position or by content: the stretch between two offsets, the
pieces between separators, the text with one passage replaced throughout.

Offsets may be negative or past the end; `resolve` says which position they mean.

## Main definitions

* `slice` — the characters between two offsets.
* `replaceAll` — every occurrence of a passage replaced, from left to right.
* `joinWith` — pieces joined by a separator.
* `leadingIndent` — the spaces and tabs a text begins with.
-/

namespace DocHeader.Text

/-- The position an offset means in a text of `length` characters: a negative
offset counts from the end, and every offset is cut to the text. -/
def resolve (length : Nat) (offset : Int) : Nat :=
  let o := if offset < 0 then offset + length else offset
  min o.toNat length

/-- An offset in a text is its own position. -/
theorem resolve_of_le {length n : Nat} (h : n ≤ length) : resolve length n = n := by
  have hnonneg : ¬(n : Int) < 0 := by omega
  simp [resolve, hnonneg, h]

/-- The characters from one offset up to another. -/
def slice (cs : List Char) (start stop : Int) : List Char :=
  let from_ := resolve cs.length start
  let to_ := resolve cs.length stop
  (cs.take to_).drop from_

/-- Replace each occurrence of `passage`, skipping the rest of one already replaced. -/
def replaceFrom (passage new : List Char) : Nat → List Char → List Char
  | _, [] => []
  | 0, c :: cs =>
    if passage.isPrefixOf (c :: cs) then new ++ replaceFrom passage new (passage.length - 1) cs
    else c :: replaceFrom passage new 0 cs
  | skip + 1, _ :: cs => replaceFrom passage new skip cs

/-- Every occurrence of a non-empty `passage` replaced by `new`, from left to right
and without overlap. -/
def replaceAll (passage new cs : List Char) : List Char := replaceFrom passage new 0 cs

/-- The spaces and tabs a text begins with. -/
def leadingIndent (cs : List Char) : List Char := cs.takeWhile fun c => c == ' ' || c == '\t'

/-- The characters after the last line feed. -/
def afterLastNewline (cs : List Char) : List Char :=
  (cs.reverse.takeWhile (· != '\n')).reverse

/-- The passage before the last occurrence of `c`, and the one after it. -/
def splitLast (c : Char) (cs : List Char) : Option (List Char × List Char) :=
  match cs.reverse.dropWhile (· != c) with
  | [] => none
  | _ :: before => some (before.reverse, (cs.reverse.takeWhile (· != c)).reverse)

/-- The passage before the first occurrence of `c`, and the one after it. -/
def splitFirst (c : Char) (cs : List Char) : Option (List Char × List Char) :=
  match cs.dropWhile (· != c) with
  | [] => none
  | _ :: after => some (cs.takeWhile (· != c), after)

end DocHeader.Text

namespace DocHeader

/-- Pieces joined by a separator. -/
def joinWith (separator : String) : List String → String
  | [] => ""
  | [s] => s
  | s :: rest => s ++ separator ++ joinWith separator rest

/-- The pieces of a text between occurrences of one character. -/
def splitAt (c : Char) (s : String) : List String := (s.toList.splitOn c).map String.ofList

/-- Whether a text begins with another. -/
def beginsWith (s start : String) : Bool := start.toList.isPrefixOf s.toList

/-- The text after a beginning, when it has that beginning. -/
def afterBeginning? (start s : String) : Option String :=
  (start.toList.isPrefixOf? s.toList).map String.ofList

/-- The first `n` characters. -/
def firstChars (n : Nat) (s : String) : String := .ofList (s.toList.take n)

end DocHeader

import DocHeader.Text.Search

/-!
# Insertions

Texts to be inserted into files. All offsets refer to the text a file has before any
insertion. The texts go in from the last offset to the first, so none of them moves an
offset that is still to come; texts at one offset keep their order.

## Main definitions

* `Insertion` — a file, an offset and a text.
* `applyInsertions` — a text with insertions applied.
-/

namespace DocHeader

/-- A text to be inserted into a file. -/
structure Insertion where
  file : String
  offset : Int
  text : String
  deriving DecidableEq, Repr

/-- An offset that lies outside the text it should be inserted into. -/
structure InsertionFault where
  file : String
  offset : Int
  length : Nat
  deriving DecidableEq, Repr

/-- The wording of a fault. -/
def InsertionFault.message (f : InsertionFault) : String :=
  "Insertion offset " ++ toString f.offset ++ " is outside '" ++ f.file ++ "' (length " ++
    toString f.length ++ ")"

/-- A text with another one inserted before the character at `offset`. -/
def insertAt (cs : List Char) (offset : Nat) (new : List Char) : List Char :=
  cs.take offset ++ new ++ cs.drop offset

/-- Insert one text. -/
def applyInsertion (cs : List Char) (i : Insertion) : Except InsertionFault (List Char) :=
  if i.offset < 0 || (cs.length : Int) < i.offset then .error ⟨i.file, i.offset, cs.length⟩
  else .ok (insertAt cs i.offset.toNat i.text.toList)

/-- Insert texts one after the other. -/
def applyInOrder (cs : List Char) : List Insertion → Except InsertionFault (List Char)
  | [] => .ok cs
  | i :: rest =>
    match applyInsertion cs i with
    | .error e => .error e
    | .ok cs => applyInOrder cs rest

/-- Insertions from the last offset to the first; of two at one offset the later one
comes first. -/
def descending (insertions : List Insertion) : List Insertion :=
  insertions.reverse.mergeSort fun a b => b.offset ≤ a.offset

/-- A text with insertions applied. -/
def applyInsertions (content : String) (insertions : List Insertion) :
    Except InsertionFault String :=
  (applyInOrder content.toList (descending insertions)).map String.ofList

end DocHeader

/-!
# Blanks, trimming and lines

The blank characters, the characters that end a line, and the three readings of a
text that rest on them: the text without its outer blanks, the text up to its last
non-blank, and the lines of the text.

## Main definitions

* `isBlank` — white space, wherever a text is trimmed or tested for content.
* `isLineBoundary` — the characters that end a line.
* `trim`, `trimStart`, `trimEnd` — removal of outer blanks.
* `lines` — the lines of a text, without their boundaries.
-/

namespace DocHeader.Text

/-- White space: the Unicode property together with the four information
separators `U+001C` to `U+001F`. -/
def isBlank (c : Char) : Bool :=
  let n := c.toNat
  (0x09 ≤ n && n ≤ 0x0d) || (0x1c ≤ n && n ≤ 0x20) || n == 0x85 || n == 0xa0 || n == 0x1680 ||
    (0x2000 ≤ n && n ≤ 0x200a) || n == 0x2028 || n == 0x2029 || n == 0x202f || n == 0x205f ||
    n == 0x3000

/-- The characters that end a line. A carriage return followed by a line feed ends
one line, not two; `lines` sees to that. -/
def isLineBoundary (c : Char) : Bool :=
  let n := c.toNat
  (0x0a ≤ n && n ≤ 0x0d) || (0x1c ≤ n && n ≤ 0x1e) || n == 0x85 || n == 0x2028 || n == 0x2029

/-- The text without its leading blanks. -/
def trimStart (cs : List Char) : List Char := cs.dropWhile isBlank

/-- The text without its trailing blanks. -/
def trimEnd (cs : List Char) : List Char := (cs.reverse.dropWhile isBlank).reverse

/-- The text without its outer blanks. -/
def trim (cs : List Char) : List Char := trimEnd (trimStart cs)

/-- Put a character in front of the first line, beginning one if there is none. -/
def consToFirst (c : Char) : List (List Char) → List (List Char)
  | [] => [[c]]
  | line :: rest => (c :: line) :: rest

/-- The lines of a text. A boundary ends a line and belongs to none; a text that
ends with a boundary has no empty last line. -/
def lines : List Char → List (List Char)
  | [] => []
  | '\r' :: '\n' :: rest => [] :: lines rest
  | c :: rest => if isLineBoundary c then [] :: lines rest else consToFirst c (lines rest)

end DocHeader.Text

namespace DocHeader

/-- The text without its outer blanks. -/
def trimmed (s : String) : String := .ofList (Text.trim s.toList)

/-- Whether a text holds anything but blanks. -/
def hasContent (s : String) : Bool := s.toList.any fun c => !Text.isBlank c

/-- The lines of a text, without their boundaries. -/
def textLines (s : String) : List String := (Text.lines s.toList).map String.ofList

end DocHeader

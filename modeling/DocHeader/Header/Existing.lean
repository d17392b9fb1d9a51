import DocHeader.Text.Blank
import DocHeader.Text.Search

/-!
# Existing headers and lines

What can be read off a source text: the description of a header that is there already,
and the white space in front of a line.

## Main definitions

* `descriptionOf` — the free text of an existing header.
* `indentationAt` — the white space that the line of an offset begins with.
-/

namespace DocHeader

/-- A comment without its delimiters. -/
def commentBody (comment : List Char) : List Char :=
  let body := Text.trim comment
  let body := (['/', '*', '*'].isPrefixOf? body).getD body
  ((['/', '*'].isPrefixOf? body.reverse).map List.reverse).getD body

/-- A line of a comment without its outer blanks, its star and one blank after that. -/
def commentLine (raw : List Char) : List Char :=
  match Text.trim raw with
  | '*' :: ' ' :: rest => rest
  | '*' :: rest => rest
  | line => line

/-- Whether a line of a comment begins with a tag. -/
def startsTag (line : List Char) : Bool := (Text.trimStart line).head? == some '@'

/-- Whether a line holds nothing but blanks. -/
def isBlankLine (line : List Char) : Bool := line.all Text.isBlank

/-- The lines without the blank ones at both ends. -/
def dropOuterBlankLines (lines : List (List Char)) : List (List Char) :=
  ((lines.dropWhile isBlankLine).reverse.dropWhile isBlankLine).reverse

/-- The description of an existing header: its lines up to the first tag, without the
marks of the comment, trailing blanks and outer empty lines. -/
def descriptionOf (header : String) : List String :=
  let body := (Text.lines (commentBody header.toList)).map commentLine
  let text := body.takeWhile fun line => !startsTag line
  (dropOuterBlankLines (text.map Text.trimEnd)).map String.ofList

/-- The spaces and tabs that the line of an offset begins with. -/
def indentationAt (text : String) (offset : Int) : String :=
  let cs := text.toList
  let before := Text.slice cs 0 offset
  let lineStart := before.length - (Text.afterLastNewline before).length
  .ofList (Text.leadingIndent (cs.drop lineStart))

end DocHeader

import DocHeader.Json.Basic
import DocHeader.Text.Blank
import DocHeader.Text.Search

/-!
# Answers

What is read out of an answer of the assistant. An answer is the input of a tool call;
its texts may come in a fence or dressed up as a comment, and are cleaned of both.

## Main definitions

* `Answer.withoutFence` — a text without the fence around it.
* `Answer.withoutMarks` — a text without the marks of a comment.
* `Answer.clean` — the lines that are left, trimmed.
* `Answer.description?`, `Answer.descriptions?` — the texts of an answer.
-/

namespace DocHeader.Answer

/-! ## Fences -/

/-- The marks that open a fence. -/
def fenceMarks : List Char := ['\x60', '\x60', '\x60']

/-- The end of a fence: its marks on a line of their own. -/
def fenceEnd : List Char := '\n' :: fenceMarks

/-- The languages a fence may name. -/
def fenceLanguages : List String :=
  ["javascript", "js", "typescript", "ts", "text", "markdown", "md"]

/-- The text after the language a fence names, if it names one. -/
def afterLanguage (cs : List Char) : List Char :=
  (fenceLanguages.findSome? fun language => language.toList.isPrefixOf? cs).getD cs

/-- The text before the end of the fence, when `cs` ends with one. -/
def beforeFenceEnd? (cs : List Char) : Option (List Char) :=
  (fenceEnd.reverse.isPrefixOf? cs.reverse).map List.reverse

/-- The fenced text, when `cs` follows the head of a fence. The head ends with the last
line feed among the blanks that leaves room for the end of the fence. -/
def fenced? : List Char → Option (List Char)
  | [] => none
  | c :: cs =>
    if Text.isBlank c then (fenced? cs).or (if c == '\n' then beforeFenceEnd? cs else none)
    else none

/-- A text without the fence around it; without a fence it is left alone, outer blanks
included. -/
def withoutFence (s : String) : String :=
  match fenceMarks.isPrefixOf? (Text.trim s.toList) with
  | some rest => ((fenced? (afterLanguage rest)).map String.ofList).getD s
  | none => s

/-! ## Comments -/

/-- The text without the mark that opens a comment. -/
def withoutOpening : List Char → List Char
  | '/' :: '*' :: '*' :: rest => rest
  | '/' :: '*' :: rest => rest
  | cs => cs

/-- The text without the mark that closes a comment. -/
def withoutClosing (cs : List Char) : List Char :=
  ((['/', '*'].isPrefixOf? cs.reverse).map List.reverse).getD cs

/-- A line without its star, the blanks before the star and one space after it. -/
def withoutStar (line : List Char) : List Char :=
  match Text.trimStart line with
  | '*' :: ' ' :: rest => rest
  | '*' :: rest => rest
  | _ => line

/-- Whether a text looks like a comment or the inside of one. -/
def isComment : List Char → Bool
  | '*' :: _ => true
  | '/' :: '*' :: _ => true
  | _ => false

/-- A text without the marks of a comment; any other text is left alone. -/
def withoutMarks (s : String) : String :=
  let cs := Text.trim s.toList
  if isComment cs then
    let lines := (Text.lines (withoutClosing (withoutOpening cs))).map withoutStar
    trimmed (joinWith "\n" (lines.map String.ofList))
  else s

/-! ## Descriptions -/

/-- A text without fence, marks of comments, outer blanks of lines and blank lines. -/
def clean (s : String) : String :=
  joinWith "\n" (((textLines (withoutMarks (withoutFence s))).filter hasContent).map trimmed)

/-- The description of an answer: none when it is missing, no text, or empty. -/
def description? (answer : Json) : Option String :=
  match answer.field "description" with
  | .string s => if (clean s).isEmpty then none else some (clean s)
  | _ => none

/-- The description stored under a name; empty when there is no text. -/
def descriptionOf (name : String) (descriptions : List (String × Json)) : String :=
  match Json.lookup name descriptions with
  | some (.string s) => clean s
  | _ => ""

/-- The descriptions of an answer for some names, in their order; none when the answer
is malformed. -/
def descriptions? (answer : Json) (names : List String) : Option (List String) :=
  match answer.field "descriptions" with
  | .object descriptions => some (names.map fun name => descriptionOf name descriptions)
  | _ => none

end DocHeader.Answer

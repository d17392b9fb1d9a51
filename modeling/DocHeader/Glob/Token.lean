import DocHeader.Text.Search

/-!
# Tokens of globs

A glob is read into tokens, each of which stands for some texts. A path is matched from
its beginning, token by token; where tokens leave a choice, every choice is followed.

The tokens between path segments follow the rules of ignore files: a leading `**` takes
any number of directories, an inner one too, and the last segment of a glob also matches
everything below a directory of that name.

## Main definitions

* `Glob.Token` — the tokens.
* `Glob.Token.rests` — what may be left of a text behind a token.
* `Glob.Token.written` — a token as a regular expression.
-/

namespace DocHeader.Glob

/-- A member of a class of characters. -/
inductive ClassItem where
  | single (c : Char)
  | range (low high : Char)
  deriving DecidableEq, Repr

/-- Whether a member stands for a character. -/
def ClassItem.covers (item : ClassItem) (c : Char) : Bool :=
  match item with
  | .single only => c == only
  | .range low high => low ≤ c && c ≤ high

/-- A piece of a glob. -/
inductive Token where
  /-- The character itself. -/
  | char (c : Char)
  /-- Any character within a segment. -/
  | one
  /-- Any number of characters within a segment. -/
  | many
  /-- At least one character within a segment. -/
  | atLeastOne
  /-- A character that one of the items stands for, or none of them when `negated`. -/
  | among (negated : Bool) (items : List ClassItem)
  /-- Any number of directories at the beginning of a path. -/
  | leadingDirectories
  /-- Any number of directories behind a segment. -/
  | innerDirectories
  /-- The end of the last segment: the path ends here, or goes on below. -/
  | segmentEnd
  deriving DecidableEq, Repr

/-- Every way to leave out some characters of a beginning whose characters satisfy `p`. -/
def skipping (p : Char → Bool) : List Char → List (List Char)
  | [] => [[]]
  | c :: cs => (c :: cs) :: if p c then skipping p cs else []

/-- Within a segment there is no slash. -/
def inSegment (c : Char) : Bool := c != '/'

/-- Within a line there is no line feed. -/
def inLine (c : Char) : Bool := c != '\n'

/-- Every way to leave out one character or more. -/
def skippingSome (p : Char → Bool) : List Char → List (List Char)
  | [] => []
  | c :: cs => if p c then skipping p cs else []

/-- The text after a slash. -/
def afterSlash? : List Char → Option (List Char)
  | '/' :: cs => some cs
  | _ => none

/-- Whether a path may end here: at its end, or before a line feed at its end. -/
def atEnd : List Char → Bool
  | [] => true
  | ['\n'] => true
  | _ => false

namespace Token

/-- What may be left of a text behind a token at its beginning. -/
def rests : Token → List Char → List (List Char)
  | char c, cs => (([c].isPrefixOf? cs).map fun rest => [rest]).getD []
  | one, cs => (cs.head?.filter inSegment).toList.map fun _ => cs.tail
  | many, cs => skipping inSegment cs
  | atLeastOne, cs => skippingSome inSegment cs
  | among negated items, cs =>
    (cs.head?.filter fun c => items.any (·.covers c) != negated).toList.map fun _ => cs.tail
  | leadingDirectories, cs => cs :: (skippingSome inLine cs).filterMap afterSlash?
  | innerDirectories, cs => cs :: ((afterSlash? cs).map (skippingSome inLine)).getD []
  | segmentEnd, cs => if atEnd cs then [cs] else (afterSlash? cs).toList

/-- What may be left behind several tokens; each rest counts once. -/
def restsOfAll : List Token → List (List Char) → List (List Char)
  | [], rests => rests
  | token :: tokens, rests => restsOfAll tokens (rests.flatMap token.rests).eraseDups

/-- Whether tokens match a beginning of a text. -/
def matchBeginning (tokens : List Token) (cs : List Char) : Bool :=
  !(restsOfAll tokens [cs]).isEmpty

/-! ## Regular expressions -/

/-- The characters with a meaning in regular expressions. -/
def special : List Char := "()[]\x7b\x7d?*+-|^$\\.&~# \t\n\r\x0b\x0c".toList

/-- A character as a regular expression. -/
def writtenChar (c : Char) : List Char := if special.contains c then ['\\', c] else [c]

/-- A character in a class of a regular expression. -/
def writtenClassChar (c : Char) : List Char := if c == '\\' then ['\\', c] else [c]

/-- A member of a class as a regular expression. -/
def writtenItem : ClassItem → List Char
  | .single c => writtenClassChar c
  | .range low high => writtenClassChar low ++ '-' :: writtenClassChar high

/-- A token as a regular expression. -/
def written : Token → List Char
  | char c => writtenChar c
  | one => "[^/]".toList
  | many => "[^/]*".toList
  | atLeastOne => "[^/]+".toList
  | among negated items =>
    '[' :: (if negated then ['^'] else []) ++ items.flatMap writtenItem ++ [']']
  | leadingDirectories => "^(?:.+/)?".toList
  | innerDirectories => "(?:/.+)?".toList
  | segmentEnd => "(?:/|$)".toList

end Token

end DocHeader.Glob

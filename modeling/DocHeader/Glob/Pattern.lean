import DocHeader.Glob.Token
import DocHeader.Text.Blank
import DocHeader.Text.Quoted

/-!
# Patterns

A line of an ignore file is read into a pattern. A line may be a comment or empty, and
then says nothing; an exclamation mark in front turns its meaning around. Its segments
are read one by one.

## Main definitions

* `Glob.GlobError` — why a line is no pattern.
* `Glob.Pattern` — what a line matches.
* `Glob.Line` — a pattern, and whether it includes or excludes what it matches.
* `Glob.Line.ofText` — the line of a text.
-/

namespace DocHeader.Glob

/-- Why a line is no pattern. -/
inductive GlobError where
  /-- The line ends in the middle of a segment or is empty. -/
  | invalid (line : String)
  /-- A range of characters runs backwards. -/
  | badRange (low high : Char) (position : Nat)
  deriving DecidableEq, Repr

/-- The wording of an error. -/
def GlobError.message : GlobError → String
  | .invalid line => "Invalid git pattern: " ++ quoted line
  | .badRange low high position =>
    "bad character range " ++ String.ofList (Token.writtenItem (.range low high)) ++
      " at position " ++ toString position

/-! ## Segments -/

/-- Why a segment has no tokens. -/
inductive SegmentFault where
  /-- A bracket is not closed; the whole line says nothing. -/
  | openBracket
  /-- The segment ends with an escape. -/
  | openEscape
  deriving DecidableEq, Repr

/-- The members of a class. A hyphen at either end stands for itself. -/
def classItems : List Char → List ClassItem
  | low :: '-' :: high :: rest => .range low high :: classItems rest
  | c :: rest => .single c :: classItems rest
  | [] => []

/-- The class after its bracket: whether it is negated, its inside, and the rest. A
closing bracket at the very beginning of the inside belongs to it. -/
def splitClass? (cs : List Char) : Option (Bool × List Char × List Char) :=
  let (negated, cs) := match cs with
    | '!' :: rest => (true, rest)
    | '^' :: rest => (true, rest)
    | _ => (false, cs)
  let (first, cs) := match cs with
    | ']' :: rest => ([']'], rest)
    | _ => ([], cs)
  (Text.splitFirst ']' cs).map fun (inside, rest) => (negated, first ++ inside, rest)

/-- The tokens of a segment. `fuel` bounds the number of characters. -/
def segmentTokensWith : Nat → List Char → Except SegmentFault (List Token)
  | _, [] => .ok []
  | 0, _ => .ok []
  | fuel + 1, c :: cs =>
    if c == '\\' then
      match cs with
      | [] => .error .openEscape
      | c :: rest => (segmentTokensWith fuel rest).map (.char c :: ·)
    else if c == '*' then (segmentTokensWith fuel cs).map (.many :: ·)
    else if c == '?' then (segmentTokensWith fuel cs).map (.one :: ·)
    else if c == '[' then
      match splitClass? cs with
      | none => .error .openBracket
      | some (negated, inside, rest) =>
        (segmentTokensWith fuel rest).map (.among negated (classItems inside) :: ·)
    else (segmentTokensWith fuel cs).map (.char c :: ·)

/-- The tokens of a segment; a star alone stands for a whole name. -/
def segmentTokens (segment : List Char) : Except SegmentFault (List Token) :=
  if segment == ['*'] then .ok [.atLeastOne] else segmentTokensWith segment.length segment

/-! ## Patterns -/

/-- The segment that stands for any number of directories. -/
def anyDepth : List Char := ['*', '*']

/-- What a line matches. -/
inductive Pattern where
  /-- Every path that holds a character other than a line feed. -/
  | everything
  /-- Every path below a directory. -/
  | nested
  /-- The paths that begin as the tokens say. -/
  | sequence (tokens : List Token)
  deriving DecidableEq, Repr

/-- Whether a pattern matches a path. -/
def Pattern.matches (path : List Char) : Pattern → Bool
  | .everything => path.any inLine
  | .nested => path.contains '/'
  | .sequence tokens => Token.matchBeginning tokens path

/-- The segments of a pattern, read from the root of the scope. A slash in front is
dropped; a single segment without it is looked for at any depth. -/
def rooted : List (List Char) → List (List Char)
  | [] :: segments => segments
  | [segment] => if segment == anyDepth then [segment] else [anyDepth, segment]
  | [segment, []] => if segment == anyDepth then [segment, []] else [anyDepth, segment, []]
  | segments => segments

/-- The segments with an empty last one, which asks for a directory, replaced. -/
def closed : List (List Char) → List (List Char)
  | [] => []
  | [segment] => if segment.isEmpty then [anyDepth] else [segment]
  | segment :: rest => segment :: closed rest

/-- The segments with repeated `**` taken together. -/
def collapsed : List (List Char) → List (List Char)
  | first :: second :: rest =>
    if first == anyDepth && second == anyDepth then collapsed (second :: rest)
    else first :: collapsed (second :: rest)
  | segments => segments

/-- The tokens of segments behind others; `slash` says whether a slash is due before the
next one. -/
def tokensBehind (slash : Bool) : List (List Char) → Except SegmentFault (List Token)
  | [] => .ok []
  | [segment] =>
    if segment == anyDepth then .ok [.char '/']
    else (segmentTokens segment).map fun tokens => separator slash ++ tokens ++ [.segmentEnd]
  | segment :: rest =>
    if segment == anyDepth then (tokensBehind true rest).map (.innerDirectories :: ·)
    else
      match segmentTokens segment with
      | .error e => .error e
      | .ok tokens => (tokensBehind true rest).map fun others => separator slash ++ tokens ++ others
where
  /-- The slash between two segments. -/
  separator (slash : Bool) : List Token := if slash then [.char '/'] else []

/-- The pattern of segments; `directory` says whether the line ends with a slash. -/
def Pattern.ofSegments (directory : Bool) (segments : List (List Char)) :
    Except SegmentFault Pattern :=
  match segments with
  | [only] =>
    if only == anyDepth then .ok (if directory then .nested else .everything)
    else (tokensBehind false segments).map .sequence
  | first :: rest =>
    if first == anyDepth then
      if rest == [['*']] then .ok .everything
      else if rest == [['*'], anyDepth] then .ok .nested
      else (tokensBehind false rest).map fun tokens => .sequence (.leadingDirectories :: tokens)
    else (tokensBehind false segments).map .sequence
  | [] => .ok (.sequence [])

/-! ## Lines -/

/-- A pattern, and whether the paths it matches are wanted. -/
structure Line where
  wanted : Bool
  pattern : Pattern
  deriving DecidableEq, Repr

/-- The text of a line without its trailing blanks; a blank after an escape stays. -/
def lineText (cs : List Char) : List Char :=
  if [' ', '\\'].isPrefixOf cs.reverse then cs else Text.trimEnd cs

/-- The first reversed range of tokens that follow a regular expression of `position`
characters. -/
def firstBadRange? (position : Nat) : List Token → Option GlobError
  | [] => none
  | token :: rest =>
    match badRangeOf position token with
    | some e => some e
    | none => firstBadRange? (position + token.written.length) rest
where
  /-- The first reversed range of a token. -/
  badRangeOf (position : Nat) : Token → Option GlobError
    | .among negated items => badRangeAmong (position + 1 + (if negated then 1 else 0)) items
    | _ => none
  /-- The first reversed range of a list. -/
  badRangeAmong (position : Nat) : List ClassItem → Option GlobError
    | [] => none
    | item :: rest =>
      match badItem? position item with
      | some e => some e
      | none => badRangeAmong (position + (Token.writtenItem item).length) rest
  /-- A reversed range. -/
  badItem? (position : Nat) : ClassItem → Option GlobError
    | .range low high => if high < low then some (.badRange low high position) else none
    | .single _ => none

/-- The first reversed range of a pattern, whose regular expression begins with an
anchor. -/
def Pattern.badRange? : Pattern → Option GlobError
  | .sequence (.leadingDirectories :: rest) => firstBadRange? 0 (.leadingDirectories :: rest)
  | .sequence tokens => firstBadRange? 1 tokens
  | _ => none

/-- The line of segments after the exclamation mark. -/
def Line.ofSegments (line : String) (wanted : Bool) (segments : List (List Char)) :
    Except GlobError (Option Line) :=
  let directory := segments.getLast? == some []
  let segments := rooted segments
  if segments.isEmpty then .error (.invalid line)
  else
    match Pattern.ofSegments directory (collapsed (closed segments)) with
    | .error .openBracket => .ok none
    | .error .openEscape => .error (.invalid line)
    | .ok pattern =>
      match pattern.badRange? with
      | some e => .error e
      | none => .ok (some { wanted, pattern })

/-- The line of a text; nothing for a comment, a blank line and a slash alone. -/
def Line.ofText (line : String) : Except GlobError (Option Line) :=
  match lineText line.toList with
  | [] => .ok none
  | '#' :: _ => .ok none
  | ['/'] => .ok none
  | '!' :: cs => Line.ofSegments line false (cs.splitOn '/')
  | cs => Line.ofSegments line true (cs.splitOn '/')

end DocHeader.Glob

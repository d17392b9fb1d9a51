import DocHeader.Text.Blank

/-!
# Type texts

A type is kept as its text. The text has a canonical form, and it is compound when a
union or an intersection stands at its outermost level: then a sign in front of it would
bind to its first member only, and parentheses are due.

## Main definitions

* `TypeText.canonical` — the text a type is shown as; `*` for any type at all.
* `TypeText.Scan` — brackets and string literals open at a place in a type.
* `TypeText.isCompound` — whether a separator stands at the outermost level.
* `TypeText.wrap` — a sign and a type, with parentheses where they are due.
-/

namespace DocHeader.TypeText

/-- The type that admits everything. -/
def wildcard : String := "*"

/-- The type of a function without a result. -/
def noValue : String := "void"

/-- The text a type is shown as: trimmed, and `*` for no type or any type. -/
def canonical : Option String → String
  | none => wildcard
  | some s =>
    let t := trimmed s
    if t.isEmpty || t == "any" || t == "unknown" then wildcard else t

/-- What is open at a place in a type: how many brackets, which string literal, and the
character just before. -/
structure Scan where
  depth : Nat := 0
  literal : Option Char := none
  previous : Option Char := none
  deriving DecidableEq, Repr

/-- Opening brackets. -/
def isOpener (c : Char) : Bool := c == '(' || c == '[' || c == '\x7b' || c == '<'

/-- Closing brackets. -/
def isCloser (c : Char) : Bool := c == ')' || c == ']' || c == '\x7d' || c == '>'

/-- Marks of string literals. -/
def isQuotation (c : Char) : Bool := c == '\'' || c == '"' || c == '\x60'

/-- The separators of unions and intersections. -/
def isSeparator (c : Char) : Bool := c == '|' || c == '&'

/-- Whether `c` separates the members of the whole type here. -/
def Scan.separates (s : Scan) (c : Char) : Bool :=
  s.literal.isNone && s.depth == 0 && isSeparator c

/-- What is open after one more character. A mark after a backslash does not end its
literal, and the head of an arrow closes no bracket. -/
def Scan.step (s : Scan) (c : Char) : Scan :=
  match s.literal with
  | some mark =>
    if c == mark && s.previous != some '\\' then { s with literal := none, previous := some c }
    else { s with previous := some c }
  | none =>
    if isQuotation c then { s with literal := some c, previous := some c }
    else if isOpener c then { s with depth := s.depth + 1, previous := some c }
    else if isCloser c && !(c == '>' && s.previous == some '=') then
      { s with depth := s.depth - 1, previous := some c }
    else { s with previous := some c }

/-- Whether a separator of the whole type is met from a place on. -/
def Scan.meetsSeparator (s : Scan) : List Char → Bool
  | [] => false
  | c :: cs => s.separates c || (s.step c).meetsSeparator cs

/-- Whether a type is a union or an intersection at its outermost level. -/
def isCompound (type : String) : Bool := ({} : Scan).meetsSeparator type.toList

/-- The signs that would bind to the first member of a compound type. -/
def bindsTightly (sign : String) : Bool := sign == "?" || sign == "!"

/-- A sign in front of a type. A compound type gets parentheses when `parenthesize` says
so, and always after a sign that binds tightly. -/
def wrap (parenthesize : Bool) (type sign : String) : String :=
  if isCompound type && (parenthesize || bindsTightly sign) then sign ++ ("(" ++ type ++ ")")
  else sign ++ type

end DocHeader.TypeText

import DocHeader.Text.Printable

/-!
# Quoted text

How a text is shown inside a message: between quotation marks, on one line, with
everything that is not printable written as an escape.

## Main definitions

* `mark` — the quotation mark a text is given.
* `escape` — the written form of one character.
* `quote` — the quoted text.
-/

namespace DocHeader.Text

/-- A number in hexadecimal, in lower case and with at least `width` digits. -/
def hexadecimal (width n : Nat) : List Char :=
  let digits := Nat.toDigits 16 n
  List.replicate (width - digits.length) '0' ++ digits

/-- Single marks, unless the text holds a single mark and no double one. -/
def mark (cs : List Char) : Char :=
  if cs.contains '\'' && !cs.contains '"' then '"' else '\''

/-- The written form of a character between marks: the mark and the backslash after
a backslash, the common controls by letter, other unprintables by number. -/
def escape (quotation c : Char) : List Char :=
  if c == quotation || c == '\\' then ['\\', c]
  else if c == '\n' then ['\\', 'n']
  else if c == '\r' then ['\\', 'r']
  else if c == '\t' then ['\\', 't']
  else if isPrintable c then [c]
  else if c.toNat < 0x100 then '\\' :: 'x' :: hexadecimal 2 c.toNat
  else if c.toNat < 0x10000 then '\\' :: 'u' :: hexadecimal 4 c.toNat
  else '\\' :: 'U' :: hexadecimal 8 c.toNat

/-- The quoted form of a text. -/
def quote (cs : List Char) : List Char :=
  mark cs :: cs.flatMap (escape (mark cs)) ++ [mark cs]

end DocHeader.Text

namespace DocHeader

/-- The quoted form of a text. -/
def quoted (s : String) : String := .ofList (Text.quote s.toList)

end DocHeader

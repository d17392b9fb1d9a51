import DocHeader.Json.Parser
import DocHeader.Text.Quoted

/-!
# Writing JSON

Two written forms of a value. `compact` has no white space; `indented` puts every item
and every field on a line of its own. Both are pure ASCII: other characters are written
as escapes of their UTF-16 units.

## Main definitions

* `Json.compact`, `Json.indented` — the written forms.
* `Json.shown` — a value as messages show it.
-/

namespace DocHeader.Json

/-- A `\u` escape. -/
def unitEscape (n : Nat) : List Char := '\\' :: 'u' :: Text.hexadecimal 4 n

/-- The written form of a character inside a string. -/
def charText (c : Char) : List Char :=
  if c == '"' || c == '\\' then ['\\', c]
  else if c == '\n' then ['\\', 'n']
  else if c == '\r' then ['\\', 'r']
  else if c == '\t' then ['\\', 't']
  else if c.toNat == 8 then ['\\', 'b']
  else if c.toNat == 12 then ['\\', 'f']
  else if 0x20 ≤ c.toNat && c.toNat < 0x7f then [c]
  else if c.toNat < 0x10000 then unitEscape c.toNat
  else
    let n := c.toNat - 0x10000
    unitEscape (0xd800 + n / 0x400) ++ unitEscape (0xdc00 + n % 0x400)

/-- The written form of a string. -/
def stringText (s : String) : String :=
  .ofList ('"' :: (s.toList.flatMap charText ++ ['"']))

/-- The written form of a number. -/
def numberText : Numeral → String
  | .real (.infinite negative) => if negative then "-Infinity" else "Infinity"
  | .real .notANumber => "NaN"
  | n => n.text

mutual

/-- The form without white space. -/
def compact : Json → String
  | .null => "null"
  | .bool b => if b then "true" else "false"
  | .number n => numberText n
  | .string s => stringText s
  | .array items => "[" ++ String.intercalate "," (compactItems items) ++ "]"
  | .object fields => "\x7b" ++ String.intercalate "," (compactFields fields) ++ "\x7d"

/-- The items of an array without white space. -/
def compactItems : List Json → List String
  | [] => []
  | j :: rest => compact j :: compactItems rest

/-- The fields of an object without white space. -/
def compactFields : List (String × Json) → List String
  | [] => []
  | (key, j) :: rest => (stringText key ++ ":" ++ compact j) :: compactFields rest

end

/-- A line break followed by two spaces for every level. -/
def lineBreak (level : Nat) : String := .ofList ('\n' :: List.replicate (2 * level) ' ')

mutual

/-- The form with one item a line, for a value that stands at `level`. -/
def indentedAt (level : Nat) : Json → String
  | .array items =>
    if items.isEmpty then "[]"
    else
      let inner := lineBreak (level + 1)
      "[" ++ inner ++ String.intercalate ("," ++ inner) (indentedItems (level + 1) items) ++
        lineBreak level ++ "]"
  | .object fields =>
    if fields.isEmpty then "\x7b\x7d"
    else
      let inner := lineBreak (level + 1)
      "\x7b" ++ inner ++ String.intercalate ("," ++ inner) (indentedFields (level + 1) fields) ++
        lineBreak level ++ "\x7d"
  | j => compact j

/-- The items of an array, each at `level`. -/
def indentedItems (level : Nat) : List Json → List String
  | [] => []
  | j :: rest => indentedAt level j :: indentedItems level rest

/-- The fields of an object, each at `level`. -/
def indentedFields (level : Nat) : List (String × Json) → List String
  | [] => []
  | (key, j) :: rest =>
    (stringText key ++ ": " ++ indentedAt level j) :: indentedFields level rest

end

/-- The form with one item a line. -/
def indented (j : Json) : String := indentedAt 0 j

mutual

/-- A value as messages show it: texts quoted, the named values capitalised. -/
def shown : Json → String
  | .null => "None"
  | .bool b => if b then "True" else "False"
  | .number n => n.text
  | .string s => quoted s
  | .array items => "[" ++ String.intercalate ", " (shownItems items) ++ "]"
  | .object fields => "\x7b" ++ String.intercalate ", " (shownFields fields) ++ "\x7d"

/-- The items of an array as messages show them. -/
def shownItems : List Json → List String
  | [] => []
  | j :: rest => shown j :: shownItems rest

/-- The fields of an object as messages show them. -/
def shownFields : List (String × Json) → List String
  | [] => []
  | (key, j) :: rest => (quoted key ++ ": " ++ shown j) :: shownFields rest

end

/-- The text a value stands for: a string is its own text, other values are shown. -/
def plainText : Json → String
  | .string s => s
  | j => shown j

end DocHeader.Json

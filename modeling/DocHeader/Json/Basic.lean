import DocHeader.Association
import DocHeader.Decimal.Numeral

/-!
# JSON values

JSON values with the order in which the fields of an object were written. A field that
is written twice keeps its first place and takes its last value (`Association.set`).

## Main definitions

* `Json` — the values.
* `Json.field?` — the value of a field.
* `Json.isTruthy` — whether a value counts as given: neither null, false, zero nor empty.
* `Json.index?`, `Json.listed?` — the integer and the list that a value counts as.
-/

namespace DocHeader

/-- A JSON value; `object` keeps its fields in written order. -/
inductive Json where
  | null
  | bool (value : Bool)
  | number (value : Numeral)
  | string (value : String)
  | array (items : List Json)
  | object (fields : List (String × Json))
  deriving Inhabited

namespace Json

/-- The value of a field among written fields. -/
abbrev lookup (key : String) (fields : List (String × Json)) : Option Json :=
  Association.get? key fields

/-- The value of a field of an object. -/
def field? (key : String) : Json → Option Json
  | .object fields => lookup key fields
  | _ => none

/-- The value of a field, null when it is absent or the value is no object. -/
def field (key : String) (j : Json) : Json := (j.field? key).getD .null

/-- Whether a value counts as given: neither null, false, zero nor empty. -/
def isTruthy : Json → Bool
  | .null => false
  | .bool b => b
  | .number n => !n.isZero
  | .string s => !s.isEmpty
  | .array items => !items.isEmpty
  | .object fields => !fields.isEmpty

/-- What the type of a value is called in messages. -/
def typeName : Json → String
  | .null => "NoneType"
  | .bool _ => "bool"
  | .number (.int _) => "int"
  | .number _ => "float"
  | .string _ => "str"
  | .array _ => "list"
  | .object _ => "dict"

/-- The text of a string value. -/
def string? : Json → Option String
  | .string s => some s
  | _ => none

/-- The integer of a number written without fraction and exponent. -/
def int? : Json → Option Int
  | .number (.int n) => some n
  | _ => none

/-- The integer that a value counts as: a truth value counts as one or zero. -/
def index? : Json → Option Int
  | .number (.int n) => some n
  | .bool b => some (if b then 1 else 0)
  | _ => none

/-- The list that a value counts as: a text counts as its characters, an object as the
names of its fields. -/
def listed? : Json → Option (List Json)
  | .array items => some items
  | .string s => some (s.toList.map fun c => .string (String.ofList [c]))
  | .object fields => some (fields.map fun field => .string field.1)
  | _ => none

/-- The items of an array. -/
def items? : Json → Option (List Json)
  | .array items => some items
  | _ => none

/-- The fields of an object. -/
def fields? : Json → Option (List (String × Json))
  | .object fields => some fields
  | _ => none

/-- The integer value as JSON. -/
def ofInt (n : Int) : Json := .number (.int n)

/-- The texts as a JSON array. -/
def ofStrings (texts : List String) : Json := .array (texts.map .string)

/-- A text, or null when there is none. -/
def ofString? (text : Option String) : Json := (text.map Json.string).getD .null

end Json

end DocHeader

import DocHeader.Json.Printer
import DocHeader.Syntax.Node
import DocHeader.Text.Search
import DocHeader.Text.Utf16

/-!
# Syntax trees from JSON

The syntax helper prints a tree as JSON, with offsets in UTF-16 code units. Reading it
converts the offsets to character indices of the source and cuts the text of each node
out of the source.

The types of fields are not checked. A value is refused only where reading has to work with
it: offsets are looked up and cut with, lists are taken apart. Any other value is kept in
`NodeInfo.mistyped`, and the node holds what it counts for.

## Main definitions

* `TreeError` — why a value is no tree.
* `FieldType`, `Node.fieldTypes` — the types of the fields of a node.
* `Node.ofJson` — the tree of a JSON value.
-/

namespace DocHeader

/-- Why a JSON value is no syntax tree. -/
inductive TreeError where
  /-- A field that every node has is missing. -/
  | missingField (name : String)
  /-- An offset lies outside the source. -/
  | offsetOutOfRange
  /-- A field that reading works with, or the node itself, has the wrong form. -/
  | wrongForm
  deriving DecidableEq, Repr

/-- The message of an error: the missing field in quotes, or what went wrong. -/
def TreeError.message : TreeError → String
  | .missingField name => "'" ++ name ++ "'"
  | .offsetOutOfRange => "list index out of range"
  | .wrongForm => "syntax tree field of the wrong type"

/-- A source text prepared for cutting: its characters and its offset conversion. -/
structure Source where
  characters : List Char
  offsets : OffsetMap

/-- Prepare a text. -/
def Source.ofText (text : String) : Source := ⟨text.toList, .ofText text.toList⟩

/-- What a field of a node holds. -/
inductive FieldType where
  | offset
  | text
  /-- A text or null. -/
  | optionalText
  | texts
  | nodes
  deriving DecidableEq, Repr

/-- Whether a value is of a type; nodes are read apart. -/
def FieldType.admits : FieldType → Json → Bool
  | .offset, .number (.int _) => true
  | .text, .string _ => true
  | .optionalText, .null => true
  | .optionalText, .string _ => true
  | .texts, .array items => items.all fun item => item.string?.isSome
  | .nodes, .array _ => true
  | _, _ => false

namespace Node

/-- The types of the fields of a node. Its other fields are flags, of which only counts
whether they are given. -/
def fieldTypes : List (String × FieldType) :=
  [("pos", .offset), ("start", .offset), ("end", .offset), ("kind", .text),
    ("name", .optionalText), ("propertyName", .optionalText), ("modifiers", .texts),
    ("type", .optionalText), ("inferredType", .optionalText), ("returnType", .optionalText),
    ("initializer", .optionalText), ("jsDoc", .optionalText), ("token", .optionalText),
    ("expression", .optionalText), ("typeArguments", .texts), ("constraint", .optionalText),
    ("default", .optionalText), ("children", .nodes)]

/-- The value of a field. A node of which is not said where it starts with what precedes it
starts there itself. -/
def fieldValue? (fields : List (String × Json)) (name : String) : Option Json :=
  if name == "pos" then (Json.lookup "pos" fields).or (Json.lookup "start" fields)
  else Json.lookup name fields

/-- The values that are not of the type of their field. -/
def misfits (fields : List (String × Json)) : List (String × Json) :=
  fieldTypes.filterMap fun (name, type) =>
    (fieldValue? fields name).bind fun j => if type.admits j then none else some (name, j)

/-- An offset as an index of the source. Where offsets are indices already, any value is
taken as it is. -/
def convert (source : Source) (j : Json) : Except TreeError Json :=
  match source.offsets, j.index? with
  | .identity, _ => .ok j
  | .table _, none => .error .wrongForm
  | .table indices, some offset =>
    match (OffsetMap.table indices).toIndex? offset with
    | some index => .ok (.ofInt index)
    | none => .error .offsetOutOfRange

/-- The index that the value of an offset field is converted to. -/
def readOffset (source : Source) (fields : List (String × Json)) (name : String) :
    Except TreeError Json :=
  match fieldValue? fields name with
  | none => .error (.missingField name)
  | some j => convert source j

/-- An index that the source is cut at; null stands for the end that it bounds. -/
def readBound (otherwise : Int) : Json → Except TreeError Int
  | .null => .ok otherwise
  | j =>
    match j.index? with
    | some index => .ok index
    | none => .error .wrongForm

/-- The least index that reaches a value, for the comparison with indices up to `length`.
Not every value can be compared; see `Node.isComparable`. -/
def leastIndex (length : Int) : Json → Int
  | .number (.real (.infinite true)) => 0
  | .number (.real x) =>
    match x.toRat with
    | some value => value.ceil
    | none => length + 1
  | j => j.index?.getD 0

/-- The kind of a node. -/
def readKind (fields : List (String × Json)) : Except TreeError String :=
  match Json.lookup "kind" fields with
  | none => .error (.missingField "kind")
  | some j => .ok j.plainText

/-- The text that a value counts for: null for none, and a value that is no text for what is
shown of it, or for the empty text when it does not count as given. -/
def settledText : Json → Option String
  | .null => none
  | .string s => some s
  | j => some (if j.isTruthy then j.plainText else "")

/-- The text of a field. -/
def readText (fields : List (String × Json)) (name : String) : Option String :=
  (Json.lookup name fields).bind settledText

/-- The texts of a field that is taken apart; an absent one holds none. -/
def readTexts (fields : List (String × Json)) (name : String) : Except TreeError (List String) :=
  match Json.lookup name fields with
  | none => .ok []
  | some j =>
    match j.listed? with
    | some items => .ok (items.map Json.plainText)
    | none => .error .wrongForm

/-- Whether a field counts as given. -/
def readFlag (fields : List (String × Json)) (name : String) : Bool :=
  ((Json.lookup name fields).map Json.isTruthy).getD false

/-- What the fields of an object say of its node. -/
def readInfo (source : Source) (fields : List (String × Json)) : Except TreeError NodeInfo := do
  let start ← readOffset source fields "start"
  let stop ← readOffset source fields "end"
  let kind ← readKind fields
  let fullStart ← readOffset source fields "pos"
  let start ← readBound 0 start
  let stop ← readBound source.characters.length stop
  let modifiers ← readTexts fields "modifiers"
  let typeArguments ← readTexts fields "typeArguments"
  pure {
    kind, start, stop, modifiers, typeArguments
    fullStart := leastIndex source.characters.length fullStart
    text := .ofList (Text.slice source.characters start stop)
    name := readText fields "name"
    propertyName := readText fields "propertyName"
    annotation := readText fields "type"
    inferredType := readText fields "inferredType"
    inferredReturn := readText fields "returnType"
    initializer := readText fields "initializer"
    optional := readFlag fields "questionToken"
    definite := readFlag fields "exclamationToken"
    rest := readFlag fields "dotDotDotToken"
    generator := readFlag fields "asteriskToken"
    header := readText fields "jsDoc"
    token := readText fields "token"
    expression := readText fields "expression"
    constraint := readText fields "constraint"
    default := readText fields "default"
    mistyped := misfits fields }

mutual

/-- The tree of a value, its own fields before its children. -/
def read (source : Source) : Json → Except TreeError Node
  | .object fields =>
    match readInfo source fields with
    | .error e => .error e
    | .ok info => (readChildren source fields).map (Node.mk info)
  | _ => .error .wrongForm

/-- The children that the fields of an object list. -/
def readChildren (source : Source) : List (String × Json) → Except TreeError (List Node)
  | [] => .ok []
  | (name, j) :: rest => if name == "children" then readList source j else readChildren source rest

/-- The trees of a value that is taken apart. Characters and names of fields are no nodes, so
only an empty text or object has no others. -/
def readList (source : Source) : Json → Except TreeError (List Node)
  | .array items => readAll source items
  | .string s => if s.isEmpty then .ok [] else .error .wrongForm
  | .object fields => if fields.isEmpty then .ok [] else .error .wrongForm
  | _ => .error .wrongForm

/-- The trees of several values, in order. -/
def readAll (source : Source) : List Json → Except TreeError (List Node)
  | [] => .ok []
  | j :: rest =>
    match read source j with
    | .error e => .error e
    | .ok n => (readAll source rest).map (n :: ·)

end

/-- The syntax tree that a JSON value describes for a source text. -/
def ofJson (j : Json) (text : String) : Except TreeError Node := read (.ofText text) j

end Node

end DocHeader

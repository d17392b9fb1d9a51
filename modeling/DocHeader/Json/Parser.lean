import DocHeader.Json.Basic

/-!
# Reading JSON

A reader for JSON texts. Beyond the grammar it knows the three names `NaN`, `Infinity`
and `-Infinity`; control characters inside strings are refused, and so is a byte order
mark. An escape of half a surrogate pair stands for the replacement character. Neither the
nesting of values nor the number of digits of an integer is limited.

Every step returns the rest of the text. The nesting is bounded by the length of the
text, so the readers count down from it.

## Main definitions

* `Json.Problem` — what is wrong, and where.
* `Json.parse` — the value of a text.
-/

namespace DocHeader.Json

/-- What is wrong with a text. -/
inductive Cause where
  | expectingValue
  | expectingKey
  | expectingColon
  | expectingComma
  | unterminatedString
  | controlCharacter
  | badEscape
  | extraData
  | byteOrderMark
  deriving DecidableEq, Repr

/-- The wording of a cause. -/
def Cause.message : Cause → String
  | .expectingValue => "Expecting value"
  | .expectingKey => "Expecting property name enclosed in double quotes"
  | .expectingColon => "Expecting ':' delimiter"
  | .expectingComma => "Expecting ',' delimiter"
  | .unterminatedString => "Unterminated string starting at"
  | .controlCharacter => "Invalid control character at"
  | .badEscape => "Invalid \\escape"
  | .extraData => "Extra data"
  | .byteOrderMark => "Unexpected UTF-8 BOM (decode using utf-8-sig)"

/-- A cause at the place where `remaining` characters of the text are left. -/
structure Problem where
  cause : Cause
  remaining : Nat
  deriving DecidableEq, Repr

/-- The answer of a reader: a result and the rest of the text. -/
abbrev Read (α : Type) := Except Problem (α × List Char)

/-- Fail at the beginning of `cs`. -/
def failAt {α : Type} (cause : Cause) (cs : List Char) : Except Problem α :=
  .error ⟨cause, cs.length⟩

/-- The text after leading white space. -/
def skipSpace (cs : List Char) : List Char :=
  cs.dropWhile fun c => c == ' ' || c == '\t' || c == '\n' || c == '\r'

/-- The value of a hexadecimal digit. -/
def hexValue? (c : Char) : Option Nat :=
  let n := c.toNat
  if 48 ≤ n && n ≤ 57 then some (n - 48)
  else if 65 ≤ n && n ≤ 70 then some (n - 55)
  else if 97 ≤ n && n ≤ 102 then some (n - 87)
  else none

/-- The number written by four hexadecimal digits. -/
def fourHex? (a b c d : Char) : Option Nat := do
  let a ← hexValue? a
  let b ← hexValue? b
  let c ← hexValue? c
  let d ← hexValue? d
  pure (((a * 16 + b) * 16 + c) * 16 + d)

/-- The character of a pair of surrogates. -/
def surrogatePair? (high low : Nat) : Option Char :=
  if 0xd800 ≤ high && high ≤ 0xdbff && 0xdc00 ≤ low && low ≤ 0xdfff then
    some (Char.ofNat (0x10000 + (high - 0xd800) * 0x400 + (low - 0xdc00)))
  else none

/-- The character of a code unit. Half a surrogate pair is no character, and texts here hold none;
the replacement character stands for it. -/
def unitChar (n : Nat) : Char :=
  if 0xd800 ≤ n && n ≤ 0xdfff then Char.ofNat 0xfffd else Char.ofNat n

/-- The character a letter after a backslash stands for. -/
def simpleEscape? (c : Char) : Option Char :=
  if c == '"' || c == '\\' || c == '/' then some c
  else if c == 'b' then some (Char.ofNat 8)
  else if c == 'f' then some (Char.ofNat 12)
  else if c == 'n' then some '\n'
  else if c == 'r' then some '\r'
  else if c == 't' then some '\t'
  else none

/-- The rest of a string after its opening quotation mark; `done` holds the characters
read so far, in reverse, and `start` the number of characters left at the mark. -/
def stringBody (start : Nat) (done : List Char) : List Char → Read String
  | [] => .error ⟨.unterminatedString, start⟩
  | '"' :: rest => .ok (.ofList done.reverse, rest)
  | '\\' :: 'u' :: a :: b :: c :: d :: '\\' :: 'u' :: e :: f :: g :: h :: rest =>
    match fourHex? a b c d with
    | none => failAt .badEscape (a :: b :: c :: d :: '\\' :: 'u' :: e :: f :: g :: h :: rest)
    | some n =>
      match (fourHex? e f g h).bind (surrogatePair? n) with
      | some wide => stringBody start (wide :: done) rest
      | none => stringBody start (unitChar n :: done) ('\\' :: 'u' :: e :: f :: g :: h :: rest)
  | '\\' :: 'u' :: a :: b :: c :: d :: rest =>
    match fourHex? a b c d with
    | none => failAt .badEscape (a :: b :: c :: d :: rest)
    | some n => stringBody start (unitChar n :: done) rest
  | '\\' :: c :: rest =>
    match simpleEscape? c with
    | some plain => stringBody start (plain :: done) rest
    | none => failAt .badEscape (c :: rest)
  | c :: rest =>
    if c == '\\' then .error ⟨.unterminatedString, start⟩
    else if c.toNat < 0x20 then failAt .controlCharacter (c :: rest)
    else stringBody start (c :: done) rest
termination_by cs => cs.length

/-- Whether a character is an ASCII digit. -/
def isDigit (c : Char) : Bool := 48 ≤ c.toNat && c.toNat ≤ 57

/-- The number written by decimal digits. -/
def digitsValue (digits : List Char) : Nat :=
  digits.foldl (fun n c => n * 10 + (c.toNat - 48)) 0

/-- The fraction of a number: a point and at least one digit. -/
def fraction? : List Char → Option (List Char × List Char)
  | '.' :: rest =>
    let digits := rest.takeWhile isDigit
    if digits.isEmpty then none else some (digits, rest.dropWhile isDigit)
  | _ => none

/-- The exponent of a number: its letter, an optional sign, at least one digit. -/
def exponent? : List Char → Option (Int × List Char)
  | letter :: rest =>
    if letter == 'e' || letter == 'E' then
      let (negative, rest) := match rest with
        | '-' :: more => (true, more)
        | '+' :: more => (false, more)
        | _ => (false, rest)
      let digits := rest.takeWhile isDigit
      if digits.isEmpty then none
      else
        let n : Int := digitsValue digits
        some (if negative then -n else n, rest.dropWhile isDigit)
    else none
  | [] => none

/-- The number a text begins with. -/
def number? (cs : List Char) : Option (Numeral × List Char) :=
  let (negative, body) := match cs with
    | '-' :: more => (true, more)
    | _ => (false, cs)
  let whole := match body with
    | '0' :: _ => ['0']
    | _ => body.takeWhile isDigit
  if whole.isEmpty then none
  else
    let rest := body.drop whole.length
    let part := fraction? rest
    let rest := (part.map (·.2)).getD rest
    let power := exponent? rest
    let rest := (power.map (·.2)).getD rest
    if part.isNone && power.isNone then
      let n : Int := digitsValue whole
      some (.int (if negative then -n else n), rest)
    else
      let digits := (part.map (·.1)).getD []
      let e := (power.map (·.1)).getD 0
      some (.real (.ofDecimal negative (digitsValue (whole ++ digits)) (e - digits.length)), rest)

/-- The names that are values. -/
def names : List (String × Json) :=
  [("null", .null), ("true", .bool true), ("false", .bool false),
    ("NaN", .number (.real .notANumber)), ("Infinity", .number (.real (.infinite false))),
    ("-Infinity", .number (.real (.infinite true)))]

/-- The named value a text begins with. -/
def named? (cs : List Char) : Option (Json × List Char) :=
  names.findSome? fun (name, value) => (name.toList.isPrefixOf? cs).map fun rest => (value, rest)

mutual

/-- The value a text begins with. -/
def value : Nat → List Char → Read Json
  | 0, cs => failAt .expectingValue cs
  | depth + 1, cs =>
    match cs with
    | '"' :: rest => (stringBody cs.length [] rest).map fun (s, rest) => (.string s, rest)
    | '[' :: rest =>
      match skipSpace rest with
      | ']' :: rest => .ok (.array [], rest)
      | rest => items depth [] rest
    | '{' :: rest =>
      match skipSpace rest with
      | '}' :: rest => .ok (.object [], rest)
      | rest => members depth [] rest
    | _ =>
      match named? cs with
      | some (j, rest) => .ok (j, rest)
      | none =>
        match number? cs with
        | some (n, rest) => .ok (.number n, rest)
        | none => failAt .expectingValue cs

/-- The rest of an array from an item on; `done` holds the items before, in reverse. -/
def items : Nat → List Json → List Char → Read Json
  | 0, _, cs => failAt .expectingValue cs
  | depth + 1, done, cs =>
    match value depth cs with
    | .error problem => .error problem
    | .ok (j, rest) =>
      match skipSpace rest with
      | ',' :: rest => items depth (j :: done) (skipSpace rest)
      | ']' :: rest => .ok (.array (j :: done).reverse, rest)
      | rest => failAt .expectingComma rest

/-- The rest of an object from a field on, after the fields `done`. -/
def members : Nat → List (String × Json) → List Char → Read Json
  | 0, _, cs => failAt .expectingKey cs
  | depth + 1, done, cs =>
    match cs with
    | '"' :: rest =>
      match stringBody cs.length [] rest with
      | .error problem => .error problem
      | .ok (key, rest) =>
        match skipSpace rest with
        | ':' :: rest =>
          match value depth (skipSpace rest) with
          | .error problem => .error problem
          | .ok (j, rest) =>
            match skipSpace rest with
            | ',' :: rest => members depth (Association.set key j done) (skipSpace rest)
            | '}' :: rest => .ok (.object (Association.set key j done), rest)
            | rest => failAt .expectingComma rest
        | rest => failAt .expectingColon rest
    | _ => failAt .expectingKey cs

end

/-- The value of a text that holds nothing else but white space. -/
def parseChars (cs : List Char) : Except Problem Json :=
  match cs with
  | c :: _ => if c.toNat == 0xfeff then failAt .byteOrderMark cs else read cs
  | [] => read cs
where
  read (cs : List Char) : Except Problem Json :=
    match value (2 * cs.length + 1) (skipSpace cs) with
    | .error problem => .error problem
    | .ok (j, rest) =>
      if (skipSpace rest).isEmpty then .ok j else failAt .extraData (skipSpace rest)

/-- The value of a text. -/
def parse (s : String) : Except Problem Json := parseChars s.toList

/-- The message of a problem in the text it was found in. -/
def Problem.message (problem : Problem) (text : String) : String :=
  let cs := text.toList
  let index := cs.length - problem.remaining
  let before := cs.take index
  let line := before.count '\n' + 1
  let column := (before.reverse.takeWhile (· != '\n')).length + 1
  s!"{problem.cause.message}: line {line} column {column} (char {index})"

end DocHeader.Json

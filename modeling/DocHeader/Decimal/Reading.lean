import DocHeader.Decimal.Numeral
import DocHeader.Text.Blank
import DocHeader.Text.Digits

/-!
# Reading numerals

Numbers that people write: digits of any script, with single underscores between them if
they like, a sign in front and blanks around.

## Main definitions

* `readInteger?` — the value of a whole number.
* `readReal?` — the binary64 number of a decimal, with a point and an exponent, or of the
  name of an infinity or of not-a-number.
-/

namespace DocHeader

/-- The values of the digits of a group; an underscore may stand between two digits. -/
def digitGroup? : List Char → Option (List Nat)
  | [] => none
  | [c] => (Text.digitValue? c).map fun d => [d]
  | c :: '_' :: rest =>
    match Text.digitValue? c with
    | some d => (digitGroup? rest).map (d :: ·)
    | none => none
  | c :: rest =>
    match Text.digitValue? c with
    | some d => (digitGroup? rest).map (d :: ·)
    | none => none

/-- The number that digits write. -/
def ofDigits (digits : List Nat) : Nat := digits.foldl (fun n d => n * 10 + d) 0

/-- Whether a text begins with a minus sign, and the text after its sign. -/
def splitSign : List Char → Bool × List Char
  | '-' :: rest => (true, rest)
  | '+' :: rest => (false, rest)
  | cs => (false, cs)

/-- The most digits a whole number may have. -/
def mostDigits : Nat := 4300

/-- The value of a whole number. -/
def readInteger? (s : String) : Option Int :=
  let (negative, cs) := splitSign (Text.trim s.toList)
  match digitGroup? cs with
  | some digits =>
    if mostDigits < digits.length then none
    else some (if negative then -(ofDigits digits : Int) else ofDigits digits)
  | none => none

/-- The digits of a group that may be empty. -/
def optionalGroup? (cs : List Char) : Option (List Nat) :=
  if cs.isEmpty then some [] else digitGroup? cs

/-- The value of the exponent after its letter. -/
def readExponent? (cs : List Char) : Option Int :=
  let (negative, cs) := splitSign cs
  (digitGroup? cs).map fun digits => if negative then -(ofDigits digits : Int) else ofDigits digits

/-- Whether a character is the letter of an exponent. -/
def isExponentLetter (c : Char) : Bool := c == 'e' || c == 'E'

/-- The number of a decimal without its sign. -/
def readDecimal? (negative : Bool) (cs : List Char) : Option Binary64 :=
  let mantissa := cs.takeWhile fun c => !isExponentLetter c
  let exponent := match cs.dropWhile fun c => !isExponentLetter c with
    | [] => some 0
    | _ :: rest => readExponent? rest
  let whole := mantissa.takeWhile (· != '.')
  let part := (mantissa.dropWhile (· != '.')).drop 1
  match optionalGroup? whole, optionalGroup? part, exponent with
  | some whole, some part, some exponent =>
    if whole.isEmpty && part.isEmpty then none
    else some (.ofDecimal negative (ofDigits (whole ++ part)) (exponent - part.length))
  | _, _, _ => none

/-- The number of a decimal or of a name. -/
def readReal? (s : String) : Option Binary64 :=
  let (negative, cs) := splitSign (Text.trim s.toList)
  let name := String.ofList (cs.map Char.toLower)
  if name == "inf" || name == "infinity" then some (.infinite negative)
  else if name == "nan" then some .notANumber
  else readDecimal? negative cs

end DocHeader

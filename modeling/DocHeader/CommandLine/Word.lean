import DocHeader.CommandLine.Options
import DocHeader.Text.Digits
import DocHeader.Text.Search

/-!
# Words of a command line

A command line is a list of words. Each word is a value, an option, or the marker `--`
after which all words are values. An option may be shortened as long as it stays
unambiguous, and may carry its value after an equals sign.

## Main definitions

* `Word` — a word as it is understood.
* `Word.ofTexts` — the words of a command line.
-/

namespace DocHeader

/-- A word of a command line. -/
inductive Word where
  | value (text : String)
  /-- All words after it are values. -/
  | marker
  /-- An option with the value attached to it. -/
  | option (option : CommandOption) (attached : Option String)
  /-- The letter of the help option, with what follows in the same word. -/
  | helpLetter (more : String)
  /-- An option that does not exist. -/
  | unknown (text : String)
  deriving DecidableEq, Repr

namespace Word

/-- Whether a text is a negative number, and so a value. A line feed may follow. -/
def isNegativeNumber (cs : List Char) : Bool :=
  match cs with
  | '-' :: rest =>
    let rest := if rest.getLast? == some '\n' then rest.dropLast else rest
    let whole := rest.takeWhile (· != '.')
    match rest.dropWhile (· != '.') with
    | [] => !whole.isEmpty && whole.all Text.isDigit
    | _ :: part => whole.all Text.isDigit && !part.isEmpty && part.all Text.isDigit
  | _ => false

/-- The name of an option and the value attached to it. -/
def splitAttached (s : String) : String × Option String :=
  match Text.splitFirst '=' s.toList with
  | some (name, attached) => (.ofList name, some (.ofList attached))
  | none => (s, none)

/-- The options that a name may stand for: the option of that name, or those whose names
begin with it. -/
def candidates (options : List CommandOption) (name : String) : List CommandOption :=
  match options.find? fun o => o.name == name with
  | some o => [o]
  | none => options.filter fun o => beginsWith o.name name

/-- What a text that begins like an option is if it is none: a value when it is a
negative number or holds a blank. -/
def otherwise (s : String) : Word :=
  if isNegativeNumber s.toList || s.toList.contains ' ' then .value s else .unknown s

/-- The word of a text. -/
def ofText (options : List CommandOption) (s : String) : Except UsageError Word :=
  match s.toList with
  | '-' :: '-' :: _ =>
    let (name, attached) := splitAttached s
    match candidates options name with
    | [o] => .ok (.option o attached)
    | [] => .ok (otherwise s)
    | _ => .error (.ambiguous s)
  | '-' :: 'h' :: more => .ok (.helpLetter (.ofList more))
  | '-' :: _ :: _ => .ok (otherwise s)
  | _ => .ok (.value s)

/-- The words of a command line. -/
def ofTexts (options : List CommandOption) : List String → Except UsageError (List Word)
  | [] => .ok []
  | s :: rest =>
    if s == "--" then .ok (.marker :: rest.map .value)
    else do
      let word ← ofText options s
      let words ← ofTexts options rest
      pure (word :: words)

end Word

end DocHeader

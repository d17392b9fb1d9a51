/-!
# Dates and date formats

A moment of the civil calendar and its written forms. A format is a text in which a
percent sign begins a directive; directives may carry flags and a width. Names are the
English ones, and no time zone is known.

## Main definitions

* `CivilTime` — a date and a time of day.
* `CivilTime.directive?` — what a directive letter stands for.
* `CivilTime.format` — a moment written in a format.
-/

namespace DocHeader

/-- A date of the Gregorian calendar with a time of day. -/
structure CivilTime where
  year : Nat
  month : Nat
  day : Nat
  hour : Nat := 0
  minute : Nat := 0
  second : Nat := 0
  deriving DecidableEq, Repr, Inhabited

namespace CivilTime

/-- The names of the days, from Sunday on. -/
def dayNames : List String :=
  ["Sunday", "Monday", "Tuesday", "Wednesday", "Thursday", "Friday", "Saturday"]

/-- The names of the months. -/
def monthNames : List String :=
  ["January", "February", "March", "April", "May", "June", "July", "August", "September",
    "October", "November", "December"]

/-- Whether a year has a leap day. -/
def isLeap (year : Nat) : Bool := year % 4 == 0 && (year % 100 != 0 || year % 400 == 0)

/-- The lengths of the months of a year. -/
def monthLengths (year : Nat) : List Nat :=
  [31, if isLeap year then 29 else 28, 31, 30, 31, 30, 31, 31, 30, 31, 30, 31]

/-- The number of days before the first of January of a year, from year 1 on. -/
def daysBeforeYear (year : Nat) : Nat :=
  let y := year - 1
  y * 365 + y / 4 - y / 100 + y / 400

/-- The day of the year, the first of January being day 1. -/
def yearDay (t : CivilTime) : Nat :=
  ((monthLengths t.year).take (t.month - 1)).foldl (· + ·) t.day

/-- The day of the week, Sunday being day 0. -/
def weekDay (t : CivilTime) : Nat := (daysBeforeYear t.year + t.yearDay) % 7

/-- The day of the week of the ISO calendar, Monday being day 1. -/
def isoWeekDay (t : CivilTime) : Nat := if t.weekDay == 0 then 7 else t.weekDay

/-- The number of ISO weeks of a year. -/
def isoWeeks (year : Nat) : Nat :=
  let start := (daysBeforeYear year + 1) % 7
  if start == 4 || (isLeap year && start == 3) then 53 else 52

/-- The year and the week of the ISO calendar. -/
def isoWeek (t : CivilTime) : Nat × Nat :=
  let week : Int := ((t.yearDay : Int) - t.isoWeekDay + 10) / 7
  if week < 1 then (t.year - 1, isoWeeks (t.year - 1))
  else if isoWeeks t.year < week then (t.year + 1, 1)
  else (t.year, week.toNat)

/-- The hour on a twelve-hour clock. -/
def hour12 (t : CivilTime) : Nat := if t.hour % 12 == 0 then 12 else t.hour % 12

/-- The seconds since the start of 1970. -/
def epochSeconds (t : CivilTime) : Int :=
  let days : Int := (daysBeforeYear t.year + t.yearDay : Nat) - (daysBeforeYear 1970 + 1 : Nat)
  days * 86400 + t.hour * 3600 + t.minute * 60 + t.second

/-- The date some days after the start of 1970. Years are counted from the first of March
here, so that a leap day ends its year, in eras of 400 years. -/
def ofEpochDays (days : Nat) : CivilTime :=
  let fromMarch := days + 719468
  let inEra := fromMarch % 146097
  let yearOfEra := (inEra - inEra / 1460 + inEra / 36524 - inEra / 146096) / 365
  let inYear := inEra - (365 * yearOfEra + yearOfEra / 4 - yearOfEra / 100)
  let monthFromMarch := (5 * inYear + 2) / 153
  let year := fromMarch / 146097 * 400 + yearOfEra
  { year := if monthFromMarch < 10 then year else year + 1
    month := if monthFromMarch < 10 then monthFromMarch + 3 else monthFromMarch - 9
    day := inYear - (153 * monthFromMarch + 2) / 5 + 1 }

/-- The moment some seconds after the start of 1970. -/
def ofEpochSeconds (seconds : Nat) : CivilTime :=
  let rest := seconds % 86400
  { ofEpochDays (seconds / 86400) with
    hour := rest / 3600, minute := rest / 60 % 60, second := rest % 60 }

/-- What a directive writes: a number with its least width and its padding, a text, or
a format of its own. -/
inductive Item where
  | number (value : Int) (width : Nat) (pad : Char)
  | text (s : String)
  | nested (format : List Char)

/-- What a directive letter stands for. -/
def directive? (t : CivilTime) (letter : Char) : Option Item :=
  let day := (dayNames[t.weekDay]?).getD ""
  let month := (monthNames[t.month - 1]?).getD ""
  let short (s : String) : String := .ofList (s.toList.take 3)
  let sundayWeek := (t.yearDay + 6 - t.weekDay) / 7
  let mondayWeek := (t.yearDay + 6 - (t.weekDay + 6) % 7) / 7
  match letter with
  | 'a' => some (.text (short day))
  | 'A' => some (.text day)
  | 'b' | 'h' => some (.text (short month))
  | 'B' => some (.text month)
  | 'c' => some (.nested "%a %b %e %H:%M:%S %Y".toList)
  | 'C' => some (.number (t.year / 100) 1 '0')
  | 'd' => some (.number t.day 2 '0')
  | 'D' => some (.nested "%m/%d/%y".toList)
  | 'e' => some (.number t.day 2 ' ')
  | 'F' => some (.nested "%Y-%m-%d".toList)
  | 'g' => some (.number (t.isoWeek.1 % 100) 2 '0')
  | 'G' => some (.number t.isoWeek.1 1 '0')
  | 'H' => some (.number t.hour 2 '0')
  | 'I' => some (.number t.hour12 2 '0')
  | 'j' => some (.number t.yearDay 3 '0')
  | 'k' => some (.number t.hour 2 ' ')
  | 'l' => some (.number t.hour12 2 ' ')
  | 'm' => some (.number t.month 2 '0')
  | 'M' => some (.number t.minute 2 '0')
  | 'n' => some (.text "\n")
  | 'p' => some (.text (if t.hour < 12 then "AM" else "PM"))
  | 'P' => some (.text (if t.hour < 12 then "am" else "pm"))
  | 'r' => some (.nested "%I:%M:%S %p".toList)
  | 'R' => some (.nested "%H:%M".toList)
  | 's' => some (.text (toString t.epochSeconds))
  | 'S' => some (.number t.second 2 '0')
  | 't' => some (.text "\t")
  | 'T' | 'X' => some (.nested "%H:%M:%S".toList)
  | 'u' => some (.number t.isoWeekDay 1 '0')
  | 'U' => some (.number sundayWeek 2 '0')
  | 'V' => some (.number t.isoWeek.2 2 '0')
  | 'w' => some (.number t.weekDay 1 '0')
  | 'W' => some (.number mondayWeek 2 '0')
  | 'x' => some (.nested "%m/%d/%y".toList)
  | 'y' => some (.number (t.year % 100) 2 '0')
  | 'Y' => some (.number t.year 1 '0')
  | 'Z' => some (.text "")
  | '%' => some (.text "%")
  | _ => none

/-- The flags and the width of a directive. -/
structure Flags where
  pad : Option Char := none
  unpadded : Bool := false
  upper : Bool := false
  swap : Bool := false
  width : Nat := 0

/-- Whether a character is a flag. -/
def isFlag (c : Char) : Bool := c == '-' || c == '_' || c == '0' || c == '^' || c == '#'

/-- The flags after one more flag character. -/
def Flags.add (f : Flags) (c : Char) : Flags :=
  if c == '-' then { f with unpadded := true, pad := none }
  else if c == '_' then { f with unpadded := false, pad := some ' ' }
  else if c == '0' then { f with unpadded := false, pad := some '0' }
  else if c == '^' then { f with upper := true }
  else { f with swap := true }

/-- A text with blanks or zeros in front up to a width. -/
def padTo (width : Nat) (pad : Char) (cs : List Char) : List Char :=
  List.replicate (width - cs.length) pad ++ cs

/-- Letters in capitals when the flags ask for them. -/
def Flags.capitals (f : Flags) (cs : List Char) : List Char :=
  if f.upper then cs.map Char.toUpper else cs

/-- The text of a directive in the case the flags ask for. Turning the case around makes
names of days and months capital and the half of the day small. -/
def Flags.cased (f : Flags) (cs : List Char) (letter : Char) : List Char :=
  if letter == 'P' || (f.swap && letter == 'p') then cs.map Char.toLower
  else if f.swap && "aAbBh".toList.contains letter then cs.map Char.toUpper
  else f.capitals cs

/-- A text with blanks in front, or what the flags want there, up to their width. -/
def Flags.fill (f : Flags) (cs : List Char) : List Char := padTo f.width (f.pad.getD ' ') cs

/-- A number as the flags want it. -/
def Flags.writeNumber (f : Flags) (value : Int) (width : Nat) (pad : Char) : List Char :=
  let digits := (toString value).toList
  if f.unpadded then f.fill digits else padTo (max width f.width) (f.pad.getD pad) digits

/-- Whether a directive letter may follow a modifier. -/
def allows (modifier : Option Char) (letter : Char) : Bool :=
  match modifier with
  | none => true
  | some 'E' => !"aAbBhDdeFHIkljmMSUVWwgG".toList.contains letter
  | some _ => !"aAcxDFXY".toList.contains letter

/-- The flags, the modifier and the letter of a directive, with what follows it. There is
no letter at the end of a format. -/
def readDirective (cs : List Char) : Flags × Option Char × Option Char × List Char :=
  let flags := (cs.takeWhile isFlag).foldl Flags.add {}
  let cs := cs.dropWhile isFlag
  let width := (cs.takeWhile Char.isDigit).foldl (fun n c => n * 10 + (c.toNat - 48)) 0
  let cs := cs.dropWhile Char.isDigit
  let modifier := cs.head?.filter fun c => c == 'E' || c == 'O'
  let cs := if modifier.isSome then cs.tail else cs
  ({ flags with width }, modifier, cs.head?, cs.tail)

/-- A moment written in a format; `depth` bounds the formats inside formats, and `steps`
the directives. An unknown directive stands for itself, and an offset from Greenwich for
nothing. -/
def formatChars (t : CivilTime) : Nat → Nat → List Char → List Char
  | depth, steps + 1, '%' :: rest =>
    let (flags, modifier, letter, after) := readDirective rest
    let written :=
      match letter.filter (allows modifier) with
      | some 'z' => []
      | some letter =>
        match t.directive? letter with
        | some (.number value width pad) => flags.writeNumber value width pad
        | some (.text s) => flags.fill (flags.cased s.toList letter)
        | some (.nested format) =>
          match depth with
          | 0 => []
          | depth + 1 => flags.fill (flags.capitals (formatChars t depth format.length format))
        | none => flags.fill (flags.capitals ('%' :: rest.take (rest.length - after.length)))
      | none => flags.fill (flags.capitals ('%' :: rest.take (rest.length - after.length)))
    written ++ formatChars t depth steps after
  | depth, steps + 1, c :: rest => c :: formatChars t depth steps rest
  | _, _, cs => cs

/-- The directives that stand for nothing without a time zone, and the microseconds. -/
def dropZones : List Char → List Char
  | '%' :: 'z' :: rest | '%' :: 'Z' :: rest => dropZones rest
  | '%' :: 'f' :: rest => "000000".toList ++ dropZones rest
  | '%' :: c :: rest => '%' :: c :: dropZones rest
  | c :: rest => c :: dropZones rest
  | [] => []

/-- A moment written in a format. -/
def format (t : CivilTime) (text : String) : String :=
  let cs := dropZones text.toList
  .ofList (formatChars t 2 cs.length cs)

end CivilTime

end DocHeader

import DocHeader.Text.LowerCase
import DocHeader.Text.Search

/-!
# Paths

Paths as texts name them, and places, which are paths from the root of the disk without
any `..` left.

## Main definitions

* `Path.ofText`, `Path.text` — a path and its text; empty and `.` components vanish.
* `Path.join`, `Path.parents`, `Path.suffix` — the usual operations.
* `Place` — the components of an absolute path.
* `Path.resolve` — the place of a path.
-/

namespace DocHeader

/-- A path: what it begins with, which is empty for a relative path, and its components. -/
structure Path where
  root : String := ""
  parts : List String
  deriving DecidableEq, Repr, Inhabited

/-- A place on the disk: the components from the root down to it. -/
abbrev Place := List String

/-- The text of a place. -/
def Place.text (p : Place) : String := "/" ++ joinWith "/" p

namespace Path

/-- What a path text begins with. Exactly two slashes stay two; more count as one. -/
def rootOf : List Char → String
  | '/' :: '/' :: '/' :: _ => "/"
  | '/' :: '/' :: _ => "//"
  | '/' :: _ => "/"
  | _ => ""

/-- The path of a text. -/
def ofText (s : String) : Path where
  root := rootOf s.toList
  parts := (splitAt '/' s).filter fun part => !part.isEmpty && part != "."

/-- The text of a path. -/
def text (p : Path) : String :=
  if p.root.isEmpty && p.parts.isEmpty then "." else p.root ++ joinWith "/" p.parts

/-- Whether a path starts at the root. -/
def isAbsolute (p : Path) : Bool := !p.root.isEmpty

/-- The path that `q` means when it is read from `p`. -/
def join (p q : Path) : Path :=
  if q.isAbsolute then q else { p with parts := p.parts ++ q.parts }

/-- The path of a name below a directory. -/
def child (p : Path) (name : String) : Path := { p with parts := p.parts ++ [name] }

/-- The last component. -/
def name (p : Path) : String := p.parts.getLast?.getD ""

/-- The path without its last component. -/
def parent (p : Path) : Path := { p with parts := p.parts.dropLast }

/-- The paths with ever fewer components, without the path itself. -/
def parents (p : Path) : List Path :=
  (List.range p.parts.length).reverse.map fun n => { p with parts := p.parts.take n }

/-- The end of a name from its last dot on; a dot at either end of the name begins no
suffix. -/
def suffixOf (name : List Char) : List Char :=
  match Text.splitLast '.' name with
  | some (before, after) => if before.isEmpty || after.isEmpty then [] else '.' :: after
  | none => []

/-- The suffix of the last component, its dot included. -/
def suffix (p : Path) : String := .ofList (suffixOf p.name.toList)

/-- Go to one component from a place; `..` goes up, and stays at the root. -/
def step (at_ : Place) (part : String) : Place :=
  if part == ".." then at_.dropLast else at_ ++ [part]

/-- The place of a path that is read from `here`, by its components alone. -/
def resolve (here : Place) (p : Path) : Place :=
  p.parts.foldl step (if p.isAbsolute then [] else here)

end Path

/-- Whether a place lies at or below another; whole components count. -/
def Place.isWithin (p base : Place) : Bool := base.isPrefixOf p

end DocHeader

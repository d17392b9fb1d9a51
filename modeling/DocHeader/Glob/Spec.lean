import DocHeader.Glob.Braces
import DocHeader.Glob.Pattern

/-!
# Globs

A glob selects paths relative to the root of a scope. Its brace groups are expanded, and
each of the resulting globs becomes one line of an ignore file, from which a glob without a
slash only matches directly below the root. What such lines take is a matter of the rules of
ignore files: of the lines that match a path the last one decides.

## Main definitions

* `GlobSpec` — the lines of a glob.
* `IgnoreRules` — what the lines of an ignore file take.
* `Glob.selector` — the paths that a glob selects.
-/

namespace DocHeader

open Glob

/-- The lines of a glob that say something. -/
structure GlobSpec where
  lines : List Line
  deriving DecidableEq, Repr

namespace GlobSpec

/-- The lines of texts. -/
def linesOf : List String → Except GlobError (List Line)
  | [] => .ok []
  | text :: rest =>
    match Line.ofText text with
    | .error e => .error e
    | .ok line => (linesOf rest).map fun lines => line.toList ++ lines

/-- The specification of texts. -/
def ofTexts (texts : List String) : Except GlobError GlobSpec := (linesOf texts).map GlobSpec.mk

/-- A path without the slash, or the dot and the slash, in front of it. -/
def relative : List Char → List Char
  | '/' :: path => path
  | '.' :: '/' :: path => path
  | path => path

/-- Whether a path is selected: the last line that matches decides, and none means no. -/
def selects (g : GlobSpec) (path : String) : Bool :=
  let cs := relative path.toList
  ((g.lines.reverse.find? fun line => line.pattern.matches cs).map Line.wanted).getD false

end GlobSpec

/-- What the lines of an ignore file take, unless one of them is no pattern. -/
class IgnoreRules where
  compile : (texts : List String) → Except GlobError (String → Bool)

/-- Each line is read into a pattern. -/
instance IgnoreRules.byPatterns : IgnoreRules where
  compile texts := (GlobSpec.ofTexts texts).map GlobSpec.selects

namespace Glob

/-- A glob as a line: anchored at the root when it has no slash. -/
def anchored (glob : String) : String := if glob.toList.contains '/' then glob else "/" ++ glob

/-- The paths that a glob selects. -/
def selector [IgnoreRules] (glob : String) : Except GlobError (String → Bool) :=
  IgnoreRules.compile ((expandBraces glob).map anchored)

end Glob

end DocHeader

import DocHeader.Disk.Walk
import DocHeader.Header.Misfits
import DocHeader.Syntax.Helper
import DocHeader.Text.Location

/-!
# Faults of requests

Why a request for headers was given up.

## Main definitions

* `GenerationFault` — the reasons.
* `GenerationFault.message` — their wording.
-/

namespace DocHeader

/-- Why a request was given up. -/
inductive GenerationFault where
  /-- The target is no source file, or not what the scope asks for. -/
  | unsupportedScope (target : String) (reason : Option String)
  /-- Nothing at the position can be documented. -/
  | unsupportedPosition (file : String) (position : Int) (location : Option Location)
  | unreadable (error : ReadError)
  | unparsed (failure : ParseFailure)
  | badGlob (error : Glob.GlobError)
  | unbuilt (error : BuildError)

/-- The fault of a request that comes to a field of the wrong type that it cannot use. -/
def GenerationFault.unusable : GenerationFault := .unparsed (.malformed .wrongForm)

/-- The wording of a fault. -/
def GenerationFault.message : GenerationFault → String
  | .unsupportedScope target reason =>
    "Unsupported file type: " ++ target ++
      match given? reason with
      | some reason => " (" ++ reason ++ ")"
      | none => ""
  | .unsupportedPosition file position location =>
    let place := match location with
      | some l => toString l.line ++ ":" ++ toString l.column
      | none => "offset " ++ toString position
    "Unable to generate JSDoc at " ++ file ++ " " ++ place ++ ": no supported declaration found"
  | .unreadable error => error.message
  | .unparsed failure => failure.message
  | .badGlob error => error.message
  | .unbuilt error => error.message

end DocHeader

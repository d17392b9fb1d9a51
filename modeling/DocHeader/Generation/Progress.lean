/-!
# Progress

How far a request has come: a title at the beginning and a line for every unit done.

## Main definitions

* `Meter` — units done and in all.
* `Meter.begin`, `Meter.advance` — the next state, with the line that is printed.
-/

namespace DocHeader

/-- The number of units done and the number of units in all. -/
structure Meter where
  done : Int := 0
  total : Int := 0
  deriving DecidableEq, Repr, Inhabited

namespace Meter

/-- Begin to count up to a total. -/
def begin (total : Int) (title : String) : String × Meter := (title ++ "\n", { total })

/-- Count one unit. -/
def advance (m : Meter) (message : String) : String × Meter :=
  let next := { m with done := m.done + 1 }
  let line := "  [" ++ toString next.done ++ "/" ++ toString next.total ++ "]"
  (line ++ (if message.isEmpty then "" else " " ++ message) ++ "\n", next)

end Meter

end DocHeader

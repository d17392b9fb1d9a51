/-!
# Log records

What happens on the way is written to a log, in the order in which it happens.

## Main definitions

* `LogRecord` — a level and a message.
* `Journal` — a state together with the records written so far.
* `Logged` — computations on a state that write records.
-/

namespace DocHeader

/-- How much a record matters. -/
inductive LogLevel where
  | info
  | warning
  deriving DecidableEq, Repr

/-- The name of a level. -/
def LogLevel.label : LogLevel → String
  | .info => "INFO"
  | .warning => "WARNING"

/-- A record of the log. -/
structure LogRecord where
  level : LogLevel
  message : String
  deriving DecidableEq, Repr

/-- A state with the records written so far. -/
structure Journal (σ : Type) where
  state : σ
  records : List LogRecord := []
  deriving Repr

/-- Computations on a state that write log records. -/
abbrev Logged (σ : Type) := StateM (Journal σ)

namespace Logged

variable {σ α β : Type}

@[simp] theorem pure_apply (a : α) (j : Journal σ) : (pure a : Logged σ α) j = (a, j) := rfl

theorem bind_apply (x : Logged σ α) (f : α → Logged σ β) (j : Journal σ) :
    (x >>= f) j = f (x j).1 (x j).2 := rfl

/-- Write a record. -/
def note (level : LogLevel) (message : String) : Logged σ Unit :=
  modify fun j => { j with records := j.records ++ [⟨level, message⟩] }

/-- Write a warning. -/
def warn (message : String) : Logged σ Unit := note .warning message

/-- A computation on the state alone. -/
def onState (action : StateM σ α) : Logged σ α := fun j =>
  let (a, s) := action j.state
  (a, { j with state := s })

/-- Writing a record leaves the state alone. -/
@[simp] theorem note_apply (level : LogLevel) (message : String) (j : Journal σ) :
    (note level message : Logged σ Unit) j =
      ((), { j with records := j.records ++ [⟨level, message⟩] }) := rfl

@[simp] theorem warn_apply (message : String) (j : Journal σ) :
    (warn message : Logged σ Unit) j =
      ((), { j with records := j.records ++ [⟨.warning, message⟩] }) := rfl

end Logged

end DocHeader

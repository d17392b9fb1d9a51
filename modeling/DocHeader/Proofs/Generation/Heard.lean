import DocHeader.Proofs.Generation.Clients

/-!
# What is heard of a request

A request tells the receiver of its progress how much there is to do, and then of each unit
done. Nothing else that a request does is heard there: the signal may be set, records are
written, files are read and headers are built without a word.

## Main definitions

* `ProgressCall` — a call to the receiver of progress.
* `Receiver` — the meter, what was printed, and which calls there were.
* `Desk.Hears` — the calls between two desks.
* `Desk.ledger` — what the visits of files depend on, and what the receiver has heard.
-/

namespace DocHeader

/-- A call to the receiver of progress. -/
inductive ProgressCall where
  | begin (total : Nat) (title : String)
  | advance (message : String)
  deriving DecidableEq, Repr

/-- A step that the receiver of progress hears of. -/
def Event.isProgress : Event → Bool
  | .begin | .advance => true
  | _ => false

/-- The receiver of progress: its meter, what it has printed, and the calls it got. -/
structure Receiver where
  meter : Meter
  printed : String
  events : List Event

/-- The receiver after a call. -/
def Receiver.hear (r : Receiver) : ProgressCall → Receiver
  | .begin total title =>
    ⟨(Meter.begin total title).2, r.printed ++ (Meter.begin total title).1, r.events ++ [.begin]⟩
  | .advance message =>
    ⟨(r.meter.advance message).2, r.printed ++ (r.meter.advance message).1,
      r.events ++ [.advance]⟩

/-- What the visits of files depend on, and what the receiver has heard of them. -/
structure Ledger where
  disk : Disk
  /-- The files given to the syntax helper. -/
  parsed : List String
  receiver : Receiver

/-- The ledger after a call to the receiver. -/
def Ledger.hear (l : Ledger) (call : ProgressCall) : Ledger :=
  { l with receiver := l.receiver.hear call }

/-- The ledger after a file was given to the syntax helper. -/
def Ledger.give (l : Ledger) (file : String) : Ledger := { l with parsed := l.parsed ++ [file] }

/-- Calls to the receiver reach nothing else. -/
theorem Ledger.foldl_hear (l : Ledger) (calls : List ProgressCall) :
    calls.foldl hear l = { l with receiver := calls.foldl Receiver.hear l.receiver } := by
  induction calls generalizing l with
  | nil => rfl
  | cons call rest ih => simp [ih, hear]

namespace Desk

/-- The receiver of progress. -/
def receiver (d : Desk) : Receiver := ⟨d.meter, d.progress, d.events.filter Event.isProgress⟩

/-- What visits depend on and what was heard of them, at a desk. -/
def ledger (d : Desk) : Ledger := ⟨d.disk, d.parsed, d.receiver⟩

/-- The calls that the receiver of progress got between two desks. -/
def Hears (d : Desk) (calls : List ProgressCall) (d' : Desk) : Prop :=
  d'.receiver = calls.foldl Receiver.hear d.receiver

variable {s : Surroundings}

/-! ## Steps that are not heard -/

theorem cancel_leaves_ledger : Leaves ledger cancel := by
  intro d
  cases hset : d.cancelled <;> simp only [cancel, bind_apply, get_apply, hset] <;> rfl

/-- A step that is completed, as the ledger has it. -/
theorem complete_ledger (s : Surroundings) (e : Event) (d : Desk) :
    (complete s e d).2.ledger = ledger { d with events := d.events ++ [e] } := by
  cases hsets : s.cancelsAfter e ((d.events ++ [e]).count e) with
  | true =>
    simp only [complete, bind_apply, modify_apply, get_apply, hsets, if_true]
    exact cancel_leaves_ledger _
  | false =>
    simp only [complete, bind_apply, modify_apply, get_apply, hsets, Bool.false_eq_true, if_false,
      pure_apply]

theorem complete_leaves_ledger {e : Event} (h : e.isProgress = false) :
    Leaves ledger (complete s e) := by
  intro d
  rw [complete_ledger]
  simp [ledger, receiver, h]

theorem look_leaves_ledger : Leaves ledger (look s) :=
  .bind (fun _ => rfl) fun _ => .bind (complete_leaves_ledger rfl) fun _ => .pure _

theorem readText_leaves_ledger (file : String) : Leaves ledger (readText s file) := by
  refine .bind (fun _ => rfl) fun d => ?_
  split
  · exact .bind (complete_leaves_ledger rfl) fun _ => .pure _
  · exact .bind (complete_leaves_ledger rfl) fun _ => .pure _

theorem parse_ledger (s : Surroundings) (file text : String) (d : Desk) :
    (parse s file text d).2.ledger = d.ledger.give file := by
  cases htree : (s.helper d.parsed file text).parse file text <;>
    simp only [parse, bind_apply, get_apply, modify_apply, htree] <;>
    exact complete_leaves_ledger rfl _

/-! ## Steps that are heard -/

theorem begin_ledger (s : Surroundings) (total : Nat) (title : String) (d : Desk) :
    (begin s total title d).2.ledger = d.ledger.hear (.begin total title) := by
  simp only [begin, report, bind_apply, modify_apply, complete_ledger]
  simp [ledger, receiver, Ledger.hear, Receiver.hear, Event.isProgress]

theorem advance_ledger (s : Surroundings) (message : String) (d : Desk) :
    (advance s message d).2.ledger = d.ledger.hear (.advance message) := by
  simp only [advance, report, bind_apply, modify_apply, complete_ledger]
  simp [ledger, receiver, Ledger.hear, Receiver.hear, Event.isProgress]

end Desk

namespace Generator

open Desk

theorem look_leaves_ledger (g : Generator) (r : GenerationResult) :
    Leaves Desk.ledger (g.look r) := by
  refine .bind Desk.look_leaves_ledger fun seen => ?_
  split
  · exact .bind (fun _ => rfl) fun _ => .pure _
  · exact .pure _

/-- A look that does not mark the result leaves it as it was. -/
theorem look_fst (g : Generator) {r : GenerationResult} {d : Desk}
    (h : (g.look r d).1.cancelled = false) : (g.look r d).1 = r := by
  cases hseen : (Desk.look g.surroundings d).1 && !r.cancelled with
  | true =>
    simp only [look, Desk.bind_apply, hseen, if_true] at h
    cases h
  | false =>
    simp only [look, Desk.bind_apply, hseen, Bool.false_eq_true, if_false, Desk.pure_apply]

theorem header_leaves_ledger (g : Generator) (f : Focus) (text : String) (snippet : Bool) :
    Leaves Desk.ledger (g.header f text snippet) := by
  refine .bind (fun _ => rfl) fun built => ?_
  split
  · exact .pure _
  · exact .bind (complete_leaves_ledger rfl) fun _ => .pure _

theorem recordFailure_leaves_ledger (r : GenerationResult) (file reason : String) :
    Leaves Desk.ledger (recordFailure r file reason) :=
  .bind (fun _ => rfl) fun _ => .pure _

end Generator

end DocHeader

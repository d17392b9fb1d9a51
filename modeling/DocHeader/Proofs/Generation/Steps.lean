import DocHeader.Generation.Run

/-!
# The steps of a request

What each step of a request does to the desk: which steps get completed, and that the
cancellation signal is set just when one of them sets it. No step short of applying the
collected insertions touches the disk.

A request sees the signal only when it looks. So what counts is the last look, and what was
done between it and the end.

## Main definitions

* `Surroundings.signal` — the signal after some steps.
* `Desk.Follows` — a desk after some steps, with its disk as it was.
* `Desk.LastLook` — what the last look saw, and the steps after it.
-/

namespace DocHeader

/-- Whether the signal is set after `steps`, when it was `set` after the steps `past`. -/
def Surroundings.signal (s : Surroundings) (past : List Event) (set : Bool) : List Event → Bool
  | [] => set
  | e :: rest => s.signal (past ++ [e]) (set || s.cancelsAfter e ((past ++ [e]).count e)) rest

theorem Surroundings.signal_append (s : Surroundings) (past : List Event) (set : Bool)
    (a b : List Event) :
    s.signal past set (a ++ b) = s.signal (past ++ a) (s.signal past set a) b := by
  induction a generalizing past set with
  | nil => simp [signal]
  | cons e rest ih => simp [signal, ih]

namespace Desk

variable {s : Surroundings} {d d' d'' : Desk} {a b gap : List Event} {seen : Bool}

/-- Whether the signal is set when some steps were completed from a desk on. -/
def signalAfter (s : Surroundings) (d : Desk) (steps : List Event) : Bool :=
  s.signal d.events d.cancelled steps

/-- A desk after some steps, with its disk as it was. -/
structure Follows (s : Surroundings) (d : Desk) (steps : List Event) (d' : Desk) : Prop where
  disk : d'.disk = d.disk
  events : d'.events = d.events ++ steps
  cancelled : d'.cancelled = d.signalAfter s steps

/-- The last look of some steps found the signal set as `seen` says, and the steps `gap`
came after it. -/
def LastLook (s : Surroundings) (d : Desk) (steps gap : List Event) (seen : Bool) : Prop :=
  ∃ before, steps = before ++ .look :: gap ∧ d.signalAfter s before = seen

theorem Follows.refl (s : Surroundings) (d : Desk) : d.Follows s [] d :=
  ⟨rfl, (List.append_nil _).symm, rfl⟩

/-- The signal after steps on a later desk, as seen from an earlier one. -/
theorem Follows.signalAfter_eq (h : d.Follows s a d') (b : List Event) :
    d'.signalAfter s b = d.signalAfter s (a ++ b) := by
  rw [signalAfter, signalAfter, Surroundings.signal_append, h.events, h.cancelled, signalAfter]

theorem Follows.trans (h : d.Follows s a d') (h' : d'.Follows s b d'') :
    d.Follows s (a ++ b) d'' where
  disk := h'.disk.trans h.disk
  events := by rw [h'.events, h.events, List.append_assoc]
  cancelled := by rw [h'.cancelled, h.signalAfter_eq]

/-- The look that comes last stays so when steps come before. -/
theorem LastLook.of_follows (h : d.Follows s a d') (hlook : d'.LastLook s b gap seen) :
    d.LastLook s (a ++ b) gap seen := by
  obtain ⟨before, rfl, hseen⟩ := hlook
  exact ⟨a ++ before, by simp, by rw [← h.signalAfter_eq, hseen]⟩

/-- Steps that come after the last look widen the gap. -/
theorem LastLook.append (hlook : d.LastLook s a gap seen) (b : List Event) :
    d.LastLook s (a ++ b) (gap ++ b) seen := by
  obtain ⟨before, rfl, hseen⟩ := hlook
  exact ⟨before, by simp, hseen⟩

theorem LastLook.single (h : d.cancelled = seen) : d.LastLook s [.look] [] seen := ⟨[], rfl, h⟩

/-! ## Steps -/

theorem cancel_spec (d : Desk) : (cancel d).2.disk = d.disk ∧ (cancel d).2.events = d.events ∧
    (cancel d).2.cancelled = true := by
  cases hset : d.cancelled <;> simp [cancel, bind_apply, hset]

theorem complete_follows (s : Surroundings) (e : Event) (d : Desk) :
    d.Follows s [e] (complete s e d).2 := by
  cases hsets : s.cancelsAfter e ((d.events ++ [e]).count e) with
  | true =>
    obtain ⟨hdisk, hevents, hcancelled⟩ := cancel_spec { d with events := d.events ++ [e] }
    simp only [complete, bind_apply, modify_apply, get_apply, hsets, if_true]
    exact ⟨hdisk, hevents, by
      simp only [hcancelled, signalAfter, Surroundings.signal, hsets, Bool.or_true]⟩
  | false =>
    simp only [complete, bind_apply, modify_apply, get_apply, hsets, Bool.false_eq_true, if_false,
      pure_apply]
    exact ⟨rfl, rfl, by simp only [signalAfter, Surroundings.signal, hsets, Bool.or_false]⟩

/-- What else changes at the desk does not matter for what follows. -/
theorem Follows.of_eq (h : d'.Follows s a d'') (hdisk : d'.disk = d.disk)
    (hevents : d'.events = d.events) (hcancelled : d'.cancelled = d.cancelled) :
    d.Follows s a d'' where
  disk := h.disk.trans hdisk
  events := by rw [h.events, hevents]
  cancelled := by rw [h.cancelled, signalAfter, signalAfter, hevents, hcancelled]

theorem report_follows (s : Surroundings) (e : Event) (step : Meter → String × Meter) (d : Desk) :
    d.Follows s [e] (report s e step d).2 :=
  (complete_follows s e _).of_eq rfl rfl rfl

theorem begin_follows (s : Surroundings) (total : Nat) (title : String) (d : Desk) :
    d.Follows s [.begin] (begin s total title d).2 :=
  report_follows s .begin _ d

theorem advance_follows (s : Surroundings) (message : String) (d : Desk) :
    d.Follows s [.advance] (advance s message d).2 :=
  report_follows s .advance _ d

theorem note_follows (s : Surroundings) (level : LogLevel) (message : String) (d : Desk) :
    d.Follows s [] (note level message d).2 :=
  (Follows.refl s _).of_eq rfl rfl rfl

theorem onExchange_follows {α : Type} (s : Surroundings) (work : Logged Exchange α) (d : Desk) :
    d.Follows s [] (onExchange work d).2 :=
  (Follows.refl s _).of_eq rfl rfl rfl

/-- A look at the signal. -/
theorem look_spec (s : Surroundings) (d : Desk) :
    (look s d).1 = d.cancelled ∧ d.Follows s [.look] (look s d).2 :=
  ⟨rfl, complete_follows s .look d⟩

theorem readText_cases (s : Surroundings) (file : String) (d : Desk) :
    (∃ text d', readText s file d = (.ok text, d') ∧ d.Follows s [.read] d') ∨
    ∃ e d', readText s file d = (.error e, d') ∧ d.Follows s [.unread] d' := by
  cases hread : d.disk.tree.read s.here file with
  | ok text =>
    refine .inl ⟨text, (complete s .read d).2, ?_, complete_follows s .read d⟩
    simp only [readText, bind_apply, get_apply, hread, pure_apply]
  | error e =>
    refine .inr ⟨e, (complete s .unread d).2, ?_, complete_follows s .unread d⟩
    simp only [readText, bind_apply, get_apply, hread, pure_apply]

theorem parse_cases (s : Surroundings) (file text : String) (d : Desk) :
    (∃ root d', parse s file text d = (.ok root, d') ∧ d.Follows s [.parse] d') ∨
    ∃ e d', parse s file text d = (.error e, d') ∧ d.Follows s [.unparsed] d' := by
  have hfollows (e : Event) :
      d.Follows s [e] (complete s e { d with parsed := d.parsed ++ [file] }).2 :=
    (complete_follows s e _).of_eq rfl rfl rfl
  cases htree : (s.helper d.parsed file text).parse file text with
  | ok root =>
    refine .inl ⟨root, _, ?_, hfollows .parse⟩
    simp only [parse, bind_apply, get_apply, modify_apply, htree, pure_apply]
  | error e =>
    refine .inr ⟨e, _, ?_, hfollows .unparsed⟩
    simp only [parse, bind_apply, get_apply, modify_apply, htree, pure_apply]

end Desk

namespace Generator

open Desk

variable {g : Generator} {d : Desk}

/-- A look marks the result just when the signal is set. -/
theorem look_cases (g : Generator) {r : GenerationResult} (hr : r.cancelled = false) (d : Desk) :
    (d.cancelled = true ∧ ∃ d', g.look r d = ({ r with cancelled := true }, d') ∧
      d.Follows g.surroundings [.look] d') ∨
    (d.cancelled = false ∧ ∃ d', g.look r d = (r, d') ∧ d.Follows g.surroundings [.look] d') := by
  obtain ⟨hseen, hfollows⟩ := look_spec g.surroundings d
  cases hset : d.cancelled with
  | true =>
    have hlook : g.look r d = ({ r with cancelled := true },
        (note .info ("Generation cancelled after " ++ toString r.generated ++ " header(s)")
          (Desk.look g.surroundings d).2).2) := by
      simp only [look, Desk.bind_apply, hseen, hset, hr, Bool.not_false, Bool.and_true, if_true,
        Desk.pure_apply]
    exact .inl ⟨rfl, _, hlook, hfollows.trans (note_follows _ .info _ _)⟩
  | false =>
    have hlook : g.look r d = (r, (Desk.look g.surroundings d).2) := by
      simp only [look, Desk.bind_apply, hseen, hset, Bool.false_and, Bool.false_eq_true, if_false,
        Desk.pure_apply]
    exact .inr ⟨rfl, _, hlook, hfollows⟩

theorem header_cases (g : Generator) (f : Focus) (text : String) (snippet : Bool) (d : Desk) :
    (∃ header d', g.header f text snippet d = (.ok header, d') ∧
      d.Follows g.surroundings [.build] d') ∨
    ∃ e d', g.header f text snippet d = (.error e, d') ∧ d.Follows g.surroundings [] d' := by
  have hfollows := onExchange_follows g.surroundings (g.builder.attempt f snippet) d
  rcases hbuild : onExchange (g.builder.attempt f snippet) d with ⟨e | draft, d'⟩
  · rw [hbuild] at hfollows
    refine .inr ⟨e, d', ?_, hfollows⟩
    simp only [header, Desk.bind_apply, hbuild, Desk.pure_apply]
  · rw [hbuild] at hfollows
    refine .inl ⟨g.written draft f text snippet, (complete g.surroundings .build d').2, ?_,
      hfollows.trans (complete_follows g.surroundings .build d')⟩
    simp only [header, Desk.bind_apply, hbuild, Desk.pure_apply]

end Generator

end DocHeader

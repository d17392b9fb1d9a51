import DocHeader.Proofs.Generation.Turns

/-!
# The course of a request

What a request may do step by step, as far as its looks at the cancellation signal and the
headers it builds are concerned. A look that finds the signal set ends the course. Each build
is followed by a look at once, and when that finds the signal set, the header is dropped.

What a header waits for is told by the steps since the last look. Only some of these lead up to
a build, which makes out how late the signal can be set and still not be seen.

## Main definitions

* `Desk.Completes` — a desk after some steps.
* `Course` — the steps of a part of a request.
* `Desk.Since` — the steps since the last look.
-/

namespace DocHeader

/-- The signal stays set. -/
theorem Surroundings.signal_of_set (s : Surroundings) (past steps : List Event) :
    s.signal past true steps = true := by
  induction steps generalizing past with
  | nil => rfl
  | cons e rest ih =>
    rw [signal, Bool.true_or]
    exact ih _

namespace Desk

variable {s : Surroundings} {d d' d'' : Desk} {a b : List Event}

theorem signalAfter_append_of_set (hset : d.signalAfter s a = true) (b : List Event) :
    d.signalAfter s (a ++ b) = true := by
  rw [signalAfter] at hset
  rw [signalAfter, Surroundings.signal_append, hset, Surroundings.signal_of_set]

/-- A desk after some steps, whatever else has changed. -/
structure Completes (s : Surroundings) (d : Desk) (steps : List Event) (d' : Desk) : Prop where
  events : d'.events = d.events ++ steps
  cancelled : d'.cancelled = d.signalAfter s steps

theorem Follows.completes (h : d.Follows s a d') : d.Completes s a d' := ⟨h.events, h.cancelled⟩

theorem Completes.of_idle (hevents : d'.events = d.events)
    (hcancelled : d'.cancelled = d.cancelled) : d.Completes s [] d' :=
  ⟨by simp [hevents], hcancelled⟩

theorem Completes.signalAfter_eq (h : d.Completes s a d') (b : List Event) :
    d'.signalAfter s b = d.signalAfter s (a ++ b) := by
  rw [signalAfter, signalAfter, Surroundings.signal_append, h.events, h.cancelled, signalAfter]

theorem Completes.trans (h : d.Completes s a d') (h' : d'.Completes s b d'') :
    d.Completes s (a ++ b) d'' where
  events := by rw [h'.events, h.events, List.append_assoc]
  cancelled := by rw [h'.cancelled, h.signalAfter_eq]

/-- What else has changed at the desk does not matter. -/
theorem Completes.of_eq (h : d'.Completes s a d'') (hevents : d'.events = d.events)
    (hcancelled : d'.cancelled = d.cancelled) : d.Completes s a d'' where
  events := by rw [h.events, hevents]
  cancelled := by rw [h.cancelled, signalAfter, signalAfter, hevents, hcancelled]

/-- There is a desk between two groups of steps. -/
theorem Completes.split (h : d.Completes s (a ++ b) d') :
    ∃ d₁, d.Completes s a d₁ ∧ d₁.Completes s b d' := by
  let d₁ : Desk := { d with events := d.events ++ a, cancelled := d.signalAfter s a }
  have hfirst : d.Completes s a d₁ := ⟨rfl, rfl⟩
  refine ⟨d₁, hfirst, ?_, ?_⟩
  · rw [h.events, ← List.append_assoc]
  · rw [h.cancelled, hfirst.signalAfter_eq]

/-- The steps since the last look, that look included, which found the signal not set. They are
all steps so far when there was no look. -/
def Since (s : Surroundings) (d : Desk) (past since : List Event) : Prop :=
  (since = past ∧ .look ∉ past) ∨
    ∃ earlier gap, past = earlier ++ .look :: gap ∧ since = .look :: gap ∧
      d.signalAfter s earlier = false

theorem Since.append {past since : List Event} (h : d.Since s past since) (ha : .look ∉ a) :
    d.Since s (past ++ a) (since ++ a) := by
  rcases h with ⟨rfl, hnone⟩ | ⟨earlier, gap, rfl, rfl, hclear⟩
  · exact .inl ⟨rfl, by simp [hnone, ha]⟩
  · exact .inr ⟨earlier, gap ++ a, by simp, by simp, hclear⟩

/-- A look starts anew. -/
theorem Since.look {past : List Event} (hclear : d.signalAfter s past = false) :
    d.Since s (past ++ [.look]) [.look] :=
  .inr ⟨past, [], rfl, rfl, hclear⟩

end Desk

/-- How far a request has come. -/
structure Stage where
  desk : Desk
  /-- The steps since the last look. -/
  since : List Event := []
  /-- The number of headers that were built and not dropped. -/
  kept : Nat := 0

/-- How a part of a request ended. -/
inductive Ending where
  | running
  /-- A look found the signal set. -/
  | stopped
  /-- The look after a build found the signal set. -/
  | dropped
  deriving DecidableEq, Repr

open Desk in
/-- The steps of a part of a request. `allowed` says what may come before a build, since the
last look. -/
inductive Course (s : Surroundings) (allowed : List (List Event)) :
    Stage → List Event → Stage → Ending → Prop where
  | done {st : Stage} : Course s allowed st [] st .running
  | passed {st st' : Stage} {d : Desk} {a steps : List Event} {ending : Ending}
    (hlook : .look ∉ a) (hbuild : .build ∉ a) (h : st.desk.Completes s a d)
    (hrest : Course s allowed ⟨d, st.since ++ a, st.kept⟩ steps st' ending) :
    Course s allowed st (a ++ steps) st' ending
  | looked {st st' : Stage} {d : Desk} {steps : List Event} {ending : Ending}
    (hclear : st.desk.cancelled = false) (h : st.desk.Completes s [.look] d)
    (hrest : Course s allowed ⟨d, [.look], st.kept⟩ steps st' ending) :
    Course s allowed st (.look :: steps) st' ending
  | stopped {st : Stage} {d : Desk} (hset : st.desk.cancelled = true)
    (h : st.desk.Completes s [.look] d) :
    Course s allowed st [.look] ⟨d, [.look], st.kept⟩ .stopped
  | built {st st' : Stage} {d d' : Desk} {steps : List Event} {ending : Ending}
    (hallowed : st.since ∈ allowed) (h : st.desk.Completes s [.build] d)
    (hclear : d.cancelled = false) (hlook : d.Completes s [.look] d')
    (hrest : Course s allowed ⟨d', [.look], st.kept + 1⟩ steps st' ending) :
    Course s allowed st (.build :: .look :: steps) st' ending
  | dropped {st : Stage} {d d' : Desk} (hallowed : st.since ∈ allowed)
    (h : st.desk.Completes s [.build] d) (hset : d.cancelled = true)
    (hlook : d.Completes s [.look] d') :
    Course s allowed st [.build, .look] ⟨d', [.look], st.kept⟩ .dropped

namespace Course

open Desk

variable {s : Surroundings} {allowed : List (List Event)} {st st₁ st' : Stage}
  {a b steps before after past : List Event} {ending : Ending} {d : Desk}

/-- A part that is not ended goes on. -/
theorem trans (h : Course s allowed st a st₁ .running) (h' : Course s allowed st₁ b st' ending) :
    Course s allowed st (a ++ b) st' ending := by
  generalize hrunning : Ending.running = first at h
  induction h with
  | done => exact h'
  | passed hlook hbuild hpassed _ ih =>
    rw [List.append_assoc]
    exact .passed hlook hbuild hpassed (ih h' hrunning)
  | looked hclear hlooked _ ih => exact .looked hclear hlooked (ih h' hrunning)
  | built hallowed hbuilt hclear hlooked _ ih =>
    exact .built hallowed hbuilt hclear hlooked (ih h' hrunning)
  | stopped => cases hrunning
  | dropped => cases hrunning

theorem completes (h : Course s allowed st steps st' ending) :
    st.desk.Completes s steps st'.desk := by
  induction h with
  | done => exact ⟨(List.append_nil _).symm, rfl⟩
  | passed _ _ hpassed _ ih => exact hpassed.trans ih
  | looked _ hlooked _ ih => exact hlooked.trans ih
  | built _ hbuilt _ hlooked _ ih => exact hbuilt.trans (hlooked.trans ih)
  | stopped _ hlooked => exact hlooked
  | dropped _ hbuilt _ hlooked => exact hbuilt.trans hlooked

/-- The steps since the last look at the end. -/
theorem since_spec (h : Course s allowed st steps st' ending) (hrunning : ending = .running)
    (hpast : d.Completes s past st.desk) (hsince : d.Since s past st.since) :
    d.Since s (past ++ steps) st'.since := by
  induction h generalizing past with
  | done => rwa [List.append_nil]
  | passed hlook _ hpassed _ ih =>
    rw [← List.append_assoc]
    exact ih hrunning (hpast.trans hpassed) (hsince.append hlook)
  | looked hclear hlooked _ ih =>
    rw [hpast.cancelled] at hclear
    simpa using ih hrunning (hpast.trans hlooked) (.look hclear)
  | built _ hbuilt hclear hlooked _ ih =>
    rw [(hpast.trans hbuilt).cancelled] at hclear
    simpa using ih hrunning ((hpast.trans hbuilt).trans hlooked) (.look hclear)
  | stopped => cases hrunning
  | dropped => cases hrunning

/-- What leads up to a build, and what comes of it. Since the last look, which found the signal
not set, only allowed steps were completed. When the signal is set by the end of the build, the
header is dropped and nothing follows but the look that finds it so. -/
theorem build_spec (h : Course s allowed st steps st' ending)
    (hpast : d.Completes s past st.desk) (hsince : d.Since s past st.since)
    (hsteps : steps = before ++ .build :: after) :
    (∃ since ∈ allowed, d.Since s (past ++ before) since) ∧
    (d.signalAfter s (past ++ before ++ [.build]) = true →
      after = [.look] ∧ ending = .dropped ∧ st'.kept = st.kept + before.count .build) := by
  -- The build is met at some step of the course. What came before that step moves from `before`
  -- to `past`, and `since` goes along with it.
  induction h generalizing past before with
  | done => simp at hsteps
  | @passed st st' d' a steps ending hlook hbuild hpassed _ ih =>
    have hbefore : ∃ rest, before = a ++ rest ∧ steps = rest ++ .build :: after := by
      obtain ⟨rest, hbefore, hrest⟩ | ⟨rest, ha, hrest⟩ := List.append_eq_append_iff.mp hsteps
      · exact ⟨rest, hbefore, hrest⟩
      · cases rest with
        | nil => exact ⟨[], by simpa using ha.symm, by simpa using hrest.symm⟩
        | cons e rest =>
          obtain ⟨rfl, -⟩ := List.cons.inj hrest
          exact absurd (by simp [ha]) hbuild
    obtain ⟨rest, rfl, hrest⟩ := hbefore
    obtain ⟨hleading, hdropped⟩ := ih (hpast.trans hpassed) (hsince.append hlook) hrest
    rw [List.append_assoc past] at hleading hdropped
    exact ⟨hleading, by simpa [List.count_eq_zero_of_not_mem hbuild] using hdropped⟩
  | @looked st st' d' steps ending hclear hlooked _ ih =>
    cases before with
    | nil => simp at hsteps
    | cons e rest =>
      obtain ⟨rfl, hrest⟩ := List.cons.inj hsteps
      rw [hpast.cancelled] at hclear
      obtain ⟨hleading, hdropped⟩ := ih (hpast.trans hlooked) (.look hclear) hrest
      rw [List.append_assoc past] at hleading hdropped
      exact ⟨hleading, by simpa using hdropped⟩
  | stopped =>
    cases before with
    | nil => simp at hsteps
    | cons e rest => simp at hsteps
  | @built st st' d' d'' steps ending hallowed hbuilt hclear hlooked _ ih =>
    rw [(hpast.trans hbuilt).cancelled] at hclear
    cases before with
    | nil =>
      rw [List.append_nil]
      refine ⟨⟨st.since, hallowed, hsince⟩, ?_⟩
      intro hset
      rw [hclear] at hset
      cases hset
    | cons e rest =>
      obtain ⟨rfl, hrest⟩ := List.cons.inj hsteps
      cases rest with
      | nil => simp at hrest
      | cons e rest =>
        obtain ⟨rfl, hlater⟩ := List.cons.inj hrest
        obtain ⟨hleading, hdropped⟩ :=
          ih ((hpast.trans hbuilt).trans hlooked) (.look hclear) hlater
        rw [List.append_assoc, List.append_assoc] at hleading hdropped
        refine ⟨hleading, ?_⟩
        intro hset
        obtain ⟨hafter, hending, hkept⟩ := hdropped (by simpa using hset)
        refine ⟨hafter, hending, ?_⟩
        rw [hkept]
        simp [Nat.add_assoc, Nat.add_comm 1]
  | @dropped st d' d'' hallowed hbuilt hset hlooked =>
    cases before with
    | nil =>
      obtain ⟨-, rfl⟩ := List.cons.inj hsteps
      rw [List.append_nil]
      exact ⟨⟨st.since, hallowed, hsince⟩, fun _ => ⟨rfl, rfl, rfl⟩⟩
    | cons e rest =>
      obtain ⟨-, hrest⟩ := List.cons.inj hsteps
      cases rest with
      | nil => simp at hrest
      | cons e rest => simp at hrest

end Course

end DocHeader

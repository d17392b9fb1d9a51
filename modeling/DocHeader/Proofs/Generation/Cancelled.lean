import DocHeader.Proofs.Generation.Collected

/-!
# Cancellation

A request for more than one declaration stops when a look finds the cancellation signal set:
its result is marked, and no file changes. The last look need not be the last step, though.
A file that cannot be read or parsed or that has nothing to document gets no look of its own,
nor does the last report of progress. When the signal is set there, the request goes on to
apply what it collected.

## Main definitions

* `Generator.Stopped` — the outcome of a request that was cancelled.
-/

namespace DocHeader

namespace Generator

open Desk

/-- A request was cancelled: its result is marked, and the disk is as it was. -/
def Stopped (d : Desk) (r : GenerationResult) (d' : Desk) : Prop :=
  r.cancelled = true ∧ r.applied = false ∧ d'.disk = d.disk

/-- **A request stops when its last look finds the signal set.** Whatever the files hold,
and whenever the signal is set while headers are collected, a request that is given up
leaves the disk alone. Any other request stops just when the signal was set before its last
look, and then it stops there. After a last look that found nothing, only few steps are
left, and none of them is a look; a signal set by one of them is not seen. A request for one
file that cannot be read does not look at all. -/
theorem generate_stops_iff_seen (g : Generator) (t : Target) (d : Desk) :
    match g.generate t d with
    | (.error _, d') => d'.disk = d.disk
    | (.ok r, d') => ∃ steps, d'.events = d.events ++ steps ∧
        d'.cancelled = d.signalAfter g.surroundings steps ∧
        ((steps ∈ t.blind ∧ ¬Stopped d r d') ∨
          ∃ before gap, steps = before ++ .look :: gap ∧
            (Stopped d r d' ↔ d.signalAfter g.surroundings before = true) ∧
            ((Stopped d r d' ∧ gap = []) ∨ (¬Stopped d r d' ∧ gap ∈ t.gaps))) := by
  have hphase := collect_phase g t d
  rcases generate_cases g t d with
    ⟨e, d', hcollect, hgenerate⟩ | ⟨c, d', hcollect, -, hgenerate⟩ | ⟨c, d₁, hcollect, hgenerate⟩
  iterate 2
    · rw [hcollect] at hphase
      rw [hgenerate]
      exact hphase.disk_eq
  · rw [hcollect] at hphase
    rw [hgenerate]
    cases hphase with
    | ok hsteps hgrows hends =>
    obtain ⟨hmark, hevents, hcancelled⟩ := finish_spec g c d₁
    have hstopped : Stopped d (g.finish c d₁).1 (g.finish c d₁).2 ↔ c.result.cancelled = true := by
      refine ⟨fun h => hmark ▸ h.1, fun hset => ?_⟩
      rw [finish_of_idle g d₁ (.inl hset)]
      exact ⟨hset, hgrows.applied, hsteps.disk⟩
    refine ⟨_, hevents.trans hsteps.events, hcancelled.trans hsteps.cancelled, ?_⟩
    rcases hends with ⟨hseen, hblind⟩ | ⟨gap, ⟨before, hcut, hseen⟩, hgap⟩
    · exact .inl ⟨hblind, by simp [hstopped, hseen]⟩
    · refine .inr ⟨before, gap, hcut, by rw [hstopped, hseen], ?_⟩
      rw [hstopped]
      cases hset : c.result.cancelled <;> rw [hset] at hgap
      · exact .inr ⟨by simp, hgap⟩
      · exact .inl ⟨rfl, hgap⟩

/-- The syntax tree of a file with one enumeration. -/
def enumeration : Json :=
  .object
    [("kind", .string "SourceFile"), ("start", .ofInt 0), ("end", .ofInt 1),
      ("children", .array [.object
        [("kind", .string "EnumDeclaration"), ("start", .ofInt 0), ("end", .ofInt 1)]])]

/-- A disk with one file. -/
def oneFile : Desk := { disk := { tree := ⟨[(["a.ts"], .file (.text "e"))]⟩ } }

/-- Headers without descriptions, for files with one enumeration. -/
def documenting (cancelsAfter : Event → Nat → Bool) : Generator where
  surroundings := { helper := fun _ _ _ => .finished enumeration.compact "" 0, cancelsAfter }
  builder := ⟨{}, .blank "", { year := 2024, month := 1, day := 1 }⟩
  writer := ⟨[], [], {}⟩

/-- When the signal is set by the last report of progress, before anything is applied, the
headers are applied all the same. -/
theorem applies_after_last_report :
    ((documenting fun e _ => e == .advance).generate (.file "a.ts") oneFile).1.toOption =
      some { scope := .file, generated := 1, cancelled := false, applied := true,
             filesProcessed := 1 } ∧
    ((documenting fun e _ => e == .advance).generate (.file "a.ts") oneFile).2.events =
      [.read, .look, .parse, .begin, .build, .look, .advance] ∧
    ((documenting fun e _ => e == .advance).generate (.file "a.ts") oneFile).2.cancelled = true ∧
    ((documenting fun e _ => e == .advance).generate (.file "a.ts") oneFile).2.disk.tree.find?
      ["a.ts"] = some (.file (.text "/**\n * @enum \x7bnumber\x7d\n */\ne")) := by
  decide +kernel

end Generator

end DocHeader

import DocHeader.Glob.Braces
import DocHeader.Proofs.Text.Splitting

/-!
# Expanding groups

The groups of a glob are expanded one after the other, and each of them takes its braces with it.
So there is an end to it, however many expansions are allowed for, and no group is left.

## Main definitions

* `Glob.inBraces` — a group as it is written.
* `Glob.expansions` — all globs that a glob is expanded to.

## Main statements

* `Glob.expanding` — induction over the expansion of a glob.
* `Glob.expansions_of_some`, `Glob.expansions_of_none` — one step of the expansion.
* `Glob.ne_of_mem_expansions` — no group is left.
-/

namespace DocHeader.Glob

/-- A group as it is written. -/
def inBraces (inside : List Char) : List Char := '\x7b' :: (inside ++ ['\x7d'])

/-- A text without braces. -/
def IsUnbraced (cs : List Char) : Prop := ∀ c ∈ cs, isBrace c = false

variable {c : Char} {cs glob before inside after alternative : List Char}

/-! ## Texts without braces -/

namespace IsUnbraced

theorem nil : IsUnbraced [] := List.forall_mem_nil _

theorem cons (hc : isBrace c = false) (h : IsUnbraced cs) : IsUnbraced (c :: cs) :=
  List.forall_mem_cons.mpr ⟨hc, h⟩

theorem notMem (h : IsUnbraced cs) (hc : isBrace c = true) : c ∉ cs := fun hmem => by
  rw [h c hmem] at hc
  cases hc

/-- The pieces of a text without braces have none either. -/
theorem of_mem_splitOn (h : IsUnbraced inside) (hmem : alternative ∈ inside.splitOn ',') :
    IsUnbraced alternative := fun c hc => h c ((sublist_of_mem_splitOn ',' inside _ hmem).mem hc)

end IsUnbraced

theorem isBrace_eq_false : isBrace c = false ↔ c ≠ '\x7b' ∧ c ≠ '\x7d' := by
  simp [isBrace]

/-! ## The first group -/

theorem closeGroup?_eq_some :
    closeGroup? cs = some (inside, after) ↔ cs = inside ++ '\x7d' :: after ∧ IsUnbraced inside := by
  constructor
  · intro h
    unfold closeGroup? at h
    split at h
    next behind hdrop =>
      obtain ⟨rfl, rfl⟩ := Prod.mk.inj (Option.some.inj h)
      refine ⟨?_, fun c hc => by simpa using List.all_eq_true.mp List.all_takeWhile c hc⟩
      rw [← hdrop, List.takeWhile_append_dropWhile]
    next => cases h
  · rintro ⟨rfl, hfree⟩
    have hstop : ∀ c ∈ inside, (!isBrace c) = true := fun c hc => by simp [hfree c hc]
    have hbrace : isBrace '\x7d' = true := rfl
    rw [closeGroup?, List.dropWhile_append_of_pos hstop, List.takeWhile_append_of_pos hstop]
    simp [hbrace]

/-- A group begins a text, or it is found behind the first character. -/
theorem firstGroup?_cons : firstGroup? (c :: cs) =
    if c = '\x7b' ∧ (closeGroup? cs).isSome then
      (closeGroup? cs).map fun (inside, after) => ([], inside, after)
    else (firstGroup? cs).map fun (before, rest) => (c :: before, rest) := by
  by_cases hc : c = '\x7b'
  · cases hclose : closeGroup? cs <;> simp [firstGroup?, hc, hclose]
  · simp [firstGroup?, hc]

/-- What is found is a group, and no other group is inside. -/
theorem eq_of_firstGroup? (h : firstGroup? glob = some (before, inside, after)) :
    glob = before ++ inBraces inside ++ after ∧ IsUnbraced inside := by
  induction glob generalizing before with
  | nil => cases h
  | cons c cs ih =>
    rw [firstGroup?_cons] at h
    split at h
    next hopens =>
      obtain ⟨⟨_, _⟩, hclose, heq⟩ := Option.map_eq_some_iff.mp h
      obtain ⟨rfl, rfl, rfl⟩ := heq
      obtain ⟨rfl, hfree⟩ := closeGroup?_eq_some.mp hclose
      exact ⟨by simp [inBraces, hopens.1], hfree⟩
    next =>
      obtain ⟨⟨_, _, _⟩, hfirst, heq⟩ := Option.map_eq_some_iff.mp h
      obtain ⟨rfl, rfl, rfl⟩ := heq
      obtain ⟨rfl, hfree⟩ := ih hfirst
      exact ⟨rfl, hfree⟩

/-- A group without a group inside is found at the beginning of a text. -/
theorem firstGroup?_inBraces (h : IsUnbraced inside) (after : List Char) :
    firstGroup? (inBraces inside ++ after) = some ([], inside, after) := by
  have hclose : closeGroup? (inside ++ '\x7d' :: after) = some (inside, after) :=
    closeGroup?_eq_some.mpr ⟨rfl, h⟩
  have hwhole : inBraces inside ++ after = '\x7b' :: (inside ++ '\x7d' :: after) := by
    simp [inBraces]
  simp [hwhole, firstGroup?_cons, hclose]

/-- What holds no opening brace is passed over. -/
theorem firstGroup?_append (h : '\x7b' ∉ cs) (glob : List Char) :
    firstGroup? (cs ++ glob) =
      (firstGroup? glob).map fun (before, rest) => (cs ++ before, rest) := by
  induction cs with
  | nil => simp
  | cons c cs ih =>
    rw [List.mem_cons, not_or] at h
    rw [List.cons_append, firstGroup?_cons, if_neg fun hopens => h.1 hopens.1.symm, ih h.2,
      Option.map_map]
    rfl

theorem isSome_firstGroup?_cons (c : Char) (h : (firstGroup? cs).isSome) :
    (firstGroup? (c :: cs)).isSome := by
  rw [firstGroup?_cons]
  split
  next hopens => simpa using hopens.2
  next => simpa using h

/-- Behind an opening brace and a text without braces there is a group, when any closing brace
follows: the group of this opening brace, or that of another one behind it. -/
theorem isSome_firstGroup?_of_closing (h : IsUnbraced cs) (inside after : List Char) :
    (firstGroup? ('\x7b' :: (cs ++ (inside ++ '\x7d' :: after)))).isSome := by
  induction inside generalizing cs with
  | nil =>
    have hwhole : '\x7b' :: (cs ++ ([] ++ '\x7d' :: after)) = inBraces cs ++ after := by
      simp [inBraces]
    rw [hwhole, firstGroup?_inBraces h]
    rfl
  | cons c inside ih =>
    by_cases hopens : c = '\x7b'
    · subst hopens
      refine isSome_firstGroup?_cons _ ?_
      rw [firstGroup?_append (h.notMem rfl), Option.isSome_map]
      exact ih .nil
    by_cases hcloses : c = '\x7d'
    · subst hcloses
      have hwhole : '\x7b' :: (cs ++ ('\x7d' :: inside ++ '\x7d' :: after)) =
          inBraces cs ++ (inside ++ '\x7d' :: after) := by simp [inBraces]
      rw [hwhole, firstGroup?_inBraces h]
      rfl
    · have hlonger : IsUnbraced (cs ++ [c]) :=
        List.forall_mem_append.mpr
          ⟨h, List.forall_mem_singleton.mpr (isBrace_eq_false.mpr ⟨hopens, hcloses⟩)⟩
      simpa using ih hlonger

/-- A group is found, whatever it holds and wherever it stands. -/
theorem isSome_firstGroup? (before inside after : List Char) :
    (firstGroup? (before ++ inBraces inside ++ after)).isSome := by
  induction before with
  | nil => simpa [inBraces] using isSome_firstGroup?_of_closing .nil inside after
  | cons c before ih => exact isSome_firstGroup?_cons c ih

/-- When nothing is found, no opening brace has a closing one behind it. -/
theorem ne_of_firstGroup? (h : firstGroup? glob = none) (before inside after : List Char) :
    glob ≠ before ++ inBraces inside ++ after := by
  rintro rfl
  have hsome := isSome_firstGroup? before inside after
  rw [h] at hsome
  cases hsome

/-! ## Expansion -/

/-- All globs that a glob is expanded to. -/
def expansions (glob : List Char) : List (List Char) := expandWith (glob.count '\x7b') glob

theorem expandBraces_eq (glob : String) :
    expandBraces glob = (expansions glob.toList).map String.ofList := rfl

/-- An alternative takes the place of a group without its braces. -/
theorem count_expanded (h : firstGroup? glob = some (before, inside, after))
    (hmem : alternative ∈ inside.splitOn ',') :
    (before ++ alternative ++ after).count '\x7b' < glob.count '\x7b' := by
  obtain ⟨rfl, hfree⟩ := eq_of_firstGroup? h
  have halternative := List.count_eq_zero.mpr ((hfree.of_mem_splitOn hmem).notMem (c := '\x7b') rfl)
  simp only [inBraces, List.count_append, List.count_cons_self, halternative]
  omega

/-- Induction over the expansion of a glob: nothing is found, or what holds once the first group is
expanded holds with the group. -/
@[elab_as_elim]
theorem expanding {P : List Char → Prop} (done : ∀ glob, firstGroup? glob = none → P glob)
    (step : ∀ glob before inside after, firstGroup? glob = some (before, inside, after) →
      (∀ alternative ∈ inside.splitOn ',', P (before ++ alternative ++ after)) → P glob)
    (glob : List Char) : P glob := by
  induction hn : glob.count '\x7b' using Nat.strongRecOn generalizing glob with
  | _ n ih =>
    subst hn
    cases hfirst : firstGroup? glob with
    | none => exact done glob hfirst
    | some group =>
      obtain ⟨before, inside, after⟩ := group
      exact step glob before inside after hfirst fun alternative hmem =>
        ih _ (count_expanded hfirst hmem) _ rfl

theorem expandWith_of_none (h : firstGroup? glob = none) (fuel : Nat) :
    expandWith fuel glob = [glob] := by
  cases fuel with
  | zero => rfl
  | succ fuel => rw [expandWith, h]

/-- It does not matter how many expansions are allowed for, when there are enough. -/
theorem expandWith_eq {fuel fuel' : Nat} (h : glob.count '\x7b' ≤ fuel)
    (h' : glob.count '\x7b' ≤ fuel') : expandWith fuel glob = expandWith fuel' glob := by
  induction glob using expanding generalizing fuel fuel' with
  | done glob hnone => rw [expandWith_of_none hnone, expandWith_of_none hnone]
  | step glob before inside after hfirst ih =>
    have hopening : 0 < glob.count '\x7b' := by
      obtain ⟨rfl, -⟩ := eq_of_firstGroup? hfirst
      exact List.count_pos_iff.mpr (by simp [inBraces])
    obtain ⟨n, rfl⟩ := Nat.exists_eq_add_one_of_ne_zero (show fuel ≠ 0 by omega)
    obtain ⟨n', rfl⟩ := Nat.exists_eq_add_one_of_ne_zero (show fuel' ≠ 0 by omega)
    rw [expandWith, expandWith, hfirst]
    refine List.flatMap_congr fun alternative hmem => ?_
    have hfewer := count_expanded hfirst hmem
    exact ih alternative hmem (by omega) (by omega)

/-- Without a group a glob stands for itself. -/
theorem expansions_of_none (h : firstGroup? glob = none) : expansions glob = [glob] :=
  expandWith_of_none h _

/-- The first group is expanded, then what comes out of it. -/
theorem expansions_of_some (h : firstGroup? glob = some (before, inside, after)) :
    expansions glob = (inside.splitOn ',').flatMap fun alternative =>
      expansions (before ++ alternative ++ after) := by
  have hfuel : expansions glob = expandWith (glob.count '\x7b' + 1) glob :=
    expandWith_eq (Nat.le_refl _) (Nat.le_succ _)
  rw [hfuel, expandWith, h]
  refine List.flatMap_congr fun alternative hmem => ?_
  exact expandWith_eq (Nat.le_of_lt (count_expanded h hmem)) (Nat.le_refl _)

/-- No group is left when everything is expanded. -/
theorem ne_of_mem_expansions {result : List Char} (h : result ∈ expansions glob)
    (before inside after : List Char) : result ≠ before ++ inBraces inside ++ after := by
  induction glob using expanding with
  | done glob hnone =>
    obtain rfl := List.mem_singleton.mp (expansions_of_none hnone ▸ h)
    exact ne_of_firstGroup? hnone before inside after
  | step glob _ _ _ hfirst ih =>
    rw [expansions_of_some hfirst] at h
    obtain ⟨alternative, hmem, h⟩ := List.mem_flatMap.mp h
    exact ih alternative hmem h

/-- What holds no opening brace stays in front of the results. -/
theorem expansions_append (h : '\x7b' ∉ cs) (glob : List Char) :
    expansions (cs ++ glob) = (expansions glob).map (cs ++ ·) := by
  induction glob using expanding with
  | done glob hnone =>
    have hboth : firstGroup? (cs ++ glob) = none := by rw [firstGroup?_append h, hnone]; rfl
    rw [expansions_of_none hnone, expansions_of_none hboth]
    rfl
  | step glob before inside after hfirst ih =>
    have hboth : firstGroup? (cs ++ glob) = some (cs ++ before, inside, after) := by
      rw [firstGroup?_append h, hfirst]
      rfl
    rw [expansions_of_some hfirst, expansions_of_some hboth, List.map_flatMap]
    refine List.flatMap_congr fun alternative hmem => ?_
    rw [← ih alternative hmem]
    simp only [List.append_assoc]

/-- A group at the beginning is expanded to each of its alternatives, before everything else. -/
theorem expansions_inBraces (h : IsUnbraced inside) (after : List Char) :
    expansions (inBraces inside ++ after) = (inside.splitOn ',').flatMap fun alternative =>
      (expansions after).map (alternative ++ ·) := by
  rw [expansions_of_some (firstGroup?_inBraces h after)]
  refine List.flatMap_congr fun alternative hmem => ?_
  exact expansions_append ((h.of_mem_splitOn hmem).notMem rfl) after

end DocHeader.Glob

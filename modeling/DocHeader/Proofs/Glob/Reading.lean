import DocHeader.Proofs.Glob.Balanced
import Mathlib.Data.List.Forall2

/-!
# What a glob with groups stands for

When its braces are balanced a glob can be read without expanding anything: a group stands for
any one of its alternatives, which may hold groups again, and every other character stands for
itself. The expansion works from the inside to the outside, yet it gives just what is read. When
no group is inside another one it gives it in order.

## Main definitions

* `Glob.Stands` — what a glob stands for.
* `Glob.ExpandsIn` — expanding a group between two texts leaves what is read as it is.
* `Glob.Slots` — the choices that a glob without nested groups leaves.

## Main statements

* `Glob.stands_expanded` — the first group may be anywhere when it is expanded.
* `Glob.mem_expansions` — the expansion gives just what is read.
* `Glob.expansions_eq_choices` — without nested groups it gives all choices in order.
* `Glob.expandBraces_reading` — all that is known of the globs a glob stands for.
-/

namespace DocHeader.Glob

/-- What a glob stands for: a group for any one of its alternatives, every other character for
itself. -/
inductive Stands : List Char → List Char → Prop where
  | nil : Stands [] []
  | cons {c : Char} {cs result : List Char} (hc : isBrace c = false) (h : Stands cs result) :
    Stands (c :: cs) (c :: result)
  | group {inside after alternative chosen result : List Char} (hinside : IsBalanced inside)
    (hmem : alternative ∈ alternatives 0 inside) (hchosen : Stands alternative chosen)
    (h : Stands after result) : Stands ('\x7b' :: (inside ++ '\x7d' :: after)) (chosen ++ result)

variable {c : Char} {cs glob before inside after result : List Char}

/-! ## Reading -/

theorem stands_cons (hc : isBrace c = false) :
    Stands (c :: cs) result ↔ ∃ rest, Stands cs rest ∧ result = c :: rest := by
  constructor
  · intro h
    cases h with
    | cons _ h => exact ⟨_, h, rfl⟩
    | group => cases hc
  · rintro ⟨rest, h, rfl⟩
    exact .cons hc h

theorem stands_append (h : IsUnbraced cs) :
    Stands (cs ++ after) result ↔ ∃ rest, Stands after rest ∧ result = cs ++ rest := by
  induction cs generalizing result with
  | nil => simp
  | cons c cs ih =>
    obtain ⟨hc, hcs⟩ := List.forall_mem_cons.mp h
    rw [List.cons_append, stands_cons hc]
    constructor
    · rintro ⟨result, hresult, rfl⟩
      obtain ⟨rest, hrest, rfl⟩ := (ih hcs).mp hresult
      exact ⟨rest, hrest, rfl⟩
    · rintro ⟨rest, h, rfl⟩
      exact ⟨cs ++ rest, (ih hcs).mpr ⟨rest, h, rfl⟩, rfl⟩

theorem stands_nil : Stands [] result ↔ result = [] := by
  constructor
  · rintro ⟨⟩
    rfl
  · rintro rfl
    exact .nil

/-- A text without braces stands for itself. -/
theorem stands_of_isUnbraced (h : IsUnbraced cs) : Stands cs result ↔ result = cs := by
  have hself : Stands (cs ++ []) result ↔ _ := stands_append h
  simpa [stands_nil] using hself

/-- What a group is read as, together with what comes behind it. -/
def Chosen (after result alternative : List Char) : Prop :=
  ∃ chosen rest, Stands alternative chosen ∧ Stands after rest ∧ result = chosen ++ rest

theorem stands_group (h : IsBalanced inside) :
    Stands ('\x7b' :: (inside ++ '\x7d' :: after)) result ↔
    ∃ alternative ∈ alternatives 0 inside, Chosen after result alternative := by
  constructor
  · intro hstands
    generalize hglob : '\x7b' :: (inside ++ '\x7d' :: after) = glob at hstands
    cases hstands with
    | nil => cases hglob
    | cons hc =>
      obtain ⟨rfl, -⟩ := List.cons.inj hglob
      cases hc
    | group hinside hmem hchosen hafter =>
      obtain ⟨rfl, rfl⟩ := h.append_closing_inj hinside (List.cons_injective hglob)
      exact ⟨_, hmem, _, _, hchosen, hafter, rfl⟩
  · rintro ⟨alternative, hmem, chosen, rest, hchosen, hafter, rfl⟩
    exact .group h hmem hchosen hafter

/-- One alternative among others may be replaced by several, read as it is when taken together. -/
theorem exists_mem_replaced {P : List Char → Prop} {first last others : List (List Char)}
    {one : List Char} {replaced : List Char → List Char} (hsome : others ≠ [])
    (h : P one ↔ ∃ other ∈ others, P (replaced other)) :
    (∃ alternative ∈ first ++ one :: last, P alternative) ↔
      ∃ other ∈ others, ∃ alternative ∈ first ++ replaced other :: last, P alternative := by
  obtain ⟨some, hmem⟩ := List.exists_mem_of_ne_nil others hsome
  simp only [List.mem_append, List.mem_cons]
  constructor
  · rintro ⟨alternative, hfirst | rfl | hlast, hP⟩
    · exact ⟨some, hmem, alternative, .inl hfirst, hP⟩
    · obtain ⟨other, hother, hP⟩ := h.mp hP
      exact ⟨other, hother, _, .inr (.inl rfl), hP⟩
    · exact ⟨some, hmem, alternative, .inr (.inr hlast), hP⟩
  · rintro ⟨other, hother, alternative, hfirst | rfl | hlast, hP⟩
    · exact ⟨alternative, .inl hfirst, hP⟩
    · exact ⟨one, .inr (.inl rfl), h.mpr ⟨other, hother, hP⟩⟩
    · exact ⟨alternative, .inr (.inr hlast), hP⟩

/-- Between two texts it does not change what is read when a group is expanded. -/
def ExpandsIn (inside before after : List Char) : Prop := ∀ result,
  Stands (before ++ inBraces inside ++ after) result ↔
    ∃ alternative ∈ inside.splitOn ',', Stands (before ++ alternative ++ after) result

namespace ExpandsIn

theorem nil (hinside : IsUnbraced inside) : ExpandsIn inside [] after := by
  intro result
  rw [List.nil_append, inBraces_append, stands_group (.of_isUnbraced hinside),
    hinside.alternatives_eq]
  refine exists_congr fun alternative => and_congr_right fun hmem => ?_
  have hfree := hinside.of_mem_splitOn hmem
  rw [List.nil_append, stands_append hfree]
  simp only [Chosen, stands_of_isUnbraced hfree, exists_and_left, exists_eq_left]

theorem cons (hc : isBrace c = false) (h : ExpandsIn inside before after) :
    ExpandsIn inside (c :: before) after := by
  intro result
  simp only [List.cons_append, stands_cons hc, h _]
  constructor
  · rintro ⟨rest, ⟨alternative, hmem, hstands⟩, hresult⟩
    exact ⟨alternative, hmem, rest, hstands, hresult⟩
  · rintro ⟨alternative, hmem, rest, hstands, hresult⟩
    exact ⟨rest, ⟨alternative, hmem, hstands⟩, hresult⟩

/-- The group is behind another one. -/
theorem behind {inner ahead : List Char} (hinner : IsBalanced inner)
    (h : ExpandsIn inside ahead after) :
    ExpandsIn inside ('\x7b' :: (inner ++ '\x7d' :: ahead)) after := by
  intro result
  simp only [List.cons_append, List.append_assoc, stands_group hinner, Chosen]
  simp only [← List.append_assoc ahead, h _]
  constructor
  · rintro ⟨choice, hchoice, chosen, rest, hchosen, ⟨alternative, hmem, hstands⟩, hresult⟩
    exact ⟨alternative, hmem, choice, hchoice, chosen, rest, hchosen, hstands, hresult⟩
  · rintro ⟨alternative, hmem, choice, hchoice, chosen, rest, hchosen, hstands, hresult⟩
    exact ⟨choice, hchoice, chosen, rest, hchosen, ⟨alternative, hmem, hstands⟩, hresult⟩

/-- The group is in one of the alternatives of another one. -/
theorem within {ahead rest : List Char} (hinside : IsUnbraced inside)
    (hinner : IsBalanced (before ++ inBraces inside ++ ahead))
    (h : ∀ left right, left.length ≤ before.length → right.length ≤ ahead.length →
      IsBalanced (left ++ inBraces inside ++ right) → ExpandsIn inside left right) :
    ExpandsIn inside ('\x7b' :: before) (ahead ++ '\x7d' :: rest) := by
  intro result
  have hwhole (cs : List Char) : '\x7b' :: before ++ cs ++ (ahead ++ '\x7d' :: rest) =
      '\x7b' :: ((before ++ cs ++ ahead) ++ '\x7d' :: rest) := by simp
  obtain ⟨first, left, right, last, hleft, hright, haround⟩ := alternatives_around before ahead
  have hgroup := haround (inBraces inside) fun depth =>
    .inBraces ((IsBalanced.of_isUnbraced hinside).isOneAt depth)
  have hbalanced : IsBalanced (left ++ inBraces inside ++ right) :=
    hinner.of_mem_alternatives _ (by rw [hgroup]; simp)
  have hchosen : Chosen rest result (left ++ inBraces inside ++ right) ↔
      ∃ alternative ∈ inside.splitOn ',', Chosen rest result (left ++ alternative ++ right) := by
    simp only [Chosen, h left right hleft hright hbalanced _]
    constructor
    · rintro ⟨chosen, rest, ⟨alternative, hmem, hstands⟩, hrest⟩
      exact ⟨alternative, hmem, chosen, rest, hstands, hrest⟩
    · rintro ⟨alternative, hmem, chosen, rest, hstands, hrest⟩
      exact ⟨chosen, rest, ⟨alternative, hmem, hstands⟩, hrest⟩
  rw [hwhole, stands_group hinner, hgroup,
    exists_mem_replaced (List.splitOn_ne_nil ',' inside) hchosen]
  refine exists_congr fun alternative => and_congr_right fun hmem => ?_
  have hfree := hinside.of_mem_splitOn hmem
  have halternative := haround alternative fun depth =>
    hfree.isOneAt (notMem_of_mem_splitOn ',' inside _ hmem) depth
  rw [hwhole, stands_group (hinner.replace hinside hfree rfl), halternative]

end ExpandsIn

/-- Expanding a group without a group inside leaves what is read as it is. -/
theorem stands_expanded (hinside : IsUnbraced inside)
    (h : IsBalanced (before ++ inBraces inside ++ after)) : ExpandsIn inside before after := by
  -- an alternative that the group is in does not begin where the text does, but it is shorter
  induction hn : before.length + after.length using Nat.strongRecOn generalizing before after with
  | _ n ih =>
    subst hn
    cases before with
    | nil => exact .nil hinside
    | cons c before =>
      rw [List.cons_append, List.cons_append] at h
      rcases h.cons_cases with ⟨hc, hrest⟩ | ⟨inner, rest, rfl, heq, hinner, hrest⟩
      · exact .cons hc (ih _ (by simp) hrest rfl)
      rcases hinner.group_cases hinside heq.symm with ⟨ahead, rfl, rfl⟩ | ⟨ahead, rfl, rfl⟩
      · refine .within hinside hinner fun left right hleft hright hbalanced => ?_
        exact ih _ (by simp; omega) hbalanced rfl
      · exact .behind hinner (ih _ (by simp; omega) hrest rfl)

/-- The expansion of a glob with balanced braces gives just what is read. -/
theorem mem_expansions (h : IsBalanced glob) : result ∈ expansions glob ↔ Stands glob result := by
  induction glob using expanding with
  | done glob hnone =>
    have hfree : IsUnbraced glob := h.isUnbraced (ne_of_firstGroup? hnone)
    rw [expansions_of_none hnone, List.mem_singleton, stands_of_isUnbraced hfree]
  | step glob before inside after hfirst ih =>
    obtain ⟨rfl, hinside⟩ := eq_of_firstGroup? hfirst
    rw [expansions_of_some hfirst, List.mem_flatMap, stands_expanded hinside h]
    refine exists_congr fun alternative => and_congr_right fun hmem => ?_
    exact ih alternative hmem (h.replace hinside (hinside.of_mem_splitOn hmem) rfl)

/-! ## Choices -/

/-- No group is inside another one: of two opening braces the first is closed before the second. -/
def IsFlat (glob : List Char) : Prop := ∀ before between after,
  glob = before ++ '\x7b' :: (between ++ '\x7b' :: after) → '\x7d' ∈ between

/-- What a glob leaves to choose from, in order, when no group is inside another one. Any other
character is the only choice in its place. -/
inductive Slots : List Char → List (List (List Char)) → Prop where
  | nil : Slots [] []
  | cons {c : Char} {cs : List Char} {slots : List (List (List Char))} (hc : isBrace c = false)
    (h : Slots cs slots) : Slots (c :: cs) ([[c]] :: slots)
  | group {inside after : List Char} {slots : List (List (List Char))}
    (hinside : IsUnbraced inside) (h : Slots after slots) :
    Slots (inBraces inside ++ after) (inside.splitOn ',' :: slots)

/-- What is picked from each slot, put together. -/
def picked (slots : List (List (List Char))) (choice : List Nat) : List Char :=
  (List.zipWith (fun slot i => slot.getD i []) slots choice).flatten

/-- All ways to pick from slots. -/
def choices : List (List (List Char)) → List (List Nat)
  | [] => [[]]
  | slot :: slots => (List.range slot.length).flatMap fun i => (choices slots).map (i :: ·)

variable {slots : List (List (List Char))}

theorem IsFlat.of_append (h : IsFlat (cs ++ glob)) : IsFlat glob := by
  rintro before between after rfl
  exact h (cs ++ before) between after (by rw [List.append_assoc])

/-- A balanced glob without a group inside another one leaves some slots. -/
theorem exists_slots (h : IsBalanced glob) (hflat : IsFlat glob) : ∃ slots, Slots glob slots := by
  induction h with
  | nil => exact ⟨[], .nil⟩
  | @cons c cs hc _ ih =>
    have hrest : IsFlat ([c] ++ cs) := hflat
    obtain ⟨slots, hslots⟩ := ih hrest.of_append
    exact ⟨_, .cons hc hslots⟩
  | @group inside after hinside _ _ ih =>
    have hopening : '\x7b' ∉ inside := by
      intro hmem
      obtain ⟨between, rest, rfl, hfirst⟩ := List.eq_append_cons_of_mem hmem
      have hclosing := hflat [] between (rest ++ '\x7d' :: after) (by simp)
      exact (hinside.isUnbraced_of_notMem hfirst).notMem rfl hclosing
    rw [← inBraces_append] at hflat ⊢
    rw [← List.append_nil inside] at hinside
    obtain ⟨slots, hslots⟩ := ih hflat.of_append
    exact ⟨_, .group (hinside.isUnbraced_of_notMem hopening) hslots⟩

theorem mem_choices {choice : List Nat} :
    choice ∈ choices slots ↔ List.Forall₂ (fun slot i => i < slot.length) slots choice := by
  induction slots generalizing choice with
  | nil => simp [choices]
  | cons slot slots ih =>
    simp only [choices, List.mem_flatMap, List.mem_range, List.mem_map, ih,
      List.forall₂_cons_left_iff]
    constructor
    · rintro ⟨i, hi, rest, hrest, rfl⟩
      exact ⟨i, rest, hi, hrest, rfl⟩
    · rintro ⟨i, rest, hi, hrest, rfl⟩
      exact ⟨i, hi, rest, hrest, rfl⟩

/-- The choices come in lexicographic order, each of them once. -/
theorem pairwise_choices (slots : List (List (List Char))) : (choices slots).Pairwise (· < ·) := by
  induction slots with
  | nil => exact List.pairwise_singleton _ _
  | cons slot slots ih =>
    rw [choices, List.pairwise_flatMap]
    refine ⟨fun i _ => ?_, ?_⟩
    · refine List.pairwise_map.mpr (ih.imp fun hless => ?_)
      exact List.cons_lt_cons_iff.mpr (.inr ⟨rfl, hless⟩)
    · refine List.pairwise_lt_range.imp fun hless choice hchoice choice' hchoice' => ?_
      obtain ⟨rest, -, rfl⟩ := List.mem_map.mp hchoice
      obtain ⟨rest', -, rfl⟩ := List.mem_map.mp hchoice'
      exact List.cons_lt_cons_iff.mpr (.inl hless)

theorem map_picked_choices (slot : List (List Char)) (slots : List (List (List Char))) :
    (choices (slot :: slots)).map (picked (slot :: slots)) =
      slot.flatMap fun alternative =>
        ((choices slots).map (picked slots)).map (alternative ++ ·) := by
  have hslot : (List.range slot.length).map (fun i => slot.getD i []) = slot :=
    List.ext_getElem (by simp) fun i _ h => by simp [h]
  conv_rhs => rw [← hslot, List.flatMap_map]
  rw [choices, List.map_flatMap]
  refine List.flatMap_congr fun i _ => ?_
  rw [List.map_map, List.map_map]
  rfl

/-- The expansion of a glob is what is picked from its slots, in the order of the choices. -/
theorem expansions_eq_choices (h : Slots glob slots) :
    expansions glob = (choices slots).map (picked slots) := by
  induction h with
  | nil => rfl
  | @cons c cs slots hc _ ih =>
    have hopening : '\x7b' ∉ [c] := by simpa using (isBrace_eq_false.mp hc).1.symm
    rw [← List.singleton_append, expansions_append hopening, ih, map_picked_choices]
    simp
  | group hinside _ ih => rw [expansions_inBraces hinside, ih, map_picked_choices]

/-- What is known of the globs that a glob stands for. They are what comes out when the first group
is expanded, as long as there is one, and no group is left. When the braces are balanced they are
just what is read, and without nested groups they come in the order of the choices. -/
theorem expandBraces_reading (glob : String) :
    (expandBraces glob =
      match firstGroup? glob.toList with
      | none => [glob]
      | some (before, inside, after) => (inside.splitOn ',').flatMap fun alternative =>
          expandBraces (.ofList (before ++ alternative ++ after))) ∧
    (∀ result ∈ expandBraces glob, ∀ before inside after,
      result.toList ≠ before ++ inBraces inside ++ after) ∧
    (IsBalanced glob.toList →
      (∀ result, result ∈ expandBraces glob ↔ Stands glob.toList result.toList) ∧
      (IsFlat glob.toList → ∃ (slots : List (List (List Char))) (order : List (List Nat)),
        Slots glob.toList slots ∧ order.Pairwise (· < ·) ∧
        (∀ choice, choice ∈ order ↔ List.Forall₂ (fun slot i => i < slot.length) slots choice) ∧
        expandBraces glob = order.map fun choice => .ofList (picked slots choice))) := by
  have hmem (result : String) :
      result ∈ expandBraces glob ↔ result.toList ∈ expansions glob.toList := by
    rw [expandBraces_eq, List.mem_map]
    constructor
    · rintro ⟨cs, hcs, rfl⟩
      rwa [String.toList_ofList]
    · exact fun h => ⟨_, h, String.ofList_toList⟩
  refine ⟨?_, fun result hresult => ?_, fun hbalanced => ⟨fun result => ?_, fun hflat => ?_⟩⟩
  · cases hfirst : firstGroup? glob.toList with
    | none => simp [expandBraces_eq, expansions_of_none hfirst]
    | some group =>
      obtain ⟨before, inside, after⟩ := group
      simp [expandBraces_eq, expansions_of_some hfirst, List.map_flatMap]
  · exact ne_of_mem_expansions ((hmem result).mp hresult)
  · rw [hmem, mem_expansions hbalanced]
  · obtain ⟨slots, hslots⟩ := exists_slots hbalanced hflat
    refine ⟨slots, choices slots, hslots, pairwise_choices slots, fun _ => mem_choices, ?_⟩
    rw [expandBraces_eq, expansions_eq_choices hslots, List.map_map]
    rfl

/-- A group in an alternative of another one, and a group that is in no other. -/
theorem expandBraces_reading_of_groups :
    IsBalanced "\x7ba,b\x7bc,\x7d\x7d".toList ∧ Stands "\x7ba,b\x7bc,\x7d\x7d".toList "bc".toList ∧
    IsBalanced "*.\x7bts,js\x7d".toList ∧ IsFlat "*.\x7bts,js\x7d".toList ∧
    ∃ (slots : List (List (List Char))) (order : List (List Nat)),
      Slots "*.\x7bts,js\x7d".toList slots ∧
      expandBraces "*.\x7bts,js\x7d" = order.map fun choice => .ofList (picked slots choice) := by
  have hplain (cs : List Char) (h : cs.all fun c => !isBrace c) : IsBalanced cs :=
    .of_isUnbraced fun c hc => by simpa using List.all_eq_true.mp h c hc
  have hnested : IsBalanced "\x7ba,b\x7bc,\x7d\x7d".toList := by
    have hinner : IsBalanced ('\x7b' :: (['c', ','] ++ '\x7d' :: [])) := .group (hplain _ rfl) .nil
    have hinside : IsBalanced (['a', ',', 'b'] ++ '\x7b' :: (['c', ','] ++ '\x7d' :: [])) :=
      (hplain _ rfl).append hinner
    exact .group hinside .nil
  have hsingle : IsBalanced "*.\x7bts,js\x7d".toList := by
    have hgroup : IsBalanced ('\x7b' :: (['t', 's', ',', 'j', 's'] ++ '\x7d' :: [])) :=
      .group (hplain _ rfl) .nil
    exact (hplain ['*', '.'] rfl).append hgroup
  have hflat : IsFlat "*.\x7bts,js\x7d".toList := by
    intro before between after heq
    have hcount := congrArg (List.count '\x7b') heq
    have hone : "*.\x7bts,js\x7d".toList.count '\x7b' = 1 := by decide +kernel
    rw [hone] at hcount
    simp only [List.count_append, List.count_cons_self] at hcount
    omega
  have hmem : "bc" ∈ expandBraces "\x7ba,b\x7bc,\x7d\x7d" := by decide +kernel
  obtain ⟨-, -, hnestedReading⟩ := expandBraces_reading "\x7ba,b\x7bc,\x7d\x7d"
  obtain ⟨-, -, hsingleReading⟩ := expandBraces_reading "*.\x7bts,js\x7d"
  obtain ⟨slots, order, hslots, -, -, horder⟩ := (hsingleReading hsingle).2 hflat
  exact ⟨hnested, ((hnestedReading hnested).1 "bc").mp hmem, hsingle, hflat, slots, order, hslots,
    horder⟩

end DocHeader.Glob

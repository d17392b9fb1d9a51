import DocHeader.Proofs.Glob.Expanding

/-!
# Balanced braces

In a text with balanced braces every group ends at one place only, so the commas that are in no
group cut it into alternatives in one way only, and these are balanced again.

## Main definitions

* `Glob.IsBalanced` — every brace has its partner.
* `Glob.alternatives` — what is between the commas that are in no group.
* `Glob.IsOneAt` — a text that is in one alternative, whatever comes behind it.

## Main statements

* `Glob.IsBalanced.append_closing_inj` — a group ends at one place only.
* `Glob.IsBalanced.group_cases` — a group without a group inside is in another one or behind it.
* `Glob.IsBalanced.replace` — an alternative may take the place of its group.
* `Glob.alternatives_around` — what is in one alternative does not change the others.
-/

namespace DocHeader.Glob

/-- A text in which every brace has its partner. -/
inductive IsBalanced : List Char → Prop where
  | nil : IsBalanced []
  | cons {c : Char} {cs : List Char} (hc : isBrace c = false) (h : IsBalanced cs) :
    IsBalanced (c :: cs)
  | group {inside after : List Char} (hinside : IsBalanced inside) (h : IsBalanced after) :
    IsBalanced ('\x7b' :: (inside ++ '\x7d' :: after))

/-- How many groups a text is in behind a character. -/
def deeper (depth : Nat) (c : Char) : Nat :=
  if c = '\x7b' then depth + 1 else if c = '\x7d' then depth - 1 else depth

/-- What is between the commas of a text, those in no group, when the text begins in `depth`
groups. -/
def alternatives : Nat → List Char → List (List Char)
  | _, [] => [[]]
  | depth, c :: cs =>
    if c = ',' ∧ depth = 0 then [] :: alternatives depth cs
    else (alternatives (deeper depth c) cs).modifyHead (c :: ·)

variable {c : Char} {cs cs' glob before inside after : List Char} {depth : Nat}

/-! ## Balanced texts -/

theorem inBraces_append (inside after : List Char) :
    inBraces inside ++ after = '\x7b' :: (inside ++ '\x7d' :: after) := by
  simp [inBraces]

/-- A group does not begin with any other character. -/
theorem exists_cons_of_eq (hc : c ≠ '\x7b')
    (heq : c :: cs = before ++ inBraces inside ++ after) :
    ∃ rest, before = c :: rest ∧ cs = rest ++ inBraces inside ++ after := by
  cases before with
  | nil => exact absurd (List.cons.inj heq).1 hc
  | cons d rest =>
    simp only [List.cons_append, List.cons.injEq] at heq
    obtain ⟨rfl, rfl⟩ := heq
    exact ⟨rest, rfl, rfl⟩

namespace IsBalanced

theorem of_isUnbraced (h : IsUnbraced cs) : IsBalanced cs := by
  induction cs with
  | nil => exact .nil
  | cons c cs ih =>
    obtain ⟨hc, hcs⟩ := List.forall_mem_cons.mp h
    exact .cons hc (ih hcs)

/-- What a balanced text begins with. -/
theorem cons_cases (h : IsBalanced (c :: cs)) : (isBrace c = false ∧ IsBalanced cs) ∨
    ∃ inside after, c = '\x7b' ∧ cs = inside ++ '\x7d' :: after ∧ IsBalanced inside ∧
      IsBalanced after := by
  cases h with
  | cons hc h => exact .inl ⟨hc, h⟩
  | group hinside h => exact .inr ⟨_, _, rfl, rfl, hinside, h⟩

theorem of_cons (h : IsBalanced (c :: cs)) (hc : isBrace c = false) : IsBalanced cs := by
  rcases h.cons_cases with ⟨-, h⟩ | ⟨_, _, rfl, -⟩
  · exact h
  · cases hc

theorem of_opening (h : IsBalanced ('\x7b' :: cs)) : ∃ inside after,
    cs = inside ++ '\x7d' :: after ∧ IsBalanced inside ∧ IsBalanced after := by
  rcases h.cons_cases with ⟨hc, -⟩ | ⟨inside, after, -, h⟩
  · cases hc
  · exact ⟨inside, after, h⟩

theorem not_closing_of (h : IsBalanced (c :: cs)) (hc : c = '\x7d') : False := by
  subst hc
  rcases h.cons_cases with ⟨hc, -⟩ | ⟨_, _, hc, -⟩
  · cases hc
  · cases hc

theorem append (h : IsBalanced cs) (h' : IsBalanced cs') : IsBalanced (cs ++ cs') := by
  induction h with
  | nil => exact h'
  | cons hc _ ih => exact .cons hc ih
  | group hinside _ _ ih => simpa using IsBalanced.group hinside ih

/-- A group ends at one place only. -/
theorem append_closing_inj (h : IsBalanced cs) (h' : IsBalanced cs') {x y : List Char}
    (heq : cs ++ '\x7d' :: x = cs' ++ '\x7d' :: y) : cs = cs' ∧ x = y := by
  induction h generalizing cs' x y with
  | nil =>
    cases cs' with
    | nil => exact ⟨rfl, List.cons_injective heq⟩
    | cons d cs' =>
      simp only [List.nil_append, List.cons_append, List.cons.injEq] at heq
      exact (h'.not_closing_of heq.1.symm).elim
  | @cons c cs hc _ ih =>
    cases cs' with
    | nil =>
      simp only [List.nil_append, List.cons_append, List.cons.injEq] at heq
      rw [heq.1] at hc
      cases hc
    | cons d cs' =>
      simp only [List.cons_append, List.cons.injEq] at heq
      obtain ⟨rfl, heq⟩ := heq
      obtain ⟨rfl, rfl⟩ := ih (h'.of_cons hc) heq
      exact ⟨rfl, rfl⟩
  | @group inside after _ _ ihinside ih =>
    cases cs' with
    | nil => simp at heq
    | cons d cs' =>
      simp only [List.cons_append, List.cons.injEq, List.append_assoc] at heq
      obtain ⟨rfl, heq⟩ := heq
      obtain ⟨inside', after', rfl, hinside', hafter'⟩ := h'.of_opening
      simp only [List.append_assoc, List.cons_append] at heq
      obtain ⟨rfl, hbehind⟩ := ihinside hinside' heq
      obtain ⟨rfl, rfl⟩ := ih hafter' hbehind
      exact ⟨rfl, rfl⟩

/-- A group without a group inside is on one side of a closing brace. -/
theorem group_cases (h : IsBalanced cs) (hinside : IsUnbraced inside) {x : List Char}
    (heq : cs ++ '\x7d' :: x = before ++ inBraces inside ++ after) :
    (∃ behind, cs = before ++ inBraces inside ++ behind ∧ after = behind ++ '\x7d' :: x) ∨
      ∃ ahead, before = cs ++ '\x7d' :: ahead ∧ x = ahead ++ inBraces inside ++ after := by
  induction h generalizing before x with
  | nil =>
    obtain ⟨ahead, rfl, rfl⟩ := exists_cons_of_eq (by decide) heq
    exact .inr ⟨ahead, rfl, rfl⟩
  | cons hc _ ih =>
    obtain ⟨rest, rfl, hrest⟩ := exists_cons_of_eq (isBrace_eq_false.mp hc).1 heq
    rcases ih hrest with ⟨behind, rfl, hafter⟩ | ⟨ahead, rfl, hx⟩
    · exact .inl ⟨behind, rfl, hafter⟩
    · exact .inr ⟨ahead, rfl, hx⟩
  | @group inner rest hinner _ ihinner ih =>
    cases before with
    | nil =>
      rw [List.nil_append, inBraces_append, List.cons_append, List.append_assoc] at heq
      obtain ⟨rfl, hafter⟩ :=
        hinner.append_closing_inj (.of_isUnbraced hinside) (List.cons_injective heq)
      exact .inl ⟨rest, by simp [inBraces], hafter.symm⟩
    | cons d before =>
      simp only [List.cons_append, List.cons.injEq, List.append_assoc] at heq
      obtain ⟨rfl, heq⟩ := heq
      rw [← List.append_assoc before] at heq
      -- on one side of the brace that closes the inner group, then on one side of the other
      rcases ihinner heq with ⟨behind, rfl, rfl⟩ | ⟨ahead, rfl, hrest⟩
      · exact .inl ⟨behind ++ '\x7d' :: rest, by simp, by simp⟩
      rcases ih hrest with ⟨behind, rfl, rfl⟩ | ⟨ahead', rfl, rfl⟩
      · exact .inl ⟨behind, by simp, rfl⟩
      · exact .inr ⟨ahead', by simp, rfl⟩

/-- A balanced text stays balanced when a text without braces takes the place of a group. -/
theorem replace (hinside : IsUnbraced inside) (h : IsBalanced glob) {other : List Char}
    (hother : IsUnbraced other) (hglob : glob = before ++ inBraces inside ++ after) :
    IsBalanced (before ++ other ++ after) := by
  induction h generalizing before after with
  | nil => simp [inBraces] at hglob
  | cons hc _ ih =>
    obtain ⟨rest, rfl, hrest⟩ := exists_cons_of_eq (isBrace_eq_false.mp hc).1 hglob
    exact .cons hc (ih hrest)
  | @group inner rest hinner hrest ihinner ih =>
    cases before with
    | nil =>
      rw [List.nil_append, inBraces_append] at hglob
      obtain ⟨rfl, rfl⟩ :=
        hinner.append_closing_inj (.of_isUnbraced hinside) (List.cons_injective hglob)
      exact (of_isUnbraced hother).append hrest
    | cons d before =>
      simp only [List.cons_append, List.cons.injEq] at hglob
      obtain ⟨rfl, hglob⟩ := hglob
      rcases hinner.group_cases hinside hglob with ⟨behind, rfl, rfl⟩ | ⟨ahead, rfl, rfl⟩
      · simpa using IsBalanced.group (ihinner rfl) hrest
      · simpa using IsBalanced.group hinner (ih rfl)

/-- The first brace of a balanced text is an opening one. -/
theorem isUnbraced_of_notMem (h : IsBalanced (cs ++ cs')) (hopening : '\x7b' ∉ cs) :
    IsUnbraced cs := by
  induction cs with
  | nil => exact .nil
  | cons c cs ih =>
    rw [List.mem_cons, not_or] at hopening
    rcases h.cons_cases with ⟨hc, h⟩ | ⟨_, _, hc, -⟩
    · exact .cons hc (ih h hopening.2)
    · exact absurd hc.symm hopening.1

/-- A balanced text without groups has no braces at all. -/
theorem isUnbraced (h : IsBalanced glob)
    (hfree : ∀ before inside after, glob ≠ before ++ inBraces inside ++ after) :
    IsUnbraced glob := by
  induction h with
  | nil => exact .nil
  | @cons c cs hc _ ih =>
    refine .cons hc (ih fun before inside after hcs => ?_)
    exact hfree (c :: before) inside after (by rw [hcs]; rfl)
  | group => exact (hfree [] _ _ (inBraces_append _ _).symm).elim

end IsBalanced

/-! ## Alternatives -/

theorem deeper_of_isBrace (hc : isBrace c = false) (depth : Nat) : deeper depth c = depth := by
  obtain ⟨hopening, hclosing⟩ := isBrace_eq_false.mp hc
  simp [deeper, hopening, hclosing]

@[simp] theorem deeper_opening (depth : Nat) : deeper depth '\x7b' = depth + 1 := rfl

@[simp] theorem deeper_closing (depth : Nat) : deeper depth '\x7d' = depth - 1 := rfl

theorem alternatives_comma (cs : List Char) :
    alternatives 0 (',' :: cs) = [] :: alternatives 0 cs := by
  simp [alternatives]

theorem alternatives_cons (h : ¬(c = ',' ∧ depth = 0)) (cs : List Char) :
    alternatives depth (c :: cs) = (alternatives (deeper depth c) cs).modifyHead (c :: ·) := by
  rw [alternatives, if_neg h]

theorem alternatives_ne_nil (depth : Nat) (cs : List Char) : alternatives depth cs ≠ [] := by
  fun_induction alternatives depth cs with
  | case1 => simp
  | case2 => simp
  | case3 depth c cs _ ih => simpa using ih

/-- A text that is in one alternative, whatever comes behind it. -/
def IsOneAt (depth : Nat) (cs : List Char) : Prop := ∀ behind,
  alternatives depth (cs ++ behind) = (alternatives depth behind).modifyHead (cs ++ ·)

namespace IsOneAt

theorem nil : IsOneAt depth [] := fun behind => by
  obtain ⟨first, rest, halternatives⟩ :=
    List.exists_cons_of_ne_nil (alternatives_ne_nil depth behind)
  rw [List.nil_append, halternatives]
  rfl

theorem single (hc : isBrace c = false) (h : ¬(c = ',' ∧ depth = 0)) : IsOneAt depth [c] :=
  fun behind => by
    rw [List.singleton_append, alternatives_cons h, deeper_of_isBrace hc]
    rfl

theorem append (h : IsOneAt depth cs) (h' : IsOneAt depth cs') : IsOneAt depth (cs ++ cs') :=
  fun behind => by
    rw [List.append_assoc, h, h', List.modifyHead_modifyHead]
    congr 1
    funext alternative
    simp

theorem inBraces (h : IsOneAt (depth + 1) inside) : IsOneAt depth (inBraces inside) :=
  fun behind => by
    rw [inBraces_append, alternatives_cons (by simp), deeper_opening, h,
      alternatives_cons (by simp), deeper_closing, Nat.add_sub_cancel, List.modifyHead_modifyHead,
      List.modifyHead_modifyHead]
    congr 1
    funext alternative
    simp [Glob.inBraces]

end IsOneAt

/-- The commas in a group do not separate anything outside of it. -/
theorem IsBalanced.isOneAt (h : IsBalanced cs) (depth : Nat) : IsOneAt (depth + 1) cs := by
  induction h generalizing depth with
  | nil => exact .nil
  | cons hc _ ih => exact (IsOneAt.single hc (by simp)).append (ih depth)
  | group _ _ ihinside ih =>
    rw [← inBraces_append]
    exact (IsOneAt.inBraces (ihinside _)).append (ih depth)

theorem IsUnbraced.isOneAt (h : IsUnbraced cs) (hcomma : ',' ∉ cs) (depth : Nat) :
    IsOneAt depth cs := by
  induction cs with
  | nil => exact .nil
  | cons c cs ih =>
    obtain ⟨hc, hcs⟩ := List.forall_mem_cons.mp h
    rw [List.mem_cons, not_or] at hcomma
    exact (IsOneAt.single hc fun hboth => hcomma.1 hboth.1.symm).append (ih hcs hcomma.2)

/-- Without braces the alternatives are what is between the commas. -/
theorem IsUnbraced.alternatives_eq (h : IsUnbraced cs) : alternatives 0 cs = cs.splitOn ',' := by
  induction cs with
  | nil => simp [alternatives]
  | cons c cs ih =>
    obtain ⟨hc, hcs⟩ := List.forall_mem_cons.mp h
    rw [splitOn_cons]
    by_cases hcomma : c = ','
    · rw [if_pos hcomma, hcomma, alternatives_comma, ih hcs]
    · rw [if_neg hcomma, alternatives_cons (by simp [hcomma]), deeper_of_isBrace hc, ih hcs]

/-- The alternatives of a balanced text are balanced. -/
theorem IsBalanced.of_mem_alternatives (h : IsBalanced cs) :
    ∀ alternative ∈ alternatives 0 cs, IsBalanced alternative := by
  induction h with
  | nil => simpa [alternatives] using IsBalanced.nil
  | @cons c cs hc _ ih =>
    by_cases hcomma : c = ','
    · rw [hcomma, alternatives_comma]
      exact List.forall_mem_cons.mpr ⟨.nil, ih⟩
    · rw [alternatives_cons (by simp [hcomma]), deeper_of_isBrace hc]
      exact forall_mem_modifyHead ih (fun _ h => .cons hc h) fun _ h => h
  | @group inside after hinside _ _ ih =>
    rw [← inBraces_append, IsOneAt.inBraces (hinside.isOneAt 0)]
    refine forall_mem_modifyHead ih (fun alternative h => ?_) fun _ h => h
    rw [inBraces_append]
    exact .group hinside h

/-- The alternatives of a text are parts of it. -/
theorem sublist_of_mem_alternatives (depth : Nat) (cs : List Char) :
    ∀ alternative ∈ alternatives depth cs, alternative.Sublist cs := by
  fun_induction alternatives depth cs with
  | case1 => simp
  | case2 depth c cs _ ih =>
    exact List.forall_mem_cons.mpr ⟨List.nil_sublist _, fun _ h => (ih _ h).cons c⟩
  | case3 depth c cs _ ih =>
    exact forall_mem_modifyHead ih (fun _ h => h.cons_cons c) fun _ h => h.cons c

/-- The last alternative of a text goes on behind it. -/
theorem alternatives_append (depth : Nat) (before : List Char) :
    ∃ first left depth', left.length ≤ before.length ∧ ∀ behind,
      alternatives depth (before ++ behind) =
        first ++ (alternatives depth' behind).modifyHead (left ++ ·) := by
  induction before generalizing depth with
  | nil => exact ⟨[], [], depth, Nat.le_refl _, fun behind => IsOneAt.nil behind⟩
  | cons c before ih =>
    by_cases hcomma : c = ',' ∧ depth = 0
    · obtain ⟨rfl, rfl⟩ := hcomma
      obtain ⟨first, left, depth', hlength, hbehind⟩ := ih 0
      refine ⟨[] :: first, left, depth', by simp; omega, fun behind => ?_⟩
      rw [List.cons_append, alternatives_comma, hbehind]
      rfl
    · obtain ⟨first, left, depth', hlength, hbehind⟩ := ih (deeper depth c)
      cases first with
      | nil =>
        refine ⟨[], c :: left, depth', by simpa using hlength, fun behind => ?_⟩
        rw [List.cons_append, alternatives_cons hcomma, hbehind, List.nil_append,
          List.modifyHead_modifyHead]
        rfl
      | cons alternative first =>
        refine ⟨(c :: alternative) :: first, left, depth', by simp; omega, fun behind => ?_⟩
        rw [List.cons_append, alternatives_cons hcomma, hbehind]
        rfl

/-- A text that is in one alternative, wherever it stands, does not change the others. -/
theorem alternatives_around (before after : List Char) :
    ∃ first left right last, left.length ≤ before.length ∧ right.length ≤ after.length ∧
      ∀ cs, (∀ depth, IsOneAt depth cs) →
        alternatives 0 (before ++ cs ++ after) = first ++ (left ++ cs ++ right) :: last := by
  obtain ⟨first, left, depth, hleft, hbehind⟩ := alternatives_append 0 before
  obtain ⟨right, last, hafter⟩ := List.exists_cons_of_ne_nil (alternatives_ne_nil depth after)
  have hright : right.Sublist after :=
    sublist_of_mem_alternatives depth after right (by simp [hafter])
  refine ⟨first, left, right, last, hleft, hright.length_le, fun cs hone => ?_⟩
  rw [List.append_assoc, hbehind, hone, hafter]
  simp

end DocHeader.Glob

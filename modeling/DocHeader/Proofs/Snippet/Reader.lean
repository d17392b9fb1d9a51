import DocHeader.Header.Render
import Mathlib.Tactic.SplitIfs

/-!
# Reading snippets

A snippet is a text with numbered stops, each with an initial text. Three characters have
a meaning in it and are written with a backslash when they stand for themselves: the
backslash, the dollar sign, which begins a stop, and the closing brace, which ends one.

A reader goes through a snippet from left to right. It gets back the pieces from which the
snippet was written. Whatever else it can read shows at most as many characters as it has, and
fewer when one of them is reserved.

## Main definitions

* `Snippet.Part` — a character that stands for itself, or a stop.
* `Snippet.written` — the snippet of parts.
* `Snippet.read?` — the parts of a snippet.
* `Snippet.shown`, `Snippet.stops` — what a user sees of parts, and their stops.
-/

namespace DocHeader.Snippet

/-- The characters with a meaning in snippets. -/
def isReserved (c : Char) : Bool := c == '\\' || c == '$' || c == '\x7d'

/-- A part of a snippet: a character that stands for itself, or a stop with its number and
its initial text. -/
inductive Part where
  | char (c : Char)
  | stop (number : Nat) (text : List Char)
  deriving DecidableEq, Repr

namespace Part

/-- The written form of a part. -/
def written : Part → List Char
  | char c => snippetChar c
  | stop number text => (stopMarkup number (.ofList text)).toList

/-- What a user sees of a part: of a stop its initial text. -/
def shown : Part → List Char
  | char c => [c]
  | stop _ text => text

/-- A stop as its initial text and its number. -/
def stop? : Part → Option (List Char × Nat)
  | char _ => none
  | stop number text => some (text, number)

end Part

/-- The snippet of parts. -/
def written (parts : List Part) : List Char := parts.flatMap Part.written

/-- What a user sees of parts. -/
def shown (parts : List Part) : List Char := parts.flatMap Part.shown

/-- The initial texts of the stops with their numbers, in reading order. -/
def stops (parts : List Part) : List (List Char × Nat) := parts.filterMap Part.stop?

@[simp] theorem written_append (a b : List Part) : written (a ++ b) = written a ++ written b := by
  simp [written]

@[simp] theorem shown_append (a b : List Part) : shown (a ++ b) = shown a ++ shown b := by
  simp [shown]

@[simp] theorem stops_append (a b : List Part) : stops (a ++ b) = stops a ++ stops b := by
  simp [stops]

/-! ## The reader -/

/-- What a reader is in the middle of: nothing, after a backslash, after a dollar sign, in
the number of a stop, in its initial text, or there after a backslash. -/
inductive Mode where
  | outside
  | escape
  | dollar
  | number (digits : List Char)
  | inside (number : Nat) (text : List Char)
  | insideEscape (number : Nat) (text : List Char)
  deriving DecidableEq, Repr

/-- The number that digits stand for; there must be one digit at least. -/
def number? (digits : List Char) : Option Nat :=
  if digits.isEmpty then none else some (Nat.ofDigitChars 10 digits 0)

/-- What a reader makes of a character: the part that is complete with it, if there is one,
and what it is in the middle of then. -/
def Mode.step : Mode → Char → Option (Option Part × Mode)
  | outside, c =>
    if c = '\\' then some (none, escape)
    else if c = '$' then some (none, dollar)
    else if c = '\x7d' then none
    else some (some (.char c), outside)
  | escape, c => if isReserved c then some (some (.char c), outside) else none
  | dollar, c => if c = '\x7b' then some (none, number []) else none
  | number digits, c =>
    if c.isDigit then some (none, number (digits ++ [c]))
    else if c = '\x7d' then (number? digits).map fun n => (some (.stop n []), outside)
    else if c = ':' then (number? digits).map fun n => (none, inside n [])
    else none
  | inside n text, c =>
    if c = '\\' then some (none, insideEscape n text)
    else if c = '$' then none
    else if c = '\x7d' then some (some (.stop n text), outside)
    else some (none, inside n (text ++ [c]))
  | insideEscape n text, c =>
    if isReserved c then some (none, inside n (text ++ [c])) else none

/-- The parts of the rest of a snippet. A snippet must not end in the middle of one. -/
def readFrom : Mode → List Char → Option (List Part)
  | mode, [] => if mode = .outside then some [] else none
  | mode, c :: cs =>
    match mode.step c with
    | none => none
    | some (part, mode) => (readFrom mode cs).map (part.toList ++ ·)

/-- The parts of a snippet. -/
def read? (cs : List Char) : Option (List Part) := readFrom .outside cs

variable {c : Char} {cs text digits : List Char} {mode next : Mode}

theorem readFrom_cons {part : Option Part} (h : mode.step c = some (part, next)) :
    readFrom mode (c :: cs) = (readFrom next cs).map (part.toList ++ ·) := by
  rw [readFrom, h]

/-- A character that completes no part is passed over. -/
theorem readFrom_cons_none (h : mode.step c = some (none, next)) :
    readFrom mode (c :: cs) = readFrom next cs := by
  rw [readFrom_cons h]
  simp

theorem snippetChar_eq (c : Char) :
    snippetChar c = if isReserved c then ['\\', c] else [c] := rfl

/-- The written form of a character is read as that character. -/
theorem readFrom_char (c : Char) (cs : List Char) :
    readFrom .outside (snippetChar c ++ cs) = (readFrom .outside cs).map (.char c :: ·) := by
  rw [snippetChar_eq]
  by_cases hc : isReserved c
  · have hslash : Mode.step .outside '\\' = some (none, .escape) := rfl
    have hstep : Mode.step .escape c = some (some (.char c), .outside) := if_pos hc
    rw [if_pos hc, List.cons_append, readFrom_cons_none hslash, List.cons_append,
      readFrom_cons hstep]
    rfl
  · have hstep : Mode.step .outside c = some (some (.char c), .outside) := by
      simp only [isReserved, Bool.or_eq_true, beq_iff_eq, not_or] at hc
      simp [Mode.step, hc]
    rw [if_neg hc, List.cons_append, readFrom_cons hstep]
    rfl

/-- The initial text of a stop is read up to the brace that ends it. -/
theorem readFrom_inside (n : Nat) (text more cs : List Char) :
    readFrom (.inside n text) (more.flatMap snippetChar ++ '\x7d' :: cs) =
      (readFrom .outside cs).map (.stop n (text ++ more) :: ·) := by
  induction more generalizing text with
  | nil =>
    have hstep : Mode.step (.inside n text) '\x7d' = some (some (.stop n text), .outside) := rfl
    rw [List.flatMap_nil, List.nil_append, List.append_nil, readFrom_cons hstep]
    rfl
  | cons c more ih =>
    rw [List.flatMap_cons, List.append_assoc, snippetChar_eq,
      List.append_cons text c more, ← ih (text ++ [c])]
    by_cases hc : isReserved c
    · have hslash : Mode.step (.inside n text) '\\' = some (none, .insideEscape n text) := rfl
      have hstep : Mode.step (.insideEscape n text) c = some (none, .inside n (text ++ [c])) :=
        if_pos hc
      rw [if_pos hc, List.cons_append, readFrom_cons_none hslash, List.cons_append,
        readFrom_cons_none hstep, List.nil_append]
    · have hstep : Mode.step (.inside n text) c = some (none, .inside n (text ++ [c])) := by
        simp only [isReserved, Bool.or_eq_true, beq_iff_eq, not_or] at hc
        simp [Mode.step, hc]
      rw [if_neg hc, List.cons_append, readFrom_cons_none hstep, List.nil_append]

/-- Digits are gathered. -/
theorem readFrom_number (more cs : List Char) (hmore : ∀ c ∈ more, c.isDigit = true) :
    readFrom (.number digits) (more ++ cs) = readFrom (.number (digits ++ more)) cs := by
  induction more generalizing digits with
  | nil => rw [List.nil_append, List.append_nil]
  | cons c more ih =>
    have hstep : Mode.step (.number digits) c = some (none, .number (digits ++ [c])) :=
      if_pos (hmore c List.mem_cons_self)
    rw [List.cons_append, readFrom_cons_none hstep,
      ih fun d hd => hmore d (List.mem_cons_of_mem _ hd), ← List.append_cons]

theorem number?_toDigits (n : Nat) : number? (Nat.toDigits 10 n) = some n := by
  rw [number?, if_neg (by simp [Nat.toDigits_ne_nil]), Nat.ofDigitChars_ten_toDigits]

theorem toList_stopMarkup (n : Nat) (text : List Char) :
    (stopMarkup n (.ofList text)).toList = '$' :: '\x7b' :: (Nat.toDigits 10 n ++
      if text = [] then ['\x7d'] else ':' :: (text.flatMap snippetChar ++ ['\x7d'])) := by
  by_cases htext : text = [] <;>
    simp [stopMarkup, htext, snippetEscape]

/-- A stop is read as its number and its initial text. -/
theorem readFrom_stop (n : Nat) (text cs : List Char) :
    readFrom .outside ((stopMarkup n (.ofList text)).toList ++ cs) =
      (readFrom .outside cs).map (.stop n text :: ·) := by
  have hdollar : Mode.step .outside '$' = some (none, .dollar) := rfl
  have hbrace : Mode.step .dollar '\x7b' = some (none, .number []) := rfl
  have hdigits : ∀ c ∈ Nat.toDigits 10 n, c.isDigit = true := fun c hc =>
    Nat.isDigit_of_mem_toDigits (by decide) (by decide) hc
  rw [toList_stopMarkup, List.cons_append, readFrom_cons_none hdollar, List.cons_append,
    readFrom_cons_none hbrace, List.append_assoc, readFrom_number _ _ hdigits, List.nil_append]
  by_cases htext : text = []
  · have hstep : Mode.step (.number (Nat.toDigits 10 n)) '\x7d' =
        some (some (.stop n []), .outside) := by
      simp [Mode.step, number?_toDigits]
    rw [if_pos htext, List.cons_append, readFrom_cons hstep, htext]
    rfl
  · have hstep : Mode.step (.number (Nat.toDigits 10 n)) ':' = some (none, .inside n []) := by
      simp [Mode.step, number?_toDigits]
    rw [if_neg htext, List.cons_append, readFrom_cons_none hstep, List.append_assoc,
      List.singleton_append, readFrom_inside, List.nil_append]

/-- Reading a snippet gives back the parts it was written from. -/
theorem read?_written (parts : List Part) : read? (written parts) = some parts := by
  rw [read?]
  induction parts with
  | nil => rfl
  | cons part parts ih =>
    have hrest : written (part :: parts) = part.written ++ written parts := rfl
    rw [hrest]
    cases part with
    | char c => rw [Part.written, readFrom_char, ih, Option.map_some]
    | stop n text => rw [Part.written, readFrom_stop, ih, Option.map_some]

/-! ## All that can be read -/

variable {a b : List Char} {parts parts' : List Part}

theorem readFrom_cons_eq_some {c : Char} (h : readFrom mode (c :: cs) = some parts) :
    ∃ part next rest, mode.step c = some (part, next) ∧ readFrom next cs = some rest ∧
      parts = part.toList ++ rest := by
  rw [readFrom] at h
  cases hstep : mode.step c with
  | none => simp [hstep] at h
  | some result =>
    rw [hstep] at h
    obtain ⟨rest, hrest, rfl⟩ := Option.map_eq_some_iff.mp h
    exact ⟨_, _, rest, rfl, hrest, rfl⟩

/-- What is read of a text does not depend on what comes after it. -/
theorem readFrom_append (ha : readFrom mode a = some parts) (hb : read? b = some parts') :
    readFrom mode (a ++ b) = some (parts ++ parts') := by
  induction a generalizing mode parts with
  | nil =>
    obtain ⟨rfl, rfl⟩ : mode = .outside ∧ parts = [] := by
      by_cases hmode : mode = .outside
      · simpa [readFrom, hmode, eq_comm] using ha
      · simp [readFrom, hmode] at ha
    exact hb
  | cons c a ih =>
    obtain ⟨part, next, rest, hstep, hrest, rfl⟩ := readFrom_cons_eq_some ha
    rw [List.cons_append, readFrom_cons hstep, ih hrest, Option.map_some, List.append_assoc]

@[simp] theorem written_chars (cs : List Char) :
    written (cs.map .char) = cs.flatMap snippetChar := by
  rw [written, List.flatMap_map]
  rfl

@[simp] theorem shown_chars (cs : List Char) : shown (cs.map .char) = cs := by
  rw [shown, List.flatMap_map]
  exact List.flatMap_singleton' cs

theorem flatMap_snippetChar_of_free (h : ∀ c ∈ cs, isReserved c = false) :
    cs.flatMap snippetChar = cs := by
  induction cs with
  | nil => rfl
  | cons c cs ih =>
    obtain ⟨hc, hcs⟩ := List.forall_mem_cons.mp h
    have hself : snippetChar c = [c] := by rw [snippetChar_eq, if_neg (by simp [hc])]
    rw [List.flatMap_cons, hself, ih hcs, List.singleton_append]

/-- A text without reserved characters is read as it is. -/
theorem read?_of_free (h : ∀ c ∈ cs, isReserved c = false) : read? cs = some (cs.map .char) := by
  have hread := read?_written (cs.map .char)
  rwa [written_chars, flatMap_snippetChar_of_free h] at hread

/-- The part of an initial text that is read already. -/
def Mode.pending : Mode → List Char
  | inside _ text | insideEscape _ text => text
  | outside | escape | dollar | number _ => []

/-- Every character shows as one at most. -/
theorem Mode.length_step {next : Mode} {part : Option Part} {c : Char}
    (h : mode.step c = some (part, next)) :
    (shown part.toList).length + next.pending.length ≤ mode.pending.length + 1 := by
  cases mode with
  | outside =>
    simp only [step] at h
    split_ifs at h <;> cases h <;> simp [shown, Part.shown, pending]
  | escape =>
    simp only [step] at h
    split_ifs at h
    cases h
    simp [shown, Part.shown, pending]
  | dollar =>
    simp only [step] at h
    split_ifs at h
    cases h
    simp [shown, pending]
  | number digits =>
    simp only [step] at h
    split_ifs at h
    · cases h
      simp [shown, pending]
    · obtain ⟨n, -, h⟩ := Option.map_eq_some_iff.mp h
      cases h
      simp [shown, Part.shown, pending]
    · obtain ⟨n, -, h⟩ := Option.map_eq_some_iff.mp h
      cases h
      simp [shown, pending]
  | inside n text =>
    simp only [step] at h
    split_ifs at h <;> cases h <;> simp [shown, Part.shown, pending]
  | insideEscape n text =>
    simp only [step] at h
    split_ifs at h
    cases h
    simp [shown, pending]

theorem length_shown_le (h : readFrom mode cs = some parts) :
    (shown parts).length ≤ mode.pending.length + cs.length := by
  induction cs generalizing mode parts with
  | nil =>
    rw [readFrom] at h
    split_ifs at h
    cases h
    simp [shown]
  | cons c cs ih =>
    obtain ⟨part, next, rest, hstep, hrest, rfl⟩ := readFrom_cons_eq_some h
    have hone := Mode.length_step hstep
    have hmany := ih hrest
    rw [shown_append, List.length_append, List.length_cons]
    omega

/-- A text with a reserved character shows fewer characters than it has. -/
theorem length_shown_lt (h : read? cs = some parts) {c : Char} (hc : c ∈ cs)
    (hreserved : isReserved c = true) : (shown parts).length < cs.length := by
  induction cs generalizing parts with
  | nil => cases hc
  | cons d cs ih =>
    obtain ⟨part, next, rest, hstep, hrest, rfl⟩ := readFrom_cons_eq_some h
    have hmany := length_shown_le hrest
    rw [shown_append, List.length_append, List.length_cons]
    simp only [Mode.step] at hstep
    split_ifs at hstep with hslash hdollar hbrace
    · -- a character begins here that the next one stands for
      cases hstep
      simp only [shown, Mode.pending, Option.toList_none, List.flatMap_nil, List.length_nil] at *
      omega
    · cases hstep
      simp only [shown, Mode.pending, Option.toList_none, List.flatMap_nil, List.length_nil] at *
      omega
    · cases hstep
      have hne : c ≠ d := by
        rintro rfl
        simp [isReserved, hslash, hdollar, hbrace] at hreserved
      have hlater := ih hrest ((List.mem_cons.mp hc).resolve_left hne)
      simp only [shown, Part.shown, Option.toList_some, List.flatMap_singleton,
        List.length_singleton] at *
      omega

end DocHeader.Snippet

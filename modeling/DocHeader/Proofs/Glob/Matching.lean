import DocHeader.Glob.Token
import Mathlib.Data.List.Basic

/-!
# What tokens match

A text matches when its tokens take pieces of it one after the other. The search keeps all
rests at a time, each of them once; here a single choice of pieces is followed instead.

## Main definitions

* `Glob.Token.Fits` — some tokens take pieces of a text one after the other.

## Main statements

* `Glob.Token.matchBeginning_iff` — the search succeeds just when the tokens fit.
-/

namespace DocHeader.Glob

variable {p : Char → Bool} {cs rest : List Char}

theorem mem_skipping : rest ∈ skipping p cs ↔ ∃ taken, cs = taken ++ rest ∧ ∀ c ∈ taken, p c := by
  induction cs with
  | nil =>
    simp only [skipping, List.mem_singleton]
    constructor
    · rintro rfl
      exact ⟨[], rfl, by simp⟩
    · rintro ⟨taken, hsplit, -⟩
      exact (List.append_eq_nil_iff.mp hsplit.symm).2
  | cons c cs ih =>
    rw [skipping, List.mem_cons]
    constructor
    · rintro (rfl | hmem)
      · exact ⟨[], rfl, by simp⟩
      · split at hmem
        next hc =>
          obtain ⟨taken, rfl, htaken⟩ := ih.mp hmem
          exact ⟨c :: taken, rfl, List.forall_mem_cons.mpr ⟨hc, htaken⟩⟩
        next => cases hmem
    · rintro ⟨taken, hsplit, htaken⟩
      cases taken with
      | nil => exact .inl hsplit.symm
      | cons d taken =>
        obtain ⟨rfl, rfl⟩ := List.cons.inj hsplit
        obtain ⟨hc, htaken⟩ := List.forall_mem_cons.mp htaken
        rw [if_pos hc]
        exact .inr (ih.mpr ⟨taken, rfl, htaken⟩)

theorem mem_skippingSome :
    rest ∈ skippingSome p cs ↔ ∃ taken, taken ≠ [] ∧ cs = taken ++ rest ∧ ∀ c ∈ taken, p c := by
  cases cs with
  | nil =>
    simp only [skippingSome, List.not_mem_nil, false_iff]
    rintro ⟨taken, hsome, hsplit, -⟩
    exact hsome (List.append_eq_nil_iff.mp hsplit.symm).1
  | cons c cs =>
    rw [skippingSome]
    constructor
    · intro hmem
      split at hmem
      next hc =>
        obtain ⟨taken, rfl, htaken⟩ := mem_skipping.mp hmem
        exact ⟨c :: taken, by simp, rfl, List.forall_mem_cons.mpr ⟨hc, htaken⟩⟩
      next => cases hmem
    · rintro ⟨taken, hsome, hsplit, htaken⟩
      cases taken with
      | nil => exact absurd rfl hsome
      | cons d taken =>
        obtain ⟨rfl, rfl⟩ := List.cons.inj hsplit
        obtain ⟨hc, htaken⟩ := List.forall_mem_cons.mp htaken
        rw [if_pos hc]
        exact mem_skipping.mpr ⟨taken, rfl, htaken⟩

theorem afterSlash?_eq_some : afterSlash? cs = some rest ↔ cs = '/' :: rest := by
  constructor
  · intro h
    unfold afterSlash? at h
    split at h
    next => rw [Option.some.inj h]
    next => cases h
  · rintro rfl
    rfl

theorem atEnd_iff : atEnd cs = true ↔ cs = [] ∨ cs = ['\n'] := by
  unfold atEnd
  split <;> simp_all

namespace Token

variable {tokens : List Token}

theorem forall_inSegment_iff {name : List Char} : (∀ c ∈ name, inSegment c) ↔ '/' ∉ name := by
  simp only [inSegment, bne_iff_ne]
  exact ⟨fun h hmem => h _ hmem rfl, fun h c hc heq => h (heq ▸ hc)⟩

theorem forall_inLine_iff {name : List Char} : (∀ c ∈ name, inLine c) ↔ '\n' ∉ name := by
  simp only [inLine, bne_iff_ne]
  exact ⟨fun h hmem => h _ hmem rfl, fun h c hc heq => h (heq ▸ hc)⟩

theorem mem_rests_char {c : Char} : rest ∈ (char c).rests cs ↔ cs = c :: rest := by
  have hfirst (left : List Char) : [c].isPrefixOf? cs = some left ↔ c :: left = cs :=
    List.isPrefixOf?_eq_some_iff_append_eq
  rw [rests]
  cases hfound : [c].isPrefixOf? cs with
  | none => simpa using fun heq => by simp [(hfirst rest).mpr heq.symm] at hfound
  | some left =>
    obtain rfl := (hfirst left).mp hfound
    simp [eq_comm]

theorem mem_rests_many :
    rest ∈ many.rests cs ↔ ∃ name, cs = name ++ rest ∧ '/' ∉ name := by
  simp only [rests, mem_skipping, forall_inSegment_iff]

theorem mem_rests_leadingDirectories :
    rest ∈ leadingDirectories.rests cs ↔
      rest = cs ∨ ∃ directories, directories ≠ [] ∧ '\n' ∉ directories ∧
        cs = directories ++ '/' :: rest := by
  rw [rests, List.mem_cons, List.mem_filterMap]
  simp only [mem_skippingSome, afterSlash?_eq_some, forall_inLine_iff]
  refine or_congr_right ⟨?_, ?_⟩
  · rintro ⟨left, ⟨directories, hsome, hsplit, hline⟩, rfl⟩
    exact ⟨directories, hsome, hline, hsplit⟩
  · rintro ⟨directories, hsome, hline, hsplit⟩
    exact ⟨_, ⟨directories, hsome, hsplit, hline⟩, rfl⟩

/-- The last segment ends with the path, before a line feed at its end, or at a slash. -/
theorem rests_segmentEnd_ne_nil_iff :
    segmentEnd.rests cs ≠ [] ↔ cs = [] ∨ cs = ['\n'] ∨ ∃ below, cs = '/' :: below := by
  rw [rests]
  by_cases hend : atEnd cs = true
  · rw [if_pos hend]
    rcases atEnd_iff.mp hend with rfl | rfl <;> simp
  · obtain ⟨hsome, hline⟩ := not_or.mp (mt atEnd_iff.mpr hend)
    rw [if_neg hend, ne_eq, Option.toList_eq_nil_iff, ← ne_eq, Option.ne_none_iff_exists']
    simp [afterSlash?_eq_some, hsome, hline]

/-- Tokens take pieces of a text one after the other. -/
def Fits : List Token → List Char → Prop
  | [], _ => True
  | token :: tokens, cs => ∃ rest ∈ token.rests cs, Fits tokens rest

theorem restsOfAll_ne_nil_iff (tokens : List Token) (texts : List (List Char)) :
    restsOfAll tokens texts ≠ [] ↔ ∃ cs ∈ texts, Fits tokens cs := by
  induction tokens generalizing texts with
  | nil =>
    simp only [restsOfAll, Fits, and_true]
    exact ⟨List.exists_mem_of_ne_nil texts, fun ⟨_, hmem⟩ => List.ne_nil_of_mem hmem⟩
  | cons token tokens ih =>
    rw [restsOfAll, ih]
    simp only [List.mem_eraseDups, List.mem_flatMap, Fits]
    constructor
    · rintro ⟨rest, ⟨cs, hcs, hrest⟩, hfits⟩
      exact ⟨cs, hcs, rest, hrest, hfits⟩
    · rintro ⟨cs, hcs, rest, hrest, hfits⟩
      exact ⟨rest, ⟨cs, hcs, hrest⟩, hfits⟩

/-- A text matches just when the tokens fit. -/
theorem matchBeginning_iff (tokens : List Token) (cs : List Char) :
    matchBeginning tokens cs = true ↔ Fits tokens cs := by
  have h := restsOfAll_ne_nil_iff tokens [cs]
  simpa [matchBeginning] using h

/-- Characters take themselves. -/
theorem fits_chars (name : List Char) (tokens : List Token) (cs : List Char) :
    Fits (name.map char ++ tokens) cs ↔ ∃ rest, cs = name ++ rest ∧ Fits tokens rest := by
  induction name generalizing cs with
  | nil => simp
  | cons c name ih =>
    rw [List.map_cons, List.cons_append, Fits]
    simp only [mem_rests_char, ih]
    constructor
    · rintro ⟨_, rfl, rest, rfl, hfits⟩
      exact ⟨rest, rfl, hfits⟩
    · rintro ⟨rest, rfl, hfits⟩
      exact ⟨_, rfl, rest, rfl, hfits⟩

end Token

end DocHeader.Glob

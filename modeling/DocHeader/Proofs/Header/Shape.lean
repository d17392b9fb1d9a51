import DocHeader.Proofs.Header.Lines
import DocHeader.Proofs.Text.Splitting

/-!
# The shape of a header

A plain header of several lines has one line of the comment for each of its tag lines just
when no text in it holds a line feed. Descriptions of declarations are cut into lines before
they come here, and so are those that an accessor repeats; every other text stands on its
line as it was given.

## Main definitions

* `HasShape` — a comment with a number of lines.
-/

namespace DocHeader

variable {x : List Char}

/-! ## What a line shows -/

theorem LaidOut.newline_mem_iff {texts : List String} (h : LaidOut texts x) :
    '\n' ∈ x ↔ ∃ text ∈ texts, '\n' ∈ text.toList := by
  induction h with
  | nil => simp
  | @cons text texts cs blanks opening closing hopening hclosing hrest ih =>
    have hopen : '\n' ∉ opening.toList := by
      simp only [openings, List.mem_cons, List.not_mem_nil, or_false] at hopening
      rcases hopening with rfl | rfl | rfl <;> decide
    have hclose : '\n' ∉ closing.toList := by
      simp only [closings, List.mem_cons, List.not_mem_nil, or_false] at hclosing
      rcases hclosing with rfl | rfl <;> decide
    simp [hopen, hclose, ih]

theorem Written.newline_mem_iff {lines : List TagLine} {bodies : List (List Char)}
    (h : Written lines bodies) : (∃ body ∈ bodies, '\n' ∈ body) ↔
      ∃ line ∈ lines, ∃ text ∈ line.texts, '\n' ∈ text.toList := by
  induction h with
  | nil => simp
  | cons hlaid _ ih => simp [hlaid.newline_mem_iff, ih]

/-! ## Headers -/

/-- A text read line by line: the opening of a comment, as many lines as said, each with a
star after the indentation, the end of the comment, and the indentation. -/
def HasShape (indent : List Char) (count : Nat) (text : List Char) : Prop :=
  ∃ rows, text.splitOn '\n' =
      "/**".toList :: (rows ++ [indent ++ " */".toList, indent]) ∧
    rows.length = count ∧ ∀ row ∈ rows, (indent ++ " *".toList) <+: row

/-- A stack of lines has that shape just when none of them breaks. -/
theorem hasShape_iff {indent : List Char} (hindent : '\n' ∉ indent) (bodies : List (List Char)) :
    HasShape indent bodies.length ('/' :: '*' :: '*' :: (inside indent false bodies ++
      ' ' :: '*' :: '/' :: '\n' :: indent)) ↔ ∀ body ∈ bodies, '\n' ∉ body := by
  have hsplit : ('/' :: '*' :: '*' :: (inside indent false bodies ++
      ' ' :: '*' :: '/' :: '\n' :: indent)).splitOn '\n' = "/**".toList ::
        ((bodies.map fun body => indent ++ ' ' :: '*' :: body).flatMap (·.splitOn '\n') ++
          [indent ++ " */".toList, indent]) := by
    have hfirst : '\n' ∉ "/**".toList := by decide
    have hlast : ∀ piece ∈ [indent ++ " */".toList, indent], '\n' ∉ piece := by simp [hindent]
    rw [stacked_eq, splitOn_flatMap, splitOn_of_notMem hfirst, List.flatMap_append,
      flatMap_splitOn_of_notMem hlast]
    rfl
  have hfree : (∀ piece ∈ bodies.map fun body => indent ++ ' ' :: '*' :: body, '\n' ∉ piece) ↔
      ∀ body ∈ bodies, '\n' ∉ body := by simp [hindent]
  rw [← hfree]
  constructor
  · rintro ⟨rows, hrows, hcount, -⟩
    rw [hsplit, List.cons_inj_right, List.append_cancel_right_eq] at hrows
    refine (length_flatMap_splitOn '\n' _).2 ?_
    rw [hrows, hcount, List.length_map]
  · intro hnone
    refine ⟨_, hsplit, ?_, ?_⟩
    · rw [flatMap_splitOn_of_notMem hnone, List.length_map]
    · rw [flatMap_splitOn_of_notMem hnone]
      simp

namespace Builder

variable {σ : Type}

/-- **A header has one line for each tag line just when no text in it breaks.** For every
declaration that is documented, and whatever the source of descriptions says, a header of
several lines is built. It reads as a comment with one line for each of its tag lines just
when no text that these show holds a line feed. A line without a tag never shows one that
does. -/
theorem buildText_hasShape_iff (b : Builder σ) (f : Focus) (source : String) (j : Journal σ)
    {kind : DeclarationKind} (hkind : b.kindOf f = .ok kind)
    (hstyle : b.settings.flag .singleLineComments = false) :
    ∃ draft text, (b.build f j).1 = .ok draft ∧ (b.buildText f source false j).1 = .ok text ∧
      (HasShape (indentationAt source f.insertionOffset).toList draft.lines.length text.toList ↔
        ∀ line ∈ draft.lines, ∀ s ∈ line.texts, '\n' ∉ s.toList) ∧
      ∀ line ∈ draft.lines, line.tag = none → ∀ s ∈ line.texts, '\n' ∉ s.toList := by
  obtain ⟨draft, text, bodies, hbuild, htext, hregular, hwritten, hchars⟩ :=
    b.buildText_of_kind f hkind source j
  have hindent : '\n' ∉ (indentationAt source f.insertionOffset).toList := by
    intro hmem
    rcases mem_indentationAt hmem with h | h <;> cases h
  refine ⟨draft, text, hbuild, htext, ?_, fun line hline => (hregular line hline).unbroken⟩
  have hbroken := hwritten.newline_mem_iff
  rw [hchars, hstyle, Bool.false_and, hwritten.length_eq, hasShape_iff hindent]
  simpa using not_congr hbroken

/-- A header with two tag lines has two lines between its ends. -/
theorem buildText_hasShape_of_two :
    undescribed.kindOf (withParameter "1") = .ok .method ∧
    undescribed.settings.flag .singleLineComments = false ∧
    ∃ text, (undescribed.buildText (withParameter "1") "" false ⟨(), []⟩).1 = .ok text ∧
      HasShape [] 2 text.toList := by
  have hkind : undescribed.kindOf (withParameter "1") = .ok .method := by decide +kernel
  have hstyle : undescribed.settings.flag .singleLineComments = false := by decide +kernel
  obtain ⟨draft, text, hbuild, htext, hshape, -⟩ :=
    buildText_hasShape_iff undescribed (withParameter "1") "" ⟨(), []⟩ hkind hstyle
  have hlines : (undescribed.build (withParameter "1") ⟨(), []⟩).1.toOption.map
      (fun draft => (draft.lines.length,
        decide (∀ line ∈ draft.lines, ∀ s ∈ line.texts, '\n' ∉ s.toList))) =
        some (2, true) := by decide +kernel
  have hindent : (indentationAt "" (withParameter "1").insertionOffset).toList = [] := by
    decide +kernel
  obtain ⟨hcount, hfree⟩ : draft.lines.length = 2 ∧
      ∀ line ∈ draft.lines, ∀ s ∈ line.texts, '\n' ∉ s.toList := by
    rw [hbuild] at hlines
    simpa [Except.toOption] using hlines
  rw [hindent, hcount] at hshape
  exact ⟨hkind, hstyle, text, htext, hshape.mpr hfree⟩

/-- A default value on two lines makes for a third line, which has no star. -/
theorem buildText_breaks_line :
    undescribed.kindOf (withParameter "1 +\n  2") = .ok .method ∧
    undescribed.settings.flag .singleLineComments = false ∧
    (undescribed.build (withParameter "1 +\n  2") ⟨(), []⟩).1.toOption.map
      (fun draft => draft.lines.length) = some 2 ∧
    (undescribed.buildText (withParameter "1 +\n  2") "" false ⟨(), []⟩).1.toOption =
      some "/**\n * @param \x7b*\x7d [files=1 +\n  2]\n * @returns \x7b*\x7d\n */\n" ∧
    ¬HasShape [] 2
      "/**\n * @param \x7b*\x7d [files=1 +\n  2]\n * @returns \x7b*\x7d\n */\n".toList := by
  refine ⟨by decide +kernel, by decide +kernel, by decide +kernel, by decide +kernel, ?_⟩
  rintro ⟨rows, hrows, hcount, -⟩
  have hsix :
      ("/**\n * @param \x7b*\x7d [files=1 +\n  2]\n * @returns \x7b*\x7d\n */\n".toList.splitOn
        '\n').length = 6 := by decide +kernel
  rw [hrows, List.length_cons, List.length_append, hcount] at hsix
  cases hsix

end Builder

end DocHeader

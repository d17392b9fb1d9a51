import DocHeader.Assistant.Answer
import DocHeader.Proofs.Header.TagOrder
import DocHeader.Proofs.Text.Boundaries
import DocHeader.Proofs.Text.Splitting

/-!
# Cleaned answers

An assistant may dress up the lines it answers with: as a comment, in a fence, or both. Cleaning
takes off what was put on and nothing else, whatever stars, slashes, fences or ends of comments
the lines hold themselves, and a header with the cleaned text has a line for each of them.

## Main definitions

* `Answer.IsTidy` — a line that cleaning leaves alone.
* `Answer.Dressed` — the texts that lines may be dressed up as.
* `Draft.describingLines` — the lines of a header that describe.

## Main statements

* `Builder.build_describingLines` — a header describes with the lines of its description.
* `Answer.clean_dressed` — a text that is cleaned gives back its lines, and so does its header.
-/

namespace DocHeader

namespace Answer

/-- A line that is not empty, has no blanks at its ends, and is on one line. -/
structure IsTidy (line : String) : Prop where
  ne_empty : line ≠ ""
  trimmed : trimmed line = line
  unbroken : ∀ c ∈ line.toList, Text.isLineBoundary c = false

/-- Lines in a comment, each behind a star. -/
def inComment (lines : List String) : String :=
  joinWith "\n" ("/**" :: (lines.map (" * " ++ ·) ++ [" */"]))

/-- A text in a fence. -/
def inFence (language text : String) : String := "```" ++ language ++ "\n" ++ text ++ "\n```"

/-- The languages that a fence may name, and none. -/
def IsFenceLanguage (language : String) : Prop := language = "" ∨ language ∈ fenceLanguages

/-- The first line looks neither like a comment nor like a fence. -/
def OpensPlainly (lines : List String) : Prop :=
  ∀ first ∈ lines.head?, ∀ mark ∈ ["*", "/*", "```"], beginsWith first mark = false

/-- The texts that lines may be dressed up as. -/
inductive Dressed (lines : List String) : String → Prop where
  | comment : Dressed lines (inComment lines)
  | fencedComment {language : String} (hlanguage : IsFenceLanguage language) :
    Dressed lines (inFence language (inComment lines))
  | plain (hplain : OpensPlainly lines) : Dressed lines (joinWith "\n" lines)
  | fenced {language : String} (hplain : OpensPlainly lines)
    (hlanguage : IsFenceLanguage language) : Dressed lines (inFence language (joinWith "\n" lines))

/-! ## Tidy lines -/

variable {lines : List String} {line first : String} {rest : List String}

namespace IsTidy

theorem toList_ne_nil (h : IsTidy line) : line.toList ≠ [] := by
  simpa using h.ne_empty

/-- Neither end of a tidy line is blank. -/
theorem isCore (h : IsTidy line) :
    IsCore (fun c => Text.isBlank c = true) line.toList line.toList := by
  have hcore := isCore_dropEnds Text.isBlank line.toList
  have htrim : dropEnds Text.isBlank line.toList = line.toList := by
    have htoList := congrArg String.toList h.trimmed
    rwa [DocHeader.trimmed, String.toList_ofList] at htoList
  rwa [htrim] at hcore

theorem hasContent (h : IsTidy line) : hasContent line = true := by
  obtain ⟨c, cs, hline⟩ := List.exists_cons_of_ne_nil h.toList_ne_nil
  have hfirst := h.isCore.first c (by simp [hline])
  rw [DocHeader.hasContent, hline, List.any_cons]
  simp [hfirst]

end IsTidy

/-! ## Lines one below the other -/

theorem toList_lineFeed : "\n".toList = ['\n'] := rfl

section Joined

variable (htidy : ∀ line ∈ first :: rest, IsTidy line)

include htidy

/-- Tidy lines are read back from a text of them. -/
theorem lines_joinWith :
    Text.lines (joinWith "\n" (first :: rest)).toList = (first :: rest).map String.toList := by
  induction rest generalizing first with
  | nil =>
    have hfirst := htidy first (by simp)
    exact Text.lines_of_free hfirst.unbroken hfirst.toList_ne_nil
  | cons second rest ih =>
    obtain ⟨hfirst, hrest⟩ := List.forall_mem_cons.mp htidy
    rw [toList_joinWith_cons toList_lineFeed, Text.lines_append_newline hfirst.unbroken, ih hrest]
    rfl

/-- Neither end of a text of tidy lines is blank. -/
theorem isCore_joinWith : IsCore (fun c => Text.isBlank c = true)
    (joinWith "\n" (first :: rest)).toList (joinWith "\n" (first :: rest)).toList := by
  refine .of_ends ?_ ?_
  · have hfirst := htidy first (by simp)
    rw [toList_joinWith toList_lineFeed, List.head?_append_of_ne_nil _ hfirst.toList_ne_nil]
    exact hfirst.isCore.first
  · induction rest generalizing first with
    | nil => exact (htidy first (by simp)).isCore.last
    | cons second rest ih =>
      obtain ⟨-, hrest⟩ := List.forall_mem_cons.mp htidy
      have hsome : (joinWith "\n" (second :: rest)).toList ≠ [] := by
        rw [toList_joinWith toList_lineFeed]
        simp [(htidy second (by simp)).toList_ne_nil]
      rw [toList_joinWith_cons toList_lineFeed, List.append_cons,
        List.getLast?_append_of_ne_nil _ hsome]
      exact ih hrest

/-- Tidy lines are left alone, each on its own. -/
theorem tidyLines_eq :
    ((textLines (joinWith "\n" (first :: rest))).filter hasContent).map trimmed =
      first :: rest := by
  have hback : ((first :: rest).map String.toList).map String.ofList = first :: rest := by
    simp
  rw [textLines, lines_joinWith htidy, hback,
    List.filter_eq_self.mpr fun line hline => (htidy line hline).hasContent]
  have hmap : (first :: rest).map trimmed = (first :: rest).map id :=
    List.map_congr_left fun line hline => (htidy line hline).trimmed
  rw [hmap, List.map_id]

end Joined

/-! ## Fences -/

/-- The language of a fence is passed over. -/
theorem afterLanguage_append {language : String} (h : IsFenceLanguage language) (cs : List Char) :
    afterLanguage (language.toList ++ '\n' :: cs) = '\n' :: cs := by
  rcases h with rfl | hlisted
  · simp [afterLanguage, fenceLanguages, List.isPrefixOf?]
  · simp only [fenceLanguages, List.mem_cons, List.not_mem_nil, or_false] at hlisted
    rcases hlisted with rfl | rfl | rfl | rfl | rfl | rfl | rfl <;>
      simp [afterLanguage, fenceLanguages, List.isPrefixOf?]

/-- A text in a fence is found when it does not begin with a blank. -/
theorem fenced?_append {cs : List Char} (hfirst : ∀ c ∈ cs.head?, Text.isBlank c = false)
    (hsome : cs ≠ []) : fenced? ('\n' :: (cs ++ fenceEnd)) = some cs := by
  obtain ⟨c, cs, rfl⟩ := List.exists_cons_of_ne_nil hsome
  have hc : Text.isBlank c = false := hfirst c rfl
  have hnone : fenced? (c :: cs ++ fenceEnd) = none := by
    rw [List.cons_append, fenced?, hc]
    rfl
  have hend : beforeFenceEnd? (c :: cs ++ fenceEnd) = some (c :: cs) := by
    have hprefix : fenceEnd.reverse.isPrefixOf? (c :: cs ++ fenceEnd).reverse =
        some (c :: cs).reverse := by
      rw [List.isPrefixOf?_eq_some_iff_append_eq, ← List.reverse_append]
    rw [beforeFenceEnd?, hprefix, Option.map_some, List.reverse_reverse]
  have hblank : Text.isBlank '\n' = true := by decide
  rw [fenced?, hblank, hnone, hend]
  rfl

/-- A fence is taken off a text that neither begins nor ends with a blank. -/
theorem withoutFence_inFence {language text : String} (h : IsFenceLanguage language)
    (htext : text ≠ "") (hfirst : ∀ c ∈ text.toList.head?, Text.isBlank c = false) :
    withoutFence (inFence language text) = text := by
  have hsome : text.toList ≠ [] := by simpa using htext
  have hwhole : (inFence language text).toList =
      fenceMarks ++ (language.toList ++ '\n' :: (text.toList ++ fenceEnd)) := by
    simp [inFence, fenceMarks, fenceEnd]
  have htrim : Text.trim (inFence language text).toList = (inFence language text).toList := by
    refine Text.trim_of_isCore (.of_ends ?_ ?_)
    · rw [hwhole]
      simp [fenceMarks, Text.isBlank]
    · have hends : (inFence language text).toList =
          fenceMarks ++ language.toList ++ '\n' :: text.toList ++ fenceEnd := by simp [hwhole]
      rw [hends, List.getLast?_append_of_ne_nil _ (by decide)]
      simp [fenceMarks, fenceEnd, Text.isBlank]
  have hprefix : fenceMarks.isPrefixOf? (inFence language text).toList =
      some (language.toList ++ '\n' :: (text.toList ++ fenceEnd)) := by
    rw [List.isPrefixOf?_eq_some_iff_append_eq, hwhole]
  rw [withoutFence, htrim, hprefix]
  simp only [afterLanguage_append h, fenced?_append hfirst hsome]
  simp

/-- A text that does not begin with a fence is left alone. -/
theorem withoutFence_of_free {s : String} (htrim : Text.trim s.toList = s.toList)
    (h : ¬fenceMarks <+: s.toList) : withoutFence s = s := by
  have hnone : fenceMarks.isPrefixOf? (Text.trim s.toList) = none := by
    rw [htrim]
    cases hprefix : fenceMarks.isPrefixOf? s.toList with
    | none => rfl
    | some rest =>
      rw [List.isPrefixOf?_eq_some_iff_append_eq] at hprefix
      exact absurd ⟨rest, hprefix⟩ h
  rw [withoutFence, hnone]

/-! ## Comments -/

/-- What a text of lines begins with, and what holds no line feed, its first line begins with. -/
theorem prefix_of_prefix_joinWith {mark : List Char} (hmark : '\n' ∉ mark)
    (h : mark <+: (joinWith "\n" (first :: rest)).toList) : mark <+: first.toList := by
  rw [toList_joinWith toList_lineFeed] at h
  rcases List.prefix_or_prefix_of_prefix h (List.prefix_append _ _) with hfirst | ⟨more, rfl⟩
  · exact hfirst
  -- whatever goes on behind the first line begins with a line feed
  rw [List.prefix_append_right_inj] at h
  cases more with
  | nil => simp
  | cons c more =>
    cases rest with
    | nil => simp at h
    | cons second rest =>
      rw [List.flatMap_cons, List.cons_append, List.cons_prefix_cons] at h
      exact absurd h.1 fun hc => hmark (by simp [hc])

/-- Lines that open plainly look neither like a comment nor like a fence. -/
theorem OpensPlainly.not_prefix (h : OpensPlainly (first :: rest)) {mark : String}
    (hmark : mark ∈ ["*", "/*", "```"]) :
    ¬mark.toList <+: (joinWith "\n" (first :: rest)).toList := by
  intro hprefix
  have hfree : '\n' ∉ mark.toList := by
    simp only [List.mem_cons, List.not_mem_nil, or_false] at hmark
    rcases hmark with rfl | rfl | rfl <;> simp
  have hfirst := List.isPrefixOf_iff_prefix.mpr (prefix_of_prefix_joinWith hfree hprefix)
  have hnone := h first rfl mark hmark
  rw [beginsWith, hfirst] at hnone
  cases hnone

theorem prefix_of_isComment {cs : List Char} (h : isComment cs = true) :
    ['*'] <+: cs ∨ ['/', '*'] <+: cs := by
  unfold isComment at h
  split at h
  next => exact .inl (by simp)
  next => exact .inr (by simp)
  next => cases h

/-- A text that does not look like a comment is left alone. -/
theorem withoutMarks_of_free {s : String} (htrim : Text.trim s.toList = s.toList)
    (hstar : ¬['*'] <+: s.toList) (hslash : ¬['/', '*'] <+: s.toList) : withoutMarks s = s := by
  have hnone : ¬isComment (Text.trim s.toList) = true := by
    rw [htrim]
    exact fun h => (prefix_of_isComment h).elim hstar hslash
  rw [withoutMarks, if_neg hnone]

theorem withoutClosing_append (cs : List Char) : withoutClosing (cs ++ ['*', '/']) = cs := by
  have hprefix : ['/', '*'].isPrefixOf? (cs ++ ['*', '/']).reverse = some cs.reverse := by
    rw [List.isPrefixOf?_eq_some_iff_append_eq]
    simp
  rw [withoutClosing, hprefix]
  simp

/-- A star is taken off once, whatever the line holds. -/
theorem withoutStar_row (cs : List Char) : withoutStar (' ' :: '*' :: ' ' :: cs) = cs := rfl

theorem toList_inComment (lines : List String) : (inComment lines).toList =
    '/' :: '*' :: '*' ::
      ((lines.map fun line => ' ' :: '*' :: ' ' :: line.toList).flatMap ('\n' :: ·) ++
        ['\n', ' '] ++ ['*', '/']) := by
  rw [inComment, toList_joinWith toList_lineFeed]
  simp [List.flatMap_map]

theorem trim_inComment (lines : List String) :
    Text.trim (inComment lines).toList = (inComment lines).toList := by
  refine Text.trim_of_isCore (.of_ends ?_ ?_)
  · rw [toList_inComment]
    simp [Text.isBlank]
  · rw [toList_inComment, ← List.cons_append, ← List.cons_append, ← List.cons_append,
      List.getLast?_append_of_ne_nil _ (by decide)]
    simp [Text.isBlank]

/-- The marks of a comment are taken off tidy lines. -/
theorem withoutMarks_inComment (htidy : ∀ line ∈ first :: rest, IsTidy line) :
    withoutMarks (inComment (first :: rest)) = joinWith "\n" (first :: rest) := by
  let rows := (first :: rest).map fun line => ' ' :: '*' :: ' ' :: line.toList
  have hrows : ∀ row ∈ rows, ∀ c ∈ row, Text.isLineBoundary c = false := by
    intro row hrow c hc
    obtain ⟨line, hline, rfl⟩ := List.mem_map.mp hrow
    simp only [List.mem_cons] at hc
    rcases hc with rfl | rfl | rfl | hc
    · rfl
    · rfl
    · rfl
    · exact (htidy line hline).unbroken c hc
  have hlines : Text.lines (rows.flatMap ('\n' :: ·) ++ ['\n', ' ']) = [] :: (rows ++ [[' ']]) := by
    have hnil : ∀ c ∈ ([] : List Char), Text.isLineBoundary c = false := List.forall_mem_nil _
    exact Text.lines_flatMap hnil hrows [' ']
  have hstars : (([] :: (rows ++ [[' ']])).map withoutStar).map String.ofList =
      "" :: (first :: (rest ++ [" "])) := by
    have hempty : withoutStar [] = [] := rfl
    have hlast : withoutStar [' '] = [' '] := rfl
    simp [rows, Function.comp_def, withoutStar_row, hempty, hlast]
  -- the lines stand between the line feeds behind the opening and in front of the closing mark
  have hbetween : (joinWith "\n" ("" :: (first :: (rest ++ [" "])))).toList =
      ['\n'] ++ (joinWith "\n" (first :: rest)).toList ++ ['\n', ' '] := by
    rw [toList_joinWith toList_lineFeed, toList_joinWith toList_lineFeed]
    simp
  have hcore : IsCore (fun c => Text.isBlank c = true)
      (['\n'] ++ (joinWith "\n" (first :: rest)).toList ++ ['\n', ' '])
      (joinWith "\n" (first :: rest)).toList :=
    (isCore_joinWith htidy).extend (by simp [Text.isBlank]) (by simp [Text.isBlank])
  have hcomment : isComment (inComment (first :: rest)).toList = true := by
    rw [toList_inComment]
    rfl
  simp only [withoutMarks, trim_inComment, hcomment, if_true]
  rw [toList_inComment, withoutOpening, withoutClosing_append, hlines, hstars, trimmed, hbetween,
    Text.trim_of_isCore hcore, String.ofList_toList]

/-! ## Cleaning -/

theorem inComment_ne_empty (lines : List String) : inComment lines ≠ "" := by
  intro h
  have hlist := congrArg String.toList h
  rw [toList_inComment] at hlist
  cases hlist

/-- Once the marks are off, tidy lines stay as they are. -/
theorem clean_of_withoutMarks {s : String} (htidy : ∀ line ∈ first :: rest, IsTidy line)
    (h : withoutMarks (withoutFence s) = joinWith "\n" (first :: rest)) :
    clean s = joinWith "\n" (first :: rest) := by
  rw [clean, h, tidyLines_eq htidy]

/-- Cleaning takes off what tidy lines are dressed up with. -/
theorem clean_of_dressed {s : String} (htidy : ∀ line ∈ first :: rest, IsTidy line)
    (h : Dressed (first :: rest) s) : clean s = joinWith "\n" (first :: rest) := by
  have hcore := isCore_joinWith htidy
  have hjoined : joinWith "\n" (first :: rest) ≠ "" := by
    intro hempty
    have hlist := congrArg String.toList hempty
    rw [toList_joinWith toList_lineFeed] at hlist
    exact (htidy first (by simp)).toList_ne_nil (List.append_eq_nil_iff.mp hlist).1
  have hplainly (hplain : OpensPlainly (first :: rest)) :
      withoutMarks (joinWith "\n" (first :: rest)) = joinWith "\n" (first :: rest) := by
    have hstar : ¬"*".toList <+: _ := hplain.not_prefix (by simp)
    have hslash : ¬"/*".toList <+: _ := hplain.not_prefix (by simp)
    exact withoutMarks_of_free (Text.trim_of_isCore hcore) hstar hslash
  refine clean_of_withoutMarks htidy ?_
  cases h with
  | comment =>
    have hfree : ¬fenceMarks <+: (inComment (first :: rest)).toList := by
      rw [toList_inComment]
      simp [fenceMarks]
    rw [withoutFence_of_free (trim_inComment _) hfree, withoutMarks_inComment htidy]
  | fencedComment hlanguage =>
    have hfirst : ∀ c ∈ (inComment (first :: rest)).toList.head?, Text.isBlank c = false := by
      rw [toList_inComment]
      simp [Text.isBlank]
    rw [withoutFence_inFence hlanguage (inComment_ne_empty _) hfirst, withoutMarks_inComment htidy]
  | plain hplain =>
    have hfree : ¬"```".toList <+: _ := hplain.not_prefix (by simp)
    rw [withoutFence_of_free (Text.trim_of_isCore hcore) hfree, hplainly hplain]
  | fenced hplain hlanguage =>
    have hfirst : ∀ c ∈ (joinWith "\n" (first :: rest)).toList.head?, Text.isBlank c = false :=
      fun c hc => by simpa using hcore.first c hc
    rw [withoutFence_inFence hlanguage hjoined hfirst, hplainly hplain]

end Answer

/-! ## Headers -/

theorem Phrase.withText_shown (p : Phrase) : p.withText p.shown = p := by
  cases p <;> rfl

/-- A description of tidy lines has each of them on a line of its own. -/
theorem descriptionLines_joinWith {description : Phrase} {first : String} {rest : List String}
    (htidy : ∀ line ∈ first :: rest, Answer.IsTidy line)
    (h : description.shown = joinWith "\n" (first :: rest)) :
    descriptionLines description = (first :: rest).map description.withText := by
  unfold descriptionLines
  split
  next =>
    have hlines := congrArg (List.map description.withText) (Answer.tidyLines_eq htidy)
    rwa [List.map_map, ← h] at hlines
  next hline =>
    -- there is no line feed, so there is no second line
    cases rest with
    | nil =>
      have hfirst : description.shown = first := h
      rw [List.map_singleton, ← hfirst, description.withText_shown]
    | cons second rest =>
      rw [h, toList_joinWith_cons Answer.toList_lineFeed] at hline
      simp at hline

/-- Whether a line describes: it has no tag and shows something. -/
def TagLine.describes (line : TagLine) : Bool := line.tag.isNone && !line.isBlank

/-- The lines of a header that describe. -/
def Draft.describingLines (draft : Draft) : List TagLine := draft.lines.filter TagLine.describes

theorem TagLine.describes_ofText {p : Phrase} (h : p.shown ≠ "") :
    (TagLine.ofText (some p)).describes = true := by
  simp [describes, ofText, isBlank, shownText, h]

theorem TaggedLines.filter_describes {lines : List TagLine} (h : TaggedLines lines) :
    lines.filter TagLine.describes = [] :=
  List.filter_eq_nil_iff.mpr fun line hline => by
    simp [TagLine.describes, (h line hline).tag]

theorem filter_describes_separatorLines (s : Settings) :
    (separatorLines s).filter TagLine.describes = [] := by
  unfold separatorLines
  split <;> rfl

/-- Of the lines a header begins with, those of the description describe. -/
theorem filter_describes_openingLines (s : Settings) (today : CivilTime) {description : Phrase}
    (h : ∀ p ∈ descriptionLines description, p.shown ≠ "") :
    (openingLines s today description).filter TagLine.describes =
      (descriptionLines description).map fun p => TagLine.ofText (some p) := by
  have hlines : ((descriptionLines description).map fun p => TagLine.ofText (some p)).filter
      TagLine.describes = (descriptionLines description).map fun p => TagLine.ofText (some p) :=
    List.filter_eq_self.mpr
      (List.forall_mem_map.mpr fun p hp => TagLine.describes_ofText (h p hp))
  rw [openingLines, List.filter_append, List.filter_append, List.filter_append, hlines,
    (tagged_authorLines s).filter_describes, (tagged_dateLines s today).filter_describes,
    filter_describes_separatorLines]
  simp

/-- A header describes with the lines of the description it was given, when each of them shows
something. -/
theorem Builder.build_describingLines {σ : Type} (b : Builder σ) (f : Focus)
    {kind : DeclarationKind} (hkind : b.kindOf f = .ok kind)
    (hown : kind = .accessor → pairedAccessor? f = none) {j : Journal σ} {description : Phrase}
    (hanswer : (b.source.declaration f kind j).1 = .ok description)
    (hshown : ∀ p ∈ descriptionLines description, p.shown ≠ "") :
    ∃ draft, (b.build f j).1 = .ok draft ∧ draft.describingLines =
      (descriptionLines description).map fun p => TagLine.ofText (some p) := by
  refine ⟨_, b.build_eq_close f hkind j, ?_⟩
  have hlines : b.lines f kind = b.ownLines f kind := by
    have hnone : (if kind = .accessor then pairedAccessor? f else none) = none := by
      split
      next haccessor => exact hown haccessor
      next => rfl
    rw [Builder.lines, hnone]
  have hask : (ask (b.source.declaration f kind) emptyRegion j).1 = description := by
    simp only [ask, Logged.bind_apply, hanswer]
    rfl
  obtain ⟨rest, hrest, hopening⟩ := b.ownLines_opening f kind j
  rw [hask] at hopening
  have hblank (line : TagLine) (hline : line.isBlank = true) : line.describes = false := by
    simp [TagLine.describes, hline]
  rw [hlines, Draft.describingLines, Draft.close, filter_dropOuterBlank hblank, hopening,
    List.filter_append, hrest.filter_describes, List.append_nil,
    filter_describes_openingLines _ _ hshown]

namespace Answer

/-- Cleaning undoes what lines are dressed up with, and a header with the cleaned text as its
description describes with one line for each of them. -/
theorem clean_dressed {lines : List String} {s : String} (hsome : lines ≠ [])
    (htidy : ∀ line ∈ lines, IsTidy line) (h : Dressed lines s) :
    clean s = joinWith "\n" lines ∧
    ∀ {σ : Type} (b : Builder σ) (f : Focus) (kind : DeclarationKind) (j : Journal σ)
      (description : Phrase), b.kindOf f = .ok kind →
      (kind = .accessor → pairedAccessor? f = none) →
      (b.source.declaration f kind j).1 = .ok description → description.shown = clean s →
      ∃ draft, (b.build f j).1 = .ok draft ∧ draft.describingLines =
        lines.map fun line => TagLine.ofText (some (description.withText line)) := by
  obtain ⟨first, rest, rfl⟩ := List.exists_cons_of_ne_nil hsome
  have hclean := clean_of_dressed htidy h
  refine ⟨hclean, fun b f kind j description hkind hown hanswer hshown => ?_⟩
  have hlines := descriptionLines_joinWith htidy (hshown.trans hclean)
  have hsome : ∀ p ∈ descriptionLines description, p.shown ≠ "" := by
    rw [hlines]
    refine List.forall_mem_map.mpr fun line hline => ?_
    have hline := (htidy line hline).ne_empty
    cases description <;> exact hline
  obtain ⟨draft, hbuild, hdescribing⟩ := b.build_describingLines f hkind hown hanswer hsome
  refine ⟨draft, hbuild, ?_⟩
  rw [hdescribing, hlines, List.map_map]
  rfl

/-- Lines that hold the end of a comment and the marks of a fence. -/
def markedLines : List String := ["Adds * two */ numbers.", "```"]

/-- A builder that is answered with lines in a comment in a fence, and cleans the answer. -/
def answered : Builder Unit where
  settings := { flag := fun _ => true, text := fun _ => "author" }
  source := { DescriptionSource.blank "" with
    declaration := fun _ _ => pure (.ok (.region (clean (inFence "ts" (inComment markedLines))))) }
  today := { year := 2024, month := 1, day := 1 }

theorem clean_marked :
    clean (inFence "ts" (inComment markedLines)) = "Adds * two */ numbers.\n```" ∧
    ∃ draft, (answered.build (Builder.withParameter "1") ⟨(), []⟩).1 = .ok draft ∧
      draft.describingLines =
        [.ofText (some (.region "Adds * two */ numbers.")), .ofText (some (.region "```"))] := by
  have htidy : ∀ line ∈ markedLines, IsTidy line := by
    intro line hline
    simp only [markedLines, List.mem_cons, List.not_mem_nil, or_false] at hline
    rcases hline with rfl | rfl
    · exact ⟨by decide, by decide +kernel, by simp [Text.isLineBoundary]⟩
    · exact ⟨by decide, by decide +kernel, by simp [Text.isLineBoundary]⟩
  have hlanguage : IsFenceLanguage "ts" := .inr (by decide)
  have hkind : answered.kindOf (Builder.withParameter "1") = .ok .method := by decide +kernel
  obtain ⟨hclean, hheader⟩ := clean_dressed (by decide) htidy (.fencedComment hlanguage)
  refine ⟨hclean, ?_⟩
  exact hheader answered _ _ ⟨(), []⟩ _ hkind (fun h => by cases h) rfl rfl

end Answer

end DocHeader

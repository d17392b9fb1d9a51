import DocHeader.Header.Build
import DocHeader.Proofs.Header.Lifecycle
import DocHeader.Proofs.Snippet.Preview
import DocHeader.Proofs.Text.Boundaries

/-!
# Reuse of descriptions

An accessor repeats the description of its opposite. It is read off the header of the opposite,
which a builder has written: texts on lines of their own, then tags. Such a header is read as it
was written, line by line, without the empty lines at both ends of the description.

## Main definitions

* `IsKeptText` — a text that a header keeps as it is.
* `IsPartner` — a documented accessor whose description another one repeats.
-/

namespace DocHeader

/-- A text that a header keeps as it is: it is on one line, does not end in a blank, and does not
begin with a tag. -/
structure IsKeptText (text : String) : Prop where
  line : ∀ c ∈ text.toList, Text.isLineBoundary c = false
  last : ∀ c ∈ text.toList.getLast?, Text.isBlank c = false
  first : text.toList.find? (fun c => !Text.isBlank c) ≠ some '@'

/-- A documented accessor whose description another one repeats: the opposite one of its name. -/
structure IsPartner (f sibling : Focus) : Prop where
  kind : sibling.kind = oppositeAccessor f.kind
  name : sibling.info.name = f.info.name
  documented : sibling.hasHeader = true

/-! ## Rows -/

/-- What stands on the row of a text after the star. -/
def textBody (text : String) : List Char := if text = "" then [] else ' ' :: text.toList

theorem TagLine.body_ofText (layout : Layout) (text : Option Phrase) :
    (TagLine.ofText text).body layout false 0 = textBody (shownText text) := by
  have hnone : shownText none = "" := rfl
  by_cases htext : shownText text = "" <;>
    simp [body, segments_plain, textSegment, textBody, ofText, tagText, tag?, writeSegments,
      padding, hnone, htext]

/-- The row of a tag begins with an at sign. -/
theorem TagLine.exists_body_eq (layout : Layout) {line : TagLine} (htag : line.tag?.isSome) :
    ∃ rest, line.body layout false 0 = ' ' :: '@' :: rest := by
  obtain ⟨tag, hsome⟩ := Option.isSome_iff_exists.mp htag
  exact ⟨_, by simp [body, tagText, hsome]; rfl⟩

variable {text : String} {indent : List Char}

theorem trimStart_row (hindent : ∀ c ∈ indent, Text.isBlank c = true) (body : List Char) :
    Text.trimStart (indent ++ ' ' :: '*' :: body) = '*' :: body := by
  have hblank : Text.isBlank ' ' = true := by decide
  have hstar : ¬Text.isBlank '*' = true := by decide
  rw [Text.trimStart, List.dropWhile_append_of_pos hindent, List.dropWhile_cons_of_pos hblank,
    List.dropWhile_cons_of_neg hstar]

/-- The row of a text is read as that text. -/
theorem IsKeptText.commentLine_row (h : IsKeptText text)
    (hindent : ∀ c ∈ indent, Text.isBlank c = true) :
    commentLine (indent ++ ' ' :: '*' :: textBody text) = text.toList := by
  by_cases htext : text = ""
  · have hlast : ∀ c ∈ ['*'].getLast?, Text.isBlank c = false := by simp [Text.isBlank]
    rw [textBody, if_pos htext, commentLine, Text.trim, trimStart_row hindent,
      Text.trimEnd_of_last hlast, htext]
    rfl
  · have hsome : text.toList ≠ [] := by simpa using htext
    have hends : ('*' :: ' ' :: text.toList).getLast? = text.toList.getLast? :=
      List.getLast?_append_of_ne_nil ['*', ' '] hsome
    have hlast : ∀ c ∈ ('*' :: ' ' :: text.toList).getLast?, Text.isBlank c = false := by
      rw [hends]
      exact h.last
    rw [textBody, if_neg htext, commentLine, Text.trim, trimStart_row hindent,
      Text.trimEnd_of_last hlast]
    rfl

theorem IsKeptText.startsTag_eq_false (h : IsKeptText text) : startsTag text.toList = false := by
  rw [startsTag, Text.trimStart, ← List.find?_not_eq_head?_dropWhile]
  simpa using h.first

/-- A kept text is blank only when it is empty. -/
theorem IsKeptText.isBlankLine_iff (h : IsKeptText text) :
    isBlankLine text.toList = true ↔ text = "" := by
  constructor
  · intro hblank
    by_contra htext
    have hsome : text.toList ≠ [] := by simpa using htext
    have hlast := h.last _ (List.getLast?_eq_some_getLast hsome)
    rw [List.all_eq_true.mp hblank _ (List.getLast_mem hsome)] at hlast
    cases hlast
  · rintro rfl
    rfl

/-- The row of a tag is read as one. -/
theorem startsTag_commentLine (hindent : ∀ c ∈ indent, Text.isBlank c = true) (rest : List Char) :
    startsTag (commentLine (indent ++ ' ' :: '*' :: ' ' :: '@' :: rest)) = true := by
  have hkept : ∀ c ∈ ['@', ' ', '*'].head?, Text.isBlank c = false := by simp [Text.isBlank]
  have htrim : Text.trimEnd ('*' :: ' ' :: '@' :: rest) =
      '*' :: ' ' :: '@' :: Text.trimEnd rest := by
    have hreverse : ('*' :: ' ' :: '@' :: rest).reverse = rest.reverse ++ ['@', ' ', '*'] := by simp
    rw [Text.trimEnd, hreverse, dropWhile_append_of_kept hkept, List.reverse_append]
    rfl
  have hat : Text.trimStart ('@' :: Text.trimEnd rest) = '@' :: Text.trimEnd rest :=
    List.dropWhile_cons_of_neg (by decide)
  rw [commentLine, Text.trim, trimStart_row hindent, htrim]
  simp [startsTag, hat]

/-! ## Headers -/

/-- Spaces and tabs are blank, and none of them ends a line. -/
theorem blank_of_indent (hindent : ∀ c ∈ indent, c = ' ' ∨ c = '\t') :
    ∀ c ∈ indent, Text.isBlank c = true ∧ Text.isLineBoundary c = false := by
  intro c hc
  obtain rfl | rfl := hindent c hc
  · decide
  · decide

theorem IsKeptText.row_free (h : IsKeptText text)
    (hindent : ∀ c ∈ indent, Text.isLineBoundary c = false) :
    ∀ c ∈ indent ++ ' ' :: '*' :: textBody text, Text.isLineBoundary c = false := by
  have hbody : ∀ c ∈ textBody text, Text.isLineBoundary c = false := by
    unfold textBody
    split_ifs
    · simp
    · exact List.forall_mem_cons.mpr ⟨by decide, h.line⟩
  exact List.forall_mem_append.mpr ⟨hindent, List.forall_mem_cons.mpr
    ⟨by decide, List.forall_mem_cons.mpr ⟨by decide, hbody⟩⟩⟩

/-- The lines of a comment up to the first tag. -/
def linesAbove (cs : List Char) : List (List Char) :=
  ((Text.lines cs).map commentLine).takeWhile fun line => !startsTag line

/-- Rows of texts are read as these texts. -/
theorem linesAbove_rows {texts : List String} (htexts : ∀ text ∈ texts, IsKeptText text)
    (hindent : ∀ c ∈ indent, c = ' ' ∨ c = '\t') (rest : List Char) :
    linesAbove (texts.flatMap (fun text => '\n' :: (indent ++ ' ' :: '*' :: textBody text)) ++
      '\n' :: rest) = [] :: (texts.map String.toList ++ linesAbove rest) := by
  have hblank := blank_of_indent hindent
  let rows := texts.map fun text => indent ++ ' ' :: '*' :: textBody text
  have hrows : texts.flatMap (fun text => '\n' :: (indent ++ ' ' :: '*' :: textBody text)) =
      [] ++ rows.flatMap ('\n' :: ·) := by rw [List.flatMap_map, List.nil_append]
  have hfree : ∀ row ∈ rows, ∀ c ∈ row, Text.isLineBoundary c = false :=
    List.forall_mem_map.mpr fun text htext =>
      (htexts text htext).row_free fun c hc => (hblank c hc).2
  have hread : rows.map commentLine = texts.map String.toList := by
    rw [List.map_map]
    exact List.map_congr_left fun text htext =>
      (htexts text htext).commentLine_row fun c hc => (hblank c hc).1
  have hkept : ∀ line ∈ [] :: texts.map String.toList, (!startsTag line) = true :=
    List.forall_mem_cons.mpr ⟨by rfl, List.forall_mem_map.mpr fun text htext => by
      simp [(htexts text htext).startsTag_eq_false]⟩
  rw [linesAbove, hrows, Text.lines_flatMap (by simp) hfree, List.map_cons, List.map_append, hread]
  exact List.takeWhile_append_of_pos hkept

/-- What comes before the end of a comment is an empty line. -/
theorem linesAbove_end (hindent : ∀ c ∈ indent, c = ' ' ∨ c = '\t') :
    linesAbove (indent ++ [' ']) = [[]] := by
  have hspaces : ∀ c ∈ indent ++ [' '], c = ' ' ∨ c = '\t' :=
    List.forall_mem_append.mpr ⟨hindent, by simp⟩
  have hblank := blank_of_indent hspaces
  have htrim : Text.trim (indent ++ [' ']) = [] := by
    refine Text.trim_of_isCore ⟨⟨indent ++ [' '], [], by simp, ?_, by simp⟩, by simp, by simp⟩
    exact fun c hc => (hblank c hc).1
  rw [linesAbove, Text.lines_of_free (fun c hc => (hblank c hc).2) (by simp), List.map_singleton,
    commentLine, htrim]
  rfl

/-- Nothing is read from a tag on. -/
theorem linesAbove_tag (hindent : ∀ c ∈ indent, c = ' ' ∨ c = '\t') (rest : List Char) :
    linesAbove (indent ++ ' ' :: '*' :: ' ' :: '@' :: rest) = [] := by
  have hblank := blank_of_indent hindent
  have hfree : ∀ c ∈ indent ++ [' ', '*', ' ', '@'], Text.isLineBoundary c = false :=
    List.forall_mem_append.mpr ⟨fun c hc => (hblank c hc).2, by simp [Text.isLineBoundary]⟩
  obtain ⟨more, others, hlines⟩ := Text.exists_lines_append hfree (by simp) rest
  have hstart (cs : List Char) :
      indent ++ ' ' :: '*' :: ' ' :: '@' :: cs = indent ++ [' ', '*', ' ', '@'] ++ cs := by simp
  have htag := startsTag_commentLine (fun c hc => (hblank c hc).1) more
  rw [linesAbove, hstart, hlines, ← hstart, List.map_cons,
    List.takeWhile_cons_of_neg (by simp [htag])]

/-- Of what stands between the ends of a comment the texts in front of the tags are read, and empty
lines around them. -/
theorem linesAbove_inside {texts : List String} {bodies : List (List Char)}
    (htexts : ∀ text ∈ texts, IsKeptText text)
    (hbodies : ∀ body ∈ bodies, ∃ rest, body = ' ' :: '@' :: rest)
    (hindent : ∀ c ∈ indent, c = ' ' ∨ c = '\t') :
    ∃ blanks : List (List Char), (∀ line ∈ blanks, line = []) ∧
      linesAbove (inside indent false (texts.map textBody ++ bodies) ++ [' ']) =
        [] :: (texts.map String.toList ++ blanks) := by
  have hrows := linesAbove_rows htexts hindent
  cases bodies with
  | nil =>
    refine ⟨[[]], by simp, ?_⟩
    rw [← linesAbove_end hindent, ← hrows]
    simp [inside, List.flatMap_map]
  | cons body bodies =>
    obtain ⟨rest, rfl⟩ := hbodies body List.mem_cons_self
    refine ⟨[], by simp, ?_⟩
    let below := bodies.flatMap (fun cs => '\n' :: (indent ++ ' ' :: '*' :: cs)) ++ '\n' :: indent
    rw [← linesAbove_tag hindent (rest ++ below ++ [' ']), ← hrows]
    simp [inside, List.flatMap_map, below]

/-- A comment is what stands between its ends. -/
theorem commentBody_eq {comment body : List Char}
    (h : Text.trim comment = '/' :: '*' :: '*' :: (body ++ [' ', '*', '/'])) :
    commentBody comment = body ++ [' '] := by
  rw [commentBody, h]
  simp [List.isPrefixOf?]

/-- A rendered header is a comment, and blanks after that. -/
theorem trim_render (d : Draft) (layout : Layout) {indent : String}
    (hindent : ∀ c ∈ indent.toList, c = ' ' ∨ c = '\t') :
    Text.trim (d.render { layout, indent }).toList = '/' :: '*' :: '*' ::
      (inside indent.toList false (d.finish.lines.map fun line => line.body layout false 0) ++
        [' ', '*', '/']) := by
  refine Text.trim_of_isCore ⟨⟨[], '\n' :: indent.toList, ?_, by simp, ?_⟩, ?_, ?_⟩
  · have htext := d.toList_render_plain { layout, indent }
    simpa using htext
  · exact List.forall_mem_cons.mpr ⟨by decide, fun c hc => (blank_of_indent hindent c hc).1⟩
  · simp [Text.isBlank]
  · have hend (cs : List Char) : '/' :: '*' :: '*' :: (cs ++ [' ', '*', '/']) =
        ('/' :: '*' :: '*' :: (cs ++ [' ', '*'])) ++ ['/'] := by simp
    rw [hend, List.getLast?_concat]
    simp [Text.isBlank]

/-- The description of a header is what is between its ends, without empty lines around it. -/
theorem descriptionOf_eq {header : String} {body : List Char} {texts : List String}
    {blanks : List (List Char)}
    (hheader : Text.trim header.toList = '/' :: '*' :: '*' :: (body ++ [' ', '*', '/']))
    (htexts : ∀ text ∈ texts, IsKeptText text) (hblanks : ∀ line ∈ blanks, line = [])
    (hbody : linesAbove (body ++ [' ']) = [] :: (texts.map String.toList ++ blanks)) :
    descriptionOf header = dropEnds String.isEmpty texts := by
  have hlines : linesAbove (commentBody header.toList) =
      [[]] ++ texts.map String.toList ++ blanks := by
    rw [commentBody_eq hheader, hbody]
    rfl
  have htrim : ([[]] ++ texts.map String.toList ++ blanks).map Text.trimEnd =
      [[]] ++ texts.map String.toList ++ blanks := by
    refine (List.map_congr_left fun line hline => ?_).trans (List.map_id _)
    rcases List.mem_append.mp hline with hline | hline
    · rcases List.mem_append.mp hline with hline | hline
      · rw [List.mem_singleton.mp hline]
        rfl
      · obtain ⟨text, htext, rfl⟩ := List.mem_map.mp hline
        exact Text.trimEnd_of_last (htexts text htext).last
    · rw [hblanks line hline]
      rfl
  have hcore : IsCore (fun line => isBlankLine line = true)
      ([[]] ++ texts.map String.toList ++ blanks)
      ((dropEnds String.isEmpty texts).map String.toList) := by
    refine IsCore.extend (IsCore.map (isCore_dropEnds String.isEmpty texts) ?_) ?_ ?_
    · intro text htext
      rw [(htexts text htext).isBlankLine_iff, String.isEmpty_iff]
    · simp [isBlankLine]
    · intro line hline
      rw [hblanks line hline]
      rfl
  have hdrop : dropOuterBlankLines ([[]] ++ texts.map String.toList ++ blanks) =
      (dropEnds String.isEmpty texts).map String.toList := dropEnds_of_isCore hcore
  have hdescription : descriptionOf header = (dropOuterBlankLines
      ((linesAbove (commentBody header.toList)).map Text.trimEnd)).map String.ofList := rfl
  rw [hdescription, hlines, htrim, hdrop, List.map_map]
  simp

/-! ## Drafts -/

theorem TagLine.isBlank_ofText (text : Option Phrase) :
    (TagLine.ofText text).isBlank = true ↔ shownText text = "" := by
  simp [isBlank, ofText, tag?, shownText]

/-- A draft of texts and tags has texts and tags in the end: only empty texts are dropped. -/
theorem Draft.exists_finish_lines {d : Draft} {texts : List (Option Phrase)} {tags : List TagLine}
    (hlines : d.lines = texts.map TagLine.ofText ++ tags)
    (htags : ∀ line ∈ tags, line.tag?.isSome) :
    ∃ before core after, texts = before ++ core ++ after ∧ (∀ text ∈ before, shownText text = "") ∧
      (∀ text ∈ after, shownText text = "") ∧
      d.finish.lines = core.map TagLine.ofText ++ tags := by
  cases hclosed : d.closed with
  | true => exact ⟨[], texts, [], by simp, by simp, by simp, by simp [finish, hclosed, hlines]⟩
  | false =>
    have hfinish : d.finish.lines =
        dropEnds TagLine.isBlank (texts.map TagLine.ofText ++ tags) := by
      simp [finish, hclosed, close, hlines, dropOuterBlank_eq]
    let p : Option Phrase → Bool := fun text => (TagLine.ofText text).isBlank
    have hp (text : Option Phrase) (h : p text = true) : shownText text = "" :=
      (TagLine.isBlank_ofText text).mp h
    by_cases hnil : tags = []
    · subst hnil
      have hcore := isCore_dropEnds p texts
      obtain ⟨before, after, htexts, hbefore, hafter⟩ := hcore.cut
      refine ⟨before, _, after, htexts, fun text htext => hp text (hbefore text htext),
        fun text htext => hp text (hafter text htext), ?_⟩
      rw [hfinish, List.append_nil, List.append_nil]
      exact dropEnds_of_isCore (hcore.map fun _ _ => .rfl)
    · -- the last line is a tag, so empty texts are dropped in front only
      have htag : ∀ line ∈ tags, line.isBlank = false := fun line hline => by
        simp [TagLine.isBlank, Option.isSome_iff_ne_none.mp (htags line hline)]
      refine ⟨texts.takeWhile p, texts.dropWhile p, [], by simp,
        fun text htext => hp text (List.mem_takeWhile_imp htext), by simp, ?_⟩
      rw [hfinish, dropEnds_append_of_kept htag hnil, List.dropWhile_map]
      rfl

/-- **Descriptions are read as they were written.** A header of texts and tags gives back its texts,
without the empty ones at both ends. -/
theorem Draft.descriptionOf_render {d : Draft} {texts : List (Option Phrase)} {tags : List TagLine}
    (hlines : d.lines = texts.map TagLine.ofText ++ tags)
    (htexts : ∀ text ∈ texts, IsKeptText (shownText text)) (htags : ∀ line ∈ tags, line.tag?.isSome)
    (layout : Layout) {indent : String} (hindent : ∀ c ∈ indent.toList, c = ' ' ∨ c = '\t')
    {header : String} (hheader : trimmed header = trimmed (d.render { layout, indent })) :
    descriptionOf header = dropEnds String.isEmpty (texts.map shownText) := by
  obtain ⟨before, core, after, rfl, hbefore, hafter, hfinish⟩ := exists_finish_lines hlines htags
  have hkept : ∀ text ∈ core.map shownText, IsKeptText text :=
    List.forall_mem_map.mpr fun text htext => htexts text (by simp [htext])
  have htagged : ∀ body ∈ tags.map fun line => line.body layout false 0,
      ∃ rest, body = ' ' :: '@' :: rest :=
    List.forall_mem_map.mpr fun line hline => TagLine.exists_body_eq layout (htags line hline)
  have hbodies : (d.finish.lines.map fun line => line.body layout false 0) =
      (core.map shownText).map textBody ++ tags.map fun line => line.body layout false 0 := by
    rw [hfinish, List.map_append, List.map_map, List.map_map]
    simp [Function.comp_def, TagLine.body_ofText]
  obtain ⟨blanks, hblanks, hread⟩ := linesAbove_inside hkept htagged hindent
  have htrim : Text.trim header.toList = Text.trim (d.render { layout, indent }).toList :=
    String.ofList_injective hheader
  rw [trim_render d layout hindent, hbodies] at htrim
  rw [descriptionOf_eq htrim hkept hblanks hread]
  refine (dropEnds_of_isCore ?_).symm
  rw [List.map_append, List.map_append]
  refine (isCore_dropEnds String.isEmpty (core.map shownText)).extend ?_ ?_
  · exact List.forall_mem_map.mpr fun text htext => by simp [hbefore text htext]
  · exact List.forall_mem_map.mpr fun text htext => by simp [hafter text htext]

/-! ## Accessors -/

/-- The line of a text that is repeated. -/
def reusedLine (text : String) : TagLine :=
  if text = "" then .blank else .ofText (some (.plain text))

/-- The lines of a header that repeats a description. -/
def reusedHeader (s : Settings) (texts : List String) : List TagLine :=
  texts.map reusedLine ++
    (if texts ≠ [] ∧ s.flag .emptyLineAfterHeader = true then [.blank] else []) ++
    [.ofTag "inheritdoc"]

theorem IsKeptText.hasContent_iff (h : IsKeptText text) : hasContent text = true ↔ ¬text = "" := by
  rw [← h.isBlankLine_iff, isBlankLine, List.all_eq_not_any_not, hasContent]
  simp

theorem reusedLines_eq (s : Settings) {paired : Focus} {header : String} {texts : List String}
    (hheader : paired.headerText? = some header) (hdescription : descriptionOf header = texts)
    (htexts : ∀ text ∈ texts, IsKeptText text) : reusedLines s paired = reusedHeader s texts := by
  have hmap : texts.map (fun line => if hasContent line then TagLine.ofText (some (.plain line))
      else .blank) = texts.map reusedLine := by
    refine List.map_congr_left fun text htext => ?_
    simp only [reusedLine, (htexts text htext).hasContent_iff, ite_not]
  rw [reusedLines, hheader, Option.getD_some, hdescription, hmap, reusedHeader]
  by_cases hnone : texts = [] <;> simp [hnone, separatorLines]

/-- Closing leaves a header that repeats a description alone. -/
theorem dropOuterBlank_reusedHeader (s : Settings) {texts : List String}
    (hfirst : ∀ text ∈ texts.head?, text ≠ "") :
    dropOuterBlank (reusedHeader s texts) = reusedHeader s texts := by
  have htag : (TagLine.ofTag "inheritdoc").isBlank = false := by decide
  have hline : ∀ line ∈ (reusedHeader s texts).head?, ¬line.isBlank = true := by
    intro line hline
    cases texts with
    | nil =>
      obtain rfl : TagLine.ofTag "inheritdoc" = line := by simpa [reusedHeader] using hline
      simp [htag]
    | cons text texts =>
      have hsome : text ≠ "" := hfirst text rfl
      obtain rfl : TagLine.ofText (some (.plain text)) = line := by
        simpa [reusedHeader, reusedLine, hsome] using hline
      rw [TagLine.isBlank_ofText]
      exact hsome
  refine dropEnds_of_isCore (.of_ends hline fun line hlast => ?_)
  rw [reusedHeader, List.getLast?_concat] at hlast
  cases hlast
  simp [htag]

theorem Builder.kindOf_accessor {σ : Type} (b : Builder σ) {f : Focus}
    (hkind : f.kind = "GetAccessor" ∨ f.kind = "SetAccessor") : b.kindOf f = .ok .accessor := by
  rcases hkind with hkind | hkind <;>
    simp [kindOf, Focus.declarationKind?, Focus.supportedKind?, Focus.isFunctionVariable,
      Focus.functionOwnerKinds, hkind]

/-- The first partner among the siblings is the paired accessor. -/
theorem pairedAccessor?_eq_some {f parent paired : Focus} {before after : List Focus}
    (hparent : f.parent? = some parent) (hchildren : parent.children = before ++ paired :: after)
    (hbefore : ∀ sibling ∈ before, ¬IsPartner f sibling) (hpaired : IsPartner f paired) :
    pairedAccessor? f = some paired := by
  have hpartner (sibling : Focus) : decide ([oppositeAccessor f.kind].contains sibling.kind = true ∧
      (sibling.info.name == f.info.name && sibling.hasHeader) = true) = true ↔
        IsPartner f sibling := by
    simp only [decide_eq_true_eq, Bool.and_eq_true, List.contains_iff_mem, List.mem_singleton,
      beq_iff_eq]
    exact ⟨fun ⟨hkind, hname, hheader⟩ => ⟨hkind, hname, hheader⟩,
      fun h => ⟨h.kind, h.name, h.documented⟩⟩
  rw [pairedAccessor?, hparent, Option.bind_some, Focus.childrenOfKind, List.find?_filter,
    List.find?_eq_some_iff_append]
  refine ⟨(hpartner paired).mpr hpaired, before, after, hchildren, fun sibling hsibling => ?_⟩
  rw [Bool.not_eq_true', Bool.eq_false_iff]
  exact fun h => hbefore sibling hsibling ((hpartner sibling).mp h)

/-- **Accessors repeat descriptions.** A header of texts and tags gives back its texts, without the
empty ones at both ends. When the first partner of an accessor has such a header, that of the
accessor has these texts, a blank line after them when it is asked for, and a tag. No description is
asked for. -/
theorem Builder.build_reuses (d : Draft) {texts : List (Option Phrase)} {tags : List TagLine}
    (hlines : d.lines = texts.map TagLine.ofText ++ tags)
    (htexts : ∀ text ∈ texts, IsKeptText (shownText text)) (htags : ∀ line ∈ tags, line.tag?.isSome)
    (layout : Layout) {indent : String} (hindent : ∀ c ∈ indent.toList, c = ' ' ∨ c = '\t')
    {header : String} (hheader : trimmed header = trimmed (d.render { layout, indent })) :
    descriptionOf header = dropEnds String.isEmpty (texts.map shownText) ∧
    ∀ {σ : Type} (b : Builder σ) {f parent paired : Focus} {before after : List Focus},
      (f.kind = "GetAccessor" ∨ f.kind = "SetAccessor") → f.parent? = some parent →
      parent.children = before ++ paired :: after → (∀ sibling ∈ before, ¬IsPartner f sibling) →
      IsPartner f paired → paired.headerText? = some header → ∀ j,
      b.build f j = (.ok {
        kind := .accessor
        lines := reusedHeader b.settings (dropEnds String.isEmpty (texts.map shownText))
        closed := true }, j) := by
  have hdescription := Draft.descriptionOf_render hlines htexts htags layout hindent hheader
  refine ⟨hdescription, fun b f parent paired before after hkind hparent hchildren hbefore hpaired
    htext j => ?_⟩
  have hcore := isCore_dropEnds String.isEmpty (texts.map shownText)
  have hkept : ∀ text ∈ dropEnds String.isEmpty (texts.map shownText), IsKeptText text := by
    intro text htext
    obtain ⟨phrase, hphrase, rfl⟩ := List.mem_map.mp (hcore.mem htext)
    exact htexts phrase hphrase
  have hreused := reusedLines_eq b.settings htext hdescription hkept
  have hclosed := dropOuterBlank_reusedHeader b.settings fun text htext hnone =>
    hcore.first text htext (by simp [hnone])
  have hpair := pairedAccessor?_eq_some hparent hchildren hbefore hpaired
  have hbuild : b.build f j = (.ok (Draft.close {
      kind := .accessor
      lines := reusedHeader b.settings (dropEnds String.isEmpty (texts.map shownText)) }), j) := by
    simp only [build, b.kindOf_accessor hkind, lines, if_true, hpair, hreused, Logged.bind_apply,
      Logged.pure_apply]
  rw [hbuild, Draft.close, hclosed]

/-- A source that counts how often it is asked. -/
def countingSource : DescriptionSource Nat where
  declaration _ _ j := (.ok (.plain "Asked."), { j with state := j.state + 1 })
  parameters _ _ _ _ j := (.ok [], { j with state := j.state + 1 })
  returns _ j := (.ok (.plain "Asked."), { j with state := j.state + 1 })
  release := pure ()

/-- A description with a list. -/
def levelTexts : List (Option Phrase) :=
  [some (.plain "Reads:"), some (.plain "  * the level"), none]

/-- The header of an accessor with this description. -/
def levelDraft : Draft where
  kind := .accessor
  lines := levelTexts.map TagLine.ofText ++
    [{ tag := some "type", value := some (.plain "number") }]

/-- The text of this header. -/
def levelHeader : String :=
  "/**\n   * Reads:\n   *   * the level\n   *\n   * @type \x7bnumber\x7d\n   */"

/-- An accessor. -/
def levelAccessor (kind : String) (header : Option String) : Node :=
  .mk { kind, fullStart := 0, start := 0, stop := 1, text := "", name := some "level", header } []

/-- A class with an accessor that has this header, and its opposite. -/
def levelClass : Node :=
  .mk { kind := "ClassDeclaration", fullStart := 0, start := 0, stop := 1, text := "" }
    [levelAccessor "GetAccessor" (some levelHeader), levelAccessor "SetAccessor" none]

/-- The opposite accessor has the list too, and the source is not asked. -/
theorem Builder.build_reuses_of_levelDraft :
    (⟨{}, countingSource, { year := 2024, month := 1, day := 1 }⟩ : Builder Nat).build
        ⟨levelAccessor "SetAccessor" none, [(levelClass, 1)]⟩ ⟨0, []⟩ =
      (.ok {
        kind := .accessor
        lines := [.ofText (some (.plain "Reads:")), .ofText (some (.plain "  * the level")), .blank,
          .ofTag "inheritdoc"]
        closed := true }, ⟨0, []⟩) := by
  have hkept : ∀ text ∈ levelTexts, IsKeptText (shownText text) := by
    simp only [levelTexts, List.forall_mem_cons, List.not_mem_nil, false_implies, implies_true,
      and_true]
    refine ⟨⟨?_, ?_, by decide⟩, ⟨?_, ?_, by decide⟩, ⟨?_, ?_, by decide⟩⟩ <;>
      simp [shownText, Phrase.shown, Text.isLineBoundary, Text.isBlank]
  have hindent : ∀ c ∈ "  ".toList, c = ' ' ∨ c = '\t' := by simp
  have hheader : trimmed levelHeader = trimmed (levelDraft.render { layout := {}, indent := "  " }) := by
    decide +kernel
  let getter : Focus := ⟨levelAccessor "GetAccessor" (some levelHeader), [(levelClass, 0)]⟩
  let setter : Focus := ⟨levelAccessor "SetAccessor" none, [(levelClass, 1)]⟩
  have hchildren : (Focus.root levelClass).children = [] ++ getter :: [setter] := rfl
  have hpaired : IsPartner setter getter := ⟨rfl, rfl, by decide⟩
  exact (Builder.build_reuses levelDraft rfl hkept (by decide) {} hindent hheader).2
    ⟨{}, countingSource, { year := 2024, month := 1, day := 1 }⟩ (.inr rfl) rfl hchildren (by simp)
    hpaired rfl ⟨0, []⟩

end DocHeader

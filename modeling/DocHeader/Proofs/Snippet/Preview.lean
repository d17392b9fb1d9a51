import DocHeader.Proofs.Snippet.Stops
import DocHeader.Proofs.Text.Splitting
import Mathlib.Data.List.DropRight

/-!
# What a header shows as a snippet

A header written as a snippet shows the same text as the plain header. An open region, one
without a text, has a place in the snippet only; where it comes last on its line, all that
it adds are spaces at the end of the line.

## Main definitions

* `TagLine.HasOpenRegion`, `TagLine.OpenRegionsLast` — lines with an open region, and lines
  where one comes last.
* `trimmedRows` — a text up to the spaces at the ends of its lines.
-/

namespace DocHeader

namespace TagLine

/-- The value is a region without a text. -/
def OpensValue (line : TagLine) : Prop := line.forceRegion = true ∧ shownText line.value = ""

/-- The description is a region without a text. -/
def OpensDescription (line : TagLine) : Prop := line.description = some (.region "")

instance (line : TagLine) : Decidable line.OpensValue := inferInstanceAs (Decidable (_ ∧ _))

instance (line : TagLine) : Decidable line.OpensDescription :=
  inferInstanceAs (Decidable (_ = _))

/-- A line with a region without a text. -/
def HasOpenRegion (line : TagLine) : Prop := line.OpensValue ∨ line.OpensDescription

instance (line : TagLine) : Decidable line.HasOpenRegion := inferInstanceAs (Decidable (_ ∨ _))

/-- A region without a text comes last on the line, and a value without one has no
delimiters. -/
def OpenRegionsLast (line : TagLine) : Prop :=
  line.OpensValue → line.delimiters = bare ∧ shownText line.name = "" ∧
    shownText line.description = "" ∧ ¬line.OpensDescription

instance (line : TagLine) : Decidable line.OpenRegionsLast :=
  inferInstanceAs (Decidable (_ → _))

/-! ## What is seen beside the plain line -/

/-- The segments of the plain line. -/
def plainSegments (layout : Layout) (line : TagLine) : List Segment :=
  (line.segments layout false 0).1

theorem plainSegments_eq (layout : Layout) (line : TagLine) :
    line.plainSegments layout =
      textSegment layout.value line.delimiters.1 (shownText line.value) line.delimiters.2 ++
        textSegment layout.name "" (shownText line.name) "" ++
        textSegment layout.description "" (shownText line.description) "" := by
  rw [plainSegments, segments_plain, List.append_assoc]

/-- A value that is not open is seen in the plain line too. -/
theorem seenValue_eq (layout : Layout) {line : TagLine} (h : ¬line.OpensValue) :
    line.seenValue layout =
      textSegment layout.value line.delimiters.1 (shownText line.value) line.delimiters.2 := by
  by_cases hshown : shownText line.value = ""
  · have hforce : line.forceRegion = false := by simpa [OpensValue, hshown] using h
    simp [seenValue, textSegment, showsValue, hshown, hforce]
  · simp [seenValue, textSegment, showsValue, hshown]

/-- A description that is not open is seen in the plain line too. -/
theorem seenDescription_eq (layout : Layout) {line : TagLine} (h : ¬line.OpensDescription) :
    line.seenDescription layout =
      textSegment layout.description "" (shownText line.description) "" := by
  by_cases hshown : shownText line.description = ""
  · have hregion : (line.description.map Phrase.isRegion).getD false = false := by
      rcases hdescription : line.description with _ | ⟨text⟩ | ⟨text⟩
      · rfl
      · rfl
      · rw [hdescription] at hshown
        have htext : text = "" := hshown
        exact absurd (hdescription.trans (by rw [htext])) h
    simp [seenDescription, textSegment, showsDescription, hshown, hregion]
  · simp [seenDescription, textSegment, showsDescription, hshown]

/-- Without an open region the same is seen as in the plain line. -/
theorem seenSegments_of_closed (layout : Layout) {line : TagLine} (h : ¬line.HasOpenRegion) :
    line.seenSegments layout = line.plainSegments layout := by
  obtain ⟨hvalue, hdescription⟩ := not_or.mp h
  rw [seenSegments, seenValue_eq layout hvalue, seenDescription_eq layout hdescription,
    plainSegments_eq]

/-- An open region at the end of the line comes after all that is seen in the plain line. -/
theorem seenSegments_of_last (layout : Layout) {line : TagLine} (h : line.OpenRegionsLast) :
    ∃ blank : List Segment, line.seenSegments layout = line.plainSegments layout ++ blank ∧
      ∀ s ∈ blank, s.markup = "" := by
  by_cases hvalue : line.OpensValue
  · obtain ⟨hbare, hname, hshown, hclosed⟩ := h hvalue
    refine ⟨[⟨"", "", layout.value⟩], ?_, by simp⟩
    rw [seenSegments, seenDescription_eq layout hclosed, plainSegments_eq]
    simp [seenValue, showsValue, textSegment, hvalue.1, hvalue.2, hbare, bare, hname, hshown]
  · by_cases hdescription : line.OpensDescription
    · refine ⟨[⟨"", "", layout.description⟩], ?_, by simp⟩
      have hshown : shownText line.description = "" := by rw [hdescription]; rfl
      have hregion : (line.description.map Phrase.isRegion).getD false = true := by
        rw [hdescription]; rfl
      rw [seenSegments, seenValue_eq layout hvalue, plainSegments_eq]
      simp [seenDescription, showsDescription, textSegment, hshown, hregion]
    · have hclosed : ¬line.HasOpenRegion := not_or.mpr ⟨hvalue, hdescription⟩
      exact ⟨[], by rw [List.append_nil, seenSegments_of_closed layout hclosed], by simp⟩

/-- Segments that write nothing add blanks at the end. -/
theorem writeSegments_append_blank (align : Bool) (width : Nat) (segments : List Segment)
    {blank : List Segment} (h : ∀ s ∈ blank, s.markup = "") :
    ∃ count, (writeSegments align width (segments ++ blank)).toList =
      (writeSegments align width segments).toList ++ List.replicate count ' ' := by
  induction segments generalizing width with
  | nil =>
    induction blank generalizing width with
    | nil => exact ⟨0, rfl⟩
    | cons s rest ih =>
      obtain ⟨count, hrest⟩ := ih
        (fun s hs => h s (List.mem_cons_of_mem _ hs))
        (width + padding align s.column width + s.shown.length)
      refine ⟨padding align s.column width + count, ?_⟩
      simp only [List.nil_append, writeSegments] at hrest ⊢
      simp [hrest, h s List.mem_cons_self]
  | cons s rest ih =>
    obtain ⟨count, hrest⟩ := ih (width + padding align s.column width + s.shown.length)
    exact ⟨count, by simp [writeSegments, hrest]⟩

theorem seenBody_of_closed (layout : Layout) {line : TagLine} (h : ¬line.HasOpenRegion) :
    line.seenBody layout = line.body layout false 0 := by
  rw [seenBody, seenSegments_of_closed layout h]
  rfl

theorem seenBody_of_last (layout : Layout) {line : TagLine} (h : line.OpenRegionsLast) :
    ∃ count, line.seenBody layout = line.body layout false 0 ++ List.replicate count ' ' := by
  obtain ⟨blank, hseen, hblank⟩ := seenSegments_of_last layout h
  obtain ⟨count, hcount⟩ := writeSegments_append_blank line.align (2 + line.tagText.length)
    (line.plainSegments layout) hblank
  refine ⟨count, ?_⟩
  rw [seenBody, hseen, String.toList_append, hcount, ← List.append_assoc, ← String.toList_append]
  rfl

end TagLine

/-! ## Spaces at the ends of lines -/

/-- The lines of a text without the spaces at their ends. -/
def trimmedRows (text : List Char) : List (List Char) :=
  (text.splitOn '\n').map (List.rdropWhile (· == ' '))

theorem rdropWhile_append_spaces (row : List Char) (count : Nat) :
    (row ++ List.replicate count ' ').rdropWhile (· == ' ') = row.rdropWhile (· == ' ') := by
  induction count with
  | zero => simp
  | succ count ih =>
    rw [List.replicate_succ', ← List.append_assoc, List.rdropWhile_concat_pos _ _ _ rfl, ih]

theorem trimmedRows_append_spaces (text : List Char) (count : Nat) :
    trimmedRows (text ++ List.replicate count ' ') = trimmedRows text := by
  obtain ⟨first, last, -, hsplit⟩ := splitOn_append_of_notMem '\n' text
  have hspaces : '\n' ∉ List.replicate count ' ' := by
    intro hmem
    cases List.eq_of_mem_replicate hmem
  have hnone := hsplit [] List.not_mem_nil
  rw [List.append_nil, List.append_nil] at hnone
  rw [trimmedRows, trimmedRows, hsplit _ hspaces, hnone, List.map_append, List.map_append,
    List.map_singleton, List.map_singleton, rdropWhile_append_spaces]

theorem trimmedRows_flatMap (text : List Char) (pieces : List (List Char)) :
    trimmedRows (text ++ pieces.flatMap ('\n' :: ·)) =
      trimmedRows text ++ pieces.flatMap trimmedRows := by
  rw [trimmedRows, splitOn_flatMap, List.map_append, List.map_flatMap]
  rfl

/-- Spaces at the ends of the lines of a header do not count. -/
theorem trimmedRows_stacked (indent : List Char) (lines : List TagLine)
    {first second : TagLine → List Char}
    (h : ∀ line ∈ lines, ∃ count, first line = second line ++ List.replicate count ' ') :
    trimmedRows ('/' :: '*' :: '*' :: (inside indent false (lines.map first) ++
        ' ' :: '*' :: '/' :: '\n' :: indent)) =
      trimmedRows ('/' :: '*' :: '*' :: (inside indent false (lines.map second) ++
        ' ' :: '*' :: '/' :: '\n' :: indent)) := by
  have hlines : (lines.map fun line => trimmedRows (indent ++ ' ' :: '*' :: first line)) =
      lines.map fun line => trimmedRows (indent ++ ' ' :: '*' :: second line) := by
    refine List.map_congr_left fun line hline => ?_
    obtain ⟨count, hcount⟩ := h line hline
    have hrow := trimmedRows_append_spaces (indent ++ ' ' :: '*' :: second line) count
    rw [hcount]
    simpa using hrow
  have hflat := congrArg List.flatten hlines
  rw [stacked_eq, stacked_eq, trimmedRows_flatMap, trimmedRows_flatMap, List.flatMap_append,
    List.flatMap_append]
  simp only [List.flatMap_map, ← List.flatMap_def] at hflat ⊢
  rw [hflat]

/-! ## Headers -/

theorem Snippet.isReserved_of_isBlank {c : Char} (h : Text.isBlank c = true) :
    Snippet.isReserved c = false := by
  by_contra hreserved
  simp only [Snippet.isReserved, Bool.not_eq_false, Bool.or_eq_true, beq_iff_eq] at hreserved
  rcases hreserved with (rfl | rfl) | rfl <;> cases h

namespace Draft

theorem toList_render_snippet (d : Draft) (style : Style) :
    (d.render { style with snippet := true }).toList = '/' :: '*' :: '*' ::
      (inside style.indent.toList (style.singleLine && d.finish.lines.length ≤ 1)
          (bodies style.layout true 1 d.finish.lines) ++
        ' ' :: '*' :: '/' :: '\n' :: style.indent.toList) := by
  have htext := d.toList_render { style with snippet := true } (renderLines_eq _ _ _ _)
  simpa only [length_bodies] using htext

theorem toList_render_plain (d : Draft) (style : Style) :
    (d.render { style with snippet := false }).toList = '/' :: '*' :: '*' ::
      (inside style.indent.toList (style.singleLine && d.finish.lines.length ≤ 1)
          (d.finish.lines.map fun line => line.body style.layout false 0) ++
        ' ' :: '*' :: '/' :: '\n' :: style.indent.toList) := by
  have htext := d.toList_render { style with snippet := false } (renderLines_eq _ _ _ _)
  simpa only [bodies_plain, List.length_map] using htext

/-- **The snippet of a header shows the plain header.** For every draft whose tags hold no
character with a meaning in snippets, every layout, white space as indentation and either
style of comment, the snippet can be read. Its stops are the editable regions of the lines
in order, numbered from one on. Without an open region it shows the plain header; when open
regions come last on their lines, and the header is not written on a single line, it does so
up to spaces at the ends of lines. -/
theorem snippet_shows_plain (d : Draft) (style : Style)
    (htags : ∀ tag ∈ d.tags, ∀ c ∈ tag.toList, Snippet.isReserved c = false)
    (hindent : ∀ c ∈ style.indent.toList, Text.isBlank c = true) :
    ∃ parts, Snippet.read? (d.render { style with snippet := true }).toList = some parts ∧
      Snippet.stops parts =
        ((d.finish.lines.flatMap TagLine.regions).map String.toList).zipIdx 1 ∧
      ((∀ line ∈ d.finish.lines, ¬line.HasOpenRegion) →
        Snippet.shown parts = (d.render { style with snippet := false }).toList) ∧
      ((style.singleLine = true → 1 < d.finish.lines.length) →
        (∀ line ∈ d.finish.lines, line.OpenRegionsLast) →
        trimmedRows (Snippet.shown parts) =
          trimmedRows (d.render { style with snippet := false }).toList) := by
  have hlineTags : ∀ line ∈ d.finish.lines, ∀ tag ∈ line.tag?, ∀ c ∈ tag.toList,
      Snippet.isReserved c = false := fun line hline tag htag =>
    htags tag (List.mem_filterMap.mpr ⟨line, d.finish_lines_sublist.mem hline, htag⟩)
  have hfree : ∀ c ∈ style.indent.toList, Snippet.isReserved c = false := fun c hc =>
    Snippet.isReserved_of_isBlank (hindent c hc)
  have hend : ∀ c ∈ ' ' :: '*' :: '/' :: '\n' :: style.indent.toList,
      Snippet.isReserved c = false := by
    simpa [Snippet.isReserved] using hfree
  have hbegin : ∀ c ∈ ['/', '*', '*'], Snippet.isReserved c = false := by
    simp [Snippet.isReserved]
  have hdisplays := ((Displays.free 1 hbegin).append (inside_displays style.layout hfree
    (style.singleLine && d.finish.lines.length ≤ 1) 1 hlineTags)).append (.free _ hend)
  obtain ⟨parts, hwritten, hshown, hstops⟩ := hdisplays
  refine ⟨parts, ?_, by simpa using hstops, fun hclosed => ?_, fun hmulti hlast => ?_⟩
  · rw [← Snippet.read?_written parts, hwritten, toList_render_snippet]
    simp
  · have hseen : d.finish.lines.map (TagLine.seenBody style.layout) =
        d.finish.lines.map fun line => line.body style.layout false 0 :=
      List.map_congr_left fun line hline => line.seenBody_of_closed _ (hclosed line hline)
    rw [hshown, hseen, toList_render_plain]
    simp
  · have hrows := trimmedRows_stacked style.indent.toList d.finish.lines
      fun line hline => line.seenBody_of_last style.layout (hlast line hline)
    have hstacked : (style.singleLine && decide (d.finish.lines.length ≤ 1)) = false := by
      cases hsingle : style.singleLine with
      | false => rfl
      | true => simpa using hmulti hsingle
    rw [hshown, toList_render_plain, hstacked, ← hrows]
    simp

/-- A header with a price in its description, and two editable regions with one text. -/
def priced (text : String) : Draft where
  kind := .method
  lines := [.ofText (some (.plain "Costs $5 \x7bx\x7d \\ more")), .blank,
    { tag := some "param", value := some (.plain "number"), name := some (.plain "a"),
      description := some (.region text) },
    { tag := some "since", value := some (.region text), delimiters := bare,
      forceRegion := true }]

/-- With texts in its regions the snippet shows the plain header, and with open ones it does
so up to spaces. -/
theorem snippet_shows_prices :
    (∃ parts, Snippet.read? ((priced "$\x7d").render { snippet := true }).toList = some parts ∧
      Snippet.stops parts = [(['$', '\x7d'], 1), (['$', '\x7d'], 2)] ∧
      Snippet.shown parts = ((priced "$\x7d").render {}).toList) ∧
    ∃ parts, Snippet.read? ((priced "").render { snippet := true, indent := "\t" }).toList =
        some parts ∧
      Snippet.stops parts = [([], 1), ([], 2)] ∧
      trimmedRows (Snippet.shown parts) =
        trimmedRows ((priced "").render { indent := "\t" }).toList := by
  have htags (text : String) :
      ∀ tag ∈ (priced text).tags, ∀ c ∈ tag.toList, Snippet.isReserved c = false := by
    intro tag htag
    have htags : (priced text).tags = ["param", "since"] := rfl
    rw [htags] at htag
    obtain rfl | rfl : tag = "param" ∨ tag = "since" := by simpa using htag
    · simp [Snippet.isReserved]
    · simp [Snippet.isReserved]
  constructor
  · obtain ⟨parts, hread, hstops, hclosed, -⟩ :=
      snippet_shows_plain (priced "$\x7d") {} (htags _) (by simp)
    exact ⟨parts, hread, hstops, hclosed (by decide +kernel)⟩
  · obtain ⟨parts, hread, hstops, -, hlast⟩ :=
      snippet_shows_plain (priced "") { indent := "\t" } (htags _) (by simp [Text.isBlank])
    exact ⟨parts, hread, hstops, hlast (by decide +kernel) (by decide +kernel)⟩

end Draft

end DocHeader

import DocHeader.Proofs.Snippet.Stops

/-!
# Columns

The texts of a line start at their columns, one after the other, wherever what stands before them
leaves room. Columns count what a user sees: of a stop its initial text, and of an escaped
character the character itself.

A tag is written without escapes and counted as it is written. In a snippet it is read like
everything else, so a tag with a reserved character shows less than is counted, and what follows
it starts too early.

## Main definitions

* `startColumn` — where a text starts.
* `TagLine.pieces` — the texts of a line after its tag, with their columns.
* `InColumns` — what is seen of a line on which every text starts where it should.
* `TagLine.ShownInColumns` — a row that shows the texts of a line in columns.
* `TagLine.WrittenInColumns` — a row that does so when the tag is taken for what is written.
* `TagLine.HasSteadyTag` — the tag of a line shows as much as is counted.
-/

namespace DocHeader

/-- The parts of a text, which is a snippet or plain. -/
def partsOf? (snippet : Bool) (cs : List Char) : Option (List Snippet.Part) :=
  if snippet then Snippet.read? cs else some (cs.map .char)

/-- Where a text starts after `width` characters: at its column, when the line is aligned and
there is room for a blank before it, and after one blank otherwise. -/
def startColumn (align : Bool) (column : Int) (width : Nat) : Nat :=
  if align then max column.toNat (width + 1) else width + 1

/-- A row of a header as a user sees it: after its beginning it has texts, and each starts at its
column, counted in what is seen of the row before it. -/
inductive InColumns (align : Bool) (beginning : List Snippet.Part) :
    List Snippet.Part → List (String × Int) → Prop
  | nil : InColumns align beginning beginning []
  | text {row parts : List Snippet.Part} {pieces : List (String × Int)} {blanks : Nat}
    {text : String} {column : Int} (hrow : InColumns align beginning row pieces)
    (hstart : (Snippet.shown row).length + blanks =
      startColumn align column (Snippet.shown row).length)
    (htext : Snippet.shown parts = text.toList) :
    InColumns align beginning (row ++ List.replicate blanks (.char ' ') ++ parts)
      (pieces ++ [(text, column)])

namespace TagLine

/-- The texts that have a place on a line after its tag, with their columns: the value with its
delimiters, the name and the description. -/
def pieces (layout : Layout) (snippet : Bool) (line : TagLine) : List (String × Int) :=
  (if line.showsValue snippet then
    [(line.delimiters.1 ++ shownText line.value ++ line.delimiters.2, layout.value)] else []) ++
  (if shownText line.name = "" then [] else [(shownText line.name, layout.name)]) ++
  if line.showsDescription snippet then [(shownText line.description, layout.description)] else []

/-- What a row begins with: a star and the tag. -/
def beginning (line : TagLine) : List Char := " *".toList ++ line.tagText.toList

/-- A row shows the texts of a line in columns, after its tag. -/
def ShownInColumns (layout : Layout) (snippet : Bool) (line : TagLine) (row : List Char) : Prop :=
  ∃ beginning parts, partsOf? snippet line.beginning = some beginning ∧
    partsOf? snippet row = some parts ∧
      InColumns line.align beginning parts (line.pieces layout snippet)

/-- A row has the texts of a line in columns, when its tag is taken for what is written. -/
def WrittenInColumns (layout : Layout) (snippet : Bool) (line : TagLine) (row : List Char) : Prop :=
  ∃ rest parts, row = line.beginning ++ rest ∧ partsOf? snippet rest = some parts ∧
    InColumns line.align (line.beginning.map .char) (line.beginning.map .char ++ parts)
      (line.pieces layout snippet)

/-- The tag of a line can be read in a snippet; where columns count, none of its characters is
reserved. -/
def HasSteadyTag (line : TagLine) : Prop :=
  (Snippet.read? line.beginning).isSome ∧
    (line.align = true → line.pieces {} true ≠ [] →
      ∀ tag ∈ line.tag?, ∀ c ∈ tag.toList, Snippet.isReserved c = false)

end TagLine

/-! ## Columns -/

/-- A blank at least stands before each text. -/
theorem lt_startColumn (align : Bool) (column : Int) (width : Nat) :
    width < startColumn align column width := by
  unfold startColumn
  split <;> omega

/-- Where there is room, a text starts at its column. -/
theorem startColumn_of_room {column : Int} {width : Nat} (hroom : width < column) :
    startColumn true column width = column := by
  simp only [startColumn, if_true]
  omega

theorem add_padding (align : Bool) (column : Int) (width : Nat) :
    width + TagLine.padding align column width = startColumn align column width := by
  unfold TagLine.padding startColumn
  cases align with
  | false => simp
  | true =>
    simp only [Bool.true_and, decide_eq_true_eq, if_true]
    split <;> omega

/-- Where a row with texts ends. -/
def endColumn (align : Bool) (width : Nat) (pieces : List (String × Int)) : Nat :=
  pieces.foldl (fun width piece => startColumn align piece.2 width + piece.1.length) width

theorem InColumns.length_shown {align : Bool} {beginning row : List Snippet.Part}
    {pieces : List (String × Int)} (h : InColumns align beginning row pieces) :
    (Snippet.shown row).length = endColumn align (Snippet.shown beginning).length pieces := by
  induction h with
  | nil => rfl
  | @text row parts pieces blanks text column _ hstart htext ih =>
    rw [endColumn] at ih ⊢
    rw [List.foldl_append, ← ih, List.foldl_cons, List.foldl_nil, ← hstart, ← List.map_replicate,
      Snippet.shown_append, Snippet.shown_append, Snippet.shown_chars, htext, List.length_append,
      List.length_append, List.length_replicate, String.length_toList]

theorem InColumns.eq_beginning {align : Bool} {beginning row : List Snippet.Part}
    (h : InColumns align beginning row []) : row = beginning := by
  generalize hpieces : ([] : List (String × Int)) = pieces at h
  cases h with
  | nil => rfl
  | text => simp at hpieces

/-- When all texts have one column, with room before it, it does not matter where the first one
comes after. -/
theorem endColumn_eq_of_room {pieces : List (String × Int)} {column : Int} {width width' : Nat}
    (hcolumn : ∀ piece ∈ pieces, piece.2 = column) (hsome : pieces ≠ []) (hwidth : width < column)
    (hwidth' : width' < column) :
    endColumn true width pieces = endColumn true width' pieces := by
  match pieces with
  | piece :: rest =>
    have hstart : startColumn true piece.2 width = startColumn true piece.2 width' := by
      rw [hcolumn piece List.mem_cons_self]
      exact Int.ofNat.inj
        ((startColumn_of_room hwidth).trans (startColumn_of_room hwidth').symm)
    simp only [endColumn, List.foldl_cons, hstart]

/-! ## Segments -/

theorem partsOf?_append {snippet : Bool} {a b : List Char} {parts parts' : List Snippet.Part}
    (ha : partsOf? snippet a = some parts) (hb : partsOf? snippet b = some parts') :
    partsOf? snippet (a ++ b) = some (parts ++ parts') := by
  cases snippet with
  | true => exact Snippet.readFrom_append ha hb
  | false =>
    obtain rfl : a.map Snippet.Part.char = parts := by simpa [partsOf?] using ha
    obtain rfl : b.map Snippet.Part.char = parts' := by simpa [partsOf?] using hb
    simp [partsOf?]

theorem partsOf?_of_free {cs : List Char} (snippet : Bool)
    (h : ∀ c ∈ cs, Snippet.isReserved c = false) : partsOf? snippet cs = some (cs.map .char) := by
  cases snippet with
  | true => exact Snippet.read?_of_free h
  | false => rfl

/-- A segment is written so that it shows its text. -/
def Segment.IsShown (snippet : Bool) (s : Segment) : Prop :=
  ∃ parts, partsOf? snippet s.markup.toList = some parts ∧ Snippet.shown parts = s.shown.toList

theorem SegmentsDisplay.isShown {stop : Nat} {segments : List Segment} {regions : List String}
    (h : SegmentsDisplay stop segments regions) : ∀ s ∈ segments, s.IsShown true := by
  induction h with
  | nil => simp
  | cons hs _ ih =>
    obtain ⟨parts, hwritten, hshown, -⟩ := hs
    refine List.forall_mem_cons.mpr ⟨⟨parts, ?_, hshown⟩, ih⟩
    rw [← hwritten]
    exact Snippet.read?_written parts

/-- The text of a segment with its column. -/
def Segment.piece (s : Segment) : String × Int := (s.shown, s.column)

namespace TagLine

/-- Segments are written so that their texts come in columns, after whatever takes up the columns
that are counted already. -/
theorem writeSegments_inColumns {snippet : Bool} {segments : List Segment}
    (h : ∀ s ∈ segments, s.IsShown snippet) (align : Bool) (width : Nat) :
    ∃ parts, partsOf? snippet (writeSegments align width segments).toList = some parts ∧
      ∀ beginning row pieces, InColumns align beginning row pieces →
        (align = true → (Snippet.shown row).length = width) →
          InColumns align beginning (row ++ parts) (pieces ++ segments.map Segment.piece) := by
  induction segments generalizing width with
  | nil => exact ⟨[], by cases snippet <;> rfl, fun _ _ _ hrow _ => by simpa using hrow⟩
  | cons s rest ih =>
    obtain ⟨⟨parts, hparts, hshown⟩, hrest⟩ := List.forall_mem_cons.mp h
    let blanks := padding align s.column width
    obtain ⟨parts', hparts', hcolumns⟩ := ih hrest (width + blanks + s.shown.length)
    have hblanks : partsOf? snippet (List.replicate blanks ' ') =
        some (List.replicate blanks (.char ' ')) := by
      rw [partsOf?_of_free snippet fun c hc => by rw [List.eq_of_mem_replicate hc]; rfl,
        List.map_replicate]
    refine ⟨List.replicate blanks (.char ' ') ++ parts ++ parts', ?_, ?_⟩
    · have hline := partsOf?_append (partsOf?_append hblanks hparts) hparts'
      simpa [writeSegments, blanks] using hline
    · intro beginning row pieces hrow hwidth
      have hstart : (Snippet.shown row).length + blanks =
          startColumn align s.column (Snippet.shown row).length := by
        cases align with
        | true => rw [hwidth rfl, add_padding]
        | false => rfl
      have hnext := hcolumns beginning _ _ (hrow.text hstart hshown) fun halign => by
        rw [← List.map_replicate, Snippet.shown_append, Snippet.shown_append, Snippet.shown_chars,
          hshown, List.length_append, List.length_append, List.length_replicate, hwidth halign,
          String.length_toList]
      simpa [Segment.piece] using hnext

theorem map_piece_textSegment (column : Int) (opening text closing : String) :
    (textSegment column opening text closing).map Segment.piece =
      if text = "" then [] else [(opening ++ text ++ closing, column)] := by
  by_cases htext : text = "" <;> simp [textSegment, Segment.piece, htext]

/-- The segments of a line show its texts, each with its column. -/
theorem segments_pieces (layout : Layout) (snippet : Bool) (stop : Nat) (line : TagLine) :
    (∀ s ∈ (line.segments layout snippet stop).1, s.IsShown snippet) ∧
      (line.segments layout snippet stop).1.map Segment.piece = line.pieces layout snippet := by
  cases snippet with
  | true =>
    have hshow := line.segments_show layout stop
    refine ⟨hshow.display.isShown, ?_⟩
    have hseen : (line.segments layout true stop).1.map Segment.piece =
        (line.seenSegments layout).map Segment.piece := by
      rw [← hshow.seen, List.map_map]
      rfl
    rw [hseen, seenSegments, List.map_append, List.map_append, map_piece_textSegment, pieces]
    unfold seenValue seenDescription
    split_ifs <;> simp [Segment.piece]
  | false =>
    rw [segments_plain]
    constructor
    · intro s hs
      refine ⟨s.markup.toList.map .char, rfl, ?_⟩
      have hmarkup : s.markup = s.shown := by
        simp only [List.mem_append, textSegment] at hs
        rcases hs with hs | hs | hs <;> split_ifs at hs <;> simp_all
      rw [Snippet.shown_chars, hmarkup]
    · simp [map_piece_textSegment, pieces, showsValue, showsDescription]

/-! ## Lines -/

variable {line : TagLine} {layout : Layout} {snippet : Bool}

/-- After whatever takes up the columns of the tag, the texts of a line come in columns. -/
theorem render_inColumns (layout : Layout) (snippet : Bool) (stop : Nat) (line : TagLine) :
    ∃ rest parts, (line.render layout snippet stop).1.toList = line.beginning ++ rest ∧
      partsOf? snippet rest = some parts ∧
      ∀ beginning, (line.align = true →
          (Snippet.shown beginning).length = line.beginning.length) →
        InColumns line.align beginning (beginning ++ parts) (line.pieces layout snippet) := by
  obtain ⟨hshown, hpieces⟩ := line.segments_pieces layout snippet stop
  obtain ⟨parts, hparts, hcolumns⟩ :=
    writeSegments_inColumns hshown line.align (2 + line.tagText.length)
  have hlength : line.beginning.length = 2 + line.tagText.length := by
    rw [beginning, List.length_append, String.length_toList]
    rfl
  refine ⟨_, parts, by simp [render, beginning], hparts, fun beginning hbeginning => ?_⟩
  have hrow := hcolumns beginning beginning [] .nil fun halign => by
    rw [hbeginning halign, hlength]
  rwa [hpieces, List.nil_append] at hrow

/-- A tag without reserved characters is read as it is written. -/
theorem read?_beginning (htag : ∀ tag ∈ line.tag?, ∀ c ∈ tag.toList, Snippet.isReserved c = false) :
    Snippet.read? line.beginning = some (line.beginning.map .char) := by
  refine Snippet.read?_of_free fun c hc => ?_
  rcases List.mem_append.mp hc with hc | hc
  · obtain rfl | rfl : c = ' ' ∨ c = '*' := by simpa using hc
    · rfl
    · rfl
  · exact tagText_free htag c hc

/-- What columns a tag takes up matters where texts are in columns only. -/
theorem HasSteadyTag.length_shown (h : line.HasSteadyTag) {beginning : List Snippet.Part}
    (hread : Snippet.read? line.beginning = some beginning) (halign : line.align = true)
    (hpieces : line.pieces {} true ≠ []) :
    (Snippet.shown beginning).length = line.beginning.length := by
  rw [read?_beginning (h.2 halign hpieces)] at hread
  cases hread
  rw [Snippet.shown_chars]

/-- Which texts there are is not a matter of their columns. -/
theorem pieces_eq_nil_iff (layout : Layout) (snippet : Bool) (line : TagLine) :
    line.pieces layout snippet = [] ↔ line.pieces {} snippet = [] := by
  simp [pieces]

theorem column_of_mem_pieces {column : Int} {piece : String × Int}
    (h : piece ∈ line.pieces ⟨column, column, column⟩ snippet) : piece.2 = column := by
  simp only [pieces, List.mem_append] at h
  rcases h with (h | h) | h <;> split_ifs at h <;> simp_all

/-- The texts of a line are in columns, when its tag is taken for what is written. -/
theorem writtenInColumns (layout : Layout) (snippet : Bool) (stop : Nat) (line : TagLine) :
    line.WrittenInColumns layout snippet (line.render layout snippet stop).1.toList := by
  obtain ⟨rest, parts, hrow, hparts, hcolumns⟩ := line.render_inColumns layout snippet stop
  exact ⟨rest, parts, hrow, hparts, hcolumns _ fun _ => by rw [Snippet.shown_chars]⟩

/-- Plain lines are in columns. -/
theorem shownInColumns_plain (layout : Layout) (stop : Nat) (line : TagLine) :
    line.ShownInColumns layout false (line.render layout false stop).1.toList := by
  obtain ⟨rest, parts, hrow, hparts, hcolumns⟩ := line.render_inColumns layout false stop
  refine ⟨line.beginning.map .char, _, rfl, ?_, hcolumns _ fun _ => ?_⟩
  · rw [hrow]
    exact partsOf?_append rfl hparts
  · rw [Snippet.shown_chars]

/-- Lines of a snippet are in columns when their tags are steady. -/
theorem HasSteadyTag.shownInColumns (h : line.HasSteadyTag) (layout : Layout) (stop : Nat) :
    line.ShownInColumns layout true (line.render layout true stop).1.toList := by
  obtain ⟨rest, parts, hrow, hparts, hcolumns⟩ := line.render_inColumns layout true stop
  obtain ⟨beginning, hbeginning⟩ := Option.isSome_iff_exists.mp h.1
  refine ⟨beginning, beginning ++ parts, hbeginning, ?_, ?_⟩
  · rw [hrow]
    exact partsOf?_append hbeginning hparts
  · by_cases hpieces : line.pieces {} true = []
    · have hnone := (line.pieces_eq_nil_iff layout true).mpr hpieces
      have hself := hcolumns (line.beginning.map .char) fun _ => by rw [Snippet.shown_chars]
      rw [hnone] at hself ⊢
      obtain rfl : parts = [] := List.append_right_eq_self.mp hself.eq_beginning
      rw [List.append_nil]
      exact .nil
    · exact hcolumns beginning fun halign => h.length_shown hbeginning halign hpieces

/-- Only lines with steady tags are in columns under every layout: with one column for all texts
the row would end where it ends after a tag that shows all that is counted. -/
theorem hasSteadyTag_of_shownInColumns
    (h : ∀ layout stop, line.ShownInColumns layout true (line.render layout true stop).1.toList) :
    line.HasSteadyTag := by
  obtain ⟨_, _, hfirst, -⟩ := h {} 1
  refine ⟨Option.isSome_iff_exists.mpr ⟨_, hfirst⟩, fun halign hpieces tag htag c hc => ?_⟩
  by_contra hreserved
  let column : Int := line.beginning.length + 1
  let layout : Layout := ⟨column, column, column⟩
  have hsome : line.pieces layout true ≠ [] := fun hnone =>
    hpieces ((line.pieces_eq_nil_iff layout true).mp hnone)
  obtain ⟨rest, parts, hrow, hparts, hcolumns⟩ := line.render_inColumns layout true 1
  obtain ⟨beginning, parts', hbeginning, hread, hseen⟩ := h layout 1
  obtain rfl : beginning ++ parts = parts' := by
    rw [hrow] at hread
    exact Option.some_inj.mp ((partsOf?_append hbeginning hparts).symm.trans hread)
  have hless : (Snippet.shown beginning).length < line.beginning.length := by
    refine Snippet.length_shown_lt hbeginning (c := c) ?_ (by simpa using hreserved)
    simp [TagLine.beginning, tagText, Option.mem_def.mp htag, hc]
  have hcounted := (hcolumns (line.beginning.map .char) fun _ => by
    rw [Snippet.shown_chars]).length_shown
  have hshown := hseen.length_shown
  rw [halign, Snippet.shown_append, List.length_append] at hcounted hshown
  rw [Snippet.shown_chars] at hcounted
  have hend : endColumn true (Snippet.shown beginning).length (line.pieces layout true) =
      endColumn true line.beginning.length (line.pieces layout true) :=
    endColumn_eq_of_room (fun _ hpiece => column_of_mem_pieces hpiece) hsome
      (by omega) (by omega)
  omega

end TagLine

/-! ## Headers -/

theorem renderLines_rows (layout : Layout) (snippet : Bool) (stop : Nat) (lines : List TagLine) :
    List.Forall₂ (fun line row => ∃ stop, row = (TagLine.render layout snippet stop line).1.toList)
      lines ((renderLines layout snippet stop lines).map String.toList) := by
  induction lines generalizing stop with
  | nil => exact .nil
  | cons line rest ih => exact .cons ⟨stop, rfl⟩ (ih _)

/-- **Columns of a header.** On every row of a header of several lines the texts are in columns, if
in a snippet the tag of the line is steady. They are so on every row when tags are taken for what is
written. A line is in columns in the snippets of all layouts just when its tag is steady. There is
always a blank before a text, and it starts at its column where there is room. -/
theorem Draft.render_columns (d : Draft) (style : Style) (hstacked : style.singleLine = false) :
    (∃ rows : List (List Char),
      (d.render style).toList = "/**".toList ++ ((rows.map fun row => style.indent.toList ++ row) ++
        [style.indent.toList ++ " */".toList, style.indent.toList]).flatMap ('\n' :: ·) ∧
      List.Forall₂ (fun line row =>
        ((style.snippet = true → line.HasSteadyTag) →
          line.ShownInColumns style.layout style.snippet row) ∧
        line.WrittenInColumns style.layout style.snippet row) d.finish.lines rows) ∧
    (∀ line : TagLine,
      (∀ layout stop, line.ShownInColumns layout true (line.render layout true stop).1.toList) ↔
        line.HasSteadyTag) ∧
    ∀ (column : Int) (width : Nat), (∀ align, width < startColumn align column width) ∧
      (width < column → startColumn true column width = column) := by
  refine ⟨⟨(renderLines style.layout style.snippet 1 d.finish.lines).map String.toList, ?_, ?_⟩,
    fun line => ⟨TagLine.hasSteadyTag_of_shownInColumns, TagLine.HasSteadyTag.shownInColumns⟩,
    fun column width => ⟨fun align => lt_startColumn align column width, startColumn_of_room⟩⟩
  · have hbodies := renderLines_eq style.layout style.snippet 1 d.finish.lines
    rw [d.toList_render style hbodies, hstacked, Bool.false_and, stacked_eq, hbodies, List.map_map]
    rfl
  · refine (renderLines_rows style.layout style.snippet 1 d.finish.lines).imp ?_
    rintro line _ ⟨stop, rfl⟩
    refine ⟨fun hsteady => ?_, line.writtenInColumns _ _ stop⟩
    cases hsnippet : style.snippet with
    | true => exact (hsteady hsnippet).shownInColumns style.layout stop
    | false => exact line.shownInColumns_plain style.layout stop

/-- A line with a price in its value and one in its description. -/
def pricedLine : TagLine :=
  { tag := some "param", value := some (.region "$"), name := some (.plain "price"),
    description := some (.plain "In $.") }

/-- A header with this line. -/
def pricedHeader : Draft := { kind := .method, lines := [pricedLine] }

/-- The snippet of this header has its line in columns. -/
theorem Draft.render_columns_of_pricedHeader :
    ∃ row, (pricedHeader.render
        { layout := { value := 12, name := 16 }, snippet := true }).toList =
          "/**\n".toList ++ row ++ "\n */\n".toList ∧
      pricedLine.ShownInColumns { value := 12, name := 16 } true row := by
  obtain ⟨⟨rows, htext, hrows⟩, -⟩ := Draft.render_columns pricedHeader
    { layout := { value := 12, name := 16 }, snippet := true } rfl
  have hlines : pricedHeader.finish.lines = [pricedLine] := by decide +kernel
  have hsteady : pricedLine.HasSteadyTag := by
    refine ⟨by decide +kernel, fun _ _ tag htag => ?_⟩
    obtain rfl : "param" = tag := by simpa [pricedLine, TagLine.tag?] using htag
    simp [Snippet.isReserved]
  rw [hlines] at hrows
  obtain ⟨row, hrow, rfl⟩ : ∃ row, pricedLine.ShownInColumns { value := 12, name := 16 } true row ∧
      rows = [row] := by
    cases hrows with
    | cons hrow hnil =>
      cases hnil
      exact ⟨_, hrow.1 fun _ => hsteady, rfl⟩
  exact ⟨row, by simpa using htext, hrow⟩

/-- A line with a tag that a snippet shows without its backslash, and a value to edit. -/
def slashedLine : TagLine :=
  { tag := some "a\\$", value := some (.region "x"), delimiters := bare, forceRegion := true }

/-- The value of this line starts at column 11, though there is room before column 12. -/
theorem slashedLine_not_shownInColumns :
    (slashedLine.render { value := 12 } true 1).1 = " * @a\\$     $\x7b1:x\x7d" ∧
      (Snippet.read? (slashedLine.render { value := 12 } true 1).1.toList).map Snippet.shown =
        some " * @a$     x".toList ∧
      ¬slashedLine.ShownInColumns { value := 12 } true
        (slashedLine.render { value := 12 } true 1).1.toList := by
  have hrow : (slashedLine.render { value := 12 } true 1).1 = " * @a\\$     $\x7b1:x\x7d" := by
    decide +kernel
  have hbeginning : Snippet.read? slashedLine.beginning = some (" * @a$".toList.map .char) := by
    decide +kernel
  have hread : Snippet.read? " * @a\\$     $\x7b1:x\x7d".toList =
      some (" * @a$     ".toList.map .char ++ [.stop 1 ['x']]) := by
    decide +kernel
  have hpieces : slashedLine.pieces { value := 12 } true = [("x", 12)] := by
    decide +kernel
  rw [hrow, hread]
  refine ⟨rfl, rfl, ?_⟩
  rintro ⟨beginning, parts, hfirst, hparts, hcolumns⟩
  obtain rfl : " * @a$".toList.map .char = beginning :=
    Option.some_inj.mp (hbeginning.symm.trans hfirst)
  obtain rfl : " * @a$     ".toList.map .char ++ [.stop 1 ['x']] = parts :=
    Option.some_inj.mp (hread.symm.trans hparts)
  rw [hpieces] at hcolumns
  exact absurd hcolumns.length_shown (by decide)

end DocHeader

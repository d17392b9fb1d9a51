import DocHeader.Proofs.Edit.Woven
import DocHeader.Proofs.Header.Lines
import DocHeader.Proofs.Snippet.Stops
import DocHeader.Proofs.Text.Rows

/-!
# Headers above their lines

A header goes in front of a declaration, behind the white space that its line begins with.
It ends with a line feed and that white space once more. So the comment takes over the
white space that is there, and the declaration gets the white space of the comment: every
line of the source stays as it was, and the comment has lines of its own above one of them.

## Main definitions

* `OpensLine` — an offset with nothing but white space before it on its line.
* `Heading` — a comment and the offset in front of which it goes.
* `underHeadings` — the lines of a text, each below the comments that go above it.
-/

namespace DocHeader

/-- Only spaces and tabs stand before an offset on its line, and none stands at it. -/
structure OpensLine (cs : List Char) (offset : Int) : Prop where
  nonneg : 0 ≤ offset
  le_length : offset ≤ cs.length
  before : ∀ c ∈ Text.afterLastNewline (cs.take offset.toNat), c = ' ' ∨ c = '\t'
  here : ∀ c ∈ cs[offset.toNat]?, c ≠ ' ' ∧ c ≠ '\t'

instance (cs : List Char) (offset : Int) : Decidable (OpensLine cs offset) :=
  decidable_of_iff (0 ≤ offset ∧ offset ≤ cs.length ∧
      (Text.afterLastNewline (cs.take offset.toNat)).all (fun c => c == ' ' || c == '\t') ∧
      cs[offset.toNat]?.all fun c => c != ' ' && c != '\t')
    ⟨fun ⟨hnonneg, hle, hbefore, hhere⟩ =>
        ⟨hnonneg, hle, by simpa using hbefore, by simpa [Option.all_eq_true] using hhere⟩,
      fun h => ⟨h.nonneg, h.le_length, by simpa using h.before,
        by simpa [Option.all_eq_true] using h.here⟩⟩

/-- A comment and the offset in front of which it goes. -/
structure Heading where
  offset : Int
  comment : String

namespace Heading

/-- What is inserted: the comment, a line feed, and the white space of the line again. -/
def text (source : String) (h : Heading) : String :=
  h.comment ++ "\n" ++ indentationAt source h.offset

/-- The insertion of a comment into a file. -/
def insertion (file source : String) (h : Heading) : Insertion :=
  ⟨file, h.offset, h.text source⟩

/-- The lines of a comment above a line with some indentation. -/
def rows (indent : List Char) (h : Heading) : List (List Char) :=
  (indent ++ h.comment.toList).splitOn '\n'

end Heading

/-- The comments for one line, in order. -/
def headingsFor (source : String) (headings : List Heading) (line : Nat) : List Heading :=
  headings.filter fun h => (Location.ofOffset source h.offset.toNat).line = line

/-- A line of a text, and above it the comments for it. -/
def headed (source : String) (headings : List Heading) (row : List Char) (line : Nat) :
    List (List Char) :=
  (headingsFor source headings line).flatMap (Heading.rows (Text.leadingIndent row)) ++ [row]

/-- The lines of a text, each below the comments that go above it. -/
def underHeadings (source : String) (headings : List Heading) : List (List Char) :=
  ((source.toList.splitOn '\n').zipIdx 1).flatMap fun r => headed source headings r.1 r.2

/-! ## Lines of a text -/

theorem Text.leadingIndent_prefix (cs : List Char) : Text.leadingIndent cs <+: cs :=
  List.takeWhile_prefix _

theorem Text.slice_of_le {cs : List Char} {n : Nat} (h : n ≤ cs.length) :
    Text.slice cs 0 n = cs.take n := by
  have hzero : resolve cs.length 0 = 0 := resolve_of_le (Nat.zero_le _)
  rw [slice, resolve_of_le h, hzero, List.drop_zero]

namespace IsRow

variable {cs before row after : List Char} {m : Nat}

/-- Where a line is opened, the white space in front is what the line begins with. -/
theorem leadingIndent_of_opensLine (h : IsRow cs before row after) (hm : m ≤ row.length)
    (hopens : OpensLine cs (before.length + m : Nat)) :
    Text.leadingIndent row = row.take m ∧ Text.leadingIndent (row ++ after) = row.take m := by
  have hwhite : ∀ c ∈ row.take m, (c == ' ' || c == '\t') = true := by
    have hbefore := hopens.before
    rw [Int.toNat_natCast, h.afterLastNewline_take hm] at hbefore
    simpa using hbefore
  have hstop : ∀ c ∈ (row.drop m ++ after).head?, (c == ' ' || c == '\t') = false := by
    have hhere := hopens.here
    rw [Int.toNat_natCast, ← List.head?_drop, h.drop_eq hm] at hhere
    simpa using hhere
  have hinside : ∀ c ∈ (row.drop m).head?, (c == ' ' || c == '\t') = false := fun c hc =>
    hstop c (by simp [List.head?_append, Option.mem_def.mp hc])
  constructor
  · have hrow := takeWhile_append_of_stop hwhite hinside
    rwa [List.take_append_drop] at hrow
  · have hrest := takeWhile_append_of_stop hwhite hstop
    rwa [← List.append_assoc, List.take_append_drop] at hrest

/-- A line is opened at one offset alone, and the indentation there is that of the line. -/
theorem offset_of_opensLine {source : String} {offset : Int}
    (h : IsRow source.toList before row after) (hopens : OpensLine source.toList offset)
    (hlow : before.length ≤ offset) (hhigh : offset ≤ (before.length + row.length : Nat)) :
    offset = (before.length + (Text.leadingIndent row).length : Nat) ∧
      (indentationAt source offset).toList = Text.leadingIndent row := by
  obtain ⟨m, rfl⟩ : ∃ m : Nat, offset = (before.length + m : Nat) :=
    ⟨(offset - before.length).toNat, by omega⟩
  have hm : m ≤ row.length := by omega
  obtain ⟨hrow, hrest⟩ := h.leadingIndent_of_opensLine hm hopens
  have hstart : (before ++ row.take m).length - (row.take m).length = before.length + 0 := by
    rw [List.length_append]
    omega
  constructor
  · rw [hrow, List.length_take, Nat.min_eq_left hm]
  · rw [indentationAt, String.toList_ofList, Text.slice_of_le (h.length_le hm),
      h.afterLastNewline_take hm, h.take_eq hm, hstart, h.drop_eq (Nat.zero_le _),
      List.drop_zero, hrest, hrow]

end IsRow

/-! ## Comments above a line -/

variable {file source : String} {headings : List Heading} {before row after : List Char}

/-- Comments go in behind the white space of a line, each with its own line feed and the
same white space. -/
theorem splitOn_headings {indent rest : List Char} (hrow : '\n' ∉ indent ++ rest)
    (headings : List Heading) :
    (indent ++ (headings.flatMap (fun h => h.comment.toList ++ '\n' :: indent) ++ rest)).splitOn
        '\n' = headings.flatMap (Heading.rows indent) ++ [indent ++ rest] := by
  induction headings with
  | nil => simpa using splitOn_of_notMem hrow
  | cons h headings ih =>
    have hfirst : indent ++ ((h :: headings).flatMap
        (fun h => h.comment.toList ++ '\n' :: indent) ++ rest) =
        (indent ++ h.comment.toList) ++ '\n' :: (indent ++
          (headings.flatMap (fun h => h.comment.toList ++ '\n' :: indent) ++ rest)) := by
      simp
    rw [hfirst, splitOn_append_cons, ih, List.flatMap_cons, Heading.rows, List.append_assoc]

/-- A comment goes in behind the white space of a line just when it is for that line. -/
theorem Heading.offset_eq_iff {h : Heading} (hopens : OpensLine source.toList h.offset)
    (hrow : IsRow source.toList before row after) :
    h.offset = (before.length + (Text.leadingIndent row).length : Nat) ↔
      (Location.ofOffset source h.offset.toNat).line = (before.count '\n' + 1 : Nat) := by
  have hnonneg := hopens.nonneg
  have hle := hopens.le_length
  rw [hrow.line_eq_iff (by omega)]
  constructor
  · intro heq
    have hindent := (Text.leadingIndent_prefix row).length_le
    omega
  · rintro ⟨hlow, hhigh⟩
    exact (hrow.offset_of_opensLine hopens (by omega) (by omega)).1

/-- The comments for a line are the insertions behind its white space. -/
theorem insertionsAt_leadingIndent (hopens : ∀ h ∈ headings, OpensLine source.toList h.offset)
    (hrow : IsRow source.toList before row after) :
    insertionsAt (headings.map (Heading.insertion file source))
        (before.length + (Text.leadingIndent row).length : Nat) =
      (headingsFor source headings (before.count '\n' + 1)).map
        (Heading.insertion file source) := by
  rw [insertionsAt, List.filter_map]
  refine congrArg _ (List.filter_congr fun h hh => ?_)
  exact decide_eq_decide.mpr (Heading.offset_eq_iff (hopens h hh) hrow)

/-- What is inserted for a line ends with the white space of that line. -/
theorem text_of_mem_headingsFor (hopens : ∀ h ∈ headings, OpensLine source.toList h.offset)
    (hrow : IsRow source.toList before row after) {h : Heading}
    (hh : h ∈ headingsFor source headings (before.count '\n' + 1)) :
    (h.text source).toList = h.comment.toList ++ '\n' :: Text.leadingIndent row := by
  obtain ⟨hmem, hline⟩ := List.mem_filter.mp hh
  have hoffset := (Heading.offset_eq_iff (hopens h hmem) hrow).mpr (by simpa using hline)
  have hindent := (Text.leadingIndent_prefix row).length_le
  have hwhite := (hrow.offset_of_opensLine (hopens h hmem) (by omega) (by omega)).2
  simp [Heading.text, hwhite]

/-- A line with comments inserted behind its white space. -/
theorem splitOn_row (hopens : ∀ h ∈ headings, OpensLine source.toList h.offset)
    (hrow : IsRow source.toList before row after) :
    (spelled (woven (headings.map (Heading.insertion file source)) before.length row)).splitOn
        '\n' = headed source headings row (before.count '\n' + 1) := by
  have htake : row.take (Text.leadingIndent row).length = Text.leadingIndent row :=
    (List.prefix_iff_eq_take.mp (Text.leadingIndent_prefix row)).symm
  have hwhole : Text.leadingIndent row ++ row.drop (Text.leadingIndent row).length = row := by
    have hsplit := List.take_append_drop (Text.leadingIndent row).length row
    rwa [htake] at hsplit
  have honly : ∀ i ∈ headings.map (Heading.insertion file source),
      (before.length : Int) ≤ i.offset → i.offset ≤ (before.length + row.length : Nat) →
      i.offset = (before.length + (Text.leadingIndent row).length : Nat) := by
    intro i hi hlow hhigh
    obtain ⟨h, hh, rfl⟩ := List.mem_map.mp hi
    exact (hrow.offset_of_opensLine (hopens h hh) hlow hhigh).1
  have htexts : ((headingsFor source headings (before.count '\n' + 1)).map
      (Heading.insertion file source)).flatMap (fun i => i.text.toList) =
        (headingsFor source headings (before.count '\n' + 1)).flatMap fun h =>
          h.comment.toList ++ '\n' :: Text.leadingIndent row := by
    rw [List.flatMap_map]
    exact List.flatMap_congr fun h hh => text_of_mem_headingsFor hopens hrow hh
  rw [spelled_woven_of_one_position (Text.leadingIndent_prefix row).length_le honly,
    insertionsAt_leadingIndent hopens hrow, htexts, htake,
    splitOn_headings (hwhole.symm ▸ hrow.unbroken), hwhole, headed]

/-- The lines from one of them on, with comments inserted. -/
theorem splitOn_rows (hopens : ∀ h ∈ headings, OpensLine source.toList h.offset)
    (rows : List (List Char)) (hbegins : ∀ c ∈ before.getLast?, c = '\n')
    (hsource : source.toList = before ++ ['\n'].intercalate (row :: rows))
    (hfree : ∀ r ∈ row :: rows, '\n' ∉ r) :
    (spelled (woven (headings.map (Heading.insertion file source)) before.length
        (['\n'].intercalate (row :: rows)))).splitOn '\n' =
      ((row :: rows).zipIdx (before.count '\n' + 1)).flatMap fun r =>
        headed source headings r.1 r.2 := by
  induction rows generalizing before row with
  | nil =>
    have hrow : IsRow source.toList before row [] :=
      ⟨by simpa using hsource, hbegins, hfree row List.mem_cons_self, by simp⟩
    simpa using splitOn_row hopens hrow
  | cons second rows ih =>
    obtain ⟨hunbroken, hfree⟩ := List.forall_mem_cons.mp hfree
    rw [List.intercalate_cons_cons, List.append_assoc, List.singleton_append] at hsource ⊢
    have hrow : IsRow source.toList before row ('\n' :: ['\n'].intercalate (second :: rows)) :=
      ⟨hsource, hbegins, hunbroken, by simp⟩
    have hrest := @ih (before ++ row ++ ['\n']) second (by simp) (by simp [hsource]) hfree
    have hlength : (before ++ row ++ ['\n']).length = before.length + row.length + 1 := by
      simp
      omega
    have hcount : (before ++ row ++ ['\n']).count '\n' = before.count '\n' + 1 := by
      simp [List.count_eq_zero.mpr hunbroken]
    rw [hlength, hcount] at hrest
    rw [woven_append_cons, spelled_append, spelled_original, splitOn_append_cons,
      splitOn_row hopens hrow, hrest]
    rfl

/-- Comments that go where lines are opened get lines of their own. -/
theorem applyInsertions_headings (file : String)
    (hopens : ∀ h ∈ headings, OpensLine source.toList h.offset) :
    ∃ text, applyInsertions source (headings.map (Heading.insertion file source)) = .ok text ∧
      text.toList.splitOn '\n' = underHeadings source headings := by
  have hfits : ∀ i ∈ headings.map (Heading.insertion file source), i.Fits source.length := by
    intro i hi
    obtain ⟨h, hh, rfl⟩ := List.mem_map.mp hi
    exact ⟨(hopens h hh).nonneg, String.length_toList ▸ (hopens h hh).le_length⟩
  refine ⟨_, applyInsertions_of_fits hfits, ?_⟩
  obtain ⟨row, rows, hrows⟩ := List.exists_cons_of_ne_nil (List.splitOn_ne_nil '\n' source.toList)
  have hsource : ['\n'].intercalate (row :: rows) = source.toList := by
    rw [← hrows, List.intercalate_splitOn]
  have hfree : ∀ r ∈ row :: rows, '\n' ∉ r := hrows ▸ notMem_of_mem_splitOn _ _
  have hsplit := @splitOn_rows file source headings [] row hopens rows (by simp)
    (by simpa using hsource.symm) hfree
  rw [hsource, List.length_nil] at hsplit
  rw [wovenText, String.toList_ofList, hsplit, underHeadings, hrows]
  rfl

/-- The text of a header is a comment, and behind it a line feed and the white space. -/
theorem Draft.render_eq_comment (d : Draft) (style : Style) :
    ∃ body, d.render style = "/**" ++ body ++ "*/" ++ "\n" ++ style.indent := by
  obtain ⟨middle, hmiddle⟩ : ∃ middle, (d.render style).toList =
      '/' :: '*' :: '*' :: (middle ++ ' ' :: '*' :: '/' :: '\n' :: style.indent.toList) :=
    ⟨_, d.toList_render style (renderLines_eq _ _ _ _)⟩
  refine ⟨.ofList (middle ++ [' ']), String.toList_inj.mp ?_⟩
  rw [hmiddle]
  simp

namespace Builder

variable {σ : Type}

/-- A comment is what is built for a declaration of a source text. -/
structure IsHeader (b : Builder σ) (source : String) (snippet : Bool) (run : Focus × Journal σ)
    (h : Heading) : Prop where
  offset : h.offset = run.1.insertionOffset
  comment : ∃ body, h.comment = "/**" ++ body ++ "*/"
  built : (b.buildText run.1 source snippet run.2).1 = .ok (h.text source)

theorem exists_isHeader (b : Builder σ) (source : String) (snippet : Bool)
    (run : Focus × Journal σ) {kind : DeclarationKind} (hkind : b.kindOf run.1 = .ok kind) :
    ∃ h, b.IsHeader source snippet run h := by
  obtain ⟨f, j⟩ := run
  obtain ⟨draft, hbuild, -, -⟩ := b.build_of_kind f hkind j
  obtain ⟨body, hbody⟩ :=
    draft.render_eq_comment (b.style (indentationAt source f.insertionOffset) snippet)
  refine ⟨⟨f.insertionOffset, "/**" ++ body ++ "*/"⟩, rfl, ⟨body, rfl⟩, ?_⟩
  rw [buildText_apply, hbuild, Except.map, renderAt, hbody]
  rfl

/-- There is a header for each of some declarations, and it goes where the declaration is. -/
theorem exists_headers (b : Builder σ) {source : String} (snippet : Bool)
    {runs : List (Focus × Journal σ)} (hkinds : ∀ run ∈ runs, ∃ kind, b.kindOf run.1 = .ok kind)
    (hopens : ∀ run ∈ runs, OpensLine source.toList run.1.insertionOffset) :
    ∃ headings, List.Forall₂ (b.IsHeader source snippet) runs headings ∧
      ∀ h ∈ headings, OpensLine source.toList h.offset := by
  induction runs with
  | nil => exact ⟨[], .nil, List.forall_mem_nil _⟩
  | cons run runs ih =>
    obtain ⟨⟨kind, hkind⟩, hkinds⟩ := List.forall_mem_cons.mp hkinds
    obtain ⟨hopen, hopens⟩ := List.forall_mem_cons.mp hopens
    obtain ⟨h, hheader⟩ := b.exists_isHeader source snippet run hkind
    obtain ⟨headings, hheaders, hall⟩ := ih hkinds hopens
    exact ⟨h :: headings, .cons hheader hheaders,
      List.forall_mem_cons.mpr ⟨hheader.offset ▸ hopen, hall⟩⟩

/-- **Headers are inserted as whole lines.** Take declarations that are documented, each at
an offset of a text with nothing but white space before it on its line and none at it. The
headers that are built for them can all be inserted, and the lines of the result are those
of the text, all of them, in order and as they were. The lines of each header stand right
above the line of its declaration, the first of them with the white space that this line
begins with. Headers for one line follow each other in the order of the declarations. -/
theorem buildText_above_lines (b : Builder σ) (file source : String) (snippet : Bool)
    (runs : List (Focus × Journal σ)) (hkinds : ∀ run ∈ runs, ∃ kind, b.kindOf run.1 = .ok kind)
    (hopens : ∀ run ∈ runs, OpensLine source.toList run.1.insertionOffset) :
    ∃ headings text, List.Forall₂ (b.IsHeader source snippet) runs headings ∧
      applyInsertions source (headings.map (Heading.insertion file source)) = .ok text ∧
      text.toList.splitOn '\n' = underHeadings source headings := by
  obtain ⟨headings, hheaders, hall⟩ := b.exists_headers snippet hkinds hopens
  obtain ⟨text, happly, hlines⟩ := applyInsertions_headings file hall
  exact ⟨headings, text, hheaders, happly, hlines⟩

/-- What is inserted for a declaration that is documented. -/
def insertionFor (b : Builder σ) (file source : String) (snippet : Bool)
    (run : Focus × Journal σ) : Insertion :=
  ⟨file, run.1.insertionOffset,
    (b.buildText run.1 source snippet run.2).1.toOption.getD ""⟩

theorem insertions_of_isHeader {b : Builder σ} {snippet : Bool} {runs : List (Focus × Journal σ)}
    (h : List.Forall₂ (b.IsHeader source snippet) runs headings) :
    headings.map (Heading.insertion file source) =
      runs.map (b.insertionFor file source snippet) := by
  induction h with
  | nil => rfl
  | cons hheader _ ih =>
    simp [ih, insertionFor, Heading.insertion, hheader.offset, hheader.built, Except.toOption]

/-- A class with a constructor on an indented line. -/
def constructed : String := "class A \x7b\n\tconstructor() \x7b\x7d\n\x7d"

/-- A declaration of some kind at an offset. -/
def declarationAt (kind : String) (start : Int) : Focus × Journal Unit :=
  (.root (.mk { kind, fullStart := start, start, stop := start + 1, text := "" } []), ⟨(), []⟩)

/-- The class and two declarations on the line of its constructor. -/
def constructedRuns : List (Focus × Journal Unit) :=
  [declarationAt "Constructor" 11, declarationAt "ClassDeclaration" 0,
    declarationAt "GetAccessor" 11]

/-- The class with headers for them. -/
def constructedWithHeaders : String :=
  "/**\n * @class\n */\nclass A \x7b\n\t/**\n\t * @constructor\n\t */\n" ++
    "\t/**\n\t * @type \x7b*\x7d\n\t */\n\tconstructor() \x7b\x7d\n\x7d"

/-- The constructor gets its headers one below the other, each with a tab in front. -/
theorem buildText_above_constructor :
    (∀ run ∈ constructedRuns, ∃ kind, undescribed.kindOf run.1 = .ok kind) ∧
    (∀ run ∈ constructedRuns, OpensLine constructed.toList run.1.insertionOffset) ∧
    ∃ headings text,
      List.Forall₂ (undescribed.IsHeader constructed false) constructedRuns headings ∧
      applyInsertions constructed (headings.map (Heading.insertion "a.ts" constructed)) =
        .ok text ∧
      text.toList.splitOn '\n' = underHeadings constructed headings ∧
      text = constructedWithHeaders := by
  have hkinds : ∀ run ∈ constructedRuns, ∃ kind, undescribed.kindOf run.1 = .ok kind := by
    simp only [constructedRuns, List.forall_mem_cons]
    exact ⟨⟨.constructor, by decide +kernel⟩, ⟨.classLike, by decide +kernel⟩,
      ⟨.accessor, by decide +kernel⟩, List.forall_mem_nil _⟩
  have hopens : ∀ run ∈ constructedRuns,
      OpensLine constructed.toList run.1.insertionOffset := by decide +kernel
  obtain ⟨headings, text, hheaders, happly, hlines⟩ :=
    undescribed.buildText_above_lines "a.ts" constructed false constructedRuns hkinds hopens
  refine ⟨hkinds, hopens, headings, text, hheaders, happly, hlines, ?_⟩
  have hwoven : applyInsertions constructed
      (constructedRuns.map (undescribed.insertionFor "a.ts" constructed false)) =
        .ok (wovenText constructed
          (constructedRuns.map (undescribed.insertionFor "a.ts" constructed false))) :=
    applyInsertions_of_fits (by decide +kernel)
  rw [insertions_of_isHeader hheaders, hwoven] at happly
  rw [← Except.ok.inj happly]
  decide +kernel

end Builder

end DocHeader

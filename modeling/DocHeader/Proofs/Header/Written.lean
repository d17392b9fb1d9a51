import DocHeader.Header.Build
import Mathlib.Data.List.Forall2

/-!
# How plain headers are written

A plain line of a header is a star and then the texts that the line shows, each after at
least one blank and perhaps between delimiters. So nothing that a text holds can run into
what stands beside it.

## Main definitions

* `TagLine.texts` — the texts that a line shows.
* `LaidOut` — texts in a row, with blanks and delimiters.
* `inside` — a plain comment without its ends.
-/

namespace DocHeader

/-- The texts that a line shows, in order. -/
def TagLine.texts (line : TagLine) : List String :=
  line.tag?.toList ++
    ([line.value, line.name, line.description].map shownText).filter fun text => !text.isEmpty

/-- What may stand before a text, after the blanks. -/
def openings : List String := ["", "@", "\x7b"]

/-- What may stand after a text. -/
def closings : List String := ["", "\x7d"]

/-- Texts written one after the other, each after blanks and between delimiters. -/
inductive LaidOut : List String → List Char → Prop where
  | nil : LaidOut [] []
  | cons {text : String} {texts : List String} {cs : List Char} (blanks : Nat)
    {opening closing : String} (hopening : opening ∈ openings) (hclosing : closing ∈ closings)
    (hrest : LaidOut texts cs) :
    LaidOut (text :: texts)
      (' ' :: (List.replicate blanks ' ' ++ (opening.toList ++ (text.toList ++ closing.toList))) ++
        cs)

/-- A segment writes a text between delimiters. -/
def Segment.Writes (s : Segment) (text : String) : Prop :=
  ∃ opening ∈ openings, ∃ closing ∈ closings, s.markup = opening ++ text ++ closing

theorem TagLine.padding_pos (align : Bool) (column : Int) (width : Nat) :
    0 < padding align column width := by
  unfold padding
  split <;> omega

theorem TagLine.writeSegments_laidOut {segments : List Segment} {texts : List String}
    (h : List.Forall₂ Segment.Writes segments texts) (align : Bool) (width : Nat) :
    LaidOut texts (writeSegments align width segments).toList := by
  induction h generalizing width with
  | nil => exact .nil
  | cons hwrites _ ih =>
    obtain ⟨opening, hopening, closing, hclosing, hmarkup⟩ := hwrites
    obtain ⟨blanks, hblanks⟩ := Nat.exists_eq_add_one.mpr (padding_pos align _ width)
    rw [writeSegments, hblanks, hmarkup]
    simpa [List.replicate_succ] using LaidOut.cons blanks hopening hclosing (ih _)

/-- A text as a segment of its own, when there is one. -/
def textSegment (column : Int) (opening text closing : String) : List Segment :=
  if text.isEmpty then []
  else [⟨opening ++ text ++ closing, opening ++ text ++ closing, column⟩]

theorem textSegment_writes (column : Int) {opening closing : String} (text : String)
    (hopening : opening ∈ openings) (hclosing : closing ∈ closings) :
    List.Forall₂ Segment.Writes (textSegment column opening text closing)
      ([text].filter fun text => !text.isEmpty) := by
  cases hempty : text.isEmpty with
  | true => simp [textSegment, hempty]
  | false =>
    have hwrites : Segment.Writes ⟨opening ++ text ++ closing, opening ++ text ++ closing, column⟩
        text := ⟨opening, hopening, closing, hclosing, rfl⟩
    simp [textSegment, hempty, hwrites]

/-- In plain text no stop is used up, and every text is written as it is. -/
theorem TagLine.segments_plain (layout : Layout) (stop : Nat) (line : TagLine) :
    line.segments layout false stop =
      (textSegment layout.value line.delimiters.1 (shownText line.value) line.delimiters.2 ++
        (textSegment layout.name "" (shownText line.name) "" ++
          textSegment layout.description "" (shownText line.description) ""), stop) := by
  have hphrase (column : Int) (p : Phrase) :
      phraseSegment column false stop p = (⟨p.shown, p.shown, column⟩, stop) := by
    simp [phraseSegment, Phrase.markup]
  have hshown (p : Option Phrase) : (p.getD (.plain "")).shown = shownText p := by
    cases p <;> rfl
  have hvalue : line.valueSegment layout false stop =
      (⟨line.delimiters.1 ++ shownText line.value ++ line.delimiters.2,
        line.delimiters.1 ++ shownText line.value ++ line.delimiters.2, layout.value⟩, stop) := by
    simp [valueSegment, Phrase.markup, hshown]
  have hnone : shownText none = "" := rfl
  have hsome (p : Phrase) : shownText (some p) = p.shown := rfl
  rcases hname : line.name with _ | p
  · by_cases hv : shownText line.value = "" <;> by_cases hd : shownText line.description = "" <;>
      simp [segments, valueSegments, nameSegments, descriptionSegments, showsValue,
        showsDescription, textSegment, hname, hnone, hv, hd, hvalue, hphrase, hshown]
  · by_cases hv : shownText line.value = "" <;> by_cases hd : shownText line.description = "" <;>
      by_cases hn : p.shown = "" <;>
      simp [segments, valueSegments, nameSegments, descriptionSegments, showsValue,
        showsDescription, textSegment, hname, hsome, hv, hd, hn, hvalue, hphrase, hshown]

/-- In plain text the segments of a line write what it shows after its tag. -/
theorem TagLine.segments_writes (layout : Layout) (stop : Nat) {line : TagLine}
    (hdelimiters : line.delimiters = bare ∨ line.delimiters = ("\x7b", "\x7d")) :
    List.Forall₂ Segment.Writes (line.segments layout false stop).1
      (([line.value, line.name, line.description].map shownText).filter
        fun text => !text.isEmpty) := by
  have hfilter : ([line.value, line.name, line.description].map shownText).filter
      (fun text => !text.isEmpty) =
        [shownText line.value].filter (fun text => !text.isEmpty) ++
          ([shownText line.name].filter (fun text => !text.isEmpty) ++
            [shownText line.description].filter fun text => !text.isEmpty) := by
    rw [← List.filter_append, ← List.filter_append]
    rfl
  have hbetween : line.delimiters.1 ∈ openings ∧ line.delimiters.2 ∈ closings := by
    rcases hdelimiters with h | h <;> rw [h] <;> decide
  rw [segments_plain, hfilter]
  exact List.rel_append (textSegment_writes _ _ hbetween.1 hbetween.2)
    (List.rel_append (textSegment_writes _ _ (by decide) (by decide))
      (textSegment_writes _ _ (by decide) (by decide)))

/-- A plain line is a star and the texts that the line shows. -/
theorem TagLine.render_laidOut (layout : Layout) (stop : Nat) {line : TagLine}
    (hdelimiters : line.delimiters = bare ∨ line.delimiters = ("\x7b", "\x7d")) :
    ∃ cs, LaidOut line.texts cs ∧ (line.render layout false stop).1.toList = ' ' :: '*' :: cs ∧
      (line.render layout false stop).2 = stop := by
  have hrest := writeSegments_laidOut (segments_writes layout stop hdelimiters) line.align
    (2 + line.tagText.length)
  refine ⟨line.tagText.toList ++ (writeSegments line.align (2 + line.tagText.length)
    (line.segments layout false stop).1).toList, ?_, by simp [render],
    by simp [render, segments_plain]⟩
  cases htag : line.tag? with
  | none => simpa [texts, tagText, htag] using hrest
  | some tag =>
    simpa [texts, tagText, htag] using
      @LaidOut.cons tag _ _ 0 "@" "" (by decide) (by decide) hrest

/-! ## Headers -/

/-- What stands on the lines of a header after their stars. -/
def Written (lines : List TagLine) (bodies : List (List Char)) : Prop :=
  List.Forall₂ (fun line cs => LaidOut line.texts cs) lines bodies

/-- What stands between the ends of a comment: on one line, or each body on a line of its
own. -/
def inside (indent : List Char) (single : Bool) (bodies : List (List Char)) : List Char :=
  if single then bodies.flatten
  else bodies.flatMap (fun cs => '\n' :: (indent ++ ' ' :: '*' :: cs)) ++ '\n' :: indent

theorem renderLines_written (layout : Layout) (stop : Nat) {lines : List TagLine}
    (hdelimiters : ∀ line ∈ lines, line.delimiters = bare ∨ line.delimiters = ("\x7b", "\x7d")) :
    ∃ bodies, Written lines bodies ∧
      (renderLines layout false stop lines).map String.toList =
        bodies.map fun cs => ' ' :: '*' :: cs := by
  induction lines with
  | nil => exact ⟨[], .nil, rfl⟩
  | cons line rest ih =>
    obtain ⟨cs, hlaid, htext, hstop⟩ :=
      line.render_laidOut layout stop (hdelimiters line List.mem_cons_self)
    obtain ⟨bodies, hwritten, htexts⟩ :=
      ih fun line hline => hdelimiters line (List.mem_cons_of_mem _ hline)
    refine ⟨cs :: bodies, .cons hlaid hwritten, ?_⟩
    rw [renderLines, List.map_cons, List.map_cons, htext, hstop, htexts]

theorem intercalate_cons_eq (separator first : List Char) (rest : List (List Char)) :
    separator.intercalate (first :: rest) = first ++ rest.flatMap (separator ++ ·) := by
  induction rest generalizing first with
  | nil => simp
  | cons second rest ih => simp [List.intercalate_cons_cons, ih]

theorem toList_commentText (indent : String) (single : Bool) {body : List String}
    {bodies : List (List Char)}
    (hbody : body.map String.toList = bodies.map fun cs => ' ' :: '*' :: cs) :
    (commentText indent single body).toList = '/' :: '*' :: '*' ::
      (inside indent.toList (single && bodies.length ≤ 1) bodies ++ [' ', '*', '/']) := by
  have hstacked : (String.intercalate ("\n" ++ indent) (("/**" :: body) ++ [" */"])).toList =
      '/' :: '*' :: '*' :: (inside indent.toList false bodies ++ [' ', '*', '/']) := by
    simp [String.toList_intercalate, hbody, inside, intercalate_cons_eq, List.flatMap_map]
  match single, body, bodies with
  | false, _, _ => exact hstacked
  | true, [], [] => simp [commentText, inside]
  | true, [line], [cs] =>
    obtain ⟨hline, -⟩ := List.cons.inj hbody
    simp [commentText, inside, hline]
  | true, _ :: _ :: _, cs :: cs' :: bodies =>
    have hmany : (true && decide ((cs :: cs' :: bodies).length ≤ 1)) = false := by simp
    rw [hmany]
    exact hstacked
  | true, [], _ :: _ | true, _ :: _, [] | true, [_], _ :: _ :: _ | true, _ :: _ :: _, [_] =>
    simp at hbody

/-- The text of a header: a comment around what stands on its lines. -/
theorem Draft.toList_render (d : Draft) (style : Style) {bodies : List (List Char)}
    (hbodies : (renderLines style.layout style.snippet 1 d.finish.lines).map String.toList =
      bodies.map fun cs => ' ' :: '*' :: cs) :
    (d.render style).toList = '/' :: '*' :: '*' ::
      (inside style.indent.toList (style.singleLine && bodies.length ≤ 1) bodies ++
        ' ' :: '*' :: '/' :: '\n' :: style.indent.toList) := by
  have hcomment := toList_commentText style.indent style.singleLine hbodies
  simp [render, hcomment]

/-- **The text of a plain header.** Between the ends of the comment stand the texts of its
lines. -/
theorem Draft.render_plain (d : Draft) (style : Style) (hplain : style.snippet = false)
    (hdelimiters : ∀ line ∈ d.finish.lines,
      line.delimiters = bare ∨ line.delimiters = ("\x7b", "\x7d")) :
    ∃ bodies, Written d.finish.lines bodies ∧
      (d.render style).toList = '/' :: '*' :: '*' ::
        (inside style.indent.toList (style.singleLine && bodies.length ≤ 1) bodies ++
          ' ' :: '*' :: '/' :: '\n' :: style.indent.toList) := by
  obtain ⟨bodies, hwritten, htexts⟩ := renderLines_written style.layout 1 hdelimiters
  exact ⟨bodies, hwritten, d.toList_render style (by rw [hplain, htexts])⟩

/-- A header of several lines, each after a line feed. -/
theorem stacked_eq (indent : List Char) (bodies : List (List Char)) :
    '/' :: '*' :: '*' :: (inside indent false bodies ++ ' ' :: '*' :: '/' :: '\n' :: indent) =
      "/**".toList ++ ((bodies.map fun body => indent ++ ' ' :: '*' :: body) ++
        [indent ++ " */".toList, indent]).flatMap ('\n' :: ·) := by
  simp [inside, List.flatMap_map]

end DocHeader

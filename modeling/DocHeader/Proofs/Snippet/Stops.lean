import DocHeader.Proofs.Header.Written
import DocHeader.Proofs.Snippet.Reader

/-!
# The stops of a header

Written as a snippet, every line of a header can be read, and its stops are the editable
regions that have a place on it, numbered on from line to line. What a user sees of it is a
line of plain text: columns count what is seen, not how it is written.

## Main definitions

* `TagLine.regions` — the editable regions that have a place on a line.
* `Displays` — a snippet, what it shows, and its regions.
* `TagLine.seenSegments`, `TagLine.seenBody` — what a user sees of the snippet of a line.
-/

namespace DocHeader

/-- The text of an editable region. -/
def Phrase.region? : Phrase → Option String
  | .plain _ => none
  | .region text => some text

namespace TagLine

/-- The regions of a value that has a place on the line. -/
def valueRegions (line : TagLine) : List String :=
  if line.forceRegion then [shownText line.value]
  else (line.value.bind Phrase.region?).toList.filter fun text => !text.isEmpty

/-- The editable regions that have a place on a line. An open one has a place where the
value is one in any case, and where it stands for the description. -/
def regions (line : TagLine) : List String :=
  line.valueRegions ++ ((line.name.bind Phrase.region?).toList.filter fun text => !text.isEmpty) ++
    (line.description.bind Phrase.region?).toList

end TagLine

/-! ## Snippets and what they show -/

/-- A text is a snippet that shows another one, and its stops are regions numbered from
`stop` on. -/
def Displays (stop : Nat) (snippet shown : List Char) (regions : List String) : Prop :=
  ∃ parts, Snippet.written parts = snippet ∧ Snippet.shown parts = shown ∧
    Snippet.stops parts = (regions.map String.toList).zipIdx stop

namespace Displays

variable {stop : Nat} {snippet snippet' shown shown' cs : List Char}
  {regions regions' : List String}

theorem nil : Displays stop [] [] [] := ⟨[], rfl, rfl, rfl⟩

theorem append (h : Displays stop snippet shown regions)
    (h' : Displays (stop + regions.length) snippet' shown' regions') :
    Displays stop (snippet ++ snippet') (shown ++ shown') (regions ++ regions') := by
  obtain ⟨parts, rfl, rfl, hstops⟩ := h
  obtain ⟨parts', rfl, rfl, hstops'⟩ := h'
  refine ⟨parts ++ parts', Snippet.written_append _ _, Snippet.shown_append _ _, ?_⟩
  rw [Snippet.stops_append, hstops, hstops', List.map_append, List.zipIdx_append,
    List.length_map]

/-- Escaped text shows what was escaped. -/
theorem escaped (stop : Nat) (cs : List Char) :
    Displays stop (cs.flatMap snippetChar) cs [] := by
  refine ⟨cs.map .char, Snippet.written_chars cs, Snippet.shown_chars cs, ?_⟩
  rw [Snippet.stops, List.filterMap_map]
  exact List.filterMap_eq_nil_iff.mpr fun _ _ => rfl

/-- Text without reserved characters shows itself. -/
theorem free (stop : Nat) (h : ∀ c ∈ cs, Snippet.isReserved c = false) :
    Displays stop cs cs [] := by
  have hescaped := escaped stop cs
  rwa [Snippet.flatMap_snippetChar_of_free h] at hescaped

theorem single (stop : Nat) (text : String) :
    Displays stop (stopMarkup stop text).toList text.toList [text] :=
  ⟨[.stop stop text.toList], by simp [Snippet.written, Snippet.Part.written],
    by simp [Snippet.shown, Snippet.Part.shown], rfl⟩

end Displays

/-- The regions of a phrase: one when it is a region, or has to be one. -/
def Phrase.regions (force : Bool) (p : Phrase) : List String :=
  if force then [p.shown] else p.region?.toList

/-- A phrase shows its text, and its region is a stop. -/
theorem Phrase.markup_displays (p : Phrase) (force : Bool) (stop : Nat) :
    Displays stop (p.markup true force stop).1.toList p.shown.toList (p.regions force) ∧
      (p.markup true force stop).2 = stop + (p.regions force).length := by
  match p, force with
  | .region text, true | .region text, false | .plain text, true =>
    exact ⟨Displays.single stop text, rfl⟩
  | .plain text, false =>
    refine ⟨?_, rfl⟩
    simpa [markup, isRegion, shown, regions, region?, snippetEscape] using
      Displays.escaped stop text.toList

/-! ## Segments -/

/-- The segment of plain text that shows the same. -/
def Segment.seen (s : Segment) : Segment := { s with markup := s.shown }

/-- Segments that each show their text, with the regions of all of them. -/
inductive SegmentsDisplay : Nat → List Segment → List String → Prop where
  | nil {stop : Nat} : SegmentsDisplay stop [] []
  | cons {stop : Nat} {s : Segment} {rest : List Segment} {regions regions' : List String}
    (h : Displays stop s.markup.toList s.shown.toList regions)
    (hrest : SegmentsDisplay (stop + regions.length) rest regions') :
    SegmentsDisplay stop (s :: rest) (regions ++ regions')

namespace SegmentsDisplay

variable {stop : Nat} {segments segments' : List Segment} {regions regions' : List String}

theorem single {s : Segment} (h : Displays stop s.markup.toList s.shown.toList regions) :
    SegmentsDisplay stop [s] regions := by
  simpa using cons h nil

theorem append (h : SegmentsDisplay stop segments regions)
    (h' : SegmentsDisplay (stop + regions.length) segments' regions') :
    SegmentsDisplay stop (segments ++ segments') (regions ++ regions') := by
  induction h with
  | nil => exact h'
  | @cons stop s rest regions regions'' hs _ ih =>
    rw [List.length_append, ← Nat.add_assoc] at h'
    rw [List.append_assoc]
    exact cons hs (ih h')

/-- Columns count what is seen, so written segments show the same text as those of plain
text. -/
theorem writeSegments (h : SegmentsDisplay stop segments regions) (align : Bool) (width : Nat) :
    Displays stop (TagLine.writeSegments align width segments).toList
      (TagLine.writeSegments align width (segments.map Segment.seen)).toList regions := by
  induction h generalizing width with
  | nil => exact .nil
  | @cons stop s rest regions regions' hs _ ih =>
    have hblanks : Displays stop (List.replicate (TagLine.padding align s.column width) ' ')
        (List.replicate (TagLine.padding align s.column width) ' ') [] :=
      .free stop fun c hc => by rw [List.eq_of_mem_replicate hc]; rfl
    have hline := (hblanks.append hs).append
      (ih (width + TagLine.padding align s.column width + s.shown.length))
    simpa [TagLine.writeSegments, Segment.seen] using hline

end SegmentsDisplay

/-- Segments that are written from the stop with number `stop` on, and the number of the
next one: they show the same as segments of plain text, and their stops are regions. -/
structure SegmentsShow (stop : Nat) (written : List Segment × Nat) (seen : List Segment)
    (regions : List String) : Prop where
  next : written.2 = stop + regions.length
  display : SegmentsDisplay stop written.1 regions
  seen : written.1.map Segment.seen = seen

/-- Segments written one after the other. -/
theorem SegmentsShow.append {stop : Nat} {first rest : List Segment × Nat}
    {seen seen' : List Segment} {regions regions' : List String}
    (h : SegmentsShow stop first seen regions) (h' : SegmentsShow first.2 rest seen' regions') :
    SegmentsShow stop (first.1 ++ rest.1, rest.2) (seen ++ seen') (regions ++ regions') := by
  refine ⟨?_, h.display.append (h.next ▸ h'.display), ?_⟩
  · rw [h'.next, h.next, List.length_append, Nat.add_assoc]
  · rw [List.map_append, h.seen, h'.seen]

namespace TagLine

/-- The value with its delimiters, when it has a place on the line of a snippet. -/
def seenValue (layout : Layout) (line : TagLine) : List Segment :=
  if line.showsValue true then
    [⟨line.delimiters.1 ++ shownText line.value ++ line.delimiters.2,
      line.delimiters.1 ++ shownText line.value ++ line.delimiters.2, layout.value⟩]
  else []

/-- The description, when it has a place on the line of a snippet. -/
def seenDescription (layout : Layout) (line : TagLine) : List Segment :=
  if line.showsDescription true then
    [⟨shownText line.description, shownText line.description, layout.description⟩]
  else []

theorem shown_getD (p : Option Phrase) : (p.getD (.plain "")).shown = shownText p := by
  cases p <;> rfl

theorem region?_getD (p : Option Phrase) :
    (p.getD (.plain "")).region? = p.bind Phrase.region? := by
  cases p <;> rfl

theorem regions_of_shown {p : Option Phrase} (h : shownText p ≠ "") :
    (p.bind Phrase.region?).toList.filter (fun text => !text.isEmpty) =
      (p.bind Phrase.region?).toList := by
  match p with
  | none | some (.plain _) => rfl
  | some (.region text) =>
    have htext : text ≠ "" := h
    simp [Phrase.region?, htext]

theorem regions_of_not_shown {p : Option Phrase} (h : shownText p = "") :
    (p.bind Phrase.region?).toList.filter (fun text => !text.isEmpty) = [] := by
  match p with
  | none | some (.plain _) => rfl
  | some (.region text) =>
    have htext : text = "" := h
    simp [Phrase.region?, htext]

theorem valueRegions_of_shows {line : TagLine} (h : line.showsValue true = true) :
    line.valueRegions = (line.value.getD (.plain "")).regions line.forceRegion := by
  rw [valueRegions, Phrase.regions, shown_getD, region?_getD]
  by_cases hforce : line.forceRegion
  · rw [if_pos hforce, if_pos hforce]
  · have hsome : shownText line.value ≠ "" := by simpa [showsValue, hforce] using h
    rw [if_neg hforce, if_neg hforce, regions_of_shown hsome]

theorem valueRegions_of_not_shows {line : TagLine} (h : ¬line.showsValue true = true) :
    line.valueRegions = [] := by
  obtain ⟨hnone, hforce⟩ : shownText line.value = "" ∧ line.forceRegion = false := by
    simpa [showsValue] using h
  rw [valueRegions, hforce, if_neg Bool.false_ne_true, regions_of_not_shown hnone]

theorem valueSegment_show (layout : Layout) (stop : Nat) (line : TagLine) :
    SegmentsShow stop ([(line.valueSegment layout true stop).1],
        (line.valueSegment layout true stop).2)
      [⟨line.delimiters.1 ++ shownText line.value ++ line.delimiters.2,
        line.delimiters.1 ++ shownText line.value ++ line.delimiters.2, layout.value⟩]
      ((line.value.getD (.plain "")).regions line.forceRegion) := by
  obtain ⟨hdisplays, hnext⟩ := (line.value.getD (.plain "")).markup_displays line.forceRegion stop
  refine ⟨hnext, .single ?_, by simp [valueSegment, Segment.seen, shown_getD]⟩
  have hopening := Displays.escaped stop line.delimiters.1.toList
  have hclosing := Displays.escaped
    (stop + ((line.value.getD (.plain "")).regions line.forceRegion).length)
    line.delimiters.2.toList
  have hvalue := (hopening.append hdisplays).append (by simpa using hclosing)
  simpa [valueSegment, snippetEscape] using hvalue

theorem phraseSegment_show (column : Int) (stop : Nat) (p : Phrase) :
    SegmentsShow stop ([(phraseSegment column true stop p).1], (phraseSegment column true stop p).2)
      [⟨p.shown, p.shown, column⟩] p.region?.toList := by
  obtain ⟨hdisplays, hnext⟩ := p.markup_displays false stop
  exact ⟨hnext, .single hdisplays, rfl⟩

theorem valueSegments_show (layout : Layout) (stop : Nat) (line : TagLine) :
    SegmentsShow stop (line.valueSegments layout true stop) (line.seenValue layout)
      line.valueRegions := by
  unfold valueSegments seenValue
  by_cases hshows : line.showsValue true
  · rw [valueRegions_of_shows hshows, if_pos hshows, if_pos hshows]
    exact line.valueSegment_show layout stop
  · rw [valueRegions_of_not_shows hshows, if_neg hshows, if_neg hshows]
    exact ⟨rfl, .nil, rfl⟩

theorem nameSegments_show (layout : Layout) (stop : Nat) (line : TagLine) :
    SegmentsShow stop (line.nameSegments layout true stop)
      (textSegment layout.name "" (shownText line.name) "")
      ((line.name.bind Phrase.region?).toList.filter fun text => !text.isEmpty) := by
  unfold nameSegments
  rcases hname : line.name with _ | p
  · exact ⟨rfl, .nil, rfl⟩
  · by_cases hshown : p.shown = ""
    · have hnone : shownText (some p) = "" := hshown
      rw [regions_of_not_shown hnone]
      exact ⟨by simp [hshown], by simpa [hshown] using .nil, by simp [textSegment, hnone, hshown]⟩
    · have hsome : shownText (some p) ≠ "" := hshown
      have hshow := phraseSegment_show layout.name stop p
      rw [regions_of_shown hsome]
      refine ⟨by simpa [hshown] using hshow.next, by simpa [hshown] using hshow.display, ?_⟩
      simpa [hshown, textSegment, shownText] using hshow.seen

theorem descriptionSegments_show (layout : Layout) (stop : Nat) (line : TagLine) :
    SegmentsShow stop (line.descriptionSegments layout true stop) (line.seenDescription layout)
      (line.description.bind Phrase.region?).toList := by
  unfold descriptionSegments seenDescription
  by_cases hshows : line.showsDescription true
  · have hshow := phraseSegment_show layout.description stop (line.description.getD (.plain ""))
    rw [region?_getD, shown_getD] at hshow
    rw [if_pos hshows, if_pos hshows]
    exact hshow
  · have hnone : line.description.bind Phrase.region? = none := by
      rcases hdescription : line.description with _ | ⟨_ | _⟩
      · rfl
      · rfl
      · simp [showsDescription, hdescription, Phrase.isRegion] at hshows
    rw [if_neg hshows, if_neg hshows, hnone]
    exact ⟨rfl, .nil, rfl⟩

/-- The segments that a user sees of the snippet of a line. -/
def seenSegments (layout : Layout) (line : TagLine) : List Segment :=
  line.seenValue layout ++ textSegment layout.name "" (shownText line.name) "" ++
    line.seenDescription layout

/-- The segments of the snippet of a line show its texts, and their stops are the regions of
the line. -/
theorem segments_show (layout : Layout) (stop : Nat) (line : TagLine) :
    SegmentsShow stop (line.segments layout true stop) (line.seenSegments layout)
      line.regions := by
  have hvalue := line.valueSegments_show layout stop
  have hname := line.nameSegments_show layout (line.valueSegments layout true stop).2
  exact (hvalue.append hname).append (line.descriptionSegments_show layout _)

/-! ## Lines -/

/-- What stands on the line of a header after its star. -/
def body (layout : Layout) (snippet : Bool) (stop : Nat) (line : TagLine) : List Char :=
  (line.tagText ++
    writeSegments line.align (2 + line.tagText.length) (line.segments layout snippet stop).1).toList

/-- What a user sees of the snippet of a line after its star. -/
def seenBody (layout : Layout) (line : TagLine) : List Char :=
  (line.tagText ++
    writeSegments line.align (2 + line.tagText.length) (line.seenSegments layout)).toList

theorem render_eq (layout : Layout) (snippet : Bool) (stop : Nat) (line : TagLine) :
    (line.render layout snippet stop).1.toList = ' ' :: '*' :: line.body layout snippet stop ∧
      (line.render layout snippet stop).2 = (line.segments layout snippet stop).2 :=
  ⟨by simp [render, body], rfl⟩

theorem body_plain (layout : Layout) (stop : Nat) (line : TagLine) :
    line.body layout false stop = line.body layout false 0 := by
  simp only [body, segments_plain]

/-- What stands before the texts of a line has no reserved characters but those of its tag. -/
theorem tagText_free {line : TagLine}
    (htag : ∀ tag ∈ line.tag?, ∀ c ∈ tag.toList, Snippet.isReserved c = false) :
    ∀ c ∈ line.tagText.toList, Snippet.isReserved c = false := by
  unfold tagText
  split
  next tag hsome =>
    intro c hc
    simp only [String.toList_append, List.mem_append] at hc
    rcases hc with hc | hc
    · obtain rfl | rfl : c = ' ' ∨ c = '@' := by simpa using hc
      · rfl
      · rfl
    · exact htag tag hsome c hc
  next => simp

/-- The snippet of a line shows its text, and its stops are the regions of the line. -/
theorem body_displays (layout : Layout) (stop : Nat) {line : TagLine}
    (htag : ∀ tag ∈ line.tag?, ∀ c ∈ tag.toList, Snippet.isReserved c = false) :
    Displays stop (line.body layout true stop) (line.seenBody layout) line.regions := by
  have hshow := line.segments_show layout stop
  have hline := (Displays.free stop (tagText_free htag)).append
    (hshow.display.writeSegments line.align (2 + line.tagText.length))
  rw [hshow.seen] at hline
  simpa [body, seenBody] using hline

end TagLine

/-- What stands on the lines of a header after their stars. -/
def bodies (layout : Layout) (snippet : Bool) (stop : Nat) : List TagLine → List (List Char)
  | [] => []
  | line :: rest =>
    line.body layout snippet stop ::
      bodies layout snippet (line.segments layout snippet stop).2 rest

theorem renderLines_eq (layout : Layout) (snippet : Bool) (stop : Nat) (lines : List TagLine) :
    (renderLines layout snippet stop lines).map String.toList =
      (bodies layout snippet stop lines).map fun cs => ' ' :: '*' :: cs := by
  induction lines generalizing stop with
  | nil => rfl
  | cons line rest ih =>
    obtain ⟨htext, hnext⟩ := line.render_eq layout snippet stop
    rw [renderLines, List.map_cons, htext, hnext, ih, bodies, List.map_cons]

theorem bodies_plain (layout : Layout) (stop : Nat) (lines : List TagLine) :
    bodies layout false stop lines = lines.map fun line => line.body layout false 0 := by
  induction lines generalizing stop with
  | nil => rfl
  | cons line rest ih => rw [bodies, line.body_plain, ih, List.map_cons]

/-- The snippets of lines, each after the same text, show the lines after that text. -/
theorem bodies_displays (layout : Layout) (first : List Char)
    (hfirst : ∀ c ∈ first, Snippet.isReserved c = false) (stop : Nat) {lines : List TagLine}
    (htags : ∀ line ∈ lines, ∀ tag ∈ line.tag?, ∀ c ∈ tag.toList, Snippet.isReserved c = false) :
    Displays stop ((bodies layout true stop lines).flatMap (first ++ ·))
      ((lines.map (TagLine.seenBody layout)).flatMap (first ++ ·))
      (lines.flatMap TagLine.regions) := by
  induction lines generalizing stop with
  | nil => exact .nil
  | cons line rest ih =>
    have hline := line.body_displays layout stop (htags line List.mem_cons_self)
    have hrest := ih (stop + line.regions.length) fun l hl => htags l (List.mem_cons_of_mem _ hl)
    rw [bodies, (line.segments_show layout stop).next]
    simpa using ((Displays.free stop hfirst).append hline).append hrest

theorem length_bodies (layout : Layout) (snippet : Bool) (stop : Nat) (lines : List TagLine) :
    (bodies layout snippet stop lines).length = lines.length := by
  induction lines generalizing stop with
  | nil => rfl
  | cons line rest ih => rw [bodies, List.length_cons, ih, List.length_cons]

/-- What stands before the body of a line has no reserved characters. -/
theorem rowStart_free {indent : List Char} (hindent : ∀ c ∈ indent, Snippet.isReserved c = false) :
    ∀ c ∈ '\n' :: (indent ++ [' ', '*']), Snippet.isReserved c = false := by
  intro c hc
  simp only [List.mem_cons, List.mem_append, List.not_mem_nil, or_false] at hc
  rcases hc with rfl | hc | rfl | rfl
  · rfl
  · exact hindent c hc
  · rfl
  · rfl

/-- What stands between the ends of the comment of a snippet shows what its lines show. -/
theorem inside_displays (layout : Layout) {indent : List Char}
    (hindent : ∀ c ∈ indent, Snippet.isReserved c = false) (single : Bool) (stop : Nat)
    {lines : List TagLine}
    (htags : ∀ line ∈ lines, ∀ tag ∈ line.tag?, ∀ c ∈ tag.toList, Snippet.isReserved c = false) :
    Displays stop (inside indent single (bodies layout true stop lines))
      (inside indent single (lines.map (TagLine.seenBody layout)))
      (lines.flatMap TagLine.regions) := by
  cases single with
  | true =>
    have hlines := bodies_displays layout [] (by simp) stop htags
    simpa only [List.nil_append, List.flatMap_id', inside, if_true] using hlines
  | false =>
    have hlast : ∀ c ∈ '\n' :: indent, Snippet.isReserved c = false :=
      List.forall_mem_cons.mpr ⟨rfl, hindent⟩
    have hlines := (bodies_displays layout _ (rowStart_free hindent) stop htags).append
      (.free _ hlast)
    simpa [inside] using hlines

end DocHeader

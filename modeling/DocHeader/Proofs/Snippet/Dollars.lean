import DocHeader.Proofs.Header.UserTags
import DocHeader.Proofs.Snippet.Preview
import DocHeader.Settings.Reader
import Mathlib.Algebra.Group.Nat.Even
import Mathlib.Algebra.Ring.Parity

/-!
# The dollar signs of a snippet

A dollar sign has a meaning in a snippet unless a backslash stands before it, one that is not
itself escaped. In the snippet of a header the regions are written one after the other, and what
stands around them is escaped, all but the tags. So each dollar sign with a meaning begins a
region, in the order of the regions, just when no tag has one; and tags come from the settings
and from the clauses of a class, where any text may be a tag.

## Main definitions

* `Snippet.dollars` — what begins with a dollar sign that has a meaning.
* `Snippet.HasStops`, `Snippet.BeginsEach` — regions begin at some of these dollar signs, or at
  each of them.
* `Begins` — a piece of a snippet, its regions, and the dollar signs that begin none.
-/

namespace DocHeader

namespace Snippet

/-- Whether a backslash escapes the character that comes after a text. -/
def escaping (escaped : Bool) (cs : List Char) : Bool :=
  cs.foldl (fun escaped c => !escaped && c == '\\') escaped

/-- What begins with a dollar sign that no backslash escapes, after a text that ends in an
escaping backslash or does not. -/
def dollarsFrom (escaped : Bool) : List Char → List (List Char)
  | [] => []
  | c :: cs =>
    let rest := dollarsFrom (!escaped && c == '\\') cs
    if !escaped && c == '$' then (c :: cs) :: rest else rest

/-- What begins with a dollar sign that no backslash escapes, in reading order. -/
def dollars (cs : List Char) : List (List Char) := dollarsFrom false cs

variable {a b cs rest : List Char} {escaped : Bool}

theorem mem_dollarsFrom : rest ∈ dollarsFrom escaped cs ↔
    ∃ before after, cs = before ++ '$' :: after ∧ rest = '$' :: after ∧
      escaping escaped before = false := by
  induction cs generalizing escaped with
  | nil => simp [dollarsFrom]
  | cons c cs ih =>
    have hlater : rest ∈ dollarsFrom (!escaped && c == '\\') cs ↔ ∃ before after,
        c :: cs = (c :: before) ++ '$' :: after ∧ rest = '$' :: after ∧
          escaping escaped (c :: before) = false := by
      simp [ih, escaping]
    have hcases : (∃ before after, c :: cs = before ++ '$' :: after ∧ rest = '$' :: after ∧
        escaping escaped before = false) ↔
          (escaped = false ∧ c = '$' ∧ rest = c :: cs) ∨
            rest ∈ dollarsFrom (!escaped && c == '\\') cs := by
      rw [hlater]
      constructor
      · rintro ⟨before, after, hsplit, hrest, hfree⟩
        cases before with
        | nil =>
          obtain ⟨rfl, rfl⟩ := List.cons.inj hsplit
          exact .inl ⟨hfree, rfl, hrest⟩
        | cons d before =>
          obtain ⟨rfl, -⟩ := List.cons.inj hsplit
          exact .inr ⟨before, after, hsplit, hrest, hfree⟩
      · rintro (⟨hfree, rfl, rfl⟩ | ⟨before, after, hsplit, hrest, hfree⟩)
        · exact ⟨[], cs, rfl, rfl, hfree⟩
        · exact ⟨c :: before, after, hsplit, hrest, hfree⟩
    rw [hcases, dollarsFrom]
    by_cases hdollar : (!escaped && c == '$') = true
    · obtain ⟨rfl, rfl⟩ : escaped = false ∧ c = '$' := by simpa using hdollar
      simp
    · have hnot : ¬(escaped = false ∧ c = '$' ∧ rest = c :: cs) := by
        rintro ⟨rfl, rfl, -⟩
        exact hdollar rfl
      rw [if_neg hdollar, or_iff_right hnot]

/-- The next character is escaped after an odd number of backslashes. -/
theorem escaping_iff_odd :
    escaping false cs = true ↔ Odd (cs.rtakeWhile (· == '\\')).length := by
  induction cs using List.reverseRecOn with
  | nil => simp [escaping]
  | append_singleton cs c ih =>
    have hstep : escaping false (cs ++ [c]) = (!escaping false cs && c == '\\') := by
      simp [escaping]
    by_cases hc : c = '\\'
    · rw [hstep, List.rtakeWhile_concat, if_pos (by simp [hc]), List.length_append,
        List.length_singleton, Nat.odd_add_one, ← ih]
      simp [hc]
    · rw [hstep, List.rtakeWhile_concat, if_neg (by simp [hc])]
      simp [hc]

/-- A dollar sign has a meaning when the number of backslashes before it is even. -/
theorem mem_dollars : rest ∈ dollars cs ↔
    ∃ before after, cs = before ++ '$' :: after ∧ rest = '$' :: after ∧
      Even (before.rtakeWhile (· == '\\')).length := by
  simp only [dollars, mem_dollarsFrom, ← Nat.not_odd_iff_even, ← escaping_iff_odd,
    Bool.not_eq_true]

/-! ## Pieces of a snippet -/

theorem dollarsFrom_append (escaped : Bool) (a b : List Char) : dollarsFrom escaped (a ++ b) =
    (dollarsFrom escaped a).map (· ++ b) ++ dollarsFrom (escaping escaped a) b := by
  induction a generalizing escaped with
  | nil => rfl
  | cons c a ih =>
    have hstep : escaping escaped (c :: a) = escaping (!escaped && c == '\\') a := rfl
    rw [List.cons_append, dollarsFrom, ih, hstep, dollarsFrom]
    split <;> simp

/-- A text that does not begin with a reserved character, so that a backslash before it escapes
nothing that has a meaning. -/
def BeginsPlainly (cs : List Char) : Prop := ∀ c ∈ cs.head?, isReserved c = false

theorem BeginsPlainly.append (ha : BeginsPlainly a) (hb : BeginsPlainly b) :
    BeginsPlainly (a ++ b) := by
  cases a with
  | nil => exact hb
  | cons c a => exact ha

theorem BeginsPlainly.flatMap {α : Type} {f : α → List Char} {xs : List α}
    (h : ∀ x ∈ xs, BeginsPlainly (f x)) : BeginsPlainly (xs.flatMap f) := by
  induction xs with
  | nil => simp [BeginsPlainly]
  | cons x xs ih =>
    obtain ⟨hx, hxs⟩ := List.forall_mem_cons.mp h
    exact hx.append (ih hxs)

theorem BeginsPlainly.of_free (h : ∀ c ∈ cs, isReserved c = false) : BeginsPlainly cs :=
  fun c hc => h c (List.mem_of_mem_head? hc)

theorem dollars_append (hb : BeginsPlainly b) :
    dollars (a ++ b) = (dollars a).map (· ++ b) ++ dollars b := by
  rw [dollars, dollarsFrom_append]
  congr 1
  cases b with
  | nil => rfl
  | cons c b =>
    have hc : isReserved c = false := hb c rfl
    simp only [isReserved, Bool.or_eq_false_iff] at hc
    simp [dollars, dollarsFrom, hc]

/-- A text in which no dollar sign has a meaning, and after which no character is escaped. -/
def Inert (cs : List Char) : Prop := dollars cs = [] ∧ escaping false cs = false

theorem Inert.dollars_append (h : Inert a) (b : List Char) : dollars (a ++ b) = dollars b := by
  rw [dollars, dollarsFrom_append, h.2, ← dollars, ← dollars, h.1]
  rfl

theorem Inert.append (ha : Inert a) (hb : Inert b) : Inert (a ++ b) := by
  refine ⟨by rw [ha.dollars_append, hb.1], ?_⟩
  have hstep : escaping false (a ++ b) = escaping (escaping false a) b := List.foldl_append
  rw [hstep, ha.2, hb.2]

theorem inert_snippetChar (c : Char) : Inert (snippetChar c) := by
  by_cases hc : isReserved c
  · rw [snippetChar_eq, if_pos hc]
    simp [Inert, dollars, dollarsFrom, escaping]
  · rw [snippetChar_eq, if_neg hc]
    simp only [isReserved, Bool.or_eq_true, not_or] at hc
    simp [Inert, dollars, dollarsFrom, escaping, hc]

/-- Escaped text is inert. -/
theorem inert_escaped (cs : List Char) : Inert (cs.flatMap snippetChar) := by
  induction cs with
  | nil => exact ⟨rfl, rfl⟩
  | cons c cs ih => exact (inert_snippetChar c).append ih

theorem inert_of_free (h : ∀ c ∈ cs, isReserved c = false) : Inert cs :=
  flatMap_snippetChar_of_free h ▸ inert_escaped cs

/-- The only dollar sign of a stop is the one it begins with. -/
theorem dollars_stop (n : Nat) (text : List Char) (b : List Char) :
    dollars ((stopMarkup n (.ofList text)).toList ++ b) =
      ((stopMarkup n (.ofList text)).toList ++ b) :: dollars b := by
  have hdigits : Inert (Nat.toDigits 10 n) := by
    refine inert_of_free fun c hc => ?_
    have hdigit : c.isDigit = true := Nat.isDigit_of_mem_toDigits (by decide) (by decide) hc
    by_contra hreserved
    simp only [isReserved, Bool.not_eq_false, Bool.or_eq_true, beq_iff_eq] at hreserved
    rcases hreserved with (rfl | rfl) | rfl <;> cases hdigit
  have htext : Inert (if text = [] then ['\x7d'] else
      ':' :: (text.flatMap snippetChar ++ ['\x7d'])) := by
    split
    · exact ⟨rfl, rfl⟩
    · have hcolon : Inert [':'] := ⟨rfl, rfl⟩
      exact hcolon.append ((inert_escaped text).append ⟨rfl, rfl⟩)
  have hmore : Inert ('\x7b' :: (Nat.toDigits 10 n ++ if text = [] then ['\x7d'] else
      ':' :: (text.flatMap snippetChar ++ ['\x7d']))) := by
    have hbrace : Inert ['\x7b'] := ⟨rfl, rfl⟩
    exact hbrace.append (hdigits.append htext)
  rw [toList_stopMarkup, List.cons_append, dollars, dollarsFrom]
  simp only [Bool.not_false, Bool.true_and, beq_self_eq_true, if_true]
  exact congrArg _ (hmore.dollars_append b)

/-- A region with its number begins here. -/
def Opens (region : String × Nat) (rest : List Char) : Prop :=
  (stopMarkup region.2 region.1).toList <+: rest

instance : DecidableRel Opens := fun _ _ => inferInstanceAs (Decidable (_ <+: _))

/-- Regions begin at dollar signs that have a meaning, in their order, and are numbered from
`stop` on. -/
def HasStops (stop : Nat) (regions : List String) (cs : List Char) : Prop :=
  ∃ rests, rests.Sublist (dollars cs) ∧ List.Forall₂ Opens (regions.zipIdx stop) rests

/-- Each dollar sign that has a meaning begins a region, in the order of the regions, which are
numbered from `stop` on. -/
def BeginsEach (stop : Nat) (regions : List String) (cs : List Char) : Prop :=
  List.Forall₂ Opens (regions.zipIdx stop) (dollars cs)

instance (stop : Nat) (regions : List String) (cs : List Char) :
    Decidable (BeginsEach stop regions cs) :=
  inferInstanceAs (Decidable (List.Forall₂ _ _ _))

/-- In a text that is written part by part each dollar sign with a meaning begins a stop. -/
theorem dollars_written (parts : List Part) :
    List.Forall₂ (fun stop rest => Opens (.ofList stop.1, stop.2) rest) (stops parts)
      (dollars (written parts)) := by
  induction parts with
  | nil => exact .nil
  | cons part parts ih =>
    have hwritten : written (part :: parts) = part.written ++ written parts := rfl
    rw [hwritten]
    cases part with
    | char c =>
      rw [Part.written, (inert_snippetChar c).dollars_append]
      exact ih
    | stop n text =>
      have hdollars := dollars_stop n text (written parts)
      rw [Part.written, hdollars]
      exact .cons (List.prefix_append _ _) ih

end Snippet

/-! ## Lines -/

/-- A piece of a snippet with its regions, numbered from `stop` on, and the dollar signs that
begin none of them. -/
structure Begins (stop : Nat) (cs : List Char) (regions : List String)
    (strays : List (List Char)) : Prop where
  count : (Snippet.dollars cs).length = regions.length + strays.length
  stops : Snippet.HasStops stop regions cs

namespace Begins

variable {stop : Nat} {a b cs shown : List Char} {regions regions' : List String}
  {strays strays' : List (List Char)}

/-- A piece that is read as its regions has no other dollar signs. -/
theorem of_displays (h : Displays stop cs shown regions) : Begins stop cs regions [] := by
  obtain ⟨parts, rfl, -, hstops⟩ := h
  have hwritten := Snippet.dollars_written parts
  rw [hstops, List.zipIdx_map, List.forall₂_map_left_iff] at hwritten
  have heach : Snippet.BeginsEach stop regions (Snippet.written parts) := by
    simpa [Snippet.BeginsEach] using hwritten
  exact ⟨by simpa using heach.length_eq.symm, _, .refl _, heach⟩

/-- A piece without regions. -/
theorem stray (stop : Nat) (cs : List Char) : Begins stop cs [] (Snippet.dollars cs) where
  count := by simp
  stops := ⟨[], List.nil_sublist _, .nil⟩

theorem append (hb : Snippet.BeginsPlainly b) (h : Begins stop a regions strays)
    (h' : Begins (stop + regions.length) b regions' strays') :
    Begins stop (a ++ b) (regions ++ regions') (strays ++ strays') := by
  have hdollars := @Snippet.dollars_append a b hb
  obtain ⟨rests, hsub, hopens⟩ := h.stops
  obtain ⟨rests', hsub', hopens'⟩ := h'.stops
  refine ⟨?_, rests.map (· ++ b) ++ rests', hdollars ▸ (hsub.map (· ++ b)).append hsub', ?_⟩
  · simp only [hdollars, List.length_append, List.length_map, h.count, h'.count]
    omega
  · rw [List.zipIdx_append]
    refine List.rel_append (List.forall₂_map_right_iff.mpr ?_) hopens'
    exact hopens.imp fun region rest hprefix => hprefix.trans (List.prefix_append rest b)

/-- Each dollar sign begins a region just when there are no others. -/
theorem beginsEach_iff (h : Begins stop cs regions strays) :
    Snippet.BeginsEach stop regions cs ↔ strays = [] := by
  constructor
  · intro heach
    have hlength := heach.length_eq
    rw [List.length_zipIdx, h.count] at hlength
    exact List.length_eq_zero_iff.mp (by omega)
  · rintro rfl
    obtain ⟨rests, hsub, hopens⟩ := h.stops
    have hlength : rests.length = (Snippet.dollars cs).length := by
      rw [← hopens.length_eq, List.length_zipIdx, h.count]
      rfl
    rwa [Snippet.BeginsEach, ← hsub.eq_of_length hlength]

end Begins

/-- The dollar signs that have a meaning in tags. -/
def strayDollars (tags : List String) : List (List Char) :=
  tags.flatMap fun tag => Snippet.dollars tag.toList

theorem strayDollars_eq_nil {tags : List String} :
    strayDollars tags = [] ↔ ∀ tag ∈ tags, Snippet.dollars tag.toList = [] :=
  List.flatMap_eq_nil_iff

namespace TagLine

theorem head_writeSegments (align : Bool) (width : Nat) (segments : List Segment) :
    Snippet.BeginsPlainly (writeSegments align width segments).toList := by
  cases segments with
  | nil => simp [Snippet.BeginsPlainly, writeSegments]
  | cons s rest =>
    obtain ⟨blanks, hblanks⟩ := Nat.exists_eq_add_one.mpr (padding_pos align s.column width)
    simp [Snippet.BeginsPlainly, writeSegments, hblanks, List.replicate_succ, Snippet.isReserved]

theorem head_body (layout : Layout) (stop : Nat) (line : TagLine) :
    Snippet.BeginsPlainly (line.body layout true stop) := by
  rw [body, String.toList_append]
  refine Snippet.BeginsPlainly.append ?_ (head_writeSegments _ _ _)
  unfold tagText
  split <;> simp [Snippet.BeginsPlainly, Snippet.isReserved]

theorem dollars_tagText (line : TagLine) :
    Snippet.dollars line.tagText.toList = strayDollars line.tag?.toList := by
  unfold tagText
  cases line.tag? with
  | none => rfl
  | some tag =>
    have hat : Snippet.Inert " @".toList := Snippet.inert_of_free (by simp [Snippet.isReserved])
    simp only [String.toList_append, hat.dollars_append, strayDollars, Option.toList_some,
      List.flatMap_singleton]

/-- The dollar signs of a line that do not stand in its tag begin its regions. -/
theorem body_begins (layout : Layout) (stop : Nat) (line : TagLine) :
    Begins stop (line.body layout true stop) line.regions (strayDollars line.tag?.toList) := by
  have hshow := line.segments_show layout stop
  have hsegments := hshow.display.writeSegments line.align (2 + line.tagText.length)
  have hline := (Begins.stray stop line.tagText.toList).append (head_writeSegments _ _ _)
    (.of_displays hsegments)
  simpa [body, dollars_tagText] using hline

end TagLine

theorem head_bodies (layout : Layout) (stop : Nat) (lines : List TagLine) :
    ∀ body ∈ bodies layout true stop lines, Snippet.BeginsPlainly body := by
  induction lines generalizing stop with
  | nil => simp [bodies]
  | cons line rest ih => exact List.forall_mem_cons.mpr ⟨line.head_body layout stop, ih _⟩

/-- The dollar signs of lines, each after the same text, that do not stand in tags begin their
regions. -/
theorem bodies_begin (layout : Layout) {first : List Char}
    (hfirst : ∀ c ∈ first, Snippet.isReserved c = false) (stop : Nat) (lines : List TagLine) :
    Begins stop ((bodies layout true stop lines).flatMap (first ++ ·))
      (lines.flatMap TagLine.regions) (strayDollars (tagsOf lines)) := by
  induction lines generalizing stop with
  | nil => exact .stray stop []
  | cons line rest ih =>
    have hheads : Snippet.BeginsPlainly
        ((bodies layout true (stop + line.regions.length) rest).flatMap (first ++ ·)) :=
      .flatMap fun body hbody => .append (.of_free hfirst) (head_bodies layout _ rest body hbody)
    have hline := (Begins.of_displays (Displays.free stop hfirst)).append
      (line.head_body layout stop) (line.body_begins layout stop)
    rw [bodies, (line.segments_show layout stop).next]
    simpa [strayDollars, tagsOf_cons] using hline.append hheads (ih (stop + line.regions.length))

theorem head_inside (layout : Layout) (indent : List Char) (single : Bool) (stop : Nat)
    (lines : List TagLine) :
    Snippet.BeginsPlainly (inside indent single (bodies layout true stop lines)) := by
  cases single with
  | true =>
    rw [inside, if_pos rfl, List.flatten_eq_flatMap]
    exact .flatMap (head_bodies layout stop lines)
  | false =>
    cases lines <;> simp [inside, bodies, Snippet.BeginsPlainly, Snippet.isReserved]

/-- So do those between the ends of the comment of a snippet. -/
theorem inside_begins (layout : Layout) {indent : List Char}
    (hindent : ∀ c ∈ indent, Snippet.isReserved c = false) (single : Bool) (stop : Nat)
    (lines : List TagLine) :
    Begins stop (inside indent single (bodies layout true stop lines))
      (lines.flatMap TagLine.regions) (strayDollars (tagsOf lines)) := by
  cases single with
  | true =>
    have hlines := bodies_begin layout (List.forall_mem_nil _) stop lines
    simpa only [List.nil_append, List.flatMap_id', inside, if_true] using hlines
  | false =>
    have hlast : ∀ c ∈ '\n' :: indent, Snippet.isReserved c = false :=
      List.forall_mem_cons.mpr ⟨rfl, hindent⟩
    have hlines := (bodies_begin layout (rowStart_free hindent) stop lines).append (.of_free hlast)
      (.of_displays (.free _ hlast))
    simpa [inside] using hlines

/-! ## Headers -/

/-- The dollar signs of the snippet of a draft that do not stand in tags begin its regions. -/
theorem Draft.render_begins (d : Draft) (style : Style)
    (hindent : ∀ c ∈ style.indent.toList, Snippet.isReserved c = false) :
    Begins 1 (d.render { style with snippet := true }).toList
      (d.finish.lines.flatMap TagLine.regions) (strayDollars (tagsOf d.finish.lines)) := by
  have hbegin : ∀ c ∈ ['/', '*', '*'], Snippet.isReserved c = false := by
    simp [Snippet.isReserved]
  have hend : ∀ c ∈ ' ' :: '*' :: '/' :: '\n' :: style.indent.toList,
      Snippet.isReserved c = false := by
    simpa [Snippet.isReserved] using hindent
  have hinside := inside_begins style.layout hindent
    (style.singleLine && d.finish.lines.length ≤ 1) 1 d.finish.lines
  have htext := ((Begins.of_displays (Displays.free 1 hbegin)).append
    (head_inside _ _ _ _ _) hinside).append (.of_free hend) (.of_displays (.free _ hend))
  rw [toList_render_snippet]
  simpa using htext

/-! ## Tags -/

theorem Snippet.dollars_of_notMem {cs : List Char} (h : '$' ∉ cs) : Snippet.dollars cs = [] := by
  refine List.eq_nil_iff_forall_not_mem.mpr fun rest hrest => ?_
  obtain ⟨before, after, rfl, -⟩ := Snippet.mem_dollars.mp hrest
  simp at h

namespace TagOrder

variable {s : Settings} {f : Focus} {kind : DeclarationKind}

/-- The tags that say what is documented. -/
def kindTags : List String :=
  ["interface", "class", "typedef", "enum", "type", "generator", "constructor", "file"]

theorem ofKind_subset : ofKind s f kind ⊆ kindTags := by
  unfold ofKind kindTags
  split
  next => split <;> split <;> simp
  next => simp
  next => simp
  next => split <;> simp
  next => split <;> simp
  next => split <;> simp
  next => split <;> simp
  next => simp
  next => simp

theorem modifiers_subset : modifiers s f ⊆ modifierTags := by
  intro tag htag
  have hshown := (List.mem_filter.mp htag).2
  simp only [showsModifier, Bool.and_eq_true, List.contains_iff_mem] at hshown
  exact hshown.1.1

/-- The tags of every header that are neither keywords of clauses nor tags of the user. -/
def fixedTags : List String :=
  ["author", "date", "override", "inheritdoc", "template", "param", "returns"] ++ modifierTags ++
    kindTags

theorem eq_of_mem_opening {tag : String} (h : tag ∈ author s ++ date s) :
    tag = "author" ∨ tag = "date" := by
  rcases List.mem_append.mp h with h | h
  · unfold author at h
    split at h
    · cases h
    · exact .inl (List.mem_singleton.mp h)
  · unfold date at h
    split at h
    · cases h
    · exact .inr (List.mem_singleton.mp h)

theorem eq_param_of_mem {tag : String} {ps : List Focus} (h : tag ∈ ps.flatMap parameterTags) :
    tag = "param" := by
  obtain ⟨p, -, hp⟩ := List.mem_flatMap.mp h
  exact (List.mem_cons.mp hp).elim id List.eq_of_mem_replicate

theorem eq_returns_of_mem {tag : String} (h : tag ∈ returns s f kind) : tag = "returns" := by
  unfold returns at h
  split at h
  · exact List.mem_singleton.mp h
  · cases h

/-- A tag of a header is one of the fixed ones, the keyword of a clause, or one of the user. -/
theorem mem_expected {tag : String} (h : tag ∈ expected s f kind) :
    tag ∈ fixedTags ∨ ¬Builder.PointsElsewhere f kind ∧ tag ∈ heritage f kind ++ custom s kind := by
  unfold expected at h
  split at h
  next => exact .inl (by simp [fixedTags, List.mem_singleton.mp h])
  next hopposite =>
    rcases List.mem_append.mp h with h | h
    · exact .inl (by rcases eq_of_mem_opening h with rfl | rfl <;> simp [fixedTags])
    unfold own at h
    split at h
    next => exact .inl (by rcases List.mem_pair.mp h with rfl | rfl <;> simp [fixedTags])
    next hoverride =>
      have hown : ¬Builder.PointsElsewhere f kind := not_or.mpr ⟨hoverride, hopposite⟩
      simp only [List.mem_append] at h
      rcases h with (((((h | h) | h) | h) | h) | h) | h
      · exact .inl (by simp [fixedTags, modifiers_subset h])
      · exact .inl (by simp [fixedTags, ofKind_subset h])
      · exact .inr ⟨hown, List.mem_append_left _ h⟩
      · exact .inl (by simp [fixedTags, List.eq_of_mem_replicate h])
      · exact .inl (by simp [fixedTags, eq_param_of_mem h])
      · exact .inl (by simp [fixedTags, eq_returns_of_mem h])
      · exact .inr ⟨hown, List.mem_append_right _ h⟩

theorem mem_expected_of_own {tag : String} (hown : ¬Builder.PointsElsewhere f kind)
    (h : tag ∈ heritage f kind ++ custom s kind) : tag ∈ expected s f kind := by
  obtain ⟨hoverride, hopposite⟩ := not_or.mp hown
  rw [expected, if_neg hopposite, own, if_neg hoverride]
  rcases List.mem_append.mp h with h | h <;> simp [h]

/-- Only the keywords of clauses and the tags of the user can have dollar signs. -/
theorem dollars_expected_iff : (∀ tag ∈ expected s f kind, Snippet.dollars tag.toList = []) ↔
    Builder.PointsElsewhere f kind ∨
      ∀ tag ∈ heritage f kind ++ custom s kind, Snippet.dollars tag.toList = [] := by
  have hfixed : ∀ tag ∈ fixedTags, '$' ∉ tag.toList := by decide
  refine ⟨fun h => or_iff_not_imp_left.mpr fun hown tag htag =>
    h tag (mem_expected_of_own hown htag), fun h tag htag => ?_⟩
  rcases mem_expected htag with htag | ⟨hown, htag⟩
  · exact Snippet.dollars_of_notMem (hfixed tag htag)
  · exact (h.resolve_left hown) tag htag

end TagOrder

namespace Builder

variable {σ : Type}

/-- The snippet of a declaration that is documented, with the regions of its lines, and the dollar
signs that stand in its tags. -/
theorem buildText_begins (b : Builder σ) (f : Focus) (source : String) (j : Journal σ)
    {kind : DeclarationKind} (hkind : b.kindOf f = .ok kind) :
    ∃ draft text, (b.build f j).1 = .ok draft ∧ (b.buildText f source true j).1 = .ok text ∧
      draft.lines = dropOuterBlank (b.lines f kind j).1 ∧
      draft.tags = TagOrder.expected b.settings f kind ∧
      Begins 1 text.toList (draft.lines.flatMap TagLine.regions) (strayDollars draft.tags) := by
  have hbuild := b.build_eq_close f hkind j
  set draft := ({ kind, lines := (b.lines f kind j).1 } : Draft).close
  have hindent : ∀ c ∈ (indentationAt source f.insertionOffset).toList,
      Snippet.isReserved c = false := by
    intro c hc
    rcases mem_indentationAt hc with rfl | rfl <;> rfl
  refine ⟨draft, b.renderAt draft f source true, hbuild, ?_, rfl, ?_, ?_⟩
  · rw [buildText_apply, hbuild]
    rfl
  · exact (tagsOf_dropOuterBlank _).trans (b.lines_tags f kind j)
  · exact draft.render_begins (b.style (indentationAt source f.insertionOffset) true) hindent

/-- **What can act as syntax in a snippet.** For every declaration that is documented, and
whatever the settings and the source of descriptions say, a snippet is built. Each dollar sign in
it that no backslash escapes begins one of the numbered regions of its lines, in their order, just
when no tag has such a sign: neither the keyword of a clause nor a tag of the user that applies, in
a header that does not only point to another description. -/
theorem buildText_beginsEach_iff (b : Builder σ) (f : Focus) (source : String) (j : Journal σ)
    {kind : DeclarationKind} (hkind : b.kindOf f = .ok kind) :
    ∃ draft text, (b.build f j).1 = .ok draft ∧ (b.buildText f source true j).1 = .ok text ∧
      (Snippet.BeginsEach 1 (draft.lines.flatMap TagLine.regions) text.toList ↔
        PointsElsewhere f kind ∨
          ∀ tag ∈ TagOrder.heritage f kind ++ TagOrder.custom b.settings kind,
            Snippet.dollars tag.toList = []) := by
  obtain ⟨draft, text, hbuild, htext, -, htags, hbegins⟩ := b.buildText_begins f source j hkind
  refine ⟨draft, text, hbuild, htext, ?_⟩
  rw [hbegins.beginsEach_iff, strayDollars_eq_nil, htags, TagOrder.dollars_expected_iff]

/-- A builder with one tag of the user, whose placeholder is a price. -/
def pricing (tag : String) : Builder Unit where
  settings := { text := fun _ => "", customTags := [{ tag, placeholder := "$5" }] }
  source := .blank ""
  today := { year := 2024, month := 1, day := 1 }

/-- Dollar signs in a default value and in a placeholder are escaped, and so is the one of a tag
that has a backslash before it. -/
theorem buildText_beginsEach_of_price :
    (pricing "a\\$").kindOf (withParameter "$x") = .ok .method ∧
    ∃ draft text, ((pricing "a\\$").build (withParameter "$x") ⟨(), []⟩).1 = .ok draft ∧
      ((pricing "a\\$").buildText (withParameter "$x") "" true ⟨(), []⟩).1 = .ok text ∧
      Snippet.BeginsEach 1 (draft.lines.flatMap TagLine.regions) text.toList := by
  have hkind : (pricing "a\\$").kindOf (withParameter "$x") = .ok .method := by decide +kernel
  obtain ⟨draft, text, hbuild, htext, hiff⟩ :=
    (pricing "a\\$").buildText_beginsEach_iff (withParameter "$x") "" ⟨(), []⟩ hkind
  exact ⟨hkind, draft, text, hbuild, htext, hiff.mpr (.inr (by decide +kernel))⟩

/-- Settings with a variable as the name of a tag are accepted, and the snippet has it as a
variable: its dollar sign begins none of the regions. -/
theorem buildText_keeps_variable :
    ∃ s : Settings, Settings.ofFields [("customTags", .array [.object
        [("tag", .string "$\x7bTM_FILENAME\x7d"), ("placeholder", .string "x")]])] = .ok s ∧
      ∃ draft text,
        ({ undescribed with settings := s }.build (withParameter "1") ⟨(), []⟩).1 = .ok draft ∧
        ({ undescribed with settings := s }.buildText (withParameter "1") "" true ⟨(), []⟩).1 =
          .ok text ∧
        "@$\x7bTM_FILENAME\x7d".toList <:+: text.toList ∧
        ¬Snippet.BeginsEach 1 (draft.lines.flatMap TagLine.regions) text.toList := by
  refine ⟨_, rfl, _, _, rfl, rfl, ?_, ?_⟩
  · decide +kernel
  · decide +kernel

end Builder

end DocHeader

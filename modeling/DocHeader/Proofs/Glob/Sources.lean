import DocHeader.Glob.Spec
import DocHeader.Proofs.Disk.Parts
import DocHeader.Proofs.Glob.Matching
import DocHeader.Syntax.Language

/-!
# What the glob of source files selects

The glob has one line for each extension. A line matches a path at one of its components that
ends like the name of a source file, be it the file itself or a directory above it. All that
comes before that component has to be in one line of text, and a line feed at the very end of
the path is overlooked.

## Main definitions

* `Glob.ending` — how the names of the files with an extension end.
* `Glob.TakesAt` — a component of a path ends so.
-/

namespace DocHeader

namespace Glob

/-- How the names of the files with an extension end. -/
def ending (extension : String) : List Char := '.' :: extension.toList

/-- The tokens for a last segment that begins with a star. -/
def starred (e : List Char) : List Token := .many :: (e.map .char ++ [.segmentEnd])

/-- The line for an extension. -/
def lineFor (extension : String) : Line where
  wanted := true
  pattern := .sequence (.leadingDirectories :: starred (ending extension))

/-- A path has a component that ends with `e`. No line feed comes before the component, and one
at the end of the path is overlooked. -/
def TakesAt (e : List Char) (parts : List String) : Prop :=
  ∃ before name after, parts = before ++ name :: after ∧
    (∀ directory ∈ before, '\n' ∉ directory.toList) ∧
    (e <:+ name.toList ∨ after = [] ∧ e ++ ['\n'] <:+ name.toList)

variable {e name cs rest : List Char} {part : String} {parts : List String}

/-! ## One line -/

open Token in
theorem fits_starred : Fits (starred e) cs ↔ ∃ stem tail, cs = stem ++ e ++ tail ∧ '/' ∉ stem ∧
    (tail = [] ∨ tail = ['\n'] ∨ ∃ below, tail = '/' :: below) := by
  have hend (tail : List Char) : Fits [.segmentEnd] tail ↔
      tail = [] ∨ tail = ['\n'] ∨ ∃ below, tail = '/' :: below := by
    rw [← rests_segmentEnd_ne_nil_iff, Fits]
    simp only [Fits, and_true, ne_eq, List.eq_nil_iff_forall_not_mem, not_forall, not_not]
  rw [starred, Fits]
  simp only [mem_rests_many, fits_chars, hend]
  constructor
  · rintro ⟨_, ⟨stem, rfl, hstem⟩, tail, rfl, htail⟩
    exact ⟨stem, tail, by simp, hstem, htail⟩
  · rintro ⟨stem, tail, rfl, hstem, htail⟩
    exact ⟨_, ⟨stem, by simp, hstem⟩, tail, rfl, htail⟩

/-- A name fits when it ends so, or does but for a line feed. -/
theorem fits_starred_name (hname : '/' ∉ name) :
    Token.Fits (starred e) name ↔ e <:+ name ∨ e ++ ['\n'] <:+ name := by
  rw [fits_starred]
  constructor
  · rintro ⟨stem, tail, rfl, -, rfl | rfl | ⟨below, rfl⟩⟩
    · exact .inl ⟨stem, by simp⟩
    · exact .inr ⟨stem, by simp⟩
    · simp at hname
  · rintro (⟨stem, rfl⟩ | ⟨stem, rfl⟩)
    · exact ⟨stem, [], by simp, by simp_all, .inl rfl⟩
    · exact ⟨stem, ['\n'], by simp, by simp_all, .inr (.inl rfl)⟩

/-- A path fits when its first component ends so. -/
theorem fits_starred_cons (he : '/' ∉ e) (hname : '/' ∉ name) :
    Token.Fits (starred e) (name ++ '/' :: rest) ↔ e <:+ name := by
  rw [fits_starred]
  constructor
  · rintro ⟨stem, tail, hsplit, hstem, htail⟩
    have hfree : '/' ∉ stem ++ e := by simp [hstem, he]
    have hslash : '/' ∈ stem ++ e ++ tail := by simp [← hsplit]
    rcases htail with rfl | rfl | ⟨below, rfl⟩
    · simp [hfree] at hslash
    · simp [hstem, he] at hslash
    · obtain ⟨rfl, -⟩ := append_cons_inj hname hfree hsplit
      exact ⟨stem, rfl⟩
  · rintro ⟨stem, rfl⟩
    exact ⟨stem, '/' :: rest, by simp, by simp_all, .inr (.inr ⟨rest, rfl⟩)⟩

open Token in
/-- Below directories, a name fits just as it does by itself. -/
theorem fits_name (hname : '/' ∉ name) :
    Fits (.leadingDirectories :: starred e) name ↔ e <:+ name ∨ e ++ ['\n'] <:+ name := by
  rw [Fits]
  simp only [mem_rests_leadingDirectories]
  constructor
  · rintro ⟨_, rfl | ⟨directories, -, -, rfl⟩, hfits⟩
    · exact (fits_starred_name hname).mp hfits
    · simp at hname
  · exact fun h => ⟨name, .inl rfl, (fits_starred_name hname).mpr h⟩

open Token in
/-- A path fits at its first component, or else below it. -/
theorem fits_cons (he : '/' ∉ e) (hname : '/' ∉ name) (hsome : name ≠ [])
    (hrest : rest.head? ≠ some '/') :
    Fits (.leadingDirectories :: starred e) (name ++ '/' :: rest) ↔
      e <:+ name ∨ '\n' ∉ name ∧ Fits (.leadingDirectories :: starred e) rest := by
  simp only [Fits, mem_rests_leadingDirectories]
  constructor
  · rintro ⟨left, rfl | ⟨directories, hdirectories, hline, hsplit⟩, hfits⟩
    · exact .inl ((fits_starred_cons he hname).mp hfits)
    right
    -- The directories that are skipped are this one alone, or go on below it.
    by_cases hslash : '/' ∈ directories
    · obtain ⟨first, others, rfl, hfirst⟩ := List.eq_append_cons_of_mem hslash
      rw [List.append_assoc, List.cons_append] at hsplit
      obtain ⟨rfl, rfl⟩ := append_cons_inj hname hfirst hsplit
      have hothers : others ≠ [] := by
        rintro rfl
        exact hrest rfl
      exact ⟨by simp_all, left, .inr ⟨others, hothers, by simp_all, rfl⟩, hfits⟩
    · obtain ⟨rfl, rfl⟩ := append_cons_inj hname hslash hsplit
      exact ⟨hline, rest, .inl rfl, hfits⟩
  · rintro (hends | ⟨hline, left, rfl | ⟨directories, hdirectories, hline', rfl⟩, hfits⟩)
    · exact ⟨_, .inl rfl, (fits_starred_cons he hname).mpr hends⟩
    · exact ⟨left, .inr ⟨name, hsome, hline, rfl⟩, hfits⟩
    · exact ⟨left, .inr ⟨name ++ '/' :: directories, by simp, by simp [hline, hline'], by simp⟩,
        hfits⟩

/-! ## Paths -/

theorem takesAt_single : TakesAt e [part] ↔ e <:+ part.toList ∨ e ++ ['\n'] <:+ part.toList := by
  constructor
  · rintro ⟨before, name, after, hsplit, -, hends⟩
    obtain ⟨rfl, rfl, rfl⟩ : before = [] ∧ name = part ∧ after = [] := by
      cases before <;> simp_all
    simpa using hends
  · exact fun hends => ⟨[], part, [], rfl, by simp, by simpa using hends⟩

theorem takesAt_cons {next : String} {rest : List String} :
    TakesAt e (part :: next :: rest) ↔
      e <:+ part.toList ∨ '\n' ∉ part.toList ∧ TakesAt e (next :: rest) := by
  constructor
  · rintro ⟨before, name, after, hsplit, hlines, hends⟩
    cases before with
    | nil =>
      obtain ⟨rfl, rfl⟩ := List.cons.inj hsplit
      exact .inl (hends.resolve_right fun ⟨hnone, _⟩ => List.cons_ne_nil _ _ hnone)
    | cons directory before =>
      obtain ⟨rfl, hrest⟩ := List.cons.inj hsplit
      obtain ⟨hline, hlines⟩ := List.forall_mem_cons.mp hlines
      exact .inr ⟨hline, before, name, after, hrest, hlines, hends⟩
  · rintro (hends | ⟨hline, before, name, after, hrest, hlines, hends⟩)
    · exact ⟨[], part, next :: rest, rfl, by simp, .inl hends⟩
    · exact ⟨part :: before, name, after, by rw [hrest]; rfl,
        List.forall_mem_cons.mpr ⟨hline, hlines⟩, hends⟩

/-- The components of a path tell whether a line matches it. -/
theorem fits_joinWith (he : '/' ∉ e) (hsome : parts ≠ [])
    (hparts : ∀ part ∈ parts, Path.IsPart part) :
    Token.Fits (.leadingDirectories :: starred e) (joinWith "/" parts).toList ↔
      TakesAt e parts := by
  induction parts with
  | nil => exact absurd rfl hsome
  | cons part rest ih =>
    obtain ⟨hpart, hrest⟩ := List.forall_mem_cons.mp hparts
    cases rest with
    | nil => rw [takesAt_single, joinWith, fits_name hpart.whole]
    | cons next rest =>
      rw [takesAt_cons, toList_joinWith_cons Path.toList_slash,
        fits_cons he hpart.whole hpart.toList_ne_nil (Path.head?_joinWith hrest),
        ih (by simp) hrest]

end Glob

namespace GlobSpec

open Glob

variable {parts : List String}

/-- A path is selected when a line matches it, where no line excludes anything. -/
theorem selects_of_wanted {g : GlobSpec} (hwanted : ∀ line ∈ g.lines, line.wanted = true)
    (path : String) :
    g.selects path = true ↔
      ∃ line ∈ g.lines, line.pattern.matches (relative path.toList) = true := by
  rw [selects]
  cases hfound : g.lines.reverse.find? fun line => line.pattern.matches (relative path.toList) with
  | none =>
    rw [List.find?_eq_none] at hfound
    simpa using hfound
  | some line =>
    have hline : line ∈ g.lines := List.mem_reverse.mp (List.mem_of_find?_eq_some hfound)
    have hmatches := List.find?_some hfound
    simpa [hwanted line hline] using ⟨line, hline, hmatches⟩

/-- Nothing is cut off a path that begins with a component. -/
theorem relative_joinWith (hparts : ∀ part ∈ parts, Path.IsPart part) :
    relative (joinWith "/" parts).toList = (joinWith "/" parts).toList := by
  have hslash (path : List Char) : (joinWith "/" parts).toList ≠ '/' :: path := fun heq =>
    Path.head?_joinWith hparts (by rw [heq]; rfl)
  have hdot (path : List Char) : (joinWith "/" parts).toList ≠ '.' :: '/' :: path := by
    intro heq
    cases parts with
    | nil => simp [joinWith] at heq
    | cons part rest =>
      have hpart := hparts part List.mem_cons_self
      cases rest with
      | nil =>
        rw [joinWith] at heq
        exact hpart.whole (by simp [heq])
      | cons next rest =>
        rw [toList_joinWith_cons Path.toList_slash] at heq
        obtain ⟨honly, -⟩ := append_cons_inj (y := ['.']) hpart.whole (by decide) heq
        exact hpart.moves (String.toList_inj.mp honly)
  unfold relative
  split
  next path heq => exact absurd heq (hslash path)
  next path heq => exact absurd heq (hdot path)
  next => rfl

/-! ## The rules of ignore files -/

/-- The specifications of several texts that each have one. -/
theorem exists_linesOf {texts : List String}
    (h : ∀ text ∈ texts, ∃ line, Line.ofText text = .ok line) :
    ∃ lines, linesOf texts = .ok lines ∧
      ∀ l, l ∈ lines ↔ ∃ text ∈ texts, Line.ofText text = .ok (some l) := by
  induction texts with
  | nil => exact ⟨[], rfl, by simp⟩
  | cons text rest ih =>
    obtain ⟨⟨line, hline⟩, hrest⟩ := List.forall_mem_cons.mp h
    obtain ⟨lines, hlines, hmem⟩ := ih hrest
    refine ⟨line.toList ++ lines, by simp [linesOf, hline, hlines, Except.map], fun l => ?_⟩
    simp [hmem, hline]

/-- A line excludes nothing that does not begin with an exclamation mark. -/
theorem wanted_of_ofText {text : String} {l : Line} (h : Line.ofText text = .ok (some l))
    (hplain : text.toList.head? ≠ some '!') : l.wanted = true := by
  have hsegments {wanted : Bool} {segments : List (List Char)}
      (h : Line.ofSegments text wanted segments = .ok (some l)) : l.wanted = wanted := by
    rw [Line.ofSegments] at h
    split at h
    · cases h
    · split at h
      · cases h
      · cases h
      · split at h
        · cases h
        · cases h
          rfl
  rw [Line.ofText] at h
  split at h
  · cases h
  · cases h
  · cases h
  · rename_i cs hcs
    refine absurd ?_ hplain
    have hprefix : lineText text.toList <+: text.toList := by
      rw [lineText]
      split
      · exact List.prefix_rfl
      · simpa [Text.trimEnd] using
          List.reverse_prefix.mpr (List.dropWhile_suffix Text.isBlank (l := text.toList.reverse))
    obtain ⟨rest, hrest⟩ := hcs ▸ hprefix
    rw [← hrest]
    rfl
  · exact hsegments h

/-- A text by itself is compiled when it is read into a line, or says nothing. -/
theorem compile_single_eq_ok {text : String} {takes : String → Bool} :
    IgnoreRules.byPatterns.compile [text] = .ok takes ↔
      ∃ line, Line.ofText text = .ok line ∧ takes = selects ⟨line.toList⟩ := by
  cases hline : Line.ofText text with
  | error e => simp [IgnoreRules.compile, ofTexts, linesOf, hline, Except.map]
  | ok line => simp [IgnoreRules.compile, ofTexts, linesOf, hline, Except.map, eq_comm]

end GlobSpec

/-- The line for the files with an extension, wherever they are. -/
def Glob.textFor (extension : String) : String := "**/*." ++ extension

/-- The rules of ignore files, as far as the lines for source files go. Nothing is said of paths
with a line feed. -/
structure IgnoreRules.Lawful (rules : IgnoreRules) : Prop where
  /-- A line for the files with an extension takes a path when one of its components ends so, be it
  a file or a directory above it. Letters are taken as they are. -/
  ending : ∀ e ∈ SourceLanguage.extensions, ∃ takes, rules.compile [Glob.textFor e.1] = .ok takes ∧
    ∀ parts ≠ [], (∀ part ∈ parts, Path.IsPart part ∧ '\n' ∉ part.toList) →
      (takes (joinWith "/" parts) = true ↔ ∃ part ∈ parts, Glob.ending e.1 <:+ part.toList)
  /-- Lines none of which excludes anything take what one of them takes by itself. -/
  union : ∀ texts : List String,
    (∀ text ∈ texts, text.toList.head? ≠ some '!' ∧ ∃ takes, rules.compile [text] = .ok takes) →
    ∃ takes, rules.compile texts = .ok takes ∧ ∀ path, takes path = true ↔
      ∃ text ∈ texts, ∃ only, rules.compile [text] = .ok only ∧ only path = true

namespace Glob

open GlobSpec

variable {e : List Char} {parts : List String}

/-- Without line feeds, a component of a path is all that counts. -/
theorem takesAt_iff_of_plain (hplain : ∀ part ∈ parts, '\n' ∉ part.toList) :
    TakesAt e parts ↔ ∃ part ∈ parts, e <:+ part.toList := by
  constructor
  · rintro ⟨before, name, after, rfl, -, hends | ⟨-, hends⟩⟩
    · exact ⟨name, by simp, hends⟩
    · exact absurd (hends.subset (by simp)) (hplain name (by simp))
  · rintro ⟨part, hpart, hends⟩
    obtain ⟨before, after, rfl⟩ := List.append_of_mem hpart
    exact ⟨before, part, after, rfl, fun directory hdirectory => hplain directory (by simp_all),
      .inl hends⟩

/-- The paths that the line for an extension takes. -/
theorem selects_lineFor {extension : String} (hwhole : '/' ∉ ending extension) (hsome : parts ≠ [])
    (hparts : ∀ part ∈ parts, Path.IsPart part) :
    selects ⟨[lineFor extension]⟩ (joinWith "/" parts) = true ↔
      TakesAt (ending extension) parts := by
  rw [selects_of_wanted (by simp [lineFor]), relative_joinWith hparts,
    ← fits_joinWith hwhole hsome hparts]
  simp only [List.mem_singleton, exists_eq_left]
  exact Token.matchBeginning_iff _ _

theorem slash_notMem_ending : ∀ e ∈ SourceLanguage.extensions, '/' ∉ ending e.1 := by decide

/-- The text for an extension is read into the line for it. -/
theorem compile_textFor (e : String × SourceLanguage) (he : e ∈ SourceLanguage.extensions) :
    IgnoreRules.byPatterns.compile [textFor e.1] = .ok (selects ⟨[lineFor e.1]⟩) := by
  have hlines : ∀ e ∈ SourceLanguage.extensions,
      Line.ofText (textFor e.1) = .ok (some (lineFor e.1)) := by decide +kernel
  exact compile_single_eq_ok.mpr ⟨_, hlines e he, rfl⟩

/-- Lines that are read into patterns follow the rules. -/
theorem byPatterns_lawful : IgnoreRules.byPatterns.Lawful where
  ending e he := by
    refine ⟨_, compile_textFor e he, fun parts hsome hparts => ?_⟩
    rw [← takesAt_iff_of_plain fun part hpart => (hparts part hpart).2]
    exact selects_lineFor (slash_notMem_ending e he) hsome fun part hpart => (hparts part hpart).1
  union texts h := by
    have hread : ∀ text ∈ texts, ∃ line, Line.ofText text = .ok line := by
      intro text htext
      obtain ⟨-, takes, htakes⟩ := h text htext
      obtain ⟨line, hline, -⟩ := compile_single_eq_ok.mp htakes
      exact ⟨line, hline⟩
    obtain ⟨lines, hlines, hmem⟩ := exists_linesOf hread
    have hwanted : ∀ line ∈ lines, line.wanted = true := by
      intro line hline
      obtain ⟨text, htext, hof⟩ := (hmem line).mp hline
      exact wanted_of_ofText hof (h text htext).1
    refine ⟨selects ⟨lines⟩, by simp [IgnoreRules.compile, ofTexts, hlines, Except.map], ?_⟩
    intro path
    rw [selects_of_wanted hwanted]
    constructor
    · rintro ⟨line, hline, hmatches⟩
      obtain ⟨text, htext, hof⟩ := (hmem line).mp hline
      refine ⟨text, htext, _, compile_single_eq_ok.mpr ⟨_, hof, rfl⟩, ?_⟩
      exact (selects_of_wanted (by simpa using hwanted line hline) path).mpr
        ⟨line, by simp, hmatches⟩
    · rintro ⟨text, htext, only, honly, htakes⟩
      obtain ⟨line, hof, rfl⟩ := compile_single_eq_ok.mp honly
      have hin : ∀ l ∈ line.toList, l ∈ lines := by
        intro l hl
        exact (hmem l).mpr ⟨text, htext, by rw [hof, Option.mem_toList.mp hl]⟩
      obtain ⟨l, hl, hmatches⟩ :=
        (selects_of_wanted (fun l hl => hwanted l (hin l hl)) path).mp htakes
      exact ⟨l, hin l hl, hmatches⟩

/-! ## The glob of source files -/

theorem expandBraces_supportedGlob : (expandBraces supportedGlob).map anchored =
    SourceLanguage.extensions.map fun e => textFor e.1 := by decide +kernel

/-- What the glob of source files selects, among paths of which it is known what the line for each
extension takes. -/
theorem exists_selector {rules : IgnoreRules} (hrules : rules.Lawful) {P : List String → Prop}
    (hending : ∀ e ∈ SourceLanguage.extensions, ∃ takes,
      rules.compile [textFor e.1] = .ok takes ∧ ∀ parts, P parts →
        (takes (joinWith "/" parts) = true ↔ TakesAt (ending e.1) parts)) :
    ∃ selects, @selector rules supportedGlob = .ok selects ∧ ∀ parts, P parts →
      (selects (joinWith "/" parts) = true ↔
        ∃ e ∈ SourceLanguage.extensions, TakesAt (ending e.1) parts) := by
  have htexts : ∀ text ∈ SourceLanguage.extensions.map fun e => textFor e.1,
      text.toList.head? ≠ some '!' ∧ ∃ takes, rules.compile [text] = .ok takes := by
    intro text htext
    obtain ⟨e, he, rfl⟩ := List.mem_map.mp htext
    obtain ⟨takes, htakes, -⟩ := hending e he
    exact ⟨by simp [textFor], takes, htakes⟩
  obtain ⟨selects, hselects, hunion⟩ := hrules.union _ htexts
  refine ⟨selects, by rw [selector, expandBraces_supportedGlob, hselects], fun parts hparts => ?_⟩
  rw [hunion]
  simp only [List.mem_map, exists_exists_and_eq_and]
  refine exists_congr fun e => and_congr_right fun he => ?_
  obtain ⟨takes, htakes, hends⟩ := hending e he
  simp [htakes, hends parts hparts]

/-- What the glob selects where there are no line feeds, by rules that are followed. -/
theorem exists_selector_of_lawful {rules : IgnoreRules} (hrules : rules.Lawful) :
    ∃ selects, @selector rules supportedGlob = .ok selects ∧
      ∀ parts, parts ≠ [] ∧ (∀ part ∈ parts, Path.IsPart part ∧ '\n' ∉ part.toList) →
        (selects (joinWith "/" parts) = true ↔
          ∃ e ∈ SourceLanguage.extensions, TakesAt (ending e.1) parts) := by
  refine exists_selector hrules fun e he => ?_
  obtain ⟨takes, htakes, hends⟩ := hrules.ending e he
  refine ⟨takes, htakes, fun parts ⟨hsome, hparts⟩ => ?_⟩
  rw [hends parts hsome hparts, takesAt_iff_of_plain fun part hpart => (hparts part hpart).2]

/-- What it selects by lines that are read into patterns. -/
theorem exists_selector_byPatterns :
    ∃ selects, selector supportedGlob = .ok selects ∧
      ∀ parts, parts ≠ [] ∧ (∀ part ∈ parts, Path.IsPart part) →
        (selects (joinWith "/" parts) = true ↔
          ∃ e ∈ SourceLanguage.extensions, TakesAt (ending e.1) parts) := by
  refine exists_selector byPatterns_lawful fun e he => ?_
  exact ⟨_, compile_textFor e he, fun parts ⟨hsome, hparts⟩ =>
    selects_lineFor (slash_notMem_ending e he) hsome hparts⟩

end Glob

end DocHeader

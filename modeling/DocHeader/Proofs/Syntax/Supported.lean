import DocHeader.Proofs.Disk.Found
import DocHeader.Syntax.Language

/-!
# Which files are supported

A request for a directory takes the files that the glob of source files selects, and a request
for a file takes one that has a language. The two come to the same for most files only. The
glob looks at all components of a path, so that a directory named like a source file brings all
files below it, and it looks at letters as they are, while a language goes by the last suffix
in any case and needs a name before it.

## Main definitions

* `FileTree.FindsSources` — what is found below a directory, and how far it is supported.
-/

namespace DocHeader

open Glob

namespace SourceLanguage

theorem ofFile?_isSome_iff {file : String} : (ofFile? file).isSome = true ↔
    ∃ e ∈ extensions, lowered (Path.ofText file).suffix = "." ++ e.1 := by
  simp [ofFile?, ofSuffix?]

end SourceLanguage

namespace FileTree

variable {t : FileTree} {here : Place} {root file : String} {found : List String}
  {selects : String → Bool}

/-- What is found below a directory with the glob of source files. -/
structure FindsSources (t : FileTree) (here : Place) (root : String) (found : List String) :
    Prop where
  sorted : found.Pairwise (· ≤ ·)
  distinct : found.Nodup
  /-- A file is found when a component of its path ends like the name of a source file. -/
  found_iff : ∀ file, file ∈ found ↔ ∃ parts, t.Offers here dependencyDirectories root parts ∧
    (∃ e ∈ SourceLanguage.extensions, TakesAt (ending e.1) parts) ∧ file = Path.below root parts
  /-- A file with a language is found when its suffix is in lower case and no line feed is on
  the way to it. -/
  complete : ∀ directories name, t.Offers here dependencyDirectories root (directories ++ [name]) →
    (SourceLanguage.ofFile? (Path.below root (directories ++ [name]))).isSome = true →
    (∀ directory ∈ directories, '\n' ∉ directory.toList) →
    Text.lowerCase (Path.suffixOf name.toList) = Path.suffixOf name.toList →
    Path.below root (directories ++ [name]) ∈ found
  /-- A file that is found has a language when no directory on the way to it is named like a
  source file, and its own name has something before its ending and no line feed at the end. -/
  sound : ∀ directories name, t.Offers here dependencyDirectories root (directories ++ [name]) →
    Path.below root (directories ++ [name]) ∈ found →
    (∀ directory ∈ directories, ∀ e ∈ SourceLanguage.extensions,
      ¬ending e.1 <:+ directory.toList) →
    (∀ e ∈ SourceLanguage.extensions, name.toList ≠ ending e.1) →
    name.toList.getLast? ≠ some '\n' →
    (SourceLanguage.ofFile? (Path.below root (directories ++ [name]))).isSome = true

/-- Of the paths of files that may be found, those are selected that have a component which ends
like the name of a source file. -/
def SelectsSources (t : FileTree) (here : Place) (root : String) (selects : String → Bool) : Prop :=
  ∀ parts, t.Offers here dependencyDirectories root parts →
    (selects (joinWith "/" parts) = true ↔
      ∃ e ∈ SourceLanguage.extensions, TakesAt (ending e.1) parts)

theorem SelectsSources.mem_findFiles (hselects : t.SelectsSources here root selects)
    (h : t.IsProper) :
    file ∈ t.findFiles here dependencyDirectories selects root ↔
      ∃ parts, t.Offers here dependencyDirectories root parts ∧
        (∃ e ∈ SourceLanguage.extensions, TakesAt (ending e.1) parts) ∧
        file = Path.below root parts := by
  rw [FileTree.mem_findFiles h]
  exact exists_congr fun parts => and_congr_right fun hoffers =>
    and_congr_left' (hselects parts hoffers)

/-- A component that ends so is the last one when no directory does. -/
theorem takesAt_concat {e : List Char} {directories : List String} {name : String}
    (htakes : TakesAt e (directories ++ [name]))
    (hdirectories : ∀ directory ∈ directories, ¬e <:+ directory.toList) :
    e <:+ name.toList ∨ e ++ ['\n'] <:+ name.toList := by
  obtain ⟨before, part, after, hsplit, -, hends⟩ := htakes
  rcases List.eq_nil_or_concat after with rfl | ⟨inner, last, rfl⟩
  · obtain ⟨-, hlast⟩ := List.append_inj' hsplit rfl
    obtain rfl : name = part := by simpa using hlast
    simpa using hends
  · have hinner : part ∈ directories := by
      have hcut : directories ++ [name] = (before ++ part :: inner) ++ [last] := by
        simpa using hsplit
      rw [(List.append_inj' hcut rfl).1]
      simp
    exact absurd (hends.resolve_right (by simp)) (hdirectories part hinner)

theorem SelectsSources.findsSources (hselects : t.SelectsSources here root selects)
    (h : t.IsProper) :
    t.FindsSources here root (t.findFiles here dependencyDirectories selects root) := by
  have hlower : ∀ e ∈ SourceLanguage.extensions, lowered ("." ++ e.1) = "." ++ e.1 := by
    decide +kernel
  have hsuffix : ∀ e ∈ SourceLanguage.extensions, e.1.toList ≠ [] ∧ '.' ∉ e.1.toList := by decide
  refine ⟨findFiles_sorted _ _ _ _ _, findFiles_nodup h, fun file => hselects.mem_findFiles h, ?_,
    ?_⟩
  · intro directories name hoffers hlanguage hlines hcase
    obtain ⟨e, he, hends⟩ := SourceLanguage.ofFile?_isSome_iff.mp hlanguage
    rw [Path.suffix_ofText_below (hoffers.isPart h), lowered, String.toList_ofList, hcase] at hends
    have hending : Path.suffixOf name.toList = ending e.1 := by
      simpa [ending] using congrArg String.toList hends
    exact (hselects.mem_findFiles h).mpr ⟨_, hoffers, ⟨e, he, directories, name, [], rfl, hlines,
      .inl (hending ▸ Path.suffixOf_isSuffix _)⟩, rfl⟩
  · intro directories name hoffers hfound hdirectories hbare hline
    obtain ⟨parts, hparts, ⟨e, he, htakes⟩, hsame⟩ := (hselects.mem_findFiles h).mp hfound
    obtain rfl := Path.below_injective (hoffers.isPart h) (hparts.isPart h) hsame
    rw [SourceLanguage.ofFile?_isSome_iff, Path.suffix_ofText_below (hoffers.isPart h)]
    refine ⟨e, he, ?_⟩
    rcases takesAt_concat htakes fun directory hmem => hdirectories directory hmem e he with
      ⟨stem, hname⟩ | ⟨stem, hname⟩
    · have hstem : stem ≠ [] := by
        rintro rfl
        exact hbare e he hname.symm
      have hsuffixOf : String.ofList (Path.suffixOf name.toList) = "." ++ e.1 := by
        rw [← hname, ending, Path.suffixOf_append hstem (hsuffix e he).1 (hsuffix e he).2]
        simp
      rw [hsuffixOf, hlower e he]
    · exact absurd (by simp [← hname]) hline

/-- **The glob of source files selects most of the supported files.** So it does by any rules of
ignore files that are followed, where no name has a line feed, and by lines that are read into
patterns whatever the names are. -/
theorem findFiles_findsSources (h : t.IsProper) (here : Place) (root : String) :
    (∀ rules : IgnoreRules, rules.Lawful →
      (∀ entry ∈ t.entries, ∀ part ∈ entry.1, '\n' ∉ part.toList) →
      ∃ selects, @selector rules supportedGlob = .ok selects ∧
        t.FindsSources here root (t.findFiles here dependencyDirectories selects root)) ∧
    IgnoreRules.byPatterns.Lawful ∧
    ∃ selects, selector supportedGlob = .ok selects ∧
      t.FindsSources here root (t.findFiles here dependencyDirectories selects root) := by
  refine ⟨fun rules hrules hplain => ?_, byPatterns_lawful, ?_⟩
  · obtain ⟨selects, hglob, hselects⟩ := exists_selector_of_lawful hrules
    have hsources : t.SelectsSources here root selects := fun parts hoffers =>
      hselects parts ⟨hoffers.ne_nil, fun part hpart =>
        ⟨hoffers.isPart h part hpart, hoffers.forall_mem h hplain part hpart⟩⟩
    exact ⟨selects, hglob, hsources.findsSources h⟩
  · obtain ⟨selects, hglob, hselects⟩ := exists_selector_byPatterns
    have hsources : t.SelectsSources here root selects := fun parts hoffers =>
      hselects parts ⟨hoffers.ne_nil, hoffers.isPart h⟩
    exact ⟨selects, hglob, hsources.findsSources h⟩

/-- A directory named like a source file, and a directory of source files. -/
def chartTree : FileTree :=
  ⟨[(["chart.js"], .directory), (["chart.js", "README.md"], .file (.text "")),
    (["src"], .directory), (["src", "util.ts"], .file (.text ""))]⟩

/-- By rules that are followed, the files of both are found. -/
theorem findFiles_findsSources_chart : chartTree.IsProper ∧ IgnoreRules.byPatterns.Lawful ∧
    ∃ selects, selector supportedGlob = .ok selects ∧
      "src/util.ts" ∈ chartTree.findFiles [] dependencyDirectories selects "." ∧
      "chart.js/README.md" ∈ chartTree.findFiles [] dependencyDirectories selects "." := by
  have hproper : chartTree.IsProper := by decide
  obtain ⟨hall, hlawful, -⟩ := findFiles_findsSources hproper [] "."
  obtain ⟨selects, hglob, hfinds⟩ := hall IgnoreRules.byPatterns hlawful (by decide)
  have hoffers (parts : List String) (hfile : chartTree.find? parts = some (.file (.text "")))
      (hapart : liesIn dependencyDirectories parts = false) :
      chartTree.Offers [] dependencyDirectories "." parts :=
    ⟨⟨[], .text "", by decide +kernel, by decide, hfile⟩, hapart⟩
  refine ⟨hproper, hlawful, selects, hglob, ?_, ?_⟩
  · exact hfinds.complete ["src"] "util.ts" (hoffers _ (by decide) (by decide))
      (by decide +kernel) (by decide) (by decide +kernel)
  · exact (hfinds.found_iff _).mpr ⟨["chart.js", "README.md"],
      hoffers _ (by decide) (by decide),
      ⟨("js", .javascript), by decide, [], "chart.js", ["README.md"], rfl, by simp,
        .inl (by decide)⟩, by decide +kernel⟩

/-- The files found in a tree with the glob of source files. -/
def sourcesFound? (t : FileTree) : Option (List String) :=
  (selector supportedGlob).toOption.map fun selects =>
    t.findFiles [] dependencyDirectories selects "."

/-- The glob selects a text below a directory named like a source file, and a file whose name is
nothing but an ending. It misses a source file whose suffix is in upper case. -/
theorem findFiles_misses_and_adds :
    sourcesFound? ⟨[(["chart.js"], .directory), (["chart.js", "README.md"], .file (.text ""))]⟩ =
      some ["chart.js/README.md"] ∧ SourceLanguage.ofFile? "chart.js/README.md" = none ∧
    sourcesFound? ⟨[([".ts"], .file (.text ""))]⟩ = some [".ts"] ∧
      SourceLanguage.ofFile? ".ts" = none ∧
    sourcesFound? ⟨[(["A.TS"], .file (.text ""))]⟩ = some [] ∧
      SourceLanguage.ofFile? "A.TS" = some .typescript := by
  decide +kernel

end FileTree

end DocHeader

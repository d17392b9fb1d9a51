import DocHeader.Proofs.Generation.Position
import DocHeader.Proofs.Header.Above

/-!
# Headers at the top of a file

Where nothing classifies a position and only blanks come before it, the file itself gets a header.
It is built like any other: it ends with a line feed and the white space that the line of the
offset begins with. But it goes in at the very beginning of the text, in front of the white space
of the first line and not behind it. So that line has its white space twice. All other lines stay
as they were, below the lines of the comment.

## Main definitions

* `Focus.FallsBack` — a position that is documented by the file.
* `OnTop` — a text, a comment, and the text with the comment as a header at its top.
* `Generator.FallenBack` — the ends of a request for such a position.
-/

namespace DocHeader

/-! ## Positions -/

/-- The search for a declaration at a position of a text finds none, and only blanks come before
it. -/
structure Focus.FallsBack (tree : Focus) (text : String) (position : Int) : Prop where
  inside : Focus.Inside text position
  sought : tree.strandsAt position.toNat = false
  unclassified : tree.classifyAt? position.toNat = none
  blank : ∀ c ∈ text.toList.take position.toNat, Text.isBlank c = true

namespace Focus.FallsBack

variable {tree f : Focus} {text : String} {position : Int}

/-- The file documents the position, and nothing else does. -/
theorem isTarget_iff (h : tree.FallsBack text position) :
    tree.IsTarget text position f ↔ f = tree := by
  constructor
  · rintro ⟨-, hsome | ⟨-, rfl, -⟩⟩
    · rw [h.unclassified] at hsome
      cases hsome
    · rfl
  · rintro rfl
    exact ⟨h.inside, .inr ⟨h.unclassified, rfl, h.blank⟩⟩

theorem not_misplaced (h : tree.FallsBack text position) : ¬tree.Misplaced text position :=
  (h.isTarget_iff.mpr rfl).not_misplaced

end Focus.FallsBack

/-! ## Lines -/

/-- Some pieces with something put in front of the first one end with the pieces as they were just
when it is empty. -/
theorem suffix_append_modifyHead_iff {pieces : List (List Char)} (hne : pieces ≠ [])
    (before : List (List Char)) (x : List Char) :
    pieces <:+ before ++ pieces.modifyHead (x ++ ·) ↔ x = [] := by
  constructor
  · intro h
    have hle : pieces.length ≤ (pieces.modifyHead (x ++ ·)).length := by simp
    have hsame := (List.suffix_of_suffix_length_le h (List.suffix_append _ _) hle).eq_of_length
      (by simp)
    cases pieces with
    | nil => exact absurd rfl hne
    | cons first rest => simpa using (List.cons.inj hsame).1
  · rintro rfl
    have hpieces : pieces.modifyHead ([] ++ ·) = pieces := congrFun List.modifyHead_id pieces
    rw [hpieces]
    exact List.suffix_append before pieces

theorem toList_indentationAt_zero (text : String) :
    (indentationAt text 0).toList = Text.leadingIndent text.toList := by
  have hslice : Text.slice text.toList 0 0 = [] := Text.slice_of_le (n := 0) (Nat.zero_le _)
  simp [indentationAt, hslice]

theorem newline_notMem_leadingIndent (cs : List Char) : '\n' ∉ Text.leadingIndent cs := by
  intro hmem
  have hwhite := List.all_eq_true.mp List.all_takeWhile '\n' hmem
  simp at hwhite

/-- A text, a comment, and what the text is with the comment as a header at its top. -/
structure OnTop (text comment after : String) : Prop where
  /-- The lines of the comment come first, then those of the text, the first of them with its white
  space once more. -/
  lines : after.toList.splitOn '\n' = comment.toList.splitOn '\n' ++
    (text.toList.splitOn '\n').modifyHead (Text.leadingIndent text.toList ++ ·)
  /-- So they end with the lines of the text just when it does not begin with a space or a tab. -/
  kept_iff : text.toList.splitOn '\n' <:+ after.toList.splitOn '\n' ↔
    Text.leadingIndent text.toList = []

/-- A header that is put in at the beginning of a text. -/
theorem Heading.onTop {h : Heading} (hoffset : h.offset = 0) (text : String) :
    OnTop text h.comment (.ofList (insertAt text.toList h.offset.toNat (h.text text).toList)) := by
  have hinserted : insertAt text.toList h.offset.toNat (h.text text).toList =
      h.comment.toList ++ '\n' :: (Text.leadingIndent text.toList ++ text.toList) := by
    simp [insertAt, hoffset, Heading.text, toList_indentationAt_zero]
  have hlines : (insertAt text.toList h.offset.toNat (h.text text).toList).splitOn '\n' =
      h.comment.toList.splitOn '\n' ++
        (text.toList.splitOn '\n').modifyHead (Text.leadingIndent text.toList ++ ·) := by
    rw [hinserted, splitOn_append_cons, splitOn_append_left (newline_notMem_leadingIndent _)]
  constructor
  · rw [String.toList_ofList, hlines]
  · rw [String.toList_ofList, hlines]
    exact suffix_append_modifyHead_iff (List.splitOn_ne_nil _ _) _ _

namespace Generator

open Desk

variable {g : Generator} {file text : String} {position : Int} {sink : Sink} {d : Desk}
  {given : Option String} {tree : Focus}

/-! ## Requests -/

/-- How a request for a position that is documented by the file ends, whatever its sink. -/
inductive FallenBack (g : Generator) (file text : String) (sink : Sink) (given : Option String)
    (tree : Focus) (d : Desk) : Except GenerationFault GenerationResult × Desk → Prop where
  /-- No header is handed to the sink. -/
  | withheld {r : GenerationResult} {d' : Desk}
    (why : StoppedByRead g.surroundings d given ∨ tree.hasHeader = true ∨
      d.signalAfter g.surroundings (readingSteps given ++ [.parse, .build]) = true)
    (generated : r.generated = 0) (disk : d'.disk = d.disk) :
    FallenBack g file text sink given tree d (.ok r, d')
  /-- The header of the file is handed to the sink, for the top of the file. -/
  | handed {h : Heading} {log : List LogRecord} {d' : Desk}
    (header : g.builder.IsHeader text sink.snippets (tree, ⟨d.exchange, log⟩) h)
    (offset : h.offset = 0) (disk : d'.disk = d.disk) :
    FallenBack g file text sink given tree d
      (.ok (g.deliver file tree sink parsedResult (h.text text) d').1,
        (g.deliver file tree sink parsedResult (h.text text) d').2)

/-- A request for a position that is documented by the file hands its header to the sink, unless
there is one, or the request was stopped. -/
theorem atPosition_fallenBack (hlanguage : (SourceLanguage.ofFile? file).isSome = true)
    (htext : TextOf g.surroundings d file given text)
    (htree : (g.surroundings.helper d.parsed file text).parse file text = .ok tree)
    (hfalls : tree.FallsBack text position) (sink : Sink) :
    FallenBack g file text sink given tree d (g.atPosition file position sink given d) := by
  obtain ⟨n, hn, hnkind⟩ := HelperRun.parse_root htree
  have hroot : tree.kind = rootKind := by rw [hn]; exact hnkind
  have hplaced : tree.isUnplaced = false := by simp [Focus.isUnplaced, hroot, rootKind]
  rcases atPosition_of_text hlanguage htext position sink with
    ⟨hstopped, d', hrun, hfollows⟩ | ⟨hgoes, d₁, hreading, hrun⟩ <;> rw [hrun]
  · exact .withheld (.inl hstopped) rfl hfollows.disk
  have hsame {other : Focus}
      (h : (g.surroundings.helper d₁.parsed file text).parse file text = .ok other) :
      other = tree := by
    rw [hreading.keeps.parsed, htree] at h
    cases h
    rfl
  have hafter {steps : List Event} {d' : Desk} (h : d₁.Follows g.surroundings steps d') :
      d'.disk = d.disk := (hreading.follows.trans h).disk
  have hsigned := hreading.follows.signalAfter_eq [.parse, .build]
  have hpositions := g.atPositionOf_positions file text position sink d₁
  generalize g.atPositionOf file position sink text d₁ = o at hpositions
  obtain ⟨kind, hkind⟩ := g.builder.kindOf_of_supported
    ((hfalls.isTarget_iff.mpr rfl).supportedKind?_isSome hroot)
  cases hpositions with
  | outside hout => exact absurd hfalls.inside hout
  | unparsed _ hfailed _ =>
    rw [hreading.keeps.parsed, htree] at hfailed
    cases hfailed
  | stranded hparsed hstrands _ =>
    cases hsame hparsed
    rw [hfalls.sought] at hstrands
    cases hstrands
  | misplaced hparsed hmisplaced _ =>
    cases hsame hparsed
    exact absurd hmisplaced hfalls.not_misplaced
  | unbuilt hparsed hf hnone _ =>
    cases hsame hparsed
    cases hfalls.isTarget_iff.mp hf
    exact absurd (hnone.resolve_left fun hrefused => hrefused kind hkind)
      (Builder.not_stops_of_file hroot)
  | documented hparsed hf hheader hsteps =>
    cases hsame hparsed
    cases hfalls.isTarget_iff.mp hf
    exact .withheld (.inr (.inl hheader)) rfl (hafter hsteps)
  | dropped hparsed hf _ hset hsteps =>
    exact .withheld (.inr (.inr (hsigned ▸ hset))) rfl (hafter hsteps)
  | unplaced hparsed hf hplace _ =>
    cases hsame hparsed
    cases hfalls.isTarget_iff.mp hf
    rw [hplaced] at hplace
    cases hplace
  | @delivered _ _ header log d' hparsed hf _ _ hbuilt _ hsteps =>
    cases hsame hparsed
    cases hfalls.isTarget_iff.mp hf
    rw [hreading.keeps.exchange] at hbuilt
    replace hbuilt := hbuilt.built hplaced
    obtain ⟨h, hheader⟩ := g.builder.exists_isHeader text sink.snippets (tree, ⟨d.exchange, log⟩)
      hkind
    obtain rfl : h.text text = header := Except.ok.inj (hheader.built.symm.trans hbuilt)
    have hoffset : h.offset = 0 := by
      rw [hheader.offset]
      exact insertionOffset_of_unclassified hroot hf hfalls.unclassified
    exact .handed hheader hoffset (hafter hsteps)

/-- **A header at the top of a file.** Let a position be documented by the file itself, and its
header be written into the file. Either the header is withheld, and the disk is as it was. Or it is
built and inserted, and nothing else changes. Then the file holds the lines of the comment, and
below them the lines of the text in order, the first of them with its white space once more. So the
text after the insertion ends with the lines of the text as they were just when the text does not
begin with a space or a tab. -/
theorem atPosition_onTop_iff (g : Generator) (file path : String) (position : Int) (w : Writer)
    (hlanguage : (SourceLanguage.ofFile? file).isSome = true)
    (htext : TextOf g.surroundings d file given text)
    (hfile : d.disk.tree.readAt (w.placeOf path) = .ok text)
    (htree : (g.surroundings.helper d.parsed file text).parse file text = .ok tree)
    (hcalm : w.hazards.Undisturbed d.disk) (hfalls : tree.FallsBack text position) :
    (∃ r d', g.atPosition file position (.file w path) given d = (.ok r, d') ∧
      r.generated = 0 ∧ d'.disk = d.disk ∧
      (StoppedByRead g.surroundings d given ∨
        Withheld g.surroundings d w path text given tree)) ∨
    ∃ r d' comment log after,
      g.atPosition file position (.file w path) given d = (.ok r, d') ∧ r.generated = 1 ∧
      (∃ body, comment = "/**" ++ body ++ "*/") ∧
      (g.builder.buildText tree text false ⟨d.exchange, log⟩).1 =
        .ok (comment ++ "\n" ++ indentationAt text 0) ∧
      d'.disk.tree.find? (w.placeOf path) = some (.file (.text after)) ∧
      (∀ q, q ≠ w.placeOf path → d'.disk.tree.find? q = d.disk.tree.find? q) ∧
      OnTop text comment after := by
  have hends := atPosition_fallenBack hlanguage htext htree hfalls (.file w path)
  generalize g.atPosition file position (.file w path) given d = o at hends
  cases hends with
  | withheld why generated disk =>
    refine .inl ⟨_, _, rfl, generated, disk, ?_⟩
    rcases why with hstopped | hheader | hset
    · exact .inl hstopped
    · exact .inr (.documented hheader)
    · exact .inr (.signalled hset)
  | @handed h log d₁ header offset disk =>
    obtain ⟨r, d', rest, hdeliver, -, -, hhanded⟩ := g.deliver_file (d := d₁)
      (disk.symm ▸ hcalm) (disk.symm ▸ hfile) file tree (h.text text)
    rw [hdeliver]
    cases hhanded with
    | refused why generated _ hdisk =>
      refine .inl ⟨_, _, rfl, generated, hdisk.trans disk, .inr ?_⟩
      exact why.elim .astray .outside
    | taken _ generated _ spliced =>
      refine .inr ⟨r, d', h.comment, log, _, rfl, generated, header.comment, ?_, spliced.file, ?_,
        ?_⟩
      · refine header.built.trans ?_
        rw [Heading.text, offset]
      · intro q hq
        rw [spliced.framed q hq, disk]
      · rw [← header.offset]
        exact h.onTop offset text

/-- The syntax tree of a file without declarations. -/
def emptyTree (text : String) : Json :=
  .object [("kind", .string "SourceFile"), ("start", .ofInt 0), ("end", .ofInt text.length)]

/-- Headers without descriptions, for files without declarations. -/
def documentingNotes : Generator where
  surroundings := { helper := fun _ _ text => .finished (emptyTree text).compact "" 0 }
  builder := ⟨{}, .blank "", { year := 2024, month := 1, day := 1 }⟩
  writer := ⟨[], [], {}⟩

/-- A disk with one file that holds a text. -/
def noted (text : String) : Desk := { disk := { tree := ⟨[(["a.ts"], .file (.text text))]⟩ } }

/-- A request for a position of this file. -/
def documentNotes (text : String) (position : Int) :
    Except GenerationFault GenerationResult × Desk :=
  documentingNotes.atPosition "a.ts" position (.file ⟨[], [], {}⟩ "a.ts") none (noted text)

/-- The tree of a text that has a position without a declaration. -/
theorem exists_fallsBack {text : String} {position : Int} (hinside : Focus.Inside text position)
    (hblank : (text.toList.take position.toNat).all Text.isBlank = true)
    (hnone : ((documentingNotes.surroundings.helper [] "a.ts" text).parse "a.ts" text).toOption.any
      (fun tree => !tree.strandsAt position.toNat && (tree.classifyAt? position.toNat).isNone) =
        true) :
    ∃ tree, (documentingNotes.surroundings.helper [] "a.ts" text).parse "a.ts" text = .ok tree ∧
      tree.FallsBack text position := by
  cases htree : (documentingNotes.surroundings.helper [] "a.ts" text).parse "a.ts" text with
  | error e =>
    rw [htree] at hnone
    cases hnone
  | ok tree =>
    rw [htree] at hnone
    obtain ⟨hsought, hnone⟩ := (Bool.and_eq_true _ _).mp hnone
    exact ⟨tree, rfl, hinside, by simpa using hsought, Option.isNone_iff_eq_none.mp hnone,
      List.all_eq_true.mp hblank⟩

/-- A note below an empty line stays as it was. -/
theorem atPosition_onTop_of_empty_line :
    ∃ tree r d' after,
      (documentingNotes.surroundings.helper [] "a.ts" "\n\t// Note.").parse "a.ts" "\n\t// Note." =
        .ok tree ∧
      tree.FallsBack "\n\t// Note." 1 ∧ documentNotes "\n\t// Note." 1 = (.ok r, d') ∧
      r.generated = 1 ∧ d'.disk.tree.find? ["a.ts"] = some (.file (.text after)) ∧
      "\n\t// Note.".toList.splitOn '\n' <:+ after.toList.splitOn '\n' := by
  obtain ⟨tree, htree, hfalls⟩ := @exists_fallsBack "\n\t// Note." 1 ⟨by decide, by decide⟩
    (by decide) (by decide +kernel)
  have hgenerated : (documentNotes "\n\t// Note." 1).1.toOption.map (·.generated) = some 1 := by
    decide +kernel
  rcases documentingNotes.atPosition_onTop_iff "a.ts" "a.ts" 1 ⟨[], [], {}⟩
      (d := noted "\n\t// Note.") (by decide) (.inr ⟨rfl, by decide⟩) (by decide) htree
      (.of_clean (FileTree.clean_of_names (by decide))) hfalls with
    ⟨r, d', hrun, hnone, -⟩ | ⟨r, d', comment, log, after, hrun, hone, -, -, hfound, -, htop⟩
  · rw [documentNotes, hrun] at hgenerated
    have hone : r.generated = 1 := Option.some.inj hgenerated
    omega
  · exact ⟨tree, r, d', after, htree, hfalls, hrun, hone, hfound, htop.kept_iff.mpr (by decide)⟩

/-- A note behind a tab gets another tab. -/
theorem atPosition_onTop_indents_twice :
    (∃ tree, (documentingNotes.surroundings.helper [] "a.ts" "\t// Note.").parse "a.ts"
        "\t// Note." = .ok tree ∧ tree.FallsBack "\t// Note." 1) ∧
    (documentNotes "\t// Note." 1).1.toOption.map (·.generated) = some 1 ∧
    (documentNotes "\t// Note." 1).2.disk.tree.find? ["a.ts"] =
      some (.file (.text "/**\n\t * @file\n\t */\n\t\t// Note.")) ∧
    ¬("\t// Note.".toList.splitOn '\n' <:+
      "/**\n\t * @file\n\t */\n\t\t// Note.".toList.splitOn '\n') := by
  refine ⟨?_, by decide +kernel, by decide +kernel, by decide +kernel⟩
  exact exists_fallsBack ⟨by decide, by decide⟩ (by decide) (by decide +kernel)

end Generator

end DocHeader

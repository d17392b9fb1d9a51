import DocHeader.Proofs.Header.Lines

/-!
# Where the comment of a header ends

A plain header is a comment, and what stands in it is written as it is. The comment ends
where it should just when no text in it holds the mark that ends a comment; a text that
does turns the rest of the header into program text.

## Main definitions

* `EndsComment` — a text with a mark that ends a comment.
* `afterComment?` — what follows the first such mark.
-/

namespace DocHeader

/-- A text holds a mark that ends a comment. -/
def EndsComment (cs : List Char) : Prop := ['*', '/'] <:+: cs

instance (cs : List Char) : Decidable (EndsComment cs) :=
  inferInstanceAs (Decidable (['*', '/'] <:+: cs))

/-- What follows the first mark that ends a comment. -/
def afterComment? : List Char → Option (List Char)
  | '*' :: '/' :: rest => some rest
  | _ :: rest => afterComment? rest
  | [] => none

variable {x y : List Char} {texts : List String}

/-! ## Marks in parts of a text -/

theorem not_endsComment_of_notMem (h : '/' ∉ x) : ¬EndsComment x :=
  fun hends => h (hends.subset (by decide))

/-- A mark does not reach over a border that no star stands before, or no slash behind. -/
theorem endsComment_append (h : x.getLast? ≠ some '*' ∨ y.head? ≠ some '/') :
    EndsComment (x ++ y) ↔ EndsComment x ∨ EndsComment y := by
  unfold EndsComment
  constructor
  · intro hends
    rcases List.infix_append_iff.mp hends with hx | hy | ⟨a, b, hab, hx, hy⟩
    · exact .inl hx
    · exact .inr hy
    · match a, b with
      | [], b =>
        obtain rfl : ['*', '/'] = b := hab
        exact .inr hy.isInfix
      | a, [] =>
        obtain rfl : ['*', '/'] = a := by simpa using hab
        exact .inl hx.isInfix
      | [c], [c'] =>
        obtain ⟨rfl, rfl⟩ : '*' = c ∧ '/' = c' := by simpa using hab
        obtain ⟨before, rfl⟩ := hx
        obtain ⟨after, rfl⟩ := hy
        simp at h
      | [_], _ :: _ :: _ | _ :: _ :: _, _ :: _ => simp at hab
  · rintro (hx | hy)
    · exact hx.trans (List.prefix_append x y).isInfix
    · exact hy.trans (List.suffix_append x y).isInfix

theorem endsComment_cons {c : Char} (hc : c ≠ '*') :
    EndsComment (c :: x) ↔ EndsComment x := by
  have hborder := endsComment_append (x := [c]) (y := x) (.inl (by simpa using hc))
  have hsingle : ¬EndsComment [c] := by
    intro hends
    simpa using hends.length_le
  simpa [hsingle] using hborder

/-- No mark reaches from one piece into the next when no piece begins with a slash. -/
theorem endsComment_flatten {pieces : List (List Char)}
    (hpieces : ∀ piece ∈ pieces, piece.head? ≠ some '/') :
    EndsComment pieces.flatten ↔ ∃ piece ∈ pieces, EndsComment piece := by
  induction pieces with
  | nil => decide
  | cons piece rest ih =>
    have hrest : ∀ piece ∈ rest, piece.head? ≠ some '/' :=
      fun piece hpiece => hpieces piece (List.mem_cons_of_mem _ hpiece)
    have hborder : rest.flatten.head? ≠ some '/' := by
      rw [List.head?_flatten]
      intro hhead
      obtain ⟨piece, hpiece, hfirst⟩ := List.exists_of_findSome?_eq_some hhead
      exact hrest piece hpiece hfirst
    rw [List.flatten_cons, endsComment_append (.inr hborder), ih hrest]
    simp

/-! ## What a line shows -/

theorem LaidOut.head?_ne (h : LaidOut texts x) : x.head? ≠ some '/' := by
  cases h <;> simp

/-- A row of texts holds a mark just when one of them does. -/
theorem LaidOut.endsComment_iff (h : LaidOut texts x) :
    EndsComment x ↔ ∃ text ∈ texts, EndsComment text.toList := by
  induction h with
  | nil => decide
  | @cons text texts cs blanks opening closing hopening hclosing hrest ih =>
    have hblanks (y : List Char) :
        EndsComment (List.replicate blanks ' ' ++ y) ↔ EndsComment y := by
      induction blanks with
      | zero => rfl
      | succ blanks ih =>
        rw [List.replicate_succ, List.cons_append, endsComment_cons (by decide), ih]
    have hopen (y : List Char) : EndsComment (opening.toList ++ y) ↔ EndsComment y := by
      simp only [openings, List.mem_cons, List.not_mem_nil, or_false] at hopening
      rcases hopening with rfl | rfl | rfl
      · rfl
      · exact endsComment_cons (by decide)
      · exact endsComment_cons (by decide)
    have hclose : EndsComment (text.toList ++ closing.toList) ↔ EndsComment text.toList := by
      have hnone : ¬EndsComment closing.toList ∧ closing.toList.head? ≠ some '/' := by
        simp only [closings, List.mem_cons, List.not_mem_nil, or_false] at hclosing
        rcases hclosing with rfl | rfl <;> decide
      rw [endsComment_append (.inr hnone.2), or_iff_left hnone.1]
    rw [endsComment_append (.inr hrest.head?_ne), endsComment_cons (by decide), hblanks, hopen,
      hclose, ih]
    simp

theorem Written.endsComment_iff {lines : List TagLine} {bodies : List (List Char)}
    (h : Written lines bodies) : (∃ body ∈ bodies, EndsComment body) ↔
      ∃ line ∈ lines, ∃ text ∈ line.texts, EndsComment text.toList := by
  induction h with
  | nil => simp
  | cons hlaid _ ih => simp [hlaid.endsComment_iff, ih]

theorem Written.head?_ne {lines : List TagLine} {bodies : List (List Char)}
    (h : Written lines bodies) : ∀ body ∈ bodies, body.head? ≠ some '/' := by
  induction h with
  | nil => simp
  | cons hlaid _ ih => simpa [hlaid.head?_ne] using ih

/-- Between its ends a header holds a mark just when a text that it shows does. -/
theorem Written.endsComment_inside {lines : List TagLine} {bodies : List (List Char)}
    {indent : List Char} (h : Written lines bodies) (hindent : '/' ∉ indent) (single : Bool) :
    EndsComment (inside indent single bodies) ↔
      ∃ line ∈ lines, ∃ text ∈ line.texts, EndsComment text.toList := by
  rw [← h.endsComment_iff]
  cases single with
  | true => exact endsComment_flatten h.head?_ne
  | false =>
    have hline : ∀ body ∈ bodies, EndsComment ('\n' :: (indent ++ ' ' :: '*' :: body)) ↔
        EndsComment body := by
      intro body hbody
      have hstar : EndsComment (['*'] ++ body) ↔ EndsComment ['*'] ∨ EndsComment body :=
        endsComment_append (.inr (h.head?_ne body hbody))
      rw [endsComment_cons (by decide), endsComment_append (.inr (by simp)),
        or_iff_right (not_endsComment_of_notMem hindent), endsComment_cons (by decide)]
      exact hstar.trans (or_iff_right (by decide))
    have hend : ¬EndsComment ('\n' :: indent) :=
      not_endsComment_of_notMem (by simpa using hindent)
    rw [inside, if_neg (by decide), endsComment_append (.inr (by simp)), or_iff_left hend,
      List.flatMap_def, endsComment_flatten (by simp)]
    constructor
    · rintro ⟨piece, hpiece, hends⟩
      obtain ⟨body, hbody, rfl⟩ := List.mem_map.mp hpiece
      exact ⟨body, hbody, (hline body hbody).mp hends⟩
    · rintro ⟨body, hbody, hends⟩
      exact ⟨_, List.mem_map_of_mem hbody, (hline body hbody).mpr hends⟩

/-! ## The first mark -/

theorem afterComment?_cons {c : Char} (h : ¬(c = '*' ∧ x.head? = some '/')) :
    afterComment? (c :: x) = afterComment? x := by
  rw [afterComment?.eq_def]
  split
  next rest heq =>
    obtain ⟨rfl, rfl⟩ := List.cons.inj heq
    exact absurd ⟨rfl, rfl⟩ h
  next heq =>
    obtain ⟨rfl, rfl⟩ := List.cons.inj heq
    rfl
  next heq => cases heq

/-- A mark in the beginning of a text is found there. -/
theorem afterComment?_of_endsComment (h : EndsComment x) (y : List Char) :
    ∃ rest, afterComment? (x ++ y) = some (rest ++ y) := by
  induction x with
  | nil => exact absurd h (by decide)
  | cons c x ih =>
    rcases List.infix_cons_iff.mp h with ⟨rest, hrest⟩ | hx
    · rw [← hrest]
      exact ⟨rest, rfl⟩
    · by_cases hmark : c = '*' ∧ (x ++ y).head? = some '/'
      · obtain ⟨rfl, hslash⟩ := hmark
        match x with
        | [] => exact absurd hx (by decide)
        | c' :: rest =>
          obtain rfl : c' = '/' := by simpa using hslash
          exact ⟨rest, rfl⟩
      · rw [List.cons_append, afterComment?_cons hmark]
        exact ih hx

/-- The first mark is the one at the end just when none comes before. -/
theorem afterComment?_eq_some_iff (x rest : List Char) :
    afterComment? (x ++ ' ' :: '*' :: '/' :: rest) = some rest ↔ ¬EndsComment x := by
  constructor
  · intro hfirst hends
    obtain ⟨more, hmore⟩ := afterComment?_of_endsComment hends (' ' :: '*' :: '/' :: rest)
    rw [hmore, Option.some.injEq] at hfirst
    have hlength := congrArg List.length hfirst
    simp only [List.length_append, List.length_cons] at hlength
    omega
  · intro hnone
    induction x with
    | nil => simp [afterComment?]
    | cons c x ih =>
      rw [List.cons_append, afterComment?_cons, ih]
      · exact fun hx => hnone (List.infix_cons_iff.mpr (.inr hx))
      · rintro ⟨rfl, hslash⟩
        match x with
        | [] => simp at hslash
        | c' :: rest =>
          obtain rfl : c' = '/' := by simpa using hslash
          exact hnone (List.infix_cons_iff.mpr (.inl ⟨rest, rfl⟩))

/-! ## Headers -/

namespace Builder

variable {σ : Type}

/-- **A header is one comment just when no text in it ends a comment.** For every
declaration that is documented, and whatever the settings and the source of descriptions
say, a header is built. It begins as a comment and ends as one, with a line break and the
indentation after it. The mark at its end is the first one just when no text that its lines
show holds such a mark. -/
theorem buildText_closes_iff (b : Builder σ) (f : Focus) (source : String) (j : Journal σ)
    {kind : DeclarationKind} (hkind : b.kindOf f = .ok kind) :
    ∃ draft text body, (b.build f j).1 = .ok draft ∧
      (b.buildText f source false j).1 = .ok text ∧
      text.toList = "/**".toList ++ (body ++ " */\n".toList ++
        (indentationAt source f.insertionOffset).toList) ∧
      (afterComment? (body ++ " */\n".toList ++ (indentationAt source f.insertionOffset).toList) =
          some ('\n' :: (indentationAt source f.insertionOffset).toList) ↔
        ∀ line ∈ draft.lines, ∀ s ∈ line.texts, ¬EndsComment s.toList) := by
  obtain ⟨draft, text, bodies, hbuild, htext, -, hwritten, hchars⟩ :=
    b.buildText_of_kind f hkind source j
  have hindent : '/' ∉ (indentationAt source f.insertionOffset).toList := by
    intro hmem
    rcases mem_indentationAt hmem with h | h <;> cases h
  refine ⟨draft, text, inside (indentationAt source f.insertionOffset).toList
    (b.settings.flag .singleLineComments && bodies.length ≤ 1) bodies, hbuild, htext,
    by simpa using hchars, ?_⟩
  have hfirst := afterComment?_eq_some_iff
    (inside (indentationAt source f.insertionOffset).toList
      (b.settings.flag .singleLineComments && bodies.length ≤ 1) bodies)
    ('\n' :: (indentationAt source f.insertionOffset).toList)
  rw [hwritten.endsComment_inside hindent] at hfirst
  simpa using hfirst

/-- A default value may hold the mark that begins a comment. -/
theorem buildText_closes_after_slash :
    undescribed.kindOf (withParameter "'src/*.ts'") = .ok .method ∧
    ∃ text body, (undescribed.buildText (withParameter "'src/*.ts'") "" false ⟨(), []⟩).1 =
        .ok text ∧
      text.toList = "/**".toList ++ (body ++ " */\n".toList) ∧
      afterComment? (body ++ " */\n".toList) = some ['\n'] := by
  have hkind : undescribed.kindOf (withParameter "'src/*.ts'") = .ok .method := by
    decide +kernel
  obtain ⟨draft, text, body, hbuild, htext, hchars, hiff⟩ :=
    buildText_closes_iff undescribed (withParameter "'src/*.ts'") "" ⟨(), []⟩ hkind
  have hfree : (undescribed.build (withParameter "'src/*.ts'") ⟨(), []⟩).1.toOption.map
      (fun draft => decide (∀ line ∈ draft.lines, ∀ s ∈ line.texts, ¬EndsComment s.toList)) =
        some true := by decide +kernel
  rw [hbuild] at hfree
  have hindent : (indentationAt "" (withParameter "'src/*.ts'").insertionOffset).toList = [] := by
    decide +kernel
  rw [hindent] at hchars hiff
  simp only [List.append_nil] at hchars hiff
  exact ⟨hkind, text, body, htext, hchars, hiff.mpr (by simpa [Except.toOption] using hfree)⟩

/-- A pattern for files as a default value ends the comment, and what follows is program
text. -/
theorem buildText_ends_early :
    undescribed.kindOf (withParameter "'src/**/*.ts'") = .ok .method ∧
    (undescribed.buildText (withParameter "'src/**/*.ts'") "" false ⟨(), []⟩).1.toOption =
      some "/**\n * @param \x7b*\x7d [files='src/**/*.ts']\n * @returns \x7b*\x7d\n */\n" ∧
    afterComment?
        "\n * @param \x7b*\x7d [files='src/**/*.ts']\n * @returns \x7b*\x7d\n */\n".toList =
      some "*.ts']\n * @returns \x7b*\x7d\n */\n".toList := by
  decide +kernel

end Builder

end DocHeader

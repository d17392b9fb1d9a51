import DocHeader.Proofs.Header.Written
import DocHeader.Proofs.Text.Ends

/-!
# The life of a draft

A draft takes lines until it is closed or rendered for the first time. From then on its lines
are settled: they are those it has taken, without the ones at both ends that show nothing. More
lines are refused, and the draft can be rendered over and over again.

## Main definitions

* `DraftCall`, `Draft.answer` — what is done with a draft, and what it answers.
* `Draft.drafted` — a new draft after calls.
* `Draft.Lifecycle` — how a draft stands after calls.
-/

namespace DocHeader

/-- A line is blank when it has no text: no tag, no value, no name and no description. -/
theorem TagLine.isBlank_iff {line : TagLine} : line.isBlank = true ↔ line.texts = [] := by
  simp [isBlank, texts, List.filter_eq_nil_iff, and_assoc]

theorem dropOuterBlank_eq (lines : List TagLine) :
    dropOuterBlank lines = dropEnds TagLine.isBlank lines := rfl

/-- What is done with a draft. -/
inductive DraftCall where
  | append (line : TagLine)
  | extend (lines : List TagLine)
  | close
  | render (style : Style)
  deriving DecidableEq, Repr

namespace DraftCall

/-- The lines that a call brings. -/
def lines : DraftCall → List TagLine
  | append line => [line]
  | extend lines => lines
  | close | render _ => []

/-- Whether the lines of a draft are settled by a call. -/
def settles : DraftCall → Bool
  | append _ | extend _ => false
  | close | render _ => true

end DraftCall

namespace Draft

/-- A draft with the lines that it takes one after the other; those before a refusal stay. -/
def takeEach (d : Draft) : List TagLine → Draft
  | [] => d
  | line :: rest =>
    match d.append line with
    | .ok d => d.takeEach rest
    | .error _ => d

/-- What a call leaves of a draft, and the answer to it: a text, when the draft is rendered. -/
def answer (d : Draft) : DraftCall → Draft × Except DraftError (Option String)
  | .append line =>
    match d.append line with
    | .ok d => (d, .ok none)
    | .error e => (d, .error e)
  | .extend lines =>
    match d.extend lines with
    | .ok d => (d, .ok none)
    | .error e => (d.takeEach lines, .error e)
  | .close => (d.close, .ok none)
  | .render style => (d.finish, .ok (some (d.render style)))

/-- A draft after calls. -/
def after (d : Draft) (calls : List DraftCall) : Draft :=
  calls.foldl (fun d call => (d.answer call).1) d

/-- A new draft after calls. -/
def drafted (kind : DeclarationKind) (calls : List DraftCall) : Draft :=
  ({ kind } : Draft).after calls

/-- The lines that calls bring before the first one that settles the lines of a draft. -/
def linesBefore (calls : List DraftCall) : List TagLine :=
  (calls.takeWhile fun call => !call.settles).flatMap DraftCall.lines

/-- How a new draft stands after calls. -/
structure Lifecycle (kind : DeclarationKind) (calls : List DraftCall) : Prop where
  /-- Before the first close or rendering it has all lines in order, and takes more. -/
  taking : (∀ call ∈ calls, call.settles = false) →
    drafted kind calls = { kind, lines := calls.flatMap DraftCall.lines } ∧
      ∀ call, call.settles = false → (drafted kind calls).answer call =
        ({ kind, lines := (calls ++ [call]).flatMap DraftCall.lines }, .ok none)
  /-- Then the lines are those brought before, without the ones at both ends that have no
  text. -/
  settled : (∃ call ∈ calls, call.settles = true) →
    (drafted kind calls).closed = true ∧
      IsCore (fun line => line.texts = []) (linesBefore calls) (drafted kind calls).lines
  /-- More lines are refused then. -/
  refusing : (∃ call ∈ calls, call.settles = true) → ∀ call, call.lines ≠ [] →
    (drafted kind calls).answer call = (drafted kind calls, .error .closed)
  /-- And no call changes anything, nor do any more calls. -/
  unchanged : (∃ call ∈ calls, call.settles = true) → ∀ more,
    drafted kind (calls ++ more) = drafted kind calls
  /-- A draft is rendered to one text in one style, before and after it is closed. -/
  rendered : ∀ style more,
    ((drafted kind (calls ++ .render style :: more)).answer (.render style)).2 =
      ((drafted kind calls).answer (.render style)).2

/-! ## Open drafts -/

section Open

variable {d : Draft} (hopen : d.closed = false)

include hopen

theorem append_of_open (line : TagLine) :
    d.append line = .ok { d with lines := d.lines ++ [line] } := by
  simp [append, hopen]

theorem extend_of_open (lines : List TagLine) :
    d.extend lines = .ok { d with lines := d.lines ++ lines } := by
  induction lines generalizing d with
  | nil => simp [extend]
  | cons line rest ih =>
    rw [extend, append_of_open hopen]
    simpa using ih (d := { d with lines := d.lines ++ [line] }) hopen

/-- An open draft takes the lines of a call. -/
theorem answer_of_open {call : DraftCall} (hcall : call.settles = false) :
    d.answer call = ({ d with lines := d.lines ++ call.lines }, .ok none) := by
  match call with
  | .append line => simp only [answer, append_of_open hopen, DraftCall.lines]
  | .extend lines => simp only [answer, extend_of_open hopen, DraftCall.lines]

/-- An open draft is closed by the first call that settles its lines. -/
theorem answer_fst_of_settles {call : DraftCall} (hcall : call.settles = true) :
    (d.answer call).1 = d.close := by
  match call with
  | .close => rfl
  | .render style => simp [answer, finish, hopen]

theorem after_of_open {calls : List DraftCall} (hcalls : ∀ call ∈ calls, call.settles = false) :
    d.after calls = { d with lines := d.lines ++ calls.flatMap DraftCall.lines } := by
  induction calls generalizing d with
  | nil => simp [after]
  | cons call rest ih =>
    obtain ⟨hcall, hrest⟩ := List.forall_mem_cons.mp hcalls
    have hnext := ih (d := { d with lines := d.lines ++ call.lines }) hopen hrest
    rw [after] at hnext ⊢
    rw [List.foldl_cons, answer_of_open hopen hcall, hnext]
    simp

end Open

/-! ## Settled drafts -/

/-- A draft is closed, and no line at either end is blank. -/
structure IsSettled (d : Draft) : Prop where
  closed : d.closed = true
  core : IsCore (fun line => line.isBlank = true) d.lines d.lines

theorem isSettled_close (d : Draft) : d.close.IsSettled :=
  ⟨rfl, (isCore_dropEnds TagLine.isBlank d.lines).self⟩

namespace IsSettled

variable {d : Draft} (hd : d.IsSettled)

include hd

theorem close_eq : d.close = d := by
  have hlines : dropOuterBlank d.lines = d.lines := dropEnds_of_isCore hd.core
  rw [close, hlines, ← hd.closed]

theorem finish_eq : d.finish = d := if_pos hd.closed

theorem append_eq (line : TagLine) : d.append line = .error .closed := by
  simp [append, hd.closed]

theorem takeEach_eq (lines : List TagLine) : d.takeEach lines = d := by
  cases lines with
  | nil => rfl
  | cons line rest => rw [takeEach, hd.append_eq]

/-- A settled draft refuses the lines of a call. -/
theorem answer_eq {call : DraftCall} (hlines : call.lines ≠ []) :
    d.answer call = (d, .error .closed) := by
  match call, hlines with
  | .append line, _ => simp only [answer, hd.append_eq]
  | .extend (line :: rest), _ => simp only [answer, extend, hd.append_eq, hd.takeEach_eq]

/-- No call changes a settled draft. -/
theorem answer_fst (call : DraftCall) : (d.answer call).1 = d := by
  by_cases hlines : call.lines = []
  · match call, hlines with
    | .extend [], _ => rfl
    | .close, _ => exact hd.close_eq
    | .render style, _ => simp [answer, finish, hd.closed]
  · rw [hd.answer_eq hlines]

theorem after_eq (calls : List DraftCall) : d.after calls = d := by
  induction calls with
  | nil => rfl
  | cons call rest ih =>
    rw [after, List.foldl_cons, hd.answer_fst]
    exact ih

end IsSettled

/-! ## All calls -/

theorem after_append (d : Draft) (calls more : List DraftCall) :
    d.after (calls ++ more) = (d.after calls).after more := by
  simp [after]

/-- The first call that settles the lines closes the draft with those it has then. -/
theorem drafted_of_settles (kind : DeclarationKind) {calls : List DraftCall}
    (h : ∃ call ∈ calls, call.settles = true) :
    drafted kind calls = ({ kind, lines := linesBefore calls } : Draft).close := by
  have hsplit := List.takeWhile_append_dropWhile (p := fun call => !call.settles) (l := calls)
  have hbefore : ∀ call ∈ calls.takeWhile fun call => !call.settles, call.settles = false :=
    fun call hcall => by simpa using List.mem_takeWhile_imp hcall
  have hopen : ({ kind, lines := linesBefore calls } : Draft).closed = false := rfl
  cases hrest : calls.dropWhile fun call => !call.settles with
  | nil =>
    obtain ⟨call, hcall, hsettles⟩ := h
    have hnone := List.dropWhile_eq_nil_iff.mp hrest call hcall
    simp [hsettles] at hnone
  | cons call later =>
    have hcall : call.settles = true := by
      simpa [hrest] using List.head?_dropWhile_not (fun call => !call.settles) calls
    have htaken : drafted kind (calls.takeWhile fun call => !call.settles) =
        { kind, lines := linesBefore calls } := after_of_open (d := { kind }) rfl hbefore
    rw [← hsplit, hrest, drafted, after_append, after, List.foldl_cons]
    change (Draft.answer (drafted kind _) call).1.after later = _
    rw [htaken, answer_fst_of_settles hopen hcall, (isSettled_close _).after_eq]
    rw [← hrest, hsplit]

theorem isSettled_drafted (kind : DeclarationKind) {calls : List DraftCall}
    (h : ∃ call ∈ calls, call.settles = true) : (drafted kind calls).IsSettled := by
  rw [drafted_of_settles kind h]
  exact isSettled_close _

/-- A draft is settled once it is rendered, whatever was done with it before. -/
theorem isSettled_finish_drafted (kind : DeclarationKind) (calls : List DraftCall) :
    (drafted kind calls).finish.IsSettled := by
  by_cases h : ∃ call ∈ calls, call.settles = true
  · rw [(isSettled_drafted kind h).finish_eq]
    exact isSettled_drafted kind h
  · have hopen : drafted kind calls = { kind, lines := calls.flatMap DraftCall.lines } :=
      after_of_open (d := { kind }) rfl fun call hcall => by
        simpa using fun hsettles => h ⟨call, hcall, hsettles⟩
    rw [hopen]
    exact isSettled_close _

/-- **The life of a draft.** Whatever is done with a new draft, in whatever order: up to the first
close or rendering it has all lines that were appended, in order. From then on these are its
lines, without the blank ones at both ends; every further line is refused and leaves the draft as
it was, and so does every other call. In one style it is always rendered to the same text. -/
theorem drafted_lifecycle (kind : DeclarationKind) (calls : List DraftCall) :
    Lifecycle kind calls := by
  refine ⟨fun h => ?_, fun h => ⟨(isSettled_drafted kind h).closed, ?_⟩,
    fun h call => (isSettled_drafted kind h).answer_eq, fun h more => ?_, fun style more => ?_⟩
  · have hdraft : drafted kind calls = { kind, lines := calls.flatMap DraftCall.lines } :=
      after_of_open (d := { kind }) rfl h
    refine ⟨hdraft, fun call hcall => ?_⟩
    rw [hdraft, answer_of_open rfl hcall]
    simp
  · have hcore := isCore_dropEnds TagLine.isBlank (linesBefore calls)
    simp only [TagLine.isBlank_iff] at hcore
    rw [drafted_of_settles kind h]
    exact hcore
  · rw [drafted, after_append]
    exact (isSettled_drafted kind h).after_eq more
  · have hfinished := isSettled_finish_drafted kind calls
    have hdraft : drafted kind (calls ++ .render style :: more) = (drafted kind calls).finish := by
      rw [drafted, after_append]
      exact hfinished.after_eq more
    rw [hdraft]
    simp only [answer, render, hfinished.finish_eq]

/-- A draft with a tag between two empty lines, rendered and then closed, has the tag alone, and
takes no more. -/
theorem drafted_lifecycle_of_tag :
    (∃ call ∈ [DraftCall.extend [.blank, .ofTag "class", .blank], .render {}, .close],
      call.settles = true) ∧
    (drafted .classLike [.extend [.blank, .ofTag "class", .blank], .render {}, .close]).lines =
      [.ofTag "class"] ∧
    (drafted .classLike [.extend [.blank, .ofTag "class", .blank], .render {}, .close]).answer
        (.append (.ofTag "file")) =
      (drafted .classLike [.extend [.blank, .ofTag "class", .blank], .render {}, .close],
        .error .closed) := by
  have hsettles : ∃ call ∈ [DraftCall.extend [.blank, .ofTag "class", .blank], .render {}, .close],
      call.settles = true := ⟨.close, by simp, rfl⟩
  have hlife := drafted_lifecycle .classLike [.extend [.blank, .ofTag "class", .blank],
    .render {}, .close]
  exact ⟨hsettles, by decide, hlife.refusing hsettles _ (by decide)⟩

end Draft

end DocHeader

import DocHeader.Proofs.Assistant.Retries
import DocHeader.Proofs.Header.Parameters
import DocHeader.Proofs.Header.Told

/-!
# What the assistant is asked

Which questions are put to the assistant while a header is built, and in which order, is settled
by the declaration and the settings. The replies have no part in it: a question that has no
answer keeps no other from being asked. Each question is sent at least once, and again only as
long as the replies ask for patience.

## Main definitions

* `Inquiry` — a question about a declaration.
* `Inquiry.due` — the questions about a declaration, in their order.
* `Inquiry.Asks` — a computation that asks some questions, whatever the replies.

## Main statements

* `Builder.build_asks` — building a header asks the questions that are due.
-/

namespace DocHeader

/-- A question about a declaration. -/
inductive Inquiry where
  /-- What the declaration is for. -/
  | declaration
  /-- What its parameters are for, or its type parameters, by their names. -/
  | names (generics : Bool) (list : List String)
  /-- What it returns. -/
  | returnValue
  deriving DecidableEq, Repr

namespace Inquiry

/-! ## The questions that are due -/

/-- Whether settings have a text for constructors, and this is one in a class with a name. -/
def isKnown (s : Settings) (f : Focus) (kind : DeclarationKind) : Bool :=
  kind == .constructor && s.text .constructorDescription != "" &&
    f.parent?.any fun owner => (given? owner.info.name).isSome

/-- The question about the declaration itself. -/
def aboutDeclaration (s : Settings) (f : Focus) (kind : DeclarationKind) : List Inquiry :=
  if isKnown s f kind then [] else [.declaration]

/-- The question about type parameters, when there are any and they are to be described. -/
def aboutTemplates (s : Settings) (templates : List Focus) : List Inquiry :=
  if s.flag .describeTypeParameters ∧ templates ≠ [] then [.names true (templateNames templates)]
  else []

/-- The question about parameters, when there are any and they are to be described: it has their
names, in order. -/
def aboutParameters (s : Settings) (parameters : List Focus) : List Inquiry :=
  if s.flag .describeParameters ∧ parameters ≠ [] then
    [.names false (ParameterList.names parameters)]
  else []

/-- The question about the return value of a function, when there is one, and it is shown and to
be described. -/
def aboutReturn (s shown : Settings) (signature : Focus) : List Inquiry :=
  if s.flag .describeReturns ∧ shown.flag .includeReturn ∧
      signature.returnTypeText ≠ TypeText.noValue then [.returnValue]
  else []

/-- The questions about the parts of a declaration, as far as its kind has them. -/
def aboutParts (s shown : Settings) (f : Focus) (kind : DeclarationKind) : List Inquiry :=
  aboutTemplates s (TagOrder.templates f kind) ++
    aboutParameters s (TagOrder.parameters f kind) ++
    if kind = .method then aboutReturn s shown (Builder.signatureOf f) else []

/-- The questions about a declaration in their order: `s` are the settings of the source of
descriptions, and `shown` those of the header. Nothing is asked about an accessor whose opposite
has a header, and about a member that overrides another one only what it is. -/
def due (s shown : Settings) (f : Focus) (kind : DeclarationKind) : List Inquiry :=
  if kind = .accessor ∧ TagOrder.oppositeDocumented f then []
  else
    aboutDeclaration s f kind ++
      if f.node.hasModifier "override" then [] else aboutParts s shown f kind

/-! ## Asking -/

section Asking

variable (a : Assistant) (f : Focus) (kind : DeclarationKind)

/-- The tool whose call answers a question. -/
def tool : Inquiry → Tool
  | .declaration => a.prompter.declarationTool kind.label
  | .names generics list => a.prompter.parametersTool list generics
  | .returnValue => a.prompter.returnTool

/-- The request for a question. -/
def request (inquiry : Inquiry) : Request :=
  a.client.request systemPrompt (a.prompter.message (shownSource f) kind.label)
    (tool a kind inquiry) 1024

/-- What is left of an exchange after a question is put, with all its attempts. -/
def after (x : Exchange) (inquiry : Inquiry) : Exchange :=
  (a.ask (shownSource f) kind.label (tool a kind inquiry) x).2

/-- The requests for some questions, each as often as it is sent. -/
def requests (sent : List (Inquiry × Nat)) : List Request :=
  sent.flatMap fun (inquiry, times) => List.replicate times (request a f kind inquiry)

/-- What is left of an exchange after some questions are put, and the requests that were sent: one
or more for each question, as far as there are attempts. -/
structure Put (questions : List Inquiry) (x x' : Exchange) : Prop where
  exchange : x' = questions.foldl (after a f kind) x
  requests : ∃ sent : List (Inquiry × Nat), sent.map Prod.fst = questions ∧
    (∀ times ∈ sent.map Prod.snd, 1 ≤ times ∧ times ≤ (max 1 a.client.maxRetries).toNat) ∧
    x'.requests = x.requests ++ Inquiry.requests a f kind sent

/-- A computation puts some questions in their order, whatever the replies, and does nothing else
with the exchange. -/
def Asks {α : Type} (x : Logged Exchange α) (questions : List Inquiry) : Prop :=
  ∀ j, (x j).2.state = questions.foldl (after a f kind) j.state

variable {a f kind}

/-- The requests for some questions come in the order of the questions. -/
theorem put (questions : List Inquiry) (x : Exchange) :
    Put a f kind questions x (questions.foldl (after a f kind) x) := by
  refine ⟨rfl, ?_⟩
  induction questions generalizing x with
  | nil => exact ⟨[], rfl, by simp, (List.append_nil _).symm⟩
  | cons inquiry questions ih =>
    -- the others are put to what this one leaves of the exchange, whether it was answered or not
    obtain ⟨times, hpos, hlimit, hfirst⟩ := a.client.call_requests systemPrompt
      (a.prompter.message (shownSource f) kind.label) (tool a kind inquiry) 1024 x
    obtain ⟨sent, hsent, htimes, hrest⟩ := ih (after a f kind x inquiry)
    refine ⟨(inquiry, times) :: sent, congrArg (inquiry :: ·) hsent,
      List.forall_mem_cons.mpr ⟨⟨hpos, hlimit⟩, htimes⟩, ?_⟩
    have hafter : (after a f kind x inquiry).requests =
        x.requests ++ List.replicate times (request a f kind inquiry) := hfirst
    rw [List.foldl_cons, hrest, hafter, List.append_assoc]
    rfl

namespace Asks

variable {α β : Type} {x : Logged Exchange α} {next : α → Logged Exchange β}
  {questions others : List Inquiry}

theorem pure (r : α) : Asks a f kind (pure r : Logged Exchange α) [] := fun _ => rfl

theorem warn (message : String) : Asks a f kind (Logged.warn message) [] := fun _ => rfl

theorem bind (hx : Asks a f kind x questions) (hnext : ∀ r, Asks a f kind (next r) others) :
    Asks a f kind (x >>= next) (questions ++ others) := by
  intro j
  rw [Logged.bind_apply, hnext, hx, List.foldl_append]

/-- What asks nothing more may follow. -/
theorem last (hx : Asks a f kind x questions) (hnext : ∀ r, Asks a f kind (next r) []) :
    Asks a f kind (x >>= next) questions := by
  rw [← List.append_nil questions]
  exact hx.bind hnext

/-- A failing call is noted, and nothing more is asked about it. -/
theorem askAssistant {question : StateM Exchange (Except CallError α)} {inquiry : Inquiry}
    (h : ∀ x, (question x).2 = after a f kind x inquiry) (topic : String) (otherwise : α) :
    Asks a f kind (askAssistant question topic otherwise) [inquiry] := by
  have hquestion : Asks a f kind (Logged.onState question) [inquiry] := fun j => h j.state
  refine hquestion.last fun answer => ?_
  cases answer with
  | ok answer => exact .pure answer
  | error e => exact (Asks.warn _).last fun _ => .pure otherwise

/-- Nor is anything when a source fails. -/
theorem ask {request : Logged Exchange (Except DescriptionFailure α)}
    (h : Asks a f kind request questions) (otherwise : α) :
    Asks a f kind (Builder.ask request otherwise) questions := by
  refine h.last fun answer => ?_
  cases answer with
  | ok answer => exact .pure answer
  | error e => exact (Asks.warn _).last fun _ => .pure otherwise

end Asks

end Asking

/-! ## The source -/

section Source

variable {a : Assistant} {s : Settings} {f : Focus} {kind : DeclarationKind}

theorem isSome_constructorText? :
    (constructorText? (s.text .constructorDescription) f kind).isSome = isKnown s f kind := by
  rw [constructorText?, isKnown, Bool.eq_iff_iff]
  split
  next h =>
    have hnot : ¬(kind = .constructor ∧ s.text .constructorDescription ≠ "") := by
      rintro ⟨hkind, htext⟩
      simp [hkind, htext] at h
    simpa using fun hkind htext => (hnot ⟨hkind, htext⟩).elim
  next h =>
    obtain ⟨hkind, htext⟩ : kind = .constructor ∧ s.text .constructorDescription ≠ "" := by
      simpa using h
    cases f.parent? with
    | none => simp [hkind]
    | some owner => cases hname : given? owner.info.name <;> simp [hkind, htext, hname]

theorem generated_declaration_asks :
    Asks a f kind ((DescriptionSource.generated a s).declaration f kind)
      (aboutDeclaration s f kind) := by
  rw [aboutDeclaration, ← isSome_constructorText?]
  simp only [DescriptionSource.generated]
  cases constructorText? (s.text .constructorDescription) f kind with
  | some text => exact .pure _
  | none =>
    have hasked (x : Exchange) :
        (a.describe (shownSource f) kind.label x).2 = after a f kind x .declaration := rfl
    exact (Asks.askAssistant hasked _ _).last fun _ => .pure _

theorem generated_parameters_asks (generics : Bool) {list : List String} (hlist : list ≠ []) :
    Asks a f kind ((DescriptionSource.generated a s).parameters f kind generics list)
      (if s.flag (if generics then .describeTypeParameters else .describeParameters) then
        [.names generics list] else []) := by
  simp only [DescriptionSource.generated]
  cases s.flag (if generics then .describeTypeParameters else .describeParameters) with
  | false => exact .pure _
  | true =>
    have hasked (x : Exchange) : (a.describeNames (shownSource f) kind.label generics list x).2 =
        after a f kind x (.names generics list) := by
      simp only [Assistant.describeNames, List.isEmpty_iff, if_neg hlist]
      rfl
    exact (Asks.askAssistant hasked _ _).last fun _ => .pure _

theorem generated_returns_asks :
    Asks a f .method ((DescriptionSource.generated a s).returns f)
      (if s.flag .describeReturns then [.returnValue] else []) := by
  simp only [DescriptionSource.generated]
  cases s.flag .describeReturns with
  | false => exact .pure _
  | true =>
    have hasked (x : Exchange) :
        (a.describeReturn (shownSource f) x).2 = after a f .method x .returnValue := rfl
    exact (Asks.askAssistant hasked _ _).last fun _ => .pure _

end Source

end Inquiry

/-! ## The header -/

namespace Builder

open Inquiry (Asks)

variable {b : Builder Exchange} {a : Assistant} {s : Settings} (f signature : Focus)
  (kind : DeclarationKind)

theorem askNames_asks (hsource : b.source = .generated a s) (generics : Bool)
    {list : List String} (hlist : list ≠ []) :
    Asks a f kind (b.askNames f kind generics list)
      (if s.flag (if generics then .describeTypeParameters else .describeParameters) then
        [.names generics list] else []) := by
  rw [askNames, hsource]
  exact (Inquiry.generated_parameters_asks generics hlist).ask [] |>.last fun _ => .pure _

theorem askTemplates_asks (hsource : b.source = .generated a s) :
    Asks a f kind (b.askTemplates f signature kind)
      (Inquiry.aboutTemplates s signature.typeParameters) := by
  unfold askTemplates Inquiry.aboutTemplates
  cases htemplates : signature.typeParameters with
  | nil => simpa using Asks.pure []
  | cons t ts =>
    have hnames : templateNames (t :: ts) ≠ [] := List.cons_ne_nil _ _
    simpa using (askNames_asks f kind hsource true hnames).last fun _ => .pure _

theorem askParameters_asks (hsource : b.source = .generated a s) :
    Asks a f kind (b.askParameters f signature kind)
      (Inquiry.aboutParameters s (documentedParameters signature)) := by
  unfold askParameters Inquiry.aboutParameters
  cases hparameters : documentedParameters signature with
  | nil => simpa using Asks.pure []
  | cons p ps =>
    have hnames : parameterNames 0 (p :: ps) ≠ [] :=
      List.ne_nil_of_length_pos (by simp [length_parameterNames])
    simpa [ParameterList.parameterNames_eq] using
      (askNames_asks f kind hsource false hnames).last fun _ => .pure _

theorem askReturn_asks (hsource : b.source = .generated a s) :
    Asks a f .method (b.askReturn f signature) (Inquiry.aboutReturn s b.settings signature) := by
  unfold askReturn Inquiry.aboutReturn Focus.renderReturn?
  cases b.settings.flag .includeReturn with
  | false => simpa using Asks.pure []
  | true =>
    by_cases hnone : signature.returnTypeText = TypeText.noValue
    · simpa [hnone] using Asks.pure []
    · have hreturns : Asks a f .method (b.source.returns f)
          (if s.flag .describeReturns then [.returnValue] else []) := by
        rw [hsource]
        exact Inquiry.generated_returns_asks
      simpa [hnone] using (hreturns.ask emptyRegion).last fun _ => .pure _

theorem kindLines_asks (hsource : b.source = .generated a s) :
    Asks a f kind (b.kindLines f kind) (Inquiry.aboutParts s b.settings f kind) := by
  unfold kindLines Inquiry.aboutParts
  match kind with
  | .classLike | .typeAlias =>
    simpa [TagOrder.templates, TagOrder.parameters, Inquiry.aboutParameters] using
      (askTemplates_asks f f _ hsource).last fun _ => .pure _
  | .enumeration | .property | .accessor | .variable | .file =>
    simpa [TagOrder.templates, TagOrder.parameters, Inquiry.aboutTemplates,
      Inquiry.aboutParameters] using Asks.pure _
  | .method =>
    rw [List.append_assoc]
    exact (askTemplates_asks f _ _ hsource).bind fun _ =>
      (askParameters_asks f _ _ hsource).bind fun _ =>
        (askReturn_asks f _ hsource).last fun _ => .pure _
  | .constructor =>
    simpa [TagOrder.templates, TagOrder.parameters, Inquiry.aboutTemplates] using
      (askParameters_asks f f _ hsource).last fun _ => .pure _

theorem ownLines_asks (hsource : b.source = .generated a s) :
    Asks a f kind (b.ownLines f kind) (Inquiry.aboutDeclaration s f kind ++
      if f.node.hasModifier "override" then [] else Inquiry.aboutParts s b.settings f kind) := by
  have hdeclaration : Asks a f kind (b.source.declaration f kind)
      (Inquiry.aboutDeclaration s f kind) := by
    rw [hsource]
    exact Inquiry.generated_declaration_asks
  refine (hdeclaration.ask emptyRegion).bind fun description => ?_
  split
  next => exact .pure _
  next => exact (kindLines_asks f kind hsource).last fun _ => .pure _

theorem lines_asks (hsource : b.source = .generated a s) :
    Asks a f kind (b.lines f kind) (Inquiry.due s b.settings f kind) := by
  unfold Builder.lines Inquiry.due
  rw [← isSome_pairedAccessor?]
  by_cases hkind : kind = .accessor
  · rw [if_pos hkind]
    cases pairedAccessor? f with
    | none => simpa using ownLines_asks f kind hsource
    | some paired => simpa [hkind] using Asks.pure _
  · rw [if_neg hkind, if_neg fun h => hkind h.1]
    exact ownLines_asks f kind hsource

/-- **What the assistant is asked.** Let the header of a declaration be built with an assistant,
whatever its replies are. A header is built, and exactly the questions that are due are put, in
their order, each to what the ones before it left of the exchange. Each is sent at least once, so
that none is left out because another one failed, and again only while there are attempts. -/
theorem build_asks (hsource : b.source = .generated a s) {kind : DeclarationKind}
    (hkind : b.kindOf f = .ok kind) (j : Journal Exchange) :
    ∃ draft, (b.build f j).1 = .ok draft ∧
      Inquiry.Put a f kind (Inquiry.due s b.settings f kind) j.state (b.build f j).2.state := by
  refine ⟨_, b.build_eq_close f hkind j, ?_⟩
  have hasked : Asks a f kind (b.build f) (Inquiry.due s b.settings f kind) := by
    rw [build, hkind]
    exact (lines_asks f kind hsource).last fun _ => .pure _
  rw [hasked j]
  exact Inquiry.put _ _

/-- Replies to the questions about a function: the first question is refused, and to the second
one there is no answer in time. -/
def failures : List Reply := [.refused "Overloaded", .timedOut, .timedOut, .timedOut]

/-- All questions about this function are put. -/
theorem build_asks_of_failures :
    assisted.source = .generated plainAssistant describing ∧
    assisted.kindOf genericFunction = .ok .method ∧
    ∃ draft, (assisted.build genericFunction ⟨{ script := failures }, []⟩).1 = .ok draft ∧
      (assisted.build genericFunction ⟨{ script := failures }, []⟩).2.state.requests =
        Inquiry.requests plainAssistant genericFunction .method
          [(.declaration, 1), (.names true ["T"], 3), (.names false ["param0", "count"], 1),
            (.returnValue, 1)] := by
  have hkind : assisted.kindOf genericFunction = .ok .method := by decide +kernel
  obtain ⟨draft, hbuild, hput⟩ :=
    build_asks genericFunction rfl hkind ⟨{ script := failures }, []⟩
  have hdue : Inquiry.due describing assisted.settings genericFunction .method =
      [.declaration, .names true ["T"], .names false ["param0", "count"], .returnValue] := by
    decide +kernel
  refine ⟨rfl, hkind, draft, hbuild, ?_⟩
  rw [hput.exchange, hdue]
  rfl

end Builder

end DocHeader

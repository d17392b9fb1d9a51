import DocHeader.Description.Generated
import DocHeader.Header.Build

/-!
# The answers of a source

A source of descriptions works on a state of its own, and its answers may depend on it. All
that a header depends on are these answers. When a source cannot tell two states apart, the
headers that are built from them are the same, and the states that are left cannot be told
apart either. In particular a source that answers by the declaration alone always gives a
declaration the same header.

## Main definitions

* `Logged.Alike` — two computations that cannot be told apart.
* `Logged.Respects` — a computation that does not tell related states apart.
* `DescriptionSource.Respects` — a source that does not.
-/

namespace DocHeader

variable {σ α β : Type} {R : σ → σ → Prop}

namespace Logged

/-- From related states two computations give the same result, and they leave related states.
What is in the log does not matter. -/
def Alike (R : σ → σ → Prop) (x y : Logged σ α) : Prop :=
  ∀ j k, R j.state k.state → (x j).1 = (y k).1 ∧ R (x j).2.state (y k).2.state

theorem Alike.pure {a b : α} (h : a = b) : Alike R (pure a : Logged σ α) (pure b) := by
  intro j k hjk
  exact ⟨h, hjk⟩

theorem Alike.warn (message : String) :
    Alike R (warn message : Logged σ Unit) (Logged.warn message) := by
  intro j k hjk
  exact ⟨rfl, hjk⟩

theorem Alike.bind {x y : Logged σ α} {next next' : α → Logged σ β} (h : Alike R x y)
    (hnext : ∀ a, Alike R (next a) (next' a)) : Alike R (x >>= next) (y >>= next') := by
  intro j k hjk
  obtain ⟨hresult, hstates⟩ := h j k hjk
  rw [bind_apply, bind_apply, hresult]
  exact hnext _ _ _ hstates

/-- From related states a computation gives the same result, and it leaves related states.
What is in the log does not matter. -/
def Respects (R : σ → σ → Prop) (x : Logged σ α) : Prop :=
  ∀ j k, R j.state k.state → (x j).1 = (x k).1 ∧ R (x j).2.state (x k).2.state

/-- Such a computation is alike to itself. -/
theorem respects_iff {x : Logged σ α} : Respects R x ↔ Alike R x x := Iff.rfl

theorem Respects.pure (a : α) : Respects R (pure a : Logged σ α) := Alike.pure rfl

theorem Respects.warn (message : String) : Respects R (warn message : Logged σ Unit) :=
  Alike.warn message

theorem Respects.bind {x : Logged σ α} {next : α → Logged σ β} (hx : Respects R x)
    (hnext : ∀ a, Respects R (next a)) : Respects R (x >>= next) :=
  Alike.bind hx hnext

end Logged

/-- A source does not tell related states apart, whatever it is asked. -/
structure DescriptionSource.Respects (R : σ → σ → Prop) (source : DescriptionSource σ) : Prop where
  declaration : ∀ f kind, (source.declaration f kind).Respects R
  parameters : ∀ f kind generics names, (source.parameters f kind generics names).Respects R
  returns : ∀ f, (source.returns f).Respects R

/-- A source that always gives the same text respects everything. -/
theorem DescriptionSource.fixed_respects (text constructorText : String) :
    (fixed text constructorText : DescriptionSource σ).Respects R where
  declaration f kind := by
    simp only [fixed]
    split <;> exact .pure _
  parameters _ _ _ _ := .pure _
  returns _ := .pure _

/-! ## The sources of the settings -/

theorem Logged.Respects.onState (action : StateM σ α) : Respects Eq (onState action) := by
  intro j k hjk
  simp only [Logged.onState, hjk]
  exact ⟨rfl, rfl⟩

theorem askAssistant_respects (question : StateM Exchange (Except CallError α)) (topic : String)
    (otherwise : α) : Logged.Respects Eq (askAssistant question topic otherwise) := by
  refine .bind (.onState question) fun answer => ?_
  cases answer with
  | ok answer => exact .pure answer
  | error e => exact .bind (.warn _) fun _ => .pure otherwise

/-- What an assistant answers does not depend on the log. -/
theorem DescriptionSource.generated_respects (a : Assistant) (s : Settings) :
    (generated a s).Respects Eq where
  declaration f kind := by
    simp only [generated]
    split
    next => exact .pure _
    next => exact .bind (askAssistant_respects _ _ _) fun _ => .pure _
  parameters f kind generics names := by
    simp only [generated]
    cases s.flag (if generics then .describeTypeParameters else .describeParameters) with
    | false => exact .pure _
    | true => exact .bind (askAssistant_respects _ _ _) fun _ => .pure _
  returns f := by
    simp only [generated]
    split
    next => exact .pure _
    next => exact .bind (askAssistant_respects _ _ _) fun _ => .pure _

/-- Nor does it for any source that settings ask for. -/
theorem DescriptionSource.select_respects (s : Settings) (assistant : Option Assistant) :
    (select s assistant).Respects Eq := by
  unfold select
  split
  next => exact fixed_respects _ _
  next =>
    split
    next a => exact generated_respects a s
    next => exact fixed_respects _ _

namespace Builder

open Logged

variable {b : Builder σ} (f signature : Focus) (kind : DeclarationKind)

theorem ask_alike {request request' : Logged σ (Except DescriptionFailure α)}
    (hrequest : Logged.Alike R request request') (otherwise : α) :
    Logged.Alike R (ask request otherwise) (ask request' otherwise) := by
  refine .bind hrequest fun answer => ?_
  cases answer with
  | ok answer => exact .pure rfl
  | error e => exact .bind (.warn _) fun _ => .pure rfl

theorem ask_respects {request : Logged σ (Except DescriptionFailure α)}
    (hrequest : Logged.Respects R request) (otherwise : α) :
    Logged.Respects R (ask request otherwise) :=
  ask_alike hrequest otherwise

theorem askNames_respects (hsource : b.source.Respects R) (generics : Bool)
    (names : List String) : Logged.Respects R (b.askNames f kind generics names) :=
  .bind (ask_respects (hsource.parameters f kind generics names) []) fun _ => .pure _

theorem askTemplates_respects (hsource : b.source.Respects R) :
    Logged.Respects R (b.askTemplates f signature kind) := by
  simp only [askTemplates]
  split
  next => exact .pure []
  next => exact .bind (askNames_respects f kind hsource true _) fun _ => .pure _

theorem askParameters_respects (hsource : b.source.Respects R) :
    Logged.Respects R (b.askParameters f signature kind) := by
  simp only [askParameters]
  split
  next => exact .pure []
  next => exact .bind (askNames_respects f kind hsource false _) fun _ => .pure _

theorem askReturn_respects (hsource : b.source.Respects R) :
    Logged.Respects R (b.askReturn f signature) := by
  unfold askReturn
  split
  next => exact .pure []
  next =>
    split
    next => exact .pure []
    next => exact .bind (ask_respects (hsource.returns f) emptyRegion) fun _ => .pure _

theorem kindLines_respects (hsource : b.source.Respects R) :
    Logged.Respects R (b.kindLines f kind) := by
  match kind with
  | .classLike | .typeAlias =>
    exact .bind (askTemplates_respects f f _ hsource) fun _ => .pure _
  | .enumeration | .property | .accessor | .variable | .file => exact .pure _
  | .method =>
    exact .bind (askTemplates_respects f _ _ hsource) fun _ =>
      .bind (askParameters_respects f _ _ hsource) fun _ =>
        .bind (askReturn_respects f _ hsource) fun _ => .pure _
  | .constructor => exact .bind (askParameters_respects f f _ hsource) fun _ => .pure _

theorem ownLines_respects (hsource : b.source.Respects R) :
    Logged.Respects R (b.ownLines f kind) := by
  refine .bind (ask_respects (hsource.declaration f kind) emptyRegion) fun description => ?_
  split
  next => exact .pure _
  next => exact .bind (kindLines_respects f kind hsource) fun _ => .pure _

theorem lines_respects (hsource : b.source.Respects R) :
    Logged.Respects R (b.lines f kind) := by
  unfold Builder.lines
  split
  next => exact .pure _
  next => exact ownLines_respects f kind hsource

/-- A header depends on the state of the source only as far as the answers do. -/
theorem build_respects (hsource : b.source.Respects R) : Logged.Respects R (b.build f) := by
  unfold build
  split
  next => exact .pure _
  next kind _ => exact .bind (lines_respects f kind hsource) fun _ => .pure _

end Builder

end DocHeader

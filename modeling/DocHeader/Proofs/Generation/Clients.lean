import DocHeader.Proofs.Generation.Turns
import DocHeader.Proofs.Header.Misfits

/-!
# Requests and clients

The client of the assistant is opened before a request and closed after it. What a request
does in between sends questions and waits, and neither opens a client nor closes one: the
questions of a source do not, and nothing else works on the exchange with the assistant.

## Main definitions

* `Leaves` — a computation leaves a part of its state alone.
* `Exchange.clients` — how many clients were opened, and how many times one was closed.
* `Sink.LeavesClients` — a sink that has nothing to do with clients.
-/

namespace DocHeader

variable {σ γ α β : Type}

/-- A computation leaves alone what `part` reads off the state. -/
def Leaves (part : σ → γ) (x : StateM σ α) : Prop := ∀ s, part (x s).2 = part s

namespace Leaves

variable {part : σ → γ}

protected theorem pure (a : α) : Leaves part (pure a : StateM σ α) := fun _ => rfl

protected theorem bind {x : StateM σ α} {f : α → StateM σ β} (hx : Leaves part x)
    (hf : ∀ a, Leaves part (f a)) : Leaves part (x >>= f) := fun s =>
  (hf (x s).1 (x s).2).trans (hx s)

end Leaves

/-- The number of clients opened, and the number of times clients were closed. -/
def Exchange.clients (x : Exchange) : Nat × Nat := (x.opened, x.closed)

/-! ## Questions -/

theorem Exchange.send_leaves (request : Request) : Leaves clients (send request) := by
  intro x
  unfold send
  cases x.script <;> rfl

theorem Exchange.pause_leaves (seconds : Rat) : Leaves clients (pause seconds) := fun _ => rfl

/-- Asking, with all its attempts, neither opens a client nor closes one. -/
theorem Client.attempt_leaves (c : Client) (request : Request) (delay : Rat) (left : Nat) :
    Leaves Exchange.clients (c.attempt request delay left) := by
  induction left generalizing delay with
  | zero =>
    refine .bind (Exchange.send_leaves request) fun reply => ?_
    split <;> exact .pure _
  | succ left ih =>
    refine .bind (Exchange.send_leaves request) fun reply => ?_
    split
    · exact .pure _
    · exact .pure _
    · exact .bind (Exchange.pause_leaves delay) fun _ => ih (delay * 2)
    · exact .bind (Exchange.pause_leaves delay) fun _ => ih (delay * 2)

namespace Assistant

variable (a : Assistant) (source kind : String)

theorem describe_leaves : Leaves Exchange.clients (a.describe source kind) :=
  .bind (Client.attempt_leaves _ _ _ _) fun _ => .pure _

theorem describeNames_leaves (generics : Bool) (names : List String) :
    Leaves Exchange.clients (a.describeNames source kind generics names) := by
  unfold describeNames
  split
  · exact .pure _
  · exact .bind (Client.attempt_leaves _ _ _ _) fun _ => .pure _

theorem describeReturn_leaves : Leaves Exchange.clients (a.describeReturn source) :=
  .bind (Client.attempt_leaves _ _ _ _) fun _ => .pure _

end Assistant

/-- The clients of an exchange with a log. -/
def Journal.clients (j : Journal Exchange) : Nat × Nat := j.state.clients

theorem askAssistant_leaves {question : StateM Exchange (Except CallError α)}
    (h : Leaves Exchange.clients question) (topic : String) (otherwise : α) :
    Leaves Journal.clients (askAssistant question topic otherwise) := by
  have honState : Leaves Journal.clients (Logged.onState question) := fun j => h j.state
  refine .bind honState fun answer => ?_
  split
  · exact .pure _
  · exact .bind (fun _ => rfl) fun _ => .pure _

/-- A source whose answers open and close no client. -/
structure DescriptionSource.LeavesClients (source : DescriptionSource Exchange) : Prop where
  declaration : ∀ f kind, Leaves Journal.clients (source.declaration f kind)
  parameters : ∀ f kind generics names,
    Leaves Journal.clients (source.parameters f kind generics names)
  returns : ∀ f, Leaves Journal.clients (source.returns f)

namespace DescriptionSource

theorem fixed_leavesClients (text constructorText : String) :
    (fixed text constructorText).LeavesClients where
  declaration f kind := by
    simp only [fixed]
    split <;> exact .pure _
  parameters _ _ _ _ := .pure _
  returns _ := .pure _

theorem generated_leavesClients (a : Assistant) (s : Settings) :
    (generated a s).LeavesClients where
  declaration f kind := by
    simp only [generated]
    split
    · exact .pure _
    · exact .bind (askAssistant_leaves (a.describe_leaves _ _) _ _) fun _ => .pure _
  parameters f kind generics names := by
    simp only [generated]
    cases s.flag (if generics then .describeTypeParameters else .describeParameters) with
    | false => exact .pure _
    | true => exact .bind (askAssistant_leaves (a.describeNames_leaves _ _ _ _) _ _) fun _ => .pure _
  returns f := by
    simp only [generated]
    split
    · exact .pure _
    · exact .bind (askAssistant_leaves (a.describeReturn_leaves _) _ _) fun _ => .pure _

theorem select_leavesClients (s : Settings) (assistant : Option Assistant) :
    (select s assistant).LeavesClients := by
  unfold select
  split
  · exact fixed_leavesClients _ _
  · split
    · exact generated_leavesClients _ s
    · exact fixed_leavesClients _ _

end DescriptionSource

/-- Building a header opens and closes no client when the answers of the source do not. -/
theorem Builder.attempt_leaves {b : Builder Exchange} (hrespects : b.source.Respects Eq)
    (hsource : b.source.LeavesClients) (f : Focus) (snippet : Bool) :
    Leaves Journal.clients (b.attempt f snippet) := by
  intro j
  -- a relation that only holds of one exchange and itself carries a property of exchanges along
  let R (x y : Exchange) : Prop := x = y ∧ x.clients = j.clients
  have hall {α : Type} {question : Logged Exchange α} (hsame : Logged.Respects Eq question)
      (hleaves : Leaves Journal.clients question) : Logged.Respects R question := by
    rintro k l ⟨hkl, hk⟩
    obtain ⟨hresult, hstate⟩ := hsame k l hkl
    exact ⟨hresult, hstate, (hleaves k).trans hk⟩
  have hsource' : b.source.Respects R :=
    ⟨fun f kind => hall (hrespects.declaration f kind) (hsource.declaration f kind),
      fun f kind generics names =>
        hall (hrespects.parameters f kind generics names)
          (hsource.parameters f kind generics names),
      fun f => hall (hrespects.returns f) (hsource.returns f)⟩
  exact (attempt_respects hsource' snippet j j ⟨rfl, rfl⟩).2.2

/-! ## Steps -/

/-- The clients of the exchange on a desk. -/
def Desk.clients (d : Desk) : Nat × Nat := d.exchange.clients

namespace Desk

theorem leaves_of_keeps {x : StateM Desk α} (h : ∀ d : Desk, d.Keeps (x d).2) : Leaves clients x :=
  fun d => congrArg Exchange.clients (h d).exchange

theorem note_leaves (level : LogLevel) (message : String) : Leaves clients (note level message) :=
  leaves_of_keeps (note_keeps level message)

theorem complete_leaves (s : Surroundings) (e : Event) : Leaves clients (complete s e) :=
  leaves_of_keeps (complete_keeps s e)

theorem report_leaves (s : Surroundings) (e : Event) (step : Meter → String × Meter) :
    Leaves clients (report s e step) :=
  leaves_of_keeps (report_keeps s e step)

theorem readText_leaves (s : Surroundings) (file : String) : Leaves clients (readText s file) :=
  leaves_of_keeps (readText_keeps s file)

theorem parse_leaves (s : Surroundings) (file text : String) :
    Leaves clients (parse s file text) :=
  fun d => congrArg Exchange.clients (parse_keeps s file text d).exchange

theorem onDisk_leaves (work : Logged Disk α) : Leaves clients (onDisk work) := fun _ => rfl

end Desk

/-- A sink that opens and closes no client. -/
def Sink.LeavesClients (sink : Sink) : Prop :=
  ∀ text offset, Leaves Desk.clients (sink.insert text offset)

theorem Sink.file_leavesClients (w : Writer) (path : String) : (file w path).LeavesClients :=
  fun _ _ => Desk.onDisk_leaves _

theorem Sink.console_leavesClients (snippets : Bool) : (console snippets).LeavesClients :=
  fun _ _ _ => rfl

/-- Work that opens and closes no client, given up or not. -/
def Work.LeavesClients (x : Work α) : Prop := Leaves Desk.clients x.run

namespace Work.LeavesClients

protected theorem pure (a : α) : LeavesClients (pure a) := fun _ => rfl

protected theorem throw (e : GenerationFault) : LeavesClients (throw e : Work α) := fun _ => rfl

protected theorem lift {x : StateM Desk α} (h : Leaves Desk.clients x) :
    LeavesClients (liftM x : Work α) := h

protected theorem bind {x : Work α} {f : α → Work β} (hx : x.LeavesClients)
    (hf : ∀ a, (f a).LeavesClients) : (x >>= f).LeavesClients := by
  intro d
  have hfirst : (x d).2.clients = d.clients := hx d
  change ((x >>= f) d).2.clients = d.clients
  rw [Work.bind_apply]
  rcases hrun : x d with ⟨_ | a, d'⟩ <;> rw [hrun] at hfirst
  · exact hfirst
  · exact (hf a d').trans hfirst

end Work.LeavesClients

/-! ## Requests -/

namespace Generator

variable {g : Generator}

/-- A generator whose source of descriptions answers by the state of the exchange and opens and
closes no client. -/
structure LeavesClients (g : Generator) : Prop where
  respects : g.builder.source.Respects Eq
  source : g.builder.source.LeavesClients

theorem look_leaves (g : Generator) (r : GenerationResult) : Leaves Desk.clients (g.look r) := by
  refine .bind (.bind (fun _ => rfl) fun _ => .bind (Desk.complete_leaves _ _) fun _ => .pure _)
    fun seen => ?_
  split
  · exact .bind (Desk.note_leaves _ _) fun _ => .pure _
  · exact .pure _

theorem recordFailure_leaves (r : GenerationResult) (file reason : String) :
    Leaves Desk.clients (recordFailure r file reason) :=
  .bind (Desk.note_leaves _ _) fun _ => .pure _

theorem header_leaves (hg : g.LeavesClients) (f : Focus) (text : String) (snippet : Bool) :
    Leaves Desk.clients (g.header f text snippet) := by
  have hattempt : Leaves Desk.clients (Desk.onExchange (g.builder.attempt f snippet)) := fun d =>
    Builder.attempt_leaves hg.respects hg.source f snippet ⟨d.exchange, d.records⟩
  refine .bind hattempt fun draft => ?_
  split
  · exact .pure _
  · exact .bind (Desk.complete_leaves _ _) fun _ => .pure _

theorem checkLanguage_leaves (file : String) : (checkLanguage file).LeavesClients := by
  unfold checkLanguage
  split
  · exact .pure _
  · exact .throw _

theorem deliver_leaves {sink : Sink} (hsink : sink.LeavesClients) (file : String) (f : Focus)
    (r : GenerationResult) (header : String) :
    Leaves Desk.clients (g.deliver file f sink r header) := by
  refine .bind (hsink _ _) fun inserted => .bind (Desk.complete_leaves _ _) fun _ => ?_
  split
  · exact .bind (Desk.report_leaves _ _ _) fun _ => look_leaves g _
  · exact .pure _

theorem atPositionOf_leaves (hg : g.LeavesClients) {sink : Sink} (hsink : sink.LeavesClients)
    (file : String) (position : Int) (text : String) :
    (g.atPositionOf file position sink text).LeavesClients := by
  have htarget (x : Except GenerationFault Focus) : (liftM x : Work Focus).LeavesClients := by
    cases x
    · exact .throw _
    · exact .pure _
  unfold atPositionOf
  split
  · exact fun _ => rfl
  · refine .bind (.lift (Desk.parse_leaves _ _ _)) fun tree => ?_
    split
    · exact .throw _
    · refine .bind (htarget _) fun f => ?_
      split
      · exact .bind (.lift (Desk.note_leaves _ _)) fun _ => .pure _
      · refine .bind (.lift (header_leaves hg _ _ _)) fun header => ?_
        split
        · exact .throw _
        · refine .bind (.lift (look_leaves g _)) fun r => ?_
          split
          · exact .pure _
          · refine .bind (fun _ => rfl) fun d => ?_
            split
            · exact .throw _
            · exact .lift (deliver_leaves hsink _ _ _ _)

/-- A request for a position leaves clients alone. -/
theorem atPosition_leaves (hg : g.LeavesClients) {sink : Sink} (hsink : sink.LeavesClients)
    (file : String) (position : Int) (text : Option String) :
    (g.atPosition file position sink text).LeavesClients := by
  refine .bind (checkLanguage_leaves file) fun _ => ?_
  split
  · exact atPositionOf_leaves hg hsink _ _ _
  · refine .bind (.lift (Desk.readText_leaves _ _)) fun read => ?_
    split
    · exact .throw _
    · refine .bind (.lift (look_leaves g _)) fun r => ?_
      split
      · exact .pure _
      · exact atPositionOf_leaves hg hsink _ _ _

theorem collectDeclarations_leaves (hg : g.LeavesClients) (file text : String)
    (reporting : Bool) (pending : List Focus) (c : Collected) :
    (g.collectDeclarations file text reporting pending c).LeavesClients := by
  induction pending generalizing c with
  | nil => exact .pure _
  | cons f rest ih =>
    refine .bind (.lift (header_leaves hg _ _ _)) fun header => ?_
    split
    · exact .throw _
    · refine .bind (.lift (look_leaves g _)) fun r => ?_
      split
      · exact .pure _
      · split
        · exact .bind (.lift (Desk.report_leaves _ _ _)) fun _ => ih _
        · exact ih _

theorem collectTree_leaves (hg : g.LeavesClients) (file text : String) (reporting : Bool)
    (root : Focus) (c : Collected) :
    (g.collectTree file text reporting root c).LeavesClients := by
  unfold collectTree
  dsimp only
  split
  · exact .throw _
  split
  · exact .bind (.lift (Desk.report_leaves _ _ _)) fun _ =>
      collectDeclarations_leaves hg _ _ _ _ _
  · exact collectDeclarations_leaves hg _ _ _ _ _

theorem collectFile_leaves (hg : g.LeavesClients) (file : String) (reporting : Bool)
    (c : Collected) : (g.collectFile file reporting c).LeavesClients := by
  refine .bind (.lift (Desk.readText_leaves _ _)) fun read => ?_
  split
  · exact .bind (.lift (recordFailure_leaves _ _ _)) fun _ => .pure _
  · refine .bind (.lift (look_leaves g _)) fun r => ?_
    split
    · exact .pure _
    · refine .bind (.lift (Desk.parse_leaves _ _ _)) fun tree => ?_
      split
      · exact collectTree_leaves hg _ _ _ _ _
      · split
        · exact .bind (.lift (recordFailure_leaves _ _ _)) fun _ => .pure _
        · exact .throw _

theorem collectFiles_leaves (hg : g.LeavesClients) (files : List String) (c : Collected) :
    (g.collectFiles files c).LeavesClients := by
  induction files generalizing c with
  | nil => exact .pure _
  | cons file rest ih =>
    refine .bind (.lift (look_leaves g _)) fun r => ?_
    split
    · exact .pure _
    · refine .bind (collectFile_leaves hg _ _ _) fun c => ?_
      split
      · exact .pure _
      · exact .bind (.lift (Desk.report_leaves _ _ _)) fun _ => ih _

theorem collectDirectory_leaves (hg : g.LeavesClients) (scope : Scope) (root : String) :
    (g.collectDirectory scope root).LeavesClients := by
  have hfound (files : List String) : (g.collectFound scope root files).LeavesClients := by
    refine .bind (.lift (Desk.complete_leaves _ _)) fun _ => .bind (.lift (look_leaves g _))
      fun r => ?_
    split
    · exact .pure _
    · exact .bind (.lift (Desk.report_leaves _ _ _)) fun _ => collectFiles_leaves hg _ _
  refine .bind (fun _ => rfl) fun d => ?_
  dsimp only
  split
  · exact fun _ => rfl
  · split
    · exact .throw _
    · exact hfound _

theorem collect_leaves (hg : g.LeavesClients) (t : Target) : (g.collect t).LeavesClients := by
  cases t with
  | file path => exact .bind (checkLanguage_leaves path) fun _ => collectFile_leaves hg _ _ _
  | folder root => exact collectDirectory_leaves hg .folder root
  | workspace root => exact collectDirectory_leaves hg .workspace root

theorem finish_leaves (g : Generator) (c : Collected) : Leaves Desk.clients (g.finish c) := by
  unfold finish
  split
  · exact .pure _
  · unfold applyCollected
    split
    · exact .pure _
    · refine .bind (Desk.onDisk_leaves _) fun applied => ?_
      split <;> exact .pure _

theorem conclude_leaves (g : Generator) (c : Collected) : (g.conclude c).LeavesClients := by
  refine .bind (fun _ => rfl) fun d => ?_
  split
  · exact .throw _
  · exact .lift (finish_leaves g c)

/-- A request for more than one declaration leaves clients alone. -/
theorem generate_leaves (hg : g.LeavesClients) (t : Target) : (g.generate t).LeavesClients :=
  .bind (collect_leaves hg t) (conclude_leaves g)

end Generator

end DocHeader

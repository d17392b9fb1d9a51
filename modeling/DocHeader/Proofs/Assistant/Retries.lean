import DocHeader.Assistant.Client
import Mathlib.Algebra.Order.Ring.Rat
import Mathlib.Tactic.Ring

/-!
# Attempts

A question is sent again while the replies ask for patience and attempts are left. Between two
requests there is one pause, twice as long as the one before; behind the last request there is
none. The call ends with what the last reply makes for.

An exchange keeps requests and pauses apart. In which order they are made is seen when the same
attempts are watched: they work over any channel on which requests can be sent and pauses made.

## Main definitions

* `Client.attemptOver` — the attempts over some channel.
* `Channel.watched` — the channel to the assistant, watched.
* `Client.Conducted` — how a question is put.

## Main statements

* `Client.call_conducted` — how often, when and with what result a question is put.
-/

namespace DocHeader

/-! ## Replies -/

/-- Whether a reply asks to come back later. -/
def Reply.asksPatience : Reply → Bool
  | .rateLimited _ | .timedOut => true
  | .message _ | .refused _ => false

/-- The input of a part of a reply that calls the tool. -/
def ReplyBlock.input? : ReplyBlock → Option Json
  | .call input => some input
  | .text _ => none

/-- What a reply makes for when no request follows it. -/
def Client.answerTo (c : Client) (tool : Tool) : Reply → Except CallError Json
  | .message blocks =>
    match blocks.findSome? ReplyBlock.input? with
    | some input => .ok input
    | none => .error (.noToolCall tool.name)
  | .refused message => .error (.refused message)
  | .rateLimited message => .error (.rateLimited message)
  | .timedOut => .error (.timedOut c.maxRetries c.timeout)

theorem Client.toolInput?_eq (blocks : List ReplyBlock) :
    toolInput? blocks = blocks.findSome? ReplyBlock.input? := by
  induction blocks with
  | nil => rfl
  | cons block rest ih =>
    cases block with
    | text text => rw [toolInput?, ih]; rfl
    | call input => rfl

theorem Client.readMessage_eq (c : Client) (tool : Tool) (blocks : List ReplyBlock) :
    readMessage tool blocks = c.answerTo tool (.message blocks) := by
  cases hinput : blocks.findSome? ReplyBlock.input? with
  | none => simp [readMessage, toolInput?_eq, answerTo, hinput]
  | some input => simp [readMessage, toolInput?_eq, answerTo, hinput]

namespace Exchange

/-- The reply to one of the next requests, counted from zero. -/
def reply (x : Exchange) (i : Nat) : Reply := x.script[i]?.getD silence

/-- The first reply that does not ask for patience. -/
structure AnsweredAt (x : Exchange) (first : Nat) : Prop where
  patient : ∀ i < first, (x.reply i).asksPatience = true
  final : (x.reply first).asksPatience = false

/-- There is such a reply, since silence is one. -/
theorem exists_answeredAt (x : Exchange) : ∃ first, x.AnsweredAt first := by
  let settled (reply : Reply) : Bool := !reply.asksPatience
  refine ⟨x.script.findIdx settled, fun i hi => ?_, ?_⟩
  · have hlt : i < x.script.length := Nat.lt_of_lt_of_le hi List.findIdx_le_length
    have hnot : settled x.script[i] = false := by simpa using List.not_of_lt_findIdx hi
    rw [reply, List.getElem?_eq_getElem hlt, Option.getD_some]
    simpa [settled] using hnot
  · by_cases hlt : x.script.findIdx settled < x.script.length
    · have hfound : settled x.script[x.script.findIdx settled] = true := List.findIdx_getElem
      rw [reply, List.getElem?_eq_getElem hlt, Option.getD_some]
      simpa [settled] using hfound
    · rw [reply, List.getElem?_eq_none (Nat.le_of_not_lt hlt)]
      rfl

/-- An exchange after a request, and after some more that each follow a pause. -/
def afterRequests (x : Exchange) (request : Request) (delay : Rat) (more : Nat) : Exchange :=
  { x with
    script := x.script.drop (more + 1)
    requests := x.requests ++ List.replicate (more + 1) request
    pauses := x.pauses ++ (List.range more).map fun i => delay * 2 ^ i }

variable {x : Exchange} {first : Nat} {request : Request} {delay : Rat}

theorem send_apply (request : Request) (x : Exchange) :
    send request x = (x.reply 0, x.afterRequests request 0 0) := by
  cases hscript : x.script <;> simp [send, reply, afterRequests, hscript]

theorem pause_apply (seconds : Rat) (x : Exchange) :
    pause seconds x = ((), { x with pauses := x.pauses ++ [seconds] }) := rfl

/-- A request and a pause come first, and then others with longer pauses. -/
theorem afterRequests_succ (x : Exchange) (request : Request) (delay : Rat) (more : Nat) :
    (pause delay (x.afterRequests request 0 0)).2.afterRequests request (delay * 2) more =
      x.afterRequests request delay (more + 1) := by
  have hpauses : delay :: (List.range more).map (fun i => delay * 2 * 2 ^ i) =
      (List.range (more + 1)).map fun i => delay * 2 ^ i := by
    rw [List.range_succ_eq_map, List.map_cons, List.map_map, pow_zero, mul_one]
    congr 1
    refine List.map_congr_left fun i _ => ?_
    simp only [Function.comp_apply, pow_succ]
    ring
  simp [afterRequests, pause_apply, ← hpauses, List.replicate_succ]

theorem AnsweredAt.eq_zero (h : x.AnsweredAt first) (hreply : (x.reply 0).asksPatience = false) :
    first = 0 := by
  by_contra hne
  have hpatient := h.patient 0 (Nat.pos_of_ne_zero hne)
  rw [hreply] at hpatient
  cases hpatient

/-- The replies after the first request, whatever is done in between. -/
theorem reply_afterRequests (x : Exchange) (request : Request) (delay : Rat) (i : Nat) :
    (pause delay (x.afterRequests request 0 0)).2.reply i = x.reply (i + 1) := by
  simp [reply, pause_apply, afterRequests]

theorem AnsweredAt.next (h : x.AnsweredAt first) (hreply : (x.reply 0).asksPatience = true)
    (request : Request) (delay : Rat) : ∃ next, first = next + 1 ∧
      (pause delay (x.afterRequests request 0 0)).2.AnsweredAt next := by
  obtain _ | next := first
  · rw [h.final] at hreply
    cases hreply
  · refine ⟨next, rfl, fun i hi => ?_, ?_⟩
    · rw [reply_afterRequests]
      exact h.patient (i + 1) (Nat.succ_lt_succ hi)
    · rw [reply_afterRequests]
      exact h.final

end Exchange

/-! ## Attempts over a channel -/

/-- What is done on a channel. -/
inductive Deed where
  | sent (request : Request)
  | paused (seconds : Rat)

/-- A channel on which requests are sent and pauses made. -/
structure Channel (σ : Type) where
  send : Request → StateM σ Reply
  pause : Rat → StateM σ Unit

namespace Channel

theorem bind_apply {σ α β : Type} (x : StateM σ α) (f : α → StateM σ β) (s : σ) :
    (x >>= f) s = f (x s).1 (x s).2 := rfl

/-- The channel to the assistant. -/
def toAssistant : Channel Exchange where
  send := Exchange.send
  pause := Exchange.pause

/-- The channel to the assistant, with all that is done on it in order. -/
def watched : Channel (Exchange × List Deed) where
  send request := fun (x, deeds) =>
    let (reply, x) := Exchange.send request x
    (reply, x, deeds ++ [.sent request])
  pause seconds := fun (x, deeds) => ((), (Exchange.pause seconds x).2, deeds ++ [.paused seconds])

theorem toAssistant_send (request : Request) : toAssistant.send request = Exchange.send request :=
  rfl

theorem toAssistant_pause (seconds : Rat) : toAssistant.pause seconds = Exchange.pause seconds :=
  rfl

theorem watched_send (request : Request) (x : Exchange) (past : List Deed) :
    watched.send request (x, past) = ((toAssistant.send request x).1,
      (toAssistant.send request x).2, past ++ [.sent request]) := rfl

theorem watched_pause (seconds : Rat) (x : Exchange) (past : List Deed) :
    watched.pause seconds (x, past) =
      ((), (toAssistant.pause seconds x).2, past ++ [.paused seconds]) := rfl

end Channel

namespace Client

/-- Send a request over some channel, and again up to `left` times while the reply asks for
patience. -/
def attemptOver {σ : Type} (channel : Channel σ) (c : Client) (request : Request) (delay : Rat) :
    Nat → StateM σ (Except CallError Json)
  | 0 => do
    match ← channel.send request with
    | .message blocks => pure (readMessage request.tool blocks)
    | .refused message => pure (.error (.refused message))
    | .rateLimited message => pure (.error (.rateLimited message))
    | .timedOut => pure (.error (.timedOut c.maxRetries c.timeout))
  | left + 1 => do
    match ← channel.send request with
    | .message blocks => pure (readMessage request.tool blocks)
    | .refused message => pure (.error (.refused message))
    | .rateLimited _ | .timedOut =>
      channel.pause delay
      attemptOver channel c request (delay * 2) left

/-- The attempts of a client are those over the channel to the assistant. -/
theorem attempt_eq_attemptOver (c : Client) (request : Request) (delay : Rat) (left : Nat) :
    c.attempt request delay left = c.attemptOver Channel.toAssistant request delay left := by
  induction left generalizing delay with
  | zero => rfl
  | succ left ih =>
    rw [attempt, attemptOver]
    simp only [ih]
    rfl

section Steps

variable {σ : Type} (channel : Channel σ) (c : Client) (request : Request) (delay : Rat) (s : σ)

/-- The last attempt ends with what the reply makes for. -/
theorem attemptOver_zero : c.attemptOver channel request delay 0 s =
    (c.answerTo request.tool (channel.send request s).1, (channel.send request s).2) := by
  rw [attemptOver, Channel.bind_apply]
  cases (channel.send request s).1 with
  | message blocks => rw [← readMessage_eq]; rfl
  | rateLimited message => rfl
  | timedOut => rfl
  | refused message => rfl

/-- Every other attempt is followed by a pause and more attempts, if the reply asks for
patience. -/
theorem attemptOver_succ (left : Nat) : c.attemptOver channel request delay (left + 1) s =
    if (channel.send request s).1.asksPatience = true then
      c.attemptOver channel request (delay * 2) left
        (channel.pause delay (channel.send request s).2).2
    else (c.answerTo request.tool (channel.send request s).1, (channel.send request s).2) := by
  rw [attemptOver, Channel.bind_apply]
  cases (channel.send request s).1 with
  | message blocks => rw [← readMessage_eq]; rfl
  | rateLimited message => rfl
  | timedOut => rfl
  | refused message => rfl

end Steps

/-- Watching changes nothing: what is sent, waited for and answered over the channel is the same. -/
theorem attemptOver_watched (c : Client) (request : Request) (delay : Rat) (left : Nat)
    (x : Exchange) (past : List Deed) :
    (c.attemptOver Channel.watched request delay left (x, past)).1 =
        (c.attempt request delay left x).1 ∧
      (c.attemptOver Channel.watched request delay left (x, past)).2.1 =
        (c.attempt request delay left x).2 := by
  rw [attempt_eq_attemptOver]
  induction left generalizing x past delay with
  | zero =>
    rw [attemptOver_zero, attemptOver_zero, Channel.watched_send]
    exact ⟨rfl, rfl⟩
  | succ left ih =>
    rw [attemptOver_succ, attemptOver_succ, Channel.watched_send, Channel.watched_pause]
    split
    next => exact ih (delay * 2) _ _
    next => exact ⟨rfl, rfl⟩

/-- A request, and some more that each follow a pause. -/
def deeds (request : Request) (delay : Rat) (more : Nat) : List Deed :=
  .sent request :: (List.range more).flatMap fun i => [.paused (delay * 2 ^ i), .sent request]

theorem deeds_succ (request : Request) (delay : Rat) (more : Nat) :
    .sent request :: .paused delay :: deeds request (delay * 2) more =
      deeds request delay (more + 1) := by
  have hdelay (i : Nat) : delay * 2 * 2 ^ i = delay * 2 ^ (i + 1) := by
    rw [pow_succ]
    ring
  simp [deeds, List.range_succ_eq_map, List.flatMap_map, hdelay]

/-- The attempts up to the first reply that does not ask for patience, or to the last attempt. -/
theorem attemptOver_answeredAt (c : Client) {x : Exchange} {first : Nat} (h : x.AnsweredAt first)
    (request : Request) (delay : Rat) (left : Nat) (past : List Deed) :
    c.attemptOver Channel.watched request delay left (x, past) =
      (c.answerTo request.tool (x.reply (min first left)),
        x.afterRequests request delay (min first left),
        past ++ deeds request delay (min first left)) := by
  have hsend (x : Exchange) (past : List Deed) : Channel.watched.send request (x, past) =
      (x.reply 0, x.afterRequests request 0 0, past ++ [.sent request]) := by
    rw [Channel.watched_send, Channel.toAssistant_send, Exchange.send_apply]
  induction left generalizing x first delay past with
  | zero =>
    rw [attemptOver_zero, hsend, Nat.min_zero]
    rfl
  | succ left ih =>
    rw [attemptOver_succ, hsend]
    cases hreply : (x.reply 0).asksPatience with
    | false =>
      rw [h.eq_zero hreply, if_neg (by simp), Nat.zero_min]
      rfl
    | true =>
      obtain ⟨next, rfl, hnext⟩ := h.next hreply request delay
      have hreplies := x.reply_afterRequests request delay (min next left)
      rw [if_pos rfl, Channel.watched_pause, Channel.toAssistant_pause, ih hnext (delay * 2),
        hreplies, Exchange.afterRequests_succ, Nat.succ_min_succ, ← deeds_succ]
      simp

/-- A question is sent at least once, and not more often than there are attempts. -/
theorem call_requests (c : Client) (system message : String) (tool : Tool) (maxTokens : Int)
    (x : Exchange) : ∃ times, 1 ≤ times ∧ times ≤ (max 1 c.maxRetries).toNat ∧
      (c.call system message tool maxTokens x).2.requests =
        x.requests ++ List.replicate times (c.request system message tool maxTokens) := by
  obtain ⟨first, h⟩ := x.exists_answeredAt
  let request := c.request system message tool maxTokens
  let left := (c.maxRetries - 1).toNat
  obtain ⟨-, hexchange⟩ := c.attemptOver_watched request c.retryDelay left x []
  rw [c.attemptOver_answeredAt h request c.retryDelay left []] at hexchange
  refine ⟨min first left + 1, Nat.succ_pos _, by omega, ?_⟩
  rw [call, ← hexchange]
  rfl

/-- How a question is put to the assistant, where `limit` is the number of attempts: what the call
answers, what it leaves of the exchange, and what is done on the channel in order. -/
structure Conducted (c : Client) (request : Request) (x : Exchange) (first limit : Nat)
    (answer : Except CallError Json) (x' : Exchange) (done : List Deed) : Prop where
  answeredAt : x.AnsweredAt first
  requests : x'.requests = x.requests ++ List.replicate (min (first + 1) limit) request
  pauses : x'.pauses = x.pauses ++
    (List.range (min (first + 1) limit - 1)).map fun i => c.retryDelay * 2 ^ i
  /-- One reply is taken for each request, and no client is opened or closed. -/
  rest : x'.script = x.script.drop (min (first + 1) limit) ∧ x'.opened = x.opened ∧
    x'.closed = x.closed
  /-- A request comes first, and each of the others behind a pause. -/
  done : done = .sent request :: (List.range (min (first + 1) limit - 1)).flatMap
    fun i => [.paused (c.retryDelay * 2 ^ i), .sent request]
  /-- The reply that does not ask for patience makes the answer, if there are attempts enough. -/
  answered : first < limit → answer = c.answerTo request.tool (x.reply first)
  /-- Otherwise the last reply does. -/
  gaveUp : limit ≤ first →
    (x.reply (limit - 1) = .timedOut ∧ answer = .error (.timedOut c.maxRetries c.timeout)) ∨
    ∃ message, x.reply (limit - 1) = .rateLimited message ∧ answer = .error (.rateLimited message)

/-- **Attempts.** Whatever the replies to come, a question is put with the same request until a
reply does not ask for patience, or the attempts are used up; there is always one. The pauses
between two requests begin with the delay of the client and grow twice as long each time; none
follows the last request. The call ends with the reply that does not ask for patience, and without
one it tells of the last: that the time ran out, or that there were too many requests. -/
theorem call_conducted (c : Client) (system message : String) (tool : Tool) (maxTokens : Int)
    (x : Exchange) :
    let request := c.request system message tool maxTokens
    let left := (c.maxRetries - 1).toNat
    ∃ first, c.Conducted request x first (max 1 c.maxRetries).toNat
      (c.call system message tool maxTokens x).1 (c.call system message tool maxTokens x).2
      (c.attemptOver Channel.watched request c.retryDelay left (x, [])).2.2 := by
  intro request left
  obtain ⟨first, h⟩ := x.exists_answeredAt
  have hrun := c.attemptOver_answeredAt h request c.retryDelay left []
  obtain ⟨hanswer, hexchange⟩ := c.attemptOver_watched request c.retryDelay left x []
  have hlimit : (max 1 c.maxRetries).toNat = left + 1 := by omega
  have hcount : min (first + 1) (left + 1) = min first left + 1 := Nat.succ_min_succ first left
  rw [hrun] at hanswer hexchange
  rw [call, hrun, ← hanswer, ← hexchange, hlimit]
  refine ⟨first, h, by rw [hcount]; rfl, by rw [hcount]; rfl, ⟨by rw [hcount]; rfl, rfl, rfl⟩,
    by rw [hcount]; rfl, fun hlt => ?_, fun hle => ?_⟩
  · rw [Nat.min_eq_left (Nat.lt_succ_iff.mp hlt)]
  · have hlast := h.patient left hle
    rw [Nat.min_eq_right (Nat.le_of_succ_le hle), Nat.add_sub_cancel]
    cases hreply : x.reply left with
    | timedOut => exact .inl ⟨rfl, rfl⟩
    | rateLimited message => exact .inr ⟨message, rfl, rfl⟩
    | message blocks =>
      rw [hreply] at hlast
      cases hlast
    | refused message =>
      rw [hreply] at hlast
      cases hlast

end Client

end DocHeader

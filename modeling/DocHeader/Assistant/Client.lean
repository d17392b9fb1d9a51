import DocHeader.Assistant.Prompt
import DocHeader.Settings.Basic

/-!
# The client of the assistant

A question is sent until it is answered: a reply that asks to come back later is waited
for, each wait twice as long as the one before, and the number of attempts is limited.
Every other failure ends the call at once.

What goes over the line is kept in an `Exchange`, together with the replies to come.

## Main definitions

* `Reply` — what the assistant replies to one request.
* `Exchange` — the replies to come, the requests and pauses so far, the clients opened
  and closed.
* `Client` — how requests are sent.
* `Client.call` — the input of the tool call that answers a question.
-/

namespace DocHeader

/-- A part of a reply. -/
inductive ReplyBlock where
  | text (text : String)
  /-- A call of the tool with its input. -/
  | call (input : Json)

/-- What the assistant replies to one request. -/
inductive Reply where
  | message (blocks : List ReplyBlock)
  | rateLimited (message : String)
  | timedOut
  | refused (message : String)

/-- A question as it is sent. -/
structure Request where
  model : String
  maxTokens : Int
  timeout : Numeral
  system : String
  tool : Tool
  message : String

/-- What went over the line, and what is to come. -/
structure Exchange where
  /-- The replies to come, one for each request. -/
  script : List Reply := []
  requests : List Request := []
  /-- The pauses between attempts, in seconds. -/
  pauses : List Rat := []
  /-- The number of clients opened. -/
  opened : Nat := 0
  /-- The number of times clients were closed. -/
  closed : Nat := 0

namespace Exchange

/-- The reply when no other is to come. -/
def silence : Reply := .refused "no scripted answer"

/-- Send a request and take the reply. -/
def send (request : Request) : StateM Exchange Reply := fun x =>
  let sent := { x with requests := x.requests ++ [request] }
  match x.script with
  | [] => (silence, sent)
  | reply :: rest => (reply, { sent with script := rest })

/-- Wait for some seconds. -/
def pause (seconds : Rat) : StateM Exchange Unit :=
  modify fun x => { x with pauses := x.pauses ++ [seconds] }

/-- Note that a client was opened. -/
def noteOpened : StateM Exchange Unit := modify fun x => { x with opened := x.opened + 1 }

/-- Note that a client was closed. -/
def noteClosed : StateM Exchange Unit := modify fun x => { x with closed := x.closed + 1 }

end Exchange

/-- Why a call has no answer. -/
inductive CallError where
  | rateLimited (message : String)
  | refused (message : String)
  /-- The last of `attempts` attempts took longer than allowed. -/
  | timedOut (attempts : Int) (timeout : Numeral)
  /-- The reply does not call the tool. -/
  | noToolCall (tool : String)
  deriving DecidableEq, Repr

/-- The wording of an error. -/
def CallError.message : CallError → String
  | .rateLimited message => message
  | .refused message => message
  | .timedOut attempts timeout =>
    "Claude API request timed out after " ++ toString attempts ++ " attempts of " ++ timeout.text ++
      " seconds each."
  | .noToolCall tool => "Claude API response contained no '" ++ tool ++ "' tool call."

/-- Half a minute, as a real number. -/
def halfMinute : Numeral := .real (.ofDecimal false 30 0)

/-- How requests are sent. -/
structure Client where
  apiKey : String
  model : String := TextSetting.model.initial
  /-- The number of attempts; one is always made. -/
  maxRetries : Int := 3
  /-- The seconds before the second attempt. -/
  retryDelay : Rat := 1
  /-- The seconds one attempt may take. -/
  timeout : Numeral := halfMinute

/-- Why there is no client. -/
inductive ClientError where
  /-- There is no key. -/
  | missingKey
  deriving DecidableEq, Repr

/-- The wording of an error. -/
def ClientError.message : ClientError → String
  | .missingKey =>
    "API key must be provided either as parameter or via ANTHROPIC_API_KEY environment variable"

namespace Client

/-- Open a client with a key, or with the key of the environment when that is empty. -/
def opened (env : Variables) (c : Client) : StateM Exchange (Except ClientError Client) :=
  let fromEnvironment := (env.get? apiKeyVariable).getD ""
  let key := if c.apiKey.isEmpty then fromEnvironment else c.apiKey
  if key.isEmpty then pure (.error .missingKey)
  else do
    Exchange.noteOpened
    pure (.ok { c with apiKey := key })

/-- The input of the first call of the tool among the parts of a reply. -/
def toolInput? : List ReplyBlock → Option Json
  | [] => none
  | .call input :: _ => some input
  | .text _ :: rest => toolInput? rest

/-- What a message says. -/
def readMessage (tool : Tool) (blocks : List ReplyBlock) : Except CallError Json :=
  match toolInput? blocks with
  | some input => .ok input
  | none => .error (.noToolCall tool.name)

/-- Send a request, and again up to `left` times while the reply asks for patience; the
first pause lasts `delay` seconds. -/
def attempt (c : Client) (request : Request) (delay : Rat) :
    Nat → StateM Exchange (Except CallError Json)
  | 0 => do
    match ← Exchange.send request with
    | .message blocks => pure (readMessage request.tool blocks)
    | .refused message => pure (.error (.refused message))
    | .rateLimited message => pure (.error (.rateLimited message))
    | .timedOut => pure (.error (.timedOut c.maxRetries c.timeout))
  | left + 1 => do
    match ← Exchange.send request with
    | .message blocks => pure (readMessage request.tool blocks)
    | .refused message => pure (.error (.refused message))
    | .rateLimited _ | .timedOut =>
      Exchange.pause delay
      c.attempt request (delay * 2) left

/-- The request for a question. -/
def request (c : Client) (system message : String) (tool : Tool) (maxTokens : Int) : Request :=
  { model := c.model, maxTokens, timeout := c.timeout, system, tool, message }

/-- Ask a question: the input of the tool call that answers it. -/
def call (c : Client) (system message : String) (tool : Tool) (maxTokens : Int := 1024) :
    StateM Exchange (Except CallError Json) :=
  c.attempt (c.request system message tool maxTokens) c.retryDelay (c.maxRetries - 1).toNat

/-- Close the client. -/
def close (_ : Client) : StateM Exchange Unit := Exchange.noteClosed

end Client

end DocHeader

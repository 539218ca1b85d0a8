import Mathlib.Data.List.Basic

/-!
# One streaming attempt

What `_stream_once` of `app/modules/proxy/service.py` yields and how it ends, for an
OpenAI account (over `stream_responses` of `app/core/clients/proxy.py`) and for a Kiro
account (`_stream_once_kiro`, over `stream_kiro_generation` of
`app/core/clients/kiro.py`). The upstream is an argument: what it answers to the
requests of the attempt.

An attempt is recorded as a list of items: the upstream requests it makes and the lines
it yields, in order. How it ends is an `Outcome`, one for each exception that
`_stream_with_retry` tells apart.
-/

namespace CodexOctopus

/-! ## Lines -/

inductive EventType : Type where
  | created
  | outputItemAdded
  | contentPartAdded
  | outputTextDelta
  | refusalDelta
  | outputTextDone
  | contentPartDone (isText : Bool)
  | outputItemDone
  | completed
  | incomplete
  | failed
  | error
  | other
  deriving DecidableEq

structure Line where
  type : EventType
  text : String := ""
  code : String := ""
  deriving DecidableEq

def EventType.isTextDelta : EventType → Bool
  | .outputTextDelta | .refusalDelta => true
  | _ => false

def responseFailedEvent (code : String) : Line := { type := .failed, code := code }

inductive Item : Type where
  /-- `_stream_once` starts -/
  | attempt
  | request
  | line (l : Line)
  /-- `_stream_with_retry` yields a line of its own -/
  | own (l : Line)
  deriving DecidableEq

inductive Outcome : Type where
  | finished
  | retryable (code : String)
  | transient (code : String)
  | terminal (code : String)
  /-- `ProxyResponseError` -/
  | proxyError (status : ℕ) (code : String)
  | exception

/-! ## OpenAI accounts -/

inductive WireEnd : Type where
  | closed
  | idleTimeout
  | eventTooLarge
  | circuitBreakerOpen
  | clientError
  | timeout
  | exception

def WireEnd.code : WireEnd → String
  | .closed => "stream_incomplete"
  | .idleTimeout => "stream_idle_timeout"
  | .eventTooLarge => "stream_event_too_large"
  | .circuitBreakerOpen => "upstream_unavailable"
  | .clientError => "upstream_unavailable"
  | .timeout => "upstream_request_timeout"
  | .exception => "upstream_error"

def Line.isTerminal (l : Line) : Bool :=
  match l.type with
  | .completed | .failed | .incomplete => true
  | _ => false

def upToTerminal : List Line → List Line
  | [] => []
  | l :: ls => if l.isTerminal then [l] else l :: upToTerminal ls

/-- What `stream_responses` yields once the upstream has accepted the request. -/
def streamResponses (blocks : List Line) (ending : WireEnd) : List Line :=
  if blocks.any Line.isTerminal then upToTerminal blocks
  else blocks ++ [responseFailedEvent ending.code]

inductive OpenAiReply : Type where
  /-- the admission gate rejects the attempt, before any request -/
  | overloaded
  | raised
  /-- an HTTP error, or a rejected handshake; `fallback` if a websocket handshake was
  rejected before and the request repeated over HTTP -/
  | rejected (fallback : Bool) (status : ℕ) (code : String)
  | accepted (fallback : Bool) (blocks : List Line) (ending : WireEnd)

def requests (fallback : Bool) : List Item := if fallback then [.request, .request] else [.request]

def accountRecoveryRetryCodes : List String :=
  ["rate_limit_exceeded", "usage_limit_reached", "insufficient_quota", "usage_not_included",
    "quota_exceeded", "refresh_token_expired", "refresh_token_reused",
    "refresh_token_invalidated", "account_deactivated", "account_suspended", "account_deleted"]

def transientRetryCodes : List String := ["server_error"]

def shouldSuppressTextDoneEvent (type : EventType) (suppressTextDoneEvents sawTextDelta : Bool) :
    Bool :=
  suppressTextDoneEvents && sawTextDelta &&
    match type with
    | .outputTextDone => true
    | .contentPartDone isText => isText
    | _ => false

/-- The lines of a stream that are yielded, with `saw_text_delta` so far. -/
def relay (suppressTextDoneEvents : Bool) : Bool → List Line → List Line
  | _, [] => []
  | sawTextDelta, l :: ls =>
    let saw := sawTextDelta || (suppressTextDoneEvents && l.type.isTextDelta)
    if shouldSuppressTextDoneEvent l.type suppressTextDoneEvents saw then
      relay suppressTextDoneEvents saw ls
    else l :: relay suppressTextDoneEvents saw ls

def Line.isError (l : Line) : Bool :=
  match l.type with
  | .failed | .error => true
  | _ => false

/-- `_stream_once` on the blocks of an accepted request: only an error in the first
block can raise. -/
def streamBlocks (allowRetry allowTransientRetry suppressTextDoneEvents : Bool) :
    List Line → List Line × Outcome
  | [] => ([], .finished)
  | first :: rest =>
    if first.isError then
      if allowRetry ∧ first.code ∈ accountRecoveryRetryCodes then ([], .retryable first.code)
      else if allowTransientRetry ∧ first.code ∈ transientRetryCodes then
        ([], .transient first.code)
      else ([first], .terminal first.code)
    else (relay suppressTextDoneEvents false (first :: rest), .finished)

def streamOnceOpenAi (allowRetry allowTransientRetry suppressTextDoneEvents : Bool) :
    OpenAiReply → List Item × Outcome
  | .overloaded => ([], .proxyError 429 "proxy_overloaded")
  | .raised => ([], .exception)
  | .rejected fallback status code => (requests fallback, .proxyError status code)
  | .accepted fallback blocks ending =>
    let (lines, outcome) := streamBlocks allowRetry allowTransientRetry suppressTextDoneEvents
      (streamResponses blocks ending)
    (requests fallback ++ lines.map .line, outcome)

/-! ## Kiro accounts -/

inductive KiroEvent : Type where
  | text (text : String)
  | usage (inputTokens outputTokens : Option ℕ)
  | error (message : String)
  | thinking (text : String)
  | toolUse

inductive EndpointReply : Type where
  | status (code : ℕ)
  | unreachable
  | events (events : List KiroEvent) (brokenOff : Bool)

def kiroTexts (events : List KiroEvent) : List String :=
  events.filterMap fun
    | .text t => if t = "" then none else some t
    | _ => none

def textDelta (text : String) : Line := { type := .outputTextDelta, text := text }

/-- `stream_kiro_generation` over the endpoints that remain: the items, and the code of a
`KiroUpstreamError`. An endpoint that fails with anything but 401 and 403 hands over to the next. -/
def streamKiroGeneration : (lastError : Bool) → List EndpointReply → List Item × Option String
  | lastError, [] => ([], if lastError then some "upstream_error" else none)
  | _, .status code :: endpoints =>
    if code = 401 ∨ code = 403 then ([.request], some "auth_error")
    else
      let (items, error) := streamKiroGeneration true endpoints
      (.request :: items, error)
  | _, .unreachable :: endpoints =>
    let (items, error) := streamKiroGeneration true endpoints
    (.request :: items, error)
  | _, .events events brokenOff :: endpoints =>
    let lines := (kiroTexts events).map fun t => Item.line (textDelta t)
    if brokenOff then
      let (items, error) := streamKiroGeneration true endpoints
      (.request :: lines ++ items, error)
    else (.request :: lines, none)

inductive KiroReply : Type where
  | raised
  | generation (first second : EndpointReply)

def kiroOpening : List Item :=
  [.line { type := .created }, .line { type := .outputItemAdded },
    .line { type := .contentPartAdded }]

def kiroClosing (outputText : String) : List Item :=
  [.line { type := .outputTextDone, text := outputText },
    .line { type := .contentPartDone true, text := outputText },
    .line { type := .outputItemDone, text := outputText },
    .line { type := .completed, text := outputText }]

def Item.deltaText : Item → String
  | .line l => if l.type.isTextDelta then l.text else ""
  | _ => ""

/-- `_stream_once_kiro`: a `KiroUpstreamError` becomes a `_RetryableStreamError`. -/
def streamOnceKiro : KiroReply → List Item × Outcome
  | .raised => ([], .exception)
  | .generation first second =>
    match streamKiroGeneration false [first, second] with
    | (items, none) =>
      (kiroOpening ++ items ++ kiroClosing (String.join (items.map Item.deltaText)), .finished)
    | (items, some code) => (kiroOpening ++ items, .retryable code)

/-! ## Either kind -/

inductive StreamReply : Type where
  | openAi (reply : OpenAiReply)
  | kiro (reply : KiroReply)

def streamOnce (allowRetry allowTransientRetry suppressTextDoneEvents : Bool) :
    StreamReply → List Item × Outcome
  | .openAi reply => streamOnceOpenAi allowRetry allowTransientRetry suppressTextDoneEvents reply
  | .kiro reply => streamOnceKiro reply

end CodexOctopus

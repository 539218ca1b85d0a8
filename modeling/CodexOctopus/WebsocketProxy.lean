import CodexOctopus.Run
import CodexOctopus.RequestMatching
import CodexOctopus.StreamOnce

/-!
# The downstream websocket proxy

`proxy_responses_websocket` of `app/modules/proxy/service.py`: a main loop that takes the
messages of one client, and a reader task for the upstream websocket it has opened. They
share the deque of pending requests, the create gate, and the control record of the
upstream, in which the reader asks for a reconnection and leaves a request to be replayed.

* `MainPhase` and `ReaderPhase` are the await points of the two tasks.
* `websocketStep` interleaves the two tasks, the client and the upstream.

Between two await points a task is not interrupted, so what it does there is one step. The
upstream is not described: any event may come at any time.
-/

namespace CodexOctopus

/-! ## The two tasks -/

/-- Where the main loop is. A request is named until it is registered in the deque; then it
is known by its id. -/
inductive MainPhase : Type where
  | top
  | receiving
  /-- has a client message, a `response.create` or another one -/
  | received (r : Option RequestState)
  /-- in `_prepare_websocket_response_create_request` -/
  | preparing (r : RequestState)
  | joining (r : RequestState)
  | atGate (r : RequestState)
  | admitting (r : RequestState)
  | connecting (requestId : ℕ)
  | sending (requestId : Option ℕ)
  | failing
  | replaying (requestId : ℕ)
  | resending (requestId : ℕ)
  | ended
  deriving DecidableEq

inductive ReaderPhase : Type where
  | receiving
  | settling (penalize : Bool)
  | checking
  | failing (timedOut : Bool)
  | closing
  | done (raised : Bool)
  deriving DecidableEq

def ReaderPhase.isRunning : ReaderPhase → Bool
  | .done _ => false
  | _ => true

structure WebsocketState where
  main : MainPhase
  /-- `upstream_reader`, which is set together with `upstream` and `upstream_control` -/
  reader : Option ReaderPhase
  upstreamOpen : Bool
  /-- `upstream_control` -/
  reconnectRequested : Bool
  replayRequest : Option ℕ
  pending : List RequestState
  gatePermits : ℕ
  requestIds : List ℕ

def newWebsocket : WebsocketState := ⟨.top, none, false, false, none, [], 1, []⟩

namespace WebsocketState

/-! ## Failures -/

def failAll (s : WebsocketState) : WebsocketState :=
  { s with pending := [], gatePermits := s.gatePermits + permits s.pending }

def failExpired (s : WebsocketState) (expired : List ℕ) : WebsocketState :=
  { s with
    pending := s.pending.filter (·.requestId ∉ expired)
    gatePermits := s.gatePermits + permits (s.pending.filter (·.requestId ∈ expired)) }

def drop (s : WebsocketState) (requestId : ℕ) : WebsocketState :=
  { s with
    pending := removeRequest requestId s.pending
    gatePermits := s.gatePermits + permits (s.pending.filter (·.requestId = requestId)) }

/-- `_fail_pending_websocket_requests` on a deque of its own: the request stays in the deque
of the connection. -/
def failAlone (s : WebsocketState) (requestId : ℕ) : WebsocketState :=
  { s with
    pending := setRequest requestId ({ · with gateAcquired := false }) s.pending
    gatePermits := s.gatePermits + permits (s.pending.filter (·.requestId = requestId)) }

def disconnect (s : WebsocketState) : WebsocketState :=
  { s with reader := none, upstreamOpen := false, reconnectRequested := false, replayRequest := none
    }

def connect (s : WebsocketState) : WebsocketState :=
  { s with
    reader := some .receiving
    upstreamOpen := true
    reconnectRequested := false
    replayRequest := none }

def finish (s : WebsocketState) : WebsocketState := { s.disconnect.failAll with main := .ended }

end WebsocketState

/-! ## Upstream events -/

def websocketMatch (pending : List RequestState) (e : UpstreamEvent) :
    Option RequestState × List RequestState :=
  if e.type = .created then assignResponseId pending e.responseId
  else
    match e.responseId.bind (findByResponseId pending), pending with
    | some r, _ => (some r, pending)
    | none, [r] => (some r, pending)
    | none, _ => (none, pending)

def websocketRequestReplayErrorCodes : List String :=
  ["usage_limit_reached", "rate_limit_exceeded", "insufficient_quota", "usage_not_included",
    "quota_exceeded"]

def UpstreamEventType.isError (t : UpstreamEventType) : Bool := t = .failed || t = .error

def UpstreamEvent.mayReplay (e : UpstreamEvent) : Bool :=
  e.type.isError && e.errorCode.any (· ∈ websocketRequestReplayErrorCodes)

/-- An error that counts against the account: `_should_penalize_stream_error`. -/
def UpstreamEvent.penalizes (e : UpstreamEvent) : Bool :=
  e.type.isError && e.errorCode.any (· ∈ accountRecoveryRetryCodes)

def websocketTerminal (pending : List RequestState) (e : UpstreamEvent) : Option RequestState :=
  let (matched, pending) := websocketMatch pending e
  if e.type.isTerminal then terminalRequest pending e.responseId matched else none

/-- The request that an event queues for replay: the only pending one, of which the client has seen
nothing. -/
def replayTarget (pending : List RequestState) (e : UpstreamEvent) : Option RequestState :=
  (websocketTerminal pending e).filter fun r =>
    e.mayReplay && !r.downstreamCommitted && pending.length = 1

namespace WebsocketState

def text (s : WebsocketState) (e : UpstreamEvent) : WebsocketState :=
  match replayTarget s.pending e, websocketTerminal s.pending e, websocketMatch s.pending e with
  -- the request goes back to the front of the deque and keeps its gate
  | some r, _, _ => { s with
      pending := { r with responseId := none } :: removeRequest r.requestId s.pending
      reader := some (.settling false)
      reconnectRequested := true
      replayRequest := some r.requestId }
  | none, some r, (matched, pending) => { s with
      pending := removeRequest r.requestId (matched.elim pending fun q =>
        setRequest q.requestId ({ · with downstreamCommitted := true }) pending)
      reader := some (.settling e.penalizes)
      gatePermits := s.gatePermits + r.permit }
  | none, none, (some q, pending) => { s with
      pending := setRequest q.requestId (fun q => { q with
        downstreamCommitted := true
        gateAcquired := q.gateAcquired && e.type ≠ .created }) pending
      reader := some (.settling false)
      gatePermits := s.gatePermits + if e.type = .created then q.permit else 0 }
  | none, none, (none, pending) =>
    { s with pending := pending, reader := some (.settling false) }

def pollReader (s : WebsocketState) (next : WebsocketState → WebsocketState) : WebsocketState :=
  match s.reader with
  | some (.done true) => s.finish
  | some (.done false) =>
    match s.replayRequest with
    | some requestId => { s.disconnect with main := .replaying requestId }
    | none => next s.disconnect
  | _ => next s

def accept (s : WebsocketState) : Option RequestState → WebsocketState
  | some r => { s with main := .preparing r }
  | none => { s with main := if s.reader = none then .top else .sending none }

end WebsocketState

/-! ## Steps -/

inductive WebsocketAct : Type where
  | loop
  | poll
  | receive (r : Option RequestState)
  | leave
  | accept
  | prepare
  | prepareFailed
  | join
  | acquire
  | refuse
  | register
  | connect
  | connectFailed
  | send
  | sendFailed
  | recover
  | replayConnect
  | replayConnectFailed
  | resend
  | resendFailed
  | text (e : UpstreamEvent)
  | settle
  | check
  | idleTimeout
  | budgetTimeout (expired : List ℕ)
  | upstreamClosed
  | failed
  | close
  | raised
  deriving DecidableEq

def WebsocketAct.ofReader : WebsocketAct → Bool
  | .text _ | .settle | .check | .idleTimeout | .budgetTimeout _ | .upstreamClosed | .failed
  | .close | .raised => true
  | _ => false

def mainStep (s : WebsocketState) : WebsocketAct → MainPhase → Option WebsocketState
  | .loop, .top => some (s.pollReader fun s => { s with main := .receiving })
  | .poll, .receiving => some { s with main := .top }
  | .receive none, .receiving => some { s with main := .received none }
  | .receive (some r), .receiving =>
    if r.requestId ∈ s.requestIds ∨ r.gateAcquired then none
    else some { s with main := .received (some r), requestIds := r.requestId :: s.requestIds }
  | .accept, .received m => some (s.pollReader fun s => s.accept m)
  | .prepare, .preparing r =>
    if s.reconnectRequested ∧ s.reader ≠ none then some { s with main := .joining r }
    else some { s with main := .atGate r }
  | .prepareFailed, .preparing _ => some { s with main := .top }
  | .join, .joining r =>
    match s.reader with
    | some (.done true) => some s.finish
    -- the source does not look at replay_request_state here
    | some (.done false) => some { s.disconnect with main := .atGate r }
    | _ => none
  | .acquire, .atGate r =>
    if s.gatePermits = 0 then none
    else some { s with
      main := .admitting { r with gateAcquired := true }
      gatePermits := s.gatePermits - 1 }
  | .refuse, .admitting r => some { s with main := .top, gatePermits := s.gatePermits + r.permit }
  | .register, .admitting r =>
    some { s with
      main := if s.reader = none then .connecting r.requestId else .sending (some r.requestId)
      pending := s.pending ++ [r] }
  | .connect, .connecting id => some { s.connect with main := .sending (some id) }
  | .connectFailed, .connecting id => some { s.drop id with main := .top }
  | .send, .sending _ => if s.upstreamOpen then some { s with main := .top } else none
  | .sendFailed, .sending _ => some { s.failAll with main := .failing }
  | .recover, .failing => some { s.disconnect with main := .top }
  | .replayConnect, .replaying id => some { s.connect with main := .resending id }
  | .replayConnectFailed, .replaying id => some { s.drop id with main := .top }
  | .resend, .resending _ => if s.upstreamOpen then some { s with main := .top } else none
  | .resendFailed, .resending id => some { (s.failAlone id).disconnect with main := .top }
  | .leave, phase => if phase = .ended then none else some s.finish
  | _, _ => none

def readerStep (s : WebsocketState) : WebsocketAct → ReaderPhase → Option WebsocketState
  | .text e, .receiving => some (s.text e)
  | .settle, .settling penalize =>
    some { s with
      reader := some .checking
      reconnectRequested := s.reconnectRequested || penalize }
  | .check, .checking =>
    if s.reconnectRequested ∧ (s.replayRequest ≠ none ∨ s.pending = []) then
      some { s with reader := some .closing }
    else some { s with reader := some .receiving }
  -- the deque may have become empty since the timeout was computed
  | .idleTimeout, .receiving => some { s.failAll with reader := some (.failing true) }
  | .budgetTimeout expired, .receiving => some (s.failExpired expired)
  | .upstreamClosed, .receiving =>
    some { s.failAll with reader := some (.failing false), upstreamOpen := false }
  | .failed, .failing timedOut =>
    some { s with
      reader := some (if timedOut then .closing else .done false)
      reconnectRequested := s.reconnectRequested || timedOut }
  | .close, .closing => some { s with reader := some (.done false), upstreamOpen := false }
  | .raised, phase => if phase.isRunning then some { s with reader := some (.done true) } else none
  | _, _ => none

def websocketStep (s : WebsocketState) (a : WebsocketAct) : Option WebsocketState :=
  if a.ofReader then s.reader.bind (readerStep s a) else mainStep s a s.main

end CodexOctopus

import CodexOctopus.Run
import CodexOctopus.RequestMatching

/-!
# The pending requests of a bridge session

One HTTP bridge session of `app/modules/proxy/service.py`: requests are submitted to one
upstream websocket, and the reader task matches what comes back with `pending_requests`
and puts it on the event queue of the request it has found. A semaphore, the create gate,
lets one request at a time wait for its `response.created`.

* `matchRequest`, `terminalRequest` and `PendingState.process` are the matching of
  `_process_http_bridge_upstream_text`.
* `mayEmit` is the upstream. Each event has a source, the request it answers, which the proxy
  does not see.
* `pendingStep` interleaves submits, disconnects, timeouts, reconnections and upstream
  events. A reconnection is one step, and so is the processing of an event.

What upstream emitted, what was put on which queue, and which request was settled by whose
terminal event is kept as history.
-/

namespace CodexOctopus

open Table

/-! ## Matching -/

def matchRequest (pending : List RequestState) (e : UpstreamEvent) :
    Option RequestState × List RequestState :=
  if e.type = .created then assignResponseId pending e.responseId
  else
    match e.responseId with
    | some id => (findByResponseId pending id, pending)
    | none =>
      match pending with
      | [r] => (some r, pending)
      | _ => (none, pending)

/-! ## The session -/

structure QueuePut where
  queue : ℕ
  source : ℕ
  event : UpstreamEvent
  deriving DecidableEq

structure PendingState where
  pending : List RequestState
  waiting : List RequestState
  sending : List RequestState
  /-- requests to be sent on the fresh upstream, and whether by their own submit -/
  resending : List (ℕ × Bool)
  prewarming : List ℕ
  replayed : List ℕ
  gatePermits : ℕ
  queuedRequestCount : ℕ
  closed : Bool
  reading : Bool
  inflight : List UpstreamResponse
  requestIds : List ℕ
  detached : List ℕ
  created : List (String × ℕ)
  emitted : List (ℕ × UpstreamEvent)
  puts : List QueuePut
  settled : List (ℕ × ℕ)

def newPending : PendingState :=
  ⟨[], [], [], [], [], [], 1, 0, false, true, [], [], [], [], [], [], []⟩

def PendingState.remove (s : PendingState) (r : RequestState) : PendingState :=
  { s with
    pending := removeRequest r.requestId s.pending
    gatePermits := s.gatePermits + r.permit
    queuedRequestCount := s.queuedRequestCount - 1
    detached := r.requestId :: s.detached }

/-- `_cleanup_http_bridge_submit_interruption`. A request that is no longer in the deque has given
its permit back. -/
def PendingState.cleanup (s : PendingState) (requestId : ℕ) : PendingState :=
  match lookup RequestState.requestId s.pending requestId with
  | none => { s with queuedRequestCount := s.queuedRequestCount - 1 }
  | some r => s.remove r

/-- A submit that could not send its request: the session is closed with its upstream. -/
def PendingState.abandon (s : PendingState) (requestId : ℕ) : PendingState :=
  { s.cleanup requestId with closed := true, inflight := [] }

/-- `_fail_pending_websocket_requests`, after which the reader ends. -/
def PendingState.failAll (s : PendingState) : PendingState :=
  { s with
    pending := []
    gatePermits := s.gatePermits + permits s.pending
    queuedRequestCount := 0
    closed := true
    reading := false
    inflight := []
    detached := s.pending.map RequestState.requestId ++ s.detached }

def PendingState.reconnect (s : PendingState) (requestId : ℕ) : PendingState :=
  { s with
    closed := false
    reading := true
    inflight := []
    replayed := requestId :: s.replayed }

def PendingState.reconnectFailed (s : PendingState) (requestId : ℕ) : PendingState :=
  { s with reading := false, inflight := [], replayed := requestId :: s.replayed }

def retryableRequests (pending : List RequestState) : List RequestState :=
  pending.filter fun r => r.responseId = none ∧ r.gateAcquired

/-- The upstream is lost, or silent for too long: the only request that is not created yet is sent
again, else all fail. -/
def PendingState.lost (s : PendingState) (reconnected : Bool) : PendingState :=
  match retryableRequests s.pending with
  | [r] =>
    if r.hasPreviousResponseId ∨ r.requestId ∈ s.replayed then s.failAll
    else if reconnected then
      { s.reconnect r.requestId with resending := (r.requestId, false) :: s.resending }
    else (s.reconnectFailed r.requestId).failAll
  | _ => s.failAll

def PendingState.sendFailed (s : PendingState) (r : RequestState) (reconnected : Bool) :
    PendingState :=
  if r.prewarm then s.cleanup r.requestId
  else if r.hasPreviousResponseId ∨ r.requestId ∈ s.replayed then s.abandon r.requestId
  else if reconnected then
    { s.reconnect r.requestId with resending := (r.requestId, true) :: s.resending }
  else (s.reconnectFailed r.requestId).abandon r.requestId

def PendingState.process (s : PendingState) (source : ℕ) (e : UpstreamEvent) : PendingState :=
  let (matched, pending) := matchRequest s.pending e
  let created := if e.type = .created then matched else none
  let terminal := if e.type.isTerminal then terminalRequest pending e.responseId matched else none
  let queues := matched.toList ++ terminal.toList.filter fun r => some r ≠ matched
  { s with
    pending := match created, terminal with
      -- the gate is released at response.created
      | some r, _ => setRequest r.requestId ({ · with gateAcquired := false }) pending
      | none, some r => removeRequest r.requestId pending
      | none, none => pending
    gatePermits := s.gatePermits + (created.elim 0 RequestState.permit) +
      (terminal.elim 0 RequestState.permit)
    queuedRequestCount :=
      if terminal = none then s.queuedRequestCount else s.queuedRequestCount - 1
    puts := s.puts ++ queues.map fun r => ⟨r.requestId, source, e⟩
    settled := s.settled ++ terminal.toList.map fun r => (r.requestId, source) }

/-! ## The upstream -/

/-- What the upstream may emit for a response: `response.created` with a fresh id, in the order the
messages were sent, then other events. An event that carries an id carries that one. -/
def mayEmit (s : PendingState) (u : UpstreamResponse) (e : UpstreamEvent) : Bool :=
  match u.responseId, e.responseId with
  | none, some id =>
    e.type = .created && s.inflight.find? (·.responseId = none) = some u &&
      id ∉ s.created.map Prod.fst
  | none, none => false
  | some id, eventId => e.type ≠ .created && (eventId = none || eventId = some id)

def PendingState.upstream (s : PendingState) (source : ℕ) (e : UpstreamEvent) : PendingState :=
  { s.process source e with
    inflight := inflightAfter s.inflight source e
    created :=
      if e.type = .created then e.responseId.toList.map (·, source) ++ s.created else s.created
    emitted := if source ∈ s.detached then s.emitted else s.emitted ++ [(source, e)] }

def PendingState.sent (s : PendingState) (requestId : ℕ) : PendingState :=
  { s with inflight := if s.reading then s.inflight ++ [⟨requestId, none⟩] else s.inflight }

/-! ## Steps -/

inductive PendingAct : Type where
  | reopen (requestId : ℕ) (reconnected : Bool)
  /-- a submit has passed the queue check, or starts the prewarm request -/
  | enter (r : RequestState)
  | acquire (requestId : ℕ)
  /-- a submit ends before its request is in the deque: refused admission or cancelled -/
  | leave (requestId : ℕ) (cancelled : Bool)
  | append (requestId : ℕ)
  | send (requestId : ℕ)
  | sendFailed (requestId : ℕ) (reconnected : Bool)
  | interrupt (requestId : ℕ)
  | prewarmFailed (requestId : ℕ)
  | detach (requestId : ℕ)
  | upstream (source : ℕ) (e : UpstreamEvent)
  | lost (reconnected : Bool)
  | resend (requestId : ℕ)
  | resendFailed (requestId : ℕ)

def UpstreamEventType.isFailure (t : UpstreamEventType) : Bool :=
  t = .failed || t = .incomplete || t = .error

def PendingState.prewarmHasFailed (s : PendingState) (requestId : ℕ) : Bool :=
  requestId ∈ s.detached || s.puts.any fun p => p.queue = requestId && p.event.type.isFailure

def PendingState.receiving (s : PendingState) : Bool := s.reading && s.resending.all Prod.snd

def pendingStep (queueLimit : ℕ) (s : PendingState) : PendingAct → Option PendingState
  | .reopen requestId reconnected =>
    if s.closed ∧ requestId ∉ s.requestIds then
      some (if reconnected then s.reconnect requestId else s.reconnectFailed requestId)
    else none
  | .enter r =>
    if r.requestId ∈ s.requestIds ∨ r.responseId ≠ none ∨ r.gateAcquired ∨
      (¬r.prewarm ∧ queueLimit ≤ s.queuedRequestCount) then none
    else
      some { s with
        waiting := s.waiting ++ [r]
        requestIds := r.requestId :: s.requestIds
        -- a prewarm request is not counted
        queuedRequestCount := s.queuedRequestCount + if r.prewarm then 0 else 1 }
  | .acquire requestId =>
    match lookup RequestState.requestId s.waiting requestId with
    | none => none
    | some r =>
      if r.gateAcquired ∨ s.gatePermits = 0 then none
      else some { s with
        waiting := setRequest requestId ({ · with gateAcquired := true }) s.waiting
        gatePermits := s.gatePermits - 1 }
  | .leave requestId cancelled =>
    match lookup RequestState.requestId s.waiting requestId with
    | none => none
    | some r => some { s with
        waiting := removeRequest requestId s.waiting
        gatePermits := s.gatePermits + r.permit
        -- a cancelled prewarm does not come to its cleanup
        queuedRequestCount := s.queuedRequestCount - if r.prewarm ∧ cancelled then 0 else 1 }
  | .append requestId =>
    match lookup RequestState.requestId s.waiting requestId with
    | none => none
    | some r =>
      if r.gateAcquired then
        some { s with
          waiting := removeRequest requestId s.waiting
          pending := s.pending ++ [r]
          sending := s.sending ++ [r] }
      else none
  | .send requestId =>
    match lookup RequestState.requestId s.sending requestId with
    | none => none
    | some r => some (PendingState.sent { s with
        sending := removeRequest requestId s.sending
        prewarming := if r.prewarm then requestId :: s.prewarming else s.prewarming } requestId)
  | .sendFailed requestId reconnected =>
    match lookup RequestState.requestId s.sending requestId with
    | none => none
    | some r =>
      some (PendingState.sendFailed { s with sending := removeRequest requestId s.sending }
        r reconnected)
  | .interrupt requestId =>
    match lookup RequestState.requestId s.sending requestId with
    | some r =>
      let s := { s with sending := removeRequest requestId s.sending }
      some (if r.prewarm then s else s.cleanup requestId)
    | none =>
      -- there is no cleanup for a submit that is cancelled in its error handler
      if (requestId, true) ∈ s.resending then
        some { s with resending := s.resending.erase (requestId, true) }
      else none
  | .prewarmFailed requestId =>
    if requestId ∈ s.prewarming ∧ s.prewarmHasFailed requestId then
      some (PendingState.cleanup { s with prewarming := s.prewarming.erase requestId } requestId)
    else none
  | .detach requestId =>
    match lookup RequestState.requestId s.pending requestId with
    | none => none
    | some r =>
      -- its submit has returned
      if r.prewarm ∨ requestId ∈ s.sending.map RequestState.requestId ∨
        (requestId, true) ∈ s.resending then none
      else some (s.remove r)
  | .upstream source e =>
    match lookup UpstreamResponse.owner s.inflight source with
    | none => none
    | some u => if s.receiving ∧ mayEmit s u e then some (s.upstream source e) else none
  | .lost reconnected => if s.receiving then some (s.lost reconnected) else none
  | .resend requestId =>
    match lookup Prod.fst s.resending requestId with
    | none => none
    | some x => some (PendingState.sent { s with resending := s.resending.erase x } requestId)
  | .resendFailed requestId =>
    match lookup Prod.fst s.resending requestId with
    | none => none
    | some x =>
      let s := { s with resending := s.resending.erase x }
      some (if x.2 then s.abandon requestId else s.failAll)

end CodexOctopus

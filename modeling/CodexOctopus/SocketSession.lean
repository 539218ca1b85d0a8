import CodexOctopus.PendingRequests

/-!
# A bridge session with its sockets and tasks

`PendingState` reconnects in one step. Here the same functions of
`app/modules/proxy/service.py` are cut at their await points, so that other tasks come in
between: while a submit or the reader opens a fresh upstream, and between the reset of
`queued_request_count` and the failure of the pending requests.

* `Submit` is a task in `_submit_http_bridge_request` or in its prewarm.
* `SocketReaderPhase` are the await points of `_relay_http_bridge_upstream_messages`. The
  session knows the reader it has started last, but an older one may still run.
* `socketStep` interleaves the submits, the readers, the clients and the close of the session
  by others (replacement, eviction, shutdown).

Sockets are numbered, and it is recorded on which one a request was sent. The upstream is not
described: any event may come, and any send or connection may fail.
-/

namespace CodexOctopus

open Option Table

/-! ## Tasks -/

inductive SubmitPhase : Type where
  /-- opens a fresh upstream because the session was closed -/
  | reopening
  | checking
  | waiting
  | admitted
  | sending
  /-- opens a fresh upstream because the send has failed -/
  | reconnecting
  | resending
  | reading
  deriving DecidableEq

structure Submit where
  request : RequestState
  phase : SubmitPhase

def Submit.requestId (t : Submit) : ℕ := t.request.requestId

inductive SocketReaderPhase : Type where
  | receiving
  | reconnecting (requestId : ℕ)
  | resending (requestId : ℕ)
  /-- is about to reset `queued_request_count` -/
  | resetting
  | failing
  | ending
  deriving DecidableEq

structure SocketSession where
  pending : List RequestState
  submits : List Submit
  readers : List (ℕ × SocketReaderPhase)
  /-- `upstream_reader` -/
  reader : ℕ
  /-- `upstream` -/
  socket : ℕ
  sockets : ℕ
  gatePermits : ℕ
  queuedRequestCount : ℕ
  closed : Bool
  prewarmed : Bool
  replayed : List ℕ
  requestIds : List ℕ
  failures : List ℕ
  sent : List (ℕ × ℕ)
  /-- requests that were in the deque when a reader reset the counter -/
  dropped : List ℕ

def newSocketSession : SocketSession :=
  ⟨[], [], [(0, .receiving)], 0, 0, 1, 1, 0, false, false, [], [], [], [], []⟩

/-! ## Events -/

def eventTargets (pending : List RequestState) (e : UpstreamEvent) :
    Option RequestState × Option RequestState :=
  let (matched, pending) := matchRequest pending e
  (if e.type = .created then matched else none,
    if e.type.isTerminal then terminalRequest pending e.responseId matched else none)

/-- The deque after an event; the gate is released at `response.created`. -/
def dequeAfter (pending : List RequestState) (e : UpstreamEvent) : List RequestState :=
  match eventTargets pending e with
  | (some r, _) => setRequest r.requestId ({ · with gateAcquired := false })
      (matchRequest pending e).2
  | (none, some r) => removeRequest r.requestId (matchRequest pending e).2
  | (none, none) => (matchRequest pending e).2

/-- **What an event does to the deque**: it takes out the request that it ends, or it changes
one request at most. -/
theorem dequeAfter_cases (pending : List RequestState) (e : UpstreamEvent) :
    (∃ r ∈ pending, (eventTargets pending e).2 = some r ∧
      dequeAfter pending e = removeRequest r.requestId pending) ∨
    ((eventTargets pending e).2 = none ∧ ∃ id f,
      (∀ q : RequestState, (f q).requestId = q.requestId ∧ (f q).prewarm = q.prewarm) ∧
      dequeAfter pending e = setRequest id f pending) := by
  have hsame : ∀ id, setRequest id (fun q => q) pending = pending := by
    intro id
    simp [setRequest, updateWhere]
  by_cases hc : e.type = .created
  · have hmatch : matchRequest pending e = assignResponseId pending e.responseId := if_pos hc
    have hterminal : e.type.isTerminal = false := by rw [hc]; rfl
    refine .inr ⟨by simp [eventTargets, hterminal], ?_⟩
    rcases assignResponseId_cases pending e.responseId with
      heq | ⟨id, r, hid, hfind, heq⟩ | ⟨id, r, hid, hfind, hhead, heq⟩
    · exact ⟨0, fun q => q, fun q => ⟨rfl, rfl⟩, by
        simp [dequeAfter, eventTargets, hc, hmatch, heq, UpstreamEventType.isTerminal, hsame]⟩
    · exact ⟨r.requestId, ({ · with gateAcquired := false }), fun q => ⟨rfl, rfl⟩, by
        simp [dequeAfter, eventTargets, hc, hmatch, heq]⟩
    · refine ⟨r.requestId, fun q => { q with responseId := some id, gateAcquired := false },
        fun q => ⟨rfl, rfl⟩, ?_⟩
      simp only [dequeAfter, eventTargets, hc, hmatch, heq, if_true]
      rw [setRequest_setRequest]
      · rfl
      · exact fun _ => rfl
  · have hdeque : (matchRequest pending e).2 = pending := by
      unfold matchRequest
      rw [if_neg hc]
      split
      · rfl
      · split <;> rfl
    rcases hend : (eventTargets pending e).2 with _ | r
    · refine .inr ⟨rfl, 0, fun q => q, fun q => ⟨rfl, rfl⟩, ?_⟩
      have htargets : eventTargets pending e = (none, none) :=
        Prod.ext (by simp [eventTargets, hc]) hend
      rw [dequeAfter, htargets, hsame]
      exact hdeque
    · refine .inl ⟨r, ?_, rfl, ?_⟩
      · simp only [eventTargets, hdeque] at hend
        split at hend
        · exact mem_of_terminalRequest hend
        · cases hend
      · have htargets : eventTargets pending e = (none, some r) :=
          Prod.ext (by simp [eventTargets, hc]) hend
        simp only [dequeAfter, htargets, hdeque]

theorem exists_mem_of_dequeAfter {pending : List RequestState} {e : UpstreamEvent}
    {r : RequestState}
    (hr : r ∈ dequeAfter pending e) : ∃ q ∈ pending, q.requestId = r.requestId := by
  rcases dequeAfter_cases pending e with ⟨p, -, -, hdeque⟩ | ⟨-, i, f, hf, hdeque⟩ <;>
    rw [hdeque] at hr
  · exact ⟨r, (mem_removeRequest.mp hr).1, rfl⟩
  · rcases mem_setRequest hr with ⟨p, hp, -, rfl⟩ | ⟨hr, -⟩
    · exact ⟨p, hp, (hf p).1.symm⟩
    · exact ⟨r, hr, rfl⟩

namespace SocketSession

/-! ## Operations -/

def submit (s : SocketSession) (requestId : ℕ) : Option Submit :=
  lookup Submit.requestId s.submits requestId

def setPhase (s : SocketSession) (requestId : ℕ) (phase : SubmitPhase) : SocketSession :=
  { s with
    submits := updateWhere (·.requestId = requestId) ({ · with phase := phase }) s.submits }

def endSubmit (s : SocketSession) (requestId : ℕ) : SocketSession :=
  { s with submits := s.submits.filter (·.requestId ≠ requestId) }

def setReader (s : SocketSession) (reader : ℕ) (phase : SocketReaderPhase) : SocketSession :=
  { s with
    readers := updateWhere (·.1 = reader) (fun x => (x.1, phase)) s.readers }

def endReader (s : SocketSession) (reader : ℕ) : SocketSession :=
  { s with
    readers := s.readers.filter (·.1 ≠ reader)
    closed := s.closed || s.readers.any (·.1 = reader) }

def hasReader (s : SocketSession) : Bool := s.readers.any (·.1 = s.reader)

/-- `_reconnect_http_bridge_session` by a submit, up to the fresh upstream: the reader is
cancelled and the old upstream closed. -/
def startReconnect (s : SocketSession) (requestId : ℕ) : SocketSession :=
  { s.endReader s.reader with replayed := requestId :: s.replayed }

def connected (s : SocketSession) : SocketSession :=
  { s with socket := s.sockets, sockets := s.sockets + 1, closed := false }

def restartReader (s : SocketSession) : SocketSession :=
  { s with readers := (s.socket, .receiving) :: s.readers, reader := s.socket }

def record (s : SocketSession) (requestId : ℕ) : SocketSession :=
  { s with sent := (requestId, s.socket) :: s.sent }

def remove (s : SocketSession) (r : RequestState) : SocketSession :=
  { s with
    pending := removeRequest r.requestId s.pending
    gatePermits := s.gatePermits + r.permit }

def cleanup (s : SocketSession) (requestId : ℕ) : SocketSession :=
  match lookup RequestState.requestId s.pending requestId with
  | none => { s with queuedRequestCount := s.queuedRequestCount - 1 }
  | some r => { s.remove r with queuedRequestCount := s.queuedRequestCount - 1 }

def prewarmCleanup (s : SocketSession) (requestId : ℕ) : SocketSession :=
  { (s.endSubmit requestId).cleanup requestId with prewarmed := false }

def abandon (s : SocketSession) (requestId : ℕ) : SocketSession :=
  { (s.endSubmit requestId).cleanup requestId with closed := true }

def text (s : SocketSession) (e : UpstreamEvent) : SocketSession :=
  let (created, terminal) := eventTargets s.pending e
  { s with
    pending := dequeAfter s.pending e
    gatePermits := s.gatePermits + (created.elim 0 RequestState.permit) +
      (terminal.elim 0 RequestState.permit)
    queuedRequestCount :=
      if terminal = none then s.queuedRequestCount else s.queuedRequestCount - 1
    failures :=
      if e.type.isFailure then
        ((matchRequest s.pending e).1.toList ++ terminal.toList).map RequestState.requestId ++
          s.failures
      else s.failures }

/-- `_retry_http_bridge_precreated_request`: the only request that is not created yet is to be sent
again, else all fail. -/
def lost (s : SocketSession) (reader : ℕ) : SocketSession :=
  match retryableRequests s.pending with
  | [r] =>
    if r.hasPreviousResponseId ∨ r.requestId ∈ s.replayed then s.setReader reader .resetting
    else { s.setReader reader (.reconnecting r.requestId) with
      replayed := r.requestId :: s.replayed }
  | _ => s.setReader reader .resetting

def sendFailed (s : SocketSession) (r : RequestState) : SocketSession :=
  if r.prewarm then s.prewarmCleanup r.requestId
  else if r.hasPreviousResponseId ∨ r.requestId ∈ s.replayed then s.abandon r.requestId
  else (s.startReconnect r.requestId).setPhase r.requestId .reconnecting

end SocketSession

/-! ## Steps -/

inductive SocketReaderAct : Type where
  | text (e : UpstreamEvent)
  | lost
  | reconnected
  | reconnectFailed
  | resent
  | resendFailed
  | reset
  | failAll
  | finish
  | raised
  deriving DecidableEq

inductive SocketAct : Type where
  | arrive (r : RequestState)
  | reopened (requestId : ℕ)
  | reopenFailed (requestId : ℕ)
  | enter (requestId : ℕ)
  | prewarm (r : RequestState)
  | acquire (requestId : ℕ)
  /-- a submit ends before its request is in the deque: refused admission or cancelled -/
  | leave (requestId : ℕ) (cancelled : Bool)
  | append (requestId : ℕ)
  | send (requestId : ℕ)
  | sendFailed (requestId : ℕ)
  | reconnected (requestId : ℕ)
  | reconnectFailed (requestId : ℕ)
  | resent (requestId : ℕ)
  | resendFailed (requestId : ℕ)
  | interrupt (requestId : ℕ)
  | prewarmFailed (requestId : ℕ)
  | detach (requestId : ℕ)
  | reader (reader : ℕ) (a : SocketReaderAct)
  /-- `_close_http_bridge_session` -/
  | close

def socketReaderStep (s : SocketSession) (reader : ℕ) :
    SocketReaderAct → SocketReaderPhase → Option SocketSession
  | .text e, .receiving => some (s.text e)
  | .lost, .receiving => some (s.lost reader)
  | .reconnected, .reconnecting id => some (s.connected.setReader reader (.resending id))
  | .reconnectFailed, .reconnecting _ => some (s.setReader reader .resetting)
  | .resent, .resending id => some ((s.record id).setReader reader .receiving)
  | .resendFailed, .resending _ => some (s.setReader reader .resetting)
  | .reset, .resetting =>
    some { s.setReader reader .failing with
      queuedRequestCount := 0
      dropped := s.pending.map RequestState.requestId ++ s.dropped }
  | .failAll, .failing =>
    some { s.setReader reader .ending with
      pending := []
      gatePermits := s.gatePermits + permits s.pending
      failures := s.pending.map RequestState.requestId ++ s.failures }
  | .finish, .ending => some { s.endReader reader with closed := true }
  | .raised, _ => some (s.endReader reader)
  | _, _ => none

def submitStep (queueLimit : ℕ) (s : SocketSession) (t : Submit) : SocketAct → Option SocketSession
  | .reopened id =>
    if t.phase = .reopening then some (s.connected.restartReader.setPhase id .checking) else none
  | .reopenFailed id => if t.phase = .reopening then some (s.endSubmit id) else none
  | .enter id =>
    if t.phase ≠ .checking then none
    else if queueLimit ≤ s.queuedRequestCount then some (s.endSubmit id)
    else some { s.setPhase id .waiting with queuedRequestCount := s.queuedRequestCount + 1 }
  | .acquire id =>
    if t.phase ≠ .waiting ∨ s.gatePermits = 0 then none
    else some { s.setPhase id .admitted with gatePermits := s.gatePermits - 1 }
  | .leave id cancelled =>
    let s' := s.endSubmit id
    match t.phase with
    | .reopening | .checking => if cancelled then some s' else none
    | .waiting | .admitted =>
      let s' := { s' with gatePermits := s.gatePermits + if t.phase = .admitted then 1 else 0 }
      -- a cancelled prewarm does not come to its cleanup
      if t.request.prewarm ∧ cancelled then some s'
      else some { s' with
        queuedRequestCount := s.queuedRequestCount - 1
        prewarmed := s.prewarmed && !t.request.prewarm }
    | _ => none
  | .append id =>
    if t.phase = .admitted then
      some { s.setPhase id .sending with
        pending := s.pending ++ [{ t.request with gateAcquired := true }] }
    else none
  | .send id =>
    if t.phase ≠ .sending then none
    else if t.request.prewarm then some ((s.record id).setPhase id .reading)
    else some ((s.record id).endSubmit id)
  | .sendFailed _ => if t.phase = .sending then some (s.sendFailed t.request) else none
  | .reconnected id =>
    if t.phase = .reconnecting then some (s.connected.restartReader.setPhase id .resending)
    else none
  | .reconnectFailed id => if t.phase = .reconnecting then some (s.abandon id) else none
  | .resent id => if t.phase = .resending then some ((s.record id).endSubmit id) else none
  | .resendFailed id => if t.phase = .resending then some (s.abandon id) else none
  | .interrupt id =>
    match t.phase with
    | .sending =>
      some (if t.request.prewarm then s.endSubmit id else (s.endSubmit id).cleanup id)
    -- there is no cleanup for a submit that is cancelled in its error handler, nor for a prewarm
    | .reconnecting | .resending | .reading => some (s.endSubmit id)
    | _ => none
  | .prewarmFailed id =>
    if t.phase = .reading ∧ id ∈ s.failures then some (s.prewarmCleanup id) else none
  | _ => none

def SocketAct.requestId : SocketAct → Option ℕ
  | .reopened id | .reopenFailed id | .enter id | .acquire id | .leave id _ | .append id
  | .send id | .sendFailed id | .reconnected id | .reconnectFailed id | .resent id
  | .resendFailed id | .interrupt id | .prewarmFailed id => some id
  | _ => none

def socketStep (queueLimit : ℕ) (s : SocketSession) : SocketAct → Option SocketSession
  | .arrive r =>
    if r.requestId ∈ s.requestIds ∨ r.responseId ≠ none ∨ r.gateAcquired ∨ r.prewarm then none
    else
      let s := { s with requestIds := r.requestId :: s.requestIds }
      if s.closed then
        some { s.startReconnect r.requestId with submits := s.submits ++ [⟨r, .reopening⟩] }
      else some { s with submits := s.submits ++ [⟨r, .checking⟩] }
  | .prewarm r =>
    if r.requestId ∈ s.requestIds ∨ r.responseId ≠ none ∨ r.gateAcquired ∨ ¬r.prewarm ∨
      s.prewarmed then none
    else some { s with
      requestIds := r.requestId :: s.requestIds
      submits := s.submits ++ [⟨r, .waiting⟩]
      prewarmed := true }
  | .detach id =>
    match lookup RequestState.requestId s.pending id with
    | none => none
    | some r =>
      -- its submit has returned
      if r.prewarm ∨ s.submit id ≠ none then none
      else some { s.remove r with queuedRequestCount := s.queuedRequestCount - 1 }
  | .reader k a =>
    (lookup Prod.fst s.readers k).bind fun x => socketReaderStep s k a x.2
  | .close => some { s.endReader s.reader with closed := true }
  | a => a.requestId.bind fun id => (s.submit id).bind fun t => submitStep queueLimit s t a

/-! ## What a step does -/

def SubmitPhase.isBefore : SubmitPhase → Bool
  | .reopening | .checking | .waiting | .admitted => true
  | _ => false

def SocketSession.decrements (s : SocketSession) : SocketAct → Option ℕ
  | .leave id cancelled => (s.submit id).bind fun t =>
    if (t.phase = .waiting ∨ t.phase = .admitted) ∧ ¬(t.request.prewarm ∧ cancelled) then some id
    else none
  | .sendFailed id => (s.submit id).bind fun t =>
    if t.request.prewarm ∨ t.request.hasPreviousResponseId ∨ id ∈ s.replayed then some id else none
  | .interrupt id => (s.submit id).bind fun t =>
    if t.phase = .sending ∧ ¬t.request.prewarm then some id else none
  | .reconnectFailed id | .resendFailed id | .prewarmFailed id | .detach id => some id
  | .reader _ (.text e) => (eventTargets s.pending e).2.map RequestState.requestId
  | _ => none

inductive SocketStep (queueLimit : ℕ) (s : SocketSession) : SocketAct → SocketSession → Prop
  | arrive {r : RequestState} (hnew : r.requestId ∉ s.requestIds) (hclient : r.prewarm = false) :
      SocketStep queueLimit s (.arrive r) { s with
        requestIds := r.requestId :: s.requestIds, submits := s.submits ++ [⟨r, .checking⟩] }
  | arriveClosed {r : RequestState} (hnew : r.requestId ∉ s.requestIds)
      (hclient : r.prewarm = false) (hclosed : s.closed = true) :
      SocketStep queueLimit s (.arrive r) { s.startReconnect r.requestId with
        requestIds := r.requestId :: s.requestIds, submits := s.submits ++ [⟨r, .reopening⟩] }
  | prewarm {r : RequestState} (hnew : r.requestId ∉ s.requestIds) (hprewarm : r.prewarm = true) :
      SocketStep queueLimit s (.prewarm r) { s with
        requestIds := r.requestId :: s.requestIds, submits := s.submits ++ [⟨r, .waiting⟩]
        prewarmed := true }
  | detach {r : RequestState} (hr : r ∈ s.pending) :
      SocketStep queueLimit s (.detach r.requestId)
        { s.remove r with queuedRequestCount := s.queuedRequestCount - 1 }
  | close : SocketStep queueLimit s .close { s.endReader s.reader with closed := true }
  | reopened {id : ℕ} {t : Submit} (ht : s.submit id = some t) (hphase : t.phase = .reopening) :
      SocketStep queueLimit s (.reopened id) (s.connected.restartReader.setPhase id .checking)
  | refuse {a : SocketAct} {id : ℕ} {t : Submit} (ht : s.submit id = some t)
      (hphase : t.phase = .reopening ∨ t.phase = .checking) :
      SocketStep queueLimit s a (s.endSubmit id)
  | enter {id : ℕ} {t : Submit} (ht : s.submit id = some t) (hphase : t.phase = .checking)
      (hfree : s.queuedRequestCount < queueLimit) :
      SocketStep queueLimit s (.enter id)
        { s.setPhase id .waiting with queuedRequestCount := s.queuedRequestCount + 1 }
  | acquire {id : ℕ} {t : Submit} (ht : s.submit id = some t) (hphase : t.phase = .waiting) :
      SocketStep queueLimit s (.acquire id)
        { s.setPhase id .admitted with gatePermits := s.gatePermits - 1 }
  | leave {id permits : ℕ} {t : Submit} {cancelled prewarmed : Bool} (ht : s.submit id = some t)
      (hphase : t.phase = .waiting ∨ t.phase = .admitted)
      (hdec : s.decrements (.leave id cancelled) = some id) :
      SocketStep queueLimit s (.leave id cancelled) { s.endSubmit id with
        gatePermits := permits, prewarmed := prewarmed
        queuedRequestCount := s.queuedRequestCount - 1 }
  | leavePrewarm {id permits : ℕ} {t : Submit} {cancelled : Bool} (ht : s.submit id = some t)
      (hphase : t.phase = .waiting ∨ t.phase = .admitted) (hprewarm : t.request.prewarm = true) :
      SocketStep queueLimit s (.leave id cancelled) { s.endSubmit id with gatePermits := permits }
  | append {id : ℕ} {t : Submit} (ht : s.submit id = some t) (hphase : t.phase = .admitted) :
      SocketStep queueLimit s (.append id) { s.setPhase id .sending with
        pending := s.pending ++ [{ t.request with gateAcquired := true }] }
  | sendPrewarm {id : ℕ} {t : Submit} (ht : s.submit id = some t) (hphase : t.phase = .sending) :
      SocketStep queueLimit s (.send id) ((s.record id).setPhase id .reading)
  | send {a : SocketAct} {id : ℕ} {t : Submit} (ht : s.submit id = some t)
      (hphase : t.phase.isBefore = false) (ha : a = .send id ∨ a = .resent id) :
      SocketStep queueLimit s a ((s.record id).endSubmit id)
  | retry {id : ℕ} {t : Submit} (ht : s.submit id = some t) (hphase : t.phase = .sending)
      (hclient : t.request.prewarm = false)
      (hfirst : ¬(t.request.hasPreviousResponseId = true ∨ id ∈ s.replayed)) :
      SocketStep queueLimit s (.sendFailed id) ((s.startReconnect id).setPhase id .reconnecting)
  | reconnected {id : ℕ} {t : Submit} (ht : s.submit id = some t)
      (hphase : t.phase = .reconnecting) :
      SocketStep queueLimit s (.reconnected id) (s.connected.restartReader.setPhase id .resending)
  | cleanup {a : SocketAct} {id : ℕ} {t : Submit} {closed prewarmed : Bool}
      (ht : s.submit id = some t) (hphase : t.phase.isBefore = false)
      (hdec : s.decrements a = some id) :
      SocketStep queueLimit s a
        { (s.endSubmit id).cleanup id with closed := closed, prewarmed := prewarmed }
  | interrupt {id : ℕ} {t : Submit} (ht : s.submit id = some t) (hphase : t.phase.isBefore = false)
      (hleft : ¬(t.phase = .sending ∧ t.request.prewarm = false)) :
      SocketStep queueLimit s (.interrupt id) (s.endSubmit id)
  | text {k : ℕ} {e : UpstreamEvent} : SocketStep queueLimit s (.reader k (.text e)) (s.text e)
  | giveUp {k : ℕ} {b : SocketReaderAct} {x : ℕ × SocketReaderPhase}
      (hx : lookup Prod.fst s.readers k = some x) :
      SocketStep queueLimit s (.reader k b) (s.setReader k .resetting)
  | lost {k : ℕ} {x : ℕ × SocketReaderPhase} {r : RequestState}
      (hx : lookup Prod.fst s.readers k = some x) (hphase : x.2 = .receiving) :
      SocketStep queueLimit s (.reader k .lost) { s.setReader k (.reconnecting r.requestId) with
        replayed := r.requestId :: s.replayed }
  | readerReconnected {k id : ℕ} {x : ℕ × SocketReaderPhase}
      (hx : lookup Prod.fst s.readers k = some x) (hphase : x.2 = .reconnecting id) :
      SocketStep queueLimit s (.reader k .reconnected) (s.connected.setReader k (.resending id))
  | readerResent {k id : ℕ} {x : ℕ × SocketReaderPhase}
      (hx : lookup Prod.fst s.readers k = some x) (hphase : x.2 = .resending id) :
      SocketStep queueLimit s (.reader k .resent) ((s.record id).setReader k .receiving)
  | reset {k : ℕ} {x : ℕ × SocketReaderPhase} (hx : lookup Prod.fst s.readers k = some x) :
      SocketStep queueLimit s (.reader k .reset) { s.setReader k .failing with
        queuedRequestCount := 0
        dropped := s.pending.map RequestState.requestId ++ s.dropped }
  | failAll {k : ℕ} : SocketStep queueLimit s (.reader k .failAll) { s.setReader k .ending with
      pending := []
      gatePermits := s.gatePermits + permits s.pending
      failures := s.pending.map RequestState.requestId ++ s.failures }
  | endReader {k : ℕ} {b : SocketReaderAct} {closed : Bool} (hb : b = .finish ∨ b = .raised) :
      SocketStep queueLimit s (.reader k b) { s.endReader k with closed := closed }

namespace SocketStep

variable {queueLimit : ℕ} {s s' : SocketSession} {a : SocketAct} {t : Submit} {id : ℕ}

theorem of_readerStep {k : ℕ} {b : SocketReaderAct} {x : ℕ × SocketReaderPhase}
    (hx : lookup Prod.fst s.readers k = some x)
    (hs : socketReaderStep s k b x.2 = some s') : SocketStep queueLimit s (.reader k b) s' := by
  unfold socketReaderStep at hs
  split at hs
  · exact some.inj hs ▸ .text
  · next hphase =>
    cases hs
    unfold SocketSession.lost
    split
    · split
      · exact .giveUp hx
      · exact .lost hx hphase
    · exact .giveUp hx
  · next hphase => exact some.inj hs ▸ .readerReconnected hx hphase
  · exact some.inj hs ▸ .giveUp hx
  · next hphase => exact some.inj hs ▸ .readerResent hx hphase
  · exact some.inj hs ▸ .giveUp hx
  · exact some.inj hs ▸ .reset hx
  · exact some.inj hs ▸ .failAll
  · exact some.inj hs ▸ .endReader (.inl rfl)
  · exact some.inj hs ▸ .endReader (.inr rfl)
  · cases hs

theorem of_submitStep (ha : a.requestId = some id) (ht : s.submit id = some t)
    (hs : submitStep queueLimit s t a = some s') : SocketStep queueLimit s a s' := by
  have hid : t.requestId = id := key_of_lookup ht
  cases a <;> cases ha
  case reopened.refl =>
    obtain ⟨hphase, ⟨⟩⟩ := ite_none_right_eq_some.mp hs
    exact .reopened ht hphase
  case reopenFailed.refl =>
    obtain ⟨hphase, ⟨⟩⟩ := ite_none_right_eq_some.mp hs
    exact .refuse ht (.inl hphase)
  case enter.refl =>
    obtain ⟨hphase, hs⟩ := ite_none_left_eq_some.mp hs
    have hphase := not_not.mp hphase
    split at hs <;> cases hs
    · exact .refuse ht (.inr hphase)
    · next hfree => exact .enter ht hphase (Nat.lt_of_not_le hfree)
  case acquire.refl =>
    obtain ⟨hguard, ⟨⟩⟩ := ite_none_left_eq_some.mp hs
    exact .acquire ht (not_not.mp (not_or.mp hguard).1)
  case leave.refl cancelled =>
    simp only [submitStep] at hs
    split at hs
    · next hphase =>
      obtain ⟨-, ⟨⟩⟩ := ite_none_right_eq_some.mp hs
      exact .refuse ht (.inl hphase)
    · next hphase =>
      obtain ⟨-, ⟨⟩⟩ := ite_none_right_eq_some.mp hs
      exact .refuse ht (.inr hphase)
    all_goals
      next hphase =>
      first
      | cases hs
      | have hplace : t.phase = .waiting ∨ t.phase = .admitted := by simp [hphase]
        split at hs <;> cases hs
        · next hcancelled => exact .leavePrewarm ht hplace hcancelled.1
        · next hcleaned =>
          exact .leave ht hplace (by simp [SocketSession.decrements, ht, hplace, hcleaned])
  case append.refl =>
    obtain ⟨hphase, ⟨⟩⟩ := ite_none_right_eq_some.mp hs
    exact .append ht hphase
  case send.refl =>
    obtain ⟨hphase, hs⟩ := ite_none_left_eq_some.mp hs
    have hphase := not_not.mp hphase
    split at hs <;> cases hs
    · exact .sendPrewarm ht hphase
    · exact .send ht (by rw [hphase]; rfl) (.inl rfl)
  case sendFailed.refl =>
    obtain ⟨hphase, ⟨⟩⟩ := ite_none_right_eq_some.mp hs
    have hbefore : t.phase.isBefore = false := by rw [hphase]; rfl
    rw [SocketSession.sendFailed, show t.request.requestId = id from hid]
    split
    · next hprewarm => exact .cleanup ht hbefore (by simp [SocketSession.decrements, ht, hprewarm])
    · next hclient =>
      split
      · next hagain => exact .cleanup ht hbefore (by simp [SocketSession.decrements, ht, hagain])
      · next hfirst => exact .retry ht hphase (by simpa using hclient) hfirst
  case reconnected.refl =>
    obtain ⟨hphase, ⟨⟩⟩ := ite_none_right_eq_some.mp hs
    exact .reconnected ht hphase
  case reconnectFailed.refl =>
    obtain ⟨hphase, ⟨⟩⟩ := ite_none_right_eq_some.mp hs
    exact .cleanup ht (by rw [hphase]; rfl) rfl
  case resent.refl =>
    obtain ⟨hphase, ⟨⟩⟩ := ite_none_right_eq_some.mp hs
    exact .send ht (by rw [hphase]; rfl) (.inr rfl)
  case resendFailed.refl =>
    obtain ⟨hphase, ⟨⟩⟩ := ite_none_right_eq_some.mp hs
    exact .cleanup ht (by rw [hphase]; rfl) rfl
  case interrupt.refl =>
    simp only [submitStep] at hs
    split at hs <;> try cases hs
    · next hphase =>
      split
      · next hprewarm => exact .interrupt ht (by rw [hphase]; rfl) (by simp [hprewarm])
      · next hclient =>
        exact .cleanup ht (by rw [hphase]; rfl)
          (by simp [SocketSession.decrements, ht, hphase, hclient])
    all_goals next hphase => exact .interrupt ht (by rw [hphase]; rfl) (by simp [hphase])
  case prewarmFailed.refl =>
    obtain ⟨⟨hphase, -⟩, ⟨⟩⟩ := ite_none_right_eq_some.mp hs
    exact .cleanup ht (by rw [hphase]; rfl) rfl

theorem of_step (hs : socketStep queueLimit s a = some s') : SocketStep queueLimit s a s' := by
  rcases ha : a.requestId with _ | id
  · cases a <;> cases ha
    case arrive.refl r =>
      obtain ⟨hguard, hs⟩ := ite_none_left_eq_some.mp hs
      simp only [not_or, Bool.not_eq_true] at hguard
      split at hs <;> cases hs
      · next hclosed => exact .arriveClosed hguard.1 hguard.2.2.2 hclosed
      · exact .arrive hguard.1 hguard.2.2.2
    case prewarm.refl r =>
      obtain ⟨hguard, ⟨⟩⟩ := ite_none_left_eq_some.mp hs
      simp only [not_or, not_not] at hguard
      exact .prewarm hguard.1 hguard.2.2.2.1
    case detach.refl i =>
      simp only [socketStep] at hs
      split at hs
      · cases hs
      · next r hr =>
        obtain ⟨-, ⟨⟩⟩ := ite_none_left_eq_some.mp hs
        obtain rfl : r.requestId = i := key_of_lookup hr
        exact .detach (mem_of_lookup hr)
    case reader.refl k b =>
      obtain ⟨x, hx, hstep⟩ := bind_eq_some_iff.mp hs
      exact of_readerStep hx hstep
    case close.refl => exact some.inj hs ▸ .close
  · have hbind : (s.submit id).bind (fun t => submitStep queueLimit s t a) = some s' := by
      cases a <;> cases ha <;> exact hs
    obtain ⟨t, ht, hstep⟩ := bind_eq_some_iff.mp hbind
    exact of_submitStep ha ht hstep

end SocketStep

end CodexOctopus

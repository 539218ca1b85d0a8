import CodexOctopus.SocketSession

/-!
# The budget of a bridge request

The reader of a bridge session waits for the upstream as long as the oldest pending request
has budget left, and not longer than the idle timeout. `BudgetState` adds that to a
`SocketSession`: the time, what each reader waits for, and which requests were failed with
which code at which time. A timeout that runs out ends like a lost upstream: one request may
be sent again, else all requests of the deque are failed with the code of the timeout.

Times are in milliseconds.
-/

namespace CodexOctopus

open List Option Table Lts

/-! ## Waiting for the upstream -/

structure ReceiveTimeout where
  timeout : ℤ
  errorCode : String
  errorMessage : String
  failAllPending : Bool

structure TimeoutSettings where
  proxyRequestBudget : ℤ
  streamIdleTimeout : ℤ

def upstreamRequestTimeout : String := "upstream_request_timeout"

def remainingBudget (deadline now : ℤ) : ℤ := max 0 (deadline - now)

def websocketReceiveTimeout (settings : TimeoutSettings) (now : ℤ) :
    List ℤ → Option ReceiveTimeout
  | [] => none
  | startedAt :: startedAts =>
    let idleTimeout := max 1 settings.streamIdleTimeout
    let oldestStartedAt := startedAts.foldl min startedAt
    let remaining := remainingBudget (oldestStartedAt + settings.proxyRequestBudget) now
    if remaining ≤ 0 then
      some ⟨0, upstreamRequestTimeout, "Proxy request budget exhausted", false⟩
    else if idleTimeout ≤ remaining then
      some ⟨idleTimeout, "stream_idle_timeout", "Upstream stream idle timeout", true⟩
    else some ⟨remaining, upstreamRequestTimeout, "Proxy request budget exhausted", false⟩

theorem foldl_min_mem (x : ℤ) (xs : List ℤ) : xs.foldl min x ∈ x :: xs := by
  induction xs generalizing x with
  | nil => exact mem_cons_self
  | cons y ys ih =>
    rw [foldl_cons]
    rcases mem_cons.mp (ih (min x y)) with heq | hmem
    · rw [heq]
      rcases min_choice x y with h | h <;> rw [h] <;> simp
    · exact mem_cons_of_mem _ (mem_cons_of_mem _ hmem)

theorem websocketReceiveTimeout_budget {settings : TimeoutSettings} {since : ℤ}
    {startedAts : List ℤ}
    {t : ReceiveTimeout} (h : websocketReceiveTimeout settings since startedAts = some t)
    (hcode : t.errorCode = upstreamRequestTimeout) :
    ∃ x ∈ startedAts, x + settings.proxyRequestBudget ≤ since + t.timeout := by
  cases startedAts with
  | nil => cases h
  | cons startedAt startedAts =>
    refine ⟨startedAts.foldl min startedAt, foldl_min_mem startedAt startedAts, ?_⟩
    have hremaining : startedAts.foldl min startedAt + settings.proxyRequestBudget ≤ since +
        remainingBudget (startedAts.foldl min startedAt + settings.proxyRequestBudget) since := by
      have := le_max_right 0 (startedAts.foldl min startedAt + settings.proxyRequestBudget - since)
      rw [remainingBudget]
      omega
    rw [websocketReceiveTimeout] at h
    split at h
    · next hout =>
      cases h
      exact hremaining.trans (Int.add_le_add_left hout since)
    · split at h
      · cases h
        exact absurd (show "stream_idle_timeout" = upstreamRequestTimeout from hcode) (by decide)
      · cases h
        exact hremaining

inductive Waiting : Type where
  | computing
  | receiving (startedAts : List ℤ) (since : ℤ)
  | stopped (errorCode : String)
  deriving DecidableEq

def Waiting.errorCode : Waiting → String
  | .stopped errorCode => errorCode
  | .computing => "stream_incomplete"
  | .receiving _ _ => "stream_incomplete"

def Waiting.startedAts : Waiting → List ℤ
  | .receiving startedAts _ => startedAts
  | .computing => []
  | .stopped _ => []

def Waiting.isReceiving : Waiting → Bool
  | .receiving _ _ => true
  | .computing => false
  | .stopped _ => false

structure FailedRequest where
  requestId : ℕ
  errorCode : String
  time : ℤ
  deriving DecidableEq

structure BudgetState where
  session : SocketSession
  now : ℤ
  waiting : ℕ → Waiting
  /-- the newest first -/
  failed : List FailedRequest

def newBudgetState (now : ℤ) : BudgetState := ⟨newSocketSession, now, fun _ => .computing, []⟩

inductive BudgetAct : Type where
  | elapsed (time : ℕ)
  /-- `_next_websocket_receive_timeout` of a reader -/
  | compute (reader : ℕ)
  | timedOut (reader : ℕ)
  | act (a : SocketAct)

namespace BudgetState

def mayAct (s : BudgetState) : SocketAct → Bool
  | .reader k (.text _) => (s.waiting k).isReceiving
  | .reader k .lost => (s.waiting k).isReceiving
  | _ => true

def waitingAfter (s : BudgetState) : SocketAct → ℕ → Waiting
  | .reader k (.text _) => Function.update s.waiting k .computing
  | .reader k .resent => Function.update s.waiting k .computing
  | .reader k .lost => Function.update s.waiting k (.stopped "stream_incomplete")
  | .reopened _ => Function.update s.waiting s.session.sockets .computing
  | .reconnected _ => Function.update s.waiting s.session.sockets .computing
  | _ => s.waiting

def failedBy (s : BudgetState) : SocketAct → List FailedRequest
  | .reader k .failAll => s.session.pending.map fun r =>
      ⟨r.requestId, (s.waiting k).errorCode, s.now⟩
  | _ => []

def atReceive (s : BudgetState) (k : ℕ) : Bool :=
  (lookup Prod.fst s.session.readers k).any (·.2 = .receiving)

end BudgetState

section

variable (settings : TimeoutSettings) (queueLimit : ℕ) (startedAt : ℕ → ℤ)

def BudgetState.timeout (s : BudgetState) (k : ℕ) : Option ReceiveTimeout :=
  match s.waiting k with
  | .receiving startedAts since =>
    (websocketReceiveTimeout settings since startedAts).filter fun t => since + t.timeout ≤ s.now
  | _ => none

def budgetStep (s : BudgetState) : BudgetAct → Option BudgetState
  | .elapsed time => some { s with now := s.now + time }
  | .compute k =>
    if s.atReceive k ∧ s.waiting k = .computing then
      some { s with
        waiting := Function.update s.waiting k
          (.receiving (s.session.pending.map fun r => startedAt r.requestId) s.now) }
    else none
  | .timedOut k =>
    (s.timeout settings k).bind fun t =>
      (socketStep queueLimit s.session (.reader k .lost)).map fun session =>
        { s with
          session := session
          waiting := Function.update s.waiting k (.stopped t.errorCode) }
  | .act a =>
    if s.mayAct a then
      (socketStep queueLimit s.session a).map fun session =>
        ⟨session, s.now, s.waitingAfter a, s.failedBy a ++ s.failed⟩
    else none

end

/-! ## What a step does to the deque and to the readers -/

structure SocketMove (s : SocketSession) (a : SocketAct) (s' : SocketSession) : Prop where
  pending : ∀ r' ∈ s'.pending, (∃ r ∈ s.pending, r.requestId = r'.requestId) ∨ ∃ id, a = .append id
  readers : ∀ x' ∈ s'.readers, (∃ x ∈ s.readers, x.1 = x'.1) ∨
    x'.1 = s.sockets ∧ ((∃ id, a = .reopened id) ∨ ∃ id, a = .reconnected id)

namespace SocketMove

variable {s s' : SocketSession} {a : SocketAct} {k : ℕ}

theorem of_subset (hpending : s'.pending ⊆ s.pending) (hreaders : s'.readers ⊆ s.readers) :
    SocketMove s a s' :=
  ⟨fun r' hr' => .inl ⟨r', hpending hr', rfl⟩, fun x' hx' => .inl ⟨x', hreaders hx', rfl⟩⟩

theorem of_setReader {phase : SocketReaderPhase} (hpending : s'.pending ⊆ s.pending)
    (hreaders : s'.readers = (s.setReader k phase).readers) : SocketMove s a s' := by
  refine ⟨fun r' hr' => .inl ⟨r', hpending hr', rfl⟩, fun x' hx' => ?_⟩
  rw [hreaders] at hx'
  obtain ⟨x, hx, hxx'⟩ := mem_updateWhere.mp hx'
  refine .inl ⟨x, hx, ?_⟩
  rw [← hxx']
  split <;> rfl

theorem endReader_readers : (s.endReader k).readers ⊆ s.readers :=
  filter_sublist.subset

theorem restart (hpending : s'.pending ⊆ s.pending)
    (hreaders : s'.readers = s.connected.restartReader.readers)
    (ha : (∃ id, a = .reopened id) ∨ ∃ id, a = .reconnected id) : SocketMove s a s' := by
  refine ⟨fun r' hr' => .inl ⟨r', hpending hr', rfl⟩, fun x' hx' => ?_⟩
  rw [hreaders] at hx'
  rcases mem_cons.mp hx' with rfl | hx'
  · exact .inr ⟨rfl, ha⟩
  · exact .inl ⟨x', hx', rfl⟩

/-- **What a step does to the deque and to the readers.** -/
theorem of_step {queueLimit : ℕ} (h : socketStep queueLimit s a = some s') : SocketMove s a s' := by
  cases SocketStep.of_step h with
  | detach => exact of_subset filter_sublist.subset (List.Subset.refl _)
  | arriveClosed => exact of_subset (List.Subset.refl _) endReader_readers
  | close => exact of_subset (List.Subset.refl _) endReader_readers
  | retry => exact of_subset (List.Subset.refl _) endReader_readers
  | endReader => exact of_subset (List.Subset.refl _) endReader_readers
  | reopened => exact restart (List.Subset.refl _) rfl (.inl ⟨_, rfl⟩)
  | reconnected => exact restart (List.Subset.refl _) rfl (.inr ⟨_, rfl⟩)
  | append => exact ⟨fun _ _ => .inr ⟨_, rfl⟩, fun x' hx' => .inl ⟨x', hx', rfl⟩⟩
  | cleanup =>
    unfold SocketSession.cleanup
    split
    · exact of_subset (List.Subset.refl _) (List.Subset.refl _)
    · exact of_subset filter_sublist.subset (List.Subset.refl _)
  | text =>
    exact ⟨fun r' hr' => .inl (exists_mem_of_dequeAfter hr'), fun x' hx' => .inl ⟨x', hx', rfl⟩⟩
  | giveUp => exact of_setReader (List.Subset.refl _) rfl
  | lost => exact of_setReader (List.Subset.refl _) rfl
  | readerReconnected => exact of_setReader (List.Subset.refl _) rfl
  | readerResent => exact of_setReader (List.Subset.refl _) rfl
  | reset => exact of_setReader (List.Subset.refl _) rfl
  | failAll => exact of_setReader (nil_subset _) rfl
  | _ => exact of_subset (List.Subset.refl _) (List.Subset.refl _)

end SocketMove

/-! ## Runs -/

def SocketAct.appends : SocketAct → Bool
  | .append _ => true
  | _ => false

section

variable (settings : TimeoutSettings) (startedAt : ℕ → ℤ)

/-- **The condition** on steps: a timeout runs out only when no request of the deque is younger than
those that it was computed from, and no request is added until the requests are failed. -/
def Apart (s : BudgetState) : BudgetAct → Prop
  | .timedOut k =>
    (s.timeout settings k).any (·.errorCode = upstreamRequestTimeout) = true →
      ∀ r ∈ s.session.pending, ∀ x ∈ (s.waiting k).startedAts, startedAt r.requestId ≤ x
  | .act a => a.appends = true →
      ∀ x ∈ s.session.readers, s.waiting x.1 ≠ .stopped upstreamRequestTimeout
  | .elapsed _ => True
  | .compute _ => True

def Exhausted (now : ℤ) (requestId : ℕ) : Prop :=
  startedAt requestId + settings.proxyRequestBudget ≤ now

structure OnBudget (s : BudgetState) : Prop where
  stopped : ∀ x ∈ s.session.readers, s.waiting x.1 = .stopped upstreamRequestTimeout →
    ∀ r ∈ s.session.pending, Exhausted settings startedAt s.now r.requestId
  failed : ∀ f ∈ s.failed, f.errorCode = upstreamRequestTimeout →
    Exhausted settings startedAt f.time f.requestId

end

variable {settings : TimeoutSettings} {startedAt : ℕ → ℤ} {queueLimit : ℕ} {s s' : BudgetState}

instance decidableApart (s : BudgetState) : ∀ a, Decidable (Apart settings startedAt s a)
  | .timedOut k =>
    inferInstanceAs (Decidable (_ = true → ∀ r ∈ s.session.pending, ∀ x ∈ (s.waiting k).startedAts,
      _))
  | .act _ => inferInstanceAs (Decidable (_ = true → ∀ x ∈ s.session.readers, _ ≠ _))
  | .elapsed _ => inferInstanceAs (Decidable True)
  | .compute _ => inferInstanceAs (Decidable True)

theorem BudgetState.timeout_budget {k : ℕ} {t : ReceiveTimeout} (h : s.timeout settings k = some t)
    (hcode : t.errorCode = upstreamRequestTimeout) :
    ∃ x ∈ (s.waiting k).startedAts, x + settings.proxyRequestBudget ≤ s.now := by
  unfold BudgetState.timeout at h
  split at h
  · next startedAts since hwaiting =>
    obtain ⟨ht, hout⟩ := filter_eq_some_iff.mp h
    obtain ⟨x, hx, hle⟩ := websocketReceiveTimeout_budget ht hcode
    rw [hwaiting]
    exact ⟨x, hx, hle.trans (of_decide_eq_true hout)⟩
  · cases h

theorem BudgetState.waitingAfter_cases (s : BudgetState) (a : SocketAct) (k : ℕ) :
    s.waitingAfter a k = s.waiting k ∨ s.waitingAfter a k = .computing ∨
      s.waitingAfter a k = .stopped "stream_incomplete" := by
  unfold BudgetState.waitingAfter
  split <;> first | exact .inl rfl | (rw [Function.update_apply]; split <;> simp)

theorem BudgetState.waitingAfter_fresh {a : SocketAct}
    (ha : (∃ id, a = .reopened id) ∨ ∃ id, a = .reconnected id) :
    s.waitingAfter a s.session.sockets = .computing := by
  rcases ha with ⟨id, rfl⟩ | ⟨id, rfl⟩ <;> exact Function.update_self _ _ _

theorem OnBudget.act {a : SocketAct} {session : SocketSession} (h : OnBudget settings startedAt s)
    (hok : Apart settings startedAt s (.act a)) (hstep : socketStep queueLimit s.session a = some
      session) :
    OnBudget settings startedAt ⟨session, s.now, s.waitingAfter a, s.failedBy a ++ s.failed⟩ := by
  have hmove := SocketMove.of_step hstep
  refine ⟨fun x' hx' hstopped r' hr' => ?_, fun f hf hcode => ?_⟩
  · -- the reader was running and had stopped before
    have hwas : s.waiting x'.1 = .stopped upstreamRequestTimeout := by
      rcases s.waitingAfter_cases a x'.1 with heq | heq | heq
      · exact heq.symm.trans hstopped
      · cases heq.symm.trans hstopped
      · exact absurd (heq.symm.trans hstopped) (by decide)
    have hran : ∃ x ∈ s.session.readers, x.1 = x'.1 := by
      rcases hmove.readers x' hx' with hran | ⟨hfresh, ha⟩
      · exact hran
      · have hcomputing := s.waitingAfter_fresh ha
        rw [← hfresh] at hcomputing
        cases hcomputing.symm.trans hstopped
    obtain ⟨x, hx, hxx'⟩ := hran
    rcases hmove.pending r' hr' with ⟨r, hr, hid⟩ | ⟨id, rfl⟩
    · rw [← hid]
      exact h.stopped x hx (hxx' ▸ hwas) r hr
    · exact absurd (hxx' ▸ hwas) (hok rfl x hx)
  · rcases mem_append.mp hf with hf | hf
    · cases a with
      | reader k b =>
        cases b with
        | failAll =>
          obtain ⟨r, hr, rfl⟩ := mem_map.mp hf
          obtain ⟨x, hx, -⟩ := bind_eq_some_iff.mp hstep
          obtain rfl := key_of_lookup hx
          refine h.stopped x (mem_of_lookup hx) ?_ r hr
          cases hwaiting : s.waiting x.1 with
          | stopped errorCode =>
            rw [hwaiting] at hcode
            exact congrArg _ hcode
          | computing =>
            rw [hwaiting] at hcode
            exact absurd (show "stream_incomplete" = upstreamRequestTimeout from hcode) (by decide)
          | receiving startedAts since =>
            rw [hwaiting] at hcode
            exact absurd (show "stream_incomplete" = upstreamRequestTimeout from hcode) (by decide)
        | _ => cases hf
      | _ => cases hf
    · exact h.failed f hf hcode

theorem OnBudget.step {a : BudgetAct} (h : OnBudget settings startedAt s)
    (hok : Apart settings startedAt s a) (hstep : budgetStep settings queueLimit startedAt s a =
      some s') :
    OnBudget settings startedAt s' := by
  cases a with
  | elapsed time =>
    cases hstep
    refine ⟨fun x hx hstopped r hr => ?_, h.failed⟩
    exact (h.stopped x hx hstopped r hr).trans (Int.le_add_of_nonneg_right
      (Int.natCast_nonneg time))
  | compute k =>
    obtain ⟨-, hstep⟩ := ite_none_right_eq_some.mp hstep
    cases hstep
    refine ⟨fun x hx hstopped r hr => ?_, h.failed⟩
    have hstopped : Function.update s.waiting k _ x.1 = .stopped upstreamRequestTimeout := hstopped
    rw [Function.update_apply] at hstopped
    split at hstopped
    · cases hstopped
    · exact h.stopped x hx hstopped r hr
  | timedOut k =>
    obtain ⟨t, ht, hstep⟩ := bind_eq_some_iff.mp hstep
    obtain ⟨session, hlost, rfl⟩ := map_eq_some_iff.mp hstep
    have hmove := SocketMove.of_step hlost
    refine ⟨fun x' hx' hstopped r' hr' => ?_, h.failed⟩
    have hin : ∃ r ∈ s.session.pending, r.requestId = r'.requestId :=
      (hmove.pending r' hr').resolve_right nofun
    obtain ⟨r, hr, hid⟩ := hin
    obtain ⟨x, hx, hxx'⟩ := (hmove.readers x' hx').resolve_right fun hfresh =>
      hfresh.2.elim nofun nofun
    have hstopped : Function.update s.waiting k _ x'.1 = .stopped upstreamRequestTimeout := hstopped
    rw [Function.update_apply] at hstopped
    rw [← hid]
    split at hstopped
    · -- this reader: the oldest request has exhausted its budget, and no other is younger
      have hcode : t.errorCode = upstreamRequestTimeout := Waiting.stopped.inj hstopped
      obtain ⟨y, hy, hle⟩ := BudgetState.timeout_budget ht hcode
      have hyoung := hok (by rw [ht]; exact decide_eq_true hcode) r hr y hy
      exact (Int.add_le_add_right hyoung _).trans hle
    · exact h.stopped x hx (hxx' ▸ hstopped) r hr
  | act a =>
    obtain ⟨-, hstep⟩ := ite_none_right_eq_some.mp hstep
    obtain ⟨session, hsocket, rfl⟩ := map_eq_some_iff.mp hstep
    exact h.act hok hsocket

theorem onBudget_new (now : ℤ) : OnBudget settings startedAt (newBudgetState now) := by
  refine ⟨fun x hx hstopped => ?_, nofun⟩
  cases hstopped

/-- **A request is not timed out by another request's budget**, in every run that meets the
condition. -/
theorem timed_out_on_own_budget (settings : TimeoutSettings) (startedAt : ℕ → ℤ) (queueLimit : ℕ)
    (now : ℤ) {acts : List BudgetAct} {s : BudgetState}
    (hok : Along (budgetStep settings queueLimit startedAt) (Apart settings startedAt) acts
      (newBudgetState now))
    (hrun : run (budgetStep settings queueLimit startedAt) acts (newBudgetState now) = some s) :
    ∀ f ∈ s.failed, f.errorCode = upstreamRequestTimeout →
      startedAt f.requestId + settings.proxyRequestBudget ≤ f.time := by
  have hs : OnBudget settings startedAt s := run_invariant_along
    (fun hs hoks hstep => hs.step hoks hstep) (onBudget_new now) hok hrun
  exact hs.failed

def defaultTimeouts : TimeoutSettings := ⟨600000, 300000⟩

def twoStarts (requestId : ℕ) : ℤ := if requestId = 0 then 0 else 500000

def budgetActs (requestId : ℕ) : List BudgetAct :=
  [.act (.arrive (plainRequest requestId)), .act (.enter requestId), .act (.acquire requestId),
    .act (.append requestId), .act (.send requestId)]

def messageActs (type : UpstreamEventType) (responseId : String) : List BudgetAct :=
  [.act (.reader 0 (.text ⟨type, some responseId, none, ""⟩)), .compute 0]

def timeoutActs : List BudgetAct :=
  [.timedOut 0, .act (.reader 0 .reset), .act (.reader 0 .failAll)]

def oneRequest : List BudgetAct :=
  [.compute 0] ++ budgetActs 0 ++ messageActs .created "resp_0" ++ [.elapsed 250000] ++
    messageActs .other "resp_0" ++ [.elapsed 250000] ++ messageActs .other "resp_0" ++
    [.elapsed 100000] ++ timeoutActs

theorem timed_out_on_own_budget_oneRequest : ∃ s,
    run (budgetStep defaultTimeouts 8 twoStarts) oneRequest (newBudgetState 0) = some s ∧
      s.failed = [⟨0, "upstream_request_timeout", 600000⟩] ∧ twoStarts 0 + 600000 ≤ 600000 := by
  obtain ⟨s, hrun, hfailed⟩ : ∃ s,
      run (budgetStep defaultTimeouts 8 twoStarts) oneRequest (newBudgetState 0) = some s ∧
      s.failed = [⟨0, "upstream_request_timeout", 600000⟩] := by
    decide +kernel
  have hbudget := timed_out_on_own_budget defaultTimeouts twoStarts 8 0 (by decide +kernel) hrun
  exact ⟨s, hrun, hfailed, hbudget _ (hfailed ▸ mem_cons_self) rfl⟩

def twoRequests : List BudgetAct :=
  [.compute 0] ++ budgetActs 0 ++ messageActs .created "resp_0" ++ [.elapsed 250000] ++
    messageActs .other "resp_0" ++ [.elapsed 250000] ++ budgetActs 1 ++
    messageActs .created "resp_1" ++ [.elapsed 100000] ++ timeoutActs

/-- **A request is failed by the budget of another one**: it started 100 seconds ago, and has ten
minutes. -/
theorem failed_by_older_budget : ∃ s,
    run (budgetStep defaultTimeouts 8 twoStarts) twoRequests (newBudgetState 0) = some s ∧
      ⟨1, "upstream_request_timeout", 600000⟩ ∈ s.failed ∧
      600000 < twoStarts 1 + defaultTimeouts.proxyRequestBudget := by
  decide +kernel

end CodexOctopus

import Mathlib.Data.Int.Notation
import CodexOctopus.Run
import CodexOctopus.StreamAttempt

/-!
# Retrying a stream

`_stream_with_retry` of `app/modules/proxy/service.py`: up to three accounts are tried,
and on each of them a transient error is retried up to three times. The machine below
takes one step for each answer it gets from outside (the budget, the account selection,
the token refresh, the upstream), and keeps the trace of attempts, requests and lines.
-/

namespace CodexOctopus

open List Option Lts

/-! ## Deciding about a failure -/

inductive FailureClass : Type where
  | rateLimit
  | quota
  | retryableTransient
  | nonRetryable

def classifyUpstreamFailure (errorCode : String) (httpStatus : Option ℕ) : FailureClass :=
  if errorCode ∈ ["rate_limit_exceeded", "usage_limit_reached"] then .rateLimit
  else if errorCode ∈ ["insufficient_quota", "usage_not_included", "quota_exceeded"] then .quota
  else if errorCode ∈ ["server_error", "upstream_error", "stream_incomplete"] ∨
      ∃ status ∈ httpStatus, 500 ≤ status then .retryableTransient
  else .nonRetryable

inductive FailoverAction : Type where
  | failoverNext
  | surface

def failoverDecision (failureClass : FailureClass) (downstreamVisible : Bool)
    (candidatesRemaining : ℤ) : FailoverAction :=
  if downstreamVisible then .surface
  else if candidatesRemaining ≤ 0 then .surface
  else
    match failureClass with
    | .rateLimit | .quota | .retryableTransient => .failoverNext
    | .nonRetryable => .surface

def isAccountNeutralErrorCode (code : String) : Bool :=
  code ∈ ["proxy_overloaded", "proxy_unavailable"]

/-! ## The machine -/

structure StreamAccount where
  id : String
  isKiro : Bool

structure StreamConfig where
  propagateHttpErrors : Bool
  suppressTextDoneEvents : Bool
  deterministicFailoverEnabled : Bool

def streamMaxAccountAttempts : ℕ := 3

def maxTransientSameAccountRetries : ℕ := 3

inductive StreamPhase : Type where
  | selecting (attempt : ℕ)
  | refreshing (attempt : ℕ) (account : StreamAccount)
  | streaming (attempt : ℕ) (account : StreamAccount) (transientRetries : ℕ)
  /-- a 401 came back, the token is about to be refreshed by force -/
  | unauthorized (attempt : ℕ) (account : StreamAccount)
  | restreaming (account : StreamAccount)
  | finished

structure StreamState where
  phase : StreamPhase
  excludedAccountIds : List String
  lastTransient : Bool
  trace : List Item

def initialStream : StreamState := ⟨.selecting 0, [], false, []⟩

inductive RefreshFailure : Type where
  | refreshError
  /-- `aiohttp.ClientError` or `asyncio.TimeoutError` -/
  | unreachable
  /-- `ProxyResponseError`, from the admission gate of the refresh -/
  | proxyError (status : ℕ) (code : String)
  | exception

inductive StreamAct : Type where
  | budgetExhausted
  | selectionFailed (code : String)
  | selected (account : Option StreamAccount)
  | refreshed (budgetLeft : Bool)
  | refreshFailed (failure : RefreshFailure)
  | replied (reply : StreamReply) (budgetLeft : Bool)
  | cancelled

def StreamState.finish (s : StreamState) : StreamState := { s with phase := .finished }

def StreamState.fail (s : StreamState) (code : String) : StreamState :=
  { s with phase := .finished, trace := s.trace ++ [.own (responseFailedEvent code)] }

/-- `raise last_transient_exc` if errors are propagated and there is one, else the error
event. -/
def StreamState.giveUp (cfg : StreamConfig) (s : StreamState) (code : String) : StreamState :=
  if cfg.propagateHttpErrors && s.lastTransient then s.finish else s.fail code

def StreamState.nextAttempt (cfg : StreamConfig) (s : StreamState) (attempt : ℕ) : StreamState :=
  if attempt + 1 < streamMaxAccountAttempts then { s with phase := .selecting (attempt + 1) }
  else s.giveUp cfg "no_accounts"

def StreamState.proxyError (cfg : StreamConfig) (s : StreamState) (attempt : ℕ)
    (account : StreamAccount) (status : ℕ) (code : String) : StreamState :=
  if status = 401 then { s with phase := .unauthorized attempt account }
  else if cfg.propagateHttpErrors then s.finish
  else s.fail code

def StreamState.transientError (cfg : StreamConfig) (s : StreamState) (attempt : ℕ)
    (account : StreamAccount) (transientRetries : ℕ) (isProxyError budgetLeft : Bool) :
    StreamState :=
  if transientRetries + 1 < maxTransientSameAccountRetries ∧ budgetLeft then
    { s with phase := .streaming attempt account (transientRetries + 1) }
  else
    StreamState.nextAttempt cfg
      { s with
        excludedAccountIds := account.id :: s.excludedAccountIds
        lastTransient := s.lastTransient || isProxyError } attempt

def StreamState.attemptEnded (cfg : StreamConfig) (s : StreamState) (attempt : ℕ)
    (account : StreamAccount) (transientRetries : ℕ) (budgetLeft : Bool) : Outcome → StreamState
  | .finished => s.finish
  | .retryable _ => s.nextAttempt cfg attempt
  | .transient _ => s.transientError cfg attempt account transientRetries false budgetLeft
  | .terminal _ => s.finish
  | .proxyError status code =>
    if status = 500 then s.transientError cfg attempt account transientRetries true budgetLeft
    else if isAccountNeutralErrorCode code then s.proxyError cfg attempt account status code
    else
      let action :=
        if cfg.deterministicFailoverEnabled then
          -- the source passes downstream_visible=False here
          failoverDecision (classifyUpstreamFailure code (some status)) false
            (streamMaxAccountAttempts - attempt - 1)
        else .surface
      match action with
      | .failoverNext =>
        StreamState.nextAttempt cfg
          { s with
            excludedAccountIds := account.id :: s.excludedAccountIds
            lastTransient := true } attempt
      | .surface => s.proxyError cfg attempt account status code
  | .exception => s.fail "upstream_error"

def StreamReply.fits (account : StreamAccount) : StreamReply → Bool
  | .openAi _ => !account.isKiro
  | .kiro _ => account.isKiro

def streamStep (cfg : StreamConfig) (s : StreamState) (a : StreamAct) : Option StreamState :=
  match s.phase, a with
  | .finished, _ => none
  | _, .cancelled => some s.finish
  | .selecting _, .budgetExhausted => some (s.fail "upstream_request_timeout")
  | .selecting _, .selectionFailed code => some (s.fail code)
  | .selecting _, .selected none => some (s.giveUp cfg "no_accounts")
  | .selecting attempt, .selected (some account) =>
    if account.id ∈ s.excludedAccountIds then none
    else some { s with phase := .refreshing attempt account }
  | .refreshing _ _, .budgetExhausted => some (s.fail "upstream_request_timeout")
  | .refreshing attempt account, .refreshed budgetLeft =>
    if budgetLeft then some { s with phase := .streaming attempt account 0 }
    else some (s.fail "upstream_request_timeout")
  | .refreshing attempt account, .refreshFailed failure =>
    match failure with
    | .refreshError => some (s.nextAttempt cfg attempt)
    | .unreachable => some (s.fail "upstream_unavailable")
    | .proxyError status code => some (s.proxyError cfg attempt account status code)
    | .exception => some (s.fail "upstream_error")
  | .streaming attempt account transientRetries, .replied reply budgetLeft =>
    if reply.fits account then
      let allowRetry := decide (attempt < streamMaxAccountAttempts - 1)
      let allowTransientRetry :=
        decide (transientRetries < maxTransientSameAccountRetries - 1) || allowRetry
      let (items, outcome) :=
        streamOnce allowRetry allowTransientRetry cfg.suppressTextDoneEvents reply
      some (StreamState.attemptEnded cfg { s with trace := s.trace ++ .attempt :: items } attempt
        account transientRetries budgetLeft outcome)
    else none
  | .unauthorized _ _, .budgetExhausted => some (s.fail "upstream_request_timeout")
  | .unauthorized _ account, .refreshed budgetLeft =>
    if budgetLeft then some { s with phase := .restreaming account }
    else some (s.fail "upstream_request_timeout")
  | .unauthorized attempt _, .refreshFailed failure =>
    match failure with
    | .refreshError => some (s.nextAttempt cfg attempt)
    | .unreachable => some (s.fail "upstream_unavailable")
    -- raised inside a handler: no other handler catches it
    | .proxyError _ _ => some s.finish
    | .exception => some s.finish
  | .restreaming account, .replied reply _ =>
    if reply.fits account then
      let (items, _) := streamOnce false false cfg.suppressTextDoneEvents reply
      some { s with phase := .finished, trace := s.trace ++ .attempt :: items }
    else none
  | _, _ => none

/-! ## What a step can do -/

def StreamState.Extends (s s' : StreamState) : Prop :=
  ∃ own : List Line, s'.trace = s.trace ++ own.map .own

section

variable {cfg : StreamConfig} {s s' : StreamState} {a : StreamAct} {attempt transientRetries : ℕ}
  {account : StreamAccount} {code : String}

theorem StreamState.Extends.of_eq (h : s'.trace = s.trace) : s.Extends s' :=
  ⟨[], by rw [h, map_nil, append_nil]⟩

theorem extends_fail : s.Extends (s.fail code) := ⟨[responseFailedEvent code], rfl⟩

theorem extends_giveUp : s.Extends (s.giveUp cfg code) := by
  rw [StreamState.giveUp]
  split
  · exact .of_eq rfl
  · exact extends_fail

theorem extends_nextAttempt : s.Extends (s.nextAttempt cfg attempt) := by
  rw [StreamState.nextAttempt]
  split
  · exact .of_eq rfl
  · exact extends_giveUp

theorem extends_proxyError {status : ℕ} :
    s.Extends (s.proxyError cfg attempt account status code) := by
  rw [StreamState.proxyError]
  split
  · exact .of_eq rfl
  · split
    · exact .of_eq rfl
    · exact extends_fail

variable {budgetLeft : Bool}

theorem extends_transientError {isProxyError : Bool} :
    s.Extends (s.transientError cfg attempt account transientRetries isProxyError budgetLeft) := by
  rw [StreamState.transientError]
  split
  · exact .of_eq rfl
  · exact extends_nextAttempt (s := { s with
      excludedAccountIds := account.id :: s.excludedAccountIds
      lastTransient := s.lastTransient || isProxyError })

theorem extends_attemptEnded (outcome : Outcome) :
    s.Extends (s.attemptEnded cfg attempt account transientRetries budgetLeft outcome) := by
  cases outcome with
  | finished | terminal => exact .of_eq rfl
  | retryable => exact extends_nextAttempt
  | transient => exact extends_transientError
  | exception => exact extends_fail
  | proxyError status code =>
    simp only [StreamState.attemptEnded]
    split
    · exact extends_transientError
    split
    · exact extends_proxyError
    split
    · exact extends_nextAttempt (s := { s with
        excludedAccountIds := account.id :: s.excludedAccountIds
        lastTransient := true })
    · exact extends_proxyError

theorem giveUp_phase : (s.giveUp cfg code).phase = .finished := by
  rw [StreamState.giveUp]
  split <;> rfl

theorem attemptEnded_phase {outcome : Outcome}
    (h : outcome = .finished ∨ (∃ code, outcome = .terminal code) ∨
      streamMaxAccountAttempts ≤ attempt + 1 ∧ ∃ code, outcome = .retryable code) :
    (s.attemptEnded cfg attempt account transientRetries budgetLeft outcome).phase = .finished := by
  rcases h with rfl | ⟨code, rfl⟩ | ⟨hle, code, rfl⟩
  · rfl
  · rfl
  · rw [StreamState.attemptEnded, StreamState.nextAttempt, if_neg (Nat.not_lt.mpr hle)]
    exact giveUp_phase

def StreamState.lastAttempt (s : StreamState) : Bool :=
  match s.phase with
  | .streaming attempt _ _ => streamMaxAccountAttempts ≤ attempt + 1
  | .restreaming _ => true
  | _ => false

theorem streamStep_cases (h : streamStep cfg s a = some s') :
    s.phase ≠ .finished ∧
    (s.Extends s' ∨ ∃ reply budgetLeft items outcome,
      a = .replied reply budgetLeft ∧ AttemptSpec reply items outcome ∧
      StreamState.Extends { s with trace := s.trace ++ .attempt :: items } s' ∧
      (outcome = .finished ∨ (∃ code, outcome = .terminal code) ∨
        s.lastAttempt = true ∧ (∃ code, outcome = .retryable code) → s'.phase = .finished)) := by
  have hphase : s.phase ≠ .finished := by
    intro hp
    simp [streamStep, hp] at h
  refine ⟨hphase, ?_⟩
  have hown : ∀ {t}, some t = some s' → s.Extends t → s.Extends s' := fun heq ht =>
    some.inj heq ▸ ht
  unfold streamStep at h
  split at h
  · cases h
  · exact .inl (hown h (.of_eq rfl))
  · exact .inl (hown h extends_fail)
  · exact .inl (hown h extends_fail)
  · exact .inl (hown h extends_giveUp)
  · obtain ⟨-, h⟩ := ite_none_left_eq_some.mp h
    exact .inl (hown h (.of_eq rfl))
  · exact .inl (hown h extends_fail)
  · split at h
    · exact .inl (hown h (.of_eq rfl))
    · exact .inl (hown h extends_fail)
  · split at h
    · exact .inl (hown h extends_nextAttempt)
    · exact .inl (hown h extends_fail)
    · exact .inl (hown h extends_proxyError)
    · exact .inl (hown h extends_fail)
  · next hp =>
    obtain ⟨-, h⟩ := ite_none_right_eq_some.mp h
    cases h
    refine .inr ⟨_, _, _, _, rfl, streamOnce_spec rfl, extends_attemptEnded _, ?_⟩
    rintro (hout | hout | ⟨hlast, hout⟩)
    · exact attemptEnded_phase (.inl hout)
    · exact attemptEnded_phase (.inr (.inl hout))
    · exact attemptEnded_phase (.inr (.inr
        ⟨by simpa [StreamState.lastAttempt, hp] using hlast, hout⟩))
  · exact .inl (hown h extends_fail)
  · split at h
    · exact .inl (hown h (.of_eq rfl))
    · exact .inl (hown h extends_fail)
  · split at h
    · exact .inl (hown h extends_nextAttempt)
    · exact .inl (hown h extends_fail)
    · exact .inl (hown h (.of_eq rfl))
    · exact .inl (hown h (.of_eq rfl))
  · obtain ⟨-, h⟩ := ite_none_right_eq_some.mp h
    cases h
    exact .inr ⟨_, _, _, _, rfl, streamOnce_spec rfl, .of_eq rfl, fun _ => rfl⟩
  · cases h

/-! ## Every run -/

/-- A Kiro attempt that is not the last does not fail once its output has started. -/
def WholeKiro (s : StreamState) : StreamAct → Prop
  | .replied reply _ =>
    reply.breaksAfterText = false ∧ (s.lastAttempt = true ∨ reply.failsUpstream = false)
  | _ => True

instance (s : StreamState) : ∀ a, Decidable (WholeKiro s a)
  | .replied reply _ => inferInstanceAs (Decidable (reply.breaksAfterText = false ∧ _))
  | .budgetExhausted | .selectionFailed _ | .selected _ | .refreshed _ | .refreshFailed _
  | .cancelled => .isTrue trivial

def StreamAct.createdOnce : StreamAct → Bool
  | .replied reply _ => reply.createdOnce
  | _ => true

structure StreamState.Settled (s : StreamState) : Prop where
  attempts : NoAttemptAfterOutput s.trace
  requests : NoRequestAfterText s.trace
  visible : ∀ x ∈ s.trace, x.isLine = true → s.phase = .finished

theorem noAttemptAfterOutput_of_quiet {items : List Item} (h : ∀ x ∈ items, x.isLine = false) :
    NoAttemptAfterOutput items := by
  refine List.Pairwise.imp_of_mem (R := fun _ _ => True) ?_ (pairwise_of_forall fun _ _ => trivial)
  intro x y hx _ _ hline
  rw [h x hx] at hline
  cases hline

theorem StreamState.Settled.quiet (hS : s.Settled) (hphase : s.phase ≠ .finished) :
    ∀ x ∈ s.trace, x.isLine = false :=
  fun x hx => Bool.eq_false_iff.mpr fun hline => hphase (hS.visible x hx hline)

theorem quiet_own (own : List Line) : ∀ x ∈ own.map Item.own, x.isLine = false := by
  simp [Item.isLine]

theorem StreamState.Settled.step (hS : s.Settled) (hok : WholeKiro s a)
    (h : streamStep cfg s a = some s') : s'.Settled := by
  obtain ⟨hphase, hcases⟩ := streamStep_cases h
  have hquiet := hS.quiet hphase
  rcases hcases with ⟨own, htrace⟩ | ⟨reply, budgetLeft, items, outcome, rfl, hspec, ⟨own, htrace⟩,
    hend⟩
  · have hquiet' : ∀ x ∈ s'.trace, x.isLine = false := by
      rw [htrace]
      exact forall_mem_append.mpr ⟨hquiet, quiet_own own⟩
    refine ⟨noAttemptAfterOutput_of_quiet hquiet', noRequestAfterText_of_quiet hquiet', ?_⟩
    intro x hx hline
    rw [hquiet' x hx] at hline
    cases hline
  · have htrace' : s'.trace = s.trace ++ (.attempt :: items ++ own.map .own) := by
      simpa using htrace
    refine ⟨?_, ?_, ?_⟩
    · rw [htrace']
      refine pairwise_append.mpr ⟨hS.attempts, ?_, ?_⟩
      · refine List.Pairwise.cons (fun _ _ hline => by cases hline) ?_
        refine List.Pairwise.imp_of_mem (R := fun _ _ => True) ?_
          (pairwise_of_forall fun _ _ => trivial)
        intro x y _ hy _ _
        rcases mem_append.mp hy with hy | hy
        · exact hspec.no_attempt y hy
        · obtain ⟨l, _, rfl⟩ := mem_map.mp hy
          exact Item.noConfusion
      · intro x hx y _ hline
        rw [hquiet x hx] at hline
        cases hline
    · rw [htrace']
      refine (noRequestAfterText_of_quiet hquiet).append ?_ (.inl fun x hx => ?_)
      · refine List.Pairwise.cons (fun _ _ htext => by cases htext) ?_
        exact (hspec.no_request hok.1).append (noRequestAfterText_of_quiet (quiet_own own))
          (.inr (by simp))
      · exact Bool.eq_false_iff.mpr fun htext => by
          have hline := Item.isLine_of_isText htext
          rw [hquiet x hx] at hline
          cases hline
    · intro x hx hline
      rcases hspec.raises with hitems | hfin | hterm | ⟨hfails, hretry⟩
      · -- the attempt has yielded nothing, so no line is out
        have hquiet' : ∀ x ∈ s'.trace, x.isLine = false := by
          rw [htrace']
          refine forall_mem_append.mpr ⟨hquiet, forall_mem_cons.mpr ⟨rfl, ?_⟩⟩
          exact forall_mem_append.mpr ⟨hitems, quiet_own own⟩
        rw [hquiet' x hx] at hline
        cases hline
      · exact hend (.inl hfin)
      · exact hend (.inr (.inl hterm))
      · rcases hok.2 with hlast | hnot
        · exact hend (.inr (.inr ⟨hlast, hretry⟩))
        · rw [hfails] at hnot
          cases hnot

theorem countP_isCreated_of_quiet {items : List Item} (h : ∀ x ∈ items, x.isLine = false) :
    items.countP Item.isCreated = 0 :=
  countP_isCreated_eq_zero fun x hx => Bool.eq_false_iff.mpr fun hc => by
    have hline := Item.isLine_of_isCreated hc
    rw [h x hx] at hline
    cases hline

theorem StreamState.Settled.created (hS : s.Settled) (hs : s.trace.countP Item.isCreated ≤ 1)
    (ha : a.createdOnce = true) (h : streamStep cfg s a = some s') :
    s'.trace.countP Item.isCreated ≤ 1 := by
  obtain ⟨hphase, hcases⟩ := streamStep_cases h
  have hown := fun own => countP_isCreated_of_quiet (quiet_own own)
  rcases hcases with ⟨own, htrace⟩ | ⟨reply, budgetLeft, items, outcome, rfl, hspec, ⟨own, htrace⟩,
    _⟩
  · rw [htrace, countP_append, hown]
    exact hs
  · have hbefore := countP_isCreated_of_quiet (hS.quiet hphase)
    have hattempt : (Item.attempt :: items).countP Item.isCreated = items.countP Item.isCreated :=
      countP_cons_of_neg Bool.false_ne_true
    rw [htrace, countP_append, hown, countP_append, hbefore, hattempt, Nat.zero_add]
    exact hspec.created ha

def StreamState.SettledOnce (s : StreamState) : Prop :=
  s.Settled ∧ s.trace.countP Item.isCreated ≤ 1

theorem settled_initialStream : initialStream.Settled :=
  ⟨List.Pairwise.nil, List.Pairwise.nil, fun _ hx => by cases hx⟩

/-- **No retry after output**, in every run in which Kiro attempts are whole: no attempt starts
after a line of an attempt is out, no request is sent after text is out, and `response.created`
comes once if the upstream sends it once. -/
theorem no_retry_after_output_of_whole_kiro {acts : List StreamAct}
    (hrun : run (streamStep cfg) acts initialStream = some s)
    (hok : Along (streamStep cfg) WholeKiro acts initialStream) :
    NoAttemptAfterOutput s.trace ∧ NoRequestAfterText s.trace ∧
      ((∀ a ∈ acts, a.createdOnce = true) → s.trace.countP Item.isCreated ≤ 1) := by
  have hS : s.Settled := run_invariant_along (fun hS hok hstep => hS.step hok hstep)
    settled_initialStream hok hrun
  refine ⟨hS.attempts, hS.requests, fun hcreated => ?_⟩
  have hinv : s.SettledOnce :=
    run_invariant_along
      (fun hS hok hstep => ⟨hS.1.step hok.1 hstep, hS.1.created hS.2 hok.2 hstep⟩)
      ⟨settled_initialStream, Nat.zero_le 1⟩ (hok.and_forall hcreated) hrun
  exact hinv.2

end

def defaultStreamConfig : StreamConfig := ⟨false, false, true⟩

def threeAttempts : List StreamAct :=
  [.selected (some ⟨"a1", false⟩), .refreshed true,
    .replied (.openAi (.accepted false [responseFailedEvent "server_error"] .closed)) true,
    .replied (.openAi (.rejected false 429 "rate_limit_exceeded")) true,
    .selected (some ⟨"k1", true⟩), .refreshed true,
    .replied (.kiro (.generation (.status 500) (.events [.text "Hello"] false))) true]

theorem no_retry_after_output_three_attempts :
    ∃ s, run (streamStep defaultStreamConfig) threeAttempts initialStream = some s ∧
      s.trace.count .attempt = 3 ∧
      NoAttemptAfterOutput s.trace ∧ NoRequestAfterText s.trace ∧
      ((∀ a ∈ threeAttempts, a.createdOnce = true) → s.trace.countP Item.isCreated ≤ 1) := by
  have hrun : run (streamStep defaultStreamConfig) threeAttempts initialStream = some _ := rfl
  exact ⟨_, hrun, by decide, no_retry_after_output_of_whole_kiro hrun (by decide)⟩

def kiroFailure : List StreamAct :=
  [.selected (some ⟨"k1", true⟩), .refreshed true,
    .replied (.kiro (.generation (.events [.text "Hel"] true) (.status 500))) true,
    .selected (some ⟨"k2", true⟩), .refreshed true,
    .replied (.kiro (.generation (.events [.text "Hello"] false) .unreachable)) true]

/-- **A failed Kiro attempt is retried after output**: the client gets `Hel`, then the text from the
start. -/
theorem kiro_error_retried :
    ∃ s, run (streamStep defaultStreamConfig) kiroFailure initialStream = some s ∧
      ¬ NoAttemptAfterOutput s.trace ∧ ¬ NoRequestAfterText s.trace ∧
      s.trace.countP Item.isCreated = 2 ∧
      (s.trace.map Item.deltaText).filter (· ≠ "") = ["Hel", "Hello"] := by
  refine ⟨_, rfl, ?_, ?_, ?_, ?_⟩ <;> decide

end CodexOctopus

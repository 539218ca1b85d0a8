import CodexOctopus.Run
import CodexOctopus.LoadBalancer

/-!
# Operator decisions and traffic in flight

The `accounts` table under pauses, reactivations, re-imports and permanent
failures, and under the load balancer's writes for requests that work on account
objects read earlier. Every step is one SQL statement; between a read and a write
anything may happen.

An account is *held* while the last explicit action on it (an operator's, or a
permanent failure) put it on hold.
-/

namespace CodexOctopus

open List Option Table Lts

structure AccountsState where
  rows : List Account
  objects : List Account
  held : List String

inductive AccountAct : Type where
  | load (id : String)
  /-- `pause_account` -/
  | pause (id : String)
  | reactivate (id : String)
  /-- `upsert` of an imported or re-authorised account -/
  | reimport (account : Account)
  /-- `update_status(DEACTIVATED, reason)`; only the auth health check clears `blocked_at` -/
  | deactivate (id reason : String) (clearBlocked : Bool)
  | markRateLimit (n : ℕ) (runtime : RuntimeState) (now delay : ℚ) (error : UpstreamError)
  | markQuotaExceeded (n : ℕ) (runtime : RuntimeState) (now : ℚ) (error : UpstreamError)
  | markPermanentFailure (n : ℕ) (runtime : RuntimeState) (errorCode : String)
  | recordErrors (n : ℕ) (runtime : RuntimeState) (now : ℚ) (count : ℕ)
  /-- selection writes the state of one candidate, and keeps a copy if it is chosen -/
  | select (n : ℕ) (runtime : RuntimeState) (usage : UsageInput) (now : ℚ) (passes : List ℚ)
      (grace : Option ℚ) (chosen : Bool)
  /-- the automations' reactivation of an account whose reset time is over -/
  | reactivateElapsed (n : ℕ) (nowEpoch : ℤ)

/-- The state selection writes for a candidate: built from the object, after some passes, and with
the status of the time-advanced copy if it is chosen within the grace period (10 s). -/
def selectState (runtime : RuntimeState) (usage : UsageInput) (now : ℚ) (passes : List ℚ)
    (grace : Option ℚ) (account : Account) : AccountState :=
  let state := passes.foldl (fun state t => (checkAvailability t state).1)
    (stateFromAccount now runtime usage account)
  match grace with
  | none => state
  | some t =>
    if state.status = .rateLimited then
      let copy := (checkAvailability (t + 10) state).1
      { state with status := copy.status, deactivationReason := copy.deactivationReason }
    else state

def recordErrorsState (runtime : RuntimeState) (now : ℚ) (count : ℕ) (account : Account) :
    AccountState :=
  let state := stateFor runtime account
  { state with errorCount := state.errorCount + count, lastErrorAt := some now }

def AccountsState.persist (s : AccountsState) (n : ℕ) (account : Account) (state : AccountState) :
    AccountsState :=
  let (rows, account) := persistState account state s.rows
  { s with rows := rows, objects := s.objects.set n account }

def accountStep (s : AccountsState) : AccountAct → Option AccountsState
  | .load id => (lookup Account.id s.rows id).map fun r => { s with objects := s.objects ++ [r] }
  | .pause id =>
    some { s with
      rows := updateStatus id .paused none none (some none) s.rows
      held := id :: s.held }
  | .reactivate id =>
    some { s with
      rows := updateStatus id .active none none (some none) s.rows
      held := s.held.filter (· ≠ id) }
  | .reimport account =>
    some { s with
      rows :=
        if (lookup Account.id s.rows account.id).isSome then
          updateWhere (fun r => r.id = account.id) (·.withColumns account.columns) s.rows
        else s.rows ++ [account]
      held := s.held.filter (· ≠ account.id) }
  | .deactivate id reason clearBlocked =>
    some { s with
      rows := updateStatus id .deactivated (some reason) none
        (if clearBlocked then some none else none) s.rows
      held := id :: s.held }
  | .markRateLimit n runtime now delay error =>
    s.objects[n]?.map fun account =>
      s.persist n account (handleRateLimit now delay error (stateFor runtime account))
  | .markQuotaExceeded n runtime now error =>
    s.objects[n]?.map fun account =>
      s.persist n account (handleQuotaExceeded now error (stateFor runtime account))
  | .markPermanentFailure n runtime errorCode =>
    s.objects[n]?.map fun account =>
      let state := handlePermanentFailure errorCode (stateFor runtime account)
      { s.persist n account state with
        -- an object that already has these columns writes nothing
        held := if account.columns = state.columns then s.held else account.id :: s.held }
  | .recordErrors n runtime now count =>
    s.objects[n]?.map fun account =>
      -- `record_errors` writes through a clone, so the object itself stays
      { s with
        rows := (persistStateIfCurrent account (recordErrorsState runtime now count account)
          s.rows).1 }
  | .select n runtime usage now passes grace chosen =>
    s.objects[n]?.map fun account =>
      let state := selectState runtime usage now passes grace account
      let (rows, object, persisted) := persistStateIfCurrent account state s.rows
      let copy : Account :=
        { account with
          status := state.status
          deactivationReason := state.deactivationReason
          resetAt := state.columns.resetAt }
      { s with
        rows := rows
        objects := s.objects.set n object ++ if chosen && persisted then [copy] else [] }
  | .reactivateElapsed n nowEpoch =>
    s.objects[n]?.map fun account =>
      if (account.status = .rateLimited ∨ account.status = .quotaExceeded) ∧
          account.resetAt.any (· ≤ nowEpoch) then
        let (rows, updated) := updateStatusIfCurrent account.id ⟨.active, none, none, none⟩
          account.columns s.rows
        { s with
          rows := rows
          objects := s.objects.set n
            (if updated then account.withColumns ⟨.active, none, none, none⟩ else account) }
      else s

def Respects (held : List String) (rows : List Account) : Prop :=
  ∀ r ∈ rows, r.id ∈ held → r.status.onHold = true

def HoldsRespected (s : AccountsState) : Prop := Respects s.held s.rows

def MarksFreeRow (s : AccountsState) : AccountAct → Prop
  | .markRateLimit n .. | .markQuotaExceeded n .. =>
    ∀ account ∈ s.objects[n]?, ∀ r ∈ s.rows, r.id = account.id → r.status.onHold = false
  | _ => True

instance (s : AccountsState) : ∀ a, Decidable (MarksFreeRow s a)
  | .markRateLimit n .. | .markQuotaExceeded n .. =>
    inferInstanceAs (Decidable (∀ account ∈ s.objects[n]?, _))
  | .load _ | .pause _ | .reactivate _ | .reimport _ | .deactivate .. | .markPermanentFailure ..
  | .recordErrors .. | .select .. | .reactivateElapsed .. => .isTrue trivial

section

variable {s s' : AccountsState} {rows : List Account} {held : List String}

/-! ## What the writers keep -/

variable {id : String} {account : Account} {state : AccountState}

theorem mem_updateStatus {status : AccountStatus} {reason : Option String} {resetAt : Option ℤ}
    {blockedAt : Option (Option ℤ)} {r : Account}
    (h : r ∈ updateStatus id status reason resetAt blockedAt rows) :
    (r ∈ rows ∧ r.id ≠ id) ∨ (r.id = id ∧ r.status = status ∧ ∃ r₀ ∈ rows, r₀.id = id) := by
  obtain ⟨r₀, hr₀, rfl⟩ := mem_updateWhere.mp h
  by_cases hid : r₀.id = id
  · exact .inr ⟨by simp [hid], by simp [hid], r₀, hr₀, hid⟩
  · exact .inl (by simp [hid, hr₀])

theorem Respects.updateStatus (h : Respects held rows) {status : AccountStatus}
    {reason : Option String} {resetAt : Option ℤ} {blockedAt : Option (Option ℤ)}
    {held' : List String} (hsub : ∀ k ∈ held', k ≠ id → k ∈ held)
    (hok : ∀ r₀ ∈ rows, r₀.id = id → id ∈ held' → status.onHold = true) :
    Respects held' (updateStatus id status reason resetAt blockedAt rows) := by
  intro r hr hheld
  rcases mem_updateStatus hr with ⟨hr₀, hne⟩ | ⟨hid, hstatus, r₀, hr₀, hid₀⟩
  · exact h r hr₀ (hsub r.id hheld hne)
  · rw [hstatus]
    exact hok r₀ hr₀ hid₀ (hid ▸ hheld)

theorem Respects.updateStatusIfCurrent (h : Respects held rows) {c expected : StatusColumns}
    (hok : expected.status.onHold = true → c.status.onHold = true) :
    Respects held (updateStatusIfCurrent id c expected rows).1 := by
  intro r hr hheld
  obtain ⟨r₀, hr₀, rfl⟩ := mem_updateWhere.mp hr
  by_cases hhit : r₀.id = id ∧ r₀.columns = expected
  · simp only [hhit, and_self, decide_true, if_true, Account.withColumns_id,
      Account.withColumns_status] at hheld ⊢
    have hold := h r₀ hr₀ (hhit.1.symm ▸ hheld)
    exact hok (hhit.2 ▸ hold)
  · simp only [hhit, decide_false, Bool.false_eq_true, if_false] at hheld ⊢
    exact h r₀ hr₀ hheld

theorem Respects.persistStateIfCurrent (h : Respects held rows)
    (hok : account.status.onHold = true → state.status.onHold = true) :
    Respects held (persistStateIfCurrent account state rows).1 := by
  rw [CodexOctopus.persistStateIfCurrent]
  split
  · exact h
  · exact h.updateStatusIfCurrent hok

theorem Respects.persistState (h : Respects held rows) {held' : List String}
    (hsub : ∀ k ∈ held', k ≠ account.id → k ∈ held)
    (hsame : account.columns = state.columns → held' = held)
    (hok : ∀ r₀ ∈ rows, r₀.id = account.id → account.id ∈ held' → state.status.onHold = true) :
    Respects held' (persistState account state rows).1 := by
  rw [CodexOctopus.persistState]
  split
  · next hcols => exact hsame hcols ▸ h
  · exact h.updateStatus hsub hok

/-! ## Selection leaves accounts on hold alone -/

theorem foldl_checkAvailability_onHold (h : state.status.onHold = true) (passes : List ℚ) :
    passes.foldl (fun state t => (checkAvailability t state).1) state = state := by
  induction passes with
  | nil => rfl
  | cons t passes ih => rw [foldl_cons, checkAvailability_onHold h, ih]

theorem selectState_onHold {runtime : RuntimeState} {usage : UsageInput} {now : ℚ} {passes : List ℚ}
    {grace : Option ℚ} (h : account.status.onHold = true) :
    (selectState runtime usage now passes grace account).status.onHold = true := by
  have hfrom : (stateFromAccount now runtime usage account).status = account.status :=
    applyUsageQuota_onHold h
  have hpass := foldl_checkAvailability_onHold (hfrom.symm ▸ h) passes
  have hne : account.status ≠ .rateLimited := by
    intro hh
    rw [hh] at h
    cases h
  unfold selectState
  rw [hpass]
  cases grace with
  | none => simpa [hfrom] using h
  | some t => simpa [hfrom, hne] using h

/-! ## Runs -/

theorem HoldsRespected.mark (h : HoldsRespected s) {n : ℕ}
    (hfree : ∀ r ∈ s.rows, r.id = account.id → r.status.onHold = false) :
    HoldsRespected (s.persist n account state) := by
  refine Respects.persistState h (fun k hk _ => hk) (fun _ => rfl) ?_
  intro r₀ hr₀ hid hheld
  have hhold := h r₀ hr₀ (hid ▸ hheld)
  rw [hfree r₀ hr₀ hid] at hhold
  cases hhold

theorem accountStep_respects {a : AccountAct} (h : HoldsRespected s) (hok : MarksFreeRow s a)
    (hstep : accountStep s a = some s') : HoldsRespected s' := by
  cases a with
  | load id =>
    obtain ⟨r, _, rfl⟩ := map_eq_some_iff.mp hstep
    exact h
  | pause id =>
    cases hstep
    exact Respects.updateStatus h (fun k hk hne => mem_of_ne_of_mem hne hk) fun _ _ _ _ => rfl
  | reactivate id =>
    cases hstep
    exact Respects.updateStatus h (fun k hk _ => mem_of_mem_filter hk) (by simp)
  | reimport account =>
    cases hstep
    intro r hr hheld
    obtain ⟨hheld, hne⟩ := mem_filter.mp hheld
    have hne : r.id ≠ account.id := by simpa using hne
    simp only at hr
    split at hr
    · obtain ⟨r₀, hr₀, rfl⟩ := mem_updateWhere.mp hr
      by_cases hid : r₀.id = account.id
      · simp [hid] at hne
      · simp only [hid, decide_false, Bool.false_eq_true, if_false] at hheld ⊢
        exact h r₀ hr₀ hheld
    · rcases mem_append.mp hr with hr | hr
      · exact h r hr hheld
      · exact absurd (congrArg Account.id (mem_singleton.mp hr)) hne
  | deactivate id reason clearBlocked =>
    cases hstep
    exact Respects.updateStatus h (fun k hk hne => mem_of_ne_of_mem hne hk) fun _ _ _ _ => rfl
  | markRateLimit n runtime now delay error =>
    obtain ⟨account, hn, rfl⟩ := map_eq_some_iff.mp hstep
    exact h.mark (hok account hn)
  | markQuotaExceeded n runtime now error =>
    obtain ⟨account, hn, rfl⟩ := map_eq_some_iff.mp hstep
    exact h.mark (hok account hn)
  | markPermanentFailure n runtime errorCode =>
    obtain ⟨account, hn, rfl⟩ := map_eq_some_iff.mp hstep
    refine Respects.persistState h ?_ (fun hcols => if_pos hcols) fun _ _ _ _ => rfl
    intro k hk hne
    simp only at hk
    split at hk
    · exact hk
    · exact mem_of_ne_of_mem hne hk
  | recordErrors n runtime now count =>
    obtain ⟨account, hn, rfl⟩ := map_eq_some_iff.mp hstep
    exact Respects.persistStateIfCurrent h id
  | select n runtime usage now passes grace chosen =>
    obtain ⟨account, hn, rfl⟩ := map_eq_some_iff.mp hstep
    exact Respects.persistStateIfCurrent h selectState_onHold
  | reactivateElapsed n nowEpoch =>
    obtain ⟨account, hn, rfl⟩ := map_eq_some_iff.mp hstep
    simp only
    split
    · next hguard =>
      refine Respects.updateStatusIfCurrent h ?_
      intro hhold
      -- the compare-and-swap expects a rate-limited or quota-exceeded row
      rcases hguard.1 with hs | hs
      · rw [Account.columns, hs] at hhold
        cases hhold
      · rw [Account.columns, hs] at hhold
        cases hhold
    · exact h

/-- **Operator decisions survive traffic** in every run in which `mark_rate_limit` and
`mark_quota_exceeded` write to no row on hold. -/
theorem holds_respected_of_free_marks {acts : List AccountAct} {s₀ : AccountsState}
    (hnone : s₀.held = []) (hok : Along accountStep MarksFreeRow acts s₀)
    (hrun : run accountStep acts s₀ = some s) : HoldsRespected s := by
  have h₀ : HoldsRespected s₀ := by
    intro r _ hheld
    rw [hnone] at hheld
    cases hheld
  exact run_invariant_along accountStep_respects h₀ hok hrun

end

def pauseRun (pauseFirst : Bool) : List AccountAct :=
  let mark := AccountAct.markRateLimit 0 ⟨none, none, none, 0, none⟩ 1700000000 1
    ⟨none, some 1700003600, none⟩
  .load "a" :: if pauseFirst then [.pause "a", mark] else [mark, .pause "a"]

def oneActive : AccountsState := ⟨[⟨"a", .active, none, none, none⟩], [], []⟩

theorem holds_respected_late_pause :
    ∃ s, run accountStep (pauseRun false) oneActive = some s ∧ s.held = ["a"] ∧
      HoldsRespected s := by
  have hrun : run accountStep (pauseRun false) oneActive = some _ := rfl
  exact ⟨_, hrun, rfl, holds_respected_of_free_marks rfl (by decide) hrun⟩

/-- The mark of a request routed before the pause sets the paused account to
RATE_LIMITED. -/
theorem rate_limit_over_pause :
    ∃ s, run accountStep (pauseRun true) oneActive = some s ∧ ¬ HoldsRespected s := by
  refine ⟨_, rfl, ?_⟩
  intro h
  exact absurd (h _ (mem_singleton.mpr rfl) (mem_singleton.mpr rfl)) (by decide)

end CodexOctopus

import CodexOctopus.Python
import CodexOctopus.Table

/-!
# Account states

The balancer's working copy of an account and the functions that move its
status: `app/core/balancer/logic.py` (the availability pass of `select_account`
and the failure handlers) and `apply_usage_quota` of `app/core/usage/quota.py`.

Times are seconds and percentages are per cent, both exact rationals where the
source has floats. A clock reading is an argument. What the pass over the
candidates decides about one account depends on that account alone, so it is a
function of one state: the state with the changes the pass makes, and whether the
account is available.

The rule that the rest relies on is at the end: no function here touches the
status of a paused or deactivated account, except the handlers of failures.
-/

namespace CodexOctopus

open Python

inductive AccountStatus : Type where
  | active
  | rateLimited
  | quotaExceeded
  | paused
  | deactivated
  deriving DecidableEq

/-- The statuses only an operator, a re-import or a login takes an account out of. -/
def AccountStatus.onHold : AccountStatus → Bool
  | .paused | .deactivated => true
  | .active | .rateLimited | .quotaExceeded => false

structure UpstreamError where
  message : Option String
  resetsAt : Option ℚ
  resetsInSeconds : Option ℚ
  deriving DecidableEq

structure AccountState where
  accountId : String
  status : AccountStatus
  usedPercent : Option ℚ
  resetAt : Option ℚ
  blockedAt : Option ℚ
  cooldownUntil : Option ℚ
  secondaryUsedPercent : Option ℚ
  secondaryResetAt : Option ℤ
  lastErrorAt : Option ℚ
  errorCount : ℕ
  deactivationReason : Option String
  deriving DecidableEq

/-! ## Failure handlers -/

def extractResetAt (now : ℚ) (error : UpstreamError) : Option ℤ :=
  match error.resetsAt with
  | some t => some (toInt t)
  | none =>
    match error.resetsInSeconds with
    | some d => some (toInt (now + d))
    | none => none

/-- `handle_rate_limit`. `delay` is the number of seconds the error's message asks to
wait, or the randomised backoff. -/
def handleRateLimit (now delay : ℚ) (error : UpstreamError) (state : AccountState) : AccountState :=
  { state with
    status := .rateLimited
    errorCount := state.errorCount + 1
    lastErrorAt := some now
    blockedAt := some now
    resetAt :=
      match extractResetAt now error with
      | some t => some t
      | none => state.resetAt
    cooldownUntil := some (now + delay) }

def handleQuotaExceeded (now : ℚ) (error : UpstreamError) (state : AccountState) : AccountState :=
  { state with
    status := .quotaExceeded
    usedPercent := some 100
    blockedAt := some now
    cooldownUntil := some (now + 120)
    resetAt :=
      match extractResetAt now error with
      | some t => some t
      | none => some (toInt (now + 3600)) }

def permanentFailureReason (errorCode : String) : String :=
  if errorCode = "refresh_token_expired" then "Refresh token expired - re-login required"
  else if errorCode = "refresh_token_reused" then "Refresh token was reused - re-login required"
  else if errorCode = "refresh_token_invalidated" then
    "Refresh token was revoked - re-login required"
  else if errorCode = "account_deactivated" then "Account has been deactivated"
  else if errorCode = "account_suspended" then "Account has been suspended"
  else if errorCode = "account_deleted" then "Account has been deleted"
  else "Authentication failed: " ++ errorCode

def handlePermanentFailure (errorCode : String) (state : AccountState) : AccountState :=
  { state with
    status := .deactivated
    deactivationReason := some (permanentFailureReason errorCode)
    blockedAt := none }

/-! ## Usage windows -/

def fallbackPrimaryReset (now : ℚ) (primaryWindowMinutes : Option ℤ) : ℚ :=
  let minutes := (primaryWindowMinutes.filter (· ≠ 0)).getD 300
  now + minutes * 60

structure QuotaInput where
  primaryUsed : Option ℚ
  primaryReset : Option ℤ
  primaryWindowMinutes : Option ℤ
  runtimeReset : Option ℚ
  secondaryUsed : Option ℚ
  secondaryReset : Option ℤ

def resetPending (now : ℚ) (runtimeReset : Option ℚ) : Bool :=
  (orNone runtimeReset).any (now < ·)

def applyPrimary (now : ℚ) (q : QuotaInput) (status : AccountStatus) (resetAt : Option ℚ) :
    AccountStatus × Option ℚ × Option ℚ :=
  match q.primaryUsed with
  | none => (status, q.primaryUsed, resetAt)
  | some used =>
    if 100 ≤ used then
      (.rateLimited, some 100,
        match q.primaryReset with
        | some t => some t
        | none => (orNone (some (fallbackPrimaryReset now q.primaryWindowMinutes))).or resetAt)
    else if status = .rateLimited then
      if resetPending now q.runtimeReset then (status, q.primaryUsed, q.runtimeReset)
      else (.active, q.primaryUsed, none)
    else (status, q.primaryUsed, resetAt)

def applyUsageQuota (now : ℚ) (q : QuotaInput) (status : AccountStatus) :
    AccountStatus × Option ℚ × Option ℚ :=
  if status = .deactivated ∨ status = .paused then (status, q.primaryUsed, q.runtimeReset)
  else
    match q.secondaryUsed with
    | some used =>
      if 100 ≤ used then
        (.quotaExceeded, some 100,
          match q.secondaryReset with
          | some t => some t
          | none => q.runtimeReset)
      else if status = .quotaExceeded then
        if resetPending now q.runtimeReset then applyPrimary now q status q.runtimeReset
        else applyPrimary now q .active none
      else applyPrimary now q status q.runtimeReset
    | none =>
      match q.secondaryReset with
      | some t =>
        if status = .quotaExceeded then applyPrimary now q status (some t)
        else applyPrimary now q status q.runtimeReset
      | none => applyPrimary now q status q.runtimeReset

/-! ## The availability pass -/

inductive Eligibility : Type where
  | available
  | inErrorBackoff
  | excluded
  deriving DecidableEq

def resetElapsed (current : ℚ) (state : AccountState) : Bool :=
  (orNone state.resetAt).any (· ≤ current)

def checkCooldown (current : ℚ) (state : AccountState) : AccountState × Eligibility :=
  let state :=
    if (orNone state.cooldownUntil).any (· ≤ current) then
      { state with cooldownUntil := none, lastErrorAt := none, errorCount := 0 }
    else state
  if (orNone state.cooldownUntil).any (current < ·) then (state, .excluded)
  else if 3 ≤ state.errorCount then
    let backoff : ℚ := min 300 (30 * 2 ^ (state.errorCount - 3))
    if (orNone state.lastErrorAt).any (current - · < backoff) then (state, .inErrorBackoff)
    else ({ state with errorCount := 0, lastErrorAt := none }, .available)
  else (state, .available)

def checkAvailability (current : ℚ) (state : AccountState) : AccountState × Eligibility :=
  match state.status with
  | .deactivated => (state, .excluded)
  | .paused => (state, .excluded)
  | .rateLimited =>
    if resetElapsed current state then
      checkCooldown current { state with status := .active, errorCount := 0, resetAt := none }
    else (state, .excluded)
  | .quotaExceeded =>
    if resetElapsed current state then
      checkCooldown current { state with status := .active, usedPercent := some 0, resetAt := none }
    else (state, .excluded)
  | .active => checkCooldown current state

/-! ## Accounts on hold -/

theorem applyUsageQuota_onHold {now : ℚ} {q : QuotaInput} {status : AccountStatus}
    (h : status.onHold = true) : (applyUsageQuota now q status).1 = status := by
  cases status with
  | paused => rfl
  | deactivated => rfl
  | active => cases h
  | rateLimited => cases h
  | quotaExceeded => cases h

theorem checkAvailability_onHold {current : ℚ} {state : AccountState}
    (h : state.status.onHold = true) : (checkAvailability current state).1 = state := by
  rw [checkAvailability]
  cases hs : state.status with
  | paused => rfl
  | deactivated => rfl
  | active => rw [hs] at h; cases h
  | rateLimited => rw [hs] at h; cases h
  | quotaExceeded => rw [hs] at h; cases h

end CodexOctopus

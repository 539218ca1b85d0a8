import CodexOctopus.Balancer

/-!
# The load balancer's view of accounts, and how it writes them

`app/modules/proxy/load_balancer.py` works on account objects read earlier (a
cached selection input, the account a request was routed to) and writes their
status columns back in two ways:

* `_persist_state`, behind `mark_rate_limit`, `mark_quota_exceeded` and
  `mark_permanent_failure`: an unconditional `update_status`;
* `_persist_state_if_current`, behind selection and `record_errors`: the
  compare-and-swap `update_status_if_current`, which requires the row to have the
  four columns the object has.

Both compare the new state with the object, not with the row, to decide whether
to write at all, and both bring the object up to date after a write.
-/

namespace CodexOctopus

open Python

/-- The columns of `Account` that say whether it can serve traffic. -/
structure Account where
  id : String
  status : AccountStatus
  deactivationReason : Option String
  resetAt : Option ℤ
  blockedAt : Option ℤ
  deriving DecidableEq

structure StatusColumns where
  status : AccountStatus
  deactivationReason : Option String
  resetAt : Option ℤ
  blockedAt : Option ℤ
  deriving DecidableEq

def Account.columns (a : Account) : StatusColumns :=
  ⟨a.status, a.deactivationReason, a.resetAt, a.blockedAt⟩

def Account.withColumns (c : StatusColumns) (a : Account) : Account :=
  ⟨a.id, c.status, c.deactivationReason, c.resetAt, c.blockedAt⟩

@[simp] theorem Account.withColumns_id (c : StatusColumns) (a : Account) :
    (a.withColumns c).id = a.id := rfl

@[simp] theorem Account.withColumns_status (c : StatusColumns) (a : Account) :
    (a.withColumns c).status = c.status := rfl

structure RuntimeState where
  resetAt : Option ℚ
  cooldownUntil : Option ℚ
  lastErrorAt : Option ℚ
  errorCount : ℕ
  blockedAt : Option ℚ
  deriving DecidableEq

structure UsageEntry where
  usedPercent : Option ℚ
  resetAt : Option ℤ
  windowMinutes : Option ℤ
  recordedAt : Option ℚ
  deriving DecidableEq

/-! ## States -/

def stateFor (runtime : RuntimeState) (account : Account) : AccountState where
  accountId := account.id
  status := account.status
  usedPercent := none
  resetAt := runtime.resetAt
  blockedAt :=
    match account.blockedAt with
    | some t => some t
    | none => runtime.blockedAt
  cooldownUntil := runtime.cooldownUntil
  secondaryUsedPercent := none
  secondaryResetAt := none
  lastErrorAt := runtime.lastErrorAt
  errorCount := runtime.errorCount
  deactivationReason := account.deactivationReason

def laterFirst {α : Type} [LT α] [DecidableEq α] [∀ a b : α, Decidable (a < b)] :
    Option α → Option α → Option Bool
  | some p, some s => if p = s then none else some (decide (s < p))
  | some _, none => some true
  | none, some _ => some false
  | none, none => none

def shouldUseWeeklyPrimary (primary : UsageEntry) (secondary : Option UsageEntry) : Bool :=
  if primary.windowMinutes = some 10080 then
    match secondary with
    | none => true
    | some s =>
      ((laterFirst primary.recordedAt s.recordedAt).or
        (laterFirst primary.resetAt s.resetAt)).getD true
  else false

structure UsageInput where
  primary : Option UsageEntry
  secondary : Option UsageEntry
  usageRefreshIntervalSeconds : ℕ

def UsageInput.effectiveSecondary (u : UsageInput) : Option UsageEntry :=
  match u.primary with
  | none => u.secondary
  | some p => if shouldUseWeeklyPrimary p u.secondary then some p else u.secondary

def recentEnough (now : ℚ) (interval : ℕ) (recordedAt : Option ℚ) : Bool :=
  recordedAt.any (now - max (interval * 2) 180 ≤ ·)

def effectiveBlockedAt (runtime : RuntimeState) (account : Account) : Option ℚ :=
  match account.blockedAt with
  | some t => some t
  | none => runtime.blockedAt

/-- `effective_runtime_reset` before the two rules that clear it. -/
def storedReset (runtime : RuntimeState) (account : Account) : Option ℚ :=
  (orNone (account.resetAt.map (↑·))).or runtime.resetAt

/-- A quota block without a marker is over once a recent secondary row shows room in a
later window. -/
def staleQuotaBlock (now : ℚ) (runtime : RuntimeState) (u : UsageInput) (account : Account) :
    Bool :=
  account.status = .quotaExceeded &&
  (effectiveBlockedAt runtime account).isNone &&
  (storedReset runtime account).any fun reset =>
    decide (now < reset) &&
    u.effectiveSecondary.any fun e =>
      recentEnough now u.usageRefreshIntervalSeconds e.recordedAt &&
      e.usedPercent.any (· < 100) && e.resetAt.any fun t => decide (reset < t)

def cooldownReady (now : ℚ) (runtime : RuntimeState) (account : Account) : Bool :=
  if account.status = .quotaExceeded then
    (effectiveBlockedAt runtime account).any fun t => decide (t + 120 ≤ now)
  else runtime.cooldownUntil.any (· ≤ now) && runtime.blockedAt.isSome

/-- A usage row recorded after the block clears the reset guard once the cooldown is
over. -/
def refreshedAfterBlock (now : ℚ) (runtime : RuntimeState) (u : UsageInput) (account : Account) :
    Bool :=
  cooldownReady now runtime account &&
  (effectiveBlockedAt runtime account).any fun blocked =>
    let freshness :=
      match account.status with
      | .quotaExceeded => u.effectiveSecondary
      | .rateLimited => u.primary
      | _ => none
    freshness.any fun e => e.recordedAt.any (blocked < ·)

def effectiveRuntimeReset (now : ℚ) (runtime : RuntimeState) (u : UsageInput)
    (account : Account) : Option ℚ :=
  if staleQuotaBlock now runtime u account || refreshedAfterBlock now runtime u account then none
  else storedReset runtime account

def stateFromAccount (now : ℚ) (runtime : RuntimeState) (u : UsageInput) (account : Account) :
    AccountState :=
  let q : QuotaInput :=
    { primaryUsed := u.primary.bind UsageEntry.usedPercent
      primaryReset := u.primary.bind UsageEntry.resetAt
      primaryWindowMinutes := u.primary.bind UsageEntry.windowMinutes
      runtimeReset := effectiveRuntimeReset now runtime u account
      secondaryUsed := u.effectiveSecondary.bind UsageEntry.usedPercent
      secondaryReset := u.effectiveSecondary.bind UsageEntry.resetAt }
  let (status, usedPercent, resetAt) := applyUsageQuota now q account.status
  { accountId := account.id
    status := status
    usedPercent := usedPercent
    resetAt := resetAt
    blockedAt :=
      if status = .quotaExceeded ∨ status = .rateLimited then effectiveBlockedAt runtime account
      else none
    cooldownUntil := runtime.cooldownUntil
    secondaryUsedPercent := q.secondaryUsed
    secondaryResetAt := q.secondaryReset
    lastErrorAt := runtime.lastErrorAt
    errorCount := runtime.errorCount
    deactivationReason := account.deactivationReason }

def quotaInput (now : ℚ) (runtime : RuntimeState) (u : UsageInput) (account : Account) :
    QuotaInput where
  primaryUsed := u.primary.bind UsageEntry.usedPercent
  primaryReset := u.primary.bind UsageEntry.resetAt
  primaryWindowMinutes := u.primary.bind UsageEntry.windowMinutes
  runtimeReset := effectiveRuntimeReset now runtime u account
  secondaryUsed := u.effectiveSecondary.bind UsageEntry.usedPercent
  secondaryReset := u.effectiveSecondary.bind UsageEntry.resetAt

theorem stateFromAccount_quota {now : ℚ} {runtime : RuntimeState} {u : UsageInput}
    {account : Account} {status : AccountStatus} {used resetAt : Option ℚ}
    (h : applyUsageQuota now (quotaInput now runtime u account) account.status =
      (status, used, resetAt)) :
    (stateFromAccount now runtime u account).status = status ∧
      (stateFromAccount now runtime u account).resetAt = resetAt ∧
      (stateFromAccount now runtime u account).blockedAt =
        if status = .quotaExceeded ∨ status = .rateLimited then effectiveBlockedAt runtime account
        else none := by
  have hs : (stateFromAccount now runtime u account).status =
      (applyUsageQuota now (quotaInput now runtime u account) account.status).1 := rfl
  have hr : (stateFromAccount now runtime u account).resetAt =
      (applyUsageQuota now (quotaInput now runtime u account) account.status).2.2 := rfl
  have hb : (stateFromAccount now runtime u account).blockedAt =
      if (stateFromAccount now runtime u account).status = .quotaExceeded ∨
        (stateFromAccount now runtime u account).status = .rateLimited then
          effectiveBlockedAt runtime account
      else none := rfl
  rw [hb, hs, hr, h]
  exact ⟨rfl, rfl, rfl⟩

/-! ## Writing a state back -/

/-- The column values of a state: `int(x) if x else None`. -/
def AccountState.columns (state : AccountState) : StatusColumns where
  status := state.status
  deactivationReason := state.deactivationReason
  resetAt := (orNone state.resetAt).map toInt
  blockedAt := (orNone state.blockedAt).map toInt

def updateStatus (id : String) (status : AccountStatus) (reason : Option String)
    (resetAt : Option ℤ) (blockedAt : Option (Option ℤ)) (rows : List Account) : List Account :=
  Table.updateWhere (fun r => r.id = id)
    (fun r => r.withColumns ⟨status, reason, resetAt, blockedAt.getD r.blockedAt⟩) rows

def updateStatusIfCurrent (id : String) (c expected : StatusColumns) (rows : List Account) :
    List Account × Bool :=
  let hit := fun r : Account => decide (r.id = id ∧ r.columns = expected)
  (Table.updateWhere hit (·.withColumns c) rows, rows.any hit)

def persistState (account : Account) (state : AccountState) (rows : List Account) :
    List Account × Account :=
  if account.columns = state.columns then (rows, account)
  else
    let c := state.columns
    (updateStatus account.id c.status c.deactivationReason c.resetAt (some c.blockedAt) rows,
      account.withColumns c)

def persistStateIfCurrent (account : Account) (state : AccountState) (rows : List Account) :
    List Account × Account × Bool :=
  if account.columns = state.columns then (rows, account, true)
  else
    let (rows, updated) := updateStatusIfCurrent account.id state.columns account.columns rows
    (rows, if updated then account.withColumns state.columns else account, updated)

end CodexOctopus

import CodexOctopus.AccountRanking
import CodexOctopus.LoadBalancer

/-!
# The runtime entries of the load balancer

`LoadBalancer._runtime`: one entry for each account, in memory. `_build_states` reads the
entries into candidates and moves their health tiers; `_sync_runtime_state` writes the
fields of a state back; the failure marks and `record_errors`, `record_success` change
them directly.

What building does to an entry is only its tier: `buildStates_runtime`. So the fields that
`_sync_runtime_state` writes are those that were built, as far as the passes of
`select_account` have not changed them.
-/

namespace CodexOctopus

open Python

structure PoolAccount extends Account where
  planType : String
  deriving DecidableEq

structure RuntimeEntry extends RuntimeState where
  lastSelectedAt : Option ℚ
  version : ℕ
  healthTier : HealthTier
  drainEnteredAt : Option ℚ
  probeSuccessStreak : ℕ

def RuntimeEntry.fresh : RuntimeEntry where
  resetAt := none
  cooldownUntil := none
  lastErrorAt := none
  errorCount := 0
  blockedAt := none
  lastSelectedAt := none
  version := 0
  healthTier := .healthy
  drainEnteredAt := none
  probeSuccessStreak := 0

structure BalancerSettings where
  usageRefreshIntervalSeconds : ℕ
  cacheTtlSeconds : ℕ
  softDrainEnabled : Bool
  drainPrimaryThresholdPct : ℚ
  drainSecondaryThresholdPct : ℚ
  drainErrorWindowSeconds : ℚ
  drainErrorCountThreshold : ℕ
  probeQuietSeconds : ℚ
  probeSuccessStreakRequired : ℕ
  /-- `get_additional_quota_key_for_model_id` -/
  gatedLimitName : String → Option String
  /-- `canonicalize_additional_quota_key` -/
  canonicalQuotaKey : String → Option String

namespace Balancer

/-! ## Health tiers -/

def evaluateHealthTier (cfg : BalancerSettings) (now : ℚ) (runtime : RuntimeEntry)
    (state : AccountState) : HealthTier :=
  if state.status ≠ .active then runtime.healthTier
  else
    let shouldDrain :=
      state.usedPercent.any (cfg.drainPrimaryThresholdPct ≤ ·) ||
      state.secondaryUsedPercent.any (cfg.drainSecondaryThresholdPct ≤ ·) ||
      (cfg.drainErrorCountThreshold ≤ state.errorCount &&
        state.lastErrorAt.any (now - · < cfg.drainErrorWindowSeconds))
    match runtime.healthTier with
    | .healthy => if shouldDrain then .draining else .healthy
    | .draining =>
      if shouldDrain then .draining
      else if runtime.drainEnteredAt.any (cfg.probeQuietSeconds ≤ now - ·) then .probing
      else .draining
    | .probing =>
      if shouldDrain then .draining
      else if cfg.probeSuccessStreakRequired ≤ runtime.probeSuccessStreak then .healthy
      else .probing

def enterTier (now : ℚ) (tier : HealthTier) (runtime : RuntimeEntry) : RuntimeEntry :=
  let runtime :=
    if tier = .draining ∧ runtime.healthTier ≠ .draining then
      { runtime with drainEnteredAt := some now, probeSuccessStreak := 0 }
    else runtime
  let runtime :=
    if tier = .healthy then { runtime with drainEnteredAt := none, probeSuccessStreak := 0 }
    else runtime
  { runtime with healthTier := tier }

/-! ## Building the candidates -/

def capacityForPlan (planType : String) : Option ℚ :=
  let normalized := lower (strip planType)
  if normalized ∈ ["free", "plus", "pro", "team", "business", "enterprise", "edu"] then
    planCapacityCreditsSecondary normalized
  else none

structure PoolEntry where
  account : PoolAccount
  primary : Option UsageEntry
  secondary : Option UsageEntry

def buildState (cfg : BalancerSettings) (now : ℚ) (runtime : RuntimeEntry) (e : PoolEntry) :
    RuntimeEntry × Candidate :=
  let usage : UsageInput := ⟨e.primary, e.secondary, cfg.usageRefreshIntervalSeconds⟩
  let state := stateFromAccount now runtime.toRuntimeState usage e.account.toAccount
  let tier := if cfg.softDrainEnabled then evaluateHealthTier cfg now runtime state else .healthy
  (enterTier now tier runtime,
    { state with
      lastSelectedAt := runtime.lastSelectedAt
      planType := e.account.planType
      capacityCredits := capacityForPlan e.account.planType
      healthTier := tier })

abbrev RuntimeMap : Type := List (String × RuntimeEntry)

def runtimeOf (accountId : String) (m : RuntimeMap) : RuntimeEntry :=
  (getItem accountId m).getD .fresh

def buildStates (cfg : BalancerSettings) (now : ℚ) :
    List PoolEntry → RuntimeMap → RuntimeMap × List Candidate
  | [], m => (m, [])
  | e :: rest, m =>
    let (runtime, state) := buildState cfg now (runtimeOf e.account.id m) e
    let (m, states) := buildStates cfg now rest (setItem e.account.id runtime m)
    (m, state :: states)

def pruneRuntime (accountIds : List String) (m : RuntimeMap) : RuntimeMap :=
  m.filter fun x => x.1 ∈ accountIds

/-! ## Writing a state back -/

def syncRuntimeState (now : ℚ) (selected : Bool) (expectedVersion : Option ℕ) (account : Account)
    (state : AccountState) (runtime : RuntimeEntry) : RuntimeEntry × Bool :=
  let lastSelectedAt := if selected then some now else runtime.lastSelectedAt
  if expectedVersion.any (runtime.version ≠ ·) then
    ({ runtime with
        lastSelectedAt := lastSelectedAt
        version := if selected then runtime.version + 1 else runtime.version }, false)
  else
    let synced : RuntimeState :=
      ⟨state.resetAt, state.cooldownUntil, state.lastErrorAt, state.errorCount, state.blockedAt⟩
    let dirty := synced ≠ runtime.toRuntimeState || account.status ≠ state.status ||
      account.deactivationReason ≠ state.deactivationReason || selected
    ({ runtime with
        toRuntimeState := synced
        lastSelectedAt := lastSelectedAt
        version := if dirty then runtime.version + 1 else runtime.version }, true)

inductive Failure : Type where
  | rateLimit (error : UpstreamError)
  | quotaExceeded (error : UpstreamError)
  | permanent (errorCode : String)
  deriving DecidableEq

def Failure.handle (now delay : ℚ) : Failure → AccountState → AccountState
  | rateLimit error => handleRateLimit now delay error
  | quotaExceeded error => handleQuotaExceeded now error
  | permanent errorCode => handlePermanentFailure errorCode

def failureState (now delay : ℚ) (failure : Failure) (account : Account) (runtime : RuntimeEntry) :
    AccountState :=
  failure.handle now delay (stateFor runtime.toRuntimeState account)

def errorState (now : ℚ) (count : ℕ) (account : Account) (runtime : RuntimeEntry) : AccountState :=
  let state := stateFor runtime.toRuntimeState account
  { state with errorCount := state.errorCount + count, lastErrorAt := some now }

def recordErrorsEntry (now : ℚ) (count : ℕ) (account : Account) (runtime : RuntimeEntry) :
    RuntimeEntry :=
  let state := errorState now count account runtime
  let runtime := (syncRuntimeState now false none account state runtime).1
  if runtime.healthTier = .probing then { runtime with probeSuccessStreak := 0 } else runtime

def recordSuccessEntry (runtime : RuntimeEntry) : RuntimeEntry :=
  let runtime :=
    if 0 < runtime.errorCount then
      { runtime with errorCount := 0, lastErrorAt := none, version := runtime.version + 1 }
    else runtime
  if runtime.healthTier = .probing then
    { runtime with
      probeSuccessStreak := runtime.probeSuccessStreak + 1
      version := runtime.version + 1 }
  else runtime

/-! ## What building does -/

@[simp] theorem enterTier_toRuntimeState (now : ℚ) (tier : HealthTier) (runtime : RuntimeEntry) :
    (enterTier now tier runtime).toRuntimeState = runtime.toRuntimeState := by
  unfold enterTier
  dsimp only
  split_ifs <;> rfl

@[simp] theorem buildState_toAccountState (cfg : BalancerSettings) (now : ℚ)
    (runtime : RuntimeEntry) (e : PoolEntry) :
    (buildState cfg now runtime e).2.toAccountState =
      stateFromAccount now runtime.toRuntimeState
        ⟨e.primary, e.secondary, cfg.usageRefreshIntervalSeconds⟩ e.account.toAccount := rfl

@[simp] theorem runtimeOf_setItem_self (accountId : String) (runtime : RuntimeEntry)
    (m : RuntimeMap) : runtimeOf accountId (setItem accountId runtime m) = runtime := by
  rw [runtimeOf, getItem_setItem_self, Option.getD_some]

theorem runtimeOf_setItem_of_ne {accountId other : String} (hne : accountId ≠ other)
    (runtime : RuntimeEntry) (m : RuntimeMap) :
    runtimeOf other (setItem accountId runtime m) = runtimeOf other m := by
  rw [runtimeOf, getItem_setItem_of_ne hne, runtimeOf]

theorem runtimeOf_pruneRuntime {accountId : String} {ids : List String} (hid : accountId ∈ ids)
    (m : RuntimeMap) : runtimeOf accountId (pruneRuntime ids m) = runtimeOf accountId m := by
  rw [runtimeOf, pruneRuntime, getItem_filter fun x hx => by rw [hx]; exact decide_eq_true hid,
    runtimeOf]

/-- **Building changes nothing of an entry but its tier.** -/
theorem buildStates_runtime (cfg : BalancerSettings) (now : ℚ) (accountId : String)
    (entries : List PoolEntry) (m : RuntimeMap) :
    (runtimeOf accountId (buildStates cfg now entries m).1).toRuntimeState =
      (runtimeOf accountId m).toRuntimeState := by
  induction entries generalizing m with
  | nil => rfl
  | cons e rest ih =>
    rw [buildStates, ih]
    by_cases hid : e.account.id = accountId
    · rw [← hid, runtimeOf_setItem_self]
      exact enterTier_toRuntimeState ..
    · rw [runtimeOf_setItem_of_ne hid]

theorem forall₂_buildStates (cfg : BalancerSettings) (now : ℚ) (entries : List PoolEntry)
    (m : RuntimeMap) :
    List.Forall₂ (fun e s => s.toAccountState =
      stateFromAccount now (runtimeOf e.account.id m).toRuntimeState
        ⟨e.primary, e.secondary, cfg.usageRefreshIntervalSeconds⟩ e.account.toAccount)
      entries (buildStates cfg now entries m).2 := by
  induction entries generalizing m with
  | nil => exact .nil
  | cons e rest ih =>
    refine .cons (buildState_toAccountState ..) ((ih _).imp fun e' s hs => ?_)
    rw [hs]
    congr 1
    by_cases hid : e.account.id = e'.account.id
    · rw [← hid, runtimeOf_setItem_self]
      exact enterTier_toRuntimeState ..
    · rw [runtimeOf_setItem_of_ne hid]

end Balancer

end CodexOctopus

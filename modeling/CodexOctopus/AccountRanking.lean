import Mathlib.Data.List.MinMax
import Mathlib.Data.Prod.Lex
import Mathlib.Data.String.Basic
import CodexOctopus.Balancer

/-!
# Choosing an account

`select_account` of `app/core/balancer/logic.py`: a pass over the candidates that finds
which of them are available, and a choice among those by the routing strategy. The pass
changes the candidates it sees; what it decides about one of them is `checkAvailability`.

The random draw of the capacity-weighted strategy is an argument.
-/

namespace CodexOctopus

open List Python

inductive HealthTier : Type where
  | healthy
  | draining
  | probing
  deriving DecidableEq

inductive RoutingStrategy : Type where
  | usageWeighted
  | roundRobin
  | capacityWeighted
  deriving DecidableEq

structure Candidate extends AccountState where
  lastSelectedAt : Option ℚ
  planType : String
  capacityCredits : Option ℚ
  healthTier : HealthTier
  deriving DecidableEq

namespace Balancer

/-! ## The order of candidates -/

def usageSortKey (s : Candidate) : ℚ ×ₗ ℚ ×ₗ ℚ ×ₗ String :=
  let primaryUsed := s.usedPercent.getD 0
  let secondaryUsed := s.secondaryUsedPercent.getD primaryUsed
  toLex (secondaryUsed, toLex (primaryUsed, toLex (s.lastSelectedAt.getD 0, s.accountId)))

def resetBucketDays (current : ℚ) (s : Candidate) : ℤ :=
  match s.secondaryResetAt with
  | none => 10000
  | some t => max 0 (((t : ℚ) - current) / 86400).floor

def resetFirstSortKey (current : ℚ) (s : Candidate) : ℚ ×ₗ ℚ ×ₗ ℚ ×ₗ ℚ ×ₗ String :=
  toLex ((resetBucketDays current s : ℚ), usageSortKey s)

def roundRobinSortKey (s : Candidate) : ℚ ×ₗ String :=
  toLex (s.lastSelectedAt.getD 0, s.accountId)

def planCapacityCreditsSecondary (plan : String) : Option ℚ :=
  if plan = "free" then some 1134
  else if plan ∈ ["plus", "business", "team", "edu"] then some 7560
  else if plan ∈ ["pro", "enterprise"] then some 50400
  else none

def capacityPlanAlias (plan : String) : Option String :=
  if plan ∈ ["education", "k12"] then some "edu"
  else if plan ∈ ["guest", "go", "free_workspace", "quorum", "unknown"] then some "free"
  else none

def fallbackSecondaryCapacityCredits (planType : String) : ℚ :=
  let normalized := lower (strip planType)
  let resolved := (capacityPlanAlias normalized).getD (if normalized = "" then "free" else
    normalized)
  (planCapacityCreditsSecondary resolved).getD 1134

def remainingSecondaryCredits (s : Candidate) : ℚ :=
  let usedPct := (s.secondaryUsedPercent.or s.usedPercent).getD 0
  let remaining (capacity : ℚ) := max 0 (capacity * (1 - min usedPct 100 / 100))
  match s.capacityCredits with
  | none => remaining (fallbackSecondaryCapacityCredits s.planType)
  | some capacity => if capacity ≤ 0 then 0 else remaining capacity

def capacityProbeSortKey (s : Candidate) : ℚ ×ₗ ℚ ×ₗ ℚ ×ₗ ℚ ×ₗ String :=
  toLex (-remainingSecondaryCredits s, usageSortKey s)

/-- `random.choices`: the first candidate whose cumulative weight is above `x`, or the last one. -/
def drawWeighted (weight : Candidate → ℚ) : ℚ → List Candidate → Option Candidate
  | _, [] => none
  | _, [s] => some s
  | x, s :: rest => if x < weight s then some s else drawWeighted weight (x - weight s) rest

def selectCapacityWeighted (draw : ℚ) (available : List Candidate) : Option Candidate :=
  let total := (available.map remainingSecondaryCredits).foldl (· + ·) 0
  if total ≤ 0 then available.argmin usageSortKey
  else drawWeighted remainingSecondaryCredits (draw * total) available

def preferEarlierResetCandidates (current : ℚ) (available : List Candidate) : List Candidate :=
  match (available.map (resetBucketDays current)).min? with
  | none => []
  | some earliest => available.filter fun s => resetBucketDays current s = earliest

structure SelectOptions where
  preferEarlierReset : Bool
  routingStrategy : RoutingStrategy
  allowBackoffFallback : Bool
  deterministicProbe : Bool
  draw : ℚ

def effectivePool (available : List Candidate) : List Candidate :=
  let ofTier (tier : HealthTier) := available.filter fun s => s.healthTier = tier
  if ofTier .healthy ≠ [] then ofTier .healthy
  else if ofTier .probing ≠ [] then ofTier .probing
  else if ofTier .draining ≠ [] then ofTier .draining
  else available

def route (current : ℚ) (o : SelectOptions) (available : List Candidate) : Option Candidate :=
  let pool := effectivePool available
  match o.routingStrategy with
  | .roundRobin => pool.argmin roundRobinSortKey
  | .capacityWeighted =>
    let pool := if o.preferEarlierReset then preferEarlierResetCandidates current pool else pool
    if o.deterministicProbe then pool.argmin capacityProbeSortKey
    else selectCapacityWeighted o.draw pool
  | .usageWeighted =>
    if o.preferEarlierReset then pool.argmin (resetFirstSortKey current)
    else pool.argmin usageSortKey

/-! ## The pass over the candidates -/

def checkCandidate (current : ℚ) (s : Candidate) : Candidate :=
  { s with toAccountState := (checkAvailability current s.toAccountState).1 }

def eligibility (current : ℚ) (s : Candidate) : Eligibility :=
  (checkAvailability current s.toAccountState).2

def backoffExpiresAt (s : Candidate) : ℚ :=
  s.lastErrorAt.getD 0 + min 300 (30 * 2 ^ (s.errorCount - 3))

inductive SelectionError : Type where
  | pausedOrReauthentication
  | paused
  | reauthentication
  | tryAgainIn (seconds : ℚ)
  | noAvailableAccounts
  deriving DecidableEq

def SelectionError.message : SelectionError → String
  | .pausedOrReauthentication => "All accounts are paused or require re-authentication"
  | .paused => "All accounts are paused"
  | .reauthentication => "All accounts require re-authentication"
  | .tryAgainIn seconds =>
    "Rate limit exceeded. Try again in " ++ toString (roundHalfEven seconds) ++ "s"
  | .noAvailableAccounts => "No available accounts"

def selectionError (current : ℚ) (states : List Candidate) : SelectionError :=
  let has (status : AccountStatus) := states.any fun s => s.status = status
  let quotaResets := states.filterMap fun s =>
    if s.status = .quotaExceeded then orNone s.resetAt else none
  let cooldowns := states.filterMap fun s =>
    (orNone s.cooldownUntil).filter fun t => decide (current < t)
  let limited := has .rateLimited || has .quotaExceeded
  if has .paused && has .deactivated && !limited then .pausedOrReauthentication
  else if has .paused && !limited then .paused
  else if has .deactivated && !limited then .reauthentication
  else
    match quotaResets.min? with
    | some t => .tryAgainIn (max 0 (t - toInt current))
    | none =>
      match cooldowns.min? with
      | some t => .tryAgainIn (max 0 (t - current))
      | none => .noAvailableAccounts

/-- The available candidates, or else the one in error backoff that is nearest to its end. -/
def choosable (current : ℚ) (o : SelectOptions) (states : List Candidate) : List Candidate :=
  let checked := states.map (checkCandidate current)
  let available := (states.filter fun s => eligibility current s = .available).map
    (checkCandidate current)
  let inErrorBackoff := (states.filter fun s => eligibility current s = .inErrorBackoff).map
    (checkCandidate current)
  let hardBlocked := checked.any fun s => s.status ≠ .active
  if available ≠ [] then available
  else if o.allowBackoffFallback &&
      (1 < inErrorBackoff.length || (inErrorBackoff ≠ [] && hardBlocked)) then
    (inErrorBackoff.argmin backoffExpiresAt).toList
  else []

structure SelectionResult where
  account : Option Candidate
  error : Option SelectionError

def selectAccount (current : ℚ) (o : SelectOptions) (states : List Candidate) :
    List Candidate × SelectionResult :=
  let checked := states.map (checkCandidate current)
  match route current o (choosable current o states) with
  | some s => (checked, ⟨some s, none⟩)
  | none => (checked, ⟨none, some (selectionError current checked)⟩)

/-! ## What is chosen -/

variable {s : Candidate} {l : List Candidate} {current t₂ t₁ : ℚ} {o : SelectOptions}

theorem mem_effectivePool {available : List Candidate} (h : s ∈ effectivePool available) :
    s ∈ available := by
  unfold effectivePool at h
  dsimp only at h
  split_ifs at h
  · exact mem_of_mem_filter h
  · exact mem_of_mem_filter h
  · exact mem_of_mem_filter h
  · exact h

theorem mem_of_drawWeighted {weight : Candidate → ℚ} {x : ℚ} (h : drawWeighted weight x l = some s)
    :
    s ∈ l := by
  induction l generalizing x with
  | nil => cases h
  | cons a rest ih =>
    cases rest with
    | nil =>
      cases h
      exact mem_cons_self
    | cons b rest =>
      rw [drawWeighted] at h
      split_ifs at h
      · cases h
        exact mem_cons_self
      · exact mem_cons_of_mem _ (ih h)
      · simp

theorem mem_of_selectCapacityWeighted {draw : ℚ} (h : selectCapacityWeighted draw l = some s) :
    s ∈ l := by
  unfold selectCapacityWeighted at h
  dsimp only at h
  split_ifs at h
  · exact argmin_mem h
  · exact mem_of_drawWeighted h

theorem mem_preferEarlierResetCandidates (h : s ∈ preferEarlierResetCandidates current l) :
    s ∈ l := by
  unfold preferEarlierResetCandidates at h
  split at h
  · cases h
  · exact mem_of_mem_filter h

theorem mem_of_route {available : List Candidate} (h : route current o available = some s) :
    s ∈ available := by
  refine mem_effectivePool ?_
  unfold route at h
  dsimp only at h
  split at h
  · exact argmin_mem h
  · have hpool : s ∈ if o.preferEarlierReset then
        preferEarlierResetCandidates current (effectivePool available)
        else effectivePool available := by
      split at h
      · exact argmin_mem h
      · exact mem_of_selectCapacityWeighted h
    split_ifs at hpool
    · exact mem_preferEarlierResetCandidates hpool
    · exact hpool
  · split_ifs at h
    · exact argmin_mem h
    · exact argmin_mem h

def Eligible (current : ℚ) (states : List Candidate) (s : Candidate) : Prop :=
  eligibility current s = .available ∨
    eligibility current s = .inErrorBackoff ∧ ∀ r ∈ states, eligibility current r ≠ .available

theorem eligible_of_mem_choosable {states : List Candidate} (h : s ∈ choosable current o states) :
    ∃ r ∈ states, checkCandidate current r = s ∧ Eligible current states r := by
  unfold choosable at h
  dsimp only at h
  split_ifs at h with havailable hfallback
  · obtain ⟨r, hr, rfl⟩ := mem_map.mp h
    obtain ⟨hmem, helig⟩ := mem_filter.mp hr
    exact ⟨r, hmem, rfl, .inl (of_decide_eq_true helig)⟩
  · obtain ⟨r, hr, rfl⟩ := mem_map.mp (argmin_mem (Option.mem_toList.mp h))
    obtain ⟨hmem, helig⟩ := mem_filter.mp hr
    refine ⟨r, hmem, rfl, .inr ⟨of_decide_eq_true helig, fun q hq hqa => havailable ?_⟩⟩
    intro hnil
    have hmem : q ∈ states.filter fun s => eligibility current s = .available :=
      mem_filter.mpr ⟨hq, decide_eq_true hqa⟩
    rw [map_eq_nil_iff.mp hnil] at hmem
    cases hmem
  · cases h

/-- **What is chosen was eligible** before the pass: available, or in error backoff while no
candidate was available. -/
theorem selectAccount_sound {states : List Candidate}
    (h : (selectAccount current o states).2.account = some s) :
    ∃ r ∈ states, checkCandidate current r = s ∧ Eligible current states r := by
  unfold selectAccount at h
  dsimp only at h
  split at h
  · next a ha =>
    cases h
    exact eligible_of_mem_choosable (mem_of_route ha)
  · cases h

@[simp] theorem selectAccount_states (current : ℚ) (o : SelectOptions) (states : List Candidate) :
    (selectAccount current o states).1 = states.map (checkCandidate current) := by
  unfold selectAccount
  dsimp only
  split <;> rfl

/-! ## The cases of the pass -/

def backoffSeconds (errorCount : ℕ) : ℚ := min 300 (30 * 2 ^ (errorCount - 3))

section Cooldown

variable {current c l : ℚ} {s : AccountState}

theorem checkCooldown_over (h : orNone s.cooldownUntil = some c) (hc : c ≤ current) :
    checkCooldown current s =
      ({ s with cooldownUntil := none, lastErrorAt := none, errorCount := 0 }, .available) := by
  have hover : (orNone s.cooldownUntil).any (· ≤ current) = true := by
    rw [h]
    exact decide_eq_true hc
  unfold checkCooldown
  rw [if_pos hover]
  rfl

theorem checkCooldown_pending (h : orNone s.cooldownUntil = some c) (hc : current < c) :
    checkCooldown current s = (s, .excluded) := by
  have hover : ¬(orNone s.cooldownUntil).any (· ≤ current) = true := by
    rw [h]
    exact fun hle => absurd (of_decide_eq_true hle) (not_le.mpr hc)
  have hpending : (orNone s.cooldownUntil).any (current < ·) = true := by
    rw [h]
    exact decide_eq_true hc
  unfold checkCooldown
  rw [if_neg hover]
  exact if_pos hpending

section

variable (h : orNone s.cooldownUntil = none)
include h

theorem checkCooldown_none :
    checkCooldown current s =
      if 3 ≤ s.errorCount then
        if (orNone s.lastErrorAt).any (current - · < backoffSeconds s.errorCount) then
          (s, .inErrorBackoff)
        else ({ s with errorCount := 0, lastErrorAt := none }, .available)
      else (s, .available) := by
  have hany : ∀ p : ℚ → Bool, ¬(orNone s.cooldownUntil).any p = true := by
    intro p
    rw [h]
    exact Bool.false_ne_true
  unfold checkCooldown
  rw [if_neg (hany _)]
  exact if_neg (hany _)

theorem checkCooldown_backoff (hcount : 3 ≤ s.errorCount) (hlast : orNone s.lastErrorAt = some l)
    (hl : current - l < backoffSeconds s.errorCount) :
    checkCooldown current s = (s, .inErrorBackoff) := by
  rw [checkCooldown_none h, if_pos hcount, hlast]
  exact if_pos (decide_eq_true hl)

theorem checkCooldown_expired (hcount : 3 ≤ s.errorCount)
    (hlast : ∀ l, orNone s.lastErrorAt = some l → backoffSeconds s.errorCount ≤ current - l) :
    checkCooldown current s = ({ s with errorCount := 0, lastErrorAt := none }, .available) := by
  rw [checkCooldown_none h, if_pos hcount, if_neg]
  cases hl : orNone s.lastErrorAt with
  | none => exact Bool.false_ne_true
  | some l => exact fun hlt => absurd (of_decide_eq_true hlt) (not_lt.mpr (hlast l hl))

theorem checkCooldown_calm (hcount : ¬3 ≤ s.errorCount) :
    checkCooldown current s = (s, .available) := by
  rw [checkCooldown_none h, if_neg hcount]

end

inductive CooldownCase (current : ℚ) (s : AccountState) : Prop where
  | elapsed (c : ℚ) (h : orNone s.cooldownUntil = some c) (hc : c ≤ current)
  | pending (c : ℚ) (h : orNone s.cooldownUntil = some c) (hc : current < c)
  | backoff (l : ℚ) (h : orNone s.cooldownUntil = none) (hcount : 3 ≤ s.errorCount)
      (hlast : orNone s.lastErrorAt = some l)
      (hl : current - l < backoffSeconds s.errorCount)
  | expired (h : orNone s.cooldownUntil = none) (hcount : 3 ≤ s.errorCount)
      (hlast : ∀ l, orNone s.lastErrorAt = some l →
        backoffSeconds s.errorCount ≤ current - l)
  | calm (h : orNone s.cooldownUntil = none) (hcount : ¬3 ≤ s.errorCount)

theorem cooldownCase (current : ℚ) (s : AccountState) : CooldownCase current s := by
  cases h : orNone s.cooldownUntil with
  | some c =>
    obtain hc | hc := le_or_gt c current
    · exact .elapsed c h hc
    · exact .pending c h hc
  | none =>
    by_cases hcount : 3 ≤ s.errorCount
    · by_cases hlast : ∃ l, orNone s.lastErrorAt = some l ∧
          current - l < backoffSeconds s.errorCount
      · obtain ⟨l, hl, hlt⟩ := hlast
        exact .backoff l h hcount hl hlt
      · exact .expired h hcount fun l hl => not_lt.mp fun hlt => hlast ⟨l, hl, hlt⟩
    · exact .calm h hcount

end Cooldown

/-! ## A second pass -/

theorem checkCooldown_status (current : ℚ) (s : AccountState) :
    (checkCooldown current s).1.status = s.status := by
  unfold checkCooldown
  dsimp only
  split_ifs <;> rfl

theorem orNone_none : orNone none = none := rfl

section

variable (hle : t₁ ≤ t₂)
include hle

theorem checkCooldown_again (s : AccountState) :
    (checkCooldown t₂ (checkCooldown t₁ s).1).2 = (checkCooldown t₂ s).2 := by
  cases cooldownCase t₁ s with
  | elapsed c h hc =>
    rw [checkCooldown_over h hc, checkCooldown_over h (hc.trans hle)]
    exact congrArg Prod.snd (checkCooldown_calm orNone_none (Nat.not_succ_le_zero 2))
  | pending c h hc => rw [checkCooldown_pending h hc]
  | backoff l h hcount hlast hl => rw [checkCooldown_backoff h hcount hlast hl]
  | expired h hcount hlast =>
    have hstill : ∀ l, orNone s.lastErrorAt = some l →
        backoffSeconds s.errorCount ≤ t₂ - l :=
      fun l hl => (hlast l hl).trans (sub_le_sub_right hle l)
    rw [checkCooldown_expired h hcount hlast, checkCooldown_expired h hcount hstill]
    exact congrArg Prod.snd (checkCooldown_calm h (Nat.not_succ_le_zero 2))
  | calm h hcount => rw [checkCooldown_calm h hcount]

theorem resetElapsed_mono {s : AccountState} (h : resetElapsed t₁ s = true) :
    resetElapsed t₂ s = true := by
  unfold resetElapsed at h ⊢
  cases hr : orNone s.resetAt with
  | none =>
    rw [hr] at h
    cases h
  | some r =>
    rw [hr] at h
    exact decide_eq_true ((of_decide_eq_true h).trans hle)

theorem checkAvailability_again (s : AccountState) :
    (checkAvailability t₂ (checkAvailability t₁ s).1).2 = (checkAvailability t₂ s).2 := by
  cases hs : s.status with
  | deactivated => simp [checkAvailability, hs]
  | paused => simp [checkAvailability, hs]
  | active =>
    have hpass : ∀ t, checkAvailability t s = checkCooldown t s := fun t => by
      rw [checkAvailability, hs]
    rw [hpass, hpass, checkAvailability, checkCooldown_status, hs]
    exact checkCooldown_again hle s
  | rateLimited =>
    by_cases helapsed : resetElapsed t₁ s = true
    · have hpass : ∀ t, resetElapsed t s = true → checkAvailability t s =
          checkCooldown t { s with status := .active, errorCount := 0, resetAt := none } :=
        fun t ht => by simp only [checkAvailability, hs, ht, if_true]
      rw [hpass t₁ helapsed, hpass t₂ (resetElapsed_mono hle helapsed), checkAvailability,
        checkCooldown_status]
      exact checkCooldown_again hle _
    · have hsame : (checkAvailability t₁ s).1 = s := by
        simp [checkAvailability, hs, helapsed]
      rw [hsame]
  | quotaExceeded =>
    by_cases helapsed : resetElapsed t₁ s = true
    · have hpass : ∀ t, resetElapsed t s = true → checkAvailability t s =
          checkCooldown t { s with status := .active, usedPercent := some 0, resetAt := none } :=
        fun t ht => by simp only [checkAvailability, hs, ht, if_true]
      rw [hpass t₁ helapsed, hpass t₂ (resetElapsed_mono hle helapsed), checkAvailability,
        checkCooldown_status]
      exact checkCooldown_again hle _
    · have hsame : (checkAvailability t₁ s).1 = s := by
        simp [checkAvailability, hs, helapsed]
      rw [hsame]

/-- **A second pass decides what it would have decided alone.** -/
theorem eligibility_again (s : Candidate) :
    eligibility t₂ (checkCandidate t₁ s) = eligibility t₂ s :=
  checkAvailability_again hle s.toAccountState

end

end Balancer

end CodexOctopus

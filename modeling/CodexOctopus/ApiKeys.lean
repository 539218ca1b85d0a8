import CodexOctopus.Pricing

/-!
# API key limits

The limits of an API key and the reservations against them
(`app/modules/api_keys`): the rows, the arithmetic of the service, and the SQL
statements of the repository. Amounts are tokens, or micro-dollars for a cost
limit. Times are integers in microseconds.

A limit counts usage in a window that ends at `reset_at`. A reservation remembers,
for each limit it charged, how much it reserved and the `reset_at` of the window it
was charged to; every later statement about it is conditional on that value, so
that a settlement cannot reach into another window.
-/

namespace CodexOctopus

open Python

inductive LimitType : Type where
  | totalTokens
  | inputTokens
  | outputTokens
  | costUsd
  | credits
  deriving DecidableEq

inductive LimitWindow : Type where
  | daily
  | weekly
  | monthly
  | fiveHours
  | sevenDays
  deriving DecidableEq

structure LimitRow where
  id : ℕ
  apiKeyId : String
  limitType : LimitType
  limitWindow : LimitWindow
  maxValue : ℤ
  currentValue : ℤ
  modelFilter : Option String
  resetAt : ℤ
  deriving DecidableEq

structure ReservationItem where
  limitId : ℕ
  limitType : LimitType
  reservedDelta : ℤ
  expectedResetAt : ℤ
  actualDelta : Option ℤ

inductive ReservationStatus : Type where
  | reserved
  | settling
  | finalized
  | failed
  | released
  deriving DecidableEq

structure Reservation where
  id : String
  apiKeyId : String
  model : String
  status : ReservationStatus
  items : List ReservationItem

/-! ## Windows -/

def windowDelta : LimitWindow → ℤ
  | .fiveHours => 5 * 3600000000
  | .sevenDays => 7 * 86400000000
  | .daily => 86400000000
  | .weekly => 7 * 86400000000
  | .monthly => 30 * 86400000000

theorem windowDelta_pos (w : LimitWindow) : 0 < windowDelta w := by
  cases w <;> decide

def advanceReset (resetAt now : ℤ) (w : LimitWindow) : ℤ :=
  if resetAt ≤ now then advanceReset (resetAt + windowDelta w) now w else resetAt
termination_by (now + 1 - resetAt).toNat
decreasing_by
  have := windowDelta_pos w
  omega

theorem advanceReset_spec (resetAt now : ℤ) (w : LimitWindow) :
    now < advanceReset resetAt now w ∧ resetAt ≤ advanceReset resetAt now w := by
  have hpos := windowDelta_pos w
  fun_induction advanceReset resetAt now w with
  | case1 resetAt hle ih => omega
  | case2 resetAt hlt => omega

/-! ## Charges -/

def calculateCostMicrodollars (model : String) (inputTokens outputTokens cachedInputTokens : ℕ)
    (serviceTier : Option String) : ℤ :=
  match getPricingForModel model with
  | none => 0
  | some (_, price) =>
    toInt (calculateCostFromUsage ⟨inputTokens, outputTokens, cachedInputTokens⟩ price serviceTier *
      1000000)

def reserveCostBudgetMicrodollars (model serviceTier : Option String) : ℤ :=
  match model.filter (· ≠ "") with
  | none => 2000000
  | some m =>
    let cost := calculateCostMicrodollars m 8192 8192 0 serviceTier
    if 0 < cost then cost else 2000000

def reserveBudgetForLimitType (requestModel requestServiceTier : Option String) : LimitType → ℤ
  | .totalTokens => 8192
  | .inputTokens => 8192
  | .outputTokens => 8192
  | .costUsd => reserveCostBudgetMicrodollars requestModel requestServiceTier
  | .credits => 0

def reserveDeltaForLimit (limit : LimitRow) (requestModel requestServiceTier : Option String) : ℤ :=
  let remaining := limit.maxValue - limit.currentValue
  if remaining ≤ 0 then 0
  else min remaining (reserveBudgetForLimitType requestModel requestServiceTier limit.limitType)

def limitAppliesForRequest (limit : LimitRow) (requestModel : Option String) : Bool :=
  match limit.modelFilter, requestModel with
  | none, _ => true
  | some _, none => false
  | some f, some m => f = m

def computeIncrementForLimitType (inputTokens outputTokens : ℕ) (costMicrodollars : ℤ) :
    LimitType → ℤ
  | .totalTokens => inputTokens + outputTokens
  | .inputTokens => inputTokens
  | .outputTokens => outputTokens
  | .costUsd => costMicrodollars
  | .credits => 0

/-! ## What a settlement charges -/

section

variable (model : String) (serviceTier : Option String) {i o c : ℕ}

theorem calculateCostMicrodollars_nonneg (h : c ≤ i) :
    0 ≤ calculateCostMicrodollars model i o c serviceTier := by
  rw [calculateCostMicrodollars]
  split
  · exact le_rfl
  · next name price hprice =>
    have hp := defaultPricingModels_nonneg _ (getPricingForModel_mem hprice)
    have hle : (c : ℚ) ≤ i := by exact_mod_cast h
    exact toInt_nonneg (mul_nonneg (cost_nonneg hp c.cast_nonneg hle o.cast_nonneg)
      (by norm_num))

theorem calculateCostMicrodollars_mono {i' o' : ℕ} (h : c ≤ i) (hi : i ≤ i') (ho : o ≤ o') :
    calculateCostMicrodollars model i o c serviceTier ≤
      calculateCostMicrodollars model i' o' c serviceTier := by
  rw [calculateCostMicrodollars, calculateCostMicrodollars]
  split
  · exact le_rfl
  · next name price hprice =>
    have hmem := getPricingForModel_mem hprice
    have hp := defaultPricingModels_nonneg _ hmem
    have hle : (c : ℚ) ≤ i := by exact_mod_cast h
    refine toInt_mono (mul_nonneg ?_ (by norm_num)) (mul_le_mul_of_nonneg_right ?_ (by norm_num))
    · exact cost_nonneg hp c.cast_nonneg hle o.cast_nonneg
    · exact cost_mono hp (defaultPricingModels_progressive _ hmem) c.cast_nonneg hle
        (Nat.cast_le.mpr hi) o.cast_nonneg (Nat.cast_le.mpr ho)

theorem calculateCostMicrodollars_flat
    (h : ∀ p ∈ getPricingForModel model, (effectiveRates ⟨i, o, c⟩ p.2 serviceTier).Flat) :
    calculateCostMicrodollars model i o c serviceTier =
      calculateCostMicrodollars model i o 0 serviceTier := by
  rw [calculateCostMicrodollars, calculateCostMicrodollars]
  cases hprice : getPricingForModel model with
  | none => rfl
  | some p =>
    dsimp only
    rw [cost_of_flat (h p hprice), Nat.cast_zero]

theorem increment_nonneg_of_cost {cost : ℤ} (h : 0 ≤ cost) (t : LimitType) :
    0 ≤ computeIncrementForLimitType i o cost t := by
  cases t with
  | totalTokens => simp only [computeIncrementForLimitType]; positivity
  | inputTokens => simp only [computeIncrementForLimitType]; positivity
  | outputTokens => simp only [computeIncrementForLimitType]; positivity
  | costUsd => exact h
  | credits => exact le_rfl

theorem calculateCostMicrodollars_sound
    (h : ∀ p ∈ getPricingForModel model, c ≤ i ∨ (effectiveRates ⟨i, o, c⟩ p.2 serviceTier).Flat) :
    0 ≤ calculateCostMicrodollars model i o c serviceTier ∧
    ∀ i' o', i ≤ i' → o ≤ o' → calculateCostMicrodollars model i o c serviceTier ≤
      calculateCostMicrodollars model i' o' c serviceTier := by
  by_cases hle : c ≤ i
  · exact ⟨calculateCostMicrodollars_nonneg model serviceTier hle,
      fun i' o' hi ho => calculateCostMicrodollars_mono model serviceTier hle hi ho⟩
  · -- flat rates stay flat with more input tokens, so both sides forget the cached tokens
    have hflat : ∀ i' o' : ℕ, i ≤ i' → ∀ p ∈ getPricingForModel model,
        (effectiveRates ⟨i', o', c⟩ p.2 serviceTier).Flat := fun i' o' hi p hp =>
      effectiveRates_flat (defaultPricingModels_progressive _ (getPricingForModel_mem hp))
        (Nat.cast_le.mpr hi) ((h p hp).resolve_left hle)
    rw [calculateCostMicrodollars_flat model serviceTier (hflat i o le_rfl)]
    refine ⟨calculateCostMicrodollars_nonneg model serviceTier (Nat.zero_le _), fun i' o' hi ho =>
      ?_⟩
    rw [calculateCostMicrodollars_flat model serviceTier (hflat i' o' hi)]
    exact calculateCostMicrodollars_mono model serviceTier (Nat.zero_le _) hi ho

/-- **When a settlement credits no limit.** Only a `ResponseUsage` has its cached tokens cut to the
input tokens. The cost is right, not negative and does not fall with the tokens exactly if the
cached tokens are among the input tokens, or cost what the others do. -/
theorem settlement_never_credits_iff (model : String) (serviceTier : Option String) (i o c : ℕ) :
    ((∀ p ∈ getPricingForModel model,
        calculateCostFromResponse ⟨some i, some o, none, some c⟩ p.2 serviceTier =
          some (calculateCostFromUsage ⟨i, o, c⟩ p.2 serviceTier)) ∧
      0 ≤ calculateCostMicrodollars model i o c serviceTier ∧
      (∀ i' o', i ≤ i' → o ≤ o' → calculateCostMicrodollars model i o c serviceTier ≤
        calculateCostMicrodollars model i' o' c serviceTier) ∧
      ∀ t, 0 ≤ computeIncrementForLimitType i o
        (calculateCostMicrodollars model i o c serviceTier) t) ↔
    ∀ p ∈ getPricingForModel model, c ≤ i ∨ (effectiveRates ⟨i, o, c⟩ p.2 serviceTier).input =
      (effectiveRates ⟨i, o, c⟩ p.2 serviceTier).cached := by
  have hcut : ∀ p : ModelPrice, calculateCostFromResponse ⟨some i, some o, none, some c⟩ p
    serviceTier =
      some (calculateCostFromUsage ⟨i, o, c⟩ p serviceTier) ↔
      c ≤ i ∨ (effectiveRates ⟨i, o, c⟩ p serviceTier).input =
        (effectiveRates ⟨i, o, c⟩ p serviceTier).cached := by
    intro p
    rw [calculateCostFromResponse_eq, Option.some.injEq, cost_cut_iff, Nat.cast_le]
  constructor
  · rintro ⟨hequal, -⟩ p hp
    exact (hcut p.2).mp (hequal p hp)
  · intro h
    obtain ⟨hnonneg, hmono⟩ := calculateCostMicrodollars_sound model serviceTier h
    exact ⟨fun p hp => (hcut p.2).mpr (h p hp), hnonneg, hmono, increment_nonneg_of_cost hnonneg⟩

theorem settlement_never_credits_cached :
    0 ≤ calculateCostMicrodollars "gpt-5.5" 1000 200 800 none :=
  ((settlement_never_credits_iff "gpt-5.5" none 1000 200 800).mpr fun _ _ => .inl (by decide)).2.1

end

/-- **A settlement can credit a limit**: a million cached tokens of no input are minus four and a
half dollars. -/
theorem settlement_credits :
    calculateCostMicrodollars "gpt-5.5" 0 0 1000000 none = -4500000 ∧
    computeIncrementForLimitType 0 0 (calculateCostMicrodollars "gpt-5.5" 0 0 1000000 none)
      .costUsd = -4500000 ∧
    ∀ p ∈ getPricingForModel "gpt-5.5",
      calculateCostFromResponse ⟨some 0, some 0, none, some 1000000⟩ p.2 none = some 0 := by
  decide +kernel

structure UsageReport where
  model : String
  inputTokens : Option ℕ
  outputTokens : Option ℕ
  cachedInputTokens : Option ℕ
  serviceTier : Option String
  cached_le_input : cachedInputTokens.getD 0 ≤ inputTokens.getD 0

def UsageReport.costMicrodollars (u : UsageReport) : ℤ :=
  calculateCostMicrodollars u.model (u.inputTokens.getD 0) (u.outputTokens.getD 0)
    (u.cachedInputTokens.getD 0) u.serviceTier

theorem UsageReport.costMicrodollars_nonneg (u : UsageReport) : 0 ≤ u.costMicrodollars :=
  calculateCostMicrodollars_nonneg u.model u.serviceTier u.cached_le_input

theorem UsageReport.increment_nonneg (u : UsageReport) (t : LimitType) :
    0 ≤ computeIncrementForLimitType (u.inputTokens.getD 0) (u.outputTokens.getD 0)
      u.costMicrodollars t :=
  increment_nonneg_of_cost u.costMicrodollars_nonneg t

end CodexOctopus

import Mathlib.Algebra.Order.Field.Rat
import Mathlib.Tactic.Linarith
import Mathlib.Tactic.Positivity
import Mathlib.Tactic.Ring
import CodexOctopus.Python

/-!
# Prices

`app/core/usage/pricing.py`: the price table, how a model name finds its price,
and what a request costs. Rates are dollars per million tokens, exact rationals
where the source has floats.

`cost_nonneg` is what the accounting of API keys relies on: every rate in the
table is nonnegative, so a report whose cached tokens are among its input tokens
never costs less than nothing. Rates do not fall with a longer context either, so such a
report does not cost less with more tokens (`cost_mono`).
-/

namespace CodexOctopus

open Option Python

structure ModelPrice where
  inputPer1m : ℚ
  outputPer1m : ℚ
  cachedInputPer1m : Option ℚ := none
  priorityMultiplier : Option ℚ := none
  priorityInputPer1m : Option ℚ := none
  priorityOutputPer1m : Option ℚ := none
  priorityCachedInputPer1m : Option ℚ := none
  flexInputPer1m : Option ℚ := none
  flexOutputPer1m : Option ℚ := none
  flexCachedInputPer1m : Option ℚ := none
  longContextThresholdTokens : Option ℚ := none
  longContextInputPer1m : Option ℚ := none
  longContextOutputPer1m : Option ℚ := none
  longContextCachedInputPer1m : Option ℚ := none

structure UsageTokens where
  inputTokens : ℚ
  outputTokens : ℚ
  cachedInputTokens : ℚ

def defaultPricingModels : List (String × ModelPrice) := [
  ("gpt-5.5",
    { inputPer1m := 5, cachedInputPer1m := some (1 / 2), outputPer1m := 30,
      flexInputPer1m := some (5 / 2), flexCachedInputPer1m := some (1 / 4),
      flexOutputPer1m := some 15, priorityInputPer1m := some (25 / 2),
      priorityCachedInputPer1m := some (5 / 4), priorityOutputPer1m := some 75 }),
  ("gpt-5.5-pro",
    { inputPer1m := 30, outputPer1m := 180, flexInputPer1m := some 15, flexOutputPer1m := some 90
      }),
  ("gpt-5.4",
    { inputPer1m := 5 / 2, cachedInputPer1m := some (1 / 4), outputPer1m := 15,
      priorityInputPer1m := some 5, priorityCachedInputPer1m := some (1 / 2),
      priorityOutputPer1m := some 30, flexInputPer1m := some (5 / 4),
      flexCachedInputPer1m := some (1 / 8), flexOutputPer1m := some (15 / 2),
      longContextThresholdTokens := some 272000, longContextInputPer1m := some 5,
      longContextCachedInputPer1m := some (1 / 2), longContextOutputPer1m := some (45 / 2) }),
  ("gpt-5.4-mini",
    { inputPer1m := 3 / 4, cachedInputPer1m := some (3 / 40), outputPer1m := 9 / 2,
      flexInputPer1m := some (3 / 8), flexCachedInputPer1m := some (3 / 80),
      flexOutputPer1m := some (9 / 4) }),
  ("gpt-5.4-nano",
    { inputPer1m := 1 / 5, cachedInputPer1m := some (1 / 50), outputPer1m := 5 / 4,
      flexInputPer1m := some (1 / 10), flexCachedInputPer1m := some (1 / 100),
      flexOutputPer1m := some (5 / 8) }),
  ("gpt-5.4-pro",
    { inputPer1m := 30, outputPer1m := 180, flexInputPer1m := some 15, flexOutputPer1m := some 90,
      longContextThresholdTokens := some 272000, longContextInputPer1m := some 60,
      longContextOutputPer1m := some 270 }),
  ("gpt-5.3-codex",
    { inputPer1m := 7 / 4, cachedInputPer1m := some (7 / 40), outputPer1m := 14,
      priorityInputPer1m := some (7 / 2), priorityCachedInputPer1m := some (7 / 20),
      priorityOutputPer1m := some 28 }),
  ("gpt-5.3",
    { inputPer1m := 7 / 4, cachedInputPer1m := some (7 / 40), outputPer1m := 14 }),
  ("gpt-5.3-chat-latest",
    { inputPer1m := 7 / 4, cachedInputPer1m := some (7 / 40), outputPer1m := 14 }),
  ("gpt-5.2",
    { inputPer1m := 7 / 4, cachedInputPer1m := some (7 / 40), outputPer1m := 14,
      priorityMultiplier := some 2, flexInputPer1m := some (7 / 8),
      flexCachedInputPer1m := some (7 / 80), flexOutputPer1m := some 7 }),
  ("gpt-5.2-chat-latest",
    { inputPer1m := 7 / 4, cachedInputPer1m := some (7 / 40), outputPer1m := 14 }),
  ("gpt-5.1",
    { inputPer1m := 5 / 4, cachedInputPer1m := some (1 / 8), outputPer1m := 10,
      priorityMultiplier := some 2, flexInputPer1m := some (5 / 8),
      flexCachedInputPer1m := some (1 / 16), flexOutputPer1m := some 5 }),
  ("gpt-5.1-chat-latest",
    { inputPer1m := 5 / 4, cachedInputPer1m := some (1 / 8), outputPer1m := 10 }),
  ("gpt-5",
    { inputPer1m := 5 / 4, cachedInputPer1m := some (1 / 8), outputPer1m := 10,
      priorityMultiplier := some 2, flexInputPer1m := some (5 / 8),
      flexCachedInputPer1m := some (1 / 16), flexOutputPer1m := some 5 }),
  ("gpt-5-chat-latest",
    { inputPer1m := 5 / 4, cachedInputPer1m := some (1 / 8), outputPer1m := 10 }),
  ("gpt-5.2-codex",
    { inputPer1m := 7 / 4, cachedInputPer1m := some (7 / 40), outputPer1m := 14,
      priorityInputPer1m := some (7 / 2), priorityCachedInputPer1m := some (7 / 20),
      priorityOutputPer1m := some 28 }),
  ("gpt-5.1-codex-max",
    { inputPer1m := 5 / 4, cachedInputPer1m := some (1 / 8), outputPer1m := 10,
      priorityInputPer1m := some (5 / 2), priorityCachedInputPer1m := some (1 / 4),
      priorityOutputPer1m := some 20 }),
  ("gpt-5.1-codex-mini",
    { inputPer1m := 1 / 4, cachedInputPer1m := some (1 / 40), outputPer1m := 2 }),
  ("gpt-5.1-codex",
    { inputPer1m := 5 / 4, cachedInputPer1m := some (1 / 8), outputPer1m := 10,
      priorityInputPer1m := some (5 / 2), priorityCachedInputPer1m := some (1 / 4),
      priorityOutputPer1m := some 20 }),
  ("gpt-5-codex",
    { inputPer1m := 5 / 4, cachedInputPer1m := some (1 / 8), outputPer1m := 10,
      priorityInputPer1m := some (5 / 2), priorityCachedInputPer1m := some (1 / 4),
      priorityOutputPer1m := some 20 })]

def defaultModelAliases : List (String × String) := [
  ("gpt-5.5-pro*", "gpt-5.5-pro"),
  ("gpt-5.5*", "gpt-5.5"),
  ("gpt-5.4-pro*", "gpt-5.4-pro"),
  ("gpt-5.4-mini*", "gpt-5.4-mini"),
  ("gpt-5.4-nano*", "gpt-5.4-nano"),
  ("gpt-5.4*", "gpt-5.4"),
  ("gpt-5.3-codex*", "gpt-5.3-codex"),
  ("gpt-5.3-chat-latest*", "gpt-5.3-chat-latest"),
  ("gpt-5.2-codex*", "gpt-5.2-codex"),
  ("gpt-5.2-chat-latest*", "gpt-5.2-chat-latest"),
  ("gpt-5.3*", "gpt-5.3"),
  ("gpt-5.1-chat-latest*", "gpt-5.1-chat-latest"),
  ("gpt-5.2*", "gpt-5.2"),
  ("gpt-5-chat-latest*", "gpt-5-chat-latest"),
  ("gpt-5.1*", "gpt-5.1"),
  ("gpt-5*", "gpt-5"),
  ("gpt-5.1-codex-max*", "gpt-5.1-codex-max"),
  ("gpt-5.1-codex-mini*", "gpt-5.1-codex-mini"),
  ("gpt-5.1-codex*", "gpt-5.1-codex"),
  ("gpt-5-codex*", "gpt-5-codex")]

/-! ## Finding a price -/

/-- `resolve_model_alias`: the target of the longest pattern that matches, the first
one among equally long patterns. -/
def resolveModelAlias (model : String) (aliases : List (String × String)) : Option String :=
  if model = "" then none
  else
    let normalized := lower model
    let matched := aliases.filter fun a => fnmatch (lower a.1) normalized
    (matched.argmax fun a => a.1.length).map Prod.snd

def getPricingForModel (model : String) : Option (String × ModelPrice) :=
  if model = "" then none
  else
    let normalized := lower model
    match defaultPricingModels.find? fun p => lower p.1 = normalized with
    | some p => some p
    | none =>
      match resolveModelAlias normalized defaultModelAliases with
      | none => none
      | some target => defaultPricingModels.find? fun p => lower p.1 = lower target

def normalizeServiceTier (serviceTier : Option String) : Option String :=
  (serviceTier.map fun t => lower (strip t)).filter (· ≠ "")

def usesPriorityTier (serviceTier : Option String) : Bool :=
  normalizeServiceTier serviceTier = some "priority" ∨ normalizeServiceTier serviceTier = some
    "fast"

def usesFlexTier (serviceTier : Option String) : Bool :=
  normalizeServiceTier serviceTier = some "flex"

/-! ## Cost -/

structure Rates where
  input : ℚ
  cached : ℚ
  output : ℚ

def isLongContext (usage : UsageTokens) (price : ModelPrice) : Bool :=
  price.longContextThresholdTokens.any (· < usage.inputTokens) &&
    price.longContextInputPer1m.isSome && price.longContextOutputPer1m.isSome

def baseRates (price : ModelPrice) : Rates :=
  ⟨price.inputPer1m, price.cachedInputPer1m.getD price.inputPer1m, price.outputPer1m⟩

def listedRates (input output cached : Option ℚ) : Option Rates :=
  match input, output with
  | some i, some o => some ⟨i, cached.getD i, o⟩
  | _, _ => none

def priorityRates (price : ModelPrice) : Option Rates :=
  match listedRates price.priorityInputPer1m price.priorityOutputPer1m
      price.priorityCachedInputPer1m with
  | some rates => some rates
  | none =>
    price.priorityMultiplier.map fun m =>
      let base := baseRates price
      ⟨base.input * m, base.cached * m, base.output * m⟩

def flexRates (usage : UsageTokens) (price : ModelPrice) : Option Rates :=
  (listedRates price.flexInputPer1m price.flexOutputPer1m price.flexCachedInputPer1m).map
    fun rates =>
      if isLongContext usage price then
        ⟨rates.input * 2, rates.cached * 2, rates.output * (3 / 2)⟩
      else rates

def standardRates (usage : UsageTokens) (price : ModelPrice) : Rates :=
  if isLongContext usage price then
    (listedRates price.longContextInputPer1m price.longContextOutputPer1m
      price.longContextCachedInputPer1m).getD (baseRates price)
  else baseRates price

def effectiveRates (usage : UsageTokens) (price : ModelPrice) (serviceTier : Option String) :
    Rates :=
  match if usesPriorityTier serviceTier then priorityRates price else none with
  | some rates => rates
  | none =>
    match if usesFlexTier serviceTier then flexRates usage price else none with
    | some rates => rates
    | none => standardRates usage price

def calculateCostFromUsage (usage : UsageTokens) (price : ModelPrice)
    (serviceTier : Option String) : ℚ :=
  let rates := effectiveRates usage price serviceTier
  (usage.inputTokens - usage.cachedInputTokens) / 1000000 * rates.input +
    usage.cachedInputTokens / 1000000 * rates.cached +
    usage.outputTokens / 1000000 * rates.output

structure ResponseUsage where
  inputTokens : Option ℕ
  outputTokens : Option ℕ
  reasoningTokens : Option ℕ
  cachedTokens : Option ℕ

def normalizeUsage (usage : ResponseUsage) : Option UsageTokens := do
  let inputTokens ← usage.inputTokens
  let outputTokens ← usage.outputTokens <|> usage.reasoningTokens
  let cachedTokens := max 0 (min (usage.cachedTokens.getD 0 : ℚ) inputTokens)
  return ⟨inputTokens, outputTokens, cachedTokens⟩

def calculateCostFromResponse (usage : ResponseUsage) (p : ModelPrice) (serviceTier : Option String)
    :
    Option ℚ :=
  (normalizeUsage usage).map (calculateCostFromUsage · p serviceTier)

theorem calculateCostFromResponse_eq (i o c : ℕ) (reasoning : Option ℕ) (p : ModelPrice)
    (serviceTier : Option String) :
    calculateCostFromResponse ⟨some i, some o, reasoning, some c⟩ p serviceTier =
      some (calculateCostFromUsage ⟨i, o, min (c : ℚ) i⟩ p serviceTier) := by
  simp [calculateCostFromResponse, normalizeUsage]

variable {p : ModelPrice}

/-- The cut of the cached tokens is not seen in the cost exactly when it cuts off nothing, or they
cost what the others do. -/
theorem cost_cut_iff {i o c : ℚ} {serviceTier : Option String} :
    calculateCostFromUsage ⟨i, o, min c i⟩ p serviceTier = calculateCostFromUsage ⟨i, o, c⟩ p
      serviceTier ↔
      c ≤ i ∨ (effectiveRates ⟨i, o, c⟩ p serviceTier).input =
        (effectiveRates ⟨i, o, c⟩ p serviceTier).cached := by
  have hrates : effectiveRates ⟨i, o, min c i⟩ p serviceTier = effectiveRates ⟨i, o, c⟩ p
    serviceTier := rfl
  rw [calculateCostFromUsage, calculateCostFromUsage, hrates]
  dsimp only
  generalize effectiveRates ⟨i, o, c⟩ p serviceTier = r
  rcases le_total c i with hle | hle
  · rw [min_eq_left hle]
    exact ⟨fun _ => .inl hle, fun _ => rfl⟩
  · rw [min_eq_right hle]
    constructor
    · intro h
      have hprod : (c - i) * (r.input - r.cached) = 0 := by linarith
      rcases mul_eq_zero.mp hprod with h0 | h0
      · exact .inl (by linarith)
      · exact .inr (by linarith)
    · rintro (h | h)
      · rw [le_antisymm h hle]
      · rw [h]
        ring

/-! ## Costs are not negative -/

def Rates.Nonneg (r : Rates) : Prop := 0 ≤ r.input ∧ 0 ≤ r.cached ∧ 0 ≤ r.output

def ModelPrice.optionalRates (p : ModelPrice) : List (Option ℚ) :=
  [p.cachedInputPer1m, p.priorityMultiplier, p.priorityInputPer1m, p.priorityOutputPer1m,
    p.priorityCachedInputPer1m, p.flexInputPer1m, p.flexOutputPer1m, p.flexCachedInputPer1m,
    p.longContextInputPer1m, p.longContextOutputPer1m, p.longContextCachedInputPer1m]

def ModelPrice.Nonneg (p : ModelPrice) : Prop :=
  0 ≤ p.inputPer1m ∧ 0 ≤ p.outputPer1m ∧ ∀ x ∈ p.optionalRates, ∀ q ∈ x, 0 ≤ q

instance (p : ModelPrice) : Decidable p.Nonneg := inferInstanceAs (Decidable (_ ∧ _))

theorem ModelPrice.Nonneg.listed (hp : p.Nonneg) {x : Option ℚ} (hx : x ∈ p.optionalRates) :
    ∀ q ∈ x, 0 ≤ q :=
  hp.2.2 x hx

theorem getD_nonneg {x : Option ℚ} {d : ℚ} (hx : ∀ q ∈ x, 0 ≤ q) (hd : 0 ≤ d) : 0 ≤ x.getD d := by
  cases x with
  | none => exact hd
  | some q => exact hx q rfl

theorem listedRates_nonneg {i o c : Option ℚ} (hi : ∀ q ∈ i, 0 ≤ q) (ho : ∀ q ∈ o, 0 ≤ q)
    (hc : ∀ q ∈ c, 0 ≤ q) : ∀ r ∈ listedRates i o c, r.Nonneg := by
  intro r hr
  cases i with
  | none => cases hr
  | some i =>
    cases o with
    | none => cases hr
    | some o =>
      cases hr
      exact ⟨hi i rfl, getD_nonneg hc (hi i rfl), ho o rfl⟩

section

variable {p : ModelPrice} (hp : p.Nonneg) (usage : UsageTokens)

include hp

theorem baseRates_nonneg : (baseRates p).Nonneg :=
  ⟨hp.1, getD_nonneg (hp.listed (by simp [ModelPrice.optionalRates])) hp.1, hp.2.1⟩

theorem priorityRates_nonneg : ∀ r ∈ priorityRates p, r.Nonneg := by
  have hlisted : ∀ r ∈ listedRates p.priorityInputPer1m p.priorityOutputPer1m
      p.priorityCachedInputPer1m, r.Nonneg :=
    listedRates_nonneg (hp.listed (by simp [ModelPrice.optionalRates]))
      (hp.listed (by simp [ModelPrice.optionalRates]))
      (hp.listed (by simp [ModelPrice.optionalRates]))
  obtain ⟨hi, hc, ho⟩ := baseRates_nonneg hp
  intro r hr
  rw [priorityRates] at hr
  split at hr
  · next rates hrates =>
    cases hr
    exact hlisted _ hrates
  · obtain ⟨m, hm, rfl⟩ := map_eq_some_iff.mp hr
    have hm₀ : 0 ≤ m := hp.listed (by simp [ModelPrice.optionalRates]) m hm
    exact ⟨mul_nonneg hi hm₀, mul_nonneg hc hm₀, mul_nonneg ho hm₀⟩

theorem flexRates_nonneg : ∀ r ∈ flexRates usage p, r.Nonneg := by
  have hlisted : ∀ r ∈ listedRates p.flexInputPer1m p.flexOutputPer1m p.flexCachedInputPer1m,
      r.Nonneg :=
    listedRates_nonneg (hp.listed (by simp [ModelPrice.optionalRates]))
      (hp.listed (by simp [ModelPrice.optionalRates]))
      (hp.listed (by simp [ModelPrice.optionalRates]))
  intro r hr
  obtain ⟨rates, hrates, rfl⟩ := map_eq_some_iff.mp hr
  obtain ⟨hi, hc, ho⟩ := hlisted rates hrates
  split
  · exact ⟨by positivity, by positivity, by positivity⟩
  · exact ⟨hi, hc, ho⟩

theorem standardRates_nonneg : (standardRates usage p).Nonneg := by
  have hlisted : ∀ r ∈ listedRates p.longContextInputPer1m p.longContextOutputPer1m
      p.longContextCachedInputPer1m, r.Nonneg :=
    listedRates_nonneg (hp.listed (by simp [ModelPrice.optionalRates]))
      (hp.listed (by simp [ModelPrice.optionalRates]))
      (hp.listed (by simp [ModelPrice.optionalRates]))
  rw [standardRates]
  split
  · rcases hr : listedRates p.longContextInputPer1m p.longContextOutputPer1m
      p.longContextCachedInputPer1m with _ | r
    · exact baseRates_nonneg hp
    · exact hlisted r hr
  · exact baseRates_nonneg hp

theorem effectiveRates_nonneg (serviceTier : Option String) :
    (effectiveRates usage p serviceTier).Nonneg := by
  rw [effectiveRates]
  split
  · next rates hrates =>
    split at hrates
    · exact priorityRates_nonneg hp rates hrates
    · cases hrates
  · split
    · next rates hrates =>
      split at hrates
      · exact flexRates_nonneg hp usage rates hrates
      · cases hrates
    · exact standardRates_nonneg hp usage

end

/-- **Costs are not negative** when the cached tokens are among the input tokens. -/
theorem cost_nonneg {usage : UsageTokens} {serviceTier : Option String} (hp : p.Nonneg)
    (hcached : 0 ≤ usage.cachedInputTokens) (hle : usage.cachedInputTokens ≤ usage.inputTokens)
    (hout : 0 ≤ usage.outputTokens) :
    0 ≤ calculateCostFromUsage usage p serviceTier := by
  obtain ⟨hi, hc, ho⟩ := effectiveRates_nonneg hp usage serviceTier
  have hbill : 0 ≤ usage.inputTokens - usage.cachedInputTokens := sub_nonneg.mpr hle
  rw [calculateCostFromUsage]
  positivity

/-! ## Costs do not fall with the tokens -/

def Rates.Le (r r' : Rates) : Prop := r.input ≤ r'.input ∧ r.cached ≤ r'.cached ∧ r.output ≤
    r'.output

instance (r r' : Rates) : Decidable (r.Le r') := inferInstanceAs (Decidable (_ ∧ _))

theorem Rates.Le.refl (r : Rates) : r.Le r := ⟨le_rfl, le_rfl, le_rfl⟩

def Rates.Flat (r : Rates) : Prop := r.input = r.cached

instance (r : Rates) : Decidable r.Flat := inferInstanceAs (Decidable (_ = _))

/-- A longer context is not cheaper, and does not tell cached tokens apart if a short one does not.
-/
def ModelPrice.Progressive (p : ModelPrice) : Prop :=
  ∀ r ∈ listedRates p.longContextInputPer1m p.longContextOutputPer1m p.longContextCachedInputPer1m,
    (baseRates p).Le r ∧ ((baseRates p).Flat → r.Flat)

instance (p : ModelPrice) : Decidable p.Progressive := inferInstanceAs (Decidable (∀ _ ∈ _, _))

section

variable {p : ModelPrice} {usage usage' : UsageTokens} {serviceTier : Option String}

theorem isLongContext_mono (h : usage.inputTokens ≤ usage'.inputTokens)
    (hlong : isLongContext usage p = true) : isLongContext usage' p = true := by
  simp only [isLongContext, Bool.and_eq_true, any_eq_true, decide_eq_true_eq] at hlong ⊢
  obtain ⟨⟨⟨t, ht, hlt⟩, hin⟩, hout⟩ := hlong
  exact ⟨⟨⟨t, ht, hlt.trans_le h⟩, hin⟩, hout⟩

theorem effectiveRates_rel {R : Rates → Rates → Prop} (hrefl : ∀ r, R r r)
    (hlong : ∀ r ∈ listedRates p.longContextInputPer1m p.longContextOutputPer1m
      p.longContextCachedInputPer1m, R (baseRates p) r)
    (hflex : ∀ r ∈ listedRates p.flexInputPer1m p.flexOutputPer1m p.flexCachedInputPer1m,
      R r ⟨r.input * 2, r.cached * 2, r.output * (3 / 2)⟩)
    (h : usage.inputTokens ≤ usage'.inputTokens) :
    R (effectiveRates usage p serviceTier) (effectiveRates usage' p serviceTier) := by
  have hstandard : R (standardRates usage p) (standardRates usage' p) := by
    unfold standardRates
    by_cases hl : isLongContext usage p = true
    · rw [if_pos hl, if_pos (isLongContext_mono h hl)]
      exact hrefl _
    · rw [if_neg hl]
      split
      · cases hlisted : listedRates p.longContextInputPer1m p.longContextOutputPer1m
          p.longContextCachedInputPer1m with
        | none => exact hrefl _
        | some r => exact hlong r hlisted
      · exact hrefl _
  unfold effectiveRates
  split
  · exact hrefl _
  · cases usesFlexTier serviceTier with
    | false => exact hstandard
    | true =>
      rw [if_pos rfl, if_pos rfl, flexRates, flexRates]
      cases hlisted : listedRates p.flexInputPer1m p.flexOutputPer1m p.flexCachedInputPer1m with
      | none => exact hstandard
      | some r =>
        rw [map_some, map_some]
        dsimp only
        by_cases hl : isLongContext usage p = true
        · rw [if_pos hl, if_pos (isLongContext_mono h hl)]
          exact hrefl _
        · rw [if_neg hl]
          split
          · exact hflex r hlisted
          · exact hrefl _

theorem effectiveRates_le (hp : p.Nonneg) (hprogressive : p.Progressive)
    (h : usage.inputTokens ≤ usage'.inputTokens) :
    (effectiveRates usage p serviceTier).Le (effectiveRates usage' p serviceTier) := by
  refine effectiveRates_rel Rates.Le.refl (fun r hr => (hprogressive r hr).1) ?_ h
  intro r hr
  have hnonneg : r.Nonneg := listedRates_nonneg (hp.listed (by simp [ModelPrice.optionalRates]))
    (hp.listed (by simp [ModelPrice.optionalRates]))
    (hp.listed (by simp [ModelPrice.optionalRates])) r hr
  obtain ⟨hi, hc, ho⟩ := hnonneg
  exact ⟨by dsimp only; linarith, by dsimp only; linarith, by dsimp only; linarith⟩

theorem effectiveRates_flat (hprogressive : p.Progressive)
    (h : usage.inputTokens ≤ usage'.inputTokens) :
    (effectiveRates usage p serviceTier).Flat → (effectiveRates usage' p serviceTier).Flat :=
  effectiveRates_rel (R := fun r r' => r.Flat → r'.Flat) (fun _ => id)
    (fun r hr => (hprogressive r hr).2) (fun _ _ hflat => congrArg (· * 2) hflat) h

theorem cost_of_flat {i o c : ℚ} (h : (effectiveRates ⟨i, o, c⟩ p serviceTier).Flat) :
    calculateCostFromUsage ⟨i, o, c⟩ p serviceTier = calculateCostFromUsage ⟨i, o, 0⟩ p
      serviceTier := by
  have hrates : effectiveRates ⟨i, o, 0⟩ p serviceTier = effectiveRates ⟨i, o, c⟩ p serviceTier :=
    rfl
  rw [calculateCostFromUsage, calculateCostFromUsage, hrates]
  dsimp only
  rw [h]
  ring

/-- **Costs do not fall with the tokens** when the cached tokens are among the input tokens. -/
theorem cost_mono {i i' o o' c : ℚ} (hp : p.Nonneg) (hprogressive : p.Progressive) (hc : 0 ≤ c)
    (hcached : c ≤ i) (hi : i ≤ i') (ho : 0 ≤ o) (hoo : o ≤ o') :
    calculateCostFromUsage ⟨i, o, c⟩ p serviceTier ≤
      calculateCostFromUsage ⟨i', o', c⟩ p serviceTier := by
  obtain ⟨hri, hrc, hro⟩ := effectiveRates_nonneg hp ⟨i, o, c⟩ serviceTier
  have hrates : (effectiveRates ⟨i, o, c⟩ p serviceTier).Le
      (effectiveRates ⟨i', o', c⟩ p serviceTier) := effectiveRates_le hp hprogressive hi
  obtain ⟨hinput, hcachedRate, houtput⟩ := hrates
  have hbill : 0 ≤ i - c := sub_nonneg.mpr hcached
  have hbill' : 0 ≤ i' - c := hbill.trans (by linarith)
  have ho' : 0 ≤ o' := ho.trans hoo
  rw [calculateCostFromUsage, calculateCostFromUsage]
  dsimp only
  gcongr

end

/-! ## The table -/

theorem defaultPricingModels_nonneg : ∀ p ∈ defaultPricingModels, p.2.Nonneg := by
  decide +kernel

theorem defaultPricingModels_progressive : ∀ p ∈ defaultPricingModels, p.2.Progressive := by
  decide +kernel

theorem getPricingForModel_mem {model : String} {p : String × ModelPrice}
    (h : getPricingForModel model = some p) : p ∈ defaultPricingModels := by
  rw [getPricingForModel] at h
  split at h
  · cases h
  · simp only at h
    split at h
    · next q hq =>
      cases h
      exact List.mem_of_find?_eq_some hq
    · split at h
      · cases h
      · exact List.mem_of_find?_eq_some h

end CodexOctopus

import Mathlib.Tactic.Linarith
import CodexOctopus.StickySelection

/-!
# What `select_account` can choose

The choice of `select_account` as a property of the candidates, in whatever order they come
(`StrategyChoice`): the best health tier, the earliest reset where the strategy looks at it, and
there the least key, or remaining credits if the strategy draws. `route_iff` says that these are the
accounts the strategy can choose, and `select_account_exact` says so of the whole function.

Only the fallback to an account in error backoff depends on the order: of two that are equally near
to the end it takes the first (`fallback_follows_order`).
-/

namespace CodexOctopus.Balancer

open List Option

/-! ## Least elements -/

section

variable {α β : Type*} [LinearOrder β] {f : α → β} {P : α → Prop} {l : List α} {m : α}

def Least (f : α → β) (P : α → Prop) (m : α) : Prop := ∀ a, P a → a ≠ m → f m < f a

theorem argmin_iff_least (hinj : ∀ a ∈ l, ∀ b ∈ l, f a = f b → a = b) (hP : ∀ a, a ∈ l ↔ P a) :
    l.argmin f = some m ↔ P m ∧ Least f P m := by
  constructor
  · intro h
    have hm := argmin_mem h
    refine ⟨(hP m).mp hm, fun a ha hne => lt_of_le_of_ne ?_ fun heq => ?_⟩
    · exact le_of_mem_argmin ((hP a).mpr ha) h
    · exact hne (hinj a ((hP a).mpr ha) m hm heq.symm)
  · rintro ⟨hm, hleast⟩
    have hne : l ≠ [] := ne_nil_of_mem ((hP m).mpr hm)
    obtain ⟨m', hm'⟩ : ∃ m', l.argmin f = some m' :=
      ne_none_iff_exists'.mp fun h => hne (argmin_eq_none.mp h)
    rw [hm', some.injEq]
    by_contra hdiff
    have hlt := hleast m' ((hP m').mp (argmin_mem hm')) hdiff
    exact absurd (le_of_mem_argmin ((hP m).mpr hm) hm') (not_le.mpr hlt)

end

/-! ## Draws -/

section

variable {weight : Candidate → ℚ} {x : ℚ} {l : List Candidate} {s : Candidate}

theorem drawWeighted_pos (hx : 0 ≤ x) (hlt : x < (l.map weight).sum)
    (h : drawWeighted weight x l = some s) : 0 < weight s := by
  induction l generalizing x with
  | nil => cases h
  | cons a rest ih =>
    cases rest with
    | nil =>
      cases h
      exact hx.trans_lt (by simpa using hlt)
    | cons b rest =>
      rw [drawWeighted] at h
      · split_ifs at h with hhit
        · cases h
          exact hx.trans_lt hhit
        · rw [map_cons, sum_cons] at hlt
          exact ih (by linarith) (by linarith) h
      · simp

theorem exists_drawWeighted (hnonneg : ∀ r ∈ l, 0 ≤ weight r) (hs : s ∈ l) (hpos : 0 < weight s) :
    ∃ x, 0 ≤ x ∧ x < (l.map weight).sum ∧ drawWeighted weight x l = some s := by
  induction l with
  | nil => cases hs
  | cons a rest ih =>
    obtain ⟨ha, hrest⟩ := forall_mem_cons.mp hnonneg
    have hsum : 0 ≤ (rest.map weight).sum :=
      sum_nonneg fun w hw => by obtain ⟨r, hr, rfl⟩ := List.mem_map.mp hw; exact hrest r hr
    rw [map_cons, sum_cons]
    cases rest with
    | nil =>
      obtain rfl := mem_singleton.mp hs
      exact ⟨0, le_rfl, by linarith, rfl⟩
    | cons b rest =>
      rcases mem_cons.mp hs with rfl | hs
      · refine ⟨0, le_rfl, by linarith, ?_⟩
        rw [drawWeighted, if_pos hpos]
        simp
      · -- skip the weight of the first candidate
        obtain ⟨y, hy, hlt, hdraw⟩ := ih hrest hs
        refine ⟨weight a + y, by linarith, by linarith, ?_⟩
        rw [drawWeighted, if_neg (by linarith), add_sub_cancel_left, hdraw]
        simp

theorem drawWeighted_isSome (h : l ≠ []) : (drawWeighted weight x l).isSome := by
  induction l generalizing x with
  | nil => exact absurd rfl h
  | cons a rest ih =>
    cases rest with
    | nil => rfl
    | cons b rest =>
      rw [drawWeighted]
      · split_ifs
        · rfl
        · exact ih (cons_ne_nil _ _)
      · simp

theorem remainingSecondaryCredits_nonneg (s : Candidate) : 0 ≤ remainingSecondaryCredits s := by
  rw [remainingSecondaryCredits]
  dsimp only
  split
  · exact le_max_left _ _
  · split_ifs
    · exact le_rfl
    · exact le_max_left _ _

end

/-! ## The choice -/

def tierRank : HealthTier → ℕ
  | .healthy => 0
  | .probing => 1
  | .draining => 2

theorem tierRank_antisymm {a b : HealthTier} (h : tierRank a ≤ tierRank b)
    (h' : tierRank b ≤ tierRank a) :
    a = b := by
  cases a <;> cases b <;> first | rfl | exact absurd h (by decide) | exact absurd h' (by decide)

def InPool (current : ℚ) (o : SelectOptions) (C : List Candidate) (s : Candidate) : Prop :=
  s ∈ C ∧ (∀ r ∈ C, tierRank s.healthTier ≤ tierRank r.healthTier) ∧
    (o.preferEarlierReset = true → o.routingStrategy = .capacityWeighted →
      ∀ r ∈ C, r.healthTier = s.healthTier → resetBucketDays current s ≤ resetBucketDays current r)

def StrategyChoice (current : ℚ) (o : SelectOptions) (C : List Candidate) (s : Candidate) : Prop :=
  InPool current o C s ∧
  match o.routingStrategy with
  | .roundRobin => Least roundRobinSortKey (InPool current o C) s
  | .usageWeighted =>
    if o.preferEarlierReset then Least (resetFirstSortKey current) (InPool current o C) s
    else Least usageSortKey (InPool current o C) s
  | .capacityWeighted =>
    if o.deterministicProbe then Least capacityProbeSortKey (InPool current o C) s
    else ((∃ r, InPool current o C r ∧ 0 < remainingSecondaryCredits r) → 0 <
      remainingSecondaryCredits s) ∧
      ((∀ r, InPool current o C r → remainingSecondaryCredits r ≤ 0) →
        Least usageSortKey (InPool current o C) s)

section

variable {current : ℚ} {o : SelectOptions} {C : List Candidate} {s : Candidate}

theorem mem_effectivePool_iff : s ∈ effectivePool C ↔
    s ∈ C ∧ ∀ r ∈ C, tierRank s.healthTier ≤ tierRank r.healthTier := by
  -- the tier that is taken, when no candidate has a better one
  have htier : ∀ tier : HealthTier, (C.filter fun s => s.healthTier = tier) ≠ [] →
      (∀ r ∈ C, tierRank tier ≤ tierRank r.healthTier) →
      (s ∈ C.filter (fun s => s.healthTier = tier) ↔
        s ∈ C ∧ ∀ r ∈ C, tierRank s.healthTier ≤ tierRank r.healthTier) := by
    intro tier hne hbest
    obtain ⟨q, hq⟩ := exists_mem_of_ne_nil _ hne
    obtain ⟨hqC, hqt⟩ := List.mem_filter.mp hq
    rw [decide_eq_true_eq] at hqt
    rw [List.mem_filter, decide_eq_true_eq]
    constructor
    · rintro ⟨hs, rfl⟩
      exact ⟨hs, hbest⟩
    · rintro ⟨hs, hle⟩
      exact ⟨hs, tierRank_antisymm (hqt ▸ hle q hqC) (hbest s hs)⟩
  have hother : ∀ tier : HealthTier, ¬ (C.filter fun s => s.healthTier = tier) ≠ [] →
      ∀ r ∈ C, r.healthTier ≠ tier := by
    intro tier hnil r hr heq
    exact hnil (ne_nil_of_mem (List.mem_filter.mpr ⟨hr, decide_eq_true heq⟩))
  unfold effectivePool
  dsimp only
  split_ifs with hh hp hd
  · exact htier .healthy hh fun _ _ => Nat.zero_le _
  · refine htier .probing hp fun r hr => ?_
    cases ht : r.healthTier with
    | healthy => exact absurd ht (hother _ hh r hr)
    | probing => exact le_rfl
    | draining => decide
  · refine htier .draining hd fun r hr => ?_
    cases ht : r.healthTier with
    | healthy => exact absurd ht (hother _ hh r hr)
    | probing => exact absurd ht (hother _ hp r hr)
    | draining => exact le_rfl
  · have hnone : ∀ r, r ∉ C := by
      intro r hr
      cases ht : r.healthTier with
      | healthy => exact hother _ hh r hr ht
      | probing => exact hother _ hp r hr ht
      | draining => exact hother _ hd r hr ht
    exact ⟨fun hs => absurd hs (hnone s), fun hs => hs.1⟩

theorem mem_preferEarlierResetCandidates_iff : s ∈ preferEarlierResetCandidates current C ↔
    s ∈ C ∧ ∀ r ∈ C, resetBucketDays current s ≤ resetBucketDays current r := by
  unfold preferEarlierResetCandidates
  split
  · next hnil =>
    rw [min?_eq_none_iff, map_eq_nil_iff] at hnil
    rw [hnil]
    simp
  · next earliest hmin =>
    obtain ⟨hmem, hle⟩ := min?_eq_some_iff.mp hmin
    rw [List.mem_filter, decide_eq_true_eq]
    constructor
    · rintro ⟨hs, rfl⟩
      exact ⟨hs, fun r hr => hle _ (mem_map_of_mem hr)⟩
    · rintro ⟨hs, hbest⟩
      obtain ⟨q, hq, rfl⟩ := List.mem_map.mp hmem
      exact ⟨hs, le_antisymm (hbest q hq) (hle _ (mem_map_of_mem hs))⟩

def strategyPool (current : ℚ) (o : SelectOptions) (C : List Candidate) : List Candidate :=
  if o.preferEarlierReset = true ∧ o.routingStrategy = .capacityWeighted then
    preferEarlierResetCandidates current (effectivePool C)
  else effectivePool C

theorem mem_strategyPool_iff : s ∈ strategyPool current o C ↔ InPool current o C s := by
  rw [strategyPool, InPool]
  split_ifs with h
  · rw [mem_preferEarlierResetCandidates_iff, mem_effectivePool_iff, and_assoc]
    refine and_congr_right fun hs => and_congr_right fun hbest => ?_
    constructor
    · intro hreset _ _ r hr htier
      exact hreset r (mem_effectivePool_iff.mpr ⟨hr, by rwa [htier]⟩)
    · intro hreset r hr
      obtain ⟨hrC, hrbest⟩ := mem_effectivePool_iff.mp hr
      exact hreset h.1 h.2 r hrC (tierRank_antisymm (hrbest s hs) (hbest r hrC))
  · rw [mem_effectivePool_iff]
    refine and_congr_right fun _ => ⟨fun hbest => ⟨hbest, fun hp hc => absurd ⟨hp, hc⟩ h⟩, And.left⟩

theorem selectCapacityWeighted_iff (hinj : ∀ a ∈ C, ∀ b ∈ C, a.accountId = b.accountId → a = b)
    {P : Candidate → Prop} (hP : ∀ a, a ∈ C ↔ P a) :
    (∃ draw : ℚ, 0 ≤ draw ∧ draw < 1 ∧ selectCapacityWeighted draw C = some s) ↔
      P s ∧ ((∃ r, P r ∧ 0 < remainingSecondaryCredits r) → 0 < remainingSecondaryCredits s) ∧
        ((∀ r, P r → remainingSecondaryCredits r ≤ 0) → Least usageSortKey P s) := by
  have hnonneg : ∀ w ∈ C.map remainingSecondaryCredits, 0 ≤ w := by
    intro w hw
    obtain ⟨r, -, rfl⟩ := List.mem_map.mp hw
    exact remainingSecondaryCredits_nonneg r
  have hkey : ∀ a ∈ C, ∀ b ∈ C, usageSortKey a = usageSortKey b → a = b :=
    fun a ha b hb h => hinj a ha b hb (congrArg (fun k => (ofLex (ofLex (ofLex k).2).2).2) h)
  unfold selectCapacityWeighted
  dsimp only
  rw [← sum_eq_foldl]
  by_cases htotal : (C.map remainingSecondaryCredits).sum ≤ 0
  · -- no credits are left
    have hzero : ∀ r, P r → remainingSecondaryCredits r ≤ 0 := fun r hr =>
      (single_le_sum hnonneg _ (mem_map_of_mem ((hP r).mpr hr))).trans htotal
    simp only [if_pos htotal, argmin_iff_least hkey hP]
    constructor
    · rintro ⟨_, _, _, hs, hleast⟩
      refine ⟨hs, fun hsome => ?_, fun _ => hleast⟩
      obtain ⟨r, hr, hpos⟩ := hsome
      exact absurd (hzero r hr) (not_le.mpr hpos)
    · rintro ⟨hs, _, hleast⟩
      exact ⟨0, le_rfl, one_pos, hs, hleast hzero⟩
  · have hpos : 0 < (C.map remainingSecondaryCredits).sum := not_le.mp htotal
    have hsome : ∃ r, P r ∧ 0 < remainingSecondaryCredits r := by
      by_contra hnone
      refine htotal (sum_eq_zero fun w hw => ?_).le
      obtain ⟨r, hr, rfl⟩ := List.mem_map.mp hw
      exact le_antisymm (not_lt.mp fun h => hnone ⟨r, (hP r).mp hr, h⟩) (hnonneg _ hw)
    simp only [if_neg htotal]
    constructor
    · rintro ⟨draw, hdraw, hlt, hs⟩
      refine ⟨(hP s).mp (mem_of_drawWeighted hs), fun _ => ?_, fun hzero => ?_⟩
      · exact drawWeighted_pos (mul_nonneg hdraw hpos.le) (by nlinarith) hs
      · obtain ⟨r, hr, hr'⟩ := hsome
        exact absurd (hzero r hr) (not_le.mpr hr')
    · rintro ⟨hs, hcredits, -⟩
      obtain ⟨x, hx, hlt, hdraw⟩ := exists_drawWeighted
        (fun r _ => remainingSecondaryCredits_nonneg r) ((hP s).mpr hs) (hcredits hsome)
      refine ⟨x / (C.map remainingSecondaryCredits).sum, div_nonneg hx hpos.le,
        (div_lt_one₀ hpos).mpr hlt, ?_⟩
      rwa [div_mul_cancel₀ _ hpos.ne']

def IdsApart (C : List Candidate) : Prop := ∀ a ∈ C, ∀ b ∈ C, a.accountId = b.accountId → a = b

theorem exists_draw_const {p : Prop} : (∃ draw : ℚ, 0 ≤ draw ∧ draw < 1 ∧ p) ↔ p :=
  ⟨fun ⟨_, _, _, h⟩ => h, fun h => ⟨0, le_rfl, one_pos, h⟩⟩

/-- **What the strategy can choose**, over all draws. -/
theorem route_iff (hC : IdsApart C) :
    (∃ draw : ℚ, 0 ≤ draw ∧ draw < 1 ∧ route current { o with draw := draw } C = some s) ↔
      StrategyChoice current o C s := by
  have hP : ∀ a, a ∈ strategyPool current o C ↔ InPool current o C a := fun a =>
    mem_strategyPool_iff
  have hpool : IdsApart (strategyPool current o C) := fun a ha b hb h =>
    hC a ((hP a).mp ha).1 b ((hP b).mp hb).1 h
  -- a key that ends with the id of the account has no ties
  have hleast : ∀ {β : Type} [LinearOrder β] (key : Candidate → β),
      (∀ a b, key a = key b → a.accountId = b.accountId) →
      ((strategyPool current o C).argmin key = some s ↔
        InPool current o C s ∧ Least key (InPool current o C) s) := fun key hkey =>
    argmin_iff_least (fun a ha b hb h => hpool a ha b hb (hkey a b h)) hP
  have husage : ∀ a b : Candidate, usageSortKey a = usageSortKey b → a.accountId = b.accountId :=
    fun a b h => congrArg (fun k => (ofLex (ofLex (ofLex k).2).2).2) h
  rw [StrategyChoice]
  cases hstrategy : o.routingStrategy with
  | roundRobin =>
    have heq : strategyPool current o C = effectivePool C := if_neg (by simp [hstrategy])
    simp only [route, exists_draw_const, ← heq]
    exact hleast roundRobinSortKey fun a b h => congrArg (fun k => (ofLex k).2) h
  | usageWeighted =>
    have heq : strategyPool current o C = effectivePool C := if_neg (by simp [hstrategy])
    simp only [route, exists_draw_const, ← heq]
    split_ifs
    · exact hleast (resetFirstSortKey current) fun a b h => husage a b
        (congrArg (fun k => (ofLex k).2) h)
    · exact hleast usageSortKey husage
  | capacityWeighted =>
    have heq : strategyPool current o C = if o.preferEarlierReset then
        preferEarlierResetCandidates current (effectivePool C) else effectivePool C := by
      simp only [strategyPool, hstrategy, and_true]
    simp only [route, ← heq]
    cases o.deterministicProbe with
    | true =>
      simp only [if_true, exists_draw_const]
      exact hleast capacityProbeSortKey fun a b h => husage a b (congrArg (fun k => (ofLex k).2) h)
    | false =>
      simp only [Bool.false_eq_true, if_false]
      exact selectCapacityWeighted_iff hpool hP

theorem effectivePool_eq_nil : effectivePool C = [] ↔ C = [] := by
  unfold effectivePool
  dsimp only
  split_ifs with hh hp hd
  · exact ⟨fun h => absurd h hh, fun h => by subst h; exact absurd rfl hh⟩
  · exact ⟨fun h => absurd h hp, fun h => by subst h; exact absurd rfl hp⟩
  · exact ⟨fun h => absurd h hd, fun h => by subst h; exact absurd rfl hd⟩
  · exact Iff.rfl

theorem preferEarlierResetCandidates_eq_nil : preferEarlierResetCandidates current C = [] ↔ C =
    [] := by
  constructor
  · intro h
    by_contra hne
    obtain ⟨m, hm⟩ : ∃ m, C.argmin (resetBucketDays current) = some m :=
      ne_none_iff_exists'.mp fun h => hne (argmin_eq_none.mp h)
    have hin := mem_preferEarlierResetCandidates_iff.mpr
      ⟨argmin_mem hm, fun r hr => le_of_mem_argmin hr hm⟩
    rw [h] at hin
    cases hin
  · rintro rfl
    rfl

theorem selectCapacityWeighted_eq_none {draw : ℚ} : selectCapacityWeighted draw C = none ↔ C =
    [] := by
  unfold selectCapacityWeighted
  dsimp only
  split_ifs
  · exact argmin_eq_none
  · constructor
    · intro h
      by_contra hne
      exact absurd (drawWeighted_isSome hne) (by rw [h]; decide)
    · rintro rfl
      rfl

theorem route_eq_none_iff : route current o C = none ↔ C = [] := by
  unfold route
  dsimp only
  split
  · rw [argmin_eq_none, effectivePool_eq_nil]
  · split_ifs
    · rw [argmin_eq_none, preferEarlierResetCandidates_eq_nil, effectivePool_eq_nil]
    · rw [argmin_eq_none, effectivePool_eq_nil]
    · rw [selectCapacityWeighted_eq_none, preferEarlierResetCandidates_eq_nil, effectivePool_eq_nil]
    · rw [selectCapacityWeighted_eq_none, effectivePool_eq_nil]
  · split_ifs
    · rw [argmin_eq_none, effectivePool_eq_nil]
    · rw [argmin_eq_none, effectivePool_eq_nil]

theorem StrategyChoice.reset_le (h : StrategyChoice current o C s)
    (hprefer : o.preferEarlierReset = true)
    (hstrategy : o.routingStrategy ≠ .roundRobin) :
    ∀ r ∈ C, r.healthTier = s.healthTier → resetBucketDays current s ≤ resetBucketDays current
      r := by
  intro r hr htier
  obtain ⟨hpool, hchoice⟩ := h
  cases hs : o.routingStrategy with
  | roundRobin => exact absurd hs hstrategy
  | capacityWeighted => exact hpool.2.2 hprefer hs r hr htier
  | usageWeighted =>
    rw [hs] at hchoice
    dsimp only at hchoice
    rw [if_pos hprefer] at hchoice
    by_cases heq : r = s
    · rw [heq]
    · have hin : InPool current o C r :=
        ⟨hr, fun q hq => htier ▸ hpool.2.1 q hq, fun _ hc => by rw [hs] at hc; cases hc⟩
      have hle : (resetBucketDays current s : ℚ) ≤ resetBucketDays current r := by
        rcases Prod.Lex.lt_iff.mp (hchoice r hin heq) with hlt | ⟨heq, -⟩
        · exact hlt.le
        · exact heq.le
      exact_mod_cast hle

theorem strategyChoice_congr {C' : List Candidate} (h : ∀ r, r ∈ C ↔ r ∈ C') :
    StrategyChoice current o C s ↔ StrategyChoice current o C' s := by
  have hpool : InPool current o C = InPool current o C' := by
    funext r
    simp only [InPool, h]
  rw [StrategyChoice, StrategyChoice, hpool]

end

/-! ## The whole function -/

def placed (current : ℚ) (e : Eligibility) (states : List Candidate) : List Candidate :=
  (states.filter fun s => eligibility current s = e).map (checkCandidate current)

def FallbackApplies (current : ℚ) (o : SelectOptions) (states : List Candidate) : Prop :=
  o.allowBackoffFallback = true ∧
    (1 < states.countP (fun s => eligibility current s = .inErrorBackoff) ∨
      0 < states.countP (fun s => eligibility current s = .inErrorBackoff) ∧
        ∃ s ∈ states, (checkCandidate current s).status ≠ .active)

def NoTie (current : ℚ) (states : List Candidate) : Prop :=
  ∀ a ∈ states, ∀ b ∈ states, eligibility current a = .inErrorBackoff →
    eligibility current b = .inErrorBackoff →
    backoffExpiresAt (checkCandidate current a) = backoffExpiresAt (checkCandidate current b) → a =
      b

def CanSelect (current : ℚ) (o : SelectOptions) (states : List Candidate) (s : Candidate) : Prop :=
  ∃ draw : ℚ, 0 ≤ draw ∧ draw < 1 ∧
    (selectAccount current { o with draw := draw } states).2.account = some s

section

variable {current : ℚ} {o : SelectOptions} {states states' : List Candidate} {s : Candidate}

theorem selectAccount_account :
    (selectAccount current o states).2.account = route current o (choosable current o states) := by
  unfold selectAccount
  dsimp only
  split
  · next h => rw [h]
  · next h => rw [h]

theorem idsApart_choosable (hids : IdsApart states) : IdsApart (choosable current o states) := by
  intro a ha b hb h
  obtain ⟨r, hr, rfl, -⟩ := eligible_of_mem_choosable ha
  obtain ⟨q, hq, rfl, -⟩ := eligible_of_mem_choosable hb
  rw [checkCandidate_accountId, checkCandidate_accountId] at h
  rw [hids r hr q hq h]

theorem placed_ne_nil (e : Eligibility) :
    placed current e states ≠ [] ↔ ∃ s ∈ states, eligibility current s = e := by
  rw [placed, Ne, map_eq_nil_iff, filter_eq_nil_iff]
  simp

theorem choosable_cases :
    (∃ s ∈ states, eligibility current s = .available) ∧
      choosable current o states = placed current .available states ∨
    (∀ s ∈ states, eligibility current s ≠ .available) ∧ FallbackApplies current o states ∧
      choosable current o states = ((placed current .inErrorBackoff states).argmin
        backoffExpiresAt).toList ∨
    (∀ s ∈ states, eligibility current s ≠ .available) ∧ ¬ FallbackApplies current o states ∧
      choosable current o states = [] := by
  have hfallback : FallbackApplies current o states ↔ (o.allowBackoffFallback &&
      (1 < (placed current .inErrorBackoff states).length ||
        (placed current .inErrorBackoff states ≠ [] &&
        (states.map (checkCandidate current)).any fun s => s.status ≠ .active))) = true := by
    simp [FallbackApplies, placed, countP_eq_length_filter, length_pos_iff]
  by_cases havailable : ∃ s ∈ states, eligibility current s = .available
  · exact .inl ⟨havailable, if_pos ((placed_ne_nil _).mpr havailable)⟩
  · have hnone : ∀ s ∈ states, eligibility current s ≠ .available := fun s hs h => havailable
      ⟨s, hs, h⟩
    have hnil := mt (placed_ne_nil .available).mp havailable
    by_cases hf : FallbackApplies current o states
    · exact .inr (.inl ⟨hnone, hf, (if_neg hnil).trans (if_pos (hfallback.mp hf))⟩)
    · exact .inr (.inr ⟨hnone, hf, (if_neg hnil).trans (if_neg (mt hfallback.mpr hf))⟩)

theorem mem_choosable_perm (hperm : states.Perm states') (htie : NoTie current states)
    (r : Candidate) :
    r ∈ choosable current o states ↔ r ∈ choosable current o states' := by
  have hmem : ∀ q, q ∈ states ↔ q ∈ states' := fun q => hperm.mem_iff
  have hfallback : FallbackApplies current o states ↔ FallbackApplies current o states' := by
    simp only [FallbackApplies, hperm.countP_eq, hmem]
  have hlists : ∀ e q, q ∈ placed current e states ↔ q ∈ placed current e states' :=
    fun e q => ((hperm.filter _).map _).mem_iff
  have hno : (∀ s ∈ states, eligibility current s ≠ .available) ↔
      ∀ s ∈ states', eligibility current s ≠ .available := by simp only [hmem]
  rcases @choosable_cases current o states with ⟨⟨q, hq, hqa⟩, heq⟩ | ⟨hnone, hf, heq⟩ |
    ⟨hnone, hf, heq⟩
  · rcases @choosable_cases current o states' with ⟨-, heq'⟩ | ⟨hnone', -⟩ | ⟨hnone', -⟩
    · rw [heq, heq']
      exact hlists .available r
    · exact absurd hqa (hno.mpr hnone' q hq)
    · exact absurd hqa (hno.mpr hnone' q hq)
  · rcases @choosable_cases current o states' with ⟨⟨q, hq, hqa⟩, -⟩ | ⟨-, -, heq'⟩ | ⟨-, hf', -⟩
    · exact absurd hqa (hno.mp hnone q hq)
    · -- the one that is nearest to the end is nearest in every order
      have hinj : ∀ a ∈ placed current .inErrorBackoff states, ∀ b ∈ placed current .inErrorBackoff
        states,
          backoffExpiresAt a = backoffExpiresAt b → a = b := by
        intro a ha b hb h
        obtain ⟨x, hx, rfl⟩ := List.mem_map.mp ha
        obtain ⟨y, hy, rfl⟩ := List.mem_map.mp hb
        obtain ⟨hx, hxe⟩ := List.mem_filter.mp hx
        obtain ⟨hy, hye⟩ := List.mem_filter.mp hy
        rw [htie x hx y hy (of_decide_eq_true hxe) (of_decide_eq_true hye) h]
      rw [heq, heq', mem_toList, mem_toList,
        argmin_iff_least hinj fun _ => Iff.rfl,
        argmin_iff_least (fun a ha b hb => hinj a ((hlists _ a).mpr ha) b ((hlists _ b).mpr hb))
          fun a => (hlists _ a).symm]
    · exact absurd (hfallback.mp hf) hf'
  · rcases @choosable_cases current o states' with ⟨⟨q, hq, hqa⟩, -⟩ | ⟨-, hf', -⟩ | ⟨-, -, heq'⟩
    · exact absurd hqa (hno.mp hnone q hq)
    · exact absurd (hfallback.mpr hf') hf
    · rw [heq, heq']

theorem canSelect_iff (hids : IdsApart states) :
    CanSelect current o states s ↔ StrategyChoice current o (choosable current o states) s := by
  rw [← route_iff (idsApart_choosable hids)]
  simp only [CanSelect, selectAccount_account]
  exact Iff.rfl

def inBackoff (id : String) : Candidate :=
  { accountId := id, status := .active, usedPercent := none, resetAt := none, blockedAt := none,
    cooldownUntil := none, secondaryUsedPercent := none, secondaryResetAt := none, lastErrorAt :=
      some 100,
    errorCount := 3, deactivationReason := none, lastSelectedAt := none, planType := "plus",
    capacityCredits := none, healthTier := .healthy }

def roundRobinOptions : SelectOptions := ⟨true, .roundRobin, true, false, 0⟩

end

end CodexOctopus.Balancer

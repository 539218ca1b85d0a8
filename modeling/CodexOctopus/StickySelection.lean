import CodexOctopus.AccountRanking

/-!
# Choosing an account for a sticky key

`_select_with_stickiness` of `app/modules/proxy/load_balancer.py`: the account that the
sticky key is mapped to is tried first, with a grace period if it is rate-limited, and
then the whole pool. What is decided before the first write to the mapping is one function
of the mapping that was read, the candidates and the readings of the clock: `stickyPlan`.
-/

namespace CodexOctopus

open List

inductive StickySessionKind : Type where
  | codexSession
  | stickyThread
  | promptCache
  deriving DecidableEq

structure StickyClock where
  check : ℚ
  pinned : ℚ
  pool : ℚ
  again : ℚ
  grace : ℚ
  ordered : check ≤ pinned ∧ pinned ≤ pool ∧ pool ≤ again ∧ again ≤ grace

structure StickyArgs where
  stickyKind : StickySessionKind
  reallocateSticky : Bool
  stickyMaxAgeSeconds : Option ℕ
  budgetThresholdPct : ℚ
  preferEarlierReset : Bool
  routingStrategy : RoutingStrategy

inductive StickyPlan : Type where
  | pinned (states : List Candidate) (account : Candidate)
  | graced (states : List Candidate) (account : Candidate)
  /-- the pool decides; the mapping is deleted first, and bound to the choice afterwards -/
  | fallback (states : List Candidate) (delete persist : Bool)

def StickyPlan.states : StickyPlan → List Candidate
  | pinned states _ => states
  | graced states _ => states
  | fallback states _ _ => states

namespace Balancer

def stickyOptions (a : StickyArgs) (allowBackoffFallback deterministicProbe : Bool) :
    SelectOptions :=
  ⟨a.preferEarlierReset, a.routingStrategy, allowBackoffFallback, deterministicProbe, 0⟩

def budgetExhausted (a : StickyArgs) (pinned : Candidate) : Bool :=
  a.stickyKind = .promptCache && pinned.status ≠ .rateLimited &&
    pinned.usedPercent.any (a.budgetThresholdPct < ·)

def rateLimitFarAway (a : StickyArgs) (now : ℚ) (pinned : Candidate) : Bool :=
  a.stickyKind = .promptCache && pinned.status = .rateLimited &&
    pinned.resetAt.any (600 ≤ · - now)

def poolAlsoExhausted (a : StickyArgs) (pinned : Candidate) (best : SelectionResult) : Bool :=
  best.account.any fun s =>
    s.accountId = pinned.accountId || s.usedPercent.any (a.budgetThresholdPct < ·)

def recheck (accountId : String) (now : ℚ) (states : List Candidate) : List Candidate :=
  states.map fun s => if s.accountId = accountId then checkCandidate now s else s

def selectPinned (a : StickyArgs) (now : ℚ) (pinned : Candidate) : Option Candidate :=
  (selectAccount now (stickyOptions a false false) [pinned]).2.account

/-- What is tried before the grace period: the candidates, the account if any, and whether the
mapping is given up. -/
def tryPinned (a : StickyArgs) (clock : StickyClock) (states : List Candidate) (pinned : Candidate)
    :
    List Candidate × Option Candidate × Bool :=
  if budgetExhausted a pinned then
    let (states, best) := selectAccount clock.pool (stickyOptions a true true) states
    if poolAlsoExhausted a pinned best then
      (recheck pinned.accountId clock.again states,
        selectPinned a clock.again (checkCandidate clock.pool pinned), true)
    else (states, none, true)
  else if rateLimitFarAway a clock.check pinned then (states, none, true)
  else
    (recheck pinned.accountId clock.pinned states, selectPinned a clock.pinned pinned,
      a.reallocateSticky)

def stickyGracePeriodSeconds : ℚ := 10

def selectGraced (a : StickyArgs) (clock : StickyClock) (reallocate : Bool) (pinned : Candidate) :
    Option Candidate :=
  if !reallocate && pinned.status = .rateLimited then
    selectPinned a (clock.grace + stickyGracePeriodSeconds) pinned
  else none

def planPastPinned (a : StickyArgs) (clock : StickyClock) (states : List Candidate)
    (pinned : Candidate) (reallocate : Bool) : StickyPlan :=
  match selectGraced a clock reallocate pinned with
  | some account => .graced states account
  | none =>
    if reallocate then .fallback states true true
    else if pinned.status.onHold then .fallback states false true
    -- a mapping that expires by itself is kept for the time after the outage
    else .fallback states false a.stickyMaxAgeSeconds.isNone

/-- `_select_with_stickiness` up to its first write, given the mapping that was read. -/
def stickyPlan (a : StickyArgs) (clock : StickyClock) (existing : Option String)
    (states : List Candidate) : StickyPlan :=
  match existing with
  | none => .fallback states false true
  | some accountId =>
    match states.find? fun s => s.accountId = accountId with
    | none => .fallback states true true
    | some pinned =>
      match tryPinned a clock states pinned with
      | (states, some account, _) => .pinned states account
      | (states, none, reallocate) =>
        -- the pinned account as the passes have left it
        let pinned := (states.find? fun s => s.accountId = accountId).getD pinned
        planPastPinned a clock states pinned reallocate

/-! ## Candidates that passes have changed -/

@[simp] theorem checkCandidate_accountId (t : ℚ) (s : Candidate) :
    (checkCandidate t s).accountId = s.accountId := by
  have hcooldown : ∀ s : AccountState, (checkCooldown t s).1.accountId = s.accountId := by
    intro s
    unfold checkCooldown
    dsimp only
    split_ifs <;> rfl
  unfold checkCandidate checkAvailability
  dsimp only
  split
  · rfl
  · rfl
  · split_ifs
    · exact hcooldown _
    · rfl
  · split_ifs
    · exact hcooldown _
    · rfl
  · exact hcooldown _

inductive Passed (t : ℚ) (r : Candidate) : Candidate → Prop where
  | refl : Passed t r r
  | check {s : Candidate} {t' : ℚ} (hle : t' ≤ t) (h : Passed t r s) :
      Passed t r (checkCandidate t' s)

variable {r s : Candidate} {t : ℚ}

theorem Passed.accountId (h : Passed t r s) :
    s.accountId = r.accountId := by
  induction h with
  | refl => rfl
  | check _ _ ih => rw [checkCandidate_accountId, ih]

theorem Passed.eligibility (h : Passed t r s) :
    eligibility t s = eligibility t r := by
  induction h with
  | refl => rfl
  | check hle _ ih => rw [eligibility_again hle, ih]

theorem Passed.mono {t₁ t₂ : ℚ} (hle : t₁ ≤ t₂) (h : Passed t₁ r s) :
    Passed t₂ r s := by
  induction h with
  | refl => exact .refl
  | check hle' _ ih => exact .check (hle'.trans hle) ih

def PassedAll (t : ℚ) (rs ss : List Candidate) : Prop := List.Forall₂ (Passed t) rs ss

namespace PassedAll

variable {t : ℚ} {rs ss : List Candidate}

theorem refl (t : ℚ) (rs : List Candidate) : PassedAll t rs rs :=
  forall₂_same.mpr fun _ _ => .refl

theorem map {f : Candidate → Candidate} (hf : ∀ r s, Passed t r s → Passed t r (f s))
    (h : PassedAll t rs ss) : PassedAll t rs (ss.map f) :=
  forall₂_map_right_iff.mpr (h.imp fun {r s} hrs => hf r s hrs)

variable {t' : ℚ}

theorem mono (hle : t ≤ t') (h : PassedAll t rs ss) : PassedAll t' rs ss :=
  List.Forall₂.imp (fun {_ _} hrs => hrs.mono hle) h

theorem check (hle : t' ≤ t) (h : PassedAll t rs ss) :
    PassedAll t rs (ss.map (checkCandidate t')) :=
  h.map fun _ _ hrs => .check hle hrs

theorem recheck (hle : t' ≤ t) (accountId : String) (h : PassedAll t rs ss) :
    PassedAll t rs (recheck accountId t' ss) := by
  refine h.map fun r s hrs => ?_
  split_ifs
  · exact .check hle hrs
  · exact hrs

theorem exists_left (h : PassedAll t rs ss) {s : Candidate} (hs : s ∈ ss) :
    ∃ r ∈ rs, Passed t r s := by
  induction h with
  | nil => cases hs
  | cons hrs _ ih =>
    obtain rfl | hs := mem_cons.mp hs
    · exact ⟨_, mem_cons_self, hrs⟩
    · obtain ⟨r, hr, hpassed⟩ := ih hs
      exact ⟨r, mem_cons_of_mem _ hr, hpassed⟩

theorem exists_right (h : PassedAll t rs ss) {r : Candidate} (hr : r ∈ rs) :
    ∃ s ∈ ss, Passed t r s := by
  induction h with
  | nil => cases hr
  | cons hrs _ ih =>
    obtain rfl | hr := mem_cons.mp hr
    · exact ⟨_, mem_cons_self, hrs⟩
    · obtain ⟨s, hs, hpassed⟩ := ih hr
      exact ⟨s, mem_cons_of_mem _ hs, hpassed⟩

theorem eligible (h : PassedAll t rs ss) {s : Candidate} (hs : s ∈ ss) (helig : Eligible t ss s) :
    ∃ r ∈ rs, Passed t r s ∧ Eligible t rs r := by
  obtain ⟨r, hr, hpassed⟩ := h.exists_left hs
  refine ⟨r, hr, hpassed, ?_⟩
  obtain havailable | ⟨hbackoff, hnone⟩ := helig
  · exact .inl (hpassed.eligibility ▸ havailable)
  · refine .inr ⟨hpassed.eligibility ▸ hbackoff, fun q hq hqa => ?_⟩
    obtain ⟨q', hq', hpassed'⟩ := h.exists_right hq
    exact hnone q' hq' (hpassed'.eligibility.trans hqa)

end PassedAll

theorem find?_recheck (accountId : String) (t : ℚ) (states : List Candidate) :
    (recheck accountId t states).find? (fun s => s.accountId = accountId) =
      (states.find? fun s => s.accountId = accountId).map (checkCandidate t) := by
  induction states with
  | nil => rfl
  | cons s rest ih =>
    by_cases hs : s.accountId = accountId
    · simp [recheck, hs]
    · simpa [recheck, hs] using ih

/-! ## What a plan takes -/

theorem available_of_selectPinned {a : StickyArgs} {now : ℚ} {p : Candidate}
    (h : selectPinned a now p = some s) :
    checkCandidate now p = s ∧ eligibility now p = .available := by
  obtain ⟨r, hr, hcheck, -⟩ := selectAccount_sound h
  obtain rfl := mem_singleton.mp hr
  refine ⟨hcheck, ?_⟩
  by_contra hne
  have hnone : choosable now (stickyOptions a false false) [r] = [] := by
    simp [choosable, stickyOptions, hne]
  unfold selectPinned selectAccount at h
  rw [hnone] at h
  cases hroute : a.routingStrategy <;>
    simp [route, stickyOptions, effectivePool, selectCapacityWeighted,
      preferEarlierResetCandidates, hroute] at h

theorem checkCandidate_of_rateLimited (h : (checkCandidate t s).status = .rateLimited) :
    s.status = .rateLimited ∧ checkCandidate t s = s := by
  have hkept : ∀ s' : AccountState, (checkCooldown t s').1.status = s'.status :=
    checkCooldown_status t
  unfold checkCandidate checkAvailability at h ⊢
  dsimp only at h ⊢
  split at h
  · next hs => cases hs.symm.trans h
  · next hs => cases hs.symm.trans h
  · next hs =>
    split_ifs at h ⊢
    · cases (hkept _).symm.trans h
    · exact ⟨hs, rfl⟩
  · next hs =>
    split_ifs at h
    · cases (hkept _).symm.trans h
    · cases hs.symm.trans h
  · next hs => cases hs.symm.trans ((hkept _).symm.trans h)

section

variable {a : StickyArgs} {clock : StickyClock} {existing : Option String}
  {states ss : List Candidate} {account pinned : Candidate} {reallocate : Bool}

theorem tryPinned_states (a : StickyArgs) (clock : StickyClock) (states : List Candidate)
    (pinned : Candidate) : PassedAll clock.grace states (tryPinned a clock states pinned).1 := by
  obtain ⟨-, h₂, h₃, h₄⟩ := clock.ordered
  have hall : PassedAll clock.grace states states := .refl _ _
  unfold tryPinned
  split_ifs
  · dsimp only
    rw [selectAccount_states]
    split_ifs
    · exact (hall.check (h₃.trans h₄)).recheck h₄ _
    · exact hall.check (h₃.trans h₄)
  · exact hall
  · exact hall.recheck (h₂.trans (h₃.trans h₄)) _

theorem tryPinned_found (h : (tryPinned a clock states pinned).2.1 = some account) :
    pinned.accountId = account.accountId ∧
      ∃ t, clock.check ≤ t ∧ t ≤ clock.grace ∧ eligibility t pinned = .available := by
  obtain ⟨h₁, h₂, h₃, h₄⟩ := clock.ordered
  unfold tryPinned at h
  split_ifs at h
  · dsimp only at h
    split_ifs at h
    · obtain ⟨rfl, havailable⟩ := available_of_selectPinned h
      rw [eligibility_again h₃] at havailable
      exact ⟨by simp, clock.again, h₁.trans (h₂.trans h₃), h₄, havailable⟩
  · obtain ⟨rfl, havailable⟩ := available_of_selectPinned h
    exact ⟨by simp, clock.pinned, h₁, h₂.trans (h₃.trans h₄), havailable⟩

theorem tryPinned_kept (h : (tryPinned a clock states pinned).2.2 = false) :
    (tryPinned a clock states pinned).1 = recheck pinned.accountId clock.pinned states := by
  unfold tryPinned at h ⊢
  split_ifs at h ⊢
  · dsimp only at h
    split_ifs at h
  · rfl

theorem planPastPinned_states (a : StickyArgs) (clock : StickyClock) (states : List Candidate)
    (pinned : Candidate) (reallocate : Bool) :
    (planPastPinned a clock states pinned reallocate).states = states := by
  unfold planPastPinned
  split
  · rfl
  · split_ifs <;> rfl

theorem planPastPinned_ne_pinned :
    planPastPinned a clock states pinned reallocate ≠ .pinned ss account := by
  unfold planPastPinned
  split
  · simp
  · split_ifs <;> simp

theorem planPastPinned_graced
    (h : planPastPinned a clock states pinned reallocate = .graced ss account) :
    states = ss ∧ selectGraced a clock reallocate pinned = some account := by
  unfold planPastPinned at h
  split at h
  · next hgrace =>
    obtain ⟨rfl, rfl⟩ := StickyPlan.graced.inj h
    exact ⟨rfl, hgrace⟩
  · split_ifs at h

/-- **Whatever is decided, the candidates are those that were built**, after some passes. -/
theorem stickyPlan_states (a : StickyArgs) (clock : StickyClock) (existing : Option String)
    (states : List Candidate) :
    PassedAll clock.grace states (stickyPlan a clock existing states).states := by
  unfold stickyPlan
  split
  · exact .refl _ _
  · split
    · exact .refl _ _
    · next pinned _ =>
      have hpassed := tryPinned_states a clock states pinned
      split
      · next htry =>
        rw [htry] at hpassed
        exact hpassed
      · next htry =>
        rw [htry] at hpassed
        rw [planPastPinned_states]
        exact hpassed

/-- **A pinned account that is taken was available** among the candidates as they were built. -/
theorem stickyPlan_pinned (h : stickyPlan a clock existing states = .pinned ss account) :
    ∃ r ∈ states, r.accountId = account.accountId ∧
      ∃ t, clock.check ≤ t ∧ t ≤ clock.grace ∧ eligibility t r = .available := by
  unfold stickyPlan at h
  split at h
  · cases h
  · split at h
    · cases h
    · next pinned hpinned =>
      split at h
      · next htry =>
        obtain ⟨-, rfl⟩ := StickyPlan.pinned.inj h
        exact ⟨pinned, mem_of_find?_eq_some hpinned, tryPinned_found (congrArg (·.2.1) htry)⟩
      · exact absurd h planPastPinned_ne_pinned

/-- **In the grace period** the pinned account is rate-limited and unchanged, and a copy of it is
returned. -/
theorem stickyPlan_graced (h : stickyPlan a clock existing states = .graced ss account) :
    ∃ r ∈ states, existing = some r.accountId ∧ r.status = .rateLimited ∧
      eligibility (clock.grace + stickyGracePeriodSeconds) r = .available ∧
      checkCandidate (clock.grace + stickyGracePeriodSeconds) r = account ∧
      ss = recheck r.accountId clock.pinned states ∧ checkCandidate clock.pinned r = r := by
  unfold stickyPlan at h
  split at h
  · cases h
  · next accountId =>
    split at h
    · cases h
    · next pinned hpinned =>
      have hid : pinned.accountId = accountId := by simpa using find?_some hpinned
      split at h
      · cases h
      · next states' reallocate htry =>
        obtain ⟨rfl, hgrace⟩ := planPastPinned_graced h
        unfold selectGraced at hgrace
        split_ifs at hgrace with hcond
        rw [Bool.and_eq_true, Bool.not_eq_true', decide_eq_true_eq] at hcond
        obtain ⟨hkeep, hlimited⟩ := hcond
        -- the pinned account has had one pass, which did nothing
        have hss := tryPinned_kept ((congrArg (·.2.2) htry).trans hkeep)
        rw [htry] at hss
        dsimp only at hss
        have hfind : (states'.find? fun s => s.accountId = accountId).getD pinned =
            checkCandidate clock.pinned pinned := by
          rw [hss, hid, find?_recheck, hpinned]
          rfl
        rw [hfind] at hgrace hlimited
        obtain ⟨hstatus, hsame⟩ := checkCandidate_of_rateLimited hlimited
        rw [hsame] at hgrace
        obtain ⟨hcopy, havailable⟩ := available_of_selectPinned hgrace
        exact ⟨pinned, mem_of_find?_eq_some hpinned, by rw [hid], hstatus, havailable, hcopy,
          hss, hsame⟩

end

end Balancer

end CodexOctopus

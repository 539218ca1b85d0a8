import CodexOctopus.CallsAlone

/-!
# The end of a rate limit

An account that `mark_rate_limit` has blocked for an error without a reset time has a cooldown,
and no reset. Its state is built anew by each selection, from its row, its runtime entry and its
latest usage rows, and only a primary usage row makes `apply_usage_quota` lift the block.
-/

namespace CodexOctopus.Balancer

open List Option Python Interaction Lts

/-! ## Selections do not wait -/

def isSelecting : BalancerOp → Bool
  | .cacheGet _ | .cacheSet _ _ | .listAccounts _ | .modelPlans | .latestAdditional _ _ _ _
  | .latestUsage _ _ | .now | .random | .build _ | .sync _ _ _ | .watch | .persistIfCurrent _ _
  | .settle => true
  | _ => false

abbrev Selects {α : Type} (p : BalancerM α) : Prop := p.All fun op => isSelecting op = true

variable {e : Reading} {tid : ℕ} {cfg : BalancerSettings}

theorem exec_selecting {op : BalancerOp} {w : World} (hop : isSelecting op = true)
    (hfree : w.locked = []) (hnow : w.now ≤ e.now) :
    ∃ w' r, w.exec cfg tid op e = some (w', r) ∧ w'.locked = [] ∧ w'.now = e.now := by
  have hready : w.ready e op = true := by
    cases op with
    | sync account state selected => simp [World.ready, hfree]
    | acquire | stickyClock => cases hop
    | _ => rfl
  refine ⟨_, _, if_pos ⟨hnow, hready⟩, ?_⟩
  cases op with
  | stickyGet | stickyClock | stickyUpsert | stickyDelete | acquire | release | mark | recordErrors
  | recordSuccess | persist | invalidate => cases hop
  | _ => exact ⟨hfree, rfl⟩

section Selects

variable {cfg : BalancerSettings} {key : CacheKey} {req : SelectRequest}

theorem selects_cacheInputs (inputs : SelectionInputs) : Selects (cacheInputs key inputs) :=
  ⟨rfl, fun _ => trivial⟩

theorem selects_loadUsage (runtimeIds : List String) (view : FilterView)
    (accounts : List PoolAccount) : Selects (loadUsage key runtimeIds view accounts) := by
  unfold loadUsage
  split
  · exact selects_cacheInputs _
  · exact ⟨rfl, fun _ => ⟨rfl, fun _ => selects_cacheInputs _⟩⟩

theorem selects_latestAdditionalByKey (limitName : String) (window : UsageWindow)
    (accountIds : List String) (since : Option ℚ) :
    Selects (latestAdditionalByKey cfg limitName window accountIds since) := by
  unfold latestAdditionalByKey
  split
  · trivial
  · exact ⟨rfl, fun _ => trivial⟩

theorem selects_readLimit (limitName : String) (accountIds : List String) :
    Selects (readLimit cfg limitName accountIds) := by
  refine ⟨rfl, fun _ => ?_⟩
  refine (selects_latestAdditionalByKey ..).bind fun _ => ?_
  refine (selects_latestAdditionalByKey ..).bind fun _ => ?_
  refine (selects_latestAdditionalByKey ..).bind fun _ => ?_
  refine (selects_latestAdditionalByKey ..).bind fun _ => ?_
  exact ⟨rfl, fun _ => trivial⟩

theorem selects_loadLimited (runtimeIds : List String) (plans : Option ModelPlans)
    (accounts : List PoolAccount) : Selects (loadLimited cfg key runtimeIds plans accounts) := by
  unfold loadLimited
  split
  · exact selects_loadUsage ..
  · split
    · exact selects_cacheInputs _
    · refine (selects_readLimit ..).bind fun _ => ?_
      dsimp only
      split
      · exact selects_cacheInputs _
      · exact selects_loadUsage ..

theorem selects_loadFiltered (runtimeIds : List String) (plans : Option ModelPlans)
    (accounts : List PoolAccount) : Selects (loadFiltered cfg key runtimeIds plans accounts) := by
  unfold loadFiltered
  dsimp only
  split
  · exact selects_cacheInputs _
  · exact selects_loadLimited ..

theorem selects_loadSelectionInputs : Selects (loadSelectionInputs cfg key) := by
  refine ⟨rfl, fun cached => ?_⟩
  cases cached with
  | some inputs => trivial
  | none => exact ⟨rfl, fun _ => ⟨rfl, fun _ => selects_loadFiltered ..⟩⟩

theorem selects_loadChecked : Selects (loadChecked cfg req) := by
  refine selects_loadSelectionInputs.bind fun inputs => ?_
  dsimp only
  split
  · split <;> trivial
  · trivial

theorem selects_syncStates (selected : Option String) (l : Paired) :
    Selects (syncStates selected l) := by
  induction l with
  | nil => trivial
  | cons x rest ih => exact ⟨rfl, fun _ => ih⟩

theorem selects_persistSelectionState (l : Paired) : Selects (persistSelectionState l) := by
  induction l with
  | nil => trivial
  | cons x rest ih => exact ⟨rfl, fun _ => ih.bind fun _ => trivial⟩

theorem selects_tryOnce (hsticky : req.sticky = none) (left : ℕ) (inputs : SelectionInputs) :
    Selects (tryOnce req left inputs) := by
  have hattempt : Selects (attempt req inputs) := by
    refine ⟨rfl, fun built => ?_⟩
    have hchoose : Selects (choose req built) := by
      rw [choose, hsticky]
      exact ⟨rfl, fun _ => ⟨rfl, fun _ => trivial⟩⟩
    refine hchoose.bind fun choice => (selects_syncStates _ _).bind fun _ => ?_
    refine Prog.All.bind ?_ fun _ => (selects_persistSelectionState _).bind fun _ => trivial
    rw [hsticky]
    exact ⟨rfl, fun _ => trivial⟩
  refine hattempt.bind fun a => ?_
  rw [hsticky]
  exact ⟨rfl, fun _ => trivial⟩

theorem selects_selectLoop (hsticky : req.sticky = none) (left : ℕ) (inputs : SelectionInputs) :
    Selects (selectLoop cfg req left inputs) := by
  induction left generalizing inputs with
  | zero => exact (selects_tryOnce hsticky 0 inputs).bind fun _ => trivial
  | succ left ih =>
    refine (selects_tryOnce hsticky (left + 1) inputs).bind fun result => ?_
    cases result with
    | some selection => trivial
    | none =>
      refine selects_loadChecked.bind fun r => ?_
      cases r with
      | inl selection => trivial
      | inr inputs => exact ih inputs

theorem selects_select (hsticky : req.sticky = none) :
    Selects ((Call.select req).program cfg) := by
  refine Prog.All.bind (selects_loadChecked.bind fun r => ?_) fun _ => trivial
  cases r with
  | inl selection => trivial
  | inr inputs => exact selects_selectLoop hsticky _ inputs

end Selects

/-! ## The state that is built -/

def World.usageOf (cfg : BalancerSettings) (w : World) (a : PoolAccount) : UsageInput :=
  ⟨getItem a.id w.primaryUsage, getItem a.id w.secondaryUsage,
    cfg.usageRefreshIntervalSeconds⟩

def Unexhausted (row : Option UsageEntry) : Prop :=
  ∀ used, row.bind UsageEntry.usedPercent = some used → used < 100

/-- The account has sat out its rate limit: the cooldown is over, no further error was recorded,
and no usage row is full. -/
structure Waited (w : World) (a : PoolAccount) : Prop where
  status : a.status = .rateLimited ∨ a.status = .active
  cooled : ∀ t, (runtimeOf a.id w.runtime).cooldownUntil = some t → t ≤ w.now
  calm : orNone (runtimeOf a.id w.runtime).cooldownUntil = none →
    (runtimeOf a.id w.runtime).errorCount < 3
  primary : Unexhausted (getItem a.id w.primaryUsage)
  secondary : Unexhausted (getItem a.id w.secondaryUsage)

def World.guardOf (cfg : BalancerSettings) (w : World) (a : PoolAccount) : Option ℚ :=
  effectiveRuntimeReset w.now (runtimeOf a.id w.runtime).toRuntimeState (w.usageOf cfg a)
    a.toAccount

/-- Something lifts the block: the reset has passed, and there is one, or a primary usage row. -/
def Liftable (cfg : BalancerSettings) (w : World) (a : PoolAccount) : Prop :=
  a.status = .active ∨
    ((w.guardOf cfg a).all (· ≤ w.now) = true ∧
      ((w.usageOf cfg a).primary.bind UsageEntry.usedPercent ≠ none ∨
        orNone (w.guardOf cfg a) ≠ none))

instance (cfg : BalancerSettings) (w : World) (a : PoolAccount) : Decidable (Liftable cfg w a) :=
  inferInstanceAs (Decidable (_ ∨ _ ∧ (_ ∨ _)))

section

variable {cfg : BalancerSettings} {w : World} {a : PoolAccount} {t : ℚ}

theorem unexhausted_effectiveSecondary {u : UsageInput} (hp : Unexhausted u.primary)
    (hs : Unexhausted u.secondary) : Unexhausted u.effectiveSecondary := by
  unfold UsageInput.effectiveSecondary
  split
  · exact hs
  · next p hu =>
    split_ifs
    · rwa [hu] at hp
    · exact hs

theorem Waited.not_quotaExceeded (hw : Waited w a) : a.status ≠ .quotaExceeded := by
  obtain h | h := hw.status <;> rw [h] <;> decide

theorem Waited.guard_later (cfg : BalancerSettings) (hw : Waited w a) (hle : w.now ≤ t) :
    effectiveRuntimeReset t (runtimeOf a.id w.runtime).toRuntimeState (w.usageOf cfg a) a.toAccount
      =
      w.guardOf cfg a := by
  have hstale : ∀ t', staleQuotaBlock t' (runtimeOf a.id w.runtime).toRuntimeState (w.usageOf cfg a)
      a.toAccount = false := by
    intro t'
    rw [staleQuotaBlock, decide_eq_false hw.not_quotaExceeded, Bool.false_and, Bool.false_and]
  have hany : (runtimeOf a.id w.runtime).cooldownUntil.any (· ≤ t) =
      (runtimeOf a.id w.runtime).cooldownUntil.any (· ≤ w.now) := by
    cases hc : (runtimeOf a.id w.runtime).cooldownUntil with
    | none => rfl
    | some c =>
      have hcooled := hw.cooled c hc
      rw [any_some, any_some, decide_eq_true hcooled,
        decide_eq_true (hcooled.trans hle)]
  have hready : cooldownReady t (runtimeOf a.id w.runtime).toRuntimeState a.toAccount =
      cooldownReady w.now (runtimeOf a.id w.runtime).toRuntimeState a.toAccount := by
    rw [cooldownReady, if_neg hw.not_quotaExceeded, hany, cooldownReady,
      if_neg hw.not_quotaExceeded]
  rw [World.guardOf, effectiveRuntimeReset, effectiveRuntimeReset, hstale, hstale,
    refreshedAfterBlock, refreshedAfterBlock, hready]

theorem applyUsageQuota_eq_applyPrimary {now : ℚ} {q : QuotaInput} {status : AccountStatus}
    (hstatus : status = .rateLimited ∨ status = .active)
    (hsecondary : ∀ used, q.secondaryUsed = some used → used < 100) :
    applyUsageQuota now q status = applyPrimary now q status q.runtimeReset := by
  have hquota : status ≠ .quotaExceeded := by
    obtain rfl | rfl := hstatus <;> decide
  have hhold : ¬(status = .deactivated ∨ status = .paused) := by
    obtain rfl | rfl := hstatus <;> decide
  rw [applyUsageQuota, if_neg hhold]
  split
  · next used hused => rw [if_neg (not_le.mpr (hsecondary used hused)), if_neg hquota]
  · split
    · rw [if_neg hquota]
    · rfl

def Lifted (now : ℚ) (s : AccountState) : Prop :=
  s.status = .active ∨ s.status = .rateLimited ∧ resetElapsed now s = true

theorem resetPending_of_all {reset : Option ℚ} (h : reset.all (· ≤ t) = true) :
    resetPending t reset = false := by
  cases reset with
  | none => rfl
  | some r =>
    have hr : r ≤ t := of_decide_eq_true h
    rw [resetPending, orNone, filter_some]
    split_ifs
    · exact decide_eq_false (not_lt.mpr hr)
    · rfl

theorem applyPrimary_lifts {q : QuotaInput} {status : AccountStatus}
    (hstatus : status = .rateLimited ∨ status = .active)
    (hprimary : ∀ used, q.primaryUsed = some used → used < 100)
    (hlift : status = .active ∨ q.runtimeReset.all (· ≤ t) = true ∧
      (q.primaryUsed ≠ none ∨ orNone q.runtimeReset ≠ none)) :
    (applyPrimary t q status q.runtimeReset).1 = .active ∨
      (applyPrimary t q status q.runtimeReset).1 = .rateLimited ∧
        (orNone (applyPrimary t q status q.runtimeReset).2.2).any (· ≤ t) = true := by
  unfold applyPrimary
  cases hu : q.primaryUsed with
  | some used =>
    dsimp only
    rw [if_neg (not_le.mpr (hprimary used hu))]
    left
    obtain rfl | ⟨hpast, -⟩ := hlift
    · rw [if_neg (by decide)]
    · by_cases hlimited : status = .rateLimited
      · rw [if_pos hlimited, if_neg (by rw [resetPending_of_all hpast]; decide)]
      · rw [if_neg hlimited]
        exact hstatus.resolve_left hlimited
  | none =>
    obtain rfl | ⟨hpast, hlifts⟩ := hlift
    · exact .inl rfl
    · obtain ⟨r, hr⟩ := ne_none_iff_exists'.mp (hlifts.resolve_left (not_not.mpr hu))
      refine hstatus.symm.imp_right fun hlimited => ⟨hlimited, ?_⟩
      rw [(filter_eq_some_iff.mp hr).1] at hpast
      rw [hr]
      exact hpast

/-- **The state of an account that has waited** is active, or has a reset that is over. -/
theorem Waited.lifted (hw : Waited w a) (hlift : Liftable cfg w a) (hle : w.now ≤ t) :
    Lifted t (stateFromAccount t (runtimeOf a.id w.runtime).toRuntimeState (w.usageOf cfg a)
      a.toAccount) := by
  set q := quotaInput t (runtimeOf a.id w.runtime).toRuntimeState (w.usageOf cfg a) a.toAccount
  have hguard : q.runtimeReset = w.guardOf cfg a := hw.guard_later cfg hle
  have hsecondary : ∀ used, q.secondaryUsed = some used → used < 100 :=
    unexhausted_effectiveSecondary hw.primary hw.secondary
  have hlater : a.status = .active ∨ q.runtimeReset.all (· ≤ t) = true ∧
      (q.primaryUsed ≠ none ∨ orNone q.runtimeReset ≠ none) := by
    rw [hguard]
    refine hlift.imp_right fun h => ⟨?_, h.2⟩
    exact all_eq_true _ _ |>.mpr fun r hr =>
      decide_eq_true ((of_decide_eq_true ((all_eq_true _ _).mp h.1 r hr)).trans hle)
  have hquota : applyUsageQuota t q a.status = applyPrimary t q a.status q.runtimeReset :=
    applyUsageQuota_eq_applyPrimary hw.status hsecondary
  have hprimary : ∀ used, q.primaryUsed = some used → used < 100 := hw.primary
  have hstate := applyPrimary_lifts hw.status hprimary hlater
  rw [← hquota] at hstate
  exact hstate

/-! ## The choice -/

theorem checkCooldown_available {s : AccountState} (hcooled : ∀ c, s.cooldownUntil = some c → c ≤ t)
    (hcalm : orNone s.cooldownUntil = none → s.errorCount < 3) :
    (checkCooldown t s).2 = .available := by
  unfold checkCooldown
  cases hc : orNone s.cooldownUntil with
  | none =>
    have hfew : ¬ 3 ≤ s.errorCount := not_le.mpr (hcalm hc)
    simp [hc, hfew]
  | some c =>
    have hle : c ≤ t := hcooled c (filter_eq_some_iff.mp hc).1
    simp [hle, orNone]

theorem Lifted.available {s : AccountState} {now : ℚ} (hs : Lifted now s) (hle : now ≤ t)
    (hcooled : ∀ c, s.cooldownUntil = some c → c ≤ now)
    (hcalm : orNone s.cooldownUntil = none → s.errorCount < 3) :
    (checkAvailability t s).2 = .available := by
  have hlater : ∀ c, s.cooldownUntil = some c → c ≤ t := fun c hc => (hcooled c hc).trans hle
  unfold checkAvailability
  obtain hactive | ⟨hlimited, helapsed⟩ := hs
  · rw [hactive]
    exact checkCooldown_available hlater hcalm
  · have helapsed' : resetElapsed t s = true := by
      obtain ⟨r, hr, hpast⟩ := (any_eq_true _ _).mp helapsed
      refine (any_eq_true _ _).mpr ⟨r, hr, ?_⟩
      exact decide_eq_true ((of_decide_eq_true hpast).trans hle)
    rw [hlimited]
    dsimp only
    rw [if_pos helapsed']
    exact checkCooldown_available hlater fun _ => Nat.zero_lt_succ _

theorem effectivePool_singleton (c : Candidate) : effectivePool [c] = [c] := by
  unfold effectivePool
  cases h : c.healthTier <;> simp [h]

theorem route_singleton (o : SelectOptions) (c : Candidate) : route t o [c] = some c := by
  have hprefer : preferEarlierResetCandidates t [c] = [c] := by
    simp [preferEarlierResetCandidates]
  have hweighted : selectCapacityWeighted o.draw [c] = some c := by
    unfold selectCapacityWeighted
    dsimp only
    split_ifs <;> rfl
  unfold route
  rw [effectivePool_singleton]
  cases o.routingStrategy with
  | roundRobin => rfl
  | capacityWeighted =>
    dsimp only
    rw [hprefer, ite_self, hweighted]
    split_ifs <;> rfl
  | usageWeighted =>
    dsimp only
    split_ifs <;> rfl

theorem selectAccount_singleton {s : Candidate} (o : SelectOptions)
    (havailable : eligibility t s = .available) :
    selectAccount t o [s] = ([checkCandidate t s], ⟨some (checkCandidate t s), none⟩) := by
  have hchoosable : choosable t o [s] = [checkCandidate t s] := by
    unfold choosable
    simp [havailable]
  rw [selectAccount, hchoosable, route_singleton]
  rfl

/-! ## The selection -/

structure Plain (req : SelectRequest) : Prop where
  sticky : req.sticky = none
  model : req.model = none
  additionalLimitName : req.additionalLimitName = none

structure Only (w : World) (req : SelectRequest) (a : PoolAccount) : Prop where
  scope : w.scope req.key = [a]
  included : a.id ∉ req.excludeAccountIds
  cached : ∀ x ∈ w.cache, x.1 = req.key →
    x.2.data.entries = w.drawn [a] ∧ a.id ∈ x.2.data.runtimeIds

def InputsOf (w : World) (a : PoolAccount) (inputs : SelectionInputs) : Prop :=
  inputs.entries = w.drawn [a] ∧ a.id ∈ inputs.runtimeIds

variable {tid : ℕ} {h : Log} {req : SelectRequest}

theorem Only.mem (ho : Only w req a) : a ∈ w.accounts :=
  mem_of_mem_filter (ho.scope ▸ mem_singleton_self a : a ∈ w.scope req.key)

theorem loadFiltered_plain {key : CacheKey} {ids : List String} {plans : Option ModelPlans}
    {accounts : List PoolAccount} (hmodel : key.model = none)
    (hlimit : key.additionalLimitName = none) :
    loadFiltered cfg key ids plans accounts = loadUsage key ids ⟨plans, none⟩ accounts := by
  have hpasses : accounts.filter (passesModel cfg key plans) = accounts := by
    refine filter_eq_self.mpr fun b _ => ?_
    rw [passesModel, hmodel]
  have hname : effectiveLimitName cfg key = none := by
    rw [effectiveLimitName, hlimit, hmodel]
    rfl
  unfold loadFiltered
  dsimp only
  rw [hpasses, hmodel, loadLimited, hname]
  rfl

theorem loadSelectionInputs_only (hplain : Plain req) (ho : Only w req a) :
    Alone (system cfg) tid (fun w' _ r => Unwritten w w' ∧ InputsOf w a r) w h
      (loadSelectionInputs cfg req.key) := by
  refine loadSelectionInputs_hit_or_load (fun w' _ x hu hx hkey => ⟨hu, ho.cached x hx hkey⟩)
    fun w₁ h₁ plans hu₁ => ?_
  rw [loadFiltered_plain hplain.model hplain.additionalLimitName, ho.scope]
  refine loadUsage_alone.mono fun w' _ r hr => ⟨hr.1.trans hu₁, ?_⟩
  rw [hr.2, hu₁.drawn]
  exact ⟨rfl, mem_map_of_mem ho.mem⟩

theorem loadChecked_only (hplain : Plain req) (ho : Only w req a) :
    Alone (system cfg) tid
      (fun w' _ r => Unwritten w w' ∧ ∃ inputs, r = .inr inputs ∧ InputsOf w a inputs) w h
      (loadChecked cfg req) := by
  refine (loadSelectionInputs_only hplain ho).bind fun w' h' inputs hi => ?_
  have hentries : (inputs.exclude req.excludeAccountIds).entries = w.drawn [a] := by
    rw [SelectionInputs.exclude, hi.2.1]
    exact filter_eq_self.mpr (by simpa [World.drawn] using ho.included)
  have hinputs : InputsOf w a (inputs.exclude req.excludeAccountIds) := ⟨hentries, hi.2.2⟩
  dsimp only
  split
  · rw [if_neg (by rw [hentries]; exact cons_ne_nil _ _)]
    exact ⟨hi.1, _, rfl, hinputs⟩
  · exact ⟨hi.1, _, rfl, hinputs⟩

def IsRow (a : PoolAccount) (account : Option PoolAccount) : Prop := ∃ b, account = some b ∧ b.id =
    a.id

variable {w₁ : World} {inputs : SelectionInputs}

theorem built_available {w₂ : World} {built : List Candidate} (hw : Waited w a)
    (hlift : Liftable cfg w a) (hu : Unwritten w w₁) (hinputs : InputsOf w a inputs)
    (hbuilt : BuiltFrom cfg w₁ w₂ inputs built) :
    ∃ s, built = [s] ∧ s.accountId = a.id ∧ ∀ t, w₂.now ≤ t → eligibility t s = .available := by
  have hstates := hbuilt.states
  rw [hinputs.1, hu.runtime] at hstates
  obtain ⟨s, l, hs, hl, rfl⟩ := forall₂_cons_left_iff.mp hstates
  obtain rfl := forall₂_nil_left_iff.mp hl
  refine ⟨s, rfl, congrArg AccountState.accountId hs, fun t ht => ?_⟩
  have hle : w.now ≤ w₂.now := hu.now.trans hbuilt.now
  have hlifted := hw.lifted hlift hle
  rw [eligibility, hs]
  exact hlifted.available ht (fun c hc => (hw.cooled c hc).trans hle) hw.calm

theorem choose_only {s : Candidate} (hsticky : req.sticky = none)
    (havailable : ∀ t, w.now ≤ t → eligibility t s = .available) :
    Alone (system cfg) tid
      (fun w' _ choice => Unwritten w w' ∧
        ∃ t, choice = ([checkCandidate t s], ⟨some (checkCandidate t s), none⟩)) w h
      (choose req [s]) := by
  rw [choose, hsticky]
  intro e₁ w₁ current h₁ e₂ w₂ draw h₂
  have hu₁ := exec_unwritten rfl h₁
  have hcurrent : w.now ≤ current := by
    have hnow := (World.exec_eq_some h₁).1
    rw [World.ans_eq_effect h₁]
    exact hnow
  exact ⟨(exec_unwritten rfl h₂).trans hu₁, current,
    selectAccount_singleton _ (havailable current hcurrent)⟩

/-- **An attempt over an account that has waited** finds it, and all its writes succeed. -/
theorem attempt_only (hsticky : req.sticky = none) (hmem : a ∈ w.accounts) (hw : Waited w a)
    (hlift : Liftable cfg w a) (hu : Unwritten w w₁) (hinputs : InputsOf w a inputs) :
    Alone (system cfg) tid
      (fun w' _ r => IsRow a r.selected ∧ r.stale = [] ∧
        ∃ watch, remembered tid w'.watches = some watch ∧ watch.generation = w'.generation) w₁ h
      (attempt req inputs) := by
  have hentries : inputs.entries = w.drawn [a] := hinputs.1
  intro e₁ w₂ built h₁
  have hbuilt : BuiltFrom cfg w₁ w₂ inputs built := by
    refine exec_build (fun x hx => ?_) h₁
    rw [hentries] at hx
    obtain rfl := mem_singleton.mp hx
    exact hinputs.2
  obtain ⟨s, rfl, hid, havailable⟩ := built_available hw hlift hu hinputs hbuilt
  refine (choose_only hsticky havailable).bind ?_
  rintro w₃ h₃ choice ⟨hu₃, t, hchoice⟩
  have hrows : ∀ x ∈ inputs.entries, x.account ∈ w₃.accounts := by
    intro x hx
    rw [hentries] at hx
    obtain rfl := mem_singleton.mp hx
    rw [hu₃.accounts, hbuilt.accounts, hu.accounts]
    exact hmem
  have hnodup : (inputs.entries.map fun x => x.account.id).Nodup := by
    rw [hentries]
    exact nodup_singleton _
  refine (writeBack_alone "" (fun _ => True) hrows hnodup (fun _ _ _ => trivial)
    trivial).mono fun w' h' r hr => ?_
  obtain ⟨-, -, rfl, -, hwatch⟩ := hr
  refine ⟨?_, rfl, hwatch hsticky⟩
  have hfind : inputs.entries.find? (fun e => e.account.id = (checkCandidate t s).accountId) =
      some ⟨a, getItem a.id w.primaryUsage, getItem a.id w.secondaryUsage⟩ := by
    rw [hentries, checkCandidate_accountId, hid]
    exact find?_cons_of_pos (decide_eq_true rfl)
  rw [hchoice, bind_some, selectedSnapshot, hfind]
  exact ⟨_, rfl, rfl⟩

theorem tryOnce_only (left : ℕ) (hsticky : req.sticky = none) (hmem : a ∈ w.accounts)
    (hw : Waited w a) (hlift : Liftable cfg w a) (hu : Unwritten w w₁)
    (hinputs : InputsOf w a inputs) :
    Alone (system cfg) tid (fun _ _ r => ∃ sel, r = some sel ∧ IsRow a sel.account) w₁ h
      (tryOnce req left inputs) := by
  refine (attempt_only hsticky hmem hw hlift hu hinputs).bind ?_
  rintro w₂ h₂ r ⟨⟨b, hb, hid⟩, hstale, watch, hwatch, hgeneration⟩
  rw [hsticky]
  intro e₃ w₃ changed h₃
  have hchanged : changed.1 = false := by
    rw [World.ans_eq_effect h₃]
    have hread : remembered tid ({ w₂ with now := e₃.now } : World).watches = some watch := hwatch
    simp [World.effect, hread, World.changedSince, hgeneration]
  have hfresh : r.isStale = false := by
    rw [Attempt.isStale, hstale]
    cases r.selected <;> rfl
  have hverdict : verdict false left changed r = some ⟨r.selected, none, r.error⟩ := by
    simp [verdict, hfresh, hchanged, hb]
  exact ⟨_, hverdict, b, hb, hid⟩

theorem select_only (hplain : Plain req) (ho : Only w req a) (hw : Waited w a)
    (hlift : Liftable cfg w a) :
    Alone (system cfg) tid (fun _ _ r => ∃ sel, r = some sel ∧ IsRow a sel.account) w h
      ((Call.select req).program cfg) := by
  suffices hselect : Alone (system cfg) tid (fun _ _ r => IsRow a r.account) w h
      (selectFrom cfg req) from
    hselect.bind fun _ _ sel hsel => ⟨sel, rfl, hsel⟩
  refine (loadChecked_only hplain ho).bind ?_
  rintro w₁ h₁ _ ⟨hu, inputs, rfl, hinputs⟩
  refine (tryOnce_only 3 hplain.sticky ho.mem hw hlift hu hinputs).bind ?_
  rintro w₂ h₂ _ ⟨sel, rfl, hsel⟩
  exact hsel

end

/-! ## Recovery -/

def World.at (w : World) (t : ℚ) : World := { w with now := t }

theorem exec_at {op : BalancerOp} {w : World} (hle : w.now ≤ e.now) :
    (w.at e.now).exec cfg tid op e = w.exec cfg tid op e := by
  have hready : (w.at e.now).ready e op = w.ready e op := by
    cases op <;> rfl
  have hnow : (w.at e.now).now ≤ e.now := le_rfl
  simp only [World.exec, hready, hle, hnow]
  rfl

theorem step_at {p : State} (hle : p.shared.now ≤ e.now) :
    (system cfg).step { p with shared := p.shared.at e.now } (.resume tid e) =
      (system cfg).step p (.resume tid e) := by
  rw [System.step, System.step]
  refine bind_congr fun t _ => congrArg (Option.map _) ?_
  rw [System.advance, System.advance]
  cases t.prog with
  | ret r => rfl
  | call op k => exact congrArg (Option.map _) (exec_at hle)

theorem run_at {n : ℕ} {es : ℕ → Reading} {p p' : State} (hle : p.shared.now ≤ (es 0).now)
    (hrun : run (system cfg).step ((List.range n).map fun i => .resume tid (es i))
      { p with shared := p.shared.at (es 0).now } = some p') :
    ∃ p'', run (system cfg).step ((List.range n).map fun i => .resume tid (es i)) p = some p'' ∧
      p''.threads = p'.threads := by
  cases n with
  | zero =>
    cases hrun
    exact ⟨p, rfl, rfl⟩
  | succ n =>
    rw [range_succ_eq_map, map_cons, run_cons, step_at hle] at hrun
    refine ⟨p', ?_, rfl⟩
    rw [range_succ_eq_map, map_cons, run_cons]
    exact hrun

/-- **A rate limit ends.** Whenever no lock is held, a selection over an account alone returns it,
if it has sat out its rate limit and something lifts the block. -/
theorem rate_limit_recovers {cfg : BalancerSettings} {p : State} {tid : ℕ} {req : SelectRequest}
    {a : PoolAccount} (es : ℕ → Reading) (hnew : p.threads.lookup tid = none)
    (hfree : p.shared.locked = []) (hplain : Plain req) (ho : Only p.shared req a)
    (hw : Waited (p.shared.at (es 0).now) a) (hlift : Liftable cfg (p.shared.at (es 0).now) a)
    (hnow : p.shared.now ≤ (es 0).now) (hclock : ∀ i, (es i).now ≤ (es (i + 1)).now) :
    ∃ n p' sel b, run (system cfg).step
        (.spawn tid (.select req) :: (List.range n).map fun i => .resume tid (es i)) p = some p' ∧
      p'.outcome tid = some (.select req, some sel) ∧ sel.account = some b ∧ b.id = a.id := by
  set t : Thread BalancerOp.Ans (Option AccountSelection) Call :=
    ⟨.select req, [], (Call.select req).program cfg⟩
  set q : State := { p with threads := p.threads.insert tid t }
  have hspawn : (system cfg).step p (.spawn tid (.select req)) = some q := System.step_of_spawn _ _
    hnew
  set q₀ : State := { q with shared := q.shared.at (es 0).now }
  have ht : q₀.threads.lookup tid = some t := AList.lookup_insert _
  have hexec : ∀ i op w, isSelecting op = true → w.locked = [] ∧ w.now ≤ (es i).now →
      ∃ w' r, (system cfg).exec tid op (es i) w = some (w', r) ∧
        w'.locked = [] ∧ w'.now ≤ (es (i + 1)).now := by
    intro i op w hop hi
    obtain ⟨w', r, hexec, hlocked, hread⟩ := exec_selecting hop hi.1 hi.2
    exact ⟨w', r, hexec, hlocked, hread.trans_le (hclock i)⟩
  -- before its operation number `i` no lock is held, and the clock is not ahead of the reading
  obtain ⟨n, p₀, hrun₀, hreturned⟩ := System.returns_of_all es
    (fun i w => w.locked = [] ∧ w.now ≤ (es i).now) hexec ht (selects_select hplain.sticky)
    ⟨hfree, le_rfl⟩
  obtain ⟨⟨c, r⟩, hout⟩ := isSome_iff_exists.mp hreturned
  have hresumes : run (system cfg).step (((List.range n).map es).map (.resume tid)) q₀ =
      some p₀ := by
    rwa [List.map_map]
  have hselect : Alone (system cfg) tid _ q₀.shared [] t.prog :=
    select_only hplain ⟨ho.scope, ho.included, ho.cached⟩ hw hlift
  obtain ⟨rfl, sel, rfl, b, hb, hid⟩ := (hselect.resumes ht hresumes).1 c r hout
  obtain ⟨p', hrun, hthreads⟩ := run_at (p := q) hnow hrun₀
  refine ⟨n, p', sel, b, ?_, ?_, hb, hid⟩
  · rw [run_cons, hspawn]
    exact hrun
  · rw [Pool.outcome, hthreads]
    exact hout

def markedAt (t : ℚ) : Reading := ⟨t, 0, 1 / 5, StickyClock.at t⟩

def limitActs : List Act :=
  .spawn 0 (.mark (activeAccount "a") (.rateLimit ⟨none, none, none⟩)) ::
    List.replicate 5 (.resume 0 (markedAt 1000))

def limitedWorld (primary secondary : List (String × UsageEntry)) : World :=
  { plainWorld 1000 [activeAccount "a"] primary with secondaryUsage := secondary }

def limitedAccount : PoolAccount := ⟨⟨"a", .rateLimited, none, none, some 1000⟩, "plus"⟩

theorem rate_limit_recovers_primary : ∃ (p : State) (n : ℕ) (p' : State) (sel : AccountSelection)
    (b : PoolAccount),
    run (system plainSettings).step limitActs
      ⟨limitedWorld [("a", ⟨some 50, some 9000, some 300, some 900⟩)] [], ∅⟩ = some p ∧
    p.shared.accounts = [limitedAccount] ∧
    run (system plainSettings).step (.spawn 1 (.select (soloRequest "a")) ::
      (List.range n).map fun _ => .resume 1 (Reading.at 2000)) p = some p' ∧
    p'.outcome 1 = some (.select (soloRequest "a"), some sel) ∧ sel.account = some b ∧ b.id =
      "a" := by
  obtain ⟨p, hrun, haccounts, hnew, hfree, hcache, hnow, hcooldown, hprimary, hsecondary,
      hlift⟩ : ∃ p,
      run (system plainSettings).step limitActs
        ⟨limitedWorld [("a", ⟨some 50, some 9000, some 300, some 900⟩)] [], ∅⟩ = some p ∧
      p.shared.accounts = [limitedAccount] ∧ p.threads.lookup 1 = none ∧
      p.shared.locked = [] ∧ p.shared.cache = [] ∧ p.shared.now ≤ 2000 ∧
      (runtimeOf "a" p.shared.runtime).cooldownUntil = some (1000 + 1 / 5) ∧
      getItem "a" p.shared.primaryUsage = some ⟨some 50, some 9000, some 300, some 900⟩ ∧
      getItem "a" p.shared.secondaryUsage = none ∧
      Liftable plainSettings (p.shared.at 2000) limitedAccount := by
    decide +kernel
  have honly : Only p.shared (soloRequest "a") limitedAccount := by
    refine ⟨?_, by decide, fun x hx => ?_⟩
    · rw [World.scope, haccounts]
      decide
    · rw [hcache] at hx
      cases hx
  have hwaited : Waited (p.shared.at 2000) limitedAccount := by
    refine ⟨.inl rfl, fun t ht => ?_, fun hnone => ?_, fun used hused => ?_, fun used hused => ?_⟩
    · obtain rfl := Option.some.inj (hcooldown.symm.trans ht)
      exact (by decide +kernel : (1000 + 1 / 5 : ℚ) ≤ 2000)
    · have hsome : orNone (runtimeOf "a" p.shared.runtime).cooldownUntil = none := hnone
      rw [hcooldown] at hsome
      exact absurd hsome (by decide +kernel)
    · have hrow : (some 50 : Option ℚ) = some used := by
        rw [← hused]
        exact (congrArg (·.bind UsageEntry.usedPercent) hprimary).symm
      cases hrow
      decide +kernel
    · have hrow : (none : Option ℚ) = some used := by
        rw [← hused]
        exact (congrArg (·.bind UsageEntry.usedPercent) hsecondary).symm
      cases hrow
  obtain ⟨n, p', sel, b, hselect, hreturned, hb, hid⟩ := rate_limit_recovers
    (fun _ => Reading.at 2000) hnew hfree ⟨rfl, rfl, rfl⟩ honly hwaited hlift hnow fun _ => le_rfl
  exact ⟨p, n, p', sel, b, hrun, haccounts, hselect, hreturned, hb, hid⟩

/-- **A weekly account is trapped**: it has a secondary usage row and no primary one. Eleven days
after its rate limit was marked, a selection over the account alone finds nothing, nor does one
after a restart. -/
theorem weekly_account_trapped : ∃ p p₁ p₂ : State,
    run (system plainSettings).step limitActs
      ⟨limitedWorld [] [("a", ⟨some 50, some 9000, some 10080, some 900⟩)], ∅⟩ = some p ∧
    p.shared.accounts = [limitedAccount] ∧
    (runtimeOf "a" p.shared.runtime).cooldownUntil = some (1000 + 1 / 5) ∧
    run (system plainSettings).step (callAt 1 (.select (soloRequest "a")) 13 1000000) p =
      some p₁ ∧
    p₁.outcome 1 = some (.select (soloRequest "a"),
      some ⟨none, none, some .noAvailableAccounts⟩) ∧
    p₁.shared.accounts = [limitedAccount] ∧
    run (system plainSettings).step (callAt 1 (.select (soloRequest "a")) 13 1000000)
      ⟨p.shared.restart, ∅⟩ = some p₂ ∧
    p₂.outcome 1 = some (.select (soloRequest "a"),
      some ⟨none, none, some .noAvailableAccounts⟩) ∧
    p₂.shared.accounts = [limitedAccount] := by
  obtain ⟨p, hrun, haccounts, hcooldown, ⟨p₁, hlater⟩, p₂, hrestarted⟩ : ∃ p,
      run (system plainSettings).step limitActs
        ⟨limitedWorld [] [("a", ⟨some 50, some 9000, some 10080, some 900⟩)], ∅⟩ = some p ∧
      p.shared.accounts = [limitedAccount] ∧
      (runtimeOf "a" p.shared.runtime).cooldownUntil = some (1000 + 1 / 5) ∧
      (∃ p₁, run (system plainSettings).step
          (callAt 1 (.select (soloRequest "a")) 13 1000000) p = some p₁ ∧
        p₁.outcome 1 = some (.select (soloRequest "a"),
          some ⟨none, none, some .noAvailableAccounts⟩) ∧ p₁.shared.accounts = [limitedAccount]) ∧
      ∃ p₂, run (system plainSettings).step
          (callAt 1 (.select (soloRequest "a")) 13 1000000) ⟨p.shared.restart, ∅⟩ = some p₂ ∧
        p₂.outcome 1 = some (.select (soloRequest "a"),
          some ⟨none, none, some .noAvailableAccounts⟩) ∧ p₂.shared.accounts =
            [limitedAccount] := by
    decide +kernel
  exact ⟨p, p₁, p₂, hrun, haccounts, hcooldown, hlater.1, hlater.2.1, hlater.2.2, hrestarted⟩

end CodexOctopus.Balancer

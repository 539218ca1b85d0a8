import CodexOctopus.AccountSelection

/-!
# What a selection does, whatever happens around it

The specification of the selecting calls and the proof that they keep to it. It says, for
each operation that others can see, where its arguments come from:

* `cacheSet` caches inputs whose accounts have passed the filters (`InputsOk`);
* `sync` writes the state of a candidate that was built, after passes (`SyncOk`);
* `persistIfCurrent` writes that state, with the status of the result for the account that
  was chosen (`PersistOk`), against the account as the attempt had loaded it;
* at most so many attempts are made, and what is returned was chosen in the last one, from
  its candidates, and written (`Sound`).

`Facts` are what a user of the specification knows about the rows, the usage rows, the
candidates and the time; they are carried along from the answers to the arguments.
-/

namespace CodexOctopus.Balancer

open List Option Interaction

/-! ## Histories -/

abbrev Later : Log → Log → Prop := Grown fun e => built? e = none

namespace Later

variable {h h₁ : Log}

theorem lastBuilt (hl : Later h h₁) : lastBuilt h₁ = lastBuilt h := hl.findSome? fun _ he => he

theorem attempts (hl : Later h h₁) : attempts h₁ = attempts h := by
  induction hl with
  | refl => rfl
  | cons he _ ih =>
    rw [Balancer.attempts, countP_cons_of_neg (by rw [he]; exact Bool.false_ne_true), ← ih,
      Balancer.attempts]

theorem sinceBuilt_cons {e : Event BalancerOp.Ans} (he : built? e = none) (h : Log) :
    sinceBuilt (e :: h) = e :: sinceBuilt h :=
  takeWhile_cons_of_pos (by rw [he]; rfl)

theorem mem_sinceBuilt (hl : Later h h₁) {e : Event BalancerOp.Ans} (he : e ∈ sinceBuilt h) :
    e ∈ sinceBuilt h₁ := by
  induction hl with
  | refl => exact he
  | cons hb _ ih =>
    rw [sinceBuilt_cons hb]
    exact mem_cons_of_mem _ ih

end Later

def Silent (e : Event BalancerOp.Ans) : Prop := built? e = none ∧ failed? e = none ∧ reading? e =
    none

abbrev Quiet : Log → Log → Prop := Grown Silent

namespace Quiet

variable {h h₁ : Log}

theorem later (hq : Quiet h h₁) : Later h h₁ := hq.mono fun _ he => he.1

theorem lastReading (hq : Quiet h h₁) : lastReading h₁ = lastReading h :=
  hq.findSome? fun _ he => he.2.2

theorem staleIds (hq : Quiet h h₁) : staleIds h₁ = staleIds h := by
  induction hq with
  | refl => rfl
  | cons he _ ih =>
    rw [← ih, Balancer.staleIds, Later.sinceBuilt_cons he.1, filterMap_cons_none he.2.1,
      Balancer.staleIds]

end Quiet

/-! ## Where the arguments come from -/

def Admitted (cfg : BalancerSettings) (key : CacheKey) (view : FilterView) (account : PoolAccount) :
    Prop :=
  (∀ ids, key.accountIds = some ids → account.id ∈ ids) ∧
    passesModel cfg key view.modelPlans account = true ∧
    ∀ limitName, (effectiveLimitName cfg key).filter (· ≠ "") = some limitName →
      ∃ v, view.limit = some v ∧ passesLimit v account = true

structure Facts where
  row : PoolAccount → Prop
  usage : UsageWindow → String → UsageEntry → Prop
  built : PoolEntry → Candidate → Prop
  time : ℚ → Prop
  time_mono : ∀ {t t' : ℚ}, t ≤ t' → time t' → time t
  other : String → Prop

def Facts.trivial : Facts where
  row _ := True
  usage _ _ _ := True
  built _ _ := True
  time _ := True
  time_mono _ h := h
  other _ := True

structure EntryOk (F : Facts) (e : PoolEntry) : Prop where
  row : F.row e.account
  primary : ∀ u, e.primary = some u → F.usage .primary e.account.id u
  secondary : ∀ u, e.secondary = some u → F.usage .secondary e.account.id u

def InputsOk (cfg : BalancerSettings) (F : Facts) (key : CacheKey) (inputs : SelectionInputs) :
    Prop :=
  ∀ e ∈ inputs.entries, Admitted cfg key inputs.view e.account ∧ EntryOk F e

def ReadAt (h : Log) (t : ℚ) : Prop :=
  ⟨.now, t⟩ ∈ sinceBuilt h ∨
    ∃ clock : StickyClock, ⟨.stickyClock, clock⟩ ∈ sinceBuilt h ∧ clock.check ≤ t ∧ t ≤ clock.grace

def Choosable (F : Facts) (h : Log) (built : List Candidate) (r : Candidate) : Prop :=
  (∃ t, ReadAt h t ∧ F.time t ∧ Eligible t built r) ∨
    ∃ clock : StickyClock, ⟨.stickyClock, clock⟩ ∈ sinceBuilt h ∧
      (∃ key kind age, ⟨.stickyGet key kind age, some r.accountId⟩ ∈ sinceBuilt h) ∧
      r.status = .rateLimited ∧ eligibility (clock.grace + stickyGracePeriodSeconds) r = .available

def Chosen (F : Facts) (h : Log) (built : List Candidate) (a : Candidate) : Prop :=
  ∃ r ∈ built, r.accountId = a.accountId ∧ Choosable F h built r

def Known (F : Facts) (built : List Candidate) : Prop :=
  ∀ r ∈ built, ∃ e : PoolEntry, r.accountId = e.account.id ∧ F.built e r

structure Derived (F : Facts) (h : Log) (e : PoolEntry) (b s : Candidate) : Prop where
  attempt : ∃ inputs built, lastBuilt h = some (inputs, built) ∧ (e, b) ∈ inputs.entries.zip built
  id : b.accountId = e.account.id
  built : F.built e b
  passed : ∃ t, lastReading h = some t ∧ F.time t ∧ Passed t b s

def SyncOk (F : Facts) (h : Log) (account : PoolAccount) (state : Candidate) : Prop :=
  ∃ e b, e.account = account ∧ Derived F h e b state

def PersistOk (F : Facts) (h : Log) (account : PoolAccount) (state : AccountState) : Prop :=
  ∃ e b s chosen, e.account = account ∧ Derived F h e b s ∧
    (∀ a, chosen = some a → ∃ inputs built, lastBuilt h = some (inputs, built) ∧
      Known F built ∧ Chosen F h built a) ∧
    state = (mergeSelected chosen s).toAccountState

def selectSpec (cfg : BalancerSettings) (F : Facts) (bound : ℕ) : Spec BalancerOp.Ans where
  pre h
    | .cacheSet key inputs => InputsOk cfg F key inputs
    | .build inputs => attempts h < bound ∧ ∀ e ∈ inputs.entries, EntryOk F e
    | .sync account state _ => SyncOk F h account state
    | .persistIfCurrent account state => PersistOk F h account state
    | .acquire _ | .release _ | .mark _ _ | .recordErrors _ _ | .recordSuccess _ | .persist _ _
    | .invalidate => False
    | _ => True
  post h
    | .cacheGet key, inputs => ∀ i, inputs = some i → InputsOk cfg F key i
    | .listAccounts accountIds, rows =>
      ∀ a ∈ rows.1, (∀ ids, accountIds = some ids → a.id ∈ ids) ∧ F.row a
    | .latestUsage window _, rows => ∀ x ∈ rows, F.usage window x.1 x.2
    | .build inputs, built =>
      List.Forall₂ (fun e r => r.accountId = e.account.id ∧ F.built e r) inputs.entries built
    | .now, t => F.time t ∧ ∀ t₀, lastReading h = some t₀ → t₀ ≤ t
    | .stickyClock, clock => F.time clock.grace ∧ ∀ t₀, lastReading h = some t₀ → t₀ ≤ clock.check
    | _, _ => True

structure Sound (cfg : BalancerSettings) (F : Facts) (req : SelectRequest) (h : Log)
    (a : PoolAccount) : Prop where
  attempt : ∃ inputs built, lastBuilt h = some (inputs, built) ∧
    (∃ e ∈ inputs.entries, e.account.id = a.id ∧ Admitted cfg req.key inputs.view e.account) ∧
    Known F built ∧ ∃ r ∈ built, r.accountId = a.id ∧ Choosable F h built r
  excluded : a.id ∉ req.excludeAccountIds
  written : a.id ∉ staleIds h

section

variable {cfg : BalancerSettings} {F : Facts} {bound : ℕ} {h h' : Log}

/-! ## Loading -/

def Loaded (cfg : BalancerSettings) (F : Facts) (key : CacheKey) (h h' : Log)
    (inputs : SelectionInputs) : Prop :=
  Later h h' ∧ InputsOk cfg F key inputs

variable {inputs : SelectionInputs} {key : CacheKey} {runtimeIds : List String}
  {accounts : List PoolAccount} {built states : List Candidate} {req : SelectRequest}
  {s : StickyRequest} {left : ℕ}

theorem cacheInputs_sat (hi : InputsOk cfg F key inputs) :
    Sat (selectSpec cfg F bound) (Loaded cfg F key h) h (cacheInputs key inputs) :=
  ⟨hi, fun _ _ => ⟨.cons rfl .refl, hi⟩⟩

theorem inputsOk_nil (hi : inputs.entries = []) :
    InputsOk cfg F key inputs := by
  intro e he
  rw [hi] at he
  cases he

theorem latestAdditionalByKey_sat {limitName : String} {window : UsageWindow}
    {accountIds : List String} {since : Option ℚ} :
    Sat (selectSpec cfg F bound) (fun h' _ => Later h h') h
      (latestAdditionalByKey cfg limitName window accountIds since) := by
  unfold latestAdditionalByKey
  split
  · exact Grown.refl
  · exact ⟨trivial, fun _ _ => .cons rfl .refl⟩

theorem readLimit_sat {limitName : String} {accountIds : List String} :
    Sat (selectSpec cfg F bound) (fun h' _ => Later h h') h
      (readLimit cfg limitName accountIds) := by
  refine ⟨trivial, fun now _ => ?_⟩
  have hstart : Later h (⟨.now, now⟩ :: h) := .cons rfl .refl
  refine latestAdditionalByKey_sat.bind fun h₁ _ hl₁ => ?_
  refine latestAdditionalByKey_sat.bind fun h₂ _ hl₂ => ?_
  refine latestAdditionalByKey_sat.bind fun h₃ _ hl₃ => ?_
  refine latestAdditionalByKey_sat.bind fun h₄ _ hl₄ => ?_
  exact ⟨trivial, fun _ _ => .cons rfl (hl₄.trans (hl₃.trans (hl₂.trans (hl₁.trans hstart))))⟩

def AccountsOk (cfg : BalancerSettings) (F : Facts) (key : CacheKey) (view : FilterView)
    (accounts : List PoolAccount) : Prop :=
  ∀ a ∈ accounts, Admitted cfg key view a ∧ F.row a

theorem loadUsage_sat {view : FilterView} (ha : AccountsOk cfg F key view accounts) :
    Sat (selectSpec cfg F bound) (Loaded cfg F key h) h
      (loadUsage key runtimeIds view accounts) := by
  unfold loadUsage
  split_ifs
  · exact cacheInputs_sat (inputsOk_nil rfl)
  · refine ⟨trivial, fun primary hprimary => ⟨trivial, fun secondary hsecondary => ?_⟩⟩
    refine (cacheInputs_sat fun e he => ?_).mono fun h' inputs hl =>
      ⟨hl.1.trans (.cons rfl (.cons rfl .refl)), hl.2⟩
    obtain ⟨a, hmem, rfl⟩ := mem_map.mp he
    obtain ⟨hadmitted, hrow⟩ := ha a hmem
    exact ⟨hadmitted, hrow, fun u hu => hprimary _ (Python.mem_of_getItem hu),
      fun u hu => hsecondary _ (Python.mem_of_getItem hu)⟩

theorem loadLimited_sat {plans : Option ModelPlans}
    (ha : ∀ a ∈ accounts, (∀ ids, key.accountIds = some ids → a.id ∈ ids) ∧
      passesModel cfg key plans a = true ∧ F.row a) :
    Sat (selectSpec cfg F bound) (Loaded cfg F key h) h
      (loadLimited cfg key runtimeIds plans accounts) := by
  unfold loadLimited
  split
  · next hlimit =>
    refine loadUsage_sat fun a hmem => ?_
    obtain ⟨hscope, hmodel, hrow⟩ := ha a hmem
    exact ⟨⟨hscope, hmodel, fun limitName hname => by cases hlimit.symm.trans hname⟩, hrow⟩
  · split_ifs
    · exact cacheInputs_sat (inputsOk_nil rfl)
    · refine readLimit_sat.bind fun h₁ v hl₁ => ?_
      dsimp only
      split_ifs
      · exact (cacheInputs_sat (inputsOk_nil rfl)).mono fun h' _ hl => ⟨hl.1.trans hl₁, hl.2⟩
      · refine (loadUsage_sat fun a hmem => ?_).mono fun h' _ hl => ⟨hl.1.trans hl₁, hl.2⟩
        obtain ⟨hmem, hpasses⟩ := mem_filter.mp hmem
        obtain ⟨hscope, hmodel, hrow⟩ := ha a hmem
        exact ⟨⟨hscope, hmodel, fun _ _ => ⟨v, rfl, hpasses⟩⟩, hrow⟩

theorem loadFiltered_sat {plans : Option ModelPlans}
    (ha : ∀ a ∈ accounts, (∀ ids, key.accountIds = some ids → a.id ∈ ids) ∧ F.row a) :
    Sat (selectSpec cfg F bound) (Loaded cfg F key h) h
      (loadFiltered cfg key runtimeIds plans accounts) := by
  unfold loadFiltered
  dsimp only
  split
  · exact cacheInputs_sat (inputsOk_nil rfl)
  · refine loadLimited_sat fun a hmem => ?_
    obtain ⟨hmem, hmodel⟩ := mem_filter.mp hmem
    obtain ⟨hscope, hrow⟩ := ha a hmem
    exact ⟨hscope, hmodel, hrow⟩

/-- **A load returns accounts that have passed the filters.** -/
theorem loadSelectionInputs_sat :
    Sat (selectSpec cfg F bound) (Loaded cfg F key h) h (loadSelectionInputs cfg key) := by
  refine ⟨trivial, fun cached hcached => ?_⟩
  cases cached with
  | some inputs => exact ⟨.cons rfl .refl, hcached inputs rfl⟩
  | none =>
    refine ⟨trivial, fun rows hrows => ⟨trivial, fun plans _ => ?_⟩⟩
    have hstart : Later h (⟨.modelPlans, plans⟩ :: ⟨.listAccounts key.accountIds, rows⟩ ::
        ⟨.cacheGet key, none⟩ :: h) :=
      .cons rfl (.cons rfl (.cons rfl .refl))
    exact (loadFiltered_sat hrows).mono fun h' _ hl => ⟨hl.1.trans hstart, hl.2⟩

/-! ## Choosing -/

structure Picked (F : Facts) (h h' : Log) (built : List Candidate) (choice : Choice) : Prop where
  later : Later h h'
  stale : staleIds h' = staleIds h
  passed : ∃ t, lastReading h' = some t ∧ F.time t ∧ PassedAll t built choice.1
  chosen : ∀ a, choice.2.account = some a → Chosen F h' built a

def PassedBy (h : Log) (built states : List Candidate) : Prop :=
  ∀ t, (∀ t₀, lastReading h = some t₀ → t₀ ≤ t) → PassedAll t built states

theorem Choosable.later {r : Candidate} (hl : Later h h') (hr : Choosable F h built r) :
    Choosable F h' built r := by
  obtain ⟨t, hread, ht, helig⟩ | ⟨clock, hclock, ⟨key, kind, age, hget⟩, hlimited, hgrace⟩ := hr
  · refine .inl ⟨t, ?_, ht, helig⟩
    obtain hnow | ⟨clock, hclock, hbetween⟩ := hread
    · exact .inl (hl.mem_sinceBuilt hnow)
    · exact .inr ⟨clock, hl.mem_sinceBuilt hclock, hbetween⟩
  · exact .inr ⟨clock, hl.mem_sinceBuilt hclock, ⟨key, kind, age, hl.mem_sinceBuilt hget⟩, hlimited,
      hgrace⟩

theorem Chosen.later {a : Candidate} (hl : Later h h') (ha : Chosen F h built a) :
    Chosen F h' built a := by
  obtain ⟨r, hr, hid, hchoosable⟩ := ha
  exact ⟨r, hr, hid, hchoosable.later hl⟩

theorem Picked.after {h₀ : Log} {choice : Choice} (hp : Picked F h h' built choice)
    (hl : Later h₀ h) (hs : staleIds h = staleIds h₀) :
    Picked F h₀ h' built choice :=
  ⟨hp.later.trans hl, hp.stale.trans hs, hp.passed, hp.chosen⟩

theorem Picked.quiet {h₂ : Log} {choice : Choice} (hp : Picked F h h' built choice)
    (hq : Quiet h' h₂) : Picked F h h₂ built choice where
  later := hq.later.trans hp.later
  stale := hq.staleIds.trans hp.stale
  passed := by
    rw [hq.lastReading]
    exact hp.passed
  chosen a ha := (hp.chosen a ha).later hq.later

theorem chooseFrom_sat (hpassed : PassedBy h built states) :
    Sat (selectSpec cfg F bound) (fun h' => Picked F h h' built) h (chooseFrom req states) := by
  refine ⟨trivial, fun t ht => ⟨trivial, fun draw _ => ?_⟩⟩
  have hall : PassedAll t built states := hpassed t ht.2
  refine ⟨.cons rfl (.cons rfl .refl), rfl, ⟨t, rfl, ht.1, ?_⟩, fun a ha => ?_⟩
  · rw [selectAccount_states]
    exact hall.check le_rfl
  · obtain ⟨s, hs, rfl, helig⟩ := selectAccount_sound ha
    obtain ⟨r, hr, hrs, helig⟩ := hall.eligible hs helig
    refine ⟨r, hr, ?_, .inl ⟨t, .inl ?_, ht.1, helig⟩⟩
    · rw [checkCandidate_accountId, hrs.accountId]
    · exact mem_cons_of_mem _ mem_cons_self

theorem whenever_sat {c : Bool} {S : Spec BalancerOp.Ans} {p : BalancerM Unit}
    (hp : Sat S (fun h' _ => Quiet h h') h p) :
    Sat S (fun h' _ => Quiet h h') h (whenever c p) := by
  cases c with
  | false => exact Grown.refl
  | true => exact hp

theorem takePinned_sat {h₀ : Log} {account : Candidate}
    (hp : Picked F h₀ h built (states, ⟨some account, none⟩)) :
    Sat (selectSpec cfg F bound) (fun h' => Picked F h₀ h' built) h
      (takePinned s states account) := by
  have hupsert : Sat (selectSpec cfg F bound) (fun h' _ => Quiet h h') h
      (perform (.stickyUpsert s.stickyKey s.stickyKind account.accountId)) :=
    ⟨trivial, fun _ _ => .cons ⟨rfl, rfl, rfl⟩ .refl⟩
  exact (whenever_sat hupsert).bind fun h' _ hq => hp.quiet hq

theorem takeFallback_sat {delete persist : Bool} (hpassed : PassedBy h built states) :
    Sat (selectSpec cfg F bound) (fun h' => Picked F h h' built) h
      (takeFallback req s delete persist states) := by
  have hdelete : Sat (selectSpec cfg F bound) (fun h' _ => Quiet h h') h
      (perform (.stickyDelete s.stickyKey s.stickyKind)) :=
    ⟨trivial, fun _ _ => .cons ⟨rfl, rfl, rfl⟩ .refl⟩
  refine (whenever_sat hdelete).bind fun h₁ _ hq₁ => ?_
  have hpassed₁ : PassedBy h₁ built states := by
    intro t ht
    rw [hq₁.lastReading] at ht
    exact hpassed t ht
  refine (chooseFrom_sat hpassed₁).bind fun h₂ choice hp => ?_
  replace hp := hp.after hq₁.later hq₁.staleIds
  split
  · exact hp
  · next account _ =>
    have hupsert : Sat (selectSpec cfg F bound) (fun h' _ => Quiet h₂ h') h₂
        (perform (.stickyUpsert s.stickyKey s.stickyKind account.accountId)) :=
      ⟨trivial, fun _ _ => .cons ⟨rfl, rfl, rfl⟩ .refl⟩
    exact (whenever_sat hupsert).bind fun h' _ hq => hp.quiet hq

theorem followPlan_sat {a : StickyArgs} {existing : Option String} {clock : StickyClock}
    (hl : Later h h') (hstale : staleIds h' = staleIds h) (htime : F.time clock.grace)
    (hlast : lastReading h' = some clock.grace) (hclock : ⟨.stickyClock, clock⟩ ∈ sinceBuilt h')
    (hget : ∀ id, existing = some id →
      ∃ key kind age, ⟨.stickyGet key kind age, some id⟩ ∈ sinceBuilt h') :
    Sat (selectSpec cfg F bound) (fun h'' => Picked F h h'' built) h'
      (followPlan req s (stickyPlan a clock existing built)) := by
  have hstates := stickyPlan_states a clock existing built
  cases hplan : stickyPlan a clock existing built with
  | pinned states account =>
    rw [hplan] at hstates
    obtain ⟨r, hr, hid, t, ht₁, ht₂, havailable⟩ := stickyPlan_pinned hplan
    refine takePinned_sat ⟨hl, hstale, ⟨clock.grace, hlast, htime, hstates⟩, fun a ha => ?_⟩
    cases ha
    exact ⟨r, hr, hid, .inl ⟨t, .inr ⟨clock, hclock, ht₁, ht₂⟩, F.time_mono ht₂ htime,
      .inl havailable⟩⟩
  | graced states account =>
    rw [hplan] at hstates
    obtain ⟨r, hr, hexisting, hlimited, havailable, rfl, -⟩ := stickyPlan_graced hplan
    refine takePinned_sat ⟨hl, hstale, ⟨clock.grace, hlast, htime, hstates⟩, fun a ha => ?_⟩
    cases ha
    exact ⟨r, hr, by simp, .inr ⟨clock, hclock, hget _ hexisting, hlimited, havailable⟩⟩
  | fallback states delete persist =>
    rw [hplan] at hstates
    have hpassed : PassedBy h' built states :=
      fun t ht => PassedAll.mono (ht clock.grace hlast) hstates
    exact (takeFallback_sat hpassed).mono fun h'' _ hp => hp.after hl hstale

theorem selectWithStickiness_sat :
    Sat (selectSpec cfg F bound) (fun h' => Picked F h h' built) h
      (selectWithStickiness req s built) := by
  unfold selectWithStickiness
  split_ifs
  · exact chooseFrom_sat fun t _ => .refl t built
  · refine ⟨trivial, fun existing _ => ⟨trivial, fun clock hclock => ?_⟩⟩
    refine followPlan_sat (.cons rfl (.cons rfl .refl)) rfl hclock.1 rfl mem_cons_self ?_
    intro id hid
    obtain rfl : existing = some id := (filter_eq_some_iff.mp hid).1
    exact ⟨_, _, _, mem_cons_of_mem _ mem_cons_self⟩

theorem choose_sat :
    Sat (selectSpec cfg F bound) (fun h' => Picked F h h' built) h (choose req built) := by
  unfold choose
  split
  · exact chooseFrom_sat fun t _ => .refl t built
  · exact selectWithStickiness_sat

/-! ## Writing -/

def AllDerived (F : Facts) (h : Log) (l : Paired) : Prop :=
  ∀ x ∈ l, ∃ b, Derived F h x.1 b x.2

theorem Derived.later {e : PoolEntry} {b s : Candidate} (hd : Derived F h e b s) (hl : Later h h')
    (hr : lastReading h' = lastReading h) : Derived F h' e b s := { hd with
  attempt := by
    rw [hl.lastBuilt]
    exact hd.attempt
  passed := by
    rw [hr]
    exact hd.passed }

theorem PersistOk.later {account : PoolAccount} {state : AccountState}
    (hp : PersistOk F h account state) (hl : Later h h') (hr : lastReading h' = lastReading h) :
    PersistOk F h' account state := by
  obtain ⟨e, b, s, chosen, he, hd, hchosen, hstate⟩ := hp
  refine ⟨e, b, s, chosen, he, hd.later hl hr, fun a ha => ?_, hstate⟩
  obtain ⟨inputs, built, hbuilt, hknown, hc⟩ := hchosen a ha
  exact ⟨inputs, built, hl.lastBuilt.trans hbuilt, hknown, hc.later hl⟩

theorem zip_passed {t : ℚ} (hp : PassedAll t built states) :
    ∀ {entries : List PoolEntry} {e : PoolEntry} {s : Candidate}, (e, s) ∈ entries.zip states →
      ∃ b, (e, b) ∈ entries.zip built ∧ Passed t b s := by
  induction hp with
  | nil =>
    intro entries e s hmem
    rw [zip_nil_right] at hmem
    cases hmem
  | cons hrs _ ih =>
    intro entries e s hmem
    cases entries with
    | nil => cases hmem
    | cons e₀ entries =>
      obtain heq | hmem := mem_cons.mp hmem
      · obtain ⟨rfl, rfl⟩ := Prod.mk.inj heq
        exact ⟨_, mem_cons_self, hrs⟩
      · obtain ⟨b, hb, hpassed⟩ := ih hmem
        exact ⟨b, mem_cons_of_mem _ hb, hpassed⟩

theorem syncStates_sat {selected : Option String} {l : Paired} (hl : AllDerived F h l) :
    Sat (selectSpec cfg F bound) (fun h' _ => Quiet h h') h (syncStates selected l) := by
  induction l generalizing h with
  | nil => exact Grown.refl
  | cons x rest ih =>
    obtain ⟨e, s⟩ := x
    obtain ⟨b, hb⟩ := hl _ mem_cons_self
    refine ⟨⟨e, b, rfl, hb⟩, fun r _ => ?_⟩
    have hq : Quiet h (⟨.sync e.account s (selected = some s.accountId), r⟩ :: h) :=
      .cons ⟨rfl, rfl, rfl⟩ .refl
    refine (ih fun x hx => ?_).mono fun h' _ hq' => hq'.trans hq
    obtain ⟨b, hb⟩ := hl x (mem_cons_of_mem _ hx)
    exact ⟨b, hb.later hq.later hq.lastReading⟩

theorem staleIds_persist (h : Log) (account : PoolAccount) (state : AccountState) (r : Bool) :
    staleIds (⟨.persistIfCurrent account state, r⟩ :: h) =
      if r then staleIds h else account.id :: staleIds h := by
  cases r <;> rfl

theorem persistSelectionState_sat {l : Paired}
    (hl : ∀ x ∈ l, PersistOk F h x.1.account x.2.toAccountState) :
    Sat (selectSpec cfg F bound)
      (fun h' stale => Later h h' ∧ ∀ id ∈ staleIds h', id ∈ stale ∨ id ∈ staleIds h) h
      (persistSelectionState l) := by
  induction l generalizing h with
  | nil => exact ⟨.refl, fun id hid => .inr hid⟩
  | cons x rest ih =>
    obtain ⟨e, s⟩ := x
    refine ⟨hl _ mem_cons_self, fun persisted _ => ?_⟩
    have hlater : Later h (⟨.persistIfCurrent e.account s.toAccountState, persisted⟩ :: h) :=
      .cons rfl .refl
    refine (ih fun x hx => (hl x (mem_cons_of_mem _ hx)).later hlater rfl).bind ?_
    rintro h' stale ⟨hl', hstale⟩
    refine ⟨hl'.trans hlater, fun id hid => ?_⟩
    have hid := hstale id hid
    rw [staleIds_persist] at hid
    cases persisted with
    | true => exact hid
    | false =>
      obtain hid | hid := hid
      · exact .inl (mem_cons_of_mem _ hid)
      · obtain rfl | hid := mem_cons.mp hid
        · exact .inl mem_cons_self
        · exact .inr hid

/-! ## Attempts -/

structure Attempted (F : Facts) (inputs : SelectionInputs) (h h' : Log) (a : Attempt) : Prop where
  attempts : attempts h' = attempts h + 1
  selected : ∀ account, a.selected = some account → ∃ built, lastBuilt h' = some (inputs, built) ∧
    (∃ e ∈ inputs.entries, e.account.id = account.id) ∧ Known F built ∧
    ∃ r ∈ built, r.accountId = account.id ∧ Choosable F h' built r
  stale : ∀ id ∈ staleIds h', id ∈ a.stale

theorem selectedSnapshot_eq_some {entries : List PoolEntry} {account : Candidate} {a : PoolAccount}
    (hs : selectedSnapshot entries states account = some a) :
    ∃ e ∈ entries, e.account.id = a.id ∧ account.accountId = a.id := by
  obtain ⟨e, he, rfl⟩ := map_eq_some_iff.mp hs
  have hid : e.account.id = account.accountId := by simpa using find?_some he
  exact ⟨e, mem_of_find?_eq_some he, rfl, hid.symm⟩

theorem known_of_forall₂ {entries : List PoolEntry}
    (hbuilt : List.Forall₂ (fun e r => r.accountId = e.account.id ∧ F.built e r) entries built) :
    Known F built := by
  induction hbuilt with
  | nil => exact fun r hr => by cases hr
  | cons her _ ih =>
    intro r hr
    obtain rfl | hr := mem_cons.mp hr
    · exact ⟨_, her⟩
    · exact ih r hr

theorem attempt_sat (hn : attempts h < bound) (hi : ∀ e ∈ inputs.entries, EntryOk F e) :
    Sat (selectSpec cfg F bound) (Attempted F inputs h) h (attempt req inputs) := by
  refine ⟨⟨hn, hi⟩, fun built hbuilt => ?_⟩
  set h₁ : Log := ⟨.build inputs, built⟩ :: h
  have hlast : lastBuilt h₁ = some (inputs, built) := rfl
  have hknown : Known F built := known_of_forall₂ hbuilt
  have hcount : attempts h₁ = attempts h + 1 := countP_cons_of_pos rfl
  refine choose_sat.bind fun h₂ choice hp => ?_
  obtain ⟨t, hread, htime, hpassed⟩ := hp.passed
  have hderived : ∀ e s, (e, s) ∈ inputs.entries.zip choice.1 → ∃ b, Derived F h₂ e b s := by
    intro e s hmem
    obtain ⟨b, hb, hbs⟩ := zip_passed hpassed hmem
    obtain ⟨hid, hfacts⟩ := (forall₂_iff_zip.mp hbuilt).2 hb
    exact ⟨b, ⟨inputs, built, hp.later.lastBuilt.trans hlast, hb⟩, hid, hfacts, t, hread, htime,
      hbs⟩
  refine (syncStates_sat fun x hx => hderived x.1 x.2 hx).bind fun h₃ _ hq₃ => ?_
  have hwatch : Sat (selectSpec cfg F bound) (fun h' _ => Quiet h₃ h') h₃ (perform .watch) :=
    ⟨trivial, fun _ _ => .cons ⟨rfl, rfl, rfl⟩ .refl⟩
  refine (whenever_sat hwatch).bind fun h₄ _ hq₄ => ?_
  have hq : Quiet h₂ h₄ := hq₄.trans hq₃
  have hlast₄ : lastBuilt h₄ = some (inputs, built) :=
    (Later.lastBuilt (hq.later.trans hp.later)).trans hlast
  have hstale₄ : staleIds h₄ = [] := hq.staleIds.trans hp.stale
  refine (persistSelectionState_sat fun x hx => ?_).bind ?_
  · rw [zip_map_right] at hx
    obtain ⟨⟨e, s⟩, hmem, rfl⟩ := mem_map.mp hx
    obtain ⟨b, hb⟩ := hderived e s hmem
    exact ⟨e, b, s, choice.2.account, rfl, hb.later hq.later hq.lastReading,
      fun a ha => ⟨inputs, built, hlast₄, hknown, (hp.chosen a ha).later hq.later⟩, rfl⟩
  · rintro h₅ stale ⟨hl₅, hstale⟩
    have hl : Later h₁ h₅ := hl₅.trans (hq.later.trans hp.later)
    refine ⟨hl.attempts.trans hcount, fun account haccount => ?_, fun id hid => ?_⟩
    · obtain ⟨a, ha, hsnapshot⟩ := bind_eq_some_iff.mp haccount
      obtain ⟨e, he, hid, hacc⟩ := selectedSnapshot_eq_some hsnapshot
      obtain ⟨r, hr, hrid, hchoosable⟩ := hp.chosen a ha
      exact ⟨built, hl.lastBuilt.trans hlast, ⟨e, he, hid⟩, hknown, r, hr, hrid.trans hacc,
        hchoosable.later (hl₅.trans hq.later)⟩
    · obtain hid | hid := hstale id hid
      · exact hid
      · rw [hstale₄] at hid
        cases hid

theorem verdict_account {sticky : Bool} {changed : Bool × Bool} {a : Attempt}
    {sel : AccountSelection} {account : PoolAccount} (hv : verdict sticky left changed a = some sel)
    (ha : sel.account = some account) : a.selected = some account ∧ account.id ∉ a.stale := by
  unfold verdict at hv
  split_ifs at hv with hstale
  · cases hv
    cases ha
  · cases hv
    refine ⟨ha, fun hmem => hstale ?_⟩
    dsimp only at ha
    rw [Attempt.isStale, ha]
    exact decide_eq_true hmem

def Usable (cfg : BalancerSettings) (F : Facts) (req : SelectRequest) (inputs : SelectionInputs) :
    Prop :=
  InputsOk cfg F req.key inputs ∧ ∀ e ∈ inputs.entries, e.account.id ∉ req.excludeAccountIds

def Judged (cfg : BalancerSettings) (F : Facts) (req : SelectRequest) (h h' : Log)
    (result : Option AccountSelection) : Prop :=
  attempts h' = attempts h + 1 ∧
    ∀ sel, result = some sel → ∀ a, sel.account = some a → Sound cfg F req h' a

theorem Attempted.judged {a : Attempt} (hi : Usable cfg F req inputs)
    (ha : Attempted F inputs h h' a) {sticky : Bool} {changed : Bool × Bool} {h₂ : Log}
    (hq : Quiet h' h₂) :
    Judged cfg F req h h₂ (verdict sticky left changed a) := by
  refine ⟨hq.later.attempts.trans ha.attempts, fun sel hsel account haccount => ?_⟩
  obtain ⟨hselected, hfresh⟩ := verdict_account hsel haccount
  obtain ⟨built, hbuilt, ⟨e, he, hid⟩, hknown, r, hr, hrid, hchoosable⟩ :=
    ha.selected account hselected
  refine ⟨⟨inputs, built, hq.later.lastBuilt.trans hbuilt, ⟨e, he, hid, (hi.1 e he).1⟩, hknown, r,
    hr,
    hrid, hchoosable.later hq.later⟩, hid ▸ hi.2 e he, fun hstale => hfresh (ha.stale _ ?_)⟩
  rwa [hq.staleIds] at hstale

theorem tryOnce_sat (hn : attempts h < bound) (hi : Usable cfg F req inputs) :
    Sat (selectSpec cfg F bound) (Judged cfg F req h) h (tryOnce req left inputs) := by
  refine (attempt_sat hn fun e he => (hi.1 e he).2).bind fun h₁ a ha => ?_
  split
  · exact ha.judged hi .refl
  · exact ⟨trivial, fun changed _ => ha.judged hi (.cons ⟨rfl, rfl, rfl⟩ .refl)⟩

theorem loadChecked_sat :
    Sat (selectSpec cfg F bound)
      (fun h' r => Later h h' ∧ (∀ sel, r = .inl sel → sel.account = none) ∧
        ∀ inputs, r = .inr inputs → Usable cfg F req inputs) h (loadChecked cfg req) := by
  refine loadSelectionInputs_sat.bind fun h₁ inputs hl => ?_
  have husable : Usable cfg F req (inputs.exclude req.excludeAccountIds) := by
    refine ⟨fun e he => hl.2 e (mem_of_mem_filter he), fun e he => ?_⟩
    exact of_decide_eq_true (mem_filter.mp he).2
  dsimp only
  split
  · split_ifs
    · exact ⟨hl.1, by rintro _ ⟨⟩; rfl, by rintro _ ⟨⟩⟩
    · exact ⟨hl.1, by rintro _ ⟨⟩, by rintro _ ⟨⟩; exact husable⟩
  · exact ⟨hl.1, by rintro _ ⟨⟩, by rintro _ ⟨⟩; exact husable⟩

def Selected (cfg : BalancerSettings) (F : Facts) (req : SelectRequest) (n : ℕ) (h h' : Log)
    (sel : AccountSelection) : Prop :=
  attempts h' ≤ attempts h + n ∧ ∀ a, sel.account = some a → Sound cfg F req h' a

theorem selectLoop_sat (hn : attempts h + (left + 1) ≤ bound) (hi : Usable cfg F req inputs) :
    Sat (selectSpec cfg F bound) (Selected cfg F req (left + 1) h) h
      (selectLoop cfg req left inputs) := by
  induction left generalizing h inputs with
  | zero =>
    refine (tryOnce_sat hn hi).bind fun h₁ result hj => ⟨hj.1.le, fun a ha => ?_⟩
    cases result with
    | none => cases ha
    | some sel => exact hj.2 sel rfl a ha
  | succ left ih =>
    refine (tryOnce_sat (by omega) hi).bind fun h₁ result hj => ?_
    cases result with
    | some sel => exact ⟨by rw [hj.1]; omega, hj.2 sel rfl⟩
    | none =>
      refine loadChecked_sat.bind ?_
      rintro h₂ (sel | inputs) ⟨hl, hsel, hinputs⟩
      · refine ⟨by rw [hl.attempts, hj.1]; omega, fun a ha => ?_⟩
        rw [hsel sel rfl] at ha
        cases ha
      · have hcount : attempts h₂ = attempts h + 1 := hl.attempts.trans hj.1
        refine (ih (by omega) (hinputs inputs rfl)).mono fun h₃ sel hs => ⟨?_, hs.2⟩
        have := hs.1
        omega

/-- **What `select_account` returns is sound**, whatever happens in the meantime. -/
theorem selectFrom_sat (hn : attempts h + maxSelectionAttempts ≤ bound) :
    Sat (selectSpec cfg F bound) (Selected cfg F req maxSelectionAttempts h) h
      (selectFrom cfg req) := by
  refine loadChecked_sat.bind ?_
  rintro h₁ (sel | inputs) ⟨hl, hsel, hinputs⟩
  · refine ⟨by rw [hl.attempts]; omega, fun a ha => ?_⟩
    rw [hsel sel rfl] at ha
    cases ha
  · have hn' : attempts h₁ + (3 + 1) ≤ bound := by
      rw [hl.attempts]
      exact hn
    refine (selectLoop_sat hn' (hinputs inputs rfl)).mono fun h₂ sel hs => ⟨?_, hs.2⟩
    rw [← hl.attempts]
    exact hs.1

theorem selectPreferred_sat {preferred : Option String}
    (hn : attempts h + maxSelectionAttempts ≤ bound) :
    Sat (selectSpec cfg F bound)
      (fun h' sel => attempts h' ≤ attempts h + maxSelectionAttempts ∧
        ∀ a, sel.account = some a → ∃ req', Sound cfg F req' h' a) h
      (selectPreferred cfg preferred req) := by
  unfold selectPreferred
  split
  · exact ⟨Nat.le_add_right _ _, by rintro _ ⟨⟩⟩
  · exact (selectFrom_sat hn).mono fun h' sel hs => ⟨hs.1, fun a ha => ⟨_, hs.2 a ha⟩⟩

theorem selectWithBudget_sat {preferred : Option String}
    (hn : attempts h + 2 * maxSelectionAttempts ≤ bound) :
    Sat (selectSpec cfg F bound)
      (fun h' sel => ∀ a, sel.account = some a → ∃ req', Sound cfg F req' h' a) h
      (selectWithBudget cfg preferred req) := by
  refine (selectPreferred_sat (by omega)).bind fun h₁ first hfirst => ?_
  split_ifs
  · exact hfirst.2
  · have hn₁ : attempts h₁ + maxSelectionAttempts ≤ bound := by
      have := hfirst.1
      omega
    refine (selectFrom_sat hn₁).bind fun h₂ sel hsel a ha => ?_
    split_ifs at ha
    · cases ha
    · exact ⟨req, hsel.2 a ha⟩

end

end CodexOctopus.Balancer

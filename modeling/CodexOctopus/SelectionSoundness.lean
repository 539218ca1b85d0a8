import CodexOctopus.SelectionSpec

/-!
# Selections are sound, and their writes compare and swap

The operations keep up the specification of the selecting calls: the cache only holds
inputs that were filtered, and time goes on. So the results hold for every interleaving of
selections, marks, recorded errors and successes with each other and with any other writer.

The filters are judged on what they read when the inputs were loaded, which the inputs
record (`SelectionInputs.view`).
-/

namespace CodexOctopus.Balancer

open List Option Python Interaction Lts

/-! ## The world keeps up the specification -/

structure WorldOk (cfg : BalancerSettings) (F : Facts) (w : World) : Prop where
  row : ∀ a ∈ w.accounts, F.row a
  primary : ∀ x ∈ w.primaryUsage, F.usage .primary x.1 x.2
  secondary : ∀ x ∈ w.secondaryUsage, F.usage .secondary x.1 x.2
  cache : ∀ x ∈ w.cache, InputsOk cfg F x.1 x.2.data

def Timely (w : World) (h : Log) : Prop := ∀ t, lastReading h = some t → t ≤ w.now

def Facts.Holds (cfg : BalancerSettings) (F : Facts) : Prop :=
  ∀ {now : ℚ} {runtime : RuntimeEntry} {e : PoolEntry}, F.time now → EntryOk F e →
    F.built e (buildState cfg now runtime e).2

def otherSpec (F : Facts) (accountId : String) : Spec BalancerOp.Ans where
  pre _
    | .acquire id | .release id | .recordSuccess id => id = accountId
    | .mark account _ | .recordErrors account _ | .persist account _
    | .persistIfCurrent account _ => account.id = accountId ∧ F.other accountId
    | .invalidate => True
    | _ => False
  post _ _ _ := True

section

variable {cfg : BalancerSettings} {F : Facts} {bound : ℕ} {h : Log} {tid : ℕ} {op : BalancerOp}
  {e : Reading} {w w' : World} {r : op.Ans}

theorem Timely.exec {h' : Log} (ht : Timely w h') (hexec : w.exec cfg tid op e = some (w', r)) :
    Timely w' h' :=
  fun t hlast => (ht t hlast).trans (World.exec_now hexec)

theorem Timely.answered (ht : Timely w h) (hexec : w.exec cfg tid op e = some (w', r)) :
    Timely w' (⟨op, r⟩ :: h) := by
  intro t hlast
  have hw := World.eq_effect hexec
  have hr := World.ans_eq_effect hexec
  cases op with
  | now =>
    cases hlast
    rw [hw, hr]
    exact le_rfl
  | stickyClock =>
    cases hlast
    rw [hw, hr]
    exact le_rfl
  | _ => exact ht.exec hexec t hlast

theorem forall₂_built {now : ℚ} {entries : List PoolEntry} {m : RuntimeMap}
    (hF : F.Holds cfg) (ht : F.time now) (he : ∀ e ∈ entries, EntryOk F e) :
    List.Forall₂ (fun e r => r.accountId = e.account.id ∧ F.built e r) entries
      (buildStates cfg now entries m).2 := by
  induction entries generalizing m with
  | nil => exact .nil
  | cons e rest ih =>
    exact .cons ⟨rfl, hF ht (he e mem_cons_self)⟩
      (ih fun e' he' => he e' (mem_cons_of_mem _ he'))

/-- **The answers are as specified.** -/
theorem select_post (hF : F.Holds cfg) (hw : WorldOk cfg F w) (ht : Timely w h)
    (htime : F.time w'.now) (hpre : (selectSpec cfg F bound).pre h op)
    (hexec : w.exec cfg tid op e = some (w', r)) : (selectSpec cfg F bound).post h op r := by
  obtain ⟨hle, hready, -⟩ := World.exec_eq_some hexec
  rw [World.eq_effect hexec] at htime
  rw [World.ans_eq_effect hexec]
  cases op with
  | cacheGet key =>
    intro inputs hinputs
    obtain ⟨t, hmem⟩ := World.mem_cache_of_cached hinputs
    exact hw.cache _ hmem
  | listAccounts accountIds =>
    intro a ha
    obtain ⟨hmem, hscope⟩ := mem_filter.mp ha
    refine ⟨fun ids hids => ?_, hw.row a hmem⟩
    subst hids
    exact of_decide_eq_true hscope
  | latestUsage window accountIds =>
    intro x hx
    cases window with
    | primary => exact hw.primary x (mem_of_mem_filter hx)
    | secondary => exact hw.secondary x (mem_of_mem_filter hx)
  | build inputs => exact forall₂_built hF htime hpre.2
  | now => exact ⟨htime, fun t hlast => (ht t hlast).trans hle⟩
  | stickyClock =>
    exact ⟨htime, fun t hlast => (ht t hlast).trans (hle.trans (of_decide_eq_true hready))⟩
  | _ => exact trivial

theorem WorldOk.exec (hw : WorldOk cfg F w) (hexec : w.exec cfg tid op e = some (w', r))
    (hset : ∀ key inputs, op = .cacheSet key inputs → InputsOk cfg F key inputs)
    (hrow : ∀ a ∈ accountsAfter w.accounts op, F.row a) : WorldOk cfg F w' where
  row := by
    rw [World.exec_accounts hexec]
    exact hrow
  primary := by
    rw [(World.exec_tables hexec).1]
    exact hw.primary
  secondary := by
    rw [(World.exec_tables hexec).2.1]
    exact hw.secondary
  cache x hx := by
    obtain hx | hop := World.mem_cache_of_exec hexec hx
    · exact hw.cache x hx
    · exact hset _ _ hop

end

theorem elsewhere_now_runtime (w : World) (x : Elsewhere) :
    (w.elsewhere x).now = w.now ∧ (w.elsewhere x).runtime = w.runtime := by
  cases x with
  | usage window latest => cases window <;> exact ⟨rfl, rfl⟩
  | _ => exact ⟨rfl, rfl⟩

variable {h : Log} {w : World} {F : Facts} {cfg : BalancerSettings} {c : Call}

theorem Timely.elsewhere (ht : Timely w h) (x : Elsewhere) :
    Timely (w.elsewhere x) h := by
  intro t hlast
  rw [(elsewhere_now_runtime w x).1]
  exact ht t hlast

theorem WorldOk.elsewhere {x : Elsewhere} (hw : WorldOk cfg F w)
    (hrows : ∀ rows, x = .accounts rows → ∀ a ∈ rows, F.row a)
    (husage : ∀ window latest, x = .usage window latest → ∀ y ∈ latest, F.usage window y.1 y.2) :
    WorldOk cfg F (w.elsewhere x) := by
  cases x with
  | accounts rows => exact { hw with row := hrows rows rfl }
  | usage window latest =>
    cases window with
    | primary => exact { hw with primary := husage .primary latest rfl }
    | secondary => exact { hw with secondary := husage .secondary latest rfl }
  | invalidate => exact { hw with cache := fun x hx => by cases hx }
  | additionalUsage rows => exact ⟨hw.row, hw.primary, hw.secondary, hw.cache⟩
  | modelPlans plans => exact ⟨hw.row, hw.primary, hw.secondary, hw.cache⟩
  | stickySessions rows => exact ⟨hw.row, hw.primary, hw.secondary, hw.cache⟩

/-! ## Every interleaving -/

def Call.about : Call → Option String
  | .select _ | .selectWithBudget _ _ => none
  | .mark account _ | .recordErrors account _ => some account.id
  | .recordSuccess accountId => some accountId

def callSpec (cfg : BalancerSettings) (F : Facts) : Call → Spec BalancerOp.Ans
  | .select _ => selectSpec cfg F maxSelectionAttempts
  | .selectWithBudget _ _ => selectSpec cfg F (2 * maxSelectionAttempts)
  | .mark account _ | .recordErrors account _ => otherSpec F account.id
  | .recordSuccess accountId => otherSpec F accountId

def CallOk (cfg : BalancerSettings) (F : Facts) : Call → Log → Option AccountSelection → Prop
  | .select req, h, result => attempts h ≤ maxSelectionAttempts ∧
    ∀ sel, result = some sel → ∀ a, sel.account = some a → Sound cfg F req h a
  | .selectWithBudget _ _, h, result =>
    ∀ sel, result = some sel → ∀ a, sel.account = some a → ∃ req, Sound cfg F req h a
  | .mark _ _, _, result | .recordErrors _ _, _, result | .recordSuccess _, _, result =>
    result = none

/-- **Every call keeps to its specification.** -/
theorem call_sat (hc : ∀ id, c.about = some id → F.other id) :
    Sat (callSpec cfg F c) (CallOk cfg F c) [] (c.program cfg) := by
  cases c with
  | select req =>
    refine (selectFrom_sat (Nat.le_of_eq (Nat.zero_add _))).bind fun h sel hs => ?_
    refine ⟨hs.1, fun sel' hsel a ha => ?_⟩
    cases hsel
    exact hs.2 a ha
  | selectWithBudget preferred req =>
    refine (selectWithBudget_sat (Nat.le_of_eq (Nat.zero_add _))).bind fun h sel hs => ?_
    intro sel' hsel a ha
    cases hsel
    exact hs a ha
  | mark account failure =>
    have hother := hc account.id rfl
    exact ⟨rfl, fun _ _ => ⟨⟨rfl, hother⟩, fun _ _ => ⟨⟨rfl, hother⟩, fun _ _ =>
      ⟨trivial, fun _ _ =>
      ⟨rfl, fun _ _ => rfl⟩⟩⟩⟩⟩
  | recordErrors account count =>
    have hother := hc account.id rfl
    by_cases hcount : count < 1
    · have hprogram : (Call.recordErrors account count).program cfg = .ret none := by
        simp [Call.program, recordErrors, hcount]
      rw [hprogram]
      exact rfl
    · have hprogram : (Call.recordErrors account count).program cfg =
          (do
            perform (.acquire account.id)
            let state ← perform (.recordErrors account count)
            let _ ← perform (.persistIfCurrent account state)
            perform (.release account.id)
            pure none) := by
        simp [Call.program, recordErrors, hcount]
      rw [hprogram]
      exact ⟨rfl, fun _ _ => ⟨⟨rfl, hother⟩, fun _ _ => ⟨⟨rfl, hother⟩, fun _ _ => ⟨rfl, fun _ _ =>
        rfl⟩⟩⟩⟩
  | recordSuccess accountId =>
    exact ⟨rfl, fun _ _ => ⟨rfl, fun _ _ => ⟨rfl, fun _ _ => rfl⟩⟩⟩

theorem cacheSet_of_pre {key : CacheKey} {inputs : SelectionInputs}
    (hpre : (callSpec cfg F c).pre h (.cacheSet key inputs)) :
    InputsOk cfg F key inputs := by
  cases c with
  | select req => exact hpre
  | selectWithBudget preferred req => exact hpre
  | mark account failure => exact hpre.elim
  | recordErrors account count => exact hpre.elim
  | recordSuccess accountId => exact hpre.elim

theorem call_post {tid : ℕ} {op : BalancerOp} {e : Reading} {w' : World} {r : op.Ans}
    (hF : F.Holds cfg) (hw : WorldOk cfg F w) (ht : Timely w h) (htime : F.time w'.now)
    (hpre : (callSpec cfg F c).pre h op) (hexec : w.exec cfg tid op e = some (w', r)) :
    (callSpec cfg F c).post h op r := by
  cases c with
  | select req => exact select_post hF hw ht htime hpre hexec
  | selectWithBudget preferred req => exact select_post hF hw ht htime hpre hexec
  | mark account failure => exact trivial
  | recordErrors account count => exact trivial
  | recordSuccess accountId => exact trivial

abbrev State : Type := Pool World BalancerOp.Ans (Option AccountSelection) Call

abbrev Act : Type := Action Call Reading Elsewhere

def start (w : World) : State := ⟨{ w with cache := [] }, ∅⟩

theorem trivial_holds (cfg : BalancerSettings) : Facts.trivial.Holds cfg := fun _ _ => trivial

theorem upholds_trivial (cfg : BalancerSettings) :
    Upholds (system cfg) (fun _ _ => True) (WorldOk cfg .trivial) Timely (callSpec cfg .trivial)
      (CallOk cfg .trivial) where
  spawn _ _ := ⟨by rintro t ⟨⟩, call_sat fun _ _ => trivial⟩
  exec _ _ _ hw ht hpre hexec := by
    refine ⟨hw.exec hexec ?_ fun _ _ => trivial, ?_, ht.answered hexec⟩
    · rintro key inputs rfl
      exact cacheSet_of_pre hpre
    · exact call_post (trivial_holds cfg) hw ht trivial hpre hexec
  stable _ _ _ _ _ hexec ht := ht.exec hexec
  environment {p x w'} _ hw hx := by
    cases hx
    exact ⟨hw.elsewhere (fun _ _ _ _ => trivial) fun _ _ _ _ _ => trivial, fun h ht => ht.elsewhere
      x⟩

section

variable {cfg : BalancerSettings} {w : World} {as : List Act} {p : State}

def Specified (cfg : BalancerSettings) (p : State) : Prop :=
  Verified (WorldOk cfg .trivial) Timely (callSpec cfg .trivial) (CallOk cfg .trivial) p

theorem start_specified (cfg : BalancerSettings) (w : World) : Specified cfg (start w) :=
  .start ⟨fun _ _ => trivial, fun _ _ => trivial, fun _ _ => trivial, fun x hx => by cases hx⟩

variable {p' : State} {now : ℚ}

theorem Specified.step (hp : Specified cfg p) {a : Act} (h : (system cfg).step p a = some p') :
    Specified cfg p' :=
  (upholds_trivial cfg).step hp trivial h

theorem run_specified (hrun : run (system cfg).step as (start w) = some p) : Specified cfg p :=
  run_invariant (fun hp hstep => hp.step hstep) (start_specified cfg w) hrun

theorem step_now {a : Act} (hstep : (system cfg).step p a = some p') :
    p.shared.now ≤ p'.shared.now := by
  cases a with
  | spawn tid c =>
    obtain ⟨-, rfl⟩ := System.step_spawn hstep
    exact le_rfl
  | resume tid e =>
    obtain ⟨t, op, k, r, ht, hprog, hexec, -⟩ := System.step_resume hstep
    exact World.exec_now hexec
  | environment x =>
    obtain hx := some.inj (System.step_environment hstep).1
    rw [← hx, (elsewhere_now_runtime ..).1]

theorem run_now (hrun : run (system cfg).step as p = some p') :
    p.shared.now ≤ p'.shared.now := by
  have hstep : ∀ {q : State} {a : Act} {q' : State}, p.shared.now ≤ q.shared.now →
      (system cfg).step q a = some q' → p.shared.now ≤ q'.shared.now :=
    fun hle hstep => hle.trans (step_now hstep)
  exact run_invariant hstep le_rfl hrun

/-! ## What is returned could serve traffic -/

/-- The candidate could serve traffic at a time: it is not on hold, a block of it is over, no
cooldown is running, and it is in error backoff only if no candidate is fully available. -/
structure Serviceable (now : ℚ) (built : List Candidate) (r : Candidate) : Prop where
  notPaused : r.status ≠ .paused
  notDeactivated : r.status ≠ .deactivated
  unblocked : r.status = .rateLimited ∨ r.status = .quotaExceeded →
    ∃ t, r.resetAt = some t ∧ t ≤ now
  cooled : ∀ t, orNone r.cooldownUntil = some t → t ≤ now
  backoff : eligibility now r = .inErrorBackoff → ∀ s ∈ built, eligibility now s ≠ .available

theorem exists_reset_of_resetElapsed {s : AccountState} (h : resetElapsed now s = true) :
    ∃ t, s.resetAt = some t ∧ t ≤ now := by
  obtain ⟨t, ht, hle⟩ := (any_eq_true _ _).mp h
  exact ⟨t, (filter_eq_some_iff.mp ht).1, of_decide_eq_true hle⟩

theorem cooled_of_checkCooldown {s : AccountState} {c : Option ℚ}
    (h : (checkCooldown now s).2 ≠ .excluded) (hc : s.cooldownUntil = c) :
    ∀ t, orNone c = some t → t ≤ now := by
  intro t ht
  subst hc
  by_contra hlt
  rw [checkCooldown_pending ht (not_le.mp hlt)] at h
  exact h rfl

theorem unblocked_of_eligibility {r : Candidate} (h : eligibility now r ≠ .excluded) :
    r.status.onHold = false ∧
      (r.status = .rateLimited ∨ r.status = .quotaExceeded → resetElapsed now r.toAccountState) ∧
      ∀ t, orNone r.cooldownUntil = some t → t ≤ now := by
  unfold eligibility checkAvailability at h
  split at h
  · exact absurd rfl h
  · exact absurd rfl h
  · next hs =>
    split_ifs at h with helapsed
    · exact ⟨by rw [hs]; rfl, fun _ => helapsed, cooled_of_checkCooldown h rfl⟩
    · exact absurd rfl h
  · next hs =>
    split_ifs at h with helapsed
    · exact ⟨by rw [hs]; rfl, fun _ => helapsed, cooled_of_checkCooldown h rfl⟩
    · exact absurd rfl h
  · next hs =>
    refine ⟨by rw [hs]; rfl, ?_, cooled_of_checkCooldown h rfl⟩
    rintro (hr | hq)
    · cases hs.symm.trans hr
    · cases hs.symm.trans hq

theorem Serviceable.of_eligible {built : List Candidate} {r : Candidate} (h : Eligible now built r)
    :
    Serviceable now built r := by
  have hne : eligibility now r ≠ .excluded := by
    obtain h | ⟨h, -⟩ := h
    · rw [h]
      decide
    · rw [h]
      decide
  obtain ⟨hhold, hreset, hcooled⟩ := unblocked_of_eligibility hne
  refine ⟨fun hs => ?_, fun hs => ?_, fun hs => exists_reset_of_resetElapsed (hreset hs), hcooled,
    fun hbackoff => ?_⟩
  · rw [hs] at hhold
    cases hhold
  · rw [hs] at hhold
    cases hhold
  · obtain h | ⟨-, hnone⟩ := h
    · cases hbackoff.symm.trans h
    · exact hnone

/-- **Selection is sound.** What `select_account` returns is in the scope and not excluded, has
passed the filters, and could serve traffic in the state built for the last attempt, at a later
reading of the clock; or it is the pinned account, rate-limited, and could serve traffic within the
grace period. -/
theorem selection_sound (hrun : run (system cfg).step as (start w) = some p) {tid : ℕ}
    {req : SelectRequest} {sel : AccountSelection} {a : PoolAccount}
    (hsel : p.outcome tid = some (.select req, some sel)) (ha : sel.account = some a) :
    (∀ ids, req.accountIds = some ids → a.id ∈ ids) ∧ a.id ∉ req.excludeAccountIds ∧
    ∃ inputs built, lastBuilt (p.history tid) = some (inputs, built) ∧
      (∃ x ∈ inputs.entries, x.account.id = a.id ∧
        passesModel cfg req.key inputs.view.modelPlans x.account = true ∧
        ∀ limitName, (effectiveLimitName cfg req.key).filter (· ≠ "") = some limitName →
          ∃ v, inputs.view.limit = some v ∧ passesLimit v x.account = true) ∧
      ∃ r ∈ built, r.accountId = a.id ∧
        ((∃ now, ReadAt (p.history tid) now ∧ Serviceable now built r) ∨
          ∃ clock : StickyClock, ⟨.stickyClock, clock⟩ ∈ sinceBuilt (p.history tid) ∧
            (∃ key kind age, ⟨.stickyGet key kind age, some a.id⟩ ∈ sinceBuilt (p.history tid)) ∧
            r.status = .rateLimited ∧
            Serviceable (clock.grace + stickyGracePeriodSeconds) built r) := by
  have hsound := ((run_specified hrun).result hsel).2 sel rfl a ha
  obtain ⟨inputs, built, hbuilt, ⟨x, hx, hid, hscope, hfilters⟩, -, r, hr, hrid, hchoosable⟩ :=
    hsound.attempt
  refine ⟨fun ids hids => hid ▸ hscope ids hids, hsound.excluded, inputs, built, hbuilt,
    ⟨x, hx, hid, hfilters⟩, r, hr, hrid, ?_⟩
  obtain ⟨now, hread, -, helig⟩ | ⟨clock, hclock, hget, hlimited, havailable⟩ := hchoosable
  · exact .inl ⟨now, hread, .of_eligible helig⟩
  · rw [hrid] at hget
    exact .inr ⟨clock, hclock, hget, hlimited, .of_eligible (.inl havailable)⟩

end

def plainSettings : BalancerSettings where
  usageRefreshIntervalSeconds := 60
  cacheTtlSeconds := 5
  softDrainEnabled := true
  drainPrimaryThresholdPct := 85
  drainSecondaryThresholdPct := 90
  drainErrorWindowSeconds := 60
  drainErrorCountThreshold := 2
  probeQuietSeconds := 60
  probeSuccessStreakRequired := 3
  gatedLimitName _ := none
  canonicalQuotaKey := some

def plainWorld (now : ℚ) (accounts : List PoolAccount) (primary : List (String × UsageEntry)) :
    World where
  now := now
  accounts := accounts
  primaryUsage := primary
  secondaryUsage := []
  additionalUsage := []
  modelPlans := none
  stickySessions := []
  runtime := []
  locked := []
  cache := []
  generation := 0
  loads := []
  watches := []

def activeAccount (id : String) : PoolAccount := ⟨⟨id, .active, none, none, none⟩, "plus"⟩

def soloRequest (id : String) : SelectRequest :=
  ⟨none, false, .roundRobin, none, none, some {id}, ∅, 95⟩

def callAt (tid : ℕ) (c : Call) (n : ℕ) (t : ℚ) : List Act :=
  .spawn tid c :: List.replicate n (.resume tid (Reading.at t))

theorem selection_sound_solo : ∃ p : State,
    run (system plainSettings).step (callAt 0 (.select (soloRequest "a")) 13 1000)
      (start (plainWorld 1000 [activeAccount "a"] [])) = some p ∧
    p.outcome 0 = some (.select (soloRequest "a"), some ⟨some (activeAccount "a"), none, none⟩) ∧
    "a" ∉ (soloRequest "a").excludeAccountIds := by
  have hout : (run (system plainSettings).step (callAt 0 (.select (soloRequest "a")) 13 1000)
      (start (plainWorld 1000 [activeAccount "a"] []))).bind (·.outcome 0) =
        some (.select (soloRequest "a"), some ⟨some (activeAccount "a"), none, none⟩) := by
    decide +kernel
  obtain ⟨p, hrun, hsel⟩ := bind_eq_some_iff.mp hout
  exact ⟨p, hrun, hsel, (selection_sound hrun hsel rfl).2.1⟩

/-! ## Writes -/

/-- What one step of an attempt may do to a row: nothing, or a change of status columns that are
still those of the account as it was loaded. -/
def Swapped (h : Log) (r r' : PoolAccount) : Prop :=
  r' = r ∨ ∃ inputs built, lastBuilt h = some (inputs, built) ∧
    (∃ x ∈ inputs.entries, x.account.id = r.id ∧
      x.account.toAccount.columns = r.toAccount.columns) ∧
    ∃ c, r' = withColumns c r

theorem persistCurrent_swapped {bound : ℕ} {account : PoolAccount} {state : AccountState}
    (hpre : (selectSpec cfg F bound).pre h (.persistIfCurrent account state))
    (rows : List PoolAccount) :
    List.Forall₂ (Swapped h) rows (persistCurrent account.toAccount state rows).1 := by
  obtain ⟨x, b, s, chosen, rfl, hd, -, -⟩ := hpre
  obtain ⟨inputs, built, hbuilt, hmem⟩ := hd.attempt
  unfold persistCurrent
  split_ifs
  · exact forall₂_same.mpr fun r _ => .inl rfl
  · refine forall₂_map_right_iff.mpr (forall₂_same.mpr fun r _ => ?_)
    split_ifs with hcurrent
    · obtain ⟨hid, hcolumns⟩ := of_decide_eq_true hcurrent
      exact .inr ⟨inputs, built, hbuilt, ⟨x, (of_mem_zip hmem).1, hid.symm, hcolumns.symm⟩, _,
        rfl⟩
    · exact .inl rfl

theorem accountsAfter_swapped {bound : ℕ} {op : BalancerOp}
    (hpre : (selectSpec cfg F bound).pre h op) (rows : List PoolAccount) :
    List.Forall₂ (Swapped h) rows (accountsAfter rows op) := by
  cases op with
  | persistIfCurrent account state => exact persistCurrent_swapped hpre rows
  | persist account state => exact hpre.elim
  | _ => exact forall₂_same.mpr fun r _ => .inl rfl

section

variable {cfg : BalancerSettings} {w : World} {as : List Act} {p p' : State}

structure Bounded (cfg : BalancerSettings) (p : State) : Prop where
  specified : Specified cfg p
  attempts : ∀ {tid t req}, p.threads.lookup tid = some t → t.call = .select req →
    attempts t.history ≤ maxSelectionAttempts

theorem attempts_of_pre {F : Facts} {bound : ℕ} {h : Log} {op : BalancerOp} {r : op.Ans}
    (hpre : (selectSpec cfg F bound).pre h op) (hle : attempts h ≤ bound) :
    attempts (⟨op, r⟩ :: h) ≤ bound := by
  cases op with
  | build inputs =>
    rw [attempts, countP_cons_of_pos rfl]
    exact hpre.1
  | _ => exact hle

theorem Bounded.step (hb : Bounded cfg p) {a : Act} (h : (system cfg).step p a = some p') :
    Bounded cfg p' := by
  refine ⟨hb.specified.step h, fun {tid t req} ht hcall => ?_⟩
  cases System.came_of_step h ht with
  | kept ht => exact hb.attempts ht hcall
  | spawned => exact Nat.zero_le _
  | advanced hthread hprog hexec =>
    have hpre := hb.specified.pre hthread hprog
    dsimp only at hcall
    rw [hcall] at hpre
    exact attempts_of_pre hpre (hb.attempts hthread hcall)

theorem run_bounded (hrun : run (system cfg).step as (start w) = some p) : Bounded cfg p := by
  refine run_invariant (fun hp hstep => hp.step hstep) ⟨start_specified cfg w, ?_⟩ hrun
  intro tid t req ht
  cases (AList.lookup_empty _).symm.trans ht

/-- **The writes of a selection compare and swap.** At every point of every run, a selection has
made at most four attempts, its next step changes a row only if that has the columns of the account
as it was loaded, and what it returns is not an account whose conditional write has failed. -/
theorem selection_compares_and_swaps (hrun : run (system cfg).step as (start w) = some p)
    {tid : ℕ} {t : Thread BalancerOp.Ans (Option AccountSelection) Call} {req : SelectRequest}
    (ht : p.threads.lookup tid = some t) (hcall : t.call = .select req) :
    attempts t.history ≤ 4 ∧
    (∀ e p', (system cfg).step p (.resume tid e) = some p' →
      List.Forall₂ (Swapped t.history) p.shared.accounts p'.shared.accounts) ∧
    ∀ sel a, t.prog = .ret (some sel) → sel.account = some a → a.id ∉ staleIds t.history := by
  obtain ⟨hv, hattempts⟩ := run_bounded hrun
  refine ⟨hattempts ht hcall, fun e p' hstep => ?_, fun sel a hprog ha => ?_⟩
  · obtain ⟨t', op, k, r, ht', hprog, hexec, -⟩ := System.step_resume hstep
    obtain rfl := some.inj (ht.symm.trans ht')
    have hpre := hv.pre ht hprog
    rw [hcall] at hpre
    rw [World.exec_accounts hexec]
    exact accountsAfter_swapped hpre _
  · have hsat := (hv.thread ht).2
    rw [hprog, hcall] at hsat
    exact (hsat.2 sel rfl a ha).written

end

def blockedAccount (id : String) : PoolAccount :=
  ⟨⟨id, .quotaExceeded, none, some 900, some 800⟩, "plus"⟩

theorem selection_compares_and_swaps_solo : ∃ (p : State) (t : Thread _ _ _),
    run (system plainSettings).step (callAt 0 (.select (soloRequest "a")) 13 1000)
      (start (plainWorld 1000 [blockedAccount "a"] [])) = some p ∧
    p.threads.lookup 0 = some t ∧ t.call = .select (soloRequest "a") ∧
    p.shared.accounts.map (·.status) = [.active] ∧ attempts t.history ≤ 4 := by
  have hout : (run (system plainSettings).step (callAt 0 (.select (soloRequest "a")) 13 1000)
      (start (plainWorld 1000 [blockedAccount "a"] []))).map
        (fun p => (p.shared.accounts.map (·.status), (p.outcome 0).map Prod.fst)) =
        some ([.active], some (.select (soloRequest "a"))) := by
    decide +kernel
  obtain ⟨p, hrun, hp⟩ := map_eq_some_iff.mp hout
  obtain ⟨hrows, hcall⟩ := Prod.mk.inj hp
  obtain ⟨⟨c, a⟩, hsel, rfl⟩ := map_eq_some_iff.mp hcall
  obtain ⟨t, ht, hcall, -⟩ := Pool.outcome_eq_some hsel
  exact ⟨p, t, hrun, ht, hcall, hrows, (selection_compares_and_swaps hrun ht hcall).1⟩

end CodexOctopus.Balancer

import CodexOctopus.CallsAlone

/-!
# Quota blocks and the primary window

`mark_quota_exceeded` blocks an account until a reset time. Each selection builds the state
of the account anew from its row and the latest usage rows, and writes it back, so the
block only lasts if every state that is built still has it.
-/

namespace CodexOctopus.Balancer

open Option Python Interaction Lts

/-! ## States of a blocked account -/

structure QuotaBlock where
  accountId : String
  blockedAt : ℤ
  resetAt : ℤ
  blockedAt_ne : blockedAt ≠ 0
  resetAt_pos : 0 < resetAt

namespace QuotaBlock

variable (q : QuotaBlock)

def InRow (a : Account) : Prop :=
  a.status = .quotaExceeded ∧ a.blockedAt = some q.blockedAt ∧
    ∃ t, a.resetAt = some t ∧ q.resetAt ≤ t

def InState (s : AccountState) : Prop :=
  s.status = .quotaExceeded ∧ s.blockedAt = some (q.blockedAt : ℚ) ∧
    ∃ t : ℤ, s.resetAt = some (t : ℚ) ∧ q.resetAt ≤ t

def harmless (window : UsageWindow) (u : UsageEntry) : Bool :=
  match window with
  | .primary => u.usedPercent.all (· < 100) && u.windowMinutes ≠ some 10080
  | .secondary =>
    u.recordedAt.all (· ≤ (q.blockedAt : ℚ)) && u.usedPercent.any (· < 100) ||
      u.usedPercent.all (100 ≤ ·) && u.resetAt.any (q.resetAt ≤ ·)

variable {q}

variable {t : ℤ} {a : Account} {runtime : RuntimeState} {now : ℚ} {u : UsageInput} {h : Log}
  {account : PoolAccount} {state : AccountState} {rows : List PoolAccount} {cfg : BalancerSettings}

theorem orNone_reset (ht : q.resetAt ≤ t) :
    orNone (some (t : ℚ)) = some (t : ℚ) := by
  have hpos : 0 < t := q.resetAt_pos.trans_le ht
  refine filter_eq_some_iff.mpr ⟨rfl, decide_eq_true ?_⟩
  exact_mod_cast hpos.ne'

theorem effectiveBlockedAt_eq (ha : q.InRow a) :
    effectiveBlockedAt runtime a = some (q.blockedAt : ℚ) := by
  rw [effectiveBlockedAt, ha.2.1]

theorem storedReset_eq (ht : a.resetAt = some t) (hle : q.resetAt ≤ t) :
    storedReset runtime a = some (t : ℚ) := by
  rw [storedReset, ht]
  change (orNone (some (t : ℚ))).or runtime.resetAt = _
  rw [orNone_reset hle, some_or]

theorem applyPrimary_room {i : QuotaInput} (hroom : i.primaryUsed.all (· < 100) = true)
    (resetAt : Option ℚ) :
    applyPrimary now i .quotaExceeded resetAt = (.quotaExceeded, i.primaryUsed, resetAt) := by
  unfold applyPrimary
  split
  · rfl
  · next used hused =>
    rw [hused] at hroom
    rw [if_neg (not_le.mpr (of_decide_eq_true hroom))]
    rfl

theorem effectiveSecondary_eq (hprimary : ∀ e, u.primary = some e → q.harmless .primary e = true) :
    u.effectiveSecondary = u.secondary := by
  unfold UsageInput.effectiveSecondary
  split
  · rfl
  · next e he =>
    obtain ⟨-, hweekly⟩ := (Bool.and_eq_true _ _).mp (hprimary e he)
    have hnever : shouldUseWeeklyPrimary e u.secondary = false := by
      simp [shouldUseWeeklyPrimary, of_decide_eq_true hweekly]
    rw [hnever]
    rfl

theorem primaryUsed_room (hprimary : ∀ e, u.primary = some e → q.harmless .primary e = true) :
    (u.primary.bind UsageEntry.usedPercent).all (· < 100) = true := by
  cases hu : u.primary with
  | none => rfl
  | some e => exact ((Bool.and_eq_true _ _).mp (hprimary e hu)).1

theorem effectiveRuntimeReset_eq (ha : q.InRow a) (ht : a.resetAt = some t) (hle : q.resetAt ≤ t)
    (hold : ∀ e, u.effectiveSecondary = some e → e.recordedAt.all (· ≤ (q.blockedAt : ℚ)) = true) :
    effectiveRuntimeReset now runtime u a = some (t : ℚ) := by
  have hblocked : effectiveBlockedAt runtime a = some (q.blockedAt : ℚ) := effectiveBlockedAt_eq ha
  have hstale : staleQuotaBlock now runtime u a = false := by
    rw [staleQuotaBlock, hblocked, isNone_some, Bool.and_false, Bool.false_and]
  have hfresh : refreshedAfterBlock now runtime u a = false := by
    rw [refreshedAfterBlock, hblocked, ha.1, Bool.and_eq_false_iff]
    right
    cases he : u.effectiveSecondary with
    | none => rfl
    | some e =>
      have hbefore := hold e he
      cases hrecorded : e.recordedAt with
      | none => simp [hrecorded]
      | some r =>
        rw [hrecorded] at hbefore
        simpa [hrecorded] using hbefore
  rw [effectiveRuntimeReset, hstale, hfresh, storedReset_eq ht hle]
  rfl

def Guarded (q : QuotaBlock) (i : QuotaInput) : Prop :=
  (i.secondaryUsed.all (· < 100) = true ∧ (i.secondaryUsed = none → i.secondaryReset = none) ∧
      ∃ t : ℤ, i.runtimeReset = some (t : ℚ) ∧ q.resetAt ≤ t) ∨
    i.secondaryUsed.all (100 ≤ ·) = true ∧ i.secondaryReset.any (q.resetAt ≤ ·) = true

theorem guarded_quotaInput (ha : q.InRow a) (heff : u.effectiveSecondary = u.secondary)
    (hsecondary : ∀ e, u.secondary = some e → q.harmless .secondary e = true) :
    q.Guarded (quotaInput now runtime u a) := by
  obtain ⟨t, ht, hle⟩ := ha.2.2
  have hkept : (∀ e, u.secondary = some e → e.recordedAt.all (· ≤ (q.blockedAt : ℚ)) = true) →
      ∃ t : ℤ, effectiveRuntimeReset now runtime u a = some (t : ℚ) ∧ q.resetAt ≤ t := by
    rw [← heff]
    exact fun hold => ⟨t, effectiveRuntimeReset_eq ha ht hle hold, hle⟩
  rw [Guarded, quotaInput, heff]
  dsimp only
  cases hs : u.secondary with
  | none =>
    refine .inl ⟨rfl, fun _ => rfl, hkept ?_⟩
    rw [hs]
    rintro _ ⟨⟩
  | some e =>
    obtain hold | hfull := (Bool.or_eq_true _ _).mp (hsecondary e hs)
    · obtain ⟨hbefore, hroom⟩ := (Bool.and_eq_true _ _).mp hold
      obtain ⟨used, hused, hlt⟩ := (any_eq_true _ _).mp hroom
      rw [bind_some, hused]
      refine .inl ⟨hlt, by rintro ⟨⟩, hkept ?_⟩
      rw [hs]
      rintro _ ⟨⟩
      exact hbefore
    · exact .inr ((Bool.and_eq_true _ _).mp hfull)

theorem applyUsageQuota_kept {i : QuotaInput} (hnow : now < q.resetAt)
    (hroom : i.primaryUsed.all (· < 100) = true) (hsecondary : q.Guarded i) :
    ∃ (used : Option ℚ) (t : ℤ),
      applyUsageQuota now i .quotaExceeded = (.quotaExceeded, used, some (t : ℚ)) ∧
        q.resetAt ≤ t := by
  obtain ⟨hused, hneither, t, hreset, hle⟩ | ⟨hused, hreset⟩ := hsecondary
  · refine ⟨i.primaryUsed, t, ?_, hle⟩
    have hpending : resetPending now i.runtimeReset = true := by
      rw [resetPending, hreset, orNone_reset hle]
      exact decide_eq_true (hnow.trans_le (by exact_mod_cast hle))
    rw [applyUsageQuota, if_neg (by decide)]
    split
    · next used hu =>
      rw [hu] at hused
      rw [if_neg (not_le.mpr (of_decide_eq_true hused)), if_pos rfl, if_pos hpending,
        applyPrimary_room hroom, hreset]
    · next hu =>
      rw [hneither hu, applyPrimary_room hroom, hreset]
  · obtain ⟨t, ht, hle⟩ := (any_eq_true _ _).mp hreset
    replace hle : q.resetAt ≤ t := of_decide_eq_true hle
    rw [applyUsageQuota, if_neg (by decide), ht]
    split
    · next used hu =>
      rw [hu] at hused
      rw [if_pos (of_decide_eq_true hused)]
      exact ⟨_, t, rfl, hle⟩
    · dsimp only
      rw [if_pos rfl, applyPrimary_room hroom]
      exact ⟨_, t, rfl, hle⟩

/-- **The state that is built from a blocked row is blocked.** -/
theorem inState_of_inRow (hnow : now < q.resetAt) (ha : q.InRow a)
    (hprimary : ∀ e, u.primary = some e → q.harmless .primary e = true)
    (hsecondary : ∀ e, u.secondary = some e → q.harmless .secondary e = true) :
    q.InState (stateFromAccount now runtime u a) := by
  have hguarded : q.Guarded (quotaInput now runtime u a) :=
    guarded_quotaInput ha (effectiveSecondary_eq hprimary) hsecondary
  obtain ⟨used, t, happly, hle⟩ := applyUsageQuota_kept hnow (primaryUsed_room hprimary) hguarded
  rw [← ha.1] at happly
  obtain ⟨hstatus, hreset, hblocked⟩ := stateFromAccount_quota happly
  rw [if_pos (.inl ha.1), effectiveBlockedAt_eq ha] at hblocked
  exact ⟨hstatus.trans ha.1, hblocked, t, hreset, hle⟩

/-! ## Passes and choices -/

theorem checkAvailability_blocked {t : ℚ} {s : AccountState} (ht : t < q.resetAt) (hs : q.InState s)
    :
    checkAvailability t s = (s, .excluded) := by
  obtain ⟨hstatus, -, r, hr, hle⟩ := hs
  have hpending : resetElapsed t s = false := by
    rw [resetElapsed, hr, orNone_reset hle]
    exact decide_eq_false (not_le.mpr (ht.trans_le (by exact_mod_cast hle)))
  rw [checkAvailability, hstatus]
  dsimp only
  rw [hpending]
  rfl

def facts (q : QuotaBlock) : Facts where
  row a := a.id = q.accountId → q.InRow a.toAccount
  usage window accountId u := accountId = q.accountId → q.harmless window u = true
  built e s := e.account.id = q.accountId → q.InState s.toAccountState
  time t := t < q.resetAt
  time_mono hle ht := hle.trans_lt ht
  other accountId := accountId ≠ q.accountId

theorem facts_hold (q : QuotaBlock) (cfg : BalancerSettings) : q.facts.Holds cfg := by
  intro now runtime e hnow he hid
  exact inState_of_inRow hnow (he.row hid) (fun u hu => he.primary u hu hid)
    fun u hu => he.secondary u hu hid

theorem passed_blocked {t : ℚ} {b s : Candidate} (ht : t < q.resetAt)
    (hb : q.InState b.toAccountState)
    (h : Passed t b s) : s.toAccountState = b.toAccountState := by
  induction h with
  | refl => rfl
  | check hle _ ih =>
    have hpass := checkAvailability_blocked (lt_of_le_of_lt hle ht) hb
    rw [← ih] at hpass
    rw [checkCandidate, hpass, ih]

theorem ne_of_choosable {built : List Candidate} {r : Candidate} (hknown : Known q.facts built)
    (hr : r ∈ built) (hc : Choosable q.facts h built r) :
    r.accountId ≠ q.accountId := by
  intro hid
  obtain ⟨e, he, hbuilt⟩ := hknown r hr
  have hstate : q.InState r.toAccountState := hbuilt (he.symm.trans hid)
  obtain ⟨t, -, ht, helig⟩ | ⟨clock, -, -, hlimited, -⟩ := hc
  · have hout : eligibility t r = .excluded := congrArg Prod.snd
      (checkAvailability_blocked ht hstate)
    obtain h | ⟨h, -⟩ := helig
    · cases hout.symm.trans h
    · cases hout.symm.trans h
  · cases hstate.1.symm.trans hlimited

theorem inState_of_persistOk (hp : PersistOk q.facts h account state)
    (hid : account.id = q.accountId) : q.InState state := by
  obtain ⟨e, b, s, chosen, rfl, hd, hchosen, rfl⟩ := hp
  have hb : q.InState b.toAccountState := hd.built hid
  obtain ⟨t, -, ht, hpassed⟩ := hd.passed
  have hs : q.InState s.toAccountState := by
    rw [passed_blocked ht hb hpassed]
    exact hb
  have hsid : s.accountId = q.accountId := hpassed.accountId.trans (hd.id.trans hid)
  unfold mergeSelected
  split
  · exact hs
  · next a =>
    obtain ⟨inputs, built, -, hknown, r, hr, hra, hc⟩ := hchosen a rfl
    rw [if_neg]
    · exact hs
    · rw [hsid, ← hra]
      exact ne_of_choosable hknown hr hc

theorem inRow_withColumns {s : AccountState} (hs : q.InState s) (a : Account) :
    q.InRow (a.withColumns s.columns) := by
  obtain ⟨hstatus, hblocked, t, ht, hle⟩ := hs
  have hne : orNone (some (q.blockedAt : ℚ)) = some (q.blockedAt : ℚ) :=
    filter_eq_some_iff.mpr ⟨rfl, decide_eq_true (by exact_mod_cast q.blockedAt_ne)⟩
  refine ⟨hstatus, ?_, t, ?_, hle⟩
  · change (orNone s.blockedAt).map toInt = _
    rw [hblocked, hne, map_some, toInt_intCast]
  · change (orNone s.resetAt).map toInt = _
    rw [ht, orNone_reset hle, map_some, toInt_intCast]

/-! ## Steps -/

theorem row_updateWhere {hit : PoolAccount → Bool} (hrows : ∀ a ∈ rows, q.facts.row a)
    (hhit : ∀ a, hit a = true → a.id = account.id)
    (hstate : account.id = q.accountId → q.InState state) :
    ∀ a ∈ Table.updateWhere hit (withColumns state.columns) rows, q.facts.row a := by
  intro a ha hid
  obtain ⟨a₀, ha₀, rfl⟩ := List.mem_map.mp ha
  split_ifs at hid ⊢ with hh
  · exact inRow_withColumns (hstate ((hhit a₀ hh).symm.trans hid)) _
  · exact hrows a₀ ha₀ hid

theorem inState_of_pre {c : Call}
    (hpre : (callSpec cfg q.facts c).pre h (.persistIfCurrent account state) ∨
      (callSpec cfg q.facts c).pre h (.persist account state)) (hid : account.id = q.accountId) :
    q.InState state := by
  have hother : ∀ {accountId : String}, account.id = accountId ∧ accountId ≠ q.accountId →
      q.InState state :=
    fun hne => absurd (hne.1.symm.trans hid) hne.2
  cases c with
  | select req => exact hpre.elim (fun hp => inState_of_persistOk hp hid) False.elim
  | selectWithBudget preferred req =>
    exact hpre.elim (fun hp => inState_of_persistOk hp hid) False.elim
  | mark account' failure => exact hpre.elim hother hother
  | recordErrors account' count => exact hpre.elim hother hother
  | recordSuccess accountId => exact hpre.elim hother hother

theorem row_accountsAfter {c : Call} {op : BalancerOp} (hpre : (callSpec cfg q.facts c).pre h op)
    (hrows : ∀ a ∈ rows, q.facts.row a) : ∀ a ∈ accountsAfter rows op, q.facts.row a := by
  cases op with
  | persistIfCurrent account state =>
    rw [accountsAfter, persistCurrent]
    split_ifs
    · exact hrows
    · exact row_updateWhere hrows (fun a ha => (of_decide_eq_true ha).1)
        fun hid => inState_of_pre (.inl hpre) hid
  | persist account state =>
    rw [accountsAfter, persistAlways]
    split_ifs
    · exact hrows
    · exact row_updateWhere hrows (fun a ha => of_decide_eq_true ha)
        fun hid => inState_of_pre (.inr hpre) hid
  | _ => exact hrows

/-- What else may happen: no other call is about the account, other writers leave its row alone, and
its usage rows are harmless. -/
def Undisturbed (q : QuotaBlock) (p : State) : Act → Prop
  | .spawn _ c => c.about ≠ some q.accountId
  | .resume _ _ => True
  | .environment (.accounts rows) => ∀ a ∈ rows, a.id = q.accountId → a ∈ p.shared.accounts
  | .environment (.usage window latest) =>
    ∀ x ∈ latest, x.1 = q.accountId → q.harmless window x.2 = true
  | .environment _ => True

instance (q : QuotaBlock) (p : State) : ∀ a : Act, Decidable (q.Undisturbed p a)
  | .spawn _ c => inferInstanceAs (Decidable (c.about ≠ some q.accountId))
  | .resume _ _ => inferInstanceAs (Decidable True)
  | .environment (.accounts rows) =>
    inferInstanceAs (Decidable (∀ a ∈ rows, a.id = q.accountId → a ∈ p.shared.accounts))
  | .environment (.usage window latest) =>
    inferInstanceAs (Decidable (∀ x ∈ latest, x.1 = q.accountId → q.harmless window x.2 = true))
  | .environment (.additionalUsage _) => inferInstanceAs (Decidable True)
  | .environment (.modelPlans _) => inferInstanceAs (Decidable True)
  | .environment (.stickySessions _) => inferInstanceAs (Decidable True)
  | .environment .invalidate => inferInstanceAs (Decidable True)

def Before (cfg : BalancerSettings) (q : QuotaBlock) (p : State) (a : Act) : Prop :=
  ∀ p', (system cfg).step p a = some p' → p'.shared.now < q.resetAt

theorem upholds (cfg : BalancerSettings) (q : QuotaBlock) :
    Upholds (system cfg) (fun p a => q.Undisturbed p a ∧ q.Before cfg p a) (WorldOk cfg q.facts)
      Timely
      (callSpec cfg q.facts) (CallOk cfg q.facts) where
  spawn hok _ := ⟨by rintro t ⟨⟩, call_sat fun id hid hne => hok.1 (hne ▸ hid)⟩
  exec hok hthread hprog hw ht hpre hexec := by
    have htime := hok.2 _ (System.step_of_exec hthread hprog hexec)
    refine ⟨hw.exec hexec ?_ (row_accountsAfter hpre hw.row), ?_, ht.answered hexec⟩
    · rintro key inputs rfl
      exact cacheSet_of_pre hpre
    · exact call_post (q.facts_hold cfg) hw ht htime hpre hexec
  stable _ _ _ _ _ hexec ht := ht.exec hexec
  environment {p x w'} hok hw hx := by
    cases hx
    refine ⟨hw.elsewhere ?_ ?_, fun h ht => ht.elsewhere x⟩
    · rintro rows rfl a ha hid
      exact hw.row a (hok.1 a ha hid) hid
    · rintro window latest rfl
      exact hok.1

/-! ## Runs -/

theorem along_before {as : List Act} {p p' : State}
    (hok : Along (system cfg).step q.Undisturbed as p)
    (hrun : run (system cfg).step as p = some p') (hbefore : p'.shared.now < q.resetAt) :
    Along (system cfg).step (fun p a => q.Undisturbed p a ∧ q.Before cfg p a) as p := by
  induction as generalizing p with
  | nil => trivial
  | cons a as ih =>
    obtain ⟨p₁, hstep, hrun⟩ := run_cons_eq_some hrun
    refine ⟨⟨hok.1, fun p₂ hp₂ => ?_⟩, fun p₂ hp₂ => ?_⟩
    · obtain rfl := some.inj (hstep.symm.trans hp₂)
      exact (run_now hrun).trans_lt hbefore
    · obtain rfl := some.inj (hstep.symm.trans hp₂)
      exact ih (hok.2 _ hstep) hrun

theorem inRow_of_marked {error : UpstreamError} {delay : ℚ} {runtime : RuntimeEntry}
    (hreset : (failureState now delay (.quotaExceeded error) account.toAccount runtime).resetAt =
      some (q.resetAt : ℚ)) (hblocked : toInt now = q.blockedAt)
    (hcurrent : account.status ≠ .quotaExceeded ∨
      ∀ a ∈ rows, a.id = account.id → a.toAccount.columns = account.toAccount.columns) :
    ∀ a ∈ persistAlways account.toAccount
      (failureState now delay (.quotaExceeded error) account.toAccount runtime) rows,
      a.id = account.id → q.InRow a.toAccount := by
  set state := failureState now delay (.quotaExceeded error) account.toAccount runtime with hstate
  have hne : orNone (some now) = some now := by
    refine filter_eq_some_iff.mpr ⟨rfl, decide_eq_true ?_⟩
    rintro rfl
    exact q.blockedAt_ne hblocked.symm
  have hcolumns : state.columns =
      ⟨.quotaExceeded, state.deactivationReason, some q.resetAt, some q.blockedAt⟩ := by
    rw [AccountState.columns, hreset, orNone_reset le_rfl, map_some, toInt_intCast]
    change StatusColumns.mk _ _ _ ((orNone (some now)).map toInt) = _
    rw [hne, map_some, hblocked]
    rfl
  have hrow : ∀ a : Account, a.columns = state.columns → q.InRow a := by
    intro a ha
    rw [hcolumns] at ha
    exact ⟨congrArg StatusColumns.status ha, congrArg StatusColumns.blockedAt ha, q.resetAt,
      congrArg StatusColumns.resetAt ha, le_rfl⟩
  intro a ha hid
  unfold persistAlways at ha
  split_ifs at ha with hsame
  · refine hrow _ ((hcurrent.resolve_left fun hne => hne ?_) a ha hid |>.trans hsame)
    exact (congrArg StatusColumns.status hsame).trans (congrArg StatusColumns.status hcolumns)
  · obtain ⟨a₀, -, rfl⟩ := List.mem_map.mp ha
    split_ifs at hid ⊢ with hhit
    · exact hrow _ rfl
    · exact absurd (decide_eq_true hid) hhit

section

variable {cfg : BalancerSettings} {w : World} {account : PoolAccount} {error : UpstreamError}
  {es : List Reading} {as : List Act} {p₁ p₂ : State}

theorem marked_verified (hid : account.id = q.accountId)
    (hcurrent : account.status ≠ .quotaExceeded ∨
      ∀ a ∈ w.accounts, a.id = account.id → a.toAccount.columns = account.toAccount.columns)
    (hprimary : ∀ x ∈ w.primaryUsage, x.1 = q.accountId → q.harmless .primary x.2 = true)
    (hsecondary : ∀ x ∈ w.secondaryUsage, x.1 = q.accountId → q.harmless .secondary x.2 = true)
    (hmark : run (system cfg).step
      (.spawn 0 (.mark account (.quotaExceeded error)) :: es.map (.resume 0)) ⟨w, ∅⟩ = some p₁)
    (hdone : (p₁.outcome 0).isSome = true)
    (hreset : (runtimeOf account.id p₁.shared.runtime).resetAt = some (q.resetAt : ℚ))
    (hblocked : (runtimeOf account.id p₁.shared.runtime).blockedAt.map toInt =
      some q.blockedAt) :
    Verified (WorldOk cfg q.facts) Timely (callSpec cfg q.facts) (CallOk cfg q.facts) p₁ := by
  obtain ⟨hout, hothers⟩ := (mark_alone cfg 0 w account (.quotaExceeded error)).call hmark
  obtain ⟨⟨c, r⟩, hcr⟩ := isSome_iff_exists.mp hdone
  obtain ⟨rfl, rfl, hlast, now, delay, hm⟩ := hout c r hcr
  rw [hm.runtime, runtimeAfter, runtimeOf_setItem_self] at hreset hblocked
  constructor
  · refine ⟨?_, ?_, ?_, ?_⟩
    · rw [hm.accounts]
      intro a ha haid
      exact inRow_of_marked hreset (some.inj hblocked) hcurrent a ha (haid.trans hid.symm)
    · rw [hm.primaryUsage]
      exact hprimary
    · rw [hm.secondaryUsage]
      exact hsecondary
    · rw [hm.cache]
      exact fun x hx => by cases hx
  · intro tid t ht
    by_cases htid : tid = 0
    · subst htid
      obtain ⟨t', ht', hcall, hprog⟩ := Pool.outcome_eq_some hcr
      obtain rfl := some.inj (ht.symm.trans ht')
      rw [hcall, hprog]
      refine ⟨fun s hs => ?_, rfl⟩
      rw [← Pool.history_eq ht, hlast] at hs
      cases hs
    · rw [hothers tid htid] at ht
      cases (AList.lookup_empty _).symm.trans ht

/-- **A quota block is kept**: after `mark_quota_exceeded`, made while no call is in flight, no
selection returns the account before the reset, in any run that leaves it undisturbed. -/
theorem quota_block_kept (hid : account.id = q.accountId)
    (hcurrent : account.status ≠ .quotaExceeded ∨
      ∀ a ∈ w.accounts, a.id = account.id → a.toAccount.columns = account.toAccount.columns)
    (hprimary : ∀ x ∈ w.primaryUsage, x.1 = q.accountId → q.harmless .primary x.2 = true)
    (hsecondary : ∀ x ∈ w.secondaryUsage, x.1 = q.accountId → q.harmless .secondary x.2 = true)
    (hmark : run (system cfg).step
      (.spawn 0 (.mark account (.quotaExceeded error)) :: es.map (.resume 0)) ⟨w, ∅⟩ = some p₁)
    (hdone : (p₁.outcome 0).isSome = true)
    (hreset : (runtimeOf account.id p₁.shared.runtime).resetAt = some (q.resetAt : ℚ))
    (hblocked : (runtimeOf account.id p₁.shared.runtime).blockedAt.map toInt =
      some q.blockedAt)
    (hok : Along (system cfg).step q.Undisturbed as p₁)
    (hrun : run (system cfg).step as p₁ = some p₂) (hbefore : p₂.shared.now < q.resetAt)
    {tid : ℕ} {c : Call} {sel : AccountSelection} {a : PoolAccount}
    (hsel : p₂.outcome tid = some (c, some sel)) (ha : sel.account = some a) :
    a.id ≠ q.accountId := by
  have hp₁ := marked_verified hid hcurrent hprimary hsecondary hmark hdone hreset hblocked
  have hresult := ((upholds cfg q).run hp₁ (along_before hok hrun hbefore) hrun).result hsel
  have hsound : ∃ req, Sound cfg q.facts req (p₂.history tid) a := by
    cases c with
    | select req => exact ⟨req, hresult.2 sel rfl a ha⟩
    | selectWithBudget preferred req => exact hresult sel rfl a ha
    | mark account failure => cases hresult
    | recordErrors account count => cases hresult
    | recordSuccess accountId => cases hresult
  obtain ⟨req, hsound⟩ := hsound
  obtain ⟨inputs, built, -, -, hknown, r, hr, hrid, hc⟩ := hsound.attempt
  rw [← hrid]
  exact ne_of_choosable hknown hr hc

end

def sample : QuotaBlock := ⟨"a", 1000, 9000, by decide, by decide⟩

def sampleMark : List Act :=
  .spawn 0 (.mark (activeAccount "a") (.quotaExceeded ⟨none, some 9000, none⟩)) ::
    (List.replicate 5 (Reading.at 1000)).map (.resume 0)

def anyRequest : SelectRequest := ⟨none, false, .roundRobin, none, none, none, ∅, 95⟩

theorem quota_block_kept_pair : ∃ (p₁ p₂ : State) (sel : AccountSelection) (a : PoolAccount),
    run (system plainSettings).step sampleMark
      ⟨plainWorld 1000 [activeAccount "a", activeAccount "b"] [], ∅⟩ = some p₁ ∧
    run (system plainSettings).step (callAt 1 (.select anyRequest) 15 1600) p₁ = some p₂ ∧
    p₂.outcome 1 = some (.select anyRequest, some sel) ∧ sel.account = some a ∧
    a.id ≠ sample.accountId := by
  obtain ⟨p₁, hmark, hdone, hreset, hblocked, hok, p₂, hrun, hbefore, hsel⟩ : ∃ p₁,
      run (system plainSettings).step sampleMark
        ⟨plainWorld 1000 [activeAccount "a", activeAccount "b"] [], ∅⟩ = some p₁ ∧
      (p₁.outcome 0).isSome = true ∧
      (runtimeOf "a" p₁.shared.runtime).resetAt = some ((9000 : ℤ) : ℚ) ∧
      (runtimeOf "a" p₁.shared.runtime).blockedAt.map toInt = some 1000 ∧
      Along (system plainSettings).step sample.Undisturbed
        (callAt 1 (.select anyRequest) 15 1600) p₁ ∧
      ∃ p₂, run (system plainSettings).step (callAt 1 (.select anyRequest) 15 1600) p₁ =
        some p₂ ∧ p₂.shared.now < ((9000 : ℤ) : ℚ) ∧ p₂.outcome 1 =
          some (.select anyRequest, some ⟨some (activeAccount "b"), none, none⟩) := by
    decide +kernel
  refine ⟨p₁, p₂, _, _, hmark, hrun, hsel, rfl, ?_⟩
  exact quota_block_kept (q := sample) rfl (.inl (by decide)) (fun x hx => by cases hx)
    (fun x hx => by cases hx) hmark hdone hreset hblocked hok hrun hbefore hsel rfl

/-- **A primary sample shortens the block.** The account is blocked until 9000, its primary window
is full until 1500, and it is selected at 1600. -/
theorem primary_sample_shortens_block : ∃ (p₁ p₂ : State) (sel : AccountSelection)
    (a : PoolAccount),
    run (system plainSettings).step sampleMark
      ⟨plainWorld 1000 [activeAccount "a"] [("a", ⟨some 100, some 1500, some 300, some 1000⟩)], ∅⟩ =
        some p₁ ∧
    (p₁.outcome 0).isSome = true ∧
    (runtimeOf "a" p₁.shared.runtime).resetAt = some 9000 ∧
    run (system plainSettings).step (callAt 1 (.select (soloRequest "a")) 13 1600) p₁ = some p₂ ∧
    p₂.shared.secondaryUsage = [] ∧ p₂.shared.now < 9000 ∧
    p₂.outcome 1 = some (.select (soloRequest "a"), some sel) ∧ sel.account = some a ∧
    a.id = "a" := by
  obtain ⟨p₁, hmark, hdone, hreset, p₂, hrun, hsecondary, hbefore, hsel⟩ : ∃ p₁,
      run (system plainSettings).step sampleMark
        ⟨plainWorld 1000 [activeAccount "a"] [("a", ⟨some 100, some 1500, some 300, some 1000⟩)],
          ∅⟩ = some p₁ ∧
      (p₁.outcome 0).isSome = true ∧ (runtimeOf "a" p₁.shared.runtime).resetAt = some 9000 ∧
      ∃ p₂, run (system plainSettings).step (callAt 1 (.select (soloRequest "a")) 13 1600) p₁ =
        some p₂ ∧ p₂.shared.secondaryUsage = [] ∧ p₂.shared.now < 9000 ∧ p₂.outcome 1 =
          some (.select (soloRequest "a"),
            some ⟨some ⟨⟨"a", .active, none, none, some 1000⟩, "plus"⟩, none, none⟩) := by
    decide +kernel
  exact ⟨p₁, p₂, _, _, hmark, hdone, hreset, hrun, hsecondary, hbefore, hsel, rfl, rfl⟩

end QuotaBlock

end CodexOctopus.Balancer

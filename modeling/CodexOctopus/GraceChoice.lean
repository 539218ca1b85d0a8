import CodexOctopus.CallsAlone
import CodexOctopus.FailureMarks

/-!
# Choices in the grace period

A rate-limited account that a sticky key is mapped to is chosen if its reset is at most ten
seconds away. The source decides that on a copy of the state with the clock set forward, so
that the state itself stays rate-limited. But the result of the choice is the copy, which
the pass has made active, and its status is merged back into the state that is then
persisted.
-/

namespace CodexOctopus.Balancer

open List Option Python Interaction Lts

/-! ## What was decided -/

def mapping? : Event BalancerOp.Ans → Option (Option String)
  | ⟨.stickyGet _ _ _, existing⟩ => some existing
  | _ => none

def clock? : Event BalancerOp.Ans → Option StickyClock
  | ⟨.stickyClock, clock⟩ => some clock
  | _ => none

def stickyDecision (req : SelectRequest) (h : Log) : Option StickyPlan :=
  (req.sticky.filter fun s => s.stickyKey ≠ "").bind fun s =>
    (lastBuilt h).bind fun x =>
      (h.findSome? mapping?).bind fun existing =>
        (h.findSome? clock?).map fun clock =>
          stickyPlan (req.stickyArgs s) clock (existing.filter (· ≠ "")) x.2

def Indifferent (e : Event BalancerOp.Ans) : Prop :=
  built? e = none ∧ mapping? e = none ∧ clock? e = none

variable {h : Log}

theorem stickyDecision_grown {req : SelectRequest} {h' : Log} (hg : Grown Indifferent h h') :
    stickyDecision req h' = stickyDecision req h := by
  rw [stickyDecision, lastBuilt, hg.findSome? fun _ he => he.1, hg.findSome? fun _ he => he.2.1,
    hg.findSome? fun _ he => he.2.2, stickyDecision, lastBuilt]

theorem Written.indifferent {h' : Log} (hw : Written h h') : Grown Indifferent h h' := by
  refine hw.mono ?_
  rintro ⟨op, r⟩ he
  cases op with
  | stickyUpsert | sync | watch | persistIfCurrent => exact ⟨rfl, rfl, rfl⟩
  | _ => cases he

theorem stickyDecision_eq {req : SelectRequest} {s : StickyRequest} (hsticky : req.sticky = some s)
    (hkey : s.stickyKey ≠ "") {inputs : SelectionInputs} {built : List Candidate}
    {existing : Option String} {clock : StickyClock} {age : Option ℕ} :
    stickyDecision req (⟨.stickyClock, clock⟩ :: ⟨.stickyGet s.stickyKey s.stickyKind age, existing⟩
      ::
      ⟨.build inputs, built⟩ :: h) =
        some (stickyPlan (req.stickyArgs s) clock (existing.filter (· ≠ "")) built) := by
  rw [stickyDecision, hsticky, filter_some, if_pos (decide_eq_true hkey)]
  rfl

/-! ## The state of the chosen account -/

/-- The row is active and shows the reset of its primary usage row, and the runtime entry has its
reset and block time. -/
def Reflected (w : World) (accountId : String) : Prop :=
  ∀ a ∈ w.accounts, a.id = accountId →
    a.status = .active ∧ a.blockedAt ≠ some 0 ∧
    (runtimeOf accountId w.runtime).blockedAt = a.blockedAt.map ((↑·) : ℤ → ℚ) ∧
    ∀ u, getItem accountId w.primaryUsage = some u → ∃ t : ℤ, t ≠ 0 ∧ u.resetAt = some t ∧
      a.resetAt = some t ∧ (runtimeOf accountId w.runtime).resetAt = some (t : ℚ)

theorem applyUsageQuota_active {now : ℚ} {i : QuotaInput}
    (h : (applyUsageQuota now i .active).1 = .rateLimited) :
    i.primaryUsed.isSome = true ∧ ∀ t, i.primaryReset = some t →
      applyUsageQuota now i .active = (.rateLimited, some 100, some (t : ℚ)) := by
  have hprimary : ∀ r, (applyPrimary now i .active r).1 = .rateLimited →
      i.primaryUsed.isSome = true ∧ ∀ t, i.primaryReset = some t →
        applyPrimary now i .active r = (.rateLimited, some 100, some (t : ℚ)) := by
    intro r hr
    unfold applyPrimary at hr ⊢
    split at hr
    · cases hr
    · next used hused =>
      split_ifs at hr ⊢
      · refine ⟨by rw [hused]; rfl, fun t ht => ?_⟩
        rw [ht]
  rw [applyUsageQuota, if_neg (by decide)] at h ⊢
  split at h
  · split_ifs at h ⊢
    all_goals exact hprimary _ h
  · split at h
    · exact hprimary _ h
    · exact hprimary _ h

theorem checkAvailability_available {t : ℚ} {s : AccountState}
    (h : (checkAvailability t s).2 = .available) :
    (checkAvailability t s).1.status = .active := by
  unfold checkAvailability at h ⊢
  split at h
  · cases h
  · cases h
  · split_ifs at h ⊢
    rw [checkCooldown_status]
  · split_ifs at h ⊢
    rw [checkCooldown_status]
  · next hs => rw [checkCooldown_status, hs]

theorem checkAvailability_reason (t : ℚ) (s : AccountState) :
    (checkAvailability t s).1.deactivationReason = s.deactivationReason := by
  have hcooldown : ∀ s : AccountState,
      (checkCooldown t s).1.deactivationReason = s.deactivationReason := by
    intro s
    unfold checkCooldown
    dsimp only
    split_ifs <;> rfl
  unfold checkAvailability
  split
  · rfl
  · rfl
  · split_ifs
    · exact hcooldown _
    · rfl
  · split_ifs
    · exact hcooldown _
    · rfl
  · exact hcooldown _

/-- **A rate-limited state of a reflected row** has the reset of the runtime entry, and but for its
status the columns of the row. -/
theorem reflected_state {w : World} {a : PoolAccount} {now : ℚ} {interval : ℕ}
    {secondary : Option UsageEntry} {b : AccountState} (hr : Reflected w a.id) (ha : a ∈ w.accounts)
    (hb : b = stateFromAccount now (runtimeOf a.id w.runtime).toRuntimeState
      ⟨getItem a.id w.primaryUsage, secondary, interval⟩ a.toAccount)
    (hlimited : b.status = .rateLimited) :
    b.resetAt = (runtimeOf a.id w.runtime).resetAt ∧
      b.blockedAt = (runtimeOf a.id w.runtime).blockedAt ∧
      { b with status := .active }.columns = a.toAccount.columns := by
  obtain ⟨hactive, hzero, hblocked, hreset⟩ := hr a ha rfl
  set runtime := (runtimeOf a.id w.runtime).toRuntimeState
  set u : UsageInput := ⟨getItem a.id w.primaryUsage, secondary, interval⟩ with hu
  have hquota : (applyUsageQuota now (quotaInput now runtime u a.toAccount) .active).1 =
      .rateLimited := by
    rw [← hactive, ← hlimited, hb]
    rfl
  obtain ⟨hused, happly⟩ := applyUsageQuota_active hquota
  obtain ⟨used, hused⟩ := isSome_iff_exists.mp hused
  obtain ⟨entry, hentry, -⟩ := bind_eq_some_iff.mp hused
  obtain ⟨t, hne, hreset, hrow, hentryReset⟩ := hreset entry hentry
  have hprimary : (quotaInput now runtime u a.toAccount).primaryReset = some t := by
    rw [quotaInput, hentry]
    exact hreset
  have hstate := happly t hprimary
  rw [← hactive] at hstate
  obtain ⟨-, hresetAt, hblockedAt⟩ := stateFromAccount_quota hstate
  rw [← hb] at hresetAt hblockedAt
  have heffective : effectiveBlockedAt runtime a.toAccount = runtime.blockedAt := by
    rw [effectiveBlockedAt, hblocked]
    cases a.blockedAt <;> rfl
  rw [if_pos (.inr rfl), heffective] at hblockedAt
  refine ⟨hresetAt.trans hentryReset.symm, hblockedAt, ?_⟩
  have hresetColumn : (orNone b.resetAt).map toInt = a.resetAt := by
    rw [hresetAt, orNone, filter_some, if_pos, hrow]
    · exact congrArg some (toInt_intCast t)
    · exact decide_eq_true (by exact_mod_cast hne)
  have hblockedColumn : (orNone b.blockedAt).map toInt = a.blockedAt := by
    rw [hblockedAt, hblocked]
    cases hrowBlocked : a.blockedAt with
    | none => rfl
    | some v =>
      have hv : v ≠ 0 := fun hv => hzero (hrowBlocked.trans (congrArg some hv))
      rw [map_some, orNone, filter_some, if_pos]
      · exact congrArg some (toInt_intCast v)
      · exact decide_eq_true (by exact_mod_cast hv)
  rw [AccountState.columns, hresetColumn, hblockedColumn, hb]
  exact congrArg (StatusColumns.mk · _ _ _) hactive.symm

/-! ## The selection -/

section

variable {cfg : BalancerSettings} {tid : ℕ} {w : World} {h : Log} {req : SelectRequest}
  {s : StickyRequest}

def Kept (w : World) (h : Log) {α : Type} (w' : World) (h' : Log) (_ : α) : Prop :=
  Unwritten w w' ∧ Grown Indifferent h h'

theorem kept_perform {op : BalancerOp} (hop : isRead op = true)
    (hi : ∀ r, Indifferent ⟨op, r⟩) : Alone (system cfg) tid (Kept w h) w h (perform op) :=
  fun _ _ r hexec => ⟨exec_unwritten hop hexec, .cons (hi r) .refl⟩

theorem kept_whenever {c : Bool} {p : BalancerM Unit}
    (hp : Alone (system cfg) tid (Kept w h) w h p) :
    Alone (system cfg) tid (Kept w h) w h (whenever c p) := by
  cases c with
  | true => exact hp
  | false => exact ⟨.refl w, .refl⟩

variable {w₁ : World} {inputs : SelectionInputs} {built : List Candidate}

theorem Kept.trans {α β : Type} {w₂ : World} {h₁ h₂ : Log} {a : α} {b : β}
    (h₁₂ : Kept w₁ h₁ w₂ h₂ b) (h₀₁ : Kept w h w₁ h₁ a) : Kept w h w₂ h₂ b :=
  ⟨h₁₂.1.trans h₀₁.1, h₁₂.2.trans h₀₁.2⟩

theorem followPlan_alone (plan : StickyPlan) :
    Alone (system cfg) tid
      (fun w' h' choice => Kept w h w' h' choice ∧
        ∀ ss account, plan = .graced ss account → choice = (ss, ⟨some account, none⟩))
      w h (followPlan req s plan) := by
  have htake : ∀ states account, Alone (system cfg) tid
      (fun w' h' choice => Kept w h w' h' choice ∧ choice = (states, ⟨some account, none⟩))
      w h (takePinned s states account) := by
    intro states account
    refine (kept_whenever (kept_perform rfl fun _ => ⟨rfl, rfl, rfl⟩)).bind fun w' h' _ hk => ?_
    exact ⟨hk, rfl⟩
  cases plan with
  | pinned states account =>
    refine (htake states account).mono fun w' h' choice hr => ⟨hr.1, ?_⟩
    rintro _ _ ⟨⟩
  | graced states account =>
    refine (htake states account).mono fun w' h' choice hr => ⟨hr.1, ?_⟩
    rintro _ _ ⟨⟩
    exact hr.2
  | fallback states delete persist =>
    refine (kept_whenever (kept_perform rfl fun _ => ⟨rfl, rfl, rfl⟩)).bind fun w₁ h₁ _ hk₁ => ?_
    have hchoose : Alone (system cfg) tid (Kept w₁ h₁) w₁ h₁ (chooseFrom req states) := by
      refine (kept_perform rfl fun _ => ⟨rfl, rfl, rfl⟩).bind fun w₂ h₂ _ hk₂ => ?_
      refine (kept_perform rfl fun _ => ⟨rfl, rfl, rfl⟩).bind fun w₃ h₃ _ hk₃ => ?_
      exact hk₃.trans hk₂
    refine hchoose.bind fun w₂ h₂ choice hk₂ => ?_
    split
    · refine ⟨hk₂.trans hk₁, ?_⟩
      rintro _ _ ⟨⟩
    · refine (kept_whenever (kept_perform rfl fun _ => ⟨rfl, rfl, rfl⟩)).bind fun w₃ h₃ _ hk₃ => ?_
      refine ⟨hk₃.trans (hk₂.trans hk₁), ?_⟩
      rintro _ _ ⟨⟩

theorem choose_alone (hsticky : req.sticky = some s) (hkey : s.stickyKey ≠ "") :
    Alone (system cfg) tid
      (fun w' h' choice => Unwritten w w' ∧ ∃ clock existing,
        stickyDecision req h' = some (stickyPlan (req.stickyArgs s) clock existing built) ∧
        ∀ ss account, stickyPlan (req.stickyArgs s) clock existing built = .graced ss account →
          choice = (ss, ⟨some account, none⟩))
      w (⟨.build inputs, built⟩ :: h) (choose req built) := by
  rw [choose, hsticky]
  dsimp only
  rw [selectWithStickiness, if_neg hkey]
  intro e₁ w₁ existing h₁ e₂ w₂ clock h₂
  have hu := (exec_unwritten rfl h₂).trans (exec_unwritten rfl h₁)
  refine (followPlan_alone _).mono fun w' h' choice hr => ?_
  refine ⟨hr.1.1.trans hu, clock, existing.filter (· ≠ ""), ?_, hr.2⟩
  rw [stickyDecision_grown hr.1.2, stickyDecision_eq hsticky hkey]

section

variable (hbuilt : BuiltFrom cfg w w₁ inputs built)
include hbuilt

section

variable (hnodup : (inputs.entries.map fun x => x.account.id).Nodup)
include hnodup

theorem BuiltFrom.pair_eq {r : Candidate} (hr : r ∈ built) :
    ∃ e, (e, r) ∈ inputs.entries.zip built ∧ e.account.id = r.accountId ∧
      ∀ x ∈ inputs.entries.zip built, x.1.account.id = r.accountId → x = (e, r) := by
  obtain ⟨hlength, hstates⟩ := forall₂_iff_zip.mp hbuilt.states
  have hid : ∀ e s, (e, s) ∈ inputs.entries.zip built → s.accountId = e.account.id := by
    intro e s hes
    rw [hstates hes]
    rfl
  obtain ⟨i, hi, rfl⟩ := mem_iff_getElem.mp hr
  have hmem : (inputs.entries[i], built[i]) ∈ inputs.entries.zip built := by
    rw [← getElem_zip (h := by simpa [hlength] using hi)]
    exact getElem_mem _
  refine ⟨inputs.entries[i], hmem, (hid _ _ hmem).symm, fun x hx hxid => ?_⟩
  exact inj_on_of_nodup_map (nodup_zip hnodup _) hx hmem (hxid.trans (hid _ _ hmem))

def SameRecord (w w' : World) (accountId : String) : Prop :=
  w'.rowsOf accountId = w.rowsOf accountId ∧
    (runtimeOf accountId w'.runtime).resetAt = (runtimeOf accountId w.runtime).resetAt ∧
    (runtimeOf accountId w'.runtime).blockedAt = (runtimeOf accountId w.runtime).blockedAt

theorem graced_mem {ss : List Candidate} {account : Candidate} {a : StickyArgs}
    {clock : StickyClock} {existing : Option String}
    (hplan : stickyPlan a clock existing built = .graced ss account) :
    ∃ e ∈ inputs.entries, e.account.id = account.accountId := by
  obtain ⟨r, hr, -, -, -, rfl, -⟩ := stickyPlan_graced hplan
  obtain ⟨e, hmem, hid, -⟩ := hbuilt.pair_eq hnodup hr
  exact ⟨e, (of_mem_zip hmem).1, by rw [hid, checkCandidate_accountId]⟩

theorem graced_pair {ss : List Candidate} {account : Candidate} {a : StickyArgs}
    {clock : StickyClock} {existing : Option String}
    (hplan : stickyPlan a clock existing built = .graced ss account) :
    ∀ x ∈ inputs.entries.zip ss, x.1.account.id = account.accountId →
      (x.1, x.2) ∈ inputs.entries.zip built ∧ x.2.status = .rateLimited ∧
        (mergeSelected (some account) x.2).toAccountState =
          { x.2.toAccountState with status := .active } := by
  obtain ⟨r, hr, -, hlimited, havailable, hcopy, rfl, hsame⟩ := stickyPlan_graced hplan
  have haccountId : account.accountId = r.accountId := by rw [← hcopy, checkCandidate_accountId]
  have hstatus : account.status = .active := by
    rw [← hcopy]
    exact checkAvailability_available havailable
  have hreason : account.deactivationReason = r.deactivationReason := by
    rw [← hcopy]
    exact checkAvailability_reason _ _
  obtain ⟨e, hmem, heid, hunique⟩ := hbuilt.pair_eq hnodup hr
  rintro ⟨e', s'⟩ hx hid
  rw [recheck, zip_map_right] at hx
  obtain ⟨⟨e'', s⟩, hpair, hxs⟩ := mem_map.mp hx
  obtain ⟨rfl, rfl⟩ := Prod.mk.inj hxs
  obtain ⟨rfl, rfl⟩ := Prod.mk.inj (hunique _ hpair (hid.trans haccountId))
  have hs : (if s.accountId = s.accountId then checkCandidate clock.pinned s else s) = s := by
    rw [if_pos rfl, hsame]
  dsimp only [id_eq] at hid ⊢
  rw [hs, mergeSelected, if_pos haccountId, hstatus, hreason]
  exact ⟨hpair, hlimited, rfl⟩

end

end

/-- **One attempt in the grace period** leaves the record of a reflected account as it was. -/
theorem attempt_alone {w₀ : World} {ids : List String} (hsticky : req.sticky = some s)
    (hkey : s.stickyKey ≠ "") (hnodup : (w₀.accounts.map fun a => a.id).Nodup) (hu : Unwritten w₀ w)
    (hids : ∀ a ∈ w₀.accounts, a.id ∈ ids) (hdrawn : DrawnFrom w₀ ids (w₀.scope req.key) inputs) :
    Alone (system cfg) tid
      (fun w' h' a => a.stale = [] ∧ ∀ ss account,
        stickyDecision req h' = some (.graced ss account) → Reflected w₀ account.accountId →
          SameRecord w₀ w' account.accountId)
      w h (attempt req inputs) := by
  obtain ⟨hruntimeIds, drawn, hsub, hentries⟩ := hdrawn
  have hsub : drawn.Sublist w₀.accounts := hsub.trans filter_sublist
  have haccount : ∀ x ∈ inputs.entries, x.account ∈ w₀.accounts ∧
      x.primary = getItem x.account.id w₀.primaryUsage := by
    rw [hentries]
    intro x hx
    obtain ⟨a, ha, rfl⟩ := mem_map.mp hx
    exact ⟨hsub.subset ha, rfl⟩
  have hentriesNodup : (inputs.entries.map fun x => x.account.id).Nodup := by
    rw [hentries, World.drawn, List.map_map]
    exact (hsub.map _).nodup hnodup
  intro e₁ w₁ built h₁
  have hbuilt : BuiltFrom cfg w w₁ inputs built := by
    refine exec_build (fun x hx => ?_) h₁
    rw [hruntimeIds]
    exact hids _ (haccount x hx).1
  refine (choose_alone hsticky hkey).bind fun w₂ h₂ choice hchoice => ?_
  obtain ⟨hu₂, clock, existing, hdecision, hgraced⟩ := hchoice
  have haccounts₂ : w₂.accounts = w₀.accounts :=
    hu₂.accounts.trans (hbuilt.accounts.trans hu.accounts)
  have hrows : ∀ x ∈ inputs.entries, x.account ∈ w₂.accounts := by
    intro x hx
    rw [haccounts₂]
    exact (haccount x hx).1
  by_cases hcase : ∃ ss account, stickyPlan (req.stickyArgs s) clock existing built =
      .graced ss account ∧ Reflected w₀ account.accountId
  · obtain ⟨ss, account, hplan, hreflected⟩ := hcase
    have hchoice := hgraced ss account hplan
    have hruntime : ∀ id, runtimeOf id w.runtime = runtimeOf id w₀.runtime := by
      intro id
      rw [hu.runtime]
    -- the state that is written back is the one that was built
    have hstate : ∀ x ∈ inputs.entries.zip ss, x.1.account.id = account.accountId →
        x.2.resetAt = (runtimeOf account.accountId w₀.runtime).resetAt ∧
          x.2.blockedAt = (runtimeOf account.accountId w₀.runtime).blockedAt ∧
          x.1.account.toAccount.columns =
            (mergeSelected (some account) x.2).toAccountState.columns := by
      intro x hx hid
      obtain ⟨hpair, hlimited, hmerged⟩ := graced_pair hbuilt hentriesNodup hplan x hx hid
      obtain ⟨hmem, hprimary⟩ := haccount x.1 (of_mem_zip hx).1
      have hb := (forall₂_iff_zip.mp hbuilt.states).2 hpair
      rw [hprimary, hruntime] at hb
      rw [← hid] at hreflected ⊢
      obtain ⟨hresetAt, hblockedAt, hcolumns⟩ := reflected_state hreflected hmem hb hlimited
      rw [hmerged]
      exact ⟨hresetAt, hblockedAt, hcolumns.symm⟩
    refine (writeBack_alone account.accountId
      (fun r => r.resetAt = (runtimeOf account.accountId w₀.runtime).resetAt ∧
        r.blockedAt = (runtimeOf account.accountId w₀.runtime).blockedAt) hrows hentriesNodup
      ?_ ?_).mono fun w' h' a ha => ?_
    · intro x hx hid
      rw [hchoice] at hx
      exact ⟨(hstate x hx hid).1, (hstate x hx hid).2.1⟩
    · obtain ⟨e, he, hid⟩ := graced_mem hbuilt hentriesNodup hplan
      have hmem : account.accountId ∈ inputs.runtimeIds := by
        rw [hruntimeIds, ← hid]
        exact hids _ (haccount e he).1
      rw [hu₂.runtime, hbuilt.runtime _ hmem, hruntime]
      exact ⟨rfl, rfl⟩
    · obtain ⟨hwritten, hreset, rfl, hframe, -⟩ := ha
      refine ⟨rfl, fun ss' account' hplan' _ => ?_⟩
      rw [stickyDecision_grown hwritten.indifferent, hdecision, hplan] at hplan'
      obtain ⟨rfl, rfl⟩ := StickyPlan.graced.inj (some.inj hplan')
      refine ⟨?_, hreset⟩
      rw [hframe, World.rowsOf, haccounts₂, World.rowsOf]
      intro x hx hid
      rw [hchoice, zip_map_right] at hx
      obtain ⟨y, hy, rfl⟩ := mem_map.mp hx
      exact (hstate y hy hid).2.2
  · refine (writeBack_alone "" (fun _ => True) hrows hentriesNodup
      (fun _ _ _ => trivial) trivial).mono fun w' h' a ha => ?_
    obtain ⟨hwritten, -, rfl, -⟩ := ha
    refine ⟨rfl, fun ss account hplan hreflected => absurd ⟨ss, account, ?_, hreflected⟩ hcase⟩
    rw [stickyDecision_grown hwritten.indifferent, hdecision] at hplan
    exact some.inj hplan

theorem sticky_of_decision {plan : StickyPlan} (hd : stickyDecision req h = some plan) :
    ∃ s, req.sticky = some s ∧ s.stickyKey ≠ "" := by
  obtain ⟨s, hs, -⟩ := bind_eq_some_iff.mp hd
  obtain ⟨hsticky, hkey⟩ := filter_eq_some_iff.mp hs
  exact ⟨s, hsticky, of_decide_eq_true hkey⟩

theorem select_alone (hsticky : req.sticky = some s) (hkey : s.stickyKey ≠ "")
    (hnodup : (w.accounts.map fun a => a.id).Nodup) (hmiss : ∀ x ∈ w.cache, x.1 ≠ req.key) :
    Alone (system cfg) tid
      (fun w' h' r => ∀ sel a, r = some sel → sel.account = some a → ∀ ss account,
        stickyDecision req h' = some (.graced ss account) → Reflected w account.accountId →
          SameRecord w w' account.accountId)
      w h ((Call.select req).program cfg) := by
  suffices hselect : Alone (system cfg) tid
      (fun w' h' r => ∀ a, r.account = some a → ∀ ss account,
        stickyDecision req h' = some (.graced ss account) → Reflected w account.accountId →
          SameRecord w w' account.accountId) w h (selectFrom cfg req) by
    refine hselect.bind fun w' h' r hr => ?_
    rintro sel a ⟨⟩
    exact hr a
  refine (loadChecked_alone hmiss).bind fun w₁ h₁ r hload => ?_
  obtain ⟨hu, hnone, hinputs⟩ := hload
  cases r with
  | inl sel =>
    intro a ha
    rw [hnone sel rfl] at ha
    cases ha
  | inr inputs =>
    have hids : ∀ a ∈ w.accounts, a.id ∈ w.accounts.map fun a => a.id :=
      fun a ha => mem_map_of_mem ha
    have hattempt : Alone (system cfg) tid _ w₁ h₁ (attempt req inputs) :=
      attempt_alone hsticky hkey hnodup hu hids (hinputs inputs rfl)
    have htry : Alone (system cfg) tid
        (fun w' h' r => ∃ sel, r = some sel ∧ ∀ ss account,
          stickyDecision req h' = some (.graced ss account) → Reflected w account.accountId →
            SameRecord w w' account.accountId) w₁ h₁ (tryOnce req 3 inputs) := by
      refine hattempt.bind fun w₂ h₂ a ha => ?_
      rw [hsticky]
      have hfresh : a.isStale = false := by
        rw [Attempt.isStale, ha.1]
        cases a.selected <;> rfl
      exact ⟨_, if_neg (by rw [hfresh]; decide), ha.2⟩
    refine htry.bind ?_
    rintro w₂ h₂ _ ⟨sel, rfl, hsame⟩
    exact fun _ _ => hsame

end

def nearReset (status : AccountStatus) (primary : List (String × UsageEntry)) : World :=
  { plainWorld 1000 [⟨⟨"a", status, none, some 1005, some 900⟩, "plus"⟩] primary with
    stickySessions := [⟨"s", .codexSession, "a", 900⟩]
    runtime := [("a", { RuntimeEntry.fresh with resetAt := some 1005, blockedAt := some 900 })] }

def gracedAccount? : StickyPlan → Option String
  | .graced _ account => some account.accountId
  | _ => none

theorem graced_of_account {plan : StickyPlan} {id : String} (h : gracedAccount? plan = some id) :
    ∃ ss account, plan = .graced ss account ∧ account.accountId = id := by
  cases plan with
  | graced ss account => exact ⟨ss, account, rfl, some.inj h⟩
  | _ => cases h

end CodexOctopus.Balancer

import CodexOctopus.SelectionSoundness

/-!
# Calls that nothing interrupts

What a call of the load balancer does to the shared state if it runs alone: the exact
effect of a failure mark, and of a selection whose inputs are not cached.
-/

namespace CodexOctopus.Balancer

open List Python Interaction

/-! ## Marks -/

structure Marked (cfg : BalancerSettings) (account : PoolAccount) (failure : Failure)
    (now delay : ℚ) (w w' : World) : Prop where
  later : w.now ≤ now
  earlier : now ≤ w'.now
  accounts : w'.accounts = persistAlways account.toAccount
    (failureState now delay failure account.toAccount (runtimeOf account.id w.runtime)) w.accounts
  runtime : w'.runtime = runtimeAfter cfg now delay w.runtime (.mark account failure)
  primaryUsage : w'.primaryUsage = w.primaryUsage
  secondaryUsage : w'.secondaryUsage = w.secondaryUsage
  cache : w'.cache = []
  locked : account.id ∉ w'.locked

theorem mark_alone (cfg : BalancerSettings) (tid : ℕ) (w : World) (account : PoolAccount)
    (failure : Failure) :
    Alone (system cfg) tid (fun w' h r => r = none ∧ lastReading h = none ∧
      ∃ now delay, Marked cfg account failure now delay w w') w []
      ((Call.mark account failure).program cfg) := by
  intro e₁ w₁ r₁ h₁ e₂ w₂ r₂ h₂ e₃ w₃ r₃ h₃ e₄ w₄ r₄ h₄ e₅ w₅ r₅ h₅
  obtain ⟨hnow₁, hfree, -⟩ := World.exec_eq_some h₁
  have hle₂ := (World.exec_eq_some h₂).1
  have hle := (World.exec_now h₃).trans ((World.exec_now h₄).trans (World.exec_now h₅))
  have hr₂ := World.ans_eq_effect h₂
  obtain rfl := World.eq_effect h₁
  obtain rfl := World.eq_effect h₂
  obtain rfl := World.eq_effect h₃
  obtain rfl := World.eq_effect h₄
  obtain rfl := World.eq_effect h₅
  subst hr₂
  refine ⟨rfl, rfl, e₂.now, e₂.delay, hnow₁.trans hle₂, hle, rfl, rfl, rfl, rfl, rfl, ?_⟩
  have hlocked : account.id ∉ w.locked := of_decide_eq_true hfree
  dsimp only [World.effect, World.updateRuntime]
  rwa [erase_cons_head]

/-! ## Loading -/

structure Unwritten (w w' : World) : Prop where
  now : w.now ≤ w'.now
  accounts : w'.accounts = w.accounts
  primaryUsage : w'.primaryUsage = w.primaryUsage
  secondaryUsage : w'.secondaryUsage = w.secondaryUsage
  runtime : w'.runtime = w.runtime
  generation : w'.generation = w.generation

theorem Unwritten.refl (w : World) : Unwritten w w := ⟨le_rfl, rfl, rfl, rfl, rfl, rfl⟩

variable {w : World}

theorem Unwritten.trans {w₁ w₂ : World} (h₁₂ : Unwritten w₁ w₂) (h₀₁ : Unwritten w w₁) :
    Unwritten w w₂ where
  now := h₀₁.now.trans h₁₂.now
  accounts := h₁₂.accounts.trans h₀₁.accounts
  primaryUsage := h₁₂.primaryUsage.trans h₀₁.primaryUsage
  secondaryUsage := h₁₂.secondaryUsage.trans h₀₁.secondaryUsage
  runtime := h₁₂.runtime.trans h₀₁.runtime
  generation := h₁₂.generation.trans h₀₁.generation

def isRead : BalancerOp → Bool
  | .build _ | .sync _ _ _ | .persistIfCurrent _ _ | .mark _ _ | .recordErrors _ _
  | .recordSuccess _ | .persist _ _ | .invalidate => false
  | _ => true

theorem exec_unwritten {cfg : BalancerSettings} {tid : ℕ} {op : BalancerOp} {e : Reading}
    {w' : World} {r : op.Ans} (hop : isRead op = true) (h : w.exec cfg tid op e = some (w', r)) :
    Unwritten w w' := by
  have hnow := World.exec_now h
  have hw := World.eq_effect h
  cases op with
  | build | sync | persistIfCurrent | mark | recordErrors | recordSuccess | persist | invalidate =>
    cases hop
  | _ =>
    subst hw
    exact ⟨hnow, rfl, rfl, rfl, rfl, rfl⟩

def World.drawn (w : World) (accounts : List PoolAccount) : List PoolEntry :=
  accounts.map fun a => ⟨a, getItem a.id w.primaryUsage, getItem a.id w.secondaryUsage⟩

theorem poolEntries_latestUsage (w : World) (accounts : List PoolAccount) :
    poolEntries (w.latestUsage .primary (accounts.map fun a => a.id))
      (w.latestUsage .secondary (accounts.map fun a => a.id)) accounts = w.drawn accounts := by
  refine map_congr_left fun a ha => ?_
  have hkeep : ∀ x : String × UsageEntry, x.1 = a.id →
      decide (x.1 ∈ accounts.map fun a => a.id) = true := by
    intro x hx
    rw [hx]
    exact decide_eq_true (mem_map_of_mem ha)
  rw [World.latestUsage, World.latestUsage, getItem_filter hkeep, getItem_filter hkeep]

theorem Unwritten.drawn {w' : World} (h : Unwritten w w') (accounts : List PoolAccount) :
    w'.drawn accounts = w.drawn accounts := by
  rw [World.drawn, h.primaryUsage, h.secondaryUsage, World.drawn]

section

variable {cfg : BalancerSettings} {tid : ℕ} {w : World} {h : Log} {key : CacheKey}

variable {inputs : SelectionInputs} {accounts : List PoolAccount} {runtimeIds : List String}
  {account : PoolAccount}

theorem cacheInputs_alone :
    Alone (system cfg) tid (fun w' _ r => Unwritten w w' ∧ r = inputs) w h
      (cacheInputs key inputs) :=
  fun _ _ _ hexec => ⟨exec_unwritten rfl hexec, rfl⟩

theorem loadUsage_alone {view : FilterView} :
    Alone (system cfg) tid
      (fun w' _ r => Unwritten w w' ∧ r = ⟨w.drawn accounts, runtimeIds, none, view⟩) w h
      (loadUsage key runtimeIds view accounts) := by
  unfold loadUsage
  split_ifs with hnil
  · rw [hnil]
    exact cacheInputs_alone
  · intro e₁ w₁ primary h₁ e₂ w₂ secondary h₂
    have hu₁ := exec_unwritten rfl h₁
    have hu := (exec_unwritten rfl h₂).trans hu₁
    have hprimary : primary = w.latestUsage .primary (accounts.map fun a => a.id) :=
      World.ans_eq_effect h₁
    have hsecondary : secondary = w.latestUsage .secondary (accounts.map fun a => a.id) := by
      rw [World.ans_eq_effect h₂]
      exact congrArg (List.filter _) hu₁.secondaryUsage
    refine cacheInputs_alone.mono fun w' _ r hr => ⟨hr.1.trans hu, ?_⟩
    rw [hr.2, hprimary, hsecondary, poolEntries_latestUsage]

theorem latestAdditionalByKey_alone {limitName : String} {window : UsageWindow}
    {accountIds : List String} {since : Option ℚ} :
    Alone (system cfg) tid (fun w' _ _ => Unwritten w w') w h
      (latestAdditionalByKey cfg limitName window accountIds since) := by
  unfold latestAdditionalByKey
  split
  · exact .refl w
  · exact fun _ _ _ hexec => exec_unwritten rfl hexec

theorem readLimit_alone {limitName : String} {accountIds : List String} :
    Alone (system cfg) tid (fun w' _ _ => Unwritten w w') w h
      (readLimit cfg limitName accountIds) := by
  intro e₁ w₁ now h₁
  have hu₁ := exec_unwritten rfl h₁
  refine latestAdditionalByKey_alone.bind fun w₂ _ _ hu₂ => ?_
  refine latestAdditionalByKey_alone.bind fun w₃ _ _ hu₃ => ?_
  refine latestAdditionalByKey_alone.bind fun w₄ _ _ hu₄ => ?_
  refine latestAdditionalByKey_alone.bind fun w₅ _ _ hu₅ => ?_
  intro e₆ w₆ now' h₆
  exact (exec_unwritten rfl h₆).trans (hu₅.trans (hu₄.trans (hu₃.trans (hu₂.trans hu₁))))

def DrawnFrom (w : World) (runtimeIds : List String) (accounts : List PoolAccount)
    (inputs : SelectionInputs) : Prop :=
  inputs.runtimeIds = runtimeIds ∧
    ∃ drawn, drawn.Sublist accounts ∧ inputs.entries = w.drawn drawn

theorem drawnFrom_nil (w : World) {error : Option LoadError} {view : FilterView} :
    DrawnFrom w runtimeIds accounts ⟨[], runtimeIds, error, view⟩ :=
  ⟨rfl, [], nil_sublist _, rfl⟩

theorem loadLimited_alone {plans : Option ModelPlans} :
    Alone (system cfg) tid (fun w' _ r => Unwritten w w' ∧ DrawnFrom w runtimeIds accounts r) w h
      (loadLimited cfg key runtimeIds plans accounts) := by
  unfold loadLimited
  split
  · refine loadUsage_alone.mono fun w' _ r hr => ⟨hr.1, ?_⟩
    rw [hr.2]
    exact ⟨rfl, accounts, List.Sublist.refl _, rfl⟩
  · split_ifs
    · refine cacheInputs_alone.mono fun w' _ r hr => ⟨hr.1, ?_⟩
      rw [hr.2]
      exact drawnFrom_nil w
    · refine readLimit_alone.bind fun w₁ _ v hu₁ => ?_
      dsimp only
      split_ifs
      · refine cacheInputs_alone.mono fun w' _ r hr => ⟨hr.1.trans hu₁, ?_⟩
        rw [hr.2]
        exact drawnFrom_nil w
      · refine loadUsage_alone.mono fun w' _ r hr => ⟨hr.1.trans hu₁, ?_⟩
        rw [hr.2, hu₁.drawn]
        exact ⟨rfl, _, filter_sublist, rfl⟩

theorem loadFiltered_alone {plans : Option ModelPlans} :
    Alone (system cfg) tid (fun w' _ r => Unwritten w w' ∧ DrawnFrom w runtimeIds accounts r) w h
      (loadFiltered cfg key runtimeIds plans accounts) := by
  unfold loadFiltered
  dsimp only
  split
  · refine cacheInputs_alone.mono fun w' _ r hr => ⟨hr.1, ?_⟩
    rw [hr.2]
    exact drawnFrom_nil w
  · refine loadLimited_alone.mono fun w' _ r hr => ⟨hr.1, hr.2.1, ?_⟩
    obtain ⟨drawn, hsub, hentries⟩ := hr.2.2
    exact ⟨drawn, hsub.trans filter_sublist, hentries⟩

def World.scope (w : World) (key : CacheKey) : List PoolAccount :=
  w.accounts.filter fun a => key.accountIds.all (a.id ∈ ·)

theorem loadSelectionInputs_hit_or_load {Q : World → Log → SelectionInputs → Prop}
    (hhit : ∀ w' h' x, Unwritten w w' → x ∈ w.cache → x.1 = key → Q w' h' x.2.data)
    (hload : ∀ w' h' plans, Unwritten w w' → Alone (system cfg) tid Q w' h'
      (loadFiltered cfg key (w.accounts.map fun a => a.id) plans (w.scope key))) :
    Alone (system cfg) tid Q w h (loadSelectionInputs cfg key) := by
  intro e₁ w₁ cached h₁
  have hu₁ := exec_unwritten rfl h₁
  have hcached : World.cached { w with now := e₁.now } key = cached := (World.ans_eq_effect h₁).symm
  cases cached with
  | some inputs =>
    obtain ⟨expiresAt, hx⟩ := World.mem_cache_of_cached hcached
    exact hhit w₁ _ ⟨key, inputs, expiresAt⟩ hu₁ hx rfl
  | none =>
    intro e₂ w₂ rows h₂ e₃ w₃ plans h₃
    have hrows : rows = (w.scope key, w.accounts.map fun a => a.id) := by
      rw [World.ans_eq_effect h₂]
      change (w₁.accounts.filter _, w₁.accounts.map _) = _
      rw [hu₁.accounts, World.scope]
    subst hrows
    exact hload w₃ _ plans ((exec_unwritten rfl h₃).trans ((exec_unwritten rfl h₂).trans hu₁))

theorem loadSelectionInputs_alone {Q : World → Log → SelectionInputs → Prop}
    (hmiss : ∀ x ∈ w.cache, x.1 ≠ key)
    (hload : ∀ w' h' plans, Unwritten w w' → Alone (system cfg) tid Q w' h'
      (loadFiltered cfg key (w.accounts.map fun a => a.id) plans (w.scope key))) :
    Alone (system cfg) tid Q w h (loadSelectionInputs cfg key) :=
  loadSelectionInputs_hit_or_load (fun _ _ x _ hx hkey => absurd hkey (hmiss x hx)) hload

theorem DrawnFrom.exclude (hi : DrawnFrom w runtimeIds accounts inputs) (excluded : Finset String) :
    DrawnFrom w runtimeIds accounts (inputs.exclude excluded) := by
  obtain ⟨hids, drawn, hsub, hentries⟩ := hi
  refine ⟨hids, drawn.filter fun a => a.id ∉ excluded, filter_sublist.trans hsub, ?_⟩
  rw [SelectionInputs.exclude, hentries, World.drawn, filter_map]
  rfl

/-- **The inputs of a first attempt** are drawn from the tables as they are. -/
theorem loadChecked_alone {req : SelectRequest} (hmiss : ∀ x ∈ w.cache, x.1 ≠ req.key) :
    Alone (system cfg) tid
      (fun w' _ r => Unwritten w w' ∧ (∀ sel, r = .inl sel → sel.account = none) ∧
        ∀ inputs, r = .inr inputs →
          DrawnFrom w (w.accounts.map fun a => a.id) (w.scope req.key) inputs)
      w h (loadChecked cfg req) := by
  have hload : Alone (system cfg) tid
      (fun w' _ r => Unwritten w w' ∧
        DrawnFrom w (w.accounts.map fun a => a.id) (w.scope req.key) r)
      w h (loadSelectionInputs cfg req.key) := by
    refine loadSelectionInputs_alone hmiss fun w₁ h₁ plans hu₁ => ?_
    refine loadFiltered_alone.mono fun w' _ r hr => ⟨hr.1.trans hu₁, hr.2.1, ?_⟩
    obtain ⟨drawn, hsub, hentries⟩ := hr.2.2
    exact ⟨drawn, hsub, hentries.trans (hu₁.drawn drawn)⟩
  refine hload.bind fun w' h' inputs hi => ?_
  have hdrawn := hi.2.exclude req.excludeAccountIds
  dsimp only
  split
  · split_ifs
    · exact ⟨hi.1, by rintro _ ⟨⟩; rfl, by rintro _ ⟨⟩⟩
    · exact ⟨hi.1, by rintro _ ⟨⟩, by rintro _ ⟨⟩; exact hdrawn⟩
  · exact ⟨hi.1, by rintro _ ⟨⟩, by rintro _ ⟨⟩; exact hdrawn⟩

/-! ## Building -/

structure BuiltFrom (cfg : BalancerSettings) (w w' : World) (inputs : SelectionInputs)
    (built : List Candidate) : Prop where
  now : w.now ≤ w'.now
  accounts : w'.accounts = w.accounts
  generation : w'.generation = w.generation
  states : List.Forall₂ (fun e s => s.toAccountState =
    stateFromAccount w'.now (runtimeOf e.account.id w.runtime).toRuntimeState
      ⟨e.primary, e.secondary, cfg.usageRefreshIntervalSeconds⟩ e.account.toAccount)
    inputs.entries built
  runtime : ∀ id ∈ inputs.runtimeIds,
    (runtimeOf id w'.runtime).toRuntimeState = (runtimeOf id w.runtime).toRuntimeState

theorem exec_build {e : Reading} {w' : World} {built : List Candidate}
    (hids : ∀ x ∈ inputs.entries, x.account.id ∈ inputs.runtimeIds)
    (hexec : w.exec cfg tid (.build inputs) e = some (w', built)) :
    BuiltFrom cfg w w' inputs built := by
  have hbuilt := World.ans_eq_effect hexec
  have hnow := World.exec_now hexec
  have hruntime := World.exec_runtime hexec
  obtain rfl := World.eq_effect hexec
  refine ⟨hnow, rfl, rfl, ?_, fun id hid => ?_⟩
  · rw [hbuilt]
    have hall := forall₂_buildStates cfg e.now inputs.entries
      (pruneRuntime inputs.runtimeIds w.runtime)
    refine forall₂_iff_zip.mpr ⟨hall.length_eq, fun {x s} hmem => ?_⟩
    have hstate := (forall₂_iff_zip.mp hall).2 hmem
    rw [runtimeOf_pruneRuntime (hids x (of_mem_zip hmem).1)] at hstate
    exact hstate
  · rw [hruntime, runtimeAfter, buildStates_runtime, runtimeOf_pruneRuntime hid]

/-! ## Writing -/

def syncedState (s : AccountState) : RuntimeState :=
  ⟨s.resetAt, s.cooldownUntil, s.lastErrorAt, s.errorCount, s.blockedAt⟩

def isWrite : BalancerOp → Bool
  | .stickyUpsert _ _ _ | .sync _ _ _ | .watch | .persistIfCurrent _ _ => true
  | _ => false

abbrev Written : Log → Log → Prop := Grown fun e => isWrite e.op = true

theorem syncStates_alone {selected : Option String} {l : Paired} {accountId : String}
    {P : RuntimeState → Prop}
    (hl : ∀ x ∈ l, x.1.account.id = accountId → P (syncedState x.2.toAccountState))
    (hP : P (runtimeOf accountId w.runtime).toRuntimeState) :
    Alone (system cfg) tid
      (fun w' h' _ => Written h h' ∧ w'.accounts = w.accounts ∧ w'.generation = w.generation ∧
        P (runtimeOf accountId w'.runtime).toRuntimeState) w h (syncStates selected l) := by
  induction l generalizing w h with
  | nil => exact ⟨.refl, rfl, rfl, hP⟩
  | cons x rest ih =>
    obtain ⟨x, s⟩ := x
    intro e w₁ r h₁
    have hruntime := World.exec_runtime h₁
    have hP₁ : P (runtimeOf accountId w₁.runtime).toRuntimeState := by
      rw [hruntime, runtimeAfter]
      by_cases hid : x.account.id = accountId
      · subst hid
        rw [runtimeOf_setItem_self]
        exact hl _ mem_cons_self rfl
      · rw [runtimeOf_setItem_of_ne hid]
        exact hP
    obtain rfl := World.eq_effect h₁
    refine (ih (fun y hy => hl y (mem_cons_of_mem _ hy)) hP₁).mono fun w' h' _ hw' => ?_
    exact ⟨hw'.1.trans (.cons rfl .refl), hw'.2⟩

structure Current (w : World) (l : Paired) : Prop where
  row : ∀ x ∈ l, x.1.account ∈ w.accounts
  nodup : (l.map fun x => x.1.account.id).Nodup

theorem persistCurrent_of_mem {rows : List PoolAccount} (hmem : account ∈ rows)
    (state : AccountState) :
    (persistCurrent account.toAccount state rows).2 = true := by
  unfold persistCurrent
  split_ifs
  · rfl
  · exact any_eq_true.mpr ⟨account, hmem, decide_eq_true ⟨rfl, rfl⟩⟩

theorem mem_persistCurrent_of_ne {a : PoolAccount} {rows : List PoolAccount} (hmem : a ∈ rows)
    (hne : a.id ≠ account.id) (state : AccountState) :
    a ∈ (persistCurrent account.toAccount state rows).1 := by
  unfold persistCurrent
  split_ifs
  · exact hmem
  · refine mem_map.mpr ⟨a, hmem, if_neg fun hcurrent => hne ?_⟩
    exact (of_decide_eq_true hcurrent).1

def World.rowsOf (w : World) (accountId : String) : List PoolAccount :=
  w.accounts.filter fun a => a.id = accountId

theorem rowsOf_persistCurrent {accountId : String} {state : AccountState}
    (hsame : account.id = accountId → account.toAccount.columns = state.columns)
    (rows : List PoolAccount) :
    (persistCurrent account.toAccount state rows).1.filter (fun a => a.id = accountId) =
      rows.filter fun a => a.id = accountId := by
  unfold persistCurrent
  split_ifs with hcolumns
  · rfl
  · have hne : account.id ≠ accountId := fun hid => hcolumns (hsame hid)
    rw [Table.updateWhere, filter_map]
    have hids : ((fun a : PoolAccount => decide (a.id = accountId)) ∘ fun r =>
        if isCurrent account.toAccount r = true then withColumns state.columns r else r) =
          fun a => decide (a.id = accountId) := by
      funext r
      rw [Function.comp_apply, apply_ite (fun a : PoolAccount => decide (a.id = accountId))]
      exact ite_self _
    rw [hids, map_congr_left, map_id]
    intro r hr
    refine if_neg fun hcurrent => hne ?_
    exact (of_decide_eq_true hcurrent).1.symm.trans (of_decide_eq_true (mem_filter.mp hr).2)

/-- **Conditional writes against current rows all succeed**, and leave the rows of an account alone
whose state has the columns of its row. -/
theorem persistSelectionState_alone {l : Paired} (hl : Current w l) :
    Alone (system cfg) tid
      (fun w' h' stale => Written h h' ∧ stale = [] ∧ w'.runtime = w.runtime ∧
        w'.generation = w.generation ∧ w'.watches = w.watches ∧
        ∀ accountId, (∀ x ∈ l, x.1.account.id = accountId →
          x.1.account.toAccount.columns = x.2.toAccountState.columns) →
          w'.rowsOf accountId = w.rowsOf accountId)
      w h (persistSelectionState l) := by
  induction l generalizing w h with
  | nil => exact ⟨.refl, rfl, rfl, rfl, rfl, fun _ _ => rfl⟩
  | cons x rest ih =>
    obtain ⟨x, s⟩ := x
    intro e w₁ persisted h₁
    have hpersisted : persisted = true := by
      rw [World.ans_eq_effect h₁]
      exact persistCurrent_of_mem (hl.row _ mem_cons_self) _
    have haccounts := World.exec_accounts h₁
    obtain rfl := World.eq_effect h₁
    have hcurrent : Current (World.effect cfg tid e { w with now := e.now }
        (.persistIfCurrent x.account s.toAccountState)).1 rest := by
      obtain ⟨hfresh, hnodup⟩ := nodup_cons.mp hl.nodup
      refine ⟨fun y hy => ?_, hnodup⟩
      rw [haccounts]
      refine mem_persistCurrent_of_ne (hl.row y (mem_cons_of_mem _ hy)) (fun hid => hfresh ?_) _
      exact mem_map.mpr ⟨y, hy, hid⟩
    refine (ih hcurrent).bind ?_
    rintro w' h' stale ⟨hwritten, rfl, hruntime, hgeneration, hwatches, hrows⟩
    rw [hpersisted]
    refine ⟨hwritten.trans (.cons rfl .refl), rfl, hruntime, hgeneration, hwatches, ?_⟩
    intro accountId hsame
    rw [hrows accountId fun y hy => hsame y (mem_cons_of_mem _ hy), World.rowsOf, haccounts]
    exact rowsOf_persistCurrent (hsame _ mem_cons_self) _

theorem nodup_zip {α β γ : Type} {f : α → γ} {l : List α} (hl : (l.map f).Nodup) (l' : List β) :
    ((l.zip l').map fun x => f x.1).Nodup := by
  induction l generalizing l' with
  | nil => exact nodup_nil
  | cons a l ih =>
    cases l' with
    | nil => exact nodup_nil
    | cons b l' =>
      obtain ⟨hfresh, hl⟩ := nodup_cons.mp hl
      refine nodup_cons.mpr ⟨fun hmem => hfresh ?_, ih hl l'⟩
      obtain ⟨x, hx, hxa⟩ := mem_map.mp hmem
      exact mem_map.mpr ⟨x.1, (of_mem_zip hx).1, hxa⟩

/-- **The end of an attempt**: the states of its choice are written back, and no write fails. -/
theorem writeBack_alone {req : SelectRequest} {choice : Choice} (accountId : String)
    (P : RuntimeState → Prop) (hrows : ∀ x ∈ inputs.entries, x.account ∈ w.accounts)
    (hnodup : (inputs.entries.map fun x => x.account.id).Nodup)
    (hsync : ∀ x ∈ inputs.entries.zip choice.1, x.1.account.id = accountId →
      P (syncedState x.2.toAccountState)) (hP : P (runtimeOf accountId w.runtime).toRuntimeState) :
    Alone (system cfg) tid
      (fun w' h' a => Written h h' ∧ P (runtimeOf accountId w'.runtime).toRuntimeState ∧
        a = ⟨choice.2.account.bind
          (selectedSnapshot inputs.entries (choice.1.map (mergeSelected choice.2.account))),
          choice.2.error, []⟩ ∧
        ((∀ x ∈ inputs.entries.zip (choice.1.map (mergeSelected choice.2.account)),
          x.1.account.id = accountId →
            x.1.account.toAccount.columns = x.2.toAccountState.columns) →
          w'.rowsOf accountId = w.rowsOf accountId) ∧
        (req.sticky = none → ∃ watch, remembered tid w'.watches = some watch ∧
          watch.generation = w'.generation)) w h (do
      syncStates (choice.2.account.map fun a => a.accountId) (inputs.entries.zip choice.1)
      whenever req.sticky.isNone (perform .watch)
      let stale ← persistSelectionState
        (inputs.entries.zip (choice.1.map (mergeSelected choice.2.account)))
      pure (⟨choice.2.account.bind
        (selectedSnapshot inputs.entries (choice.1.map (mergeSelected choice.2.account))),
        choice.2.error, stale⟩ : Attempt)) := by
  refine (syncStates_alone hsync hP).bind fun w₁ h₁ _ hw₁ => ?_
  obtain ⟨hwritten₁, haccounts₁, hgeneration₁, hP₁⟩ := hw₁
  have hwatch : Alone (system cfg) tid
      (fun w₂ h₂ _ => Written h₁ h₂ ∧ Unwritten w₁ w₂ ∧ (req.sticky = none →
        ∃ watch, remembered tid w₂.watches = some watch ∧ watch.generation = w₂.generation))
      w₁ h₁ (whenever req.sticky.isNone (perform .watch)) := by
    cases hsticky : req.sticky with
    | some s => exact ⟨.refl, .refl w₁, by rintro ⟨⟩⟩
    | none =>
      intro e w₂ r h₂
      refine ⟨.cons rfl .refl, exec_unwritten rfl h₂, fun _ => ?_⟩
      obtain rfl := World.eq_effect h₂
      exact ⟨w₁.watching, by simp [remembered, World.effect, World.watching], rfl⟩
  refine hwatch.bind fun w₂ h₂ _ hw₂ => ?_
  obtain ⟨hwritten₂, hu₂, hremembered⟩ := hw₂
  have haccounts₂ : w₂.accounts = w.accounts := hu₂.accounts.trans haccounts₁
  have hcurrent : Current w₂
      (inputs.entries.zip (choice.1.map (mergeSelected choice.2.account))) := by
    refine ⟨fun x hx => ?_, nodup_zip hnodup _⟩
    rw [haccounts₂]
    exact hrows x.1 (of_mem_zip hx).1
  refine (persistSelectionState_alone hcurrent).bind ?_
  rintro w₃ h₃ stale ⟨hwritten₃, rfl, hruntime₃, hgeneration₃, hwatches₃, hframe⟩
  refine ⟨hwritten₃.trans (hwritten₂.trans hwritten₁), ?_, rfl, fun hsame => ?_, fun hsticky => ?_⟩
  · rw [hruntime₃, hu₂.runtime]
    exact hP₁
  · rw [hframe accountId hsame, World.rowsOf, haccounts₂, World.rowsOf]
  · rw [hwatches₃, hgeneration₃]
    exact hremembered hsticky

end

end CodexOctopus.Balancer

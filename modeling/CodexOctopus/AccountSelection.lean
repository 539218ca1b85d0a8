import CodexOctopus.BalancerWorld

/-!
# The calls of the load balancer

`LoadBalancer.select_account` with `_load_selection_inputs` and `_select_with_stickiness`,
the failure marks, `record_errors`, `record_success`, and `_select_account_with_budget` of
the proxy service, as programs over the operations of `BalancerOp`. The programs follow
the source line by line; what the source computes without touching anything shared is an
ordinary function.

Not modelled: log lines, the degradation status (it only words an error message), and the
time budget of a request.

At the end, the functions that read a history: how many attempts a call has made, what it
built last, which of its conditional writes have failed since.
-/

namespace CodexOctopus.Balancer

open Python

open Interaction (Prog Event History System)

abbrev BalancerM : Type → Type := Prog BalancerOp BalancerOp.Ans

abbrev perform (op : BalancerOp) : BalancerM op.Ans := Prog.perform op

def whenever (c : Bool) (p : BalancerM Unit) : BalancerM Unit := if c then p else pure ()

/-! ## Loading the inputs -/

def truthy (text : Option String) : Bool := text.any (· ≠ "")

def effectiveLimitName (cfg : BalancerSettings) (key : CacheKey) : Option String :=
  if truthy key.additionalLimitName then key.additionalLimitName
  else key.model.bind cfg.gatedLimitName

def hasRegistryEntry (plans : Option ModelPlans) (model : String) : Bool :=
  plans.any fun plans => (getItem (lower (strip model)) plans).isSome

def planSupports (plans : Option ModelPlans) (model planType : String) : Bool :=
  plans.all fun plans => planType ∈ (getItem model plans).getD []

def passesModel (cfg : BalancerSettings) (key : CacheKey) (plans : Option ModelPlans)
    (account : PoolAccount) : Bool :=
  match key.model with
  | none => true
  | some model =>
    if model ≠ "" && ((effectiveLimitName cfg key).isNone || hasRegistryEntry plans model) then
      planSupports plans model account.planType
    else true

inductive QuotaEligibility : Type where
  | dataUnavailable
  | quotaExhausted
  | eligible
  deriving DecidableEq

def additionalUsageIsExhausted (now : ℚ) (r : AdditionalUsage) : Bool :=
  if r.resetAt.any (· ≤ toInt now) then false else 100 ≤ r.usedPercent

def additionalQuotaEligibility (v : LimitView) (accountId : String) : QuotaEligibility :=
  let ofAccount (rows : List AdditionalUsage) := rows.find? fun r => r.accountId = accountId
  let latestPrimary := ofAccount v.latestPrimary
  let latestSecondary := ofAccount v.latestSecondary
  let primary := ofAccount v.freshPrimary
  let secondary := ofAccount v.freshSecondary
  if latestPrimary.isNone && latestSecondary.isNone then .dataUnavailable
  else if latestPrimary.isSome && primary.isNone then .dataUnavailable
  else if latestSecondary.isSome && secondary.isNone then .dataUnavailable
  else if primary.any (additionalUsageIsExhausted v.now) then .quotaExhausted
  else if secondary.any (additionalUsageIsExhausted v.now) then .quotaExhausted
  else .eligible

def latestAdditionalByKey (cfg : BalancerSettings) (limitName : String) (window : UsageWindow)
    (accountIds : List String) (since : Option ℚ) : BalancerM (List AdditionalUsage) :=
  match cfg.canonicalQuotaKey limitName with
  | none => pure []
  | some quotaKey => perform (.latestAdditional quotaKey window accountIds since)

def readLimit (cfg : BalancerSettings) (limitName : String) (accountIds : List String) :
    BalancerM LimitView := do
  let now ← perform .now
  let freshSince := now - max (cfg.usageRefreshIntervalSeconds * 2) 180
  let latestPrimary ← latestAdditionalByKey cfg limitName .primary accountIds none
  let latestSecondary ← latestAdditionalByKey cfg limitName .secondary accountIds none
  let freshPrimary ← latestAdditionalByKey cfg limitName .primary accountIds (some freshSince)
  let freshSecondary ← latestAdditionalByKey cfg limitName .secondary accountIds (some freshSince)
  let now ← perform .now
  pure ⟨now, latestPrimary, latestSecondary, freshPrimary, freshSecondary⟩

def passesLimit (v : LimitView) (account : PoolAccount) : Bool :=
  additionalQuotaEligibility v account.id = .eligible

def limitError (v : LimitView) (accounts : List PoolAccount) : LoadError :=
  if accounts.any fun a => additionalQuotaEligibility v a.id = .dataUnavailable then
    .additionalQuotaDataUnavailable
  else .noAdditionalQuotaEligibleAccounts

def poolEntries (primary secondary : List (String × UsageEntry)) (accounts : List PoolAccount) :
    List PoolEntry :=
  accounts.map fun a => ⟨a, getItem a.id primary, getItem a.id secondary⟩

def cacheInputs (key : CacheKey) (inputs : SelectionInputs) : BalancerM SelectionInputs := do
  perform (.cacheSet key inputs)
  pure inputs

def loadUsage (key : CacheKey) (runtimeIds : List String) (view : FilterView)
    (accounts : List PoolAccount) : BalancerM SelectionInputs :=
  if accounts = [] then cacheInputs key ⟨[], runtimeIds, none, view⟩
  else do
    let accountIds := accounts.map fun a => a.id
    let primary ← perform (.latestUsage .primary accountIds)
    let secondary ← perform (.latestUsage .secondary accountIds)
    cacheInputs key ⟨poolEntries primary secondary accounts, runtimeIds, none, view⟩

def loadLimited (cfg : BalancerSettings) (key : CacheKey) (runtimeIds : List String)
    (plans : Option ModelPlans) (accounts : List PoolAccount) : BalancerM SelectionInputs :=
  match (effectiveLimitName cfg key).filter (· ≠ "") with
  | none => loadUsage key runtimeIds ⟨plans, none⟩ accounts
  | some limitName =>
    if accounts = [] then cacheInputs key ⟨[], runtimeIds, none, ⟨plans, none⟩⟩
    else do
      let v ← readLimit cfg limitName (accounts.map fun a => a.id)
      let eligible := accounts.filter (passesLimit v)
      if eligible = [] then
        cacheInputs key ⟨[], runtimeIds, some (limitError v accounts), ⟨plans, some v⟩⟩
      else loadUsage key runtimeIds ⟨plans, some v⟩ eligible

def loadFiltered (cfg : BalancerSettings) (key : CacheKey) (runtimeIds : List String)
    (plans : Option ModelPlans) (accounts : List PoolAccount) : BalancerM SelectionInputs :=
  let supported := accounts.filter (passesModel cfg key plans)
  if truthy key.model && supported = [] then
    -- an empty scope is no error
    let error := if accounts = [] then none else some LoadError.noPlanSupportForModel
    cacheInputs key ⟨[], runtimeIds, error, ⟨plans, none⟩⟩
  else loadLimited cfg key runtimeIds plans supported

def loadSelectionInputs (cfg : BalancerSettings) (key : CacheKey) : BalancerM SelectionInputs := do
  match ← perform (.cacheGet key) with
  | some inputs => pure inputs
  | none =>
    let (accounts, runtimeIds) ← perform (.listAccounts key.accountIds)
    let plans ← perform .modelPlans
    loadFiltered cfg key runtimeIds plans accounts

/-! ## One attempt -/

structure StickyRequest where
  stickyKey : String
  stickyKind : StickySessionKind
  reallocateSticky : Bool
  stickyMaxAgeSeconds : Option ℕ
  deriving DecidableEq

structure SelectRequest where
  sticky : Option StickyRequest
  preferEarlierReset : Bool
  routingStrategy : RoutingStrategy
  model : Option String
  additionalLimitName : Option String
  accountIds : Option (Finset String)
  excludeAccountIds : Finset String
  budgetThresholdPct : ℚ
  deriving DecidableEq

namespace SelectRequest

def key (req : SelectRequest) : CacheKey := ⟨req.model, req.additionalLimitName, req.accountIds⟩

def options (req : SelectRequest) (draw : ℚ) : SelectOptions :=
  ⟨req.preferEarlierReset, req.routingStrategy, true, false, draw⟩

def stickyArgs (req : SelectRequest) (s : StickyRequest) : StickyArgs :=
  ⟨s.stickyKind, s.reallocateSticky, s.stickyMaxAgeSeconds, req.budgetThresholdPct,
    req.preferEarlierReset, req.routingStrategy⟩

end SelectRequest

abbrev Choice : Type := List Candidate × SelectionResult

def chooseFrom (req : SelectRequest) (states : List Candidate) : BalancerM Choice := do
  let current ← perform .now
  let draw ← perform .random
  pure (selectAccount current (req.options draw) states)

def takePinned (s : StickyRequest) (states : List Candidate) (account : Candidate) :
    BalancerM Choice := do
  whenever s.stickyMaxAgeSeconds.isSome
    (perform (.stickyUpsert s.stickyKey s.stickyKind account.accountId))
  pure (states, ⟨some account, none⟩)

def takeFallback (req : SelectRequest) (s : StickyRequest) (delete persist : Bool)
    (states : List Candidate) : BalancerM Choice := do
  whenever delete (perform (.stickyDelete s.stickyKey s.stickyKind))
  let choice ← chooseFrom req states
  match choice.2.account with
  | none => pure choice
  | some account =>
    whenever persist (perform (.stickyUpsert s.stickyKey s.stickyKind account.accountId))
    pure choice

def followPlan (req : SelectRequest) (s : StickyRequest) : StickyPlan → BalancerM Choice
  | .pinned states account => takePinned s states account
  | .graced states account => takePinned s states account
  | .fallback states delete persist => takeFallback req s delete persist states

def selectWithStickiness (req : SelectRequest) (s : StickyRequest) (states : List Candidate) :
    BalancerM Choice :=
  if s.stickyKey = "" then chooseFrom req states
  else do
    let existing ← perform (.stickyGet s.stickyKey s.stickyKind s.stickyMaxAgeSeconds)
    let clock ← perform .stickyClock
    followPlan req s (stickyPlan (req.stickyArgs s) clock (existing.filter (· ≠ "")) states)

def choose (req : SelectRequest) (states : List Candidate) : BalancerM Choice :=
  match req.sticky with
  | none => chooseFrom req states
  | some s => selectWithStickiness req s states

abbrev Paired : Type := List (PoolEntry × Candidate)

def syncStates (selected : Option String) : Paired → BalancerM Unit
  | [] => pure ()
  | (e, s) :: rest => do
    perform (.sync e.account s (selected = some s.accountId))
    syncStates selected rest

def mergeSelected (account : Option Candidate) (s : Candidate) : Candidate :=
  match account with
  | none => s
  | some a =>
    if a.accountId = s.accountId then
      { s with status := a.status, deactivationReason := a.deactivationReason }
    else s

def persistSelectionState : Paired → BalancerM (List String)
  | [] => pure []
  | (e, s) :: rest => do
    let persisted ← perform (.persistIfCurrent e.account s.toAccountState)
    let stale ← persistSelectionState rest
    pure (if persisted then stale else e.account.id :: stale)

def selectedSnapshot (entries : List PoolEntry) (states : List Candidate) (account : Candidate) :
    Option PoolAccount :=
  (entries.find? fun e => e.account.id = account.accountId).map fun e =>
    let resetAt :=
      match states.find? fun s => s.accountId = account.accountId with
      | some s => (orNone s.resetAt).map toInt
      | none => e.account.resetAt
    { e.account with
      status := account.status
      deactivationReason := account.deactivationReason
      resetAt := resetAt }

structure Attempt where
  selected : Option PoolAccount
  error : Option SelectionError
  stale : List String
  deriving DecidableEq

def attempt (req : SelectRequest) (inputs : SelectionInputs) : BalancerM Attempt := do
  let built ← perform (.build inputs)
  let (states, result) ← choose req built
  syncStates (result.account.map fun a => a.accountId) (inputs.entries.zip states)
  let merged := states.map (mergeSelected result.account)
  -- only the loop without a sticky key looks for changes during its write
  whenever req.sticky.isNone (perform .watch)
  let stale ← persistSelectionState (inputs.entries.zip merged)
  pure ⟨result.account.bind (selectedSnapshot inputs.entries merged), result.error, stale⟩

/-! ## The loop -/

structure AccountSelection where
  account : Option PoolAccount
  loadError : Option LoadError
  error : Option SelectionError
  deriving DecidableEq

def AccountSelection.nothing : AccountSelection := ⟨none, none, none⟩

def Attempt.isStale (a : Attempt) : Bool := a.selected.any fun account => account.id ∈ a.stale

def verdict (sticky : Bool) (left : ℕ) (changed : Bool × Bool) (a : Attempt) :
    Option AccountSelection :=
  if a.isStale then if left = 0 then some .nothing else none
  else if !sticky && a.selected.isSome && changed.1 && 0 < left then none
  else if !sticky && a.selected.isNone && a.error = some .noAvailableAccounts && changed.2 &&
      0 < left then none
  else some ⟨a.selected, none, a.error⟩

def tryOnce (req : SelectRequest) (left : ℕ) (inputs : SelectionInputs) :
    BalancerM (Option AccountSelection) := do
  let a ← attempt req inputs
  match req.sticky with
  | some _ => pure (verdict true left (false, false) a)
  | none =>
    let changed ← perform .settle
    pure (verdict false left changed a)

def loadChecked (cfg : BalancerSettings) (req : SelectRequest) :
    BalancerM (AccountSelection ⊕ SelectionInputs) := do
  let inputs ← loadSelectionInputs cfg req.key
  let inputs := inputs.exclude req.excludeAccountIds
  match inputs.error with
  | some e => if inputs.entries = [] then pure (.inl ⟨none, some e, none⟩) else pure (.inr inputs)
  | none => pure (.inr inputs)

def selectLoop (cfg : BalancerSettings) (req : SelectRequest) :
    ℕ → SelectionInputs → BalancerM AccountSelection
  | 0, inputs => do
    let result ← tryOnce req 0 inputs
    pure (result.getD .nothing)
  | left + 1, inputs => do
    match ← tryOnce req (left + 1) inputs with
    | some selection => pure selection
    | none =>
      match ← loadChecked cfg req with
      | .inl selection => pure selection
      | .inr inputs => selectLoop cfg req left inputs

def maxSelectionAttempts : ℕ := 4

def selectFrom (cfg : BalancerSettings) (req : SelectRequest) : BalancerM AccountSelection := do
  match ← loadChecked cfg req with
  | .inl selection => pure selection
  | .inr inputs => selectLoop cfg req (maxSelectionAttempts - 1) inputs

def selectPreferred (cfg : BalancerSettings) (preferred : Option String) (req : SelectRequest) :
    BalancerM AccountSelection :=
  match preferred.filter fun id => id ∉ req.excludeAccountIds && req.accountIds.all (id ∈ ·) with
  | none => pure .nothing
  | some id => selectFrom cfg { req with accountIds := some {id}, excludeAccountIds := ∅ }

def selectWithBudget (cfg : BalancerSettings) (preferred : Option String) (req : SelectRequest) :
    BalancerM AccountSelection := do
  let first ← selectPreferred cfg preferred req
  if first.account.isSome then pure first
  else do
    let selection ← selectFrom cfg req
    pure (if selection.account.any (·.id ∈ req.excludeAccountIds) then .nothing else selection)

/-! ## The other calls -/

def markFailure (account : PoolAccount) (failure : Failure) : BalancerM Unit := do
  perform (.acquire account.id)
  let state ← perform (.mark account failure)
  perform (.persist account state)
  perform .invalidate
  perform (.release account.id)

def recordErrors (account : PoolAccount) (count : ℕ) : BalancerM Unit :=
  if count < 1 then pure ()
  else do
    perform (.acquire account.id)
    let state ← perform (.recordErrors account count)
    let _ ← perform (.persistIfCurrent account state)
    perform (.release account.id)

def recordSuccess (accountId : String) : BalancerM Unit := do
  perform (.acquire accountId)
  perform (.recordSuccess accountId)
  perform (.release accountId)

inductive Call : Type where
  | select (req : SelectRequest)
  | selectWithBudget (preferred : Option String) (req : SelectRequest)
  | mark (account : PoolAccount) (failure : Failure)
  | recordErrors (account : PoolAccount) (count : ℕ)
  | recordSuccess (accountId : String)
  deriving DecidableEq

def Call.program (cfg : BalancerSettings) : Call → BalancerM (Option AccountSelection)
  | select req => do pure (some (← selectFrom cfg req))
  | selectWithBudget preferred req => do pure (some (← Balancer.selectWithBudget cfg preferred req))
  | mark account failure => do
    markFailure account failure
    pure none
  | recordErrors account count => do
    Balancer.recordErrors account count
    pure none
  | recordSuccess accountId => do
    Balancer.recordSuccess accountId
    pure none

def system (cfg : BalancerSettings) :
    System World BalancerOp BalancerOp.Ans (Option AccountSelection) Call Reading Elsewhere where
  exec := World.exec cfg
  program := Call.program cfg
  environment w x := some (w.elsewhere x)

abbrev Log : Type := History BalancerOp.Ans

/-! ## Reading a history -/

def built? : Event BalancerOp.Ans → Option (SelectionInputs × List Candidate)
  | ⟨.build inputs, states⟩ => some (inputs, states)
  | _ => none

def failed? : Event BalancerOp.Ans → Option String
  | ⟨.persistIfCurrent account _, false⟩ => some account.id
  | _ => none

def reading? : Event BalancerOp.Ans → Option ℚ
  | ⟨.now, t⟩ => some t
  | ⟨.stickyClock, clock⟩ => some clock.grace
  | _ => none

def lastBuilt (h : Log) : Option (SelectionInputs × List Candidate) := h.findSome? built?

def attempts (h : Log) : ℕ := h.countP fun e => (built? e).isSome

def sinceBuilt (h : Log) : Log := h.takeWhile fun e => (built? e).isNone

def staleIds (h : Log) : List String := (sinceBuilt h).filterMap failed?

def lastReading (h : Log) : Option ℚ := h.findSome? reading?

end CodexOctopus.Balancer

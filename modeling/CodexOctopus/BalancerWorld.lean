import Mathlib.Data.Finset.Basic
import CodexOctopus.BalancerRuntime
import CodexOctopus.StickySelection
import CodexOctopus.Threads

/-!
# What selections share

The state that the calls of the load balancer work on: the tables `accounts`,
`usage_history`, `additional_usage_history` and `sticky_sessions`, the model registry, the
runtime entries with their locks, and the cache of selection inputs. The calls are
asynchronous: each operation below is what one of them does between two points where it
can be suspended, or less.

Two kinds of values that a call remembers mean nothing except in a comparison with the
shared state later on: the generation of the cache, and the runtime entries before the
write. They are kept here under the number of the thread (`loads`, `watches`) rather than
handed to the program.

Of the rows that `list_accounts` and `latest_by_account` return for accounts outside the
scope of the call, only the ids of the accounts are ever used.
-/

namespace CodexOctopus

open List Python

open Interaction (Prog)

/-! ## Selection inputs -/

structure CacheKey where
  model : Option String
  additionalLimitName : Option String
  accountIds : Option (Finset String)
  deriving DecidableEq

inductive UsageWindow : Type where
  | primary
  | secondary
  deriving DecidableEq

structure AdditionalUsage where
  accountId : String
  quotaKey : String
  window : UsageWindow
  usedPercent : ℚ
  resetAt : Option ℤ
  recordedAt : ℚ

abbrev ModelPlans : Type := List (String × List String)

structure LimitView where
  now : ℚ
  latestPrimary : List AdditionalUsage
  latestSecondary : List AdditionalUsage
  freshPrimary : List AdditionalUsage
  freshSecondary : List AdditionalUsage

structure FilterView where
  modelPlans : Option ModelPlans
  limit : Option LimitView

inductive LoadError : Type where
  | noPlanSupportForModel
  | additionalQuotaDataUnavailable
  | noAdditionalQuotaEligibleAccounts
  deriving DecidableEq

def LoadError.code : LoadError → String
  | noPlanSupportForModel => "no_plan_support_for_model"
  | additionalQuotaDataUnavailable => "additional_quota_data_unavailable"
  | noAdditionalQuotaEligibleAccounts => "no_additional_quota_eligible_accounts"

def LoadError.message (model : Option String) (e : LoadError) : String :=
  let quoted := "'" ++ model.getD "None" ++ "'"
  match e with
  | noPlanSupportForModel => "No accounts with a plan supporting model " ++ quoted
  | additionalQuotaDataUnavailable =>
    "No fresh additional quota data available for model " ++ quoted
  | noAdditionalQuotaEligibleAccounts =>
    "No accounts with available additional quota for model " ++ quoted

structure SelectionInputs where
  entries : List Balancer.PoolEntry
  runtimeIds : List String
  error : Option LoadError
  view : FilterView

def SelectionInputs.exclude (excluded : Finset String) (inputs : SelectionInputs) :
    SelectionInputs :=
  { inputs with entries := inputs.entries.filter fun e => e.account.id ∉ excluded }

namespace Balancer

/-! ## The shared state -/

structure StickySession where
  key : String
  kind : StickySessionKind
  accountId : String
  updatedAt : ℚ

structure CachedSelectionInputs where
  data : SelectionInputs
  expiresAt : ℚ

structure FailureFields where
  resetAt : Option ℚ
  cooldownUntil : Option ℚ
  errorCount : ℕ
  lastErrorAt : Option ℚ
  deriving DecidableEq

def failureFields (r : RuntimeState) : FailureFields :=
  ⟨r.resetAt, r.cooldownUntil, r.errorCount, r.lastErrorAt⟩

structure Watch where
  generation : ℕ
  runtime : List (String × FailureFields)

structure World where
  /-- a lower bound of `time.time()` -/
  now : ℚ
  accounts : List PoolAccount
  primaryUsage : List (String × UsageEntry)
  secondaryUsage : List (String × UsageEntry)
  /-- the newest first -/
  additionalUsage : List AdditionalUsage
  modelPlans : Option ModelPlans
  stickySessions : List StickySession
  runtime : RuntimeMap
  locked : List String
  cache : List (CacheKey × CachedSelectionInputs)
  generation : ℕ
  loads : List (ℕ × ℕ)
  watches : List (ℕ × Watch)

structure Reading where
  now : ℚ
  /-- `random.random()` -/
  draw : ℚ
  delay : ℚ
  sticky : StickyClock

def StickyClock.at (t : ℚ) : StickyClock := ⟨t, t, t, t, t, le_rfl, le_rfl, le_rfl, le_rfl⟩

def Reading.at (t : ℚ) : Reading := ⟨t, 0, 0, StickyClock.at t⟩

/-! ## Operations -/

inductive BalancerOp : Type where
  /-- `cache.get`; if there is nothing, the generation is remembered -/
  | cacheGet (key : CacheKey)
  | cacheSet (key : CacheKey) (inputs : SelectionInputs)
  | listAccounts (accountIds : Option (Finset String))
  | modelPlans
  | latestAdditional (quotaKey : String) (window : UsageWindow) (accountIds : List String)
      (since : Option ℚ)
  | latestUsage (window : UsageWindow) (accountIds : List String)
  | now
  | random
  /-- `_prune_runtime` and `_build_states` -/
  | build (inputs : SelectionInputs)
  | stickyGet (key : String) (kind : StickySessionKind) (maxAgeSeconds : Option ℕ)
  | stickyClock
  | stickyUpsert (key : String) (kind : StickySessionKind) (accountId : String)
  | stickyDelete (key : String) (kind : StickySessionKind)
  /-- `_sync_runtime_state_for_account` -/
  | sync (account : PoolAccount) (state : Candidate) (selected : Bool)
  | watch
  /-- `_persist_state_if_current` -/
  | persistIfCurrent (account : PoolAccount) (state : AccountState)
  | settle
  | acquire (accountId : String)
  | release (accountId : String)
  /-- `_state_for`, the handler and `_sync_runtime_state` of a failure mark -/
  | mark (account : PoolAccount) (failure : Failure)
  | recordErrors (account : PoolAccount) (count : ℕ)
  | recordSuccess (accountId : String)
  | persist (account : PoolAccount) (state : AccountState)
  | invalidate

abbrev BalancerOp.Ans : BalancerOp → Type
  | cacheGet _ => Option SelectionInputs
  | cacheSet _ _ => Unit
  | listAccounts _ => List PoolAccount × List String
  | modelPlans => Option ModelPlans
  | latestAdditional _ _ _ _ => List AdditionalUsage
  | latestUsage _ _ => List (String × UsageEntry)
  | now => ℚ
  | random => ℚ
  | build _ => List Candidate
  | stickyGet _ _ _ => Option String
  | stickyClock => StickyClock
  | stickyUpsert _ _ _ => Unit
  | stickyDelete _ _ => Unit
  | sync _ _ _ => Unit
  | watch => Unit
  | persistIfCurrent _ _ => Bool
  | settle => Bool × Bool
  | acquire _ => Unit
  | release _ => Unit
  | mark _ _ => AccountState
  | recordErrors _ _ => AccountState
  | recordSuccess _ => Unit
  | persist _ _ => Unit
  | invalidate => Unit

/-! ## What the operations do -/

def withColumns (c : StatusColumns) (a : PoolAccount) : PoolAccount :=
  { a with toAccount := a.toAccount.withColumns c }

def persistAlways (account : Account) (state : AccountState) (rows : List PoolAccount) :
    List PoolAccount :=
  if account.columns = state.columns then rows
  else Table.updateWhere (fun r => r.id = account.id) (withColumns state.columns) rows

def isCurrent (account : Account) (r : PoolAccount) : Bool :=
  r.id = account.id ∧ r.toAccount.columns = account.columns

def persistCurrent (account : Account) (state : AccountState) (rows : List PoolAccount) :
    List PoolAccount × Bool :=
  if account.columns = state.columns then (rows, true)
  else
    (Table.updateWhere (isCurrent account) (withColumns state.columns) rows,
      rows.any (isCurrent account))

def remembered {β : Type} (tid : ℕ) (l : List (ℕ × β)) : Option β :=
  (l.find? fun x => x.1 = tid).map Prod.snd

def forget {β : Type} (tid : ℕ) (l : List (ℕ × β)) : List (ℕ × β) := l.filter fun x => x.1 ≠ tid

namespace World

def cached (w : World) (key : CacheKey) : Option SelectionInputs :=
  match w.cache.find? fun x => x.1 = key with
  | none => none
  | some x => if x.2.expiresAt ≤ w.now then none else some x.2.data

def stickyRow (w : World) (key : String) (kind : StickySessionKind) : Option StickySession :=
  w.stickySessions.find? fun r => r.key = key && r.kind = kind

def deleteSticky (key : String) (kind : StickySessionKind) (w : World) : World :=
  { w with stickySessions := w.stickySessions.filter fun r => !(r.key = key && r.kind = kind) }

def upsertSticky (key : String) (kind : StickySessionKind) (accountId : String) (w : World) :
    World :=
  let w := w.deleteSticky key kind
  { w with stickySessions := ⟨key, kind, accountId, w.now⟩ :: w.stickySessions }

def stickyExpired (w : World) (key : String) (kind : StickySessionKind)
    (maxAgeSeconds : Option ℕ) : Bool :=
  (w.stickyRow key kind).any fun row =>
    maxAgeSeconds.any fun age => decide (row.updatedAt < w.now - age)

def latestAdditional (w : World) (quotaKey : String) (window : UsageWindow)
    (accountIds : List String) (since : Option ℚ) : List AdditionalUsage :=
  accountIds.filterMap fun id =>
    w.additionalUsage.find? fun r => r.accountId = id && r.quotaKey = quotaKey &&
      r.window = window && since.all (· ≤ r.recordedAt)

def latestUsage (w : World) (window : UsageWindow) (accountIds : List String) :
    List (String × UsageEntry) :=
  (match window with
    | .primary => w.primaryUsage
    | .secondary => w.secondaryUsage).filter fun x => x.1 ∈ accountIds

def updateRuntime (accountId : String) (f : RuntimeEntry → RuntimeEntry) (w : World) : World :=
  { w with runtime := setItem accountId (f (runtimeOf accountId w.runtime)) w.runtime }

def watching (w : World) : Watch :=
  ⟨w.generation, w.runtime.map fun x => (x.1, failureFields x.2.toRuntimeState)⟩

def changedSince (w : World) (watch : Watch) : Bool × Bool :=
  (w.generation ≠ watch.generation,
    watch.runtime.any fun x =>
      failureFields (runtimeOf x.1 w.runtime).toRuntimeState ≠ x.2)

def effect (cfg : BalancerSettings) (tid : ℕ) (e : Reading) (w : World) :
    (op : BalancerOp) → World × op.Ans
  | .cacheGet key =>
    ({ w with
        loads := if (w.cached key).isSome then w.loads
          else (tid, w.generation) :: forget tid w.loads }, w.cached key)
  | .cacheSet key inputs =>
    let entry : CachedSelectionInputs := ⟨inputs, w.now + cfg.cacheTtlSeconds⟩
    ({ w with
        cache :=
          if remembered tid w.loads = some w.generation then
            (key, entry) :: w.cache.filter fun x => x.1 ≠ key
          else w.cache
        loads := forget tid w.loads }, ())
  | .listAccounts accountIds =>
    (w, w.accounts.filter fun a => accountIds.all (a.id ∈ ·), w.accounts.map fun a => a.id)
  | .modelPlans => (w, w.modelPlans)
  | .latestAdditional quotaKey window accountIds since =>
    (w, w.latestAdditional quotaKey window accountIds since)
  | .latestUsage window accountIds => (w, w.latestUsage window accountIds)
  | .now => (w, w.now)
  | .random => (w, e.draw)
  | .build inputs =>
    let (runtime, states) :=
      buildStates cfg w.now inputs.entries (pruneRuntime inputs.runtimeIds w.runtime)
    ({ w with runtime := runtime }, states)
  | .stickyGet key kind maxAgeSeconds =>
    -- `get_account_id` deletes a mapping that is too old
    let expired := w.stickyExpired key kind maxAgeSeconds
    ({ w with
        stickySessions := if expired then (w.deleteSticky key kind).stickySessions
          else w.stickySessions },
      if expired then none else (w.stickyRow key kind).map fun row => row.accountId)
  | .stickyClock => ({ w with now := e.sticky.grace }, e.sticky)
  | .stickyUpsert key kind accountId => (w.upsertSticky key kind accountId, ())
  | .stickyDelete key kind => (w.deleteSticky key kind, ())
  | .sync account state selected =>
    (w.updateRuntime account.id fun r =>
      (syncRuntimeState w.now selected none account.toAccount state.toAccountState r).1, ())
  | .watch => ({ w with watches := (tid, w.watching) :: forget tid w.watches }, ())
  | .persistIfCurrent account state =>
    let (rows, persisted) := persistCurrent account.toAccount state w.accounts
    ({ w with accounts := rows }, persisted)
  | .settle =>
    ({ w with watches := forget tid w.watches },
      ((remembered tid w.watches).map w.changedSince).getD (false, false))
  | .acquire accountId => ({ w with locked := accountId :: w.locked }, ())
  | .release accountId => ({ w with locked := w.locked.erase accountId }, ())
  | .mark account failure =>
    let state := failureState w.now e.delay failure account.toAccount
      (runtimeOf account.id w.runtime)
    (w.updateRuntime account.id fun r =>
      (syncRuntimeState w.now false none account.toAccount state r).1, state)
  | .recordErrors account count =>
    (w.updateRuntime account.id (recordErrorsEntry w.now count account.toAccount),
      errorState w.now count account.toAccount (runtimeOf account.id w.runtime))
  | .recordSuccess accountId =>
    ({ w with
        runtime := if (getItem accountId w.runtime).isSome then
            (w.updateRuntime accountId recordSuccessEntry).runtime
          else w.runtime }, ())
  | .persist account state =>
    ({ w with accounts := persistAlways account.toAccount state w.accounts }, ())
  | .invalidate => ({ w with cache := [], generation := w.generation + 1 }, ())

def ready (e : Reading) (w : World) : BalancerOp → Bool
  | .sync account _ _ => account.id ∉ w.locked
  | .acquire accountId => accountId ∉ w.locked
  | .stickyClock => e.now ≤ e.sticky.check
  | _ => true

def exec (cfg : BalancerSettings) (tid : ℕ) (op : BalancerOp) (e : Reading) (w : World) :
    Option (World × op.Ans) :=
  if w.now ≤ e.now ∧ w.ready e op = true then some (effect cfg tid e { w with now := e.now } op)
  else none

end World

/-! ## By other hands -/

inductive Elsewhere : Type where
  | accounts (rows : List PoolAccount)
  | usage (window : UsageWindow) (latest : List (String × UsageEntry))
  | additionalUsage (rows : List AdditionalUsage)
  | modelPlans (plans : Option ModelPlans)
  | stickySessions (rows : List StickySession)
  | invalidate

def World.elsewhere (w : World) : Elsewhere → World
  | .accounts rows => { w with accounts := rows }
  | .usage .primary latest => { w with primaryUsage := latest }
  | .usage .secondary latest => { w with secondaryUsage := latest }
  | .additionalUsage rows => { w with additionalUsage := rows }
  | .modelPlans plans => { w with modelPlans := plans }
  | .stickySessions rows => { w with stickySessions := rows }
  | .invalidate => { w with cache := [], generation := w.generation + 1 }

def World.restart (w : World) : World :=
  { w with runtime := [], locked := [], cache := [], generation := 0, loads := [], watches := [] }

/-! ## The two models of the writers -/

/-! ## What an operation leaves alone -/

def accountsAfter (rows : List PoolAccount) : BalancerOp → List PoolAccount
  | .persistIfCurrent account state => (persistCurrent account.toAccount state rows).1
  | .persist account state => persistAlways account.toAccount state rows
  | _ => rows

def runtimeAfter (cfg : BalancerSettings) (now delay : ℚ) (m : RuntimeMap) :
    BalancerOp → RuntimeMap
  | .build inputs => (buildStates cfg now inputs.entries (pruneRuntime inputs.runtimeIds m)).1
  | .sync account state selected =>
    setItem account.id (syncRuntimeState now selected none account.toAccount
      state.toAccountState (runtimeOf account.id m)).1 m
  | .mark account failure =>
    let state := failureState now delay failure account.toAccount (runtimeOf account.id m)
    setItem account.id
      (syncRuntimeState now false none account.toAccount state (runtimeOf account.id m)).1 m
  | .recordErrors account count =>
    setItem account.id
      (recordErrorsEntry now count account.toAccount (runtimeOf account.id m)) m
  | .recordSuccess accountId =>
    if (getItem accountId m).isSome then
      setItem accountId (recordSuccessEntry (runtimeOf accountId m)) m
    else m
  | _ => m

namespace World

variable {cfg : BalancerSettings} {tid : ℕ} {op : BalancerOp} {e : Reading} {w w' : World}
  {r : op.Ans}

section

variable (h : exec cfg tid op e w = some (w', r))
include h

theorem exec_eq_some :
    w.now ≤ e.now ∧ w.ready e op = true ∧ effect cfg tid e { w with now := e.now } op =
      (w', r) := by
  obtain ⟨⟨hnow, hready⟩, heffect⟩ := Option.ite_none_right_eq_some.mp h
  exact ⟨hnow, hready, Option.some.inj heffect⟩

theorem eq_effect :
    w' = (effect cfg tid e { w with now := e.now } op).1 :=
  (congrArg Prod.fst (exec_eq_some h).2.2).symm

theorem ans_eq_effect :
    r = (effect cfg tid e { w with now := e.now } op).2 := by
  rw [(exec_eq_some h).2.2]

theorem exec_accounts :
    w'.accounts = accountsAfter w.accounts op := by
  rw [eq_effect h]
  cases op <;> rfl

theorem exec_runtime :
    w'.runtime = runtimeAfter cfg e.now e.delay w.runtime op := by
  rw [eq_effect h]
  cases op <;> rfl

theorem exec_tables :
    w'.primaryUsage = w.primaryUsage ∧ w'.secondaryUsage = w.secondaryUsage ∧
      w'.additionalUsage = w.additionalUsage ∧ w'.modelPlans = w.modelPlans := by
  rw [eq_effect h]
  cases op <;> exact ⟨rfl, rfl, rfl, rfl⟩

theorem exec_now : w.now ≤ w'.now := by
  obtain ⟨hnow, hready, -⟩ := exec_eq_some h
  rw [eq_effect h]
  cases op with
  | stickyClock =>
    obtain ⟨h₁, h₂, h₃, h₄⟩ := e.sticky.ordered
    exact hnow.trans ((of_decide_eq_true hready).trans (h₁.trans (h₂.trans (h₃.trans h₄))))
  | _ => exact hnow

theorem mem_cache_of_exec {x : CacheKey × CachedSelectionInputs} (hx : x ∈ w'.cache) :
    x ∈ w.cache ∨ op = .cacheSet x.1 x.2.data := by
  rw [eq_effect h] at hx
  cases op with
  | cacheSet key inputs =>
    dsimp only [effect] at hx
    split_ifs at hx
    · obtain rfl | hx := mem_cons.mp hx
      · exact .inr rfl
      · exact .inl (mem_of_mem_filter hx)
    · exact .inl hx
  | invalidate => cases hx
  | _ => exact .inl hx

end

theorem mem_cache_of_cached {key : CacheKey} {inputs : SelectionInputs}
    (h : w.cached key = some inputs) : ∃ t, (key, ⟨inputs, t⟩) ∈ w.cache := by
  unfold cached at h
  split at h
  · cases h
  · next x hx =>
    split_ifs at h
    cases h
    have hkey : x.1 = key := by simpa using find?_some hx
    exact ⟨x.2.expiresAt, hkey ▸ mem_of_find?_eq_some hx⟩

end World

end Balancer

end CodexOctopus

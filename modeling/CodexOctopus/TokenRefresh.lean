import CodexOctopus.Balancer
import CodexOctopus.Run

/-!
# Refreshing the tokens of an account

`AuthManager.refresh_account`, `AuthManager._ensure_chatgpt_account_id` and the usage updater's
`_sync_plan_type`, for one account. Tasks, of any replica, work on account objects that they
loaded from the row at different times; all three write the tokens of their object back with
`update_tokens`, which is one statement. The call of the token endpoint, its answer, the re-read
of the row after a permanent error and each write are steps of their own.

A refresh token is named by its generation: the initial one is 0, and the `n`-th refresh that
the upstream grants issues token `n`. The access token, the id token and `last_refresh` go
along with the refresh token. The upstream accepts a refresh token once, unless it was revoked,
and answers each later use with a permanent error.
-/

namespace CodexOctopus

open Option Table

/-! ## Accounts -/

structure AuthAccount where
  refreshToken : ℕ
  idTokenAccountId : Option String
  planType : String
  email : String
  chatgptAccountId : Option String
  status : AccountStatus
  deactivationReason : Option String

structure TokenRefreshResult where
  refreshToken : ℕ
  accountId : Option String
  planType : Option String
  email : Option String
  deriving DecidableEq

def isPermanentRefreshError (code : String) : Bool :=
  ["refresh_token_expired", "refresh_token_reused", "refresh_token_invalidated",
    "account_deactivated", "account_suspended", "account_deleted"].contains code

def defaultPlan : String := "unknown"

def accountPlanTypes : List String :=
  ["free", "plus", "pro", "team", "business", "enterprise", "edu"]

def coerceAccountPlanType (value : Option String) (default : String) : String :=
  match (value.map Python.strip).filter (· ≠ "") with
  | none => default
  | some cleaned =>
    let normalized := Python.lower cleaned
    if accountPlanTypes.contains normalized then normalized else cleaned

namespace AuthAccount

def applyResult (a : AuthAccount) (r : TokenRefreshResult) : AuthAccount :=
  let planType := if a.planType = "" then defaultPlan else a.planType
  { a with
    refreshToken := r.refreshToken
    idTokenAccountId := r.accountId
    chatgptAccountId := r.accountId.filter (· ≠ "") <|> a.chatgptAccountId
    planType := match r.planType with
      | none => planType
      | some p => coerceAccountPlanType (some p) planType
    email := (r.email.filter (· ≠ "")).getD a.email }

def updateTokens (row a : AuthAccount) : AuthAccount :=
  { row with
    refreshToken := a.refreshToken
    idTokenAccountId := a.idTokenAccountId
    planType := a.planType
    email := a.email
    chatgptAccountId := a.chatgptAccountId <|> row.chatgptAccountId }

def deactivate (row : AuthAccount) (reason : String) : AuthAccount :=
  { row with status := .deactivated, deactivationReason := some reason }

def syncPlanType (a : AuthAccount) (planType : Option String) : Option AuthAccount :=
  let next := coerceAccountPlanType planType (if a.planType = "" then "free" else a.planType)
  if next = a.planType then none else some { a with planType := next }

def ensureChatgptAccountId (a : AuthAccount) : Option AuthAccount :=
  if (a.chatgptAccountId.filter (· ≠ "")).isSome then none
  else (a.idTokenAccountId.filter (· ≠ "")).map fun id => { a with chatgptAccountId := some id }

end AuthAccount

/-! ## The system -/

inductive AuthPhase : Type where
  | idle
  /-- the token endpoint was called with the object's refresh token -/
  | calling
  | granted (result : TokenRefreshResult)
  /-- the object has the new tokens, which are not stored yet; `used` was the old one -/
  | storing (used : ℕ)
  | rejected (code : String)
  | deactivating (code : String)
  /-- `_sync_plan_type` or `_ensure_chatgpt_account_id` writes the object back -/
  | syncing
  deriving DecidableEq

/-- A task with its account object. An `attached` one is in the identity map of the task's session:
`get_by_id` then returns it. -/
structure AuthTask where
  taskId : ℕ
  account : AuthAccount
  attached : Bool
  phase : AuthPhase

def AuthTask.hasSpent (t : AuthTask) (token : ℕ) : Bool :=
  match t.phase with
  | .granted _ => t.account.refreshToken = token
  | .storing used => used = token
  | _ => false

def AuthTask.isQuiet (t : AuthTask) : Bool :=
  match t.phase with
  | .idle | .calling | .syncing => true
  | _ => false

/-- The token that was rejected, the token in the row then, and whether the refresh of another task
with it had succeeded. -/
structure Deactivation where
  rejected : ℕ
  stored : ℕ
  succeeded : Bool
  deriving DecidableEq

structure AuthState where
  row : AuthAccount
  tasks : List AuthTask
  issued : ℕ
  spent : List ℕ
  /-- the generations that `update_tokens` has committed -/
  committed : List ℕ
  deactivations : List Deactivation
  taskIds : List ℕ

def newAuthState (account : AuthAccount) : AuthState :=
  ⟨{ account with refreshToken := 0 }, [], 0, [], [], [], []⟩

inductive AuthAct : Type where
  | load (taskId : ℕ) (attached : Bool)
  /-- an object is copied: `_clone_account`, or another caller gets it from a shared refresh -/
  | clone (taskId source : ℕ)
  | refresh (taskId : ℕ)
  | accept (taskId : ℕ) (accountId planType email : Option String)
  | reject (taskId : ℕ) (code : String)
  | revoke (token : ℕ)
  | receive (taskId : ℕ)
  | store (taskId : ℕ)
  | reread (taskId : ℕ)
  | deactivate (taskId : ℕ)
  | syncPlanType (taskId : ℕ) (planType : Option String)
  | ensureChatgptAccountId (taskId : ℕ)
  | commitSync (taskId : ℕ)
  /-- `_sync_account_from_repo` -/
  | syncFromRepo (taskId : ℕ)
  | leave (taskId : ℕ)

namespace AuthState

def task (s : AuthState) (taskId : ℕ) : Option AuthTask :=
  lookup AuthTask.taskId s.tasks taskId

def setTask (s : AuthState) (t : AuthTask) : AuthState :=
  { s with tasks := updateWhere (fun u => u.taskId = t.taskId) (fun _ => t) s.tasks }

def endTask (s : AuthState) (taskId : ℕ) : AuthState :=
  { s with tasks := s.tasks.filter fun u => u.taskId ≠ taskId }

def start (s : AuthState) (t : AuthTask) : AuthState :=
  { s with tasks := s.tasks ++ [t], taskIds := t.taskId :: s.taskIds }

def commit (s : AuthState) (t : AuthTask) : AuthState :=
  { s.setTask { t with phase := .idle } with
    row := s.row.updateTokens t.account
    committed := s.committed ++ [t.account.refreshToken] }

def latest (s : AuthState) (t : AuthTask) : AuthAccount :=
  if t.attached then t.account else s.row

def otherSucceeded (s : AuthState) (t : AuthTask) : Bool :=
  s.tasks.any fun u => u.taskId ≠ t.taskId && u.hasSpent t.account.refreshToken

end AuthState

def authTaskStep (s : AuthState) (t : AuthTask) : AuthAct → Option AuthState
  | .refresh _ => if t.phase = .idle then some (s.setTask { t with phase := .calling }) else none
  | .accept _ accountId planType email =>
    if t.phase = .calling ∧ t.account.refreshToken ∉ s.spent then
      let result : TokenRefreshResult := ⟨s.issued + 1, accountId, planType, email⟩
      some { s.setTask { t with phase := .granted result } with
        issued := s.issued + 1
        spent := t.account.refreshToken :: s.spent }
    else none
  | .reject _ code =>
    if t.phase = .calling ∧ t.account.refreshToken ∈ s.spent ∧ isPermanentRefreshError code then
      some (s.setTask { t with phase := .rejected code })
    else none
  | .receive _ =>
    match t.phase with
    | .granted result =>
      some (s.setTask { t with
        account := t.account.applyResult result
        phase := .storing t.account.refreshToken })
    | _ => none
  | .store _ =>
    match t.phase with
    | .storing _ => some (s.commit t)
    | _ => none
  | .reread _ =>
    match t.phase with
    | .rejected code =>
      -- the object's token is the one that was rejected
      if (s.latest t).refreshToken ≠ t.account.refreshToken then
        some (s.setTask { t with account := s.latest t, phase := .idle })
      else some (s.setTask { t with phase := .deactivating code })
    | _ => none
  | .deactivate _ =>
    match t.phase with
    | .deactivating code =>
      some { s.endTask t.taskId with
        row := s.row.deactivate (permanentFailureReason code)
        deactivations := s.deactivations ++
          [⟨t.account.refreshToken, s.row.refreshToken, s.otherSucceeded t⟩] }
    | _ => none
  | .syncPlanType _ planType =>
    if t.phase = .idle then
      (t.account.syncPlanType planType).map fun a =>
        s.setTask { t with account := a, phase := .syncing }
    else none
  | .ensureChatgptAccountId _ =>
    if t.phase = .idle then
      t.account.ensureChatgptAccountId.map fun a =>
        s.setTask { t with account := a, phase := .syncing }
    else none
  | .commitSync _ => if t.phase = .syncing then some (s.commit t) else none
  | .syncFromRepo _ =>
    if t.phase = .idle then some (s.setTask { t with account := s.latest t }) else none
  | .leave _ => some (s.endTask t.taskId)
  | .load _ _ | .clone _ _ | .revoke _ => none

def AuthAct.taskId : AuthAct → Option ℕ
  | .refresh id | .accept id _ _ _ | .reject id _ | .receive id | .store id | .reread id
  | .deactivate id | .syncPlanType id _ | .ensureChatgptAccountId id | .commitSync id
  | .syncFromRepo id | .leave id => some id
  | .load _ _ | .clone _ _ | .revoke _ => none

/-- **A step of the tasks of an account, or of the upstream.** -/
def authStep (s : AuthState) (a : AuthAct) : Option AuthState :=
  match a with
  | .load id attached => if id ∈ s.taskIds then none else some
      (s.start ⟨id, s.row, attached, .idle⟩)
  | .clone id source =>
    if id ∈ s.taskIds then none
    else (s.task source).map fun t => s.start ⟨id, t.account, false, .idle⟩
  | .revoke token => some { s with spent := token :: s.spent }
  | a => a.taskId.bind fun id => (s.task id).bind fun t => authTaskStep s t a

/-! ## What a step does -/

/-- **The moves of the tasks.** -/
inductive AuthMove (s : AuthState) : AuthAct → AuthState → Prop
  | start {a : AuthAct} {t : AuthTask} (hquiet : t.isQuiet = true) : AuthMove s a (s.start t)
  | go {a : AuthAct} {t : AuthTask} (hquiet : t.isQuiet = true) : AuthMove s a (s.setTask t)
  | accept {taskId : ℕ} {t : AuthTask} {accountId planType email : Option String}
      (ht : s.task taskId = some t) (hphase : t.phase = .calling)
      (hunspent : t.account.refreshToken ∉ s.spent) :
      AuthMove s (.accept taskId accountId planType email)
        { s.setTask { t with phase := .granted ⟨s.issued + 1, accountId, planType, email⟩ } with
          issued := s.issued + 1
          spent := t.account.refreshToken :: s.spent }
  | reject {taskId : ℕ} {t : AuthTask} {code : String} (ht : s.task taskId = some t)
      (hphase : t.phase = .calling) (hspent : t.account.refreshToken ∈ s.spent) :
      AuthMove s (.reject taskId code) (s.setTask { t with phase := .rejected code })
  | revoke {token : ℕ} : AuthMove s (.revoke token) { s with spent := token :: s.spent }
  | receive {taskId : ℕ} {t : AuthTask} {result : TokenRefreshResult}
      (ht : s.task taskId = some t) (hphase : t.phase = .granted result) :
      AuthMove s (.receive taskId)
        (s.setTask { t with
          account := t.account.applyResult result
          phase := .storing t.account.refreshToken })
  | store {taskId used : ℕ} {t : AuthTask} (ht : s.task taskId = some t)
      (hphase : t.phase = .storing used) : AuthMove s (.store taskId) (s.commit t)
  | commitSync {taskId : ℕ} {t : AuthTask} (ht : s.task taskId = some t)
      (hphase : t.phase = .syncing) : AuthMove s (.commitSync taskId) (s.commit t)
  | reread {taskId : ℕ} {t : AuthTask} {code : String} (ht : s.task taskId = some t)
      (hphase : t.phase = .rejected code)
      (hsame : (s.latest t).refreshToken = t.account.refreshToken) :
      AuthMove s (.reread taskId) (s.setTask { t with phase := .deactivating code })
  | deactivate {taskId : ℕ} {t : AuthTask} {code : String} (ht : s.task taskId = some t)
      (hphase : t.phase = .deactivating code) :
      AuthMove s (.deactivate taskId)
        { s.endTask t.taskId with
          row := s.row.deactivate (permanentFailureReason code)
          deactivations := s.deactivations ++
            [⟨t.account.refreshToken, s.row.refreshToken, s.otherSucceeded t⟩] }
  | leave {taskId : ℕ} {t : AuthTask} (ht : s.task taskId = some t) :
      AuthMove s (.leave taskId) (s.endTask t.taskId)

section Moves

variable {s s' : AuthState} {a : AuthAct} {t : AuthTask}

theorem authTaskStep_move {taskId : ℕ} (ht : s.task taskId = some t)
    (hid : a.taskId = some taskId) (hs : authTaskStep s t a = some s') : AuthMove s a s' := by
  cases a with
  | refresh id =>
    obtain ⟨-, hs⟩ := ite_none_right_eq_some.mp hs
    cases hs
    exact .go rfl
  | accept id accountId planType email =>
    cases hid
    obtain ⟨⟨hphase, hunspent⟩, hs⟩ := ite_none_right_eq_some.mp hs
    cases hs
    exact .accept ht hphase hunspent
  | reject id code =>
    cases hid
    obtain ⟨⟨hphase, hspent, -⟩, hs⟩ := ite_none_right_eq_some.mp hs
    cases hs
    exact .reject ht hphase hspent
  | receive id =>
    cases hid
    simp only [authTaskStep] at hs
    split at hs
    · next result hphase =>
      cases hs
      exact .receive ht hphase
    · cases hs
  | store id =>
    cases hid
    simp only [authTaskStep] at hs
    split at hs
    · next used hphase =>
      cases hs
      exact .store ht hphase
    · cases hs
  | reread id =>
    cases hid
    simp only [authTaskStep] at hs
    split at hs
    · next code hphase =>
      split at hs
      · cases hs
        exact .go rfl
      · next hsame =>
        cases hs
        exact .reread ht hphase (not_not.mp hsame)
    · cases hs
  | deactivate id =>
    cases hid
    simp only [authTaskStep] at hs
    split at hs
    · next code hphase =>
      cases hs
      exact .deactivate ht hphase
    · cases hs
  | syncPlanType id planType =>
    obtain ⟨-, hs⟩ := ite_none_right_eq_some.mp hs
    obtain ⟨account, -, rfl⟩ := map_eq_some_iff.mp hs
    exact .go rfl
  | ensureChatgptAccountId id =>
    obtain ⟨-, hs⟩ := ite_none_right_eq_some.mp hs
    obtain ⟨account, -, rfl⟩ := map_eq_some_iff.mp hs
    exact .go rfl
  | commitSync id =>
    cases hid
    obtain ⟨hphase, hs⟩ := ite_none_right_eq_some.mp hs
    cases hs
    exact .commitSync ht hphase
  | syncFromRepo id =>
    obtain ⟨hphase, hs⟩ := ite_none_right_eq_some.mp hs
    cases hs
    exact .go (by rw [AuthTask.isQuiet, hphase])
  | leave id =>
    cases hid
    cases hs
    exact .leave ht
  | load | clone | revoke => cases hid

/-- **Every step is one of the moves.** -/
theorem authStep_move (hs : authStep s a = some s') : AuthMove s a s' := by
  unfold authStep at hs
  split at hs
  · obtain ⟨-, hs⟩ := ite_none_left_eq_some.mp hs
    cases hs
    exact .start rfl
  · obtain ⟨-, hs⟩ := ite_none_left_eq_some.mp hs
    obtain ⟨t, -, rfl⟩ := map_eq_some_iff.mp hs
    exact .start rfl
  · cases hs
    exact .revoke
  · obtain ⟨taskId, hid, hs⟩ := bind_eq_some_iff.mp hs
    obtain ⟨t, ht, hs⟩ := bind_eq_some_iff.mp hs
    exact authTaskStep_move ht hid hs

end Moves

/-! ## The tasks after a step -/

namespace AuthState

variable {s : AuthState} {t u : AuthTask}

theorem mem_setTask (hu : u ∈ (s.setTask t).tasks) :
    u = t ∨ u ∈ s.tasks ∧ u.taskId ≠ t.taskId := by
  obtain ⟨u₀, hu₀, rfl⟩ := mem_updateWhere.mp hu
  by_cases hid : u₀.taskId = t.taskId
  · exact .inl (if_pos (decide_eq_true hid))
  · rw [if_neg (by simpa using hid)]
    exact .inr ⟨hu₀, hid⟩

theorem mem_start (hu : u ∈ (s.start t).tasks) : u ∈ s.tasks ∨ u = t := by
  rcases List.mem_append.mp hu with hu | hu
  · exact .inl hu
  · exact .inr (List.mem_singleton.mp hu)

end AuthState

end CodexOctopus

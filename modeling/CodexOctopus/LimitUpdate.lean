import CodexOctopus.UsageSystem

/-!
# Changing the limits of a key

`update_key` of `app/modules/api_keys/service.py` with `limits_set`, next to the usage
calls. The update reads the key with its limits, builds the new rows from what it has
read, reads the key again (`repository.update`), matches the new rows with the limits
there are and commits. SQLAlchemy keeps the rows a session has loaded: a later
`SELECT` returns them with the values of the last load, except that the query for the
key itself (`populate_existing`) loads them again. On commit, a column is written only
if its value differs from the loaded one.

The usage calls run as before. Their effect on the limit rows is written down in a
ledger, as a history of what each commit added and of the windows that ended.
-/

namespace CodexOctopus

/-! ## Building the rows -/

structure LimitRule where
  limitType : LimitType
  limitWindow : LimitWindow
  maxValue : ℤ
  modelFilter : Option String

structure IncomingLimit where
  limitType : LimitType
  limitWindow : LimitWindow
  maxValue : ℤ
  currentValue : ℤ
  modelFilter : Option String
  resetAt : ℤ

def LimitRule.identity (li : LimitRule) : LimitType × LimitWindow × Option String :=
  (li.limitType, li.limitWindow, li.modelFilter)

def LimitRow.identity (l : LimitRow) : LimitType × LimitWindow × Option String :=
  (l.limitType, l.limitWindow, l.modelFilter)

def IncomingLimit.identity (i : IncomingLimit) : LimitType × LimitWindow × Option String :=
  (i.limitType, i.limitWindow, i.modelFilter)

def lastWithIdentity (rows : List LimitRow) (identity : LimitType × LimitWindow × Option String) :
    Option LimitRow :=
  rows.reverse.find? (·.identity = identity)

def nextReset (now : ℤ) (w : LimitWindow) : ℤ := now + windowDelta w

def limitInputToRow (li : LimitRule) (now currentValue : ℤ) (resetAt : Option ℤ) :
    Except String IncomingLimit :=
  if li.limitType = .credits ∧ li.modelFilter ≠ none then
    .error "credits limits do not support model_filter"
  else
    .ok ⟨li.limitType, li.limitWindow, li.maxValue, currentValue, li.modelFilter,
      resetAt.getD (nextReset now li.limitWindow)⟩

def buildLimitRowsForUpdate (now : ℤ) (submittedLimits : List LimitRule)
    (existingLimits : List LimitRow) (resetUsage : Bool) : Except String (List IncomingLimit) :=
  if ¬ (submittedLimits.map LimitRule.identity).Nodup then
    .error "Duplicate limit rules are not allowed"
  else
    submittedLimits.mapM fun submitted =>
      match lastWithIdentity existingLimits submitted.identity, resetUsage with
      | some matched, false =>
        limitInputToRow submitted now matched.currentValue (some matched.resetAt)
      | _, _ => limitInputToRow submitted now 0 none

/-! ## The session of an update -/

/-- The rows of the key as the session shows them: those it has loaded keep the loaded
values (`get_limits_by_key`). -/
def getLimitsByKey (loaded limits : List LimitRow) (apiKeyId : String) : List LimitRow :=
  (limits.filter (·.apiKeyId = apiKeyId)).map (Txn.view LimitRow.id loaded)

structure LimitChanges where
  matched : List (LimitRow × IncomingLimit)
  added : List IncomingLimit
  deleted : List LimitRow

def upsertLimits (existing : List LimitRow) (incoming : List IncomingLimit) : LimitChanges where
  matched := incoming.filterMap fun i => (lastWithIdentity existing i.identity).map (·, i)
  added := incoming.filter fun i => lastWithIdentity existing i.identity = none
  deleted := existing.filter fun l => l.identity ∉ incoming.map IncomingLimit.identity

def flushColumn (loaded incoming stored : ℤ) : ℤ := if incoming = loaded then stored else incoming

def LimitRow.flush (l : LimitRow) (m : LimitRow × IncomingLimit) : LimitRow :=
  { l with
    maxValue := flushColumn m.1.maxValue m.2.maxValue l.maxValue
    currentValue := flushColumn m.1.currentValue m.2.currentValue l.currentValue
    resetAt := flushColumn m.1.resetAt m.2.resetAt l.resetAt }

def dirty (m : LimitRow × IncomingLimit) : Bool :=
  m.2.maxValue ≠ m.1.maxValue ∨ m.2.currentValue ≠ m.1.currentValue ∨ m.2.resetAt ≠ m.1.resetAt

def LimitChanges.flushed (ch : LimitChanges) (l : LimitRow) : LimitRow :=
  ((ch.matched.find? fun m => m.1.id = l.id).map l.flush).getD l

inductive UpdateState : Type where
  | read (loaded : List LimitRow)
  | built (rows : List IncomingLimit)
  /-- `repository.update` has loaded the key again -/
  | refreshed (rows : List IncomingLimit) (loaded : List LimitRow)
  | upserted (changes : LimitChanges)

structure KeyUpdate where
  uid : ℕ
  apiKeyId : String
  submittedLimits : List LimitRule
  resetUsage : Bool
  state : UpdateState

/-! ## The ledger -/

inductive LimitChange : Type where
  | add (limitId : ℕ) (delta : ℤ)
  | reset (limitId : ℕ) (expectedResetAt now : ℤ)
  deriving DecidableEq

def LimitChange.limitId : LimitChange → ℕ
  | .add limitId _ | .reset limitId _ _ => limitId

def LimitChange.apply (l : LimitRow) : LimitChange → LimitRow
  | .add limitId delta => if l.id = limitId then l.add delta else l
  | .reset limitId expectedResetAt now =>
    if l.id = limitId ∧ l.resetAt = expectedResetAt then
      { l with currentValue := 0, resetAt := advanceReset expectedResetAt now l.limitWindow }
    else l

def replay (ledger : List LimitChange) (l : LimitRow) : LimitRow := ledger.foldl LimitChange.apply l

def Call.additions (limits : List LimitRow) (c : Call) : List LimitChange :=
  (limits.filter fun l => Txn.locks LimitRow.id c.writes l.id).map fun l =>
    .add l.id ((Txn.view LimitRow.id c.writes l).currentValue - l.currentValue)

def usageChanges (s : UsageState) : UsageAct → List LimitChange
  | .reset limitId expectedResetAt now => [.reset limitId expectedResetAt now]
  | .createReservation cid _ | .finish cid =>
    ((Table.lookup Call.cid s.calls cid).map (Call.additions s.limits)).getD []
  | _ => []

/-! ## The system -/

structure KeyState where
  usage : UsageState
  updates : List KeyUpdate
  nextLimitId : ℕ
  ledger : List LimitChange

inductive UpdateAct : Type where
  | start (uid : ℕ) (apiKeyId : String) (submittedLimits : List LimitRule) (resetUsage : Bool)
  | build (uid : ℕ) (now : ℤ)
  | refresh (uid : ℕ)
  | upsert (uid : ℕ)
  | commit (uid : ℕ)
  | abort (uid : ℕ)

inductive KeyAct : Type where
  | usage (a : UsageAct)
  | update (a : UpdateAct)

def KeyAct.isUsage : KeyAct → Bool
  | .usage _ => true
  | .update _ => false

def KeyState.setUpdate (s : KeyState) (u : KeyUpdate) : KeyState :=
  { s with updates := Table.updateWhere (fun u' => u'.uid = u.uid) (fun _ => u) s.updates }

def KeyState.dropUpdate (s : KeyState) (uid : ℕ) : KeyState :=
  { s with updates := s.updates.filter (·.uid ≠ uid) }

def Call.holds (limitId : ℕ) (c : Call) : Bool :=
  Txn.locks LimitRow.id c.writes limitId ||
    match c.state with
    | .enforcing _ _ _ _ items => items.any (·.limitId = limitId)
    | .settling _ _ _ _ done => done.any (·.limitId = limitId)

def numberRows (apiKeyId : String) (nextLimitId : ℕ) (added : List IncomingLimit) : List LimitRow :=
  added.mapIdx fun n i =>
    ⟨nextLimitId + n, apiKeyId, i.limitType, i.limitWindow, i.maxValue, i.currentValue,
      i.modelFilter, i.resetAt⟩

/-- The flush and the commit of an update. A statement waits for an open call; an `UPDATE` of a row
that is gone fails and rolls back. A deleted limit takes its items along. -/
def commitUpdate (s : KeyState) (u : KeyUpdate) (ch : LimitChanges) : Option KeyState :=
  let written := ch.matched.filter dirty
  let gone := fun k => decide (k ∈ ch.deleted.map LimitRow.id)
  if written.any (fun m => s.usage.calls.any (Txn.locks LimitRow.id ·.writes m.1.id)) ∨
      ch.deleted.any (fun l => s.usage.calls.any (·.holds l.id)) then none
  else if written.any (fun m => Table.lookup LimitRow.id s.usage.limits m.1.id = none) then
    some (s.dropUpdate u.uid)
  else
    some { s.dropUpdate u.uid with
      usage := { s.usage with
        limits :=
          (s.usage.limits.filter fun l => !gone l.id).map ch.flushed ++
            numberRows u.apiKeyId s.nextLimitId ch.added
        reservations := s.usage.reservations.map fun r =>
          { r with items := r.items.filter fun i => !gone i.limitId } }
      nextLimitId := s.nextLimitId + ch.added.length }

def updateStep (s : KeyState) (u : KeyUpdate) : UpdateAct → Option KeyState
  | .build _ now =>
    match u.state with
    | .read loaded =>
      match buildLimitRowsForUpdate now u.submittedLimits
          (getLimitsByKey loaded s.usage.limits u.apiKeyId) u.resetUsage with
      | .error _ => some (s.dropUpdate u.uid)
      | .ok rows => some (s.setUpdate { u with state := .built rows })
    | _ => none
  | .refresh _ =>
    match u.state with
    | .built rows =>
      some (s.setUpdate { u with
        state := .refreshed rows (s.usage.limits.filter (·.apiKeyId = u.apiKeyId)) })
    | _ => none
  | .upsert _ =>
    match u.state with
    | .refreshed rows loaded =>
      some (s.setUpdate { u with
        state := .upserted (upsertLimits (getLimitsByKey loaded s.usage.limits u.apiKeyId) rows) })
    | _ => none
  | .commit _ =>
    match u.state with
    | .upserted ch => commitUpdate s u ch
    | _ => none
  | .abort _ => some (s.dropUpdate u.uid)
  | .start .. => none

def UpdateAct.uid : UpdateAct → ℕ
  | .start uid _ _ _ | .build uid _ | .refresh uid | .upsert uid | .commit uid | .abort uid => uid

/-- The next item is of a limit that is gone: recording it violates the foreign key, and the call is
rolled back. -/
def UsageState.orphaned (s : UsageState) (c : Call) : Bool :=
  match c.state with
  | .settling _ _ true (i :: _) _ => Table.lookup LimitRow.id s.limits i.limitId = none
  | _ => false

def usageStepOrRollback (s : UsageState) (a : UsageAct) : Option UsageState :=
  match a with
  | .adjust cid =>
    if ((Table.lookup Call.cid s.calls cid).map s.orphaned).getD false then
      some (s.dropCall cid)
    else usageStep s (.adjust cid)
  | a => usageStep s a

def keyStep (s : KeyState) : KeyAct → Option KeyState
  | .usage a =>
    (usageStepOrRollback s.usage a).map fun usage =>
      { s with usage := usage, ledger := s.ledger ++ usageChanges s.usage a }
  | .update (.start uid apiKeyId submitted resetUsage) =>
    if Table.lookup KeyUpdate.uid s.updates uid = none then
      let loaded := s.usage.limits.filter (·.apiKeyId = apiKeyId)
      some { s with updates := s.updates ++ [⟨uid, apiKeyId, submitted, resetUsage, .read loaded⟩] }
    else none
  | .update a =>
    match Table.lookup KeyUpdate.uid s.updates a.uid with
    | none => none
    | some u => updateStep s u a

end CodexOctopus

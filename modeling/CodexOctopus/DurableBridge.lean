import CodexOctopus.Table

/-!
# The durable bridge repository

`app/modules/proxy/durable_bridge_repository.py`: the table `http_bridge_sessions`
that records which instance owns a bridge session. Each row carries an owner,
a lease and an *epoch* that a claim by another instance increments; `renew_session`
and `release_session` act only for the (instance, epoch) pair the row records.

The operations are functions on the list of rows. They are written the way the
source computes them: a row is read, the new column values are worked out from
it (`claimedRow`, `renewedRow`, `releasedRow`, `drainedRow`), and the row is
written back by primary key. Whether read and write are one step or two is
decided by the systems that use them.

Times are integers in microseconds. The row id is a fresh UUID and an argument
here; the SHA-256 of the session key is a parameter, since nothing below depends
on what it computes.
-/

namespace CodexOctopus

open Table

inductive BridgeState : Type where
  | active
  | draining
  | closed
  deriving DecidableEq

structure DurableKey where
  kind : String
  hash : String
  scope : String
  deriving DecidableEq

structure SessionRecord where
  id : String
  sessionKeyKind : String
  sessionKeyValue : String
  sessionKeyHash : String
  apiKeyScope : String
  ownerInstanceId : Option String
  ownerEpoch : ℤ
  leaseExpiresAt : Option ℤ
  state : BridgeState
  accountId : Option String
  model : Option String
  serviceTier : Option String
  latestTurnState : Option String
  latestResponseId : Option String
  lastSeenAt : ℤ
  closedAt : Option ℤ
  deriving DecidableEq

def SessionRecord.key (r : SessionRecord) : DurableKey :=
  ⟨r.sessionKeyKind, r.sessionKeyHash, r.apiKeyScope⟩

structure ClaimArgs where
  sessionKeyKind : String
  sessionKeyValue : String
  apiKeyScope : String
  instanceId : String
  leaseTtl : ℤ
  accountId : Option String
  model : Option String
  serviceTier : Option String
  latestTurnState : Option String
  latestResponseId : Option String
  allowTakeover : Bool

structure RenewArgs where
  sessionId : String
  instanceId : String
  ownerEpoch : ℤ
  leaseTtl : ℤ
  latestTurnState : Option String
  latestResponseId : Option String
  state : Option BridgeState

structure ReleaseArgs where
  sessionId : String
  instanceId : String
  ownerEpoch : ℤ
  draining : Bool

def leaseExpiry (now ttl : ℤ) : ℤ := now + max 1000000 ttl

/-! ## Column values -/

def newRecord (hash : String → String) (id : String) (now : ℤ) (c : ClaimArgs) : SessionRecord where
  id := id
  sessionKeyKind := c.sessionKeyKind
  sessionKeyValue := c.sessionKeyValue
  sessionKeyHash := hash c.sessionKeyValue
  apiKeyScope := c.apiKeyScope
  ownerInstanceId := some c.instanceId
  ownerEpoch := 1
  leaseExpiresAt := some (leaseExpiry now c.leaseTtl)
  state := .active
  accountId := c.accountId
  model := c.model
  serviceTier := c.serviceTier
  latestTurnState := c.latestTurnState
  latestResponseId := c.latestResponseId
  lastSeenAt := now
  closedAt := none

def ownerChanged (c : ClaimArgs) (r : SessionRecord) : Bool :=
  r.ownerInstanceId ≠ some c.instanceId

def leaseExpired (now : ℤ) (r : SessionRecord) : Bool :=
  match r.leaseExpiresAt with
  | none => true
  | some t => t ≤ now

def stateAllowsTakeover (r : SessionRecord) : Bool :=
  r.state = .draining ∨ r.state = .closed

/-- The early return of a claim: another owner, no takeover allowed, and neither
the lease nor the state gives the row up. -/
def claimRefused (now : ℤ) (c : ClaimArgs) (r : SessionRecord) : Bool :=
  ownerChanged c r && !c.allowTakeover && !leaseExpired now r && !stateAllowsTakeover r

def claimedRow (now : ℤ) (c : ClaimArgs) (r : SessionRecord) : SessionRecord :=
  { r with
    ownerInstanceId := some c.instanceId
    ownerEpoch := if ownerChanged c r then r.ownerEpoch + 1 else r.ownerEpoch
    leaseExpiresAt := some (leaseExpiry now c.leaseTtl)
    state := .active
    accountId := c.accountId
    model := c.model
    serviceTier := c.serviceTier
    -- a new owner of a closed session starts it afresh, so `None` is written too
    latestTurnState :=
      if c.latestTurnState.isSome || (ownerChanged c r && r.state = .closed) then
        c.latestTurnState
      else r.latestTurnState
    latestResponseId :=
      if c.latestResponseId.isSome || (ownerChanged c r && r.state = .closed) then
        c.latestResponseId
      else r.latestResponseId
    lastSeenAt := now
    closedAt := none }

def holdsLease (instanceId : String) (epoch : ℤ) (r : SessionRecord) : Bool :=
  r.ownerInstanceId = some instanceId ∧ r.ownerEpoch = epoch

def renewedRow (now : ℤ) (a : RenewArgs) (r : SessionRecord) : SessionRecord :=
  { r with
    leaseExpiresAt := some (leaseExpiry now a.leaseTtl)
    lastSeenAt := now
    latestTurnState := if a.latestTurnState.isSome then a.latestTurnState else r.latestTurnState
    latestResponseId :=
      if a.latestResponseId.isSome then a.latestResponseId else r.latestResponseId
    state := a.state.getD r.state }

def releasedRow (now : ℤ) (draining : Bool) (r : SessionRecord) : SessionRecord :=
  { r with
    ownerInstanceId := none
    leaseExpiresAt := some now
    lastSeenAt := now
    state := if draining then .draining else .closed
    closedAt := if draining then none else some now }

def drainedRow (now : ℤ) (r : SessionRecord) : SessionRecord :=
  { r with state := .draining, lastSeenAt := now }

def ownedActive (instanceId : String) (r : SessionRecord) : Bool :=
  r.ownerInstanceId = some instanceId ∧ r.state = .active

/-! ## Operations on the table -/

abbrev rowById (rows : List SessionRecord) (id : String) : Option SessionRecord :=
  lookup SessionRecord.id rows id

def writeRow (id : String) (f : SessionRecord → SessionRecord) (rows : List SessionRecord) :
    List SessionRecord :=
  updateWhere (fun r => r.id = id) f rows

section

variable (hash : String → String)

def ClaimArgs.key (c : ClaimArgs) : DurableKey :=
  ⟨c.sessionKeyKind, hash c.sessionKeyValue, c.apiKeyScope⟩

def claimSession (newId : String) (now : ℤ) (c : ClaimArgs) (rows : List SessionRecord) :
    List SessionRecord × SessionRecord :=
  match lookup SessionRecord.key rows (c.key hash) with
  | none =>
    let record := newRecord hash newId now c
    (rows ++ [record], record)
  | some existing =>
    if claimRefused now c existing then (rows, existing)
    else (writeRow existing.id (claimedRow now c) rows, claimedRow now c existing)

end

/-- The common body of `renew_session` and `release_session`: the row is written if the caller's
pair is the recorded one. -/
def writeIfHeld (sessionId instanceId : String) (epoch : ℤ) (f : SessionRecord → SessionRecord)
    (rows : List SessionRecord) : List SessionRecord × Option SessionRecord :=
  match rowById rows sessionId with
  | none => (rows, none)
  | some row =>
    if holdsLease instanceId epoch row then (writeRow row.id f rows, some (f row))
    else (rows, some row)

def renewSession (now : ℤ) (a : RenewArgs) : List SessionRecord →
    List SessionRecord × Option SessionRecord :=
  writeIfHeld a.sessionId a.instanceId a.ownerEpoch (renewedRow now a)

def releaseSession (now : ℤ) (a : ReleaseArgs) : List SessionRecord →
    List SessionRecord × Option SessionRecord :=
  writeIfHeld a.sessionId a.instanceId a.ownerEpoch (releasedRow now a.draining)

def markOwnerDraining (now : ℤ) (instanceId : String) (rows : List SessionRecord) :
    List SessionRecord × ℕ :=
  (updateWhere (ownedActive instanceId) (drainedRow now) rows,
    (rows.filter (ownedActive instanceId)).length)

/-! ## The written rows keep their identity -/

section

variable (now : ℤ) (c : ClaimArgs) (a : RenewArgs) (b : Bool) (r : SessionRecord)

@[simp] theorem claimedRow_id : (claimedRow now c r).id = r.id := rfl
@[simp] theorem claimedRow_key : (claimedRow now c r).key = r.key := rfl
@[simp] theorem claimedRow_owner : (claimedRow now c r).ownerInstanceId = some c.instanceId := rfl
@[simp] theorem renewedRow_id : (renewedRow now a r).id = r.id := rfl
@[simp] theorem renewedRow_key : (renewedRow now a r).key = r.key := rfl
@[simp] theorem renewedRow_epoch : (renewedRow now a r).ownerEpoch = r.ownerEpoch := rfl
@[simp] theorem releasedRow_id : (releasedRow now b r).id = r.id := rfl
@[simp] theorem releasedRow_key : (releasedRow now b r).key = r.key := rfl
@[simp] theorem releasedRow_epoch : (releasedRow now b r).ownerEpoch = r.ownerEpoch := rfl
@[simp] theorem drainedRow_id : (drainedRow now r).id = r.id := rfl
@[simp] theorem drainedRow_key : (drainedRow now r).key = r.key := rfl
@[simp] theorem drainedRow_epoch : (drainedRow now r).ownerEpoch = r.ownerEpoch := rfl

theorem claimedRow_epoch :
    (claimedRow now c r).ownerEpoch =
      if r.ownerInstanceId = some c.instanceId then r.ownerEpoch else r.ownerEpoch + 1 := by
  by_cases ho : r.ownerInstanceId = some c.instanceId <;> simp [claimedRow, ownerChanged, ho]

theorem holdsLease_iff {instanceId : String} {epoch : ℤ} :
    holdsLease instanceId epoch r = true ↔
      r.ownerInstanceId = some instanceId ∧ r.ownerEpoch = epoch := by
  simp [holdsLease]

end

theorem rowById_writeRow {f : SessionRecord → SessionRecord} (hf : ∀ r, (f r).id = r.id)
    (rows : List SessionRecord) (id k : String) :
    rowById (writeRow id f rows) k =
      (rowById rows k).map fun r => if r.id = id then f r else r := by
  simpa [writeRow] using
    lookup_updateWhere (p := fun r : SessionRecord => decide (r.id = id)) (t := rows)
      (k := k) hf

end CodexOctopus

import CodexOctopus.Python
import CodexOctopus.DurableFencing

/-!
# Local bridge sessions and their durable leases

One instance's `_http_bridge_sessions` map next to the durable table. A request
that needs a session pops sessions from the map under the lock (eviction at
capacity, replacement, a stale session), closes them after it has left the lock,
and then creates its own: it claims the durable row of the key and registers the
new session. Closing a session releases its durable row with the (instance,
epoch) pair that the session remembers.

`close_all_http_bridge_sessions`, the shutdown path, is not a step here. A popped
session may be closed more than once (a request that waited for the session's
creation closes it too), and a release may fail and leave the row alone.
-/

namespace CodexOctopus

open Table

/-- `_HTTPBridgeSessionKey`; its strength is a function of the kind. -/
structure BridgeKey where
  affinityKind : String
  affinityKey : String
  apiKeyId : Option String
  deriving DecidableEq

def durableBridgeApiKeyScope : Option String → String
  | none => "__anonymous__"
  | some apiKeyId =>
    let stripped := Python.strip apiKeyId
    if stripped = "" then "__anonymous__" else stripped

inductive BridgePhase : Type where
  /-- its creation is in `_http_bridge_inflight_sessions`, the row is not claimed -/
  | creating
  | claimed
  /-- it is in `_http_bridge_sessions` -/
  | registered
  | popped
  | closed
  deriving DecidableEq

structure BridgeSession where
  oid : ℕ
  key : BridgeKey
  token : Option (String × ℤ)
  phase : BridgePhase
  waits : List ℕ
  deriving DecidableEq

def BridgeSession.live (o : BridgeSession) : Bool :=
  match o.phase with
  | .creating | .claimed | .registered => true
  | .popped | .closed => false

structure LeaseState where
  db : DurableDb
  sessions : List BridgeSession
  releases : List (ℕ × List RowWrite)

structure SessionClaim where
  leaseTtl : ℤ
  accountId : String
  requestModel : Option String
  downstreamTurnState : Option String
  allowTakeover : Bool

inductive LeaseAct : Type where
  /-- A request in the locked region: the sessions it pops, and the session it starts
  to create, if it does. -/
  | enter (pops : List ℕ) (create : Option (ℕ × BridgeKey))
  /-- `_claim_durable_http_bridge_session`; `cancelled` if the request dies after the
  claim has committed. -/
  | claim (oid : ℕ) (now : ℤ) (newId : String) (a : SessionClaim) (cancelled : Bool)
  /-- The claim found no durable tables: the session goes on without a pair. -/
  | fallback (oid : ℕ)
  | register (oid : ℕ)
  /-- The creation fails or is cancelled before the session is registered. -/
  | abort (oid : ℕ)
  /-- `_refresh_durable_http_bridge_session`, on reuse of a registered session. -/
  | refresh (oid : ℕ) (now ttl : ℤ) (turnState : Option String)
  | touch (oid : ℕ) (now ttl : ℤ) (turnState responseId : Option String)
  /-- `_close_http_bridge_session` up to the read of `release_session`. -/
  | closeRead (oid : ℕ) (now : ℤ) (draining : Bool)
  | closeCommit (n : ℕ)
  | closeFail (n : ℕ)
  /-- `mark_http_bridge_draining` of this instance. -/
  | drain (now : ℤ)
  | foreign (now : ℤ) (op : DurableOp)

def DurableOp.caller : DurableOp → String
  | .claim _ c => c.instanceId
  | .renew a => a.instanceId
  | .release a => a.instanceId
  | .drain i => i

section

variable (hash : String → String) (self : String) (maxSessions : ℕ)

def BridgeSession.claimArgs (o : BridgeSession) (a : SessionClaim) : ClaimArgs where
  sessionKeyKind := o.key.affinityKind
  sessionKeyValue := o.key.affinityKey
  apiKeyScope := durableBridgeApiKeyScope o.key.apiKeyId
  instanceId := self
  leaseTtl := a.leaseTtl
  accountId := some a.accountId
  model := a.requestModel
  serviceTier := none
  latestTurnState := a.downstreamTurnState
  latestResponseId := none
  allowTakeover := a.allowTakeover

def renewWith (token : String × ℤ) (ttl : ℤ) (turnState responseId : Option String) : RenewArgs :=
  ⟨token.1, self, token.2, ttl, turnState, responseId, none⟩

def LeaseState.session (s : LeaseState) (oid : ℕ) : Option BridgeSession :=
  lookup BridgeSession.oid s.sessions oid

def LeaseState.relabel (s : LeaseState) (p : ℕ → Bool) (phase : BridgePhase) : LeaseState :=
  { s with sessions := updateWhere (fun o => p o.oid) ({ · with phase := phase }) s.sessions }

def LeaseState.set (s : LeaseState) (o : BridgeSession) : LeaseState :=
  { s with sessions := updateWhere (fun o' => o'.oid = o.oid) (fun _ => o) s.sessions }

def LeaseState.inPhase (s : LeaseState) (oid : ℕ) (ps : List BridgePhase) : Bool :=
  s.sessions.any fun o => o.oid = oid && ps.contains o.phase

def leaseStep (s : LeaseState) : LeaseAct → Option LeaseState
  | .enter pops create =>
    if pops.all (s.inPhase · [.registered]) then
      let s₁ := s.relabel (pops.contains ·) .popped
      match create with
      | none => some s₁
      | some (oid, key) =>
        -- the key must be free, and a request at capacity waits
        if s₁.session oid = none ∧ (∀ o ∈ s₁.sessions, o.live = true → o.key ≠ key) ∧
            (s₁.sessions.filter BridgeSession.live).length < maxSessions then
          some { s₁ with sessions := s₁.sessions ++ [⟨oid, key, none, .creating, pops⟩] }
        else none
    else none
  | .claim oid now newId a cancelled =>
    match s.session oid with
    | none => none
    | some o =>
      if o.phase = .creating ∧ o.waits.all (s.inPhase · [.closed]) then
        let c := o.claimArgs self a
        (durableStep hash s.db (now, .claim newId c)).map fun db =>
          let snapshot := (claimSession hash newId now c s.db.rows).2
          if cancelled = false ∧ snapshot.ownerInstanceId = some self then
            { s with db := db }.set
              { o with token := some (snapshot.id, snapshot.ownerEpoch), phase := .claimed }
          else { s with db := db }.relabel (· = oid) .popped
      else none
  | .fallback oid =>
    if s.inPhase oid [.creating] then some (s.relabel (· = oid) .claimed) else none
  | .register oid =>
    if s.inPhase oid [.claimed] then some (s.relabel (· = oid) .registered) else none
  | .abort oid =>
    if s.inPhase oid [.creating, .claimed] then some (s.relabel (· = oid) .popped) else none
  | .refresh oid now ttl turnState =>
    match s.session oid with
    | none => none
    | some o =>
      if o.phase = .registered then
        match o.token with
        | none => some s
        | some token =>
          let a := renewWith self token ttl turnState none
          (durableStep hash s.db (now, .renew a)).map fun db =>
            match (renewSession now a s.db.rows).2 with
            | none => { s with db := db }
            | some snapshot =>
              { s with db := db }.set { o with token := some (token.1, snapshot.ownerEpoch) }
      else none
  | .touch oid now ttl turnState responseId =>
    match (s.session oid).bind BridgeSession.token with
    | none => none
    | some token =>
      (durableStep hash s.db (now, .renew (renewWith self token ttl turnState responseId))).map
        fun db => { s with db := db }
  | .closeRead oid now draining =>
    match s.session oid with
    | none => none
    | some o =>
      if o.live then none
      else
        match o.token.bind fun token =>
            readHeld token.1 self token.2 (releasedRow now draining) s.db.rows with
        | none => some (s.relabel (· = oid) .closed)
        | some ws => some { s with releases := s.releases ++ [(oid, ws)] }
  | .closeCommit n =>
    s.releases[n]?.map fun p =>
      { s with
        db := { s.db with rows := commitWrites p.2 s.db.rows }
        releases := s.releases.eraseIdx n }.relabel (· = p.1) .closed
  | .closeFail n =>
    s.releases[n]?.map fun p =>
      { s with releases := s.releases.eraseIdx n }.relabel (· = p.1) .closed
  | .drain now => (durableStep hash s.db (now, .drain self)).map fun db => { s with db := db }
  | .foreign now op =>
    if op.caller = self then none
    else (durableStep hash s.db (now, op)).map fun db => { s with db := db }

end

end CodexOctopus

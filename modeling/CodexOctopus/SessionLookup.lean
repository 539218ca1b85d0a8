import CodexOctopus.BridgeLease

/-!
# Finding a bridge session

`_get_or_create_http_bridge_session`: one pass of its loop as far as it runs under
`_http_bridge_lock`. The pass settles the key (a turn-state alias may lead to another one),
prunes, reuses or discards the session of the key, checks which instance owns the key, falls
back to the session that the previous response came from, and at last makes room for a session
and reserves the key.

* `resolveKey`, `BridgeRegistry.prune`, `ownerCheck`, `reserveKey` are its parts in order and
  `findSession` is the pass.

Session objects have an identity; the dictionaries map keys to identities. A future is named
by the pass that created it. Sessions past their idle time and the order of eviction are
arguments, as are the answers of the ring.
-/

namespace CodexOctopus

open Table

/-! ## Sessions and their dictionaries -/

structure ApiKeyScope where
  id : String
  accountAssignmentScopeEnabled : Bool
  assignedAccountIds : List String
  deriving DecidableEq

def ApiKeyScope.allows (accountId : String) : Option ApiKeyScope → Bool
  | none => true
  | some k => !k.accountAssignmentScopeEnabled || k.assignedAccountIds.contains accountId

structure HttpSession where
  oid : ℕ
  key : BridgeKey
  accountId : String
  accountActive : Bool
  closed : Bool
  /-- the `upstream_reader` task runs -/
  reading : Bool
  downstreamTurnStateAliases : List String
  previousResponseIds : List String

namespace HttpSession

def usable (o : HttpSession) : Bool := !o.closed && o.accountActive

def live (o : HttpSession) : Bool := !o.closed && o.reading

def allowsApiKey (o : HttpSession) (apiKey : Option ApiKeyScope) : Bool :=
  ApiKeyScope.allows o.accountId apiKey

/-- The object after `_close_http_bridge_session`; its reader is cancelled and ends in its own
time. -/
def shut (o : HttpSession) : HttpSession :=
  { o with closed := true, downstreamTurnStateAliases := [], previousResponseIds := [] }

end HttpSession

abbrev AliasIndex : Type := List ((String × Option String) × BridgeKey)

structure BridgeRegistry where
  objects : List HttpSession
  sessions : List (BridgeKey × ℕ)
  inflight : List (BridgeKey × ℕ)
  turnStateIndex : AliasIndex
  previousResponseIndex : AliasIndex

namespace BridgeRegistry

def object (g : BridgeRegistry) (oid : ℕ) : Option HttpSession :=
  lookup HttpSession.oid g.objects oid

def session (g : BridgeRegistry) (key : BridgeKey) : Option HttpSession :=
  (lookup Prod.fst g.sessions key).bind fun x => g.object x.2

def future (g : BridgeRegistry) (key : BridgeKey) : Option ℕ :=
  (lookup Prod.fst g.inflight key).map Prod.snd

def set (g : BridgeRegistry) (oid : ℕ) (f : HttpSession → HttpSession) : BridgeRegistry :=
  { g with objects := updateWhere (fun o => o.oid = oid) f g.objects }

def pop (g : BridgeRegistry) (key : BridgeKey) : BridgeRegistry :=
  { g with sessions := g.sessions.filter fun x => x.1 ≠ key }

def unregisterTurnStates (g : BridgeRegistry) (o : HttpSession) : BridgeRegistry :=
  { g.set o.oid fun o => { o with downstreamTurnStateAliases := [] } with
    turnStateIndex := g.turnStateIndex.filter fun e =>
      !(e.1.2 = o.key.apiKeyId && o.downstreamTurnStateAliases.contains e.1.1) }

def close (g : BridgeRegistry) (oids : List ℕ) : BridgeRegistry :=
  let gone := g.objects.filter fun o => oids.contains o.oid
  { g with
    objects := updateWhere (fun o => oids.contains o.oid) HttpSession.shut g.objects
    turnStateIndex := g.turnStateIndex.filter fun e =>
      !gone.any fun o => e.1.2 = o.key.apiKeyId && o.downstreamTurnStateAliases.contains e.1.1
    previousResponseIndex := g.previousResponseIndex.filter fun e =>
      !gone.any fun o => e.1.2 = o.key.apiKeyId && o.previousResponseIds.contains e.1.1 }

/-- `_promote_http_bridge_session_to_codex_affinity` and `_register_http_bridge_turn_state`. -/
def addTurnState (g : BridgeRegistry) (o : HttpSession) (turnState : String) : BridgeRegistry :=
  let aliases := o.downstreamTurnStateAliases.insert turnState
  { g.set o.oid fun o => { o with downstreamTurnStateAliases := aliases } with
    turnStateIndex :=
      g.turnStateIndex.filter (fun e => !(e.1.2 = o.key.apiKeyId && aliases.contains e.1.1)) ++
        aliases.map fun a => ((a, o.key.apiKeyId), o.key) }

def addPreviousResponseId (g : BridgeRegistry) (o : HttpSession) (responseId : String) :
    BridgeRegistry :=
  let stripped := Python.strip responseId
  if stripped = "" then g
  else
    { g.set o.oid fun o => { o with previousResponseIds := o.previousResponseIds.insert stripped
      } with
      previousResponseIndex :=
        g.previousResponseIndex.filter (fun e => e.1 ≠ (stripped, o.key.apiKeyId)) ++
          [((stripped, o.key.apiKeyId), o.key)] }

/-- `_prune_http_bridge_sessions_locked`: closed sessions and the `idle` ones are popped and
closed. -/
def prune (g : BridgeRegistry) (idle : List ℕ) : BridgeRegistry :=
  let stale := g.sessions.filter fun x =>
    (g.object x.2).any HttpSession.closed || idle.contains x.2
  { g with sessions := g.sessions.filter fun x => !stale.contains x }.close (stale.map Prod.snd)

def size (g : BridgeRegistry) : ℕ := g.sessions.length + g.inflight.length

/-- The eviction loop: sessions with nothing pending are popped until there is room; and what was
popped. -/
def makeRoom (maxSessions : ℕ) : List ℕ → BridgeRegistry → BridgeRegistry × List ℕ
  | [], g => (g, [])
  | oid :: rest, g =>
    if maxSessions ≤ g.size ∧ ∃ x ∈ g.sessions, x.2 = oid then
      let evicted := { g with sessions := g.sessions.filter fun x => x.2 ≠ oid }
      let r := makeRoom maxSessions rest evicted
      (r.1, oid :: r.2)
    else makeRoom maxSessions rest g

end BridgeRegistry

/-! ## The arguments -/

structure SessionRequest where
  key : BridgeKey
  apiKey : Option ApiKeyScope
  incomingTurnState : Option String
  incomingSessionKey : Option String
  previousResponseId : Option String
  gatewaySafeMode : Bool
  allowForwardToOwner : Bool
  forwardedRequest : Bool
  forwardedAffinity : Bool
  allowPreviousResponseRecoveryRebind : Bool
  allowBootstrapOwnerRebind : Bool
  durableLookup : Option SessionRecord

/-- What a pass is told by others; a lookup in the ring that raises is `none`. -/
structure LookupEnv where
  now : ℤ
  currentInstance : String
  drainActive : Bool
  hasRingMembership : Bool
  ringOwner : Option String
  ringSize : Option ℕ
  ownerEndpoint : Option String
  idle : List ℕ
  evictable : List ℕ

/-- `ProxyResponseError`: the status and the OpenAI error. -/
structure BridgeError where
  status : ℕ
  code : String
  message : String
  errorType : String
  param : Option String
  deriving DecidableEq

inductive LookupOutcome : Type where
  | reuse (oid : ℕ)
  | reusePrevious (oid : ℕ)
  | raised (error : Option BridgeError)
  | forward
  | failed (error : BridgeError)
  /-- there is no room; the pass waits for a session that is being created -/
  | awaitCapacity (future : ℕ)
  | await (key : BridgeKey) (future : ℕ)
  | create (key : BridgeKey)

namespace SessionRequest

def apiKeyId (r : SessionRequest) : Option String := r.apiKey.map ApiKeyScope.id

def hasDurableRecoveryAnchor (r : SessionRequest) : Bool :=
  r.previousResponseId.isSome || r.durableLookup.any fun d => d.latestResponseId.isSome

def durableActiveOwner (r : SessionRequest) (now : ℤ) : Option String :=
  r.durableLookup.bind fun d =>
    if d.state = .closed then none
    else d.leaseExpiresAt.bind fun expires => if expires ≤ now then none else d.ownerInstanceId

def allowsLocalReuse (r : SessionRequest) (env : LookupEnv) : Bool :=
  r.durableLookup.isNone || r.durableActiveOwner env.now = some env.currentInstance

def canLocalRecoverWithoutRing (r : SessionRequest) (key : BridgeKey) : Bool :=
  r.hasDurableRecoveryAnchor ||
    key.affinityKind = "session_header" && r.previousResponseId.isNone &&
      r.incomingTurnState.isNone

def ownerCheckRequired (r : SessionRequest) (key : BridgeKey) : Bool :=
  ["turn_state_header", "session_header"].contains key.affinityKind ||
    r.gatewaySafeMode && key.affinityKind = "sticky_thread"

end SessionRequest

/-! ## The key -/

structure KeyChoice where
  registry : BridgeRegistry
  key : BridgeKey
  missingTurnStateAlias : Bool
  usedSessionHeaderFallback : Bool

/-- The session that the previous response came from, if it can be used; else it is no longer
indexed. -/
def previousSession (g : BridgeRegistry) (r : SessionRequest) :
    BridgeRegistry × Option HttpSession :=
  match r.previousResponseId with
  | none => (g, none)
  | some responseId =>
    let aliasKey := (Python.strip responseId, r.apiKeyId)
    match lookup Prod.fst g.previousResponseIndex aliasKey with
    | none => (g, none)
    | some e =>
      match (g.session e.2).filter HttpSession.usable with
      | some o => (g, some o)
      | none =>
        ({ g with previousResponseIndex := g.previousResponseIndex.filter fun e => e.1 ≠ aliasKey },
          none)

/-- The first part of the pass: a turn state leads to the key of its session. One without alias
falls back to the previous response; the source then starts the loop again. -/
def resolveKey (g : BridgeRegistry) (r : SessionRequest) : KeyChoice :=
  match r.incomingTurnState with
  | none => ⟨g, r.key, false, false⟩
  | some turnState =>
    if r.forwardedAffinity then ⟨g, r.key, false, false⟩
    else
      let turnStateKey : BridgeKey := ⟨"turn_state_header", turnState, r.apiKeyId⟩
      match lookup Prod.fst g.turnStateIndex (turnState, r.apiKeyId) with
      | some e =>
        match (g.session e.2).filter HttpSession.usable with
        | some o => ⟨g.addTurnState o turnState, o.key, false, false⟩
        | none =>
          ⟨{ g with turnStateIndex :=
              g.turnStateIndex.filter fun e => e.1 ≠ (turnState, r.apiKeyId) },
            turnStateKey, false, false⟩
      | none =>
        if "http_turn_".toList.isPrefixOf turnState.toList then
          match previousSession g r with
          | (g, some o) => ⟨g.addTurnState o turnState, o.key, false, false⟩
          | (g, none) =>
            match r.incomingSessionKey with
            | some sessionKey => ⟨g, ⟨"session_header", sessionKey, r.apiKeyId⟩, false, true⟩
            | none => ⟨g, turnStateKey, true, false⟩
        else ⟨g, r.key, false, false⟩

/-! ## The owner -/

inductive OwnerDecision : Type where
  | here
  | forward
  | mismatch (error : BridgeError)
  | raised
  deriving DecidableEq

def forwardLoopError : BridgeError :=
  ⟨503, "bridge_forward_loop_prevented",
    "HTTP bridge owner forwarding reached a non-owner replica twice", "server_error", none⟩

def instanceMismatchError : BridgeError :=
  ⟨409, "bridge_instance_mismatch",
    "HTTP bridge session is owned by a different instance; retry to reach the correct replica",
    "server_error", none⟩

def ownerMismatch (r : SessionRequest) (env : LookupEnv) (required : Bool) : OwnerDecision :=
  let recover := if r.hasDurableRecoveryAnchor then .here else .mismatch instanceMismatchError
  if required && !(r.previousResponseId.isSome && r.allowPreviousResponseRecoveryRebind) &&
      !r.allowBootstrapOwnerRebind then
    if r.allowForwardToOwner then
      if r.forwardedRequest then .mismatch forwardLoopError
      else if env.hasRingMembership && env.ownerEndpoint.isSome then .forward
      else recover
    else recover
  else .here

def ownerCheck (r : SessionRequest) (env : LookupEnv) (key : BridgeKey) : OwnerDecision :=
  let required := r.ownerCheckRequired key
  if !required && key.affinityKind ≠ "prompt_cache" then .here
  else
    let recover := r.canLocalRecoverWithoutRing key
    let owner := (r.durableActiveOwner env.now <|> env.ringOwner) <|>
      if recover then some env.currentInstance else none
    let ringSize := env.ringSize <|> if recover then some 1 else none
    match owner, ringSize with
    | some owner, some ringSize =>
      if owner ≠ env.currentInstance ∧ (1 < ringSize ∨ r.durableLookup.isSome) then
        ownerMismatch r env required
      else .here
    | _, _ => .raised

/-! ## The pass -/

def drainError : BridgeError :=
  ⟨503, "bridge_drain_active",
    "HTTP bridge is draining — new sessions not accepted during shutdown", "server_error", none⟩

/-- `_http_bridge_previous_response_error_envelope` for a lost continuity. -/
def continuityError (previousResponseId : String) : BridgeError :=
  ⟨400, "previous_response_not_found",
    "Previous response with id '" ++ previousResponseId ++ "' not found. " ++
      "HTTP bridge continuity was lost. Replay x-codex-turn-state " ++
      "or retry with a stable prompt_cache_key.",
    "invalid_request_error", some "previous_response_id"⟩

def turnStateError : BridgeError :=
  ⟨409, "bridge_instance_mismatch", "HTTP bridge turn-state did not match a live session",
    "server_error", none⟩

def capacityError : BridgeError :=
  ⟨429, "rate_limit_exceeded", "HTTP responses session bridge has no idle capacity",
    "rate_limit_error", none⟩

/-- What the locked part of a pass leaves: the registry, `sessions_to_close` and the outcome. -/
structure LookupResult where
  registry : BridgeRegistry
  sessionsToClose : List ℕ
  outcome : LookupOutcome

/-- A request that goes to the owner of its key does so whatever the rest of the pass decided;
a reservation made by then stays. -/
def leaveLock (forward : Bool) (outcome : LookupOutcome) : LookupOutcome :=
  if forward then .forward else outcome

def reserveKey (maxSessions callId : ℕ) (r : SessionRequest) (env : LookupEnv) (c : KeyChoice)
    (forward : Bool) (key : BridgeKey) (future : Option ℕ) (closing : List ℕ)
    (g : BridgeRegistry) : LookupResult :=
  if r.previousResponseId.isSome && !c.usedSessionHeaderFallback &&
      !r.allowPreviousResponseRecoveryRebind && r.durableLookup.isNone then
    ⟨g, closing, leaveLock forward (.failed (continuityError (r.previousResponseId.getD "")))⟩
  else if c.missingTurnStateAlias && future.isNone && r.durableLookup.isNone then
    ⟨g, closing, leaveLock forward (.failed turnStateError)⟩
  else
    match future with
    | some future => ⟨g, closing, leaveLock forward (.await key future)⟩
    | none =>
      let room := g.makeRoom maxSessions env.evictable
      if maxSessions ≤ room.1.size then
        match room.1.inflight with
        | x :: _ => ⟨room.1, closing ++ room.2, leaveLock forward (.awaitCapacity x.2)⟩
        | [] => ⟨room.1, closing ++ room.2, .raised (some capacityError)⟩
      else
        ⟨{ room.1 with inflight := room.1.inflight ++ [(key, callId)] }, closing ++ room.2,
          leaveLock forward (.create key)⟩

def claimKey (maxSessions callId : ℕ) (r : SessionRequest) (env : LookupEnv) (c : KeyChoice)
    (forward : Bool) (closing : List ℕ) (g : BridgeRegistry) : LookupResult :=
  match g.future c.key with
  | some future => reserveKey maxSessions callId r env c forward c.key (some future) closing g
  | none =>
    match previousSession g r with
    | (g, none) => reserveKey maxSessions callId r env c forward c.key none closing g
    | (g, some o) =>
      let g := match r.incomingTurnState with
        | none => g
        | some turnState => if turnState = "" then g else g.addTurnState o turnState
      match g.future o.key with
      | none => ⟨g, closing, .reusePrevious o.oid⟩
      | some future => reserveKey maxSessions callId r env c forward o.key (some future) closing g

/-- The pass once the session of the key cannot be reused; one left in the map is `stale`. -/
def replaceSession (maxSessions callId : ℕ) (r : SessionRequest) (env : LookupEnv) (c : KeyChoice)
    (stale : Option HttpSession) (closing : List ℕ) (g : BridgeRegistry) : LookupResult :=
  if env.drainActive && !r.hasDurableRecoveryAnchor then ⟨g, closing, .raised (some drainError)⟩
  else
    match ownerCheck r env c.key with
    | .raised => ⟨g, closing, .raised none⟩
    | .mismatch error =>
      match stale with
      | none => ⟨g, closing, .failed error⟩
      | some o => ⟨g.pop c.key, closing ++ [o.oid], .failed error⟩
    | owner =>
      match stale with
      | none => claimKey maxSessions callId r env c (owner = .forward) closing g
      | some o =>
        claimKey maxSessions callId r env c (owner = .forward) (closing ++ [o.oid]) (g.pop c.key)

def findSession (maxSessions callId : ℕ) (r : SessionRequest) (env : LookupEnv)
    (g : BridgeRegistry) : LookupResult :=
  let c := resolveKey g r
  let g := c.registry.prune env.idle
  match g.session c.key with
  | none => replaceSession maxSessions callId r env c none [] g
  | some o =>
    if o.usable then
      if o.allowsApiKey r.apiKey && r.allowsLocalReuse env then ⟨g, [], .reuse o.oid⟩
      else
        -- the source marks the session as closed at once and closes it after the lock
        let g := ((g.pop c.key).unregisterTurnStates o).set o.oid fun o => { o with closed := true }
        replaceSession maxSessions callId r env c none [o.oid] g
    else replaceSession maxSessions callId r env c (some o) [] g

end CodexOctopus

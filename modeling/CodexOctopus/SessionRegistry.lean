import CodexOctopus.LookupMoves

/-!
# The bridge sessions of an instance

Calls of `_get_or_create_http_bridge_session` next to the readers of the sessions and to the
submits that use a session they were given. The part of a pass under the lock and the closing
of what it popped are one step: a popped session is marked as closed before anything else runs
(a second one in the same pass only after the first is closed). The renewal of the durable
lease, for which a pass keeps the lock and waits, ends in a step of its own; so do the creation
of a session and the claim of its durable row.

A call that starts its loop over is a new call here. `max_sessions` is fixed.
-/

namespace CodexOctopus

open List Option Table

/-! ## Account selection -/

structure AccountChoice where
  preferredAccountId : Option String
  excludedAccountIds : List String
  ranking : List String

def selectAccount (accountIds : Option (List String)) (excluded ranking : List String) :
    Option String :=
  ranking.find? fun a => accountIds.all (fun ids => ids.contains a) && !excluded.contains a

def scopedAccountIds (apiKey : Option ApiKeyScope) : Option (List String) :=
  apiKey.bind fun k => if k.accountAssignmentScopeEnabled then some k.assignedAccountIds else none

/-- `_select_account_with_budget`: the preferred account if it may be used, else one within the
scope of the key. -/
def selectAccountWithBudget (apiKey : Option ApiKeyScope) (choice : AccountChoice) :
    Option String :=
  let accountIds := scopedAccountIds apiKey
  let preferred := choice.preferredAccountId.filter fun p =>
    !choice.excludedAccountIds.contains p && accountIds.all fun ids => ids.contains p
  (preferred.bind fun p => selectAccount (some [p]) [] choice.ranking) <|>
    selectAccount accountIds choice.excludedAccountIds choice.ranking

/-! ## The system -/

inductive CallPhase : Type where
  /-- it has found a session and renews the durable lease, under the lock -/
  | reusing (oid : ℕ)
  | awaiting (key : BridgeKey) (future : ℕ)
  | creating (key : BridgeKey)
  | created (key : BridgeKey) (oid : ℕ)
  deriving DecidableEq

structure BridgeCall where
  callId : ℕ
  request : SessionRequest
  phase : CallPhase

structure ReturnedSession where
  callId : ℕ
  apiKey : Option ApiKeyScope
  oid : ℕ
  accountId : String
  deriving DecidableEq

structure BridgeCalls where
  registry : BridgeRegistry
  calls : List BridgeCall
  futures : List (ℕ × Option ℕ)
  returned : List ReturnedSession
  callIds : List ℕ

def newBridgeCalls : BridgeCalls := ⟨⟨[], [], [], [], []⟩, [], [], [], []⟩

inductive BridgeAct : Type where
  | lookup (callId : ℕ) (request : SessionRequest) (env : LookupEnv)
  | reused (callId : ℕ)
  | abandon (callId : ℕ)
  /-- `_create_http_bridge_session` has connected a session -/
  | create (callId oid : ℕ) (choice : AccountChoice)
  | creationFailed (callId : ℕ)
  /-- the durable row is claimed: the session is registered and returned -/
  | register (callId : ℕ)
  | wake (callId : ℕ) (env : LookupEnv)
  | readerEnds (oid : ℕ)
  /-- `_reconnect_http_bridge_session` for a request that was given the session; the reader is
  restarted, or it is the reader that reconnects -/
  | reconnect (callId : ℕ) (choice : AccountChoice) (restartReader : Bool)
  | statusChanged (oid : ℕ) (active : Bool)
  | registerTurnState (oid : ℕ) (turnState : String)
  | registerPreviousResponseId (oid : ℕ) (responseId : String)
  | closeAll

namespace BridgeCalls

def call (s : BridgeCalls) (callId : ℕ) : Option BridgeCall :=
  lookup BridgeCall.callId s.calls callId

def locked (s : BridgeCalls) : Bool :=
  s.calls.any fun t => match t.phase with
    | .reusing _ => true
    | _ => false

def setPhase (s : BridgeCalls) (callId : ℕ) (phase : CallPhase) : BridgeCalls :=
  { s with calls :=
      updateWhere (fun t => t.callId = callId) (fun t => { t with phase := phase }) s.calls }

def finish (s : BridgeCalls) (callId : ℕ) : BridgeCalls :=
  { s with calls := s.calls.filter fun t => t.callId ≠ callId }

def giveBack (s : BridgeCalls) (t : BridgeCall) (o : HttpSession) : BridgeCalls :=
  { s.finish t.callId with
    returned := s.returned ++ [⟨t.callId, t.request.apiKey, o.oid, o.accountId⟩] }

/-- A pass after its locked part. `sessions_to_close` is closed, unless there was an error or a
session is reused. -/
def afterLookup (s : BridgeCalls) (callId : ℕ) (r : SessionRequest) (result : LookupResult) :
    BridgeCalls :=
  let s := { s with callIds := callId :: s.callIds }
  let closed := result.registry.close result.sessionsToClose
  match result.outcome with
  | .reuse oid | .reusePrevious oid =>
    { s with registry := result.registry, calls := s.calls ++ [⟨callId, r, .reusing oid⟩] }
  | .raised _ => { s with registry := result.registry }
  | .forward | .failed _ | .awaitCapacity _ => { s with registry := closed }
  | .await key future =>
    { s with registry := closed, calls := s.calls ++ [⟨callId, r, .awaiting key future⟩] }
  | .create key =>
    { s with registry := closed, calls := s.calls ++ [⟨callId, r, .creating key⟩] }

def settle (s : BridgeCalls) (key : BridgeKey) (callId : ℕ) (result : Option ℕ) : BridgeCalls :=
  if s.registry.future key = some callId then
    { s with
      registry := { s.registry with inflight := s.registry.inflight.filter fun x => x.1 ≠ key }
      futures := s.futures ++ [(callId, result)] }
  else s

/-- `_http_bridge_sessions[key] = session`, if the key is still reserved for the call. -/
def registerSession (s : BridgeCalls) (key : BridgeKey) (callId oid : ℕ) : BridgeCalls :=
  if s.registry.future key = some callId then
    { s with registry :=
        { s.registry with
          sessions := s.registry.sessions.filter (fun x => x.1 ≠ key) ++ [(key, oid)] } }
  else s

def useAwaited (s : BridgeCalls) (t : BridgeCall) (key : BridgeKey) (o : HttpSession)
    (env : LookupEnv) : BridgeCalls :=
  if o.usable && o.allowsApiKey t.request.apiKey && t.request.allowsLocalReuse env then
    s.giveBack t o
  else if o.usable then
    let popped := { s.registry with sessions := s.registry.sessions.filter (· ≠ (key, o.oid)) }
    { s.finish t.callId with registry := popped.close [o.oid] }
  else s.finish t.callId

end BridgeCalls

def newSession (oid : ℕ) (key : BridgeKey) (accountId : String) : HttpSession where
  oid := oid
  key := key
  accountId := accountId
  accountActive := true
  closed := false
  reading := true
  downstreamTurnStateAliases := []
  previousResponseIds := []

def bridgeCallStep (s : BridgeCalls) (t : BridgeCall) : BridgeAct → Option BridgeCalls
  | .reused _ =>
    match t.phase with
    | .reusing oid => (s.registry.object oid).map (s.giveBack t)
    | _ => none
  | .abandon _ =>
    match t.phase with
    | .reusing _ | .awaiting _ _ => some (s.finish t.callId)
    | _ => none
  | .create _ oid choice =>
    match t.phase, selectAccountWithBudget t.request.apiKey choice with
    | .creating key, some accountId =>
      if (s.registry.object oid).isSome then none
      else
        some { s.setPhase t.callId (.created key oid) with
          registry :=
            { s.registry with objects := s.registry.objects ++ [newSession oid key accountId] } }
    | _, _ => none
  | .creationFailed _ =>
    if s.locked then none
    else
      match t.phase with
      | .creating key => some ((s.settle key t.callId none).finish t.callId)
      | .created key oid =>
        let s := s.settle key t.callId none
        some { s.finish t.callId with registry := s.registry.close [oid] }
      | _ => none
  | .register _ =>
    if s.locked then none
    else
      match t.phase with
      | .created key oid =>
        (s.registry.object oid).map fun o =>
          ((s.registerSession key t.callId oid).settle key t.callId (some oid)).giveBack t o
      | _ => none
  | .wake _ env =>
    match t.phase with
    | .awaiting key future =>
      match lookup Prod.fst s.futures future with
      | none => none
      | some (_, none) => some (s.finish t.callId)
      | some (_, some oid) => (s.registry.object oid).map fun o => s.useAwaited t key o env
    | _ => none
  | _ => none

/-- The dictionaries that `close_all_http_bridge_sessions` empties under the lock. -/
def BridgeRegistry.cleared (g : BridgeRegistry) : BridgeRegistry :=
  { g with sessions := [], inflight := [], previousResponseIndex := [] }

def bridgeSessionStep (s : BridgeCalls) : BridgeAct → Option BridgeCalls
  | .readerEnds oid =>
    some { s with registry := s.registry.set oid fun o =>
      { o with closed := true, reading := false } }
  | .reconnect callId choice restartReader =>
    (lookup ReturnedSession.callId s.returned callId).bind fun x =>
      (selectAccountWithBudget x.apiKey choice).bind fun accountId =>
        (s.registry.object x.oid).bind fun o =>
          if restartReader || o.reading then
            some { s with registry := s.registry.set x.oid fun o =>
              { o with accountId := accountId, accountActive := true, closed := false,
                       reading := true } }
          else none
  | .statusChanged oid active =>
    some { s with registry := s.registry.set oid fun o => { o with accountActive := active } }
  | .registerTurnState oid turnState =>
    if s.locked then none
    else
      (s.registry.object oid).map fun o =>
        if o.closed then s else { s with registry := s.registry.addTurnState o turnState }
  | .registerPreviousResponseId oid responseId =>
    if s.locked then none
    else
      (s.registry.object oid).map fun o =>
        if o.closed then s else { s with registry := s.registry.addPreviousResponseId o responseId }
  | .closeAll =>
    if s.locked then none
    else
      some { s with registry := s.registry.cleared.close (s.registry.sessions.map Prod.snd) }
  | _ => none

def BridgeAct.callId : BridgeAct → Option ℕ
  | .reused id | .abandon id | .create id _ _ | .creationFailed id | .register id | .wake id _ =>
    some id
  | _ => none

/-- **A step of the instance.** -/
def bridgeStep (maxSessions : ℕ) (s : BridgeCalls) (a : BridgeAct) : Option BridgeCalls :=
  match a with
  | .lookup callId r env =>
    if s.locked ∨ callId ∈ s.callIds then none
    else some (s.afterLookup callId r (findSession maxSessions callId r env s.registry))
  | a =>
    match a.callId with
    | some callId => (s.call callId).bind fun t => bridgeCallStep s t a
    | none => bridgeSessionStep s a

/-! ## What a step does -/

/-- **The moves of the instance**, with what the step has found. -/
inductive BridgeMove (maxSessions : ℕ) (s : BridgeCalls) : BridgeAct → BridgeCalls → Prop
  | lookup {callId : ℕ} {r : SessionRequest} {env : LookupEnv} (hnew : callId ∉ s.callIds) :
      BridgeMove maxSessions s (.lookup callId r env)
        (s.afterLookup callId r (findSession maxSessions callId r env s.registry))
  | reused {callId oid : ℕ} {t : BridgeCall} {o : HttpSession} (ht : s.call callId = some t)
      (hphase : t.phase = .reusing oid) (ho : s.registry.object oid = some o) :
      BridgeMove maxSessions s (.reused callId) (s.giveBack t o)
  | abandon {callId : ℕ} {t : BridgeCall} (ht : s.call callId = some t)
      (hphase : (∃ oid, t.phase = .reusing oid) ∨ ∃ key future, t.phase = .awaiting key future) :
      BridgeMove maxSessions s (.abandon callId) (s.finish t.callId)
  | create {callId oid : ℕ} {choice : AccountChoice} {t : BridgeCall} {key : BridgeKey}
      {accountId : String} (ht : s.call callId = some t) (hphase : t.phase = .creating key)
      (hselect : selectAccountWithBudget t.request.apiKey choice = some accountId)
      (hnew : s.registry.object oid = none) :
      BridgeMove maxSessions s (.create callId oid choice)
        { s.setPhase t.callId (.created key oid) with
          registry :=
            { s.registry with objects := s.registry.objects ++ [newSession oid key accountId] } }
  | createFailed {callId : ℕ} {t : BridgeCall} {key : BridgeKey} (ht : s.call callId = some t)
      (hphase : t.phase = .creating key) :
      BridgeMove maxSessions s (.creationFailed callId)
        ((s.settle key t.callId none).finish t.callId)
  | claimFailed {callId oid : ℕ} {t : BridgeCall} {key : BridgeKey}
      (ht : s.call callId = some t) (hphase : t.phase = .created key oid) :
      BridgeMove maxSessions s (.creationFailed callId)
        { (s.settle key t.callId none).finish t.callId with
          registry := (s.settle key t.callId none).registry.close [oid] }
  | register {callId oid : ℕ} {t : BridgeCall} {key : BridgeKey} {o : HttpSession}
      (ht : s.call callId = some t) (hphase : t.phase = .created key oid)
      (ho : s.registry.object oid = some o) :
      BridgeMove maxSessions s (.register callId)
        (((s.registerSession key t.callId oid).settle key t.callId (some oid)).giveBack t o)
  | wakeFailed {callId : ℕ} {env : LookupEnv} {t : BridgeCall} (ht : s.call callId = some t) :
      (∃ key future, t.phase = .awaiting key future) →
      BridgeMove maxSessions s (.wake callId env) (s.finish t.callId)
  | wake {callId future : ℕ} {env : LookupEnv} {t : BridgeCall} {key : BridgeKey}
      {o : HttpSession} (ht : s.call callId = some t) (hphase : t.phase = .awaiting key future)
      (ho : s.registry.object o.oid = some o) :
      BridgeMove maxSessions s (.wake callId env) (s.useAwaited t key o env)
  | readerEnds {oid : ℕ} :
      BridgeMove maxSessions s (.readerEnds oid)
        { s with registry :=
            s.registry.set oid fun o => { o with closed := true, reading := false } }
  | reconnect {callId : ℕ} {choice : AccountChoice} {restartReader : Bool} {x : ReturnedSession}
      {accountId : String} (hx : lookup ReturnedSession.callId s.returned callId = some x)
      (hselect : selectAccountWithBudget x.apiKey choice = some accountId) :
      BridgeMove maxSessions s (.reconnect callId choice restartReader)
        { s with registry := s.registry.set x.oid fun o =>
            { o with accountId := accountId, accountActive := true, closed := false,
                     reading := true } }
  | statusChanged {oid : ℕ} {active : Bool} :
      BridgeMove maxSessions s (.statusChanged oid active)
        { s with registry := s.registry.set oid fun o => { o with accountActive := active } }
  | skip {a : BridgeAct} : BridgeMove maxSessions s a s
  | registerTurnState {oid : ℕ} {turnState : String} {o : HttpSession} :
      BridgeMove maxSessions s (.registerTurnState oid turnState)
        { s with registry := s.registry.addTurnState o turnState }
  | registerPreviousResponseId {oid : ℕ} {responseId : String} {o : HttpSession} :
      BridgeMove maxSessions s (.registerPreviousResponseId oid responseId)
        { s with registry := s.registry.addPreviousResponseId o responseId }
  | closeAll :
      BridgeMove maxSessions s .closeAll
        { s with registry := s.registry.cleared.close (s.registry.sessions.map Prod.snd) }

section Moves

variable {maxSessions : ℕ} {s s' : BridgeCalls} {a : BridgeAct}

theorem bridgeCallStep_move {t : BridgeCall} {callId : ℕ} (ht : s.call callId = some t)
    (hid : a.callId = some callId) (hs : bridgeCallStep s t a = some s') :
    BridgeMove maxSessions s a s' := by
  cases a with
  | reused id =>
    cases hid
    simp only [bridgeCallStep] at hs
    split at hs
    · next oid hphase =>
      obtain ⟨o, ho, rfl⟩ := map_eq_some_iff.mp hs
      exact .reused ht hphase ho
    · cases hs
  | abandon id =>
    cases hid
    simp only [bridgeCallStep] at hs
    split at hs
    · next oid hphase =>
      cases hs
      exact .abandon ht (.inl ⟨oid, hphase⟩)
    · next key future hphase =>
      cases hs
      exact .abandon ht (.inr ⟨key, future, hphase⟩)
    · cases hs
  | create id oid choice =>
    cases hid
    simp only [bridgeCallStep] at hs
    split at hs
    · next key accountId hphase hselect =>
      split at hs
      · cases hs
      · next hnew =>
        cases hs
        exact .create ht hphase hselect (not_isSome_iff_eq_none.mp hnew)
    · cases hs
  | creationFailed id =>
    cases hid
    simp only [bridgeCallStep] at hs
    split at hs
    · cases hs
    · split at hs
      · next key hphase =>
        cases hs
        exact .createFailed ht hphase
      · next key oid hphase =>
        cases hs
        exact .claimFailed ht hphase
      · cases hs
  | register id =>
    cases hid
    simp only [bridgeCallStep] at hs
    split at hs
    · cases hs
    · split at hs
      · next key oid hphase =>
        obtain ⟨o, ho, rfl⟩ := map_eq_some_iff.mp hs
        exact .register ht hphase ho
      · cases hs
  | wake id env =>
    cases hid
    simp only [bridgeCallStep] at hs
    split at hs
    · next key future hphase =>
      split at hs
      · cases hs
      · cases hs
        exact .wakeFailed ht ⟨key, future, hphase⟩
      · obtain ⟨o, ho, rfl⟩ := map_eq_some_iff.mp hs
        have hoid := key_of_lookup ho
        exact .wake ht hphase (hoid ▸ ho)
    · cases hs
  | _ => cases hid

theorem bridgeSessionStep_move (hs : bridgeSessionStep s a = some s') : BridgeMove maxSessions s a
    s' := by
  cases a with
  | readerEnds oid =>
    cases hs
    exact .readerEnds
  | reconnect callId choice restartReader =>
    obtain ⟨x, hx, hs⟩ := bind_eq_some_iff.mp hs
    obtain ⟨accountId, hselect, hs⟩ := bind_eq_some_iff.mp hs
    obtain ⟨o, -, hs⟩ := bind_eq_some_iff.mp hs
    obtain ⟨-, hs⟩ := ite_none_right_eq_some.mp hs
    cases hs
    exact .reconnect hx hselect
  | statusChanged oid active =>
    cases hs
    exact .statusChanged
  | registerTurnState oid turnState =>
    obtain ⟨-, hs⟩ := ite_none_left_eq_some.mp hs
    obtain ⟨o, -, rfl⟩ := map_eq_some_iff.mp hs
    split
    · exact .skip
    · exact .registerTurnState
  | registerPreviousResponseId oid responseId =>
    obtain ⟨-, hs⟩ := ite_none_left_eq_some.mp hs
    obtain ⟨o, -, rfl⟩ := map_eq_some_iff.mp hs
    split
    · exact .skip
    · exact .registerPreviousResponseId
  | closeAll =>
    obtain ⟨-, hs⟩ := ite_none_left_eq_some.mp hs
    cases hs
    exact .closeAll
  | _ => cases hs

/-- **Every step is one of the moves.** -/
theorem bridgeStep_move (hs : bridgeStep maxSessions s a = some s') :
    BridgeMove maxSessions s a s' := by
  unfold bridgeStep at hs
  split at hs
  · obtain ⟨hnot, hs⟩ := ite_none_left_eq_some.mp hs
    cases hs
    exact .lookup (not_or.mp hnot).2
  · split at hs
    · next callId hid =>
      obtain ⟨t, ht, hs⟩ := bind_eq_some_iff.mp hs
      exact bridgeCallStep_move ht hid hs
    · exact bridgeSessionStep_move hs

end Moves

/-! ## What always holds -/

namespace BridgeCalls

structure Sound (s : BridgeCalls) : Prop where
  registry : s.registry.WellFormed
  calls_unique : Unique BridgeCall.callId s.calls
  calls_known : ∀ t ∈ s.calls, t.callId ∈ s.callIds

end BridgeCalls

theorem newBridgeCalls_sound : newBridgeCalls.Sound where
  registry := ⟨nodup_nil, nodup_nil, fun _ hx => absurd hx not_mem_nil⟩
  calls_unique := nodup_nil
  calls_known _ ht := absurd ht not_mem_nil

namespace BridgeCalls

section AfterLookup

variable (s : BridgeCalls) (callId : ℕ) (r : SessionRequest) (result : LookupResult)

theorem afterLookup_registry :
    (s.afterLookup callId r result).registry = result.registry ∨
      (s.afterLookup callId r result).registry = result.registry.close result.sessionsToClose := by
  unfold afterLookup
  rcases result with ⟨g, closing, outcome⟩
  cases outcome with
  | reuse | reusePrevious | raised => exact .inl rfl
  | _ => exact .inr rfl

theorem afterLookup_calls :
    (s.afterLookup callId r result).calls = s.calls ∨
      ∃ phase, (s.afterLookup callId r result).calls = s.calls ++ [⟨callId, r, phase⟩] := by
  unfold afterLookup
  rcases result with ⟨g, closing, outcome⟩
  cases outcome with
  | reuse oid | reusePrevious oid => exact .inr ⟨_, rfl⟩
  | await | create => exact .inr ⟨_, rfl⟩
  | _ => exact .inl rfl

theorem afterLookup_callIds :
    (s.afterLookup callId r result).callIds = callId :: s.callIds := by
  unfold afterLookup
  rcases result with ⟨g, closing, outcome⟩
  cases outcome <;> rfl

end AfterLookup

end BridgeCalls

namespace BridgeRegistry

variable {g g' : BridgeRegistry} {closing : List ℕ}

theorem WellFormed.set {oid : ℕ} {f : HttpSession → HttpSession} (h : g.WellFormed)
    (hf : ∀ o, (f o).oid = o.oid) : (g.set oid f).WellFormed where
  objects_unique := h.objects_unique.update hf
  sessions_unique := h.sessions_unique
  known x hx := by
    obtain ⟨o, ho, hoid⟩ := h.known x hx
    refine ⟨_, mem_updateWhere.mpr ⟨o, ho, rfl⟩, ?_⟩
    split
    · exact (hf o).trans hoid
    · exact hoid

theorem WellFormed.add {o : HttpSession} (h : g.WellFormed) (hnew : g.object o.oid = none) :
    WellFormed { g with objects := g.objects ++ [o] } where
  objects_unique := h.objects_unique.append_singleton hnew
  sessions_unique := h.sessions_unique
  known x hx := by
    obtain ⟨o', ho', hoid⟩ := h.known x hx
    exact ⟨o', mem_append_left _ ho', hoid⟩

theorem WellFormed.register {o : HttpSession} {key : BridgeKey} {oid : ℕ} (h : g.WellFormed)
    (ho : g.object oid = some o) :
    WellFormed { g with sessions := (g.pop key).sessions ++ [(key, oid)] } where
  objects_unique := h.objects_unique
  sessions_unique := by
    refine Unique.append_singleton ?_ ?_
    · exact (filter_sublist.map Prod.fst).nodup h.sessions_unique
    · exact lookup_eq_none_iff.mpr ne_key_pop
  known x hx := by
    rcases mem_append.mp hx with hx | hx
    · exact h.known x (mem_filter.mp hx).1
    · obtain rfl := mem_singleton.mp hx
      exact ⟨o, mem_of_lookup ho, key_of_lookup ho⟩

theorem WellFormed.of_sublist (h : g.WellFormed) (hobjects : g'.objects = g.objects)
    (hsessions : g'.sessions.Sublist g.sessions) : g'.WellFormed where
  objects_unique := hobjects ▸ h.objects_unique
  sessions_unique := (hsessions.map Prod.fst).nodup h.sessions_unique
  known x hx := hobjects ▸ h.known x (hsessions.subset hx)

theorem WellFormed.close (h : g.WellFormed) (oids : List ℕ) : (g.close oids).WellFormed :=
  (shrinks_close oids).wellFormed h

theorem WellFormed.lookup {maxSessions callId : ℕ} {r : SessionRequest} {result : LookupResult}
    (h : g.WellFormed) (hmove : LookupMove maxSessions callId r g result) :
    result.registry.WellFormed := by
  cases hmove with
  | reuse hg | reusePrevious hg | raised hg | leave hg => exact hg.wellFormed h
  | reserve hg => exact (hg.wellFormed h).of_sublist rfl (List.Sublist.refl _)

end BridgeRegistry

namespace BridgeCalls

variable {maxSessions : ℕ} {s s' : BridgeCalls} {a : BridgeAct} {callId : ℕ} {key : BridgeKey}

theorem Sound.of_registry (h : s.Sound) (hg : s'.registry.WellFormed) (hcalls : s'.calls = s.calls)
    (hids : s'.callIds = s.callIds) : s'.Sound :=
  ⟨hg, hcalls ▸ h.calls_unique, by rw [hcalls, hids]; exact h.calls_known⟩

theorem Sound.finish (h : s.Sound) (callId : ℕ) : (s.finish callId).Sound where
  registry := h.registry
  calls_unique := (filter_sublist.map BridgeCall.callId).nodup h.calls_unique
  calls_known t ht := h.calls_known t (mem_filter.mp ht).1

theorem Sound.settle {result : Option ℕ} (h : s.Sound) : (s.settle key callId result).Sound := by
  unfold BridgeCalls.settle
  split
  · exact h.of_registry (h.registry.of_sublist rfl (List.Sublist.refl _)) rfl rfl
  · exact h

variable {o : HttpSession}

theorem Sound.registerSession {oid : ℕ} (h : s.Sound) (ho : s.registry.object oid = some o) :
    (s.registerSession key callId oid).Sound := by
  unfold BridgeCalls.registerSession
  split
  · exact h.of_registry (h.registry.register ho) rfl rfl
  · exact h

theorem Sound.giveBack {t : BridgeCall} (h : s.Sound) :
    (s.giveBack t o).Sound :=
  ⟨(h.finish t.callId).registry, (h.finish t.callId).calls_unique, (h.finish t.callId).calls_known⟩

theorem Sound.afterLookup {r : SessionRequest} {result : LookupResult} (h : s.Sound)
    (hnew : callId ∉ s.callIds) (hmove : LookupMove maxSessions callId r s.registry result) :
    (s.afterLookup callId r result).Sound := by
  have hg := h.registry.lookup hmove
  refine ⟨?_, ?_, ?_⟩
  · rcases afterLookup_registry s callId r result with heq | heq <;> rw [heq]
    · exact hg
    · exact hg.close _
  · rcases afterLookup_calls s callId r result with heq | ⟨phase, heq⟩ <;> rw [heq]
    · exact h.calls_unique
    · refine h.calls_unique.append_singleton (lookup_eq_none_iff.mpr ?_)
      rintro t ht rfl
      exact hnew (h.calls_known t ht)
  · rw [afterLookup_callIds]
    intro t ht
    rcases afterLookup_calls s callId r result with heq | ⟨phase, heq⟩ <;> rw [heq] at ht
    · exact mem_cons_of_mem _ (h.calls_known t ht)
    · rcases mem_append.mp ht with ht | ht
      · exact mem_cons_of_mem _ (h.calls_known t ht)
      · obtain rfl := mem_singleton.mp ht
        exact mem_cons_self

theorem Sound.useAwaited {t : BridgeCall} {env : LookupEnv} (h : s.Sound) :
    (s.useAwaited t key o env).Sound := by
  unfold BridgeCalls.useAwaited
  split
  · exact h.giveBack
  · split
    · refine (h.finish t.callId).of_registry (BridgeRegistry.WellFormed.close ?_ _) rfl rfl
      exact h.registry.of_sublist rfl filter_sublist
    · exact h.finish t.callId

theorem Sound.setPhase (h : s.Sound) (phase : CallPhase) : (s.setPhase callId phase).Sound where
  registry := h.registry
  calls_unique := h.calls_unique.update fun _ => rfl
  calls_known t ht := by
    obtain ⟨t₀, ht₀, rfl⟩ := mem_updateWhere.mp ht
    split <;> exact h.calls_known t₀ ht₀

theorem Sound.step (h : s.Sound) (hs : bridgeStep maxSessions s a = some s') : s'.Sound := by
  cases bridgeStep_move hs with
  | lookup hnew => exact h.afterLookup hnew (findSession_move h.registry)
  | reused => exact h.giveBack
  | abandon => exact h.finish _
  | create ht hphase hselect hnew =>
    exact (h.setPhase _).of_registry (h.registry.add hnew) rfl rfl
  | createFailed => exact h.settle.finish _
  | claimFailed => exact (h.settle.finish _).of_registry (h.settle.registry.close _) rfl rfl
  | register ht hphase ho => exact (h.registerSession ho).settle.giveBack
  | wakeFailed => exact h.finish _
  | wake => exact h.useAwaited
  | readerEnds => exact h.of_registry (h.registry.set fun _ => rfl) rfl rfl
  | reconnect => exact h.of_registry (h.registry.set fun _ => rfl) rfl rfl
  | statusChanged => exact h.of_registry (h.registry.set fun _ => rfl) rfl rfl
  | skip => exact h
  | registerTurnState =>
    exact h.of_registry ((BridgeRegistry.shrinks_addTurnState _).wellFormed h.registry) rfl rfl
  | @registerPreviousResponseId _ responseId o =>
    have hadded := (BridgeRegistry.shrinks_addPreviousResponseId o responseId).wellFormed h.registry
    exact h.of_registry hadded rfl rfl
  | closeAll =>
    have hcleared : s.registry.cleared.WellFormed :=
      h.registry.of_sublist rfl (nil_sublist _)
    exact h.of_registry (hcleared.close _) rfl rfl

end BridgeCalls

/-! ## Sample requests -/

def scopedKey (accountIds : List String) : ApiKeyScope := ⟨"key", true, accountIds⟩

def cacheRequest (cacheKey : String) (accountIds : List String)
    (previousResponseId : Option String) : SessionRequest where
  key := ⟨"prompt_cache", cacheKey, some "key"⟩
  apiKey := some (scopedKey accountIds)
  incomingTurnState := none
  incomingSessionKey := none
  previousResponseId := previousResponseId
  gatewaySafeMode := false
  allowForwardToOwner := true
  forwardedRequest := false
  forwardedAffinity := false
  allowPreviousResponseRecoveryRebind := false
  allowBootstrapOwnerRebind := false
  durableLookup := none

def quietEnv : LookupEnv where
  now := 0
  currentInstance := "i"
  drainActive := false
  hasRingMembership := false
  ringOwner := some "i"
  ringSize := some 1
  ownerEndpoint := none
  idle := []
  evictable := []

end CodexOctopus

import CodexOctopus.GateInvariant
import Mathlib.Data.Finset.Basic

/-!
# What the websocket proxy does for its client

`WebsocketState` says where the tasks of `proxy_responses_websocket` are. `RelayState` adds
what their client and the accounts see of it: the account of the upstream, the messages in
progress there, the text that the reader is about to forward, and a history of what was
assigned, sent, forwarded, settled and failed, the newest first.

* `mayAnswer` is the upstream. Nothing stops it from answering a request that the proxy has
  given up.
* `WebsocketState.failedBy` are the requests whose failure a step reports to the client.
* `relayStep` is a step of `websocketStep` with its entries in the history.

Each event has a source, the request it answers, which the proxy does not see. The requests
of a list are failed in one step, and so are the attempts of one `_connect_proxy_websocket`.
-/

namespace CodexOctopus

/-! ## History -/

inductive RelayEvent : Type where
  | assigned (responseId : String) (requestId : ℕ)
  | sent (requestId : ℕ) (account : String)
  | queued (requestId : ℕ) (account : String)
  /-- the request was popped and settled with an event that answers `source` -/
  | finalized (requestId source : ℕ) (e : UpstreamEvent)
  | forwarded (source : ℕ) (e : UpstreamEvent)
  | failed (requestId : ℕ)
  deriving DecidableEq

structure RelayState where
  ws : WebsocketState
  account : String
  inflight : List UpstreamResponse
  created : List (String × ℕ)
  forwarding : Option (ℕ × UpstreamEvent)
  excluded : List (ℕ × String)
  history : List RelayEvent

def newRelay : RelayState := ⟨newWebsocket, "", [], [], none, [], []⟩

/-! ## Requests of the main loop -/

namespace MainPhase

def incoming : MainPhase → Option RequestState
  | .received r => r
  | .preparing r | .joining r | .atGate r | .admitting r => some r
  | _ => none

def sends : MainPhase → Option ℕ
  | .sending id => id
  | .resending id => some id
  | _ => none

end MainPhase

def WebsocketState.failedBy (s : WebsocketState) : WebsocketAct → List ℕ
  | .prepareFailed | .refuse => s.main.incoming.toList.map RequestState.requestId
  | .connectFailed | .replayConnectFailed => s.main.own.toList
  | .resendFailed => s.main.sends.toList
  | .sendFailed | .idleTimeout | .upstreamClosed | .leave => s.pending.map RequestState.requestId
  | .budgetTimeout expired => (s.pending.map RequestState.requestId).filter (· ∈ expired)
  -- the exception of the reader ends the main loop
  | .loop | .accept | .join =>
    if s.reader = some (.done true) then s.pending.map RequestState.requestId else []
  | _ => []

/-! ## The upstream -/

/-- What the upstream may emit for a message: `response.created` with a fresh id, or an error
without one; then other events. An event that carries an id carries that one. -/
def mayAnswer (created : List (String × ℕ)) (u : UpstreamResponse) (e : UpstreamEvent) : Bool :=
  match u.responseId, e.responseId with
  | none, some id => e.type = .created && id ∉ created.map Prod.fst
  | none, none => e.type.isError
  | some id, eventId => e.type ≠ .created && (eventId = none || eventId = some id)

/-! ## Steps -/

inductive RelayAct : Type where
  /-- the reader gets an event that answers `source` -/
  | text (source : ℕ) (e : UpstreamEvent)
  | connect (account : String)
  | replayConnect (account : String)
  | other (a : WebsocketAct)
  deriving DecidableEq

def RelayAct.act : RelayAct → WebsocketAct
  | .text _ e => .text e
  | .connect _ => .connect
  | .replayConnect _ => .replayConnect
  | .other a => a

namespace RelayState

/-- `_select_account_with_budget` for the request that the main loop opens an upstream for. -/
def maySelect (s : RelayState) (accounts : Finset String) (account : String) : Bool :=
  account ∈ accounts && s.ws.main.own.all fun id => (id, account) ∉ s.excluded

def enabled (s : RelayState) (accounts : Finset String) : RelayAct → Bool
  | .text source e =>
    (Table.lookup UpstreamResponse.owner s.inflight source).any (mayAnswer s.created · e)
  | .connect account | .replayConnect account => s.maySelect accounts account
  -- a request as `_prepare_websocket_response_create_request` makes it
  | .other (.receive (some r)) => r.responseId = none && !r.downstreamCommitted
  | .other (.text _) | .other .connect | .other .replayConnect => false
  | .other _ => true

def assignee (s : RelayState) (e : UpstreamEvent) : Option RequestState :=
  if e.type = .created then (websocketMatch s.ws.pending e).1 else none

/-- What `_process_upstream_websocket_text` adds to the history. -/
def textEvents (s : RelayState) (source : ℕ) (e : UpstreamEvent) : List RelayEvent :=
  match replayTarget s.ws.pending e, websocketTerminal s.ws.pending e with
  | some r, _ => [.queued r.requestId s.account]
  | none, some r => [.finalized r.requestId source e]
  | none, none =>
    match e.responseId, s.assignee e with
    | some id, some r => [.assigned id r.requestId]
    | _, _ => []

def events (s : RelayState) : RelayAct → List RelayEvent
  | .text source e => s.textEvents source e
  | .connect _ | .replayConnect _ => []
  | .other .settle => s.forwarding.toList.map fun x => .forwarded x.1 x.2
  | .other .send | .other .resend => s.ws.main.sends.toList.map (.sent · s.account)
  | .other a => (s.ws.failedBy a).map .failed

def afterText (s : RelayState) (source : ℕ) (e : UpstreamEvent) : RelayState :=
  { s with
    inflight := inflightAfter s.inflight source e
    created :=
      if e.type = .created then e.responseId.toList.map (·, source) ++ s.created else s.created
    forwarding := if replayTarget s.ws.pending e = none then some (source, e) else none
    excluded :=
      (replayTarget s.ws.pending e).toList.map (·.requestId, s.account) ++ s.excluded }

def after (s : RelayState) : RelayAct → RelayState
  | .text source e => s.afterText source e
  | .connect account | .replayConnect account =>
    { s with account := account, inflight := [], forwarding := none }
  | .other .settle => { s with forwarding := none }
  | .other .send | .other .resend =>
    { s with inflight := s.inflight ++ s.ws.main.sends.toList.map (⟨·, none⟩) }
  | .other _ => s

end RelayState

def relayStep (accounts : Finset String) (s : RelayState) (a : RelayAct) : Option RelayState :=
  if s.enabled accounts a then
    (websocketStep s.ws a.act).map fun ws =>
      { s.after a with ws := ws, history := s.events a ++ s.history }
  else none

end CodexOctopus

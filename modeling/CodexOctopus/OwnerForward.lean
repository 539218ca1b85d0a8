import CodexOctopus.Headers
import CodexOctopus.Json

/-!
# Requests forwarded to the instance that owns a session

`app/modules/proxy/http_bridge_forwarding.py`: an instance that does not own the
session of a request sends it on to the owner. `build_owner_forward_headers` puts the
context of the request into headers and signs it together with the payload;
`parse_forwarded_request` reads the context back and checks the signature.

The headers start as a copy of those the client sent, and what is read is stripped. So a
context is read back (`contextFromHeaders_build`) if the headers can carry it: its texts
have no whitespace around them, and for what it lacks the client sent nothing.

The payload is the JSON document that `model_dump` makes of it.
-/

namespace CodexOctopus

open Option Python

/-! ## Header names and values -/

def hostHeader : HeaderName := ⟨"host", by decide⟩
def contentLengthHeader : HeaderName := ⟨"content-length", by decide⟩
def forwardedHeader : HeaderName := ⟨"x-codex-bridge-forwarded", by decide⟩
def originInstanceHeader : HeaderName := ⟨"x-codex-bridge-origin-instance", by decide⟩
def targetInstanceHeader : HeaderName := ⟨"x-codex-bridge-target-instance", by decide⟩
def codexAffinityHeader : HeaderName := ⟨"x-codex-bridge-codex-session-affinity", by decide⟩
def reservationIdHeader : HeaderName := ⟨"x-codex-bridge-reservation-id", by decide⟩
def reservationKeyIdHeader : HeaderName := ⟨"x-codex-bridge-reservation-key-id", by decide⟩
def reservationModelHeader : HeaderName := ⟨"x-codex-bridge-reservation-model", by decide⟩
def affinityKindHeader : HeaderName := ⟨"x-codex-bridge-affinity-kind", by decide⟩
def affinityKeyHeader : HeaderName := ⟨"x-codex-bridge-affinity-key", by decide⟩
def signatureHeader : HeaderName := ⟨"x-codex-bridge-signature", by decide⟩
def turnStateHeader : HeaderName := ⟨"x-codex-turn-state", by decide⟩

def boolHeader (value : Option String) : Bool :=
  match value with
  | none => false
  | some v => lower (strip v) ∈ ["1", "true", "yes", "on"]

def optionalHeader (value : Option String) : Option String :=
  (value.map strip).filter (· ≠ "")

/-! ## Contexts and signatures -/

structure ReservationData where
  reservationId : String
  keyId : String
  model : String
  deriving DecidableEq

structure ForwardContext where
  originInstance : String
  targetInstance : String
  codexSessionAffinity : Bool
  downstreamTurnState : Option String
  originalAffinityKind : Option String
  originalAffinityKey : Option String
  reservation : Option ReservationData
  deriving DecidableEq

def isHex (c : Char) : Bool := c.isDigit || ('a' ≤ c && c ≤ 'f')

/-- SHA-256, and HMAC-SHA256 under the key of the cluster, in hexadecimal, without collisions. -/
structure ForwardCrypto where
  sha256 : String → String
  hmac : String → String
  sha256_injective : Function.Injective sha256
  hmac_injective : Function.Injective hmac
  sha256_hex : ∀ s, ∀ c ∈ (sha256 s).toList, isHex c = true
  hmac_hex : ∀ s, ∀ c ∈ (hmac s).toList, isHex c = true
  hmac_ne : ∀ s, hmac s ≠ ""

def signingPayload (c : ForwardCrypto) (payload : Json) (ctx : ForwardContext) : String :=
  join "|"
    [ctx.originInstance,
      ctx.targetInstance,
      if ctx.codexSessionAffinity then "1" else "0",
      ctx.downstreamTurnState.getD "",
      ctx.originalAffinityKind.getD "",
      ctx.originalAffinityKey.getD "",
      (ctx.reservation.map ReservationData.reservationId).getD "",
      (ctx.reservation.map ReservationData.keyId).getD "",
      (ctx.reservation.map ReservationData.model).getD "",
      c.sha256 payload.dumps]

def bridgeForwardSignature (c : ForwardCrypto) (payload : Json) (ctx : ForwardContext) : String :=
  c.hmac (signingPayload c payload ctx)

def ForwardContext.setAffinity (ctx : ForwardContext) (h : Headers) : Headers :=
  match ctx.originalAffinityKind, ctx.originalAffinityKey with
  | some kind, some key =>
    if kind ≠ "" ∧ key ≠ "" then (h.set affinityKindHeader kind).set affinityKeyHeader key else h
  | _, _ => h

def ForwardContext.setTurnState (ctx : ForwardContext) (h : Headers) : Headers :=
  match ctx.downstreamTurnState with
  | some turnState => if turnState ≠ "" then h.set turnStateHeader turnState else h
  | none => h

def ForwardContext.setReservation (ctx : ForwardContext) (h : Headers) : Headers :=
  match ctx.reservation with
  | some r =>
    ((h.set reservationIdHeader r.reservationId).set reservationKeyIdHeader r.keyId).set
      reservationModelHeader r.model
  | none => h

def buildOwnerForwardHeaders (c : ForwardCrypto) (headers : Headers) (payload : Json)
    (ctx : ForwardContext) : Headers :=
  let forwarded := (headers.pop hostHeader).pop contentLengthHeader
  let forwarded := forwarded.set forwardedHeader "1"
  let forwarded := forwarded.set originInstanceHeader ctx.originInstance
  let forwarded := forwarded.set targetInstanceHeader ctx.targetInstance
  let forwarded := forwarded.set codexAffinityHeader (if ctx.codexSessionAffinity then "1" else "0")
  let forwarded := ctx.setAffinity forwarded
  let forwarded := ctx.setTurnState forwarded
  let forwarded := ctx.setReservation forwarded
  forwarded.set signatureHeader (bridgeForwardSignature c payload ctx)

structure ForwardError where
  statusCode : ℕ
  code : String
  message : String
  errorType : String

def markerRequired : ForwardError :=
  ⟨400, "bridge_forward_invalid", "Internal bridge forward marker is required",
    "invalid_request_error"⟩

def nonTargetInstance : ForwardError :=
  ⟨503, "bridge_owner_forward_failed", "Internal bridge forward reached a non-target instance",
    "server_error"⟩

def signatureInvalid : ForwardError :=
  ⟨400, "bridge_forward_invalid", "Internal bridge forward signature is invalid",
    "invalid_request_error"⟩

def reservationFromHeaders (headers : Headers) : Option ReservationData :=
  match optionalHeader (headers.get reservationIdHeader),
    optionalHeader (headers.get reservationKeyIdHeader),
    optionalHeader (headers.get reservationModelHeader) with
  | some reservationId, some keyId, some model => some ⟨reservationId, keyId, model⟩
  | _, _, _ => none

def contextFromHeaders (headers : Headers) : ForwardContext where
  originInstance := (optionalHeader (headers.get originInstanceHeader)).getD "unknown"
  targetInstance := strip ((headers.get targetInstanceHeader).getD "")
  codexSessionAffinity := boolHeader (headers.get codexAffinityHeader)
  downstreamTurnState := optionalHeader (headers.get turnStateHeader)
  originalAffinityKind := optionalHeader (headers.get affinityKindHeader)
  originalAffinityKey := optionalHeader (headers.get affinityKeyHeader)
  reservation := reservationFromHeaders headers

def parseForwardedRequest (c : ForwardCrypto) (headers : Headers) (payload : Json)
    (currentInstance : String) : Except ForwardError ForwardContext :=
  let ctx := contextFromHeaders headers
  if headers.get forwardedHeader ≠ some "1" then .error markerRequired
  else if ctx.targetInstance = "" ∨ ctx.targetInstance ≠ currentInstance then
    .error nonTargetInstance
  else if optionalHeader (headers.get signatureHeader) =
      some (bridgeForwardSignature c payload ctx) then .ok ctx
  else .error signatureInvalid

/-! ## Digests and headers -/

theorem isSpace_of_isHex {c : Char} (h : isHex c = true) : isSpace c = false := by
  have hrange : (48 ≤ c.toNat ∧ c.toNat ≤ 57) ∨ (97 ≤ c.toNat ∧ c.toNat ≤ 102) := by
    simpa [isHex, Char.isDigit, Char.le_def, UInt32.le_iff_toNat_le] using h
  unfold isSpace
  simp only [Bool.or_eq_false_iff, Bool.and_eq_false_iff, decide_eq_false_iff_not]
  omega

theorem optionalHeader_eq_some {value : Option String} {s : String}
    (h : optionalHeader value = some s) : s ≠ "" :=
  of_decide_eq_true (filter_eq_some_iff.mp h).2

theorem optionalHeader_ne_some_empty {value : Option String} : optionalHeader value ≠ some "" :=
  fun h => optionalHeader_eq_some h rfl

theorem optionalHeader_hmac (c : ForwardCrypto) (s : String) :
    optionalHeader (some (c.hmac s)) = some (c.hmac s) := by
  have hstrip : strip (c.hmac s) = c.hmac s :=
    strip_eq_self fun d hd => isSpace_of_isHex (c.hmac_hex s d hd)
  rw [optionalHeader, map_some, hstrip, filter_some, if_pos]
  exact decide_eq_true (c.hmac_ne s)

theorem parse_ok {c : ForwardCrypto} {headers : Headers} {payload : Json}
    {currentInstance : String} {ctx : ForwardContext}
    (h : parseForwardedRequest c headers payload currentInstance = .ok ctx) :
    contextFromHeaders headers = ctx ∧
      optionalHeader (headers.get signatureHeader) =
        some (bridgeForwardSignature c payload (contextFromHeaders headers)) := by
  simp only [parseForwardedRequest] at h
  split at h
  · cases h
  · split at h
    · cases h
    · split at h
      · next hsignature => exact ⟨Except.ok.inj h, hsignature⟩
      · cases h

theorem parse_of_signature {c : ForwardCrypto} {headers : Headers} {payload : Json}
    {currentInstance : String} (hmarker : headers.get forwardedHeader = some "1")
    (htarget : (contextFromHeaders headers).targetInstance = currentInstance)
    (hcurrent : currentInstance ≠ "")
    (hsignature : headers.get signatureHeader =
      some (bridgeForwardSignature c payload (contextFromHeaders headers))) :
    parseForwardedRequest c headers payload currentInstance = .ok (contextFromHeaders headers) := by
  simp only [parseForwardedRequest]
  rw [if_neg (not_not.mpr hmarker), if_neg, if_pos]
  · rw [hsignature]
    exact optionalHeader_hmac c _
  · rw [htarget]
    exact not_or.mpr ⟨hcurrent, not_not.mpr rfl⟩

/-! ## A context through the headers -/

def Clean (s : String) : Prop := strip s = s ∧ s ≠ ""

instance (s : String) : Decidable (Clean s) := inferInstanceAs (Decidable (_ ∧ _))

theorem optionalHeader_clean {s : String} (h : Clean s) : optionalHeader (some s) = some s := by
  rw [optionalHeader, map_some, h.1, filter_some, if_pos (decide_eq_true h.2)]

def bridgeHeaders : List HeaderName :=
  [forwardedHeader, originInstanceHeader, targetInstanceHeader, codexAffinityHeader,
    reservationIdHeader, reservationKeyIdHeader, reservationModelHeader, affinityKindHeader,
    affinityKeyHeader, signatureHeader, turnStateHeader]

/-- Headers can carry the context: what it has is clean, and the headers have nothing under the
names of what it lacks. -/
structure Carries (headers : Headers) (ctx : ForwardContext) : Prop where
  cased : ∀ name ∈ bridgeHeaders, headers.Cased name
  origin : Clean ctx.originInstance
  target : Clean ctx.targetInstance
  turnState : ∀ turnState, ctx.downstreamTurnState = some turnState → Clean turnState
  noTurnState : ctx.downstreamTurnState = none →
    optionalHeader (headers.get turnStateHeader) = none
  affinity : ∃ kind key, ctx.originalAffinityKind = some kind ∧ Clean kind ∧
    ctx.originalAffinityKey = some key ∧ Clean key
  reservation : ∀ r, ctx.reservation = some r →
    Clean r.reservationId ∧ Clean r.keyId ∧ Clean r.model
  noReservation : ctx.reservation = none → reservationFromHeaders headers = none

section Carried

variable {c : ForwardCrypto} {headers : Headers} {payload : Json} {ctx : ForwardContext}
  {name : HeaderName}

theorem get_setAffinity_of_ne (hkind : affinityKindHeader ≠ name)
    (hkey : affinityKeyHeader ≠ name) : (ctx.setAffinity headers).get name = headers.get name := by
  unfold ForwardContext.setAffinity
  split
  · split
    · rw [Headers.get_set_of_ne hkey, Headers.get_set_of_ne hkind]
    · rfl
  · rfl

theorem get_setTurnState_of_ne (hne : turnStateHeader ≠ name) :
    (ctx.setTurnState headers).get name = headers.get name := by
  unfold ForwardContext.setTurnState
  split
  · split
    · exact Headers.get_set_of_ne hne
    · rfl
  · rfl

theorem get_setReservation_of_ne (hid : reservationIdHeader ≠ name)
    (hkeyId : reservationKeyIdHeader ≠ name) (hmodel : reservationModelHeader ≠ name) :
    (ctx.setReservation headers).get name = headers.get name := by
  unfold ForwardContext.setReservation
  split
  · rw [Headers.get_set_of_ne hmodel, Headers.get_set_of_ne hkeyId,
      Headers.get_set_of_ne hid]
  · rfl

theorem cased_setAffinity (h : headers.Cased name) : (ctx.setAffinity headers).Cased name := by
  unfold ForwardContext.setAffinity
  split
  · split
    · exact h.set.set
    · exact h
  · exact h

theorem cased_setTurnState (h : headers.Cased name) : (ctx.setTurnState headers).Cased name := by
  unfold ForwardContext.setTurnState
  split
  · split
    · exact h.set
    · exact h
  · exact h

theorem cased_setReservation (h : headers.Cased name) :
    (ctx.setReservation headers).Cased name := by
  unfold ForwardContext.setReservation
  split
  · exact h.set.set.set
  · exact h

theorem optionalHeader_setTurnState (h : Carries headers ctx) {sent : Headers}
    (hsent : sent.get turnStateHeader = headers.get turnStateHeader)
    (hcased : sent.Cased turnStateHeader) :
    optionalHeader ((ctx.setTurnState sent).get turnStateHeader) = ctx.downstreamTurnState := by
  unfold ForwardContext.setTurnState
  cases hturn : ctx.downstreamTurnState with
  | none =>
    dsimp only
    rw [hsent, h.noTurnState hturn]
  | some turnState =>
    have hclean := h.turnState turnState hturn
    dsimp only
    rw [if_pos hclean.2, Headers.get_set_self hcased, optionalHeader_clean hclean]

theorem reservationFromHeaders_congr {a b : Headers}
    (hid : a.get reservationIdHeader = b.get reservationIdHeader)
    (hkeyId : a.get reservationKeyIdHeader = b.get reservationKeyIdHeader)
    (hmodel : a.get reservationModelHeader = b.get reservationModelHeader) :
    reservationFromHeaders a = reservationFromHeaders b := by
  rw [reservationFromHeaders, hid, hkeyId, hmodel, reservationFromHeaders]

theorem reservationFromHeaders_setReservation (h : Carries headers ctx) {sent : Headers}
    (hsent : reservationFromHeaders sent = reservationFromHeaders headers)
    (hcased : ∀ name ∈ bridgeHeaders, sent.Cased name) :
    reservationFromHeaders (ctx.setReservation sent) = ctx.reservation := by
  unfold ForwardContext.setReservation
  cases hres : ctx.reservation with
  | none =>
    dsimp only
    rw [hsent, h.noReservation hres]
  | some r =>
    obtain ⟨hid, hkeyId, hmodel⟩ := h.reservation r hres
    have hcased₁ : sent.Cased reservationIdHeader := hcased _ (by decide)
    have hcased₂ : sent.Cased reservationKeyIdHeader := hcased _ (by decide)
    have hcased₃ : sent.Cased reservationModelHeader := hcased _ (by decide)
    dsimp only
    rw [reservationFromHeaders, Headers.get_set_of_ne (by decide),
      Headers.get_set_of_ne (by decide), Headers.get_set_self hcased₁,
      Headers.get_set_of_ne (by decide),
      Headers.get_set_self hcased₂.set,
      Headers.get_set_self hcased₃.set.set,
      optionalHeader_clean hid, optionalHeader_clean hkeyId, optionalHeader_clean hmodel]

def ForwardContext.setInstances (ctx : ForwardContext) (h : Headers) : Headers :=
  (((h.set forwardedHeader "1").set originInstanceHeader ctx.originInstance).set
    targetInstanceHeader ctx.targetInstance).set codexAffinityHeader
      (if ctx.codexSessionAffinity then "1" else "0")

theorem buildOwnerForwardHeaders_eq :
    buildOwnerForwardHeaders c headers payload ctx =
      (ctx.setReservation (ctx.setTurnState (ctx.setAffinity (ctx.setInstances
        ((headers.pop hostHeader).pop contentLengthHeader))))).set signatureHeader
          (bridgeForwardSignature c payload ctx) :=
  rfl

theorem cased_setInstances (h : headers.Cased name) : (ctx.setInstances headers).Cased name :=
  h.set.set.set.set

def ForwardContext.setAddressed (ctx : ForwardContext) (h : Headers) : Headers :=
  ctx.setAffinity (ctx.setInstances ((h.pop hostHeader).pop contentLengthHeader))

theorem cased_base (h : headers.Cased name) :
    ((headers.pop hostHeader).pop contentLengthHeader).Cased name :=
  h.pop.pop

theorem cased_setAddressed (h : headers.Cased name) : (ctx.setAddressed headers).Cased name :=
  cased_setAffinity (cased_setInstances (cased_base h))

def addressedHeaders : List HeaderName :=
  [hostHeader, contentLengthHeader, forwardedHeader, originInstanceHeader, targetInstanceHeader,
    codexAffinityHeader, affinityKindHeader, affinityKeyHeader]

theorem get_setAddressed (hne : ∀ other ∈ addressedHeaders, other ≠ name) :
    (ctx.setAddressed headers).get name = headers.get name := by
  simp only [addressedHeaders, List.forall_mem_cons] at hne
  obtain ⟨hhost, hlength, hforwarded, horigin, htarget, hcodex, hkind, hkey, -⟩ := hne
  rw [ForwardContext.setAddressed, get_setAffinity_of_ne hkind hkey, ForwardContext.setInstances,
    Headers.get_set_of_ne hcodex, Headers.get_set_of_ne htarget,
    Headers.get_set_of_ne horigin, Headers.get_set_of_ne hforwarded,
    Headers.get_pop_of_ne hlength, Headers.get_pop_of_ne hhost]

def optionalHeaders : List HeaderName :=
  [affinityKindHeader, affinityKeyHeader, turnStateHeader, reservationIdHeader,
    reservationKeyIdHeader, reservationModelHeader, signatureHeader]

theorem get_build (hne : ∀ other ∈ optionalHeaders, other ≠ name) :
    (buildOwnerForwardHeaders c headers payload ctx).get name =
      (ctx.setInstances ((headers.pop hostHeader).pop contentLengthHeader)).get name := by
  simp only [optionalHeaders, List.forall_mem_cons] at hne
  obtain ⟨hkind, hkey, hturn, hid, hkeyId, hmodel, hsignature, -⟩ := hne
  rw [buildOwnerForwardHeaders_eq, Headers.get_set_of_ne hsignature,
    get_setReservation_of_ne hid hkeyId hmodel, get_setTurnState_of_ne hturn,
    get_setAffinity_of_ne hkind hkey]

section

variable (h : Carries headers ctx)
include h

theorem get_build_forwarded :
    (buildOwnerForwardHeaders c headers payload ctx).get forwardedHeader = some "1" := by
  have hcased := cased_base (h.cased forwardedHeader (by decide))
  rw [get_build (by decide), ForwardContext.setInstances,
    Headers.get_set_of_ne (by decide), Headers.get_set_of_ne (by decide),
    Headers.get_set_of_ne (by decide), Headers.get_set_self hcased]

theorem get_build_origin :
    (buildOwnerForwardHeaders c headers payload ctx).get originInstanceHeader =
      some ctx.originInstance := by
  have hcased := cased_base (h.cased originInstanceHeader (by decide))
  rw [get_build (by decide), ForwardContext.setInstances,
    Headers.get_set_of_ne (by decide), Headers.get_set_of_ne (by decide),
    Headers.get_set_self hcased.set]

theorem get_build_target :
    (buildOwnerForwardHeaders c headers payload ctx).get targetInstanceHeader =
      some ctx.targetInstance := by
  have hcased := cased_base (h.cased targetInstanceHeader (by decide))
  rw [get_build (by decide), ForwardContext.setInstances,
    Headers.get_set_of_ne (by decide),
    Headers.get_set_self hcased.set.set]

theorem get_build_codexAffinity :
    (buildOwnerForwardHeaders c headers payload ctx).get codexAffinityHeader =
      some (if ctx.codexSessionAffinity then "1" else "0") := by
  have hcased := cased_base (h.cased codexAffinityHeader (by decide))
  rw [get_build (by decide), ForwardContext.setInstances, Headers.get_set_self
    hcased.set.set.set]

theorem get_build_affinity {kind key : String} (hkind : ctx.originalAffinityKind = some kind)
    (hkey : ctx.originalAffinityKey = some key) (hclean : Clean kind ∧ Clean key) :
    (buildOwnerForwardHeaders c headers payload ctx).get affinityKindHeader = some kind ∧
      (buildOwnerForwardHeaders c headers payload ctx).get affinityKeyHeader = some key := by
  have hcasedKind : headers.Cased affinityKindHeader := h.cased _ (by decide)
  have hcasedKey : headers.Cased affinityKeyHeader := h.cased _ (by decide)
  have hset : ∀ sent, ctx.setAffinity sent =
      (sent.set affinityKindHeader kind).set affinityKeyHeader key := by
    intro sent
    simp [ForwardContext.setAffinity, hkind, hkey, hclean.1.2, hclean.2.2]
  rw [buildOwnerForwardHeaders_eq, hset]
  simp (disch := decide) only [Headers.get_set_of_ne, get_setReservation_of_ne,
    get_setTurnState_of_ne]
  exact ⟨Headers.get_set_self (cased_setInstances (cased_base hcasedKind)),
    Headers.get_set_self
      (cased_setInstances (cased_base hcasedKey)).set⟩

theorem get_build_signature :
    (buildOwnerForwardHeaders c headers payload ctx).get signatureHeader =
      some (bridgeForwardSignature c payload ctx) := by
  have hcased : headers.Cased signatureHeader := h.cased _ (by decide)
  exact Headers.get_set_self
    (cased_setReservation (cased_setTurnState (cased_setAddressed hcased)))

theorem optionalHeader_build_turnState :
    optionalHeader ((buildOwnerForwardHeaders c headers payload ctx).get turnStateHeader) =
      ctx.downstreamTurnState := by
  have hcased : headers.Cased turnStateHeader := h.cased _ (by decide)
  rw [buildOwnerForwardHeaders_eq, Headers.get_set_of_ne (by decide),
    get_setReservation_of_ne (by decide) (by decide) (by decide)]
  exact optionalHeader_setTurnState h (get_setAddressed (by decide)) (cased_setAddressed hcased)

theorem reservationFromHeaders_build :
    reservationFromHeaders (buildOwnerForwardHeaders c headers payload ctx) =
      ctx.reservation := by
  have hcased : ∀ name ∈ bridgeHeaders, (ctx.setTurnState (ctx.setAddressed headers)).Cased name :=
    fun name hname => cased_setTurnState (cased_setAddressed (h.cased name hname))
  have hsent : ∀ name, turnStateHeader ≠ name → (∀ other ∈ addressedHeaders, other ≠ name) →
      (ctx.setTurnState (ctx.setAddressed headers)).get name = headers.get name := by
    intro name hturn hne
    rw [get_setTurnState_of_ne hturn, get_setAddressed hne]
  have hset := reservationFromHeaders_setReservation h
    (reservationFromHeaders_congr (hsent _ (by decide) (by decide))
      (hsent _ (by decide) (by decide)) (hsent _ (by decide) (by decide))) hcased
  rw [← hset, buildOwnerForwardHeaders_eq]
  apply reservationFromHeaders_congr <;> exact Headers.get_set_of_ne (by decide)

/-- **The context is read back from the headers** that can carry it. -/
theorem contextFromHeaders_build :
    contextFromHeaders (buildOwnerForwardHeaders c headers payload ctx) = ctx := by
  obtain ⟨kind, key, hkind, hkindClean, hkey, hkeyClean⟩ := h.affinity
  obtain ⟨hgetKind, hgetKey⟩ :
      (buildOwnerForwardHeaders c headers payload ctx).get affinityKindHeader = some kind ∧
        (buildOwnerForwardHeaders c headers payload ctx).get affinityKeyHeader = some key :=
    get_build_affinity h hkind hkey ⟨hkindClean, hkeyClean⟩
  have hflag : boolHeader (some (if ctx.codexSessionAffinity then "1" else "0")) =
      ctx.codexSessionAffinity := by
    cases ctx.codexSessionAffinity <;> decide
  rw [contextFromHeaders, get_build_origin h, get_build_target h, get_build_codexAffinity h,
    optionalHeader_build_turnState h, reservationFromHeaders_build h, hgetKind, hgetKey,
    optionalHeader_clean h.origin, optionalHeader_clean hkindClean,
    optionalHeader_clean hkeyClean, hflag, getD_some, getD_some, h.target.1,
    ← hkind, ← hkey]

theorem parse_build :
    parseForwardedRequest c (buildOwnerForwardHeaders c headers payload ctx) payload
      ctx.targetInstance = .ok ctx := by
  have hctx : contextFromHeaders (buildOwnerForwardHeaders c headers payload ctx) = ctx :=
    contextFromHeaders_build h
  have haccept : parseForwardedRequest c (buildOwnerForwardHeaders c headers payload ctx) payload
      ctx.targetInstance = .ok (contextFromHeaders (buildOwnerForwardHeaders c headers payload
        ctx)) :=
    parse_of_signature (get_build_forwarded h) (congrArg ForwardContext.targetInstance hctx)
      h.target.2 (by rw [hctx, get_build_signature h])
  rw [haccept, hctx]

end

end Carried

end CodexOctopus

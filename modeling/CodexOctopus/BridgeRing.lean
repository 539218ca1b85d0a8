import Mathlib.Data.List.AList
import Mathlib.Data.List.Dedup
import Mathlib.Data.List.Sort
import CodexOctopus.Json
import CodexOctopus.Python
import CodexOctopus.RendezvousHash

/-!
# The bridge ring

`app/modules/proxy/ring_membership.py`: the instances that serve bridge sessions write heartbeats
into a table, and those with a recent one are the ring. `_http_bridge_owner_instance` of
`app/modules/proxy/service.py` picks the owner of a session from it.

What the table is for is said by `lastBeat`, which looks at the operations of one instance only.
-/

namespace CodexOctopus.BridgeRing

open List Python RendezvousHash

/-! ## The table -/

/-- A row of `bridge_ring_members`, without its key. Moments are counted in microseconds. -/
structure BridgeRingMember where
  registeredAt : ℤ
  lastHeartbeatAt : ℤ
  metadataJson : Option String

/-- The table by its unique column `instance_id`. -/
abbrev Ring := AList fun _ : String => BridgeRingMember

def second : ℤ := 1000000

def bridgeRingMetadataJson (endpointBaseUrl : Option String) : Option String :=
  endpointBaseUrl.map fun url => (Json.obj [("endpoint_base_url", .str url)]).dumpsPlain

/-- `endpoint.strip().rstrip("/") or None`. -/
def normalizedEndpoint (endpoint : String) : Option String :=
  let stripped := String.ofList ((strip endpoint).toList.rdropWhile (· = '/'))
  if stripped = "" then none else some stripped

def bridgeRingEndpointFromMetadata (metadataJson : Option String) : Option String :=
  match metadataJson.bind Json.loads with
  | some (.obj payload) =>
    ((getItem "endpoint_base_url" payload).bind Json.str?).bind normalizedEndpoint
  | _ => none

def register (now : ℤ) (instanceId : String) (endpoint : Option String) (t : Ring) : Ring :=
  t.insert instanceId ⟨now, now, bridgeRingMetadataJson endpoint⟩

/-- `heartbeat`; a row that exists keeps its `registered_at`. -/
def heartbeat (now : ℤ) (instanceId : String) (endpoint : Option String) (t : Ring) : Ring :=
  let registeredAt := (t.lookup instanceId).elim now (·.registeredAt)
  t.insert instanceId ⟨registeredAt, now, bridgeRingMetadataJson endpoint⟩

def unregister (instanceId : String) (t : Ring) : Ring := t.erase instanceId

/-- The heartbeat that `mark_stale` sets. -/
def staleTime (now staleThreshold grace : ℤ) : ℤ :=
  now - max (staleThreshold - max grace 0) 0 * second

def markStale (now : ℤ) (instanceId : String) (staleThreshold grace : ℤ) (t : Ring) : Ring :=
  (t.lookup instanceId).elim t fun m =>
    t.insert instanceId { m with lastHeartbeatAt := staleTime now staleThreshold grace }

def recent (now staleThreshold heartbeat : ℤ) : Bool := now - staleThreshold * second ≤ heartbeat

def listActive (now staleThreshold : ℤ) (requireEndpoint : Bool) (t : Ring) : List String :=
  let members := t.keys.filter fun instanceId => (t.lookup instanceId).any fun m =>
    recent now staleThreshold m.lastHeartbeatAt && (!requireEndpoint || m.metadataJson.isSome)
  members.insertionSort (· ≤ ·)

def resolveEndpoint (now staleThreshold : ℤ) (instanceId : String) (t : Ring) : Option String :=
  ((t.lookup instanceId).filter (recent now staleThreshold ·.lastHeartbeatAt)).bind fun m =>
    bridgeRingEndpointFromMetadata m.metadataJson

/-- The operations, each with its own reading of the clock. -/
inductive RingOp : Type where
  | register (now : ℤ) (endpoint : Option String)
  | heartbeat (now : ℤ) (endpoint : Option String)
  | unregister
  | markStale (now staleThreshold grace : ℤ)

/-- An instance performs an operation. -/
def ringStep (t : Ring) : String × RingOp → Ring
  | (instanceId, .register now endpoint) => register now instanceId endpoint t
  | (instanceId, .heartbeat now endpoint) => heartbeat now instanceId endpoint t
  | (instanceId, .unregister) => unregister instanceId t
  | (instanceId, .markStale now staleThreshold grace) =>
    markStale now instanceId staleThreshold grace t

def ringAfter (acts : List (String × RingOp)) : Ring := acts.foldl ringStep ∅

/-! ## The last beats -/

/-- When an instance was last heard of, and where it can be reached. -/
structure Beat where
  time : ℤ
  endpoint : Option String

def beatStep (b : Option Beat) : RingOp → Option Beat
  | .register now endpoint => some ⟨now, endpoint⟩
  | .heartbeat now endpoint => some ⟨now, endpoint⟩
  | .unregister => none
  | .markStale now staleThreshold grace =>
    b.map fun b => { b with time := staleTime now staleThreshold grace }

/-- What the operations of an instance come to, whatever the others do. -/
def lastBeat (instanceId : String) (acts : List (String × RingOp)) : Option Beat :=
  ((acts.filter (·.1 = instanceId)).map Prod.snd).foldl beatStep none

variable {t : Ring} {acts : List (String × RingOp)} {id : String} {b : Option Beat}
  {now staleThreshold : ℤ} {requireEndpoint : Bool}

/-- A row and a beat, as far as they are read. -/
def BridgeRingMember.Shows (m : BridgeRingMember) (b : Beat) : Prop :=
  m.lastHeartbeatAt = b.time ∧ m.metadataJson = bridgeRingMetadataJson b.endpoint

/-- An operation changes the row of its instance as it changes the beat, and no other row. -/
theorem shows_ringStep (h : Option.Rel BridgeRingMember.Shows (t.lookup id) b)
    (a : String × RingOp) :
    Option.Rel BridgeRingMember.Shows ((ringStep t a).lookup id)
      (if a.1 = id then beatStep b a.2 else b) := by
  obtain ⟨instanceId, op⟩ := a
  dsimp only
  split_ifs with hid
  · subst hid
    cases op with
    | register now endpoint | heartbeat now endpoint =>
      simp only [ringStep, register, heartbeat, AList.lookup_insert]
      exact .some ⟨rfl, rfl⟩
    | unregister =>
      rw [ringStep, unregister, AList.lookup_erase]
      exact .none
    | markStale now staleThreshold grace =>
      rw [ringStep, markStale]
      generalize hrow : t.lookup instanceId = row at h
      cases h with
      | none => rw [Option.elim_none, hrow]; exact .none
      | some hshows =>
        rw [Option.elim_some, AList.lookup_insert]
        exact .some ⟨rfl, hshows.2⟩
  · have hother : (ringStep t (instanceId, op)).lookup id = t.lookup id := by
      cases op with
      | register now endpoint | heartbeat now endpoint =>
        exact AList.lookup_insert_ne (Ne.symm hid)
      | unregister => exact AList.lookup_erase_ne (Ne.symm hid)
      | markStale now staleThreshold grace =>
        rw [ringStep, markStale]
        cases t.lookup instanceId with
        | none => rfl
        | some m => exact AList.lookup_insert_ne (Ne.symm hid)
    rwa [hother]

theorem shows_ringAfter (acts : List (String × RingOp)) (id : String) :
    Option.Rel BridgeRingMember.Shows ((ringAfter acts).lookup id) (lastBeat id acts) := by
  have hrun : ∀ (acts : List (String × RingOp)) {t : Ring} {b},
      Option.Rel BridgeRingMember.Shows (t.lookup id) b →
      Option.Rel BridgeRingMember.Shows ((acts.foldl ringStep t).lookup id)
        (((acts.filter (·.1 = id)).map Prod.snd).foldl beatStep b) := by
    intro acts
    induction acts with
    | nil => exact fun h => h
    | cons a acts ih =>
      intro t b h
      have hstep := ih (shows_ringStep h a)
      by_cases ha : a.1 = id
      · simpa [ha] using hstep
      · simpa [ha] using hstep
  exact hrun acts .none

theorem endpoint_metadata (endpoint : Option String) :
    bridgeRingEndpointFromMetadata (bridgeRingMetadataJson endpoint) =
      endpoint.bind normalizedEndpoint := by
  cases endpoint with
  | none => rfl
  | some url =>
    simp [bridgeRingEndpointFromMetadata, bridgeRingMetadataJson, Json.loads_dumpsPlain, getItem,
      Json.str?]

theorem mem_listActive : id ∈ listActive now staleThreshold requireEndpoint (ringAfter acts) ↔
    ∃ b, lastBeat id acts = some b ∧ recent now staleThreshold b.time = true ∧
      (requireEndpoint = true → b.endpoint.isSome = true) := by
  have hshows := shows_ringAfter acts id
  rw [listActive, mem_insertionSort, mem_filter, ← AList.mem_keys, ← AList.lookup_isSome]
  generalize (ringAfter acts).lookup id = row, lastBeat id acts = b at hshows
  cases hshows with
  | none => simp
  | some h =>
    cases requireEndpoint <;> simp [h.1, h.2, bridgeRingMetadataJson]

/-- **The ring is made of the last beats.** However the operations of the instances come, the active
ones are in order and each once: those whose own operations leave a recent heartbeat, and an
endpoint where one is asked for. -/
theorem ring_keeps_last_beats (acts : List (String × RingOp)) (now staleThreshold : ℤ) :
    (∀ requireEndpoint,
      (listActive now staleThreshold requireEndpoint (ringAfter acts)).Pairwise (· < ·) ∧
      ∀ id, id ∈ listActive now staleThreshold requireEndpoint (ringAfter acts) ↔
        ∃ b, lastBeat id acts = some b ∧ recent now staleThreshold b.time = true ∧
          (requireEndpoint = true → b.endpoint.isSome = true)) ∧
    ∀ id, resolveEndpoint now staleThreshold id (ringAfter acts) =
      ((lastBeat id acts).filter (recent now staleThreshold ·.time)).bind fun b =>
        b.endpoint.bind normalizedEndpoint := by
  refine ⟨fun requireEndpoint => ⟨?_, fun id => mem_listActive⟩, fun id => ?_⟩
  · have hnodup : (listActive now staleThreshold requireEndpoint (ringAfter acts)).Nodup :=
      (perm_insertionSort _ _).nodup_iff.mpr ((ringAfter acts).keys_nodup.filter _)
    exact ((pairwise_insertionSort _ _).and hnodup).imp fun h => lt_of_le_of_ne h.1 h.2
  · have hshows := shows_ringAfter acts id
    rw [resolveEndpoint]
    generalize (ringAfter acts).lookup id = row, lastBeat id acts = b at hshows
    cases hshows with
    | none => rfl
    | some h =>
      rename_i m b
      by_cases hb : recent now staleThreshold b.time = true
      · simp [Option.filter, h.1, hb, h.2, endpoint_metadata]
      · simp [Option.filter, h.1, hb]

/-! ## The owner of a session -/

structure Settings where
  instanceId : String
  instanceRing : List String

/-- `_HTTPBridgeSessionKey`, as far as it is hashed. -/
structure SessionKey where
  affinityKind : String
  affinityKey : String
  apiKeyId : Option String

def SessionKey.hashInput (key : SessionKey) : String :=
  key.affinityKind ++ ":" ++ key.affinityKey ++ ":" ++ key.apiKeyId.getD ""

/-- `sorted` of the set of the stripped entries that are not empty. -/
def normalizedMembers (entries : List String) : List String :=
  ((entries.map strip).filter (· ≠ "")).dedup.insertionSort (· ≤ ·)

def normalizedHttpBridgeInstanceRing (settings : Settings) : String × List String :=
  let stripped := strip settings.instanceId
  let instanceId := if stripped = "" then "codex-lb" else stripped
  let ring := normalizedMembers settings.instanceRing
  (instanceId, if ring = [] then [instanceId] else ring)

/-- `_active_http_bridge_instance_ring`, with what `list_active` returns. -/
def activeHttpBridgeInstanceRing (settings : Settings) (activeMembers : Option (List String)) :
    String × List String :=
  let (instanceId, staticRing) := normalizedHttpBridgeInstanceRing settings
  match activeMembers with
  | none => (instanceId, staticRing)
  | some [] => (instanceId, [instanceId])
  | some members =>
    let ring := normalizedMembers members
    (instanceId, if ring = [] then staticRing else ring)

variable {β : Type*} [LinearOrder β]

def httpBridgeOwnerInstance (sha256 : String → β) (key : SessionKey) (settings : Settings)
    (activeMembers : Option (List String)) : Option String :=
  let (instanceId, ring) := activeHttpBridgeInstanceRing settings activeMembers
  if ring.length ≤ 1 then some instanceId else selectNode sha256 key.hashInput ring

/-- What `list_active` returns to an instance that looks for an owner after these operations. -/
def view (acts : List (String × RingOp)) (now staleThreshold : ℤ) : List String :=
  listActive now staleThreshold true (ringAfter acts)

/-- An instance of this name has a recent heartbeat and an endpoint. -/
def Present (acts : List (String × RingOp)) (now staleThreshold : ℤ) (name : String) : Prop :=
  name ≠ "" ∧ ∃ id b, strip id = name ∧ lastBeat id acts = some b ∧
    recent now staleThreshold b.time = true ∧ b.endpoint.isSome = true

theorem mem_normalizedMembers_view {name : String} :
    name ∈ normalizedMembers (view acts now staleThreshold) ↔
      Present acts now staleThreshold name := by
  simp only [normalizedMembers, view, mem_insertionSort, mem_dedup, mem_filter, mem_map,
    mem_listActive, Present, decide_eq_true_eq, forall_const]
  constructor
  · rintro ⟨⟨id, ⟨b, hb⟩, rfl⟩, hne⟩
    exact ⟨hne, id, b, rfl, hb⟩
  · rintro ⟨hne, id, b, rfl, hb⟩
    exact ⟨⟨id, ⟨b, hb⟩, rfl⟩, hne⟩

/-- With two members or more, the settings of an instance make no difference. -/
theorem owner_eq_selectNode {sha256 : String → β} {key : SessionKey} {members : List String}
    (h : 1 < (normalizedMembers members).length) (settings : Settings) :
    httpBridgeOwnerInstance sha256 key settings (some members) =
      selectNode sha256 key.hashInput (normalizedMembers members) := by
  cases members with
  | nil => cases h
  | cons m members =>
    have hne : normalizedMembers (m :: members) ≠ [] := ne_nil_of_length_pos (by omega)
    simp only [httpBridgeOwnerInstance, activeHttpBridgeInstanceRing, if_neg hne]
    rw [if_neg (by omega)]

/-- **The owner of a session moves with the ring only.** In a ring of two members or more, all
instances agree on the owner, which is one of them. If another one is seen later, then the first has
left the ring, or the second was not yet in it. -/
theorem owner_moves_with_ring (sha256 : String → β) (key : SessionKey)
    (acts later : List (String × RingOp)) (now now' staleThreshold : ℤ)
    (hring : 1 < (normalizedMembers (view acts now staleThreshold)).length)
    (hring' : 1 < (normalizedMembers (view (acts ++ later) now' staleThreshold)).length)
    (hscores : Distinct sha256 key.hashInput (normalizedMembers (view acts now staleThreshold) ++
      normalizedMembers (view (acts ++ later) now' staleThreshold))) :
    ∃ owner owner',
      (∀ settings, httpBridgeOwnerInstance sha256 key settings
        (some (view acts now staleThreshold)) = some owner) ∧
      (∀ settings, httpBridgeOwnerInstance sha256 key settings
        (some (view (acts ++ later) now' staleThreshold)) = some owner') ∧
      Present acts now staleThreshold owner ∧
      Present (acts ++ later) now' staleThreshold owner' ∧
      (owner ≠ owner' → ¬ Present (acts ++ later) now' staleThreshold owner ∨
        ¬ Present acts now staleThreshold owner') := by
  simp only [owner_eq_selectNode hring, owner_eq_selectNode hring', ← mem_normalizedMembers_view]
  set ring := normalizedMembers (view acts now staleThreshold)
  set ring' := normalizedMembers (view (acts ++ later) now' staleThreshold)
  have hne : ring ≠ [] := ne_nil_of_length_pos (by omega)
  have hne' : ring' ≠ [] := ne_nil_of_length_pos (by omega)
  obtain ⟨owner, howner⟩ := exists_selectNode sha256 key.hashInput hne
  obtain ⟨owner', howner'⟩ := exists_selectNode sha256 key.hashInput hne'
  obtain ⟨hmem, hmax⟩ := (selectNode_eq_some_iff fun m hm n hn =>
    hscores m (mem_append_left _ hm) n (mem_append_left _ hn)).mp howner
  obtain ⟨hmem', hmax'⟩ := (selectNode_eq_some_iff fun m hm n hn =>
    hscores m (mem_append_right _ hm) n (mem_append_right _ hn)).mp howner'
  refine ⟨owner, owner', fun _ => howner, fun _ => howner', hmem, hmem', fun hmoved => ?_⟩
  by_contra hboth
  obtain ⟨hkept, hold⟩ := not_or.mp hboth
  -- each has the highest score in a ring that has the other
  refine hmoved (hscores _ (mem_append_left _ hmem) _ (mem_append_right _ hmem') ?_)
  exact le_antisymm (hmax' owner (not_not.mp hkept)) (hmax owner' (not_not.mp hold))

def twoJoin : List (String × RingOp) :=
  [("a", .register 0 (some "u")), ("bb", .heartbeat 0 (some "u"))]

theorem owner_moves_with_ring_two : ∃ owner, ∀ settings,
    httpBridgeOwnerInstance String.length ⟨"k", "v", none⟩ settings (some (view twoJoin 0 120)) =
      some owner :=
  (owner_moves_with_ring String.length ⟨"k", "v", none⟩ twoJoin [] 0 0 120 (by decide +kernel)
    (by decide +kernel) (by unfold Distinct; decide +kernel)).imp fun _ h => h.choose_spec.1

end CodexOctopus.BridgeRing

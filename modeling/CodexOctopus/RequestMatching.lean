import CodexOctopus.Table

/-!
# Pending requests and their matching

What the HTTP bridge and the downstream websocket proxy of `app/modules/proxy/service.py`
share: the state of a request on an upstream websocket, the helpers that find the request
of an upstream event in the deque of pending requests, the responses that the upstream has
in progress, and the permit of the create gate that a request may hold.
-/

namespace CodexOctopus

open List Option Table

/-! ## Requests and events -/

/-- `_WebSocketRequestState`; in the deque, `gateAcquired` is also `awaiting_response_created`. -/
structure RequestState where
  requestId : ℕ
  responseId : Option String
  gateAcquired : Bool
  hasPreviousResponseId : Bool
  prewarm : Bool
  downstreamCommitted : Bool
  deriving DecidableEq

def plainRequest (requestId : ℕ) : RequestState := ⟨requestId, none, false, false, false, false⟩

inductive UpstreamEventType : Type where
  | created
  | completed
  | failed
  | incomplete
  | error
  | other
  deriving DecidableEq

/-- An upstream message, with the response id and the error code read from it. -/
structure UpstreamEvent where
  type : UpstreamEventType
  responseId : Option String
  errorCode : Option String
  text : String
  deriving DecidableEq

def UpstreamEventType.isTerminal : UpstreamEventType → Bool
  | .completed | .failed | .incomplete | .error => true
  | .created | .other => false

def findByResponseId (pending : List RequestState) (responseId : String) :
    Option RequestState :=
  pending.find? (·.responseId = some responseId)

def unresolvedRequests (pending : List RequestState) : List RequestState :=
  pending.filter (·.responseId = none)

def setRequest (requestId : ℕ) (f : RequestState → RequestState) :
    List RequestState → List RequestState :=
  Table.updateWhere (fun r => r.requestId = requestId) f

def removeRequest (requestId : ℕ) (pending : List RequestState) : List RequestState :=
  pending.filter (·.requestId ≠ requestId)

def assignResponseId (pending : List RequestState) (responseId : Option String) :
    Option RequestState × List RequestState :=
  match responseId with
  | none => (none, pending)
  | some id =>
    match findByResponseId pending id with
    | some r => (some r, pending)
    | none =>
      match (unresolvedRequests pending).head? with
      | none => (none, pending)
      | some r =>
        (some { r with responseId := some id },
          setRequest r.requestId ({ · with responseId := some id }) pending)

/-- `_pop_terminal_websocket_request_state`: the request that a terminal event removes. -/
def terminalRequest (pending : List RequestState) (responseId : Option String)
    (fallback : Option RequestState) : Option RequestState :=
  match responseId.bind (findByResponseId pending) with
  | some r => some r
  | none =>
    match fallback.filter (· ∈ pending) with
    | some r => some r
    | none =>
      match unresolvedRequests pending with
      | [r] => some r
      | _ =>
        match responseId, pending with
        | none, [r] => some r
        | _, _ => none

/-! ## Responses in progress -/

structure UpstreamResponse where
  owner : ℕ
  responseId : Option String
  deriving DecidableEq

def inflightAfter (inflight : List UpstreamResponse) (source : ℕ) (e : UpstreamEvent) :
    List UpstreamResponse :=
  if e.type = .created then
    Table.updateWhere (fun u => u.owner = source) ({ · with responseId := e.responseId }) inflight
  else if e.type.isTerminal then inflight.filter (·.owner ≠ source)
  else inflight

/-! ## The create gate -/

/-- The permit that `_release_websocket_response_create_gate` gives back. -/
def RequestState.permit (r : RequestState) : ℕ := if r.gateAcquired then 1 else 0

def permits (requests : List RequestState) : ℕ := (requests.map RequestState.permit).sum

/-! ## The deque -/

variable {id : ℕ} {l : List RequestState} {r q : RequestState} {f : RequestState → RequestState}

theorem mem_removeRequest :
    r ∈ removeRequest id l ↔ r ∈ l ∧ r.requestId ≠ id := by
  simp [removeRequest]

theorem map_requestId_setRequest (hf : ∀ r, (f r).requestId = r.requestId) (l : List RequestState) :
    (setRequest id f l).map RequestState.requestId = l.map RequestState.requestId :=
  map_key_updateWhere fun r _ => hf r

theorem mem_setRequest (h : q ∈ setRequest id f l) :
    (∃ r ∈ l, r.requestId = id ∧ q = f r) ∨ (q ∈ l ∧ q.requestId ≠ id) := by
  obtain ⟨r, hr, rfl⟩ := mem_updateWhere.mp h
  by_cases hid : r.requestId = id
  · exact .inl ⟨r, hr, hid, by simp [hid]⟩
  · simp only [hid, decide_false, Bool.false_eq_true, if_false]
    exact .inr ⟨hr, hid⟩

theorem setRequest_of_ne (hq : q ∈ l) (hid : q.requestId ≠ id) : q ∈ setRequest id f l :=
  mem_updateWhere.mpr ⟨q, hq, by simp [hid]⟩

theorem setRequest_of_eq (hq : q ∈ l) : f q ∈ setRequest q.requestId f l :=
  mem_updateWhere.mpr ⟨q, hq, by simp⟩

theorem setRequest_setRequest {g : RequestState → RequestState}
    (hf : ∀ r, (f r).requestId = r.requestId) (l : List RequestState) :
    setRequest id g (setRequest id f l) = setRequest id (g ∘ f) l := by
  simp only [setRequest, Table.updateWhere, List.map_map]
  refine List.map_congr_left fun r _ => ?_
  by_cases hid : r.requestId = id <;> simp [hid, hf]

@[simp] theorem permits_append (l l' : List RequestState) :
    permits (l ++ l') = permits l + permits l' := by
  simp [permits]

theorem permits_eq_add (hu : Unique RequestState.requestId l) (hr : r ∈ l) :
    permits l = r.permit + permits (removeRequest r.requestId l) := by
  rw [permits, ((hu.perm_cons_filter hr).map _).sum_eq]
  rfl

theorem permits_setRequest (hu : Unique RequestState.requestId l) (hr : r ∈ l)
    (f : RequestState → RequestState) :
    permits (setRequest r.requestId f l) =
      (f r).permit + permits (removeRequest r.requestId l) := by
  rw [permits, setRequest, ((hu.updateWhere_perm hr).map _).sum_eq]
  rfl

theorem eq_of_permits_le_one (hu : Unique RequestState.requestId l) (hle : permits l ≤ 1)
    (hr : r ∈ l) (hq : q ∈ l) (hgr : r.gateAcquired = true) (hgq : q.gateAcquired = true) :
    q = r := by
  by_contra hne
  have hid : q.requestId ≠ r.requestId := fun heq => hne (hu.eq_of_key_eq hq hr heq)
  have hu' : Unique RequestState.requestId (removeRequest r.requestId l) :=
    hu.sublist (filter_sublist.map _)
  have h1 := permits_eq_add hu hr
  have h2 := permits_eq_add hu' (mem_removeRequest.mpr ⟨hq, hid⟩)
  have hpr : r.permit = 1 := by simp [RequestState.permit, hgr]
  have hpq : q.permit = 1 := by simp [RequestState.permit, hgq]
  omega

theorem mem_unresolvedRequests :
    r ∈ unresolvedRequests l ↔ r ∈ l ∧ r.responseId = none := by
  simp [unresolvedRequests]

theorem findByResponseId_eq_none {id : String} (h : ∀ r ∈ l, r.responseId ≠ some id) :
    findByResponseId l id = none :=
  find?_eq_none.mpr fun r hr => by simpa using h r hr

theorem mem_of_findByResponseId {id : String} (h : findByResponseId l id = some r) :
    r ∈ l ∧ r.responseId = some id :=
  ⟨mem_of_find?_eq_some h, by simpa using find?_some h⟩

/-! ## What is found -/

theorem assignResponseId_cases (pending : List RequestState) (responseId : Option String) :
    assignResponseId pending responseId = (none, pending) ∨
    (∃ id r, responseId = some id ∧ findByResponseId pending id = some r ∧
      assignResponseId pending responseId = (some r, pending)) ∨
    ∃ id r, responseId = some id ∧ findByResponseId pending id = none ∧
      (unresolvedRequests pending).head? = some r ∧
      assignResponseId pending responseId = (some { r with responseId := some id },
        setRequest r.requestId ({ · with responseId := some id }) pending) := by
  rcases responseId with _ | id
  · exact .inl rfl
  · rcases hfind : findByResponseId pending id with _ | r
    · rcases hhead : (unresolvedRequests pending).head? with _ | r
      · exact .inl (by simp only [assignResponseId, hfind, hhead])
      · exact .inr (.inr ⟨id, r, rfl, hfind, rfl, by simp only [assignResponseId, hfind, hhead]⟩)
    · exact .inr (.inl ⟨id, r, rfl, hfind, by simp only [assignResponseId, hfind]⟩)

theorem mem_of_terminalRequest {responseId : Option String} {fallback : Option RequestState}
    (h : terminalRequest l responseId fallback = some r) : r ∈ l := by
  unfold terminalRequest at h
  split at h
  · next q hq =>
    cases h
    obtain ⟨id, -, hfind⟩ := bind_eq_some_iff.mp hq
    exact (mem_of_findByResponseId hfind).1
  · split at h
    · next q hq =>
      cases h
      simpa using (filter_eq_some_iff.mp hq).2
    · split at h
      · next q hq =>
        obtain rfl := some.inj h
        exact (mem_unresolvedRequests.mp (hq ▸ mem_singleton_self q)).1
      · split at h
        · cases h
          exact mem_singleton_self _
        · cases h

end CodexOctopus

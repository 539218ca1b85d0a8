import CodexOctopus.RelayMoves

/-!
# The deque of the websocket proxy

What holds of the pending requests in every run in which no re-send of a replayed request
fails.
-/

namespace CodexOctopus

open List Table

/-! ## The invariant of the deque -/

/-- **The deque**: a request that is not answered yet holds the gate, and the client has seen
something of every other one. -/
structure DequeInv (main : MainPhase) (pending : List RequestState) (gatePermits : ℕ)
    (requestIds : List ℕ) : Prop where
  unique : Unique RequestState.requestId pending
  known : ∀ r ∈ pending, r.requestId ∈ requestIds
  incoming : ∀ r, main.incoming = some r → r.requestId ∈ requestIds ∧
    (∀ q ∈ pending, q.requestId ≠ r.requestId) ∧ r.responseId = none ∧ r.downstreamCommitted = false
  gate : gatePermits + permits pending + main.permit ≤ 1
  admitted : ∀ r, main = .admitting r → r.gateAcquired = true
  waiting : ∀ r ∈ pending, r.responseId = none → r.gateAcquired = true
  seen : ∀ r ∈ pending, r.responseId ≠ none → r.downstreamCommitted = true

def WebsocketState.Deque (s : WebsocketState) : Prop :=
  DequeInv s.main s.pending s.gatePermits s.requestIds

theorem newWebsocket_deque : newWebsocket.Deque where
  unique := nodup_nil
  known := nofun
  incoming := nofun
  gate := Nat.le_refl 1
  admitted := nofun
  waiting := nofun
  seen := nofun

namespace WebsocketState.Deque

variable {s s' : WebsocketState} {a : WebsocketAct} {r q : RequestState}

section

variable (h : s.Deque)
include h

section

variable (hr : r ∈ s.pending)
include hr

theorem gate_of_unseen (hunseen : r.downstreamCommitted = false) :
    r.responseId = none ∧ r.gateAcquired = true := by
  have hnone : r.responseId = none := by
    by_contra hne
    rw [h.seen r hr hne] at hunseen
    cases hunseen
  exact ⟨hnone, h.waiting r hr hnone⟩

theorem holder_unique (hq : q ∈ s.pending) (hgr : r.gateAcquired = true)
    (hgq : q.gateAcquired = true) : q = r :=
  eq_of_permits_le_one h.unique (Nat.le_of_add_left_le (Nat.le_of_add_right_le h.gate)) hr hq hgr
    hgq

theorem unseen_unique (hq : q ∈ s.pending) (hur : r.downstreamCommitted = false)
    (huq : q.downstreamCommitted = false) : q = r :=
  h.holder_unique hr hq (h.gate_of_unseen hr hur).2 (h.gate_of_unseen hq huq).2

theorem unresolved_eq (hnone : r.responseId = none) :
    unresolvedRequests s.pending = [r] := by
  have hmem : r ∈ unresolvedRequests s.pending := mem_unresolvedRequests.mpr ⟨hr, hnone⟩
  have hall : ∀ q ∈ unresolvedRequests s.pending, q = r := by
    intro q hq
    obtain ⟨hq, hqnone⟩ := mem_unresolvedRequests.mp hq
    exact h.holder_unique hr hq (h.waiting r hr hnone) (h.waiting q hq hqnone)
  have hnd : (unresolvedRequests s.pending).Nodup := (List.Nodup.of_map _ h.unique).filter _
  rcases hl : unresolvedRequests s.pending with _ | ⟨x, _ | ⟨y, l⟩⟩
  · rw [hl] at hmem
    cases hmem
  · rw [hl] at hall
    rw [hall x mem_cons_self]
  · rw [hl] at hall hnd
    have hxy : x = y := (hall x (by simp)).trans (hall y (by simp)).symm
    simp [hxy] at hnd

end

theorem text {e : UpstreamEvent} : (s.text e).Deque := by
  have hmove := text_move s e
  have hspec := text_spec s e
  have hgate := hspec.gate
  have hsum : s.gatePermits + permits s.pending + s.main.permit ≤ 1 := h.gate
  have horigin := hmove.origin h.unique
  rw [WebsocketState.Deque, hspec.main, text_requestIds]
  refine ⟨h.unique.sublist hmove.sublist, ?_, ?_, ?_, h.admitted, ?_, ?_⟩
  · intro q hq
    obtain ⟨p, hp, horig⟩ := horigin q hq
    rw [horig.id]
    exact h.known p hp
  · intro r hr
    obtain ⟨hknown, hother, hnew⟩ := h.incoming r hr
    refine ⟨hknown, fun q hq => ?_, hnew⟩
    obtain ⟨p, hp, horig⟩ := horigin q hq
    rw [horig.id]
    exact hother p hp
  · omega
  · intro q hq hnone
    obtain ⟨p, hp, horig⟩ := horigin q hq
    rw [horig.gate hnone]
    rcases horig.response with heq | ⟨hunseen, -⟩ | ⟨-, heq, hne, -⟩
    · exact h.waiting p hp (heq ▸ hnone)
    · exact (h.gate_of_unseen hp hunseen).2
    · exact absurd (heq ▸ hnone) hne
  · intro q hq hsome
    obtain ⟨p, hp, horig⟩ := horigin q hq
    rcases horig.response with heq | ⟨-, hnone⟩ | ⟨-, -, -, hseen⟩
    · exact horig.committed (h.seen p hp (heq ▸ hsome))
    · exact absurd hnone hsome
    · exact hseen

theorem register {m : MainPhase} (hmain : s.main = .admitting r) (hm : m.incoming = none) :
    WebsocketState.Deque { s with main := m, pending := s.pending ++ [r] } := by
  obtain ⟨hknown, hother, hnone, -⟩ := h.incoming r (by rw [hmain]; rfl)
  have hlookup : lookup RequestState.requestId s.pending r.requestId = none :=
    lookup_eq_none_iff.mpr hother
  have hpermit : s.main.permit = r.permit := by rw [hmain]; rfl
  have hle := MainPhase.permit_of_incoming hm
  have hsum : s.gatePermits + permits s.pending + s.main.permit ≤ 1 := h.gate
  have hone : permits [r] = r.permit := by simp [permits]
  have hmem : ∀ q ∈ s.pending ++ [r], q ∈ s.pending ∨ q = r := by simp
  refine ⟨h.unique.append_singleton hlookup, fun q hq => ?_, fun q hq => ?_, ?_, fun q hq => ?_,
    fun q hq hqnone => ?_, fun q hq hqsome => ?_⟩
  · rcases hmem q hq with hq | rfl
    · exact h.known q hq
    · exact hknown
  · rw [hm] at hq
    cases hq
  · dsimp only
    rw [permits_append]
    omega
  · obtain rfl : m = .admitting q := hq
    cases hm
  · rcases hmem q hq with hq | rfl
    · exact h.waiting q hq hqnone
    · exact h.admitted q hmain
  · rcases hmem q hq with hq | rfl
    · exact h.seen q hq hqsome
    · exact absurd hnone hqsome

/-- **Every step keeps the invariant**, but for a failed re-send. -/
theorem step (ha : a ≠ .resendFailed)
    (hnew : ∀ r, a = .receive (some r) → r.responseId = none ∧ r.downstreamCommitted = false)
    (hs : websocketStep s a = some s') : s'.Deque := by
  cases websocketStep_move ha hs with
  | leave p pending ids kept gate =>
    have hsum : s.gatePermits + permits s.pending + s.main.permit ≤ 1 := h.gate
    have hsub : ∀ q ∈ s'.pending, q ∈ s.pending := fun q hq =>
      mem_of_mem_filter (pending ▸ hq)
    refine ⟨?_, fun q hq => ids ▸ h.known q (hsub q hq), fun r hr => ?_, by omega,
      fun r hr => h.admitted r (kept.admitted r hr), fun q hq => h.waiting q (hsub q hq),
      fun q hq => h.seen q (hsub q hq)⟩
    · rw [pending]
      exact h.unique.sublist (filter_sublist.map _)
    · obtain ⟨hknown, hother, hrest⟩ := h.incoming r (kept.incoming r hr)
      exact ⟨ids ▸ hknown, fun q hq => hother q (hsub q hq), hrest⟩
  | receive r act main fresh eq =>
    subst eq
    obtain ⟨hnone, hunseen⟩ := hnew r act
    refine ⟨h.unique, fun q hq => mem_cons_of_mem _ (h.known q hq), ?_, ?_, nofun, h.waiting,
      h.seen⟩
    · rintro q ⟨⟩
      refine ⟨mem_cons_self, fun p hp hid => fresh ?_, hnone, hunseen⟩
      exact hid ▸ h.known p hp
    · exact Nat.le_of_add_right_le h.gate
  | acquire r act main free eq =>
    subst eq
    have hsum : s.gatePermits + permits s.pending + s.main.permit ≤ 1 := h.gate
    have hone : (MainPhase.admitting { r with gateAcquired := true }).permit = 1 := rfl
    refine ⟨h.unique, h.known, ?_, ?_, ?_, h.waiting, h.seen⟩
    · rintro q ⟨⟩
      exact h.incoming r (by rw [main]; rfl)
    · dsimp only
      omega
    · rintro q ⟨⟩
      rfl
  | register r act main eq =>
    subst eq
    refine h.register main ?_
    split <;> rfl
  | connect id act main eq =>
    subst eq
    exact ⟨h.unique, h.known, nofun, Nat.le_of_add_right_le h.gate, nofun, h.waiting, h.seen⟩
  | replayConnect id act main eq =>
    subst eq
    exact ⟨h.unique, h.known, nofun, Nat.le_of_add_right_le h.gate, nofun, h.waiting, h.seen⟩
  | text e act reader eq =>
    subst eq
    exact h.text

end

end WebsocketState.Deque

/-! ## Requests queued for replay -/

def ReaderPhase.pastEvent : ReaderPhase → Bool
  | .settling _ | .checking | .closing | .done _ => true
  | .receiving | .failing _ => false

def Unseen (pending : List RequestState) (id : ℕ) : Prop :=
  ∃ p ∈ pending, p.requestId = id ∧ p.downstreamCommitted = false

/-- **Replays**: nothing happens to the request that is queued, nor to the one that an
upstream is opened for. -/
structure ReplayInv (main : MainPhase) (reader : Option ReaderPhase) (reconnectRequested : Bool)
    (replayRequest : Option ℕ) (pending : List RequestState) : Prop where
  busy : replayRequest ≠ none →
    reconnectRequested = true ∧ ∃ phase, reader = some phase ∧ phase.pastEvent = true
  queued : ∀ id, replayRequest = some id → main = .failing ∨ Unseen pending id
  opening : main.opening = true → reader = none
  opened : ∀ id, main = .connecting id ∨ main = .replaying id → Unseen pending id

def WebsocketState.Replay (s : WebsocketState) : Prop :=
  ReplayInv s.main s.reader s.reconnectRequested s.replayRequest s.pending

theorem newWebsocket_replay : newWebsocket.Replay where
  busy h := absurd rfl h
  queued := nofun
  opening := nofun
  opened := by
    rintro id (h | h)
    all_goals cases h

namespace ReplayInv

variable {main m : MainPhase} {reader : Option ReaderPhase} {reconnectRequested : Bool}
  {replayRequest : Option ℕ} {pending : List RequestState}

theorem not_opened (hm : m.opening = false) :
    ∀ id, m = .connecting id ∨ m = .replaying id → Unseen pending id := by
  rintro id (rfl | rfl)
  all_goals cases hm

theorem ofNone (hm : m.opening = false) :
    ReplayInv m reader reconnectRequested none pending where
  busy h := absurd rfl h
  queued := nofun
  opening h := by rw [hm] at h; cases h
  opened := not_opened hm

theorem toMain (h : ReplayInv main reader reconnectRequested replayRequest pending)
    (hne : main ≠ .failing) (hm : m.opening = false) :
    ReplayInv m reader reconnectRequested replayRequest pending where
  busy := h.busy
  queued id hid := .inr ((h.queued id hid).resolve_left hne)
  opening ho := by rw [hm] at ho; cases ho
  opened := not_opened hm

theorem takeUp {id : ℕ} (h : ReplayInv main reader reconnectRequested (some id) pending)
    (hne : main ≠ .failing) : ReplayInv (.replaying id) none false none pending where
  busy h := absurd rfl h
  queued := nofun
  opening _ := rfl
  opened := by
    rintro i (hi | hi)
    · cases hi
    · cases hi
      exact (h.queued id rfl).resolve_left hne

theorem ofReader {reader' : Option ReaderPhase} {reconnectRequested' : Bool}
    {replayRequest' : Option ℕ} {pending' : List RequestState}
    (h : ReplayInv main reader reconnectRequested replayRequest pending) (hreader : reader ≠ none)
    (hbusy : replayRequest' ≠ none →
      reconnectRequested' = true ∧ ∃ phase, reader' = some phase ∧ phase.pastEvent = true)
    (hqueued : ∀ id, replayRequest' = some id → main = .failing ∨ Unseen pending' id) :
    ReplayInv main reader' reconnectRequested' replayRequest' pending' := by
  have hclosed : main.opening = false := by
    by_contra ho
    exact hreader (h.opening (by simpa using ho))
  exact {
    busy := hbusy
    queued := hqueued
    opening := fun ho => by rw [hclosed] at ho; cases ho
    opened := not_opened hclosed }

theorem none_of_phase {phase : ReaderPhase}
    (h : ReplayInv main (some phase) reconnectRequested replayRequest pending)
    (hphase : phase.pastEvent = false) : replayRequest = none := by
  by_contra hne
  obtain ⟨-, p, hp, hpast⟩ := h.busy hne
  cases hp
  rw [hphase] at hpast
  cases hpast

end ReplayInv

namespace WebsocketState.Replay

variable {s s' : WebsocketState} {a : WebsocketAct}

variable {m : MainPhase}

section

variable (h : s.Replay)
include h

theorem toMain {m' : MainPhase} (hmain : s.main = m) (hne : m ≠ .failing) (hm : m'.opening = false)
    :
    ReplayInv m' s.reader s.reconnectRequested s.replayRequest s.pending :=
  ReplayInv.toMain h (hmain ▸ hne) hm

theorem pollReader {next : WebsocketState → WebsocketState} (hmain : s.main = m)
    (hne : m ≠ .failing) (hstay : (next s).Replay) (hgone : (next s.disconnect).Replay) :
    (s.pollReader next).Replay := by
  unfold WebsocketState.pollReader
  split
  · exact ReplayInv.ofNone rfl
  · split
    · next id hid =>
      have h' := h
      rw [WebsocketState.Replay, hid] at h'
      exact h'.takeUp (hmain ▸ hne)
    · exact hgone
  · exact hstay

theorem accept {m : Option RequestState} (hmain : s.main = .received m) :
    (s.accept m).Replay := by
  cases m with
  | none =>
    refine h.toMain hmain nofun ?_
    dsimp only [WebsocketState.accept]
    split <;> rfl
  | some r => exact h.toMain hmain nofun rfl

theorem register {r : RequestState} (hd : s.Deque) (hmain : s.main = .admitting r) :
    WebsocketState.Replay { s with
      main := if s.reader = none then .connecting r.requestId else .sending (some r.requestId)
      pending := s.pending ++ [r] } := by
  have hunseen : r.downstreamCommitted = false := (hd.incoming r (by rw [hmain]; rfl)).2.2.2
  have hqueued : ∀ id, s.replayRequest = some id → Unseen (s.pending ++ [r]) id := by
    intro id hid
    obtain ⟨p, hp, hrest⟩ := (h.queued id hid).resolve_left (by rw [hmain]; nofun)
    exact ⟨p, mem_append_left _ hp, hrest⟩
  rw [WebsocketState.Replay]
  dsimp only
  split
  · next hreader =>
    refine ⟨h.busy, fun id hid => .inr (hqueued id hid), fun _ => hreader, ?_⟩
    rintro id (hid | hid)
    · cases hid
      exact ⟨r, by simp, rfl, hunseen⟩
    · cases hid
  · exact ⟨h.busy, fun id hid => .inr (hqueued id hid), nofun, ReplayInv.not_opened rfl⟩

theorem drop {id : ℕ} (hopening : s.main.opening = true) (hm : m.opening = false) :
    WebsocketState.Replay { s.drop id with main := m } := by
  have hreader : s.reader = none := h.opening hopening
  have hnone : s.replayRequest = none := by
    by_contra hne
    obtain ⟨-, phase, hphase, -⟩ := h.busy hne
    rw [hreader] at hphase
    cases hphase
  have hinv : ReplayInv m s.reader s.reconnectRequested none (removeRequest id s.pending) :=
    .ofNone hm
  rw [← hnone] at hinv
  exact hinv

theorem mainStep (hd : s.Deque) (ha : a ≠ .resendFailed) (hs : mainStep s a s.main = some s') :
    s'.Replay := by
  unfold CodexOctopus.mainStep at hs
  split at hs
  · -- loop
    next hmain =>
    cases hs
    exact h.pollReader hmain nofun (h.toMain hmain nofun rfl) (.ofNone rfl)
  · -- poll
    next hmain =>
    cases hs
    exact h.toMain hmain nofun rfl
  · -- receive
    next hmain =>
    cases hs
    exact h.toMain hmain nofun rfl
  · next hmain =>
    split at hs
    · cases hs
    · cases hs
      exact h.toMain hmain nofun rfl
  · -- accept
    next m hmain =>
    cases hs
    refine h.pollReader hmain nofun (h.accept hmain) ?_
    have hd : s.disconnect.Replay := by
      refine .ofNone ?_
      dsimp only [WebsocketState.disconnect]
      rw [hmain]
      rfl
    exact hd.accept hmain
  · -- prepare
    next r hmain =>
    split at hs
    all_goals
      cases hs
      exact h.toMain hmain nofun rfl
  · -- prepareFailed
    next hmain =>
    cases hs
    exact h.toMain hmain nofun rfl
  · -- join
    split at hs
    · cases hs
      exact .ofNone rfl
    · cases hs
      exact .ofNone rfl
    · cases hs
  · -- acquire
    next hmain =>
    split at hs
    · cases hs
    · cases hs
      exact h.toMain hmain nofun rfl
  · -- refuse
    next hmain =>
    cases hs
    exact h.toMain hmain nofun rfl
  · -- register
    next r hmain =>
    cases hs
    exact h.register hd hmain
  · -- connect
    cases hs
    exact .ofNone rfl
  · -- connectFailed
    next hmain =>
    cases hs
    exact h.drop (by rw [hmain]; rfl) rfl
  · -- send
    next hmain =>
    split at hs
    · cases hs
      exact h.toMain hmain nofun rfl
    · cases hs
  · -- sendFailed
    cases hs
    exact ⟨h.busy, fun _ _ => .inl rfl, nofun, ReplayInv.not_opened rfl⟩
  · -- recover
    cases hs
    exact .ofNone rfl
  · -- replayConnect
    cases hs
    exact .ofNone rfl
  · -- replayConnectFailed
    next hmain =>
    cases hs
    exact h.drop (by rw [hmain]; rfl) rfl
  · -- resend
    next hmain =>
    split at hs
    · cases hs
      exact h.toMain hmain nofun rfl
    · cases hs
  · -- resendFailed
    exact absurd rfl ha
  · -- leave
    split at hs
    · cases hs
    · cases hs
      exact .ofNone rfl
  · cases hs

theorem text {e : UpstreamEvent} (hreader : s.reader = some .receiving) :
    (s.text e).Replay := by
  have hnone : s.replayRequest = none := by
    have h' := h
    rw [WebsocketState.Replay, hreader] at h'
    exact h'.none_of_phase rfl
  have hmove := text_move s e
  rw [WebsocketState.Replay, (text_spec s e).main]
  refine ReplayInv.ofReader h (by rw [hreader]; nofun) (fun hne => ?_) fun id hid => ?_
  · rcases hr : replayTarget s.pending e with _ | r
    · refine absurd ?_ hne
      rcases (text_spec s e).replay with heq | ⟨r, hr', -, -⟩
      · exact heq.trans hnone
      · rw [hr] at hr'
        cases hr'
    · simp only [WebsocketState.text, hr]
      exact ⟨trivial, _, rfl, rfl⟩
  · rcases (text_spec s e).replay with heq | ⟨r, hr, heq, -⟩
    · rw [heq, hnone] at hid
      cases hid
    · rw [heq] at hid
      cases hid
      obtain ⟨-, hcond⟩ := Option.filter_eq_some_iff.mp hr
      simp only [Bool.and_eq_true, Bool.not_eq_true', decide_eq_true_eq] at hcond
      refine .inr ⟨{ r with responseId := none }, ?_, rfl, hcond.1.2⟩
      simp only [WebsocketState.text, hr]
      exact mem_cons_self

theorem readerStep {phase : ReaderPhase} (hphase : s.reader = some phase)
    (hs : readerStep s a phase = some s') : s'.Replay := by
  have hreader : s.reader ≠ none := by rw [hphase]; nofun
  have hnone : phase.pastEvent = false → s.replayRequest = none := by
    have h' := h
    rw [WebsocketState.Replay, hphase] at h'
    exact h'.none_of_phase
  -- before an event there is nothing to replay
  have hquiet : phase.pastEvent = false → ∀ {reader' b pending'},
      ReplayInv s.main reader' b s.replayRequest pending' := fun hbefore =>
    ReplayInv.ofReader h hreader (fun hne => absurd (hnone hbefore) hne)
      fun id hid => absurd ((hnone hbefore).symm.trans hid) nofun
  unfold CodexOctopus.readerStep at hs
  split at hs
  · -- text
    cases hs
    exact h.text hphase
  · -- settle
    cases hs
    refine ReplayInv.ofReader h hreader (fun hne => ?_) h.queued
    exact ⟨by simp [(h.busy hne).1], _, rfl, rfl⟩
  · -- check
    split at hs
    · cases hs
      exact ReplayInv.ofReader h hreader (fun hne => ⟨(h.busy hne).1, _, rfl, rfl⟩) h.queued
    · next hstay =>
      cases hs
      refine ReplayInv.ofReader h hreader (fun hne => ?_) h.queued
      exact absurd ⟨(h.busy hne).1, .inl hne⟩ hstay
  · -- idleTimeout
    cases hs
    exact hquiet rfl
  · -- budgetTimeout
    cases hs
    exact hquiet rfl
  · -- upstreamClosed
    cases hs
    exact hquiet rfl
  · -- failed
    cases hs
    exact hquiet rfl
  · -- close
    cases hs
    exact ReplayInv.ofReader h hreader (fun hne => ⟨(h.busy hne).1, _, rfl, rfl⟩) h.queued
  · -- raised
    split at hs
    · cases hs
      exact ReplayInv.ofReader h hreader (fun hne => ⟨(h.busy hne).1, _, rfl, rfl⟩) h.queued
    · cases hs
  · cases hs

/-- **Every step keeps the invariant**, but for a failed re-send. -/
theorem step (hd : s.Deque) (ha : a ≠ .resendFailed) (hs : websocketStep s a = some s') :
    s'.Replay := by
  rw [websocketStep] at hs
  split at hs
  · obtain ⟨phase, hphase, hstep⟩ := Option.bind_eq_some_iff.mp hs
    exact h.readerStep hphase hstep
  · exact h.mainStep hd ha hs

end

end WebsocketState.Replay

/-! ## Responses in progress -/

/-- **The relay**: the requests in progress upstream were sent once on it, and the response ids are
those it has given. -/
structure RelayState.Base (s : RelayState) : Prop where
  deque : s.ws.Deque
  replay : s.ws.Replay
  fresh : (s.created.map Prod.fst).Nodup
  owners : Unique UpstreamResponse.owner s.inflight
  known : ∀ u ∈ s.inflight, u.owner ∈ s.ws.requestIds
  taken : ∀ u ∈ s.inflight, ∀ r, s.ws.main.incoming = some r → r.requestId ≠ u.owner
  sends : ∀ id, s.ws.main.sends = some id →
    id ∈ s.ws.requestIds ∧ ∀ u ∈ s.inflight, u.owner ≠ id
  resending : ∀ id, s.ws.main = .resending id → s.inflight = []
  responses : ∀ p ∈ s.ws.pending, ∀ id, p.responseId = some id → id ∈ s.created.map Prod.fst

theorem newRelay_base : newRelay.Base where
  deque := newWebsocket_deque
  replay := newWebsocket_replay
  fresh := nodup_nil
  owners := nodup_nil
  known := nofun
  taken := nofun
  sends := nofun
  resending := nofun
  responses := nofun

theorem owner_of_mem_inflightAfter {inflight : List UpstreamResponse} {source : ℕ}
    {e : UpstreamEvent} {u : UpstreamResponse} (hu : u ∈ inflightAfter inflight source e) :
    ∃ v ∈ inflight, v.owner = u.owner ∧ ((u = v ∧ (e.type = .created → v.owner ≠ source)) ∨
      (v.owner = source ∧ e.type = .created ∧ u.responseId = e.responseId)) := by
  unfold inflightAfter at hu
  split at hu
  · next hc =>
    obtain ⟨v, hv, rfl⟩ := mem_updateWhere.mp hu
    by_cases hid : v.owner = source
    · exact ⟨v, hv, by simp [hid], .inr ⟨hid, hc, by simp [hid]⟩⟩
    · exact ⟨v, hv, by simp [hid], .inl ⟨by simp [hid], fun _ => hid⟩⟩
  · next hne =>
    split at hu
    · exact ⟨u, mem_of_mem_filter hu, rfl, .inl ⟨rfl, fun hc => absurd hc hne⟩⟩
    · exact ⟨u, hu, rfl, .inl ⟨rfl, fun hc => absurd hc hne⟩⟩

theorem owners_inflightAfter {inflight : List UpstreamResponse}
    (h : Unique UpstreamResponse.owner inflight) (source : ℕ) (e : UpstreamEvent) :
    Unique UpstreamResponse.owner (inflightAfter inflight source e) := by
  unfold inflightAfter
  split
  · exact h.update fun _ => rfl
  · split
    · exact h.sublist (filter_sublist.map _)
    · exact h

theorem mayAnswer_created {created : List (String × ℕ)} {u : UpstreamResponse} {e : UpstreamEvent}
    (h : mayAnswer created u e = true) (hc : e.type = .created) :
    u.responseId = none ∧ ∃ id, e.responseId = some id ∧ id ∉ created.map Prod.fst := by
  unfold mayAnswer at h
  split at h
  · next id hu he =>
    simp only [Bool.and_eq_true, decide_eq_true_eq] at h
    exact ⟨hu, id, he, h.2⟩
  · rw [hc] at h
    cases h
  · simp [hc] at h

namespace RelayState.Base

variable {accounts : Finset String} {s s' : RelayState} {a : RelayAct}

theorem mem_created {source : ℕ} {e : UpstreamEvent} {id : String}
    (h : id ∈ s.created.map Prod.fst ∨ (e.type = .created ∧ e.responseId = some id)) :
    id ∈ (s.afterText source e).created.map Prod.fst := by
  dsimp only [RelayState.afterText]
  rcases h with h | ⟨hc, he⟩
  · split
    · rw [map_append]
      exact mem_append_right _ h
    · exact h
  · rw [if_pos hc, he]
    simp

theorem text {source : ℕ} {e : UpstreamEvent} {u : UpstreamResponse} {ws : WebsocketState}
    {l : List RelayEvent} (h : s.Base) (hws : ws.Deque) (hwr : ws.Replay)
    (hmay : mayAnswer s.created u e = true) (hmain : ws.main = s.ws.main)
    (hids : ws.requestIds = s.ws.requestIds) (hmove : TextMove s.ws.pending e ws.pending) :
    RelayState.Base { s.afterText source e with ws := ws, history := l } where
  deque := hws
  replay := hwr
  fresh := by
    dsimp only [RelayState.afterText]
    split
    · next hc =>
      obtain ⟨-, id, he, hfresh⟩ := mayAnswer_created hmay hc
      rw [he]
      exact nodup_cons.mpr ⟨hfresh, h.fresh⟩
    · exact h.fresh
  owners := owners_inflightAfter h.owners source e
  known v hv := by
    obtain ⟨w, hw, howner, -⟩ := owner_of_mem_inflightAfter hv
    rw [hids, ← howner]
    exact h.known w hw
  taken v hv r hr := by
    obtain ⟨w, hw, howner, -⟩ := owner_of_mem_inflightAfter hv
    rw [← howner]
    exact h.taken w hw r (hmain ▸ hr)
  sends id hid := by
    obtain ⟨hknown, hne⟩ := h.sends id (hmain ▸ hid)
    refine ⟨hids ▸ hknown, fun v hv => ?_⟩
    obtain ⟨w, hw, howner, -⟩ := owner_of_mem_inflightAfter hv
    rw [← howner]
    exact hne w hw
  resending id hid := by
    have hnil := h.resending id (hmain ▸ hid)
    refine eq_nil_iff_forall_not_mem.mpr fun v hv => ?_
    obtain ⟨w, hw, -⟩ := owner_of_mem_inflightAfter hv
    rw [hnil] at hw
    cases hw
  responses q hq id hid := by
    obtain ⟨p, hp, horig⟩ := hmove.origin h.deque.unique q hq
    refine mem_created ?_
    rcases horig.response with heq | ⟨-, hnone⟩ | ⟨hc, heq, -, -⟩
    · exact .inl (h.responses p hp id (heq ▸ hid))
    · rw [hnone] at hid
      cases hid
    · exact .inr ⟨hc, heq ▸ hid⟩

theorem opened_response (h : s.Base) {id : ℕ}
    (hmain : s.ws.main = .connecting id ∨ s.ws.main = .replaying id) :
    id ∈ s.ws.requestIds ∧ ∀ p ∈ s.ws.pending, p.requestId = id → p.responseId = none := by
  obtain ⟨q, hq, rfl, hunseen⟩ := h.replay.opened id hmain
  refine ⟨h.deque.known q hq, fun p hp hid => ?_⟩
  rw [h.deque.unique.eq_of_key_eq hp hq hid]
  exact (h.deque.gate_of_unseen hq hunseen).1

theorem tasks (h : s.Base) (ha : a ≠ .other .resendFailed)
    (hs : relayStep accounts s a = some s') : s'.ws.Deque ∧ s'.ws.Replay := by
  obtain ⟨henabled, ws, hstep, rfl⟩ := relayStep_eq_some hs
  have hact : a.act ≠ .resendFailed := by
    cases a with
    | other b => exact fun heq => ha (congrArg _ heq)
    | _ => nofun
  have hnew : ∀ r, a.act = .receive (some r) →
      r.responseId = none ∧ r.downstreamCommitted = false := by
    intro r hr
    cases a with
    | other b =>
      obtain rfl : b = .receive (some r) := hr
      simpa [RelayState.enabled] using henabled
    | _ => cases hr
  exact ⟨h.deque.step hact hnew hstep, h.replay.step h.deque hact hstep⟩

/-- **Every step keeps the invariant**, but for a failed re-send. -/
theorem step (h : s.Base) (ha : a ≠ .other .resendFailed)
    (hs : relayStep accounts s a = some s') : s'.Base := by
  obtain ⟨hdeque, hreplay⟩ := h.tasks ha hs
  cases relayStep_move ha hs with
  | text source e u act mem may reader eq =>
    subst eq
    exact h.text hdeque hreplay may (WebsocketState.text_spec s.ws e).main
      (text_requestIds s.ws e) (text_move s.ws e)
  | connect id account m main mem allowed eq =>
    subst eq
    have hid : id ∈ s.ws.requestIds := by
      rcases main with ⟨hmain, -⟩ | ⟨hmain, -⟩
      · exact (h.opened_response (.inl hmain)).1
      · exact (h.opened_response (.inr hmain)).1
    refine ⟨hdeque, hreplay, h.fresh, nodup_nil, nofun, nofun, fun i hi => ⟨?_, nofun⟩,
      fun _ _ => rfl, h.responses⟩
    rcases main with ⟨-, rfl⟩ | ⟨-, rfl⟩
    all_goals
      cases hi
      exact hid
  | sent id main eq =>
    subst eq
    have hsends : s.ws.main.sends = some id := by
      rcases main with hmain | hmain
      all_goals
        rw [hmain]
        rfl
    obtain ⟨hid, hother⟩ := h.sends id hsends
    refine ⟨hdeque, hreplay, h.fresh, ?_, fun u hu => ?_, nofun, nofun, nofun, h.responses⟩
    · exact h.owners.append_singleton (lookup_eq_none_iff.mpr hother)
    · rcases mem_append.mp hu with hu | hu
      · exact h.known u hu
      · obtain rfl := mem_singleton.mp hu
        exact hid
  | receive r act main fresh eq =>
    subst eq
    refine ⟨hdeque, hreplay, h.fresh, h.owners, fun u hu => mem_cons_of_mem _ (h.known u hu),
      fun u hu q hq heq => ?_, nofun, nofun, h.responses⟩
    cases hq
    exact fresh (heq ▸ h.known u hu)
  | acquire r main eq =>
    subst eq
    refine ⟨hdeque, hreplay, h.fresh, h.owners, h.known, fun u hu q hq => ?_, nofun, nofun,
      h.responses⟩
    cases hq
    exact h.taken u hu r (by rw [main]; rfl)
  | register r main eq =>
    subst eq
    have hr : s.ws.main.incoming = some r := by rw [main]; rfl
    have hidle : ∀ q, (if s.ws.reader = none then MainPhase.connecting r.requestId else
        .sending (some r.requestId)).incoming ≠ some q := by
      intro q
      split
      all_goals nofun
    refine ⟨hdeque, hreplay, h.fresh, h.owners, h.known, fun u hu q hq => absurd hq (hidle q),
      fun id hid => ?_, fun id hid => ?_, fun p hp id hid => ?_⟩
    · dsimp only at hid
      split at hid
      · cases hid
      · cases hid
        exact ⟨(h.deque.incoming r hr).1, fun u hu heq => h.taken u hu r hr heq.symm⟩
    · dsimp only at hid
      split at hid
      all_goals cases hid
    · rcases mem_append.mp hp with hp | hp
      · exact h.responses p hp id hid
      · obtain rfl := mem_singleton.mp hp
        rw [(h.deque.incoming p hr).2.2.1] at hid
        cases hid
  | settle reconnect eq reader =>
    subst eq
    exact ⟨hdeque, hreplay, h.fresh, h.owners, h.known, h.taken, h.sends, h.resending, h.responses⟩
  | leave ws step p pending ids kept eq =>
    subst eq
    refine ⟨hdeque, hreplay, h.fresh, h.owners, fun u hu => ids ▸ h.known u hu,
      fun u hu r hr => h.taken u hu r (kept.incoming r hr), fun id hid => ?_, fun id hid => ?_,
      fun q hq => h.responses q (mem_of_mem_filter (pending ▸ hq))⟩
    · have hmain := kept.sends id hid
      rw [ids]
      exact h.sends id (hmain ▸ hid)
    · have hmain := kept.sends id (by dsimp only at hid; rw [hid]; rfl)
      exact h.resending id (hmain ▸ hid)

/-! ### Events and response ids -/

variable {e : UpstreamEvent} {u : UpstreamResponse}

theorem same_response (h : s.Base) (hne : e.type ≠ .created) :
    ∀ q ∈ (s.ws.text e).pending, ∃ p ∈ s.ws.pending,
      q.requestId = p.requestId ∧ q.responseId = p.responseId := by
  intro q hq
  obtain ⟨p, hp, horig⟩ := (text_move s.ws e).origin h.deque.unique q hq
  refine ⟨p, hp, horig.id, ?_⟩
  rcases horig.response with heq | ⟨hunseen, hnone⟩ | ⟨hc, -⟩
  · exact heq
  · rw [hnone, (h.deque.gate_of_unseen hp hunseen).1]
  · exact absurd hc hne

theorem created_ends_none (hc : e.type = .created) :
    websocketTerminal s.ws.pending e = none ∧ replayTarget s.ws.pending e = none := by
  have hend : websocketTerminal s.ws.pending e = none := by
    simp [websocketTerminal, hc, UpstreamEventType.isTerminal]
  exact ⟨hend, by rw [replayTarget, hend]; rfl⟩

theorem created_cases (h : s.Base) (hmay : mayAnswer s.created u e = true)
    (hc : e.type = .created) (source : ℕ) :
    ∃ id, e.responseId = some id ∧ ((∃ r ∈ s.ws.pending, r.responseId = none ∧
        (s.ws.text e).pending = setRequest r.requestId (fun q =>
          { q with responseId := some id, downstreamCommitted := true, gateAcquired := false })
          s.ws.pending ∧
        s.textEvents source e = [.assigned id r.requestId]) ∨
      (unresolvedRequests s.ws.pending = [] ∧ (s.ws.text e).pending = s.ws.pending ∧
        s.textEvents source e = [])) := by
  obtain ⟨-, id, hid, hfresh⟩ := mayAnswer_created hmay hc
  obtain ⟨hend, hreplay⟩ := created_ends_none (s := s) hc
  have hunknown : findByResponseId s.ws.pending id = none :=
    findByResponseId_eq_none fun r hr hr' => hfresh (h.responses r hr id hr')
  have hmatch : websocketMatch s.ws.pending e = assignResponseId s.ws.pending e.responseId :=
    if_pos hc
  refine ⟨id, hid, ?_⟩
  rcases hhead : (unresolvedRequests s.ws.pending).head? with _ | r
  · have hassign : assignResponseId s.ws.pending e.responseId = (none, s.ws.pending) := by
      simp only [assignResponseId, hid, hunknown, hhead]
    refine .inr ⟨head?_eq_none_iff.mp hhead, ?_, ?_⟩
    · simp only [WebsocketState.text, hreplay, hend, hmatch, hassign]
    · have hassignee : s.assignee e = none := by rw [RelayState.assignee, if_pos hc, hmatch,
        hassign]
      simp only [RelayState.textEvents, hreplay, hend, hid, hassignee]
  · obtain ⟨hr, hnone⟩ := mem_unresolvedRequests.mp (mem_of_mem_head? hhead)
    have hassign : assignResponseId s.ws.pending e.responseId =
        (some { r with responseId := some id },
          setRequest r.requestId ({ · with responseId := some id }) s.ws.pending) := by
      simp only [assignResponseId, hid, hunknown, hhead]
    refine .inl ⟨r, hr, hnone, ?_, ?_⟩
    · simp only [WebsocketState.text, hreplay, hend, hmatch, hassign]
      rw [setRequest_setRequest]
      · simp [hc, Function.comp_def]
      · exact fun _ => rfl
    · have hassignee : s.assignee e = some { r with responseId := some id } := by
        rw [RelayState.assignee, if_pos hc, hmatch, hassign]
      simp only [RelayState.textEvents, hreplay, hend, hid, hassignee]

end RelayState.Base

end CodexOctopus

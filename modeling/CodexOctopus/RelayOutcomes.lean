import CodexOctopus.RelaySettlement

/-!
# Outcomes of websocket requests

The client learns how a request has ended from a terminal event that is forwarded, or from a
failure that the proxy reports. Six places report failures, and all but one take the request
out of the deque. The exception is the failure of a re-send: `_resume_websocket_request_replay`
fails the request on a deque made for the purpose, and it stays in the deque of the connection.
-/

namespace CodexOctopus

open List Option Table Lts

/-! ## Outcomes -/

def RelayEvent.outcome : RelayEvent → Option ℕ
  | .failed requestId => some requestId
  | .forwarded source e => if e.type.isTerminal then some source else none
  | _ => none

def RelayState.outcomes (s : RelayState) : List ℕ := s.history.filterMap RelayEvent.outcome

/-- **One outcome**: a request has ended once at most, and is then not pending. -/
def OneOutcome (s : RelayState) : Prop :=
  s.outcomes.Nodup ∧ ∀ id ∈ s.outcomes, isPending s.ws.pending id = false

/-- **The condition** on steps: no re-send fails, an answer to a request that was given up meets no
other, and a request that ends upstream is in the deque. -/
def EndsPending (s : RelayState) : RelayAct → Prop
  | .text source e =>
    (e.type = .created →
      isPending s.ws.pending source = true ∨ unresolvedRequests s.ws.pending = []) ∧
    (e.type.isTerminal = true → isPending s.ws.pending source = true ∧
      (e.responseId = none →
        s.ws.pending.length = 1 ∨ ∃ r ∈ unresolvedRequests s.ws.pending, r.requestId = source))
  | .other .resendFailed => False
  | _ => True

instance decidableEndsPending (s : RelayState) : ∀ a, Decidable (EndsPending s a)
  | .text _ _ => by dsimp only [EndsPending]; infer_instance
  | .connect _ | .replayConnect _ => .isTrue trivial
  | .other a => decidable_of_iff (a ≠ .resendFailed) (by cases a <;> simp [EndsPending])

/-! ## Requests that the proxy holds -/

def WebsocketState.Held (s : WebsocketState) (id : ℕ) : Prop :=
  (∃ p ∈ s.pending, p.requestId = id) ∨ ∃ r, s.main.incoming = some r ∧ r.requestId = id

structure WebsocketState.Over (s : WebsocketState) (id : ℕ) : Prop where
  known : id ∈ s.requestIds
  gone : ¬s.Held id

section Held

variable {accounts : Finset String} {s s' : RelayState} {a : RelayAct}

/-- **No request comes back.** -/
theorem RelayMove.held (h : RelayMove accounts s a s')
    (hu : Unique RequestState.requestId s.ws.pending) {id : ℕ} (hid : s'.ws.Held id) :
    s.ws.Held id ∨ id ∉ s.ws.requestIds := by
  rcases hid with ⟨q, hq, rfl⟩ | ⟨r, hr, rfl⟩
  · rcases h.pending hu q hq with ⟨p, hp, heq, -⟩ | htaken
    · exact .inl (.inl ⟨p, hp, heq.symm⟩)
    · exact .inl (.inr ⟨q, htaken, rfl⟩)
  · exact (h.incoming r hr).imp_left .inr

theorem RelayMove.over (h : RelayMove accounts s a s')
    (hu : Unique RequestState.requestId s.ws.pending) {id : ℕ} (hid : s.ws.Over id) :
    s'.ws.Over id := by
  refine ⟨h.known hid.known, fun hheld => ?_⟩
  rcases h.held hu hheld with hheld | hnew
  · exact hid.gone hheld
  · exact hnew hid.known

end Held

/-! ## Failures -/

section Failed

variable {s s' : WebsocketState} {a : WebsocketAct}

theorem pending_failed (hpending : s'.pending = [])
    (hmain : ∀ r, s'.main.incoming = some r → s.main.incoming = some r) (hd : s.Deque) :
    (s.pending.map RequestState.requestId).Nodup ∧
      ∀ id ∈ s.pending.map RequestState.requestId, s.Held id ∧ ¬s'.Held id := by
  refine ⟨hd.unique, fun id hid => ?_⟩
  obtain ⟨p, hp, rfl⟩ := mem_map.mp hid
  refine ⟨.inl ⟨p, hp, rfl⟩, ?_⟩
  rintro (⟨q, hq, -⟩ | ⟨r, hr, hid⟩)
  · rw [hpending] at hq
    cases hq
  · exact (hd.incoming r (hmain r hr)).2.1 p hp hid.symm

theorem incoming_failed {r : RequestState} (hr : s.main.incoming = some r)
    (hpending : s'.pending = s.pending) (hmain : s'.main.incoming = none) (hd : s.Deque) :
    ∀ id ∈ s.main.incoming.toList.map RequestState.requestId, s.Held id ∧ ¬s'.Held id := by
  intro id hid
  rw [hr] at hid
  obtain rfl : id = r.requestId := by simpa using hid
  refine ⟨.inr ⟨r, hr, rfl⟩, ?_⟩
  rintro (⟨q, hq, hid⟩ | ⟨q, hq, -⟩)
  · exact (hd.incoming r hr).2.1 q (hpending ▸ hq) hid
  · rw [hmain] at hq
    cases hq

theorem own_failed {id : ℕ} (hmain : s.main = .connecting id ∨ s.main = .replaying id)
    (hr : s.Replay) (hs : s' = { s.drop id with main := .top }) : s.Held id ∧ ¬s'.Held id := by
  subst hs
  obtain ⟨p, hp, hid, -⟩ := hr.opened id hmain
  refine ⟨.inl ⟨p, hp, hid⟩, ?_⟩
  rintro (⟨q, hq, hqid⟩ | ⟨q, hq, -⟩)
  · exact (mem_removeRequest.mp hq).2 hqid
  · cases hq

theorem raised_failed (hs : s.reader = some (.done true) → s' = s.finish) (hd : s.Deque) :
    (if s.reader = some (.done true) then s.pending.map RequestState.requestId else []).Nodup ∧
      ∀ id ∈ if s.reader = some (.done true) then s.pending.map RequestState.requestId else [],
        s.Held id ∧ ¬s'.Held id := by
  split
  · next hreader =>
    obtain rfl := hs hreader
    exact pending_failed rfl nofun hd
  · exact ⟨nodup_nil, nofun⟩

theorem nothing_failed : ([] : List ℕ).Nodup ∧ ∀ id ∈ ([] : List ℕ), s.Held id ∧ ¬s'.Held id :=
  ⟨nodup_nil, nofun⟩

theorem readerStep_failed {phase : ReaderPhase} (hd : s.Deque) (hs : readerStep s a phase = some s')
    :
    (s.failedBy a).Nodup ∧ ∀ id ∈ s.failedBy a, s.Held id ∧ ¬s'.Held id := by
  unfold readerStep at hs
  split at hs
  · exact nothing_failed -- text
  · exact nothing_failed -- settle
  · exact nothing_failed -- check
  · -- idleTimeout
    cases hs
    exact pending_failed rfl (fun _ h => h) hd
  · -- budgetTimeout
    next expired =>
    cases hs
    refine ⟨hd.unique.filter _, fun id hid => ?_⟩
    obtain ⟨hid, hexpired⟩ := mem_filter.mp hid
    obtain ⟨p, hp, rfl⟩ := mem_map.mp hid
    refine ⟨.inl ⟨p, hp, rfl⟩, ?_⟩
    rintro (⟨q, hq, hqid⟩ | ⟨r, hr, hrid⟩)
    · have hkept := (mem_filter.mp hq).2
      rw [hqid] at hkept
      exact of_decide_eq_true hkept (of_decide_eq_true hexpired)
    · exact (hd.incoming r hr).2.1 p hp hrid.symm
  · -- upstreamClosed
    cases hs
    exact pending_failed rfl (fun _ h => h) hd
  · exact nothing_failed -- failed
  · exact nothing_failed -- close
  · exact nothing_failed -- raised
  · cases hs

theorem mainStep_failed (ha : a ≠ .resendFailed) (hd : s.Deque) (hr : s.Replay)
    (hs : mainStep s a s.main = some s') :
    (s.failedBy a).Nodup ∧ ∀ id ∈ s.failedBy a, s.Held id ∧ ¬s'.Held id := by
  have hincoming : (s.main.incoming.toList.map RequestState.requestId).Nodup := by
    cases s.main.incoming <;> simp
  have hown : s.main.own.toList.Nodup := by
    cases s.main.own <;> simp
  unfold mainStep at hs
  split at hs
  · -- loop
    refine raised_failed (fun hreader => ?_) hd
    rw [WebsocketState.pollReader, hreader] at hs
    exact (some.inj hs).symm
  · exact nothing_failed -- poll
  · exact nothing_failed -- receive
  · exact nothing_failed
  · -- accept
    refine raised_failed (fun hreader => ?_) hd
    rw [WebsocketState.pollReader, hreader] at hs
    exact (some.inj hs).symm
  · exact nothing_failed -- prepare
  · -- prepareFailed
    next r hmain =>
    cases hs
    exact ⟨hincoming, incoming_failed (r := r) (by rw [hmain]; rfl) rfl rfl hd⟩
  · -- join
    refine raised_failed (fun hreader => ?_) hd
    rw [hreader] at hs
    exact (some.inj hs).symm
  · exact nothing_failed -- acquire
  · -- refuse
    next r hmain =>
    cases hs
    exact ⟨hincoming, incoming_failed (r := r) (by rw [hmain]; rfl) rfl rfl hd⟩
  · exact nothing_failed -- register
  · exact nothing_failed -- connect
  · -- connectFailed
    next i hmain =>
    refine ⟨hown, fun id hid => ?_⟩
    obtain rfl : id = i := by simpa [WebsocketState.failedBy, hmain, MainPhase.own] using hid
    exact own_failed (.inl hmain) hr (some.inj hs).symm
  · exact nothing_failed -- send
  · -- sendFailed
    cases hs
    exact pending_failed rfl (by rintro _ ⟨⟩) hd
  · exact nothing_failed -- recover
  · exact nothing_failed -- replayConnect
  · -- replayConnectFailed
    next i hmain =>
    refine ⟨hown, fun id hid => ?_⟩
    obtain rfl : id = i := by simpa [WebsocketState.failedBy, hmain, MainPhase.own] using hid
    exact own_failed (.inr hmain) hr (some.inj hs).symm
  · exact nothing_failed -- resend
  · exact absurd rfl ha
  · -- leave
    split at hs
    · cases hs
    · cases hs
      exact pending_failed rfl (by rintro _ ⟨⟩) hd
  · cases hs

/-- **A failure is reported of a request that the proxy holds**, and not any more after it. -/
theorem failedBy_held (ha : a ≠ .resendFailed) (hd : s.Deque) (hr : s.Replay)
    (hs : websocketStep s a = some s') :
    (s.failedBy a).Nodup ∧ ∀ id ∈ s.failedBy a, s.Held id ∧ ¬s'.Held id := by
  rw [websocketStep] at hs
  split at hs
  · obtain ⟨phase, hphase, hstep⟩ := bind_eq_some_iff.mp hs
    exact readerStep_failed hd hstep
  · exact mainStep_failed ha hd hr hs

end Failed

/-! ## The invariant -/

/-- **Outcomes**: a request that has ended is over, and so is one whose terminal event the
reader is about to forward. -/
structure RelayState.Ended (s : RelayState) : Prop where
  own : s.Own
  once : s.outcomes.Nodup
  ended : ∀ id ∈ s.outcomes, s.ws.Over id
  forwarding : ∀ source e, s.forwarding = some (source, e) → e.type.isTerminal = true →
    s.ws.Over source ∧ source ∉ s.outcomes

theorem newRelay_ended : newRelay.Ended where
  own := newRelay_own
  once := nodup_nil
  ended := nofun
  forwarding := nofun

theorem EndsPending.ownAnswer {s : RelayState} {a : RelayAct} (h : EndsPending s a)
    (hd : s.ws.Deque) : OwnAnswer s a := by
  cases a with
  | text source e =>
    obtain ⟨hcreated, hend⟩ := h
    dsimp only [OwnAnswer]
    split
    · intro ht hnone
      refine ((hend ht).2 hnone).imp id ?_
      rintro ⟨r, hr, hid⟩ q hq
      obtain ⟨hr, hrnone⟩ := mem_unresolvedRequests.mp hr
      rw [hd.unresolved_eq hr hrnone] at hq
      rw [mem_singleton.mp hq, hid]
    · next hgone =>
      refine ⟨?_, fun ht => absurd (hend ht).1 hgone⟩
      rintro (hc | ht)
      · exact (hcreated hc).resolve_left hgone
      · exact absurd (hend ht).1 hgone
  | connect account => trivial
  | replayConnect account => trivial
  | other b =>
    cases b with
    | resendFailed => exact h
    | _ => trivial

namespace RelayState.Ended

variable {accounts : Finset String} {s s' : RelayState} {a : RelayAct} {source : ℕ}
  {e : UpstreamEvent} {u : UpstreamResponse}

/-- **A terminal event finds its request.** -/
theorem terminal_found (h : s.Ended) (hok : EndsPending s (.text source e))
    (hu : lookup UpstreamResponse.owner s.inflight source = some u)
    (hmay : mayAnswer s.created u e = true) (ht : e.type.isTerminal = true) :
    ∃ r, websocketTerminal s.ws.pending e = some r ∧ r.requestId = source := by
  obtain ⟨hpending, hnone⟩ := hok.2 ht
  obtain ⟨p, hp, hid⟩ := isPending_iff.mp hpending
  suffices hfound : ∃ r, websocketTerminal s.ws.pending e = some r by
    obtain ⟨r, hr⟩ := hfound
    exact ⟨r, hr, (h.own.terminal_own (hok.ownAnswer h.own.base.deque) hu hmay hr).1⟩
  rcases hfind : e.responseId.bind (findByResponseId s.ws.pending) with _ | r
  · have heid : e.responseId = none := by
      rcases he : e.responseId with _ | id
      · rfl
      · have hresponse : p.responseId = some id :=
          (h.own.response_eq hu hp hid).trans
            (mayAnswer_other hmay (ne_created_of_terminal ht) id he)
        rw [he, bind_some] at hfind
        simpa [hresponse] using find?_eq_none.mp hfind p hp
    by_cases hlen : s.ws.pending.length = 1
    · obtain ⟨q, hq⟩ := length_eq_one_iff.mp hlen
      rw [hq] at hfind ⊢
      exact ⟨q, websocketTerminal_of_single ht hfind⟩
    · obtain ⟨r, hr, -⟩ := (hnone heid).resolve_left hlen
      obtain ⟨hr, hrnone⟩ := mem_unresolvedRequests.mp hr
      have hone := h.own.base.deque.unresolved_eq hr hrnone
      exact ⟨r, websocketTerminal_of_unresolved ht hfind hlen hone⟩
  · exact ⟨r, websocketTerminal_of_found ht hfind⟩

theorem over_text (h : s.Ended) (hok : EndsPending s (.text source e))
    (hu : lookup UpstreamResponse.owner s.inflight source = some u)
    (hmay : mayAnswer s.created u e = true) (ht : e.type.isTerminal = true)
    (hreplay : replayTarget s.ws.pending e = none) :
    (s.ws.text e).Over source ∧ source ∉ s.outcomes := by
  have hd := h.own.base.deque
  obtain ⟨r, hr, rfl⟩ := h.terminal_found hok hu hmay ht
  have hmem := (websocketTerminal_eq_some hr).1
  refine ⟨⟨text_requestIds s.ws e ▸ hd.known r hmem, ?_⟩, fun hmem' => ?_⟩
  · rintro (⟨q, hq, hid⟩ | ⟨q, hq, hid⟩)
    · simp only [WebsocketState.text, hreplay, hr] at hq
      exact (mem_removeRequest.mp hq).2 hid
    · rw [(WebsocketState.text_spec s.ws e).main] at hq
      exact (hd.incoming q hq).2.1 r hmem hid.symm
  · exact (h.ended _ hmem').gone (.inl ⟨r, hmem, rfl⟩)

theorem outcome_textEvents (s : RelayState) (source : ℕ) (e : UpstreamEvent) :
    (s.textEvents source e).filterMap RelayEvent.outcome = [] := by
  unfold RelayState.textEvents
  split
  · rfl
  · rfl
  · split <;> rfl

theorem outcome_failed (l : List ℕ) :
    (l.map RelayEvent.failed).filterMap RelayEvent.outcome = l := by
  rw [filterMap_map]
  exact filterMap_some

theorem keep (h : s.Ended) (hown : s'.Own) (hmove : RelayMove accounts s a s')
    (hout : s'.outcomes = s.outcomes)
    (hforwarding : s'.forwarding = none ∨ s'.forwarding = s.forwarding) : s'.Ended where
  own := hown
  once := hout ▸ h.once
  ended id hid := hmove.over h.own.base.deque.unique (h.ended id (hout ▸ hid))
  forwarding source e hforward ht := by
    rcases hforwarding with hnone | hsame
    · rw [hnone] at hforward
      cases hforward
    · obtain ⟨hover, hnew⟩ := h.forwarding source e (hsame ▸ hforward) ht
      exact ⟨hmove.over h.own.base.deque.unique hover, hout ▸ hnew⟩

theorem append {l : List ℕ} (h : s.Ended) (hown : s'.Own) (hmove : RelayMove accounts s a s')
    (hout : s'.outcomes = l ++ s.outcomes) (hl : l.Nodup)
    (hnew : ∀ id ∈ l, id ∉ s.outcomes ∧ s'.ws.Over id)
    (hforwarding : ∀ source e, s'.forwarding = some (source, e) →
      s.forwarding = some (source, e) ∧ (e.type.isTerminal = true → source ∉ l)) : s'.Ended where
  own := hown
  once := by
    rw [hout]
    refine nodup_append.mpr ⟨hl, h.once, ?_⟩
    rintro id hid _ hid' rfl
    exact (hnew id hid).1 hid'
  ended id hid := by
    rw [hout] at hid
    rcases mem_append.mp hid with hid | hid
    · exact (hnew id hid).2
    · exact hmove.over h.own.base.deque.unique (h.ended id hid)
  forwarding source e hforward ht := by
    obtain ⟨hforward, hother⟩ := hforwarding source e hforward
    obtain ⟨hover, hout'⟩ := h.forwarding source e hforward ht
    refine ⟨hmove.over h.own.base.deque.unique hover, ?_⟩
    rw [hout, mem_append]
    exact not_or.mpr ⟨hother ht, hout'⟩

/-- **Every step that meets the condition keeps the invariant.** -/
theorem step (h : s.Ended) (hok : EndsPending s a) (hs : relayStep accounts s a = some s') :
    s'.Ended := by
  have hanswer := hok.ownAnswer h.own.base.deque
  have hown := h.own.step hanswer hs
  have hmove := relayStep_move hanswer.ne_resendFailed hs
  have hu := h.own.base.deque.unique
  cases hmove with
  | text source e u act mem may reader eq =>
    subst act
    have hout : s'.outcomes = s.outcomes := by
      rw [eq, RelayState.outcomes, filterMap_append, outcome_textEvents]
      rfl
    refine ⟨hown, hout ▸ h.once, fun id hid => ?_, fun source' e' hforward ht => ?_⟩
    · exact (relayStep_move hanswer.ne_resendFailed hs).over hu (h.ended id (hout ▸ hid))
    · rw [hout]
      subst eq
      dsimp only [RelayState.afterText] at hforward
      split at hforward
      · next hreplay =>
        cases hforward
        exact h.over_text hok mem may ht hreplay
      · cases hforward
  | settle reconnect eq reader =>
    have hmove := relayStep_move hanswer.ne_resendFailed hs
    rcases hforward : s.forwarding with _ | ⟨source, e⟩
    · refine h.keep hown hmove ?_ (.inl (by rw [eq]))
      rw [eq, RelayState.outcomes, hforward]
      rfl
    · by_cases ht : e.type.isTerminal = true
      · obtain ⟨hover, hnew⟩ := h.forwarding source e hforward ht
        refine h.append (l := [source]) hown hmove ?_ (nodup_singleton _) ?_ ?_
        · simp [eq, RelayState.outcomes, hforward, RelayEvent.outcome, ht]
        · intro id hid
          obtain rfl := mem_singleton.mp hid
          exact ⟨hnew, hmove.over hu hover⟩
        · intro source' e' hforward'
          rw [eq] at hforward'
          cases hforward'
      · refine h.keep hown hmove ?_ (.inl (by rw [eq]))
        simp [eq, RelayState.outcomes, hforward, RelayEvent.outcome, ht]
  | leave ws step p pending ids kept eq =>
    have hmove := relayStep_move hanswer.ne_resendFailed hs
    have hact : a.act ≠ .resendFailed := by
      cases a with
      | other b => exact fun heq => hanswer.ne_resendFailed (congrArg _ heq)
      | _ => nofun
    obtain ⟨hnodup, hheld⟩ := failedBy_held hact h.own.base.deque h.own.base.replay step
    refine h.append (l := s.ws.failedBy a.act) hown hmove ?_ hnodup (fun id hid => ?_) ?_
    · rw [eq, RelayState.outcomes, filterMap_append, outcome_failed]
      rfl
    · obtain ⟨hbefore, hafter⟩ := hheld id hid
      refine ⟨fun hmem => (h.ended id hmem).gone hbefore, hmove.known ?_, ?_⟩
      · rcases hbefore with ⟨q, hq, rfl⟩ | ⟨r, hr, rfl⟩
        · exact h.own.base.deque.known q hq
        · exact (h.own.base.deque.incoming r hr).1
      · rw [eq]
        exact hafter
    · intro source e hforward
      rw [eq] at hforward
      refine ⟨hforward, fun ht hmem => ?_⟩
      exact (h.forwarding source e hforward ht).1.gone (hheld source hmem).1
  | connect id account m main mem allowed eq =>
    exact h.keep hown (relayStep_move hanswer.ne_resendFailed hs) (by rw [eq]; rfl)
      (.inl (by rw [eq]))
  | sent _ _ eq | receive _ _ _ _ eq | acquire _ _ eq | register _ _ eq =>
    exact h.keep hown (relayStep_move hanswer.ne_resendFailed hs) (by rw [eq]; rfl)
      (.inr (by rw [eq]))

end RelayState.Ended

/-! ## Runs -/

/-- **One outcome per websocket request**, in every run whose steps keep to `EndsPending`. -/
theorem one_outcome {accounts : Finset String} {acts : List RelayAct} {t : RelayState}
    (hok : Along (relayStep accounts) EndsPending acts newRelay)
    (hrun : run (relayStep accounts) acts newRelay = some t) : OneOutcome t := by
  have ht : t.Ended :=
    run_invariant_along (fun h hok hs => h.step hok hs) newRelay_ended hok hrun
  refine ⟨ht.once, fun id hid => ?_⟩
  have hgone := (ht.ended id hid).gone
  by_contra hpending
  exact hgone (.inl (isPending_iff.mp (by simpa using hpending)))

def refusedActs : List RelayAct :=
  registerActs 0 ++ [.connect "a", .other .send,
    .text 0 ⟨.error, none, some "usage_limit_reached", ""⟩, .other .settle, .other .check,
    .other .close, .other .loop, .replayConnect "b"]

def replayedActs : List RelayAct :=
  refusedActs ++ [.other .resend] ++ answerActs 0 .created (some "resp_0") ++
    answerActs 0 .completed (some "resp_0") ++ registerActs 1 ++ [.other .send, .other .leave]

theorem one_outcome_replayed :
    ∃ t, run (relayStep {"a", "b"}) replayedActs newRelay = some t ∧
      Along (relayStep {"a", "b"}) EndsPending replayedActs newRelay ∧
      t.outcomes = [1, 0] ∧ OneOutcome t := by
  have hrun : run (relayStep {"a", "b"}) replayedActs newRelay = some _ := rfl
  have hok : Along (relayStep {"a", "b"}) EndsPending replayedActs newRelay := by decide
  exact ⟨_, hrun, hok, by decide, one_outcome hok hrun⟩

/-- The re-send fails: the client is told, the request stays pending, and it fails again when
the client leaves. -/
theorem replayed_request_fails_twice :
    (∃ s, run (relayStep {"a", "b"}) (refusedActs ++ [.other .resendFailed]) newRelay = some s ∧
      s.outcomes = [0] ∧ isPending s.ws.pending 0 = true) ∧
    ∃ t, run (relayStep {"a", "b"}) (refusedActs ++ [.other .resendFailed, .other .leave])
        newRelay = some t ∧ t.outcomes = [0, 0] ∧ ¬OneOutcome t := by
  refine ⟨⟨_, rfl, by decide, by decide⟩, _, rfl, by decide, ?_⟩
  rintro ⟨hnodup, -⟩
  revert hnodup
  decide

end CodexOctopus

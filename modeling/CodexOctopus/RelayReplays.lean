import CodexOctopus.RelayOutcomes
import Mathlib.Data.Finset.Card

/-!
# Replays of websocket requests

A request that an account refuses is queued for replay, and the account goes to its
`excluded_account_ids`. The client must have seen nothing of the request, and the flag
`downstream_committed` says so only if an event that is forwarded was matched with its own
request. That is the case as long as a request without a response id holds the create gate
(`DequeInv`), which a failed re-send breaks.

* `RelayState.Attempts`: the accounts on which a request was tried are excluded, or it is the
  account of the upstream that is open.
-/

namespace CodexOctopus

open List Option Table Lts

/-! ## The property -/

/-- **Safe replays**: nothing of the request was forwarded when it is queued, and it goes to
an account that has not got it before. -/
def SafeReplays : List RelayEvent → Prop
  | [] => True
  | .queued requestId _ :: before => (∀ e, .forwarded requestId e ∉ before) ∧ SafeReplays before
  | .sent requestId account :: before => .sent requestId account ∉ before ∧ SafeReplays before
  | _ :: before => SafeReplays before

def RelayEvent.replay : RelayEvent → Option (ℕ × String)
  | .queued requestId account => some (requestId, account)
  | _ => none

def RelayState.replays (s : RelayState) (id : ℕ) : List (ℕ × String) :=
  (s.history.filterMap RelayEvent.replay).filter (·.1 = id)

theorem SafeReplays.append {l before : List RelayEvent} (h : SafeReplays before)
    (hsent : ∀ id account, .sent id account ∉ l) (hqueued : ∀ id account, .queued id account ∉ l) :
    SafeReplays (l ++ before) := by
  induction l with
  | nil => exact h
  | cons b l ih =>
    have ih := ih (fun id account hmem => hsent id account (mem_cons_of_mem _ hmem))
      fun id account hmem => hqueued id account (mem_cons_of_mem _ hmem)
    cases b with
    | sent id account => exact absurd mem_cons_self (hsent id account)
    | queued id account => exact absurd mem_cons_self (hqueued id account)
    | _ => exact ih

/-! ## Requests that the client has seen -/

structure WebsocketState.Taken (s : WebsocketState) (id : ℕ) : Prop where
  known : id ∈ s.requestIds
  past : ∀ r, s.main.incoming = some r → r.requestId ≠ id

structure WebsocketState.Seen (s : WebsocketState) (id : ℕ) : Prop where
  taken : s.Taken id
  committed : ∀ p ∈ s.pending, p.requestId = id → p.downstreamCommitted = true

theorem WebsocketState.Seen.not_unseen {s : WebsocketState} {id : ℕ} (h : s.Seen id) :
    ¬Unseen s.pending id := by
  rintro ⟨p, hp, hid, hunseen⟩
  rw [h.committed p hp hid] at hunseen
  cases hunseen

section Moves

variable {accounts : Finset String} {s s' : RelayState} {a : RelayAct} {id : ℕ}

theorem RelayMove.taken (h : RelayMove accounts s a s') (hid : s.ws.Taken id) :
    s'.ws.Taken id := by
  refine ⟨h.known hid.known, fun r hr heq => ?_⟩
  rcases h.incoming r hr with ⟨q, hq, hqr⟩ | hnew
  · exact hid.past q hq (hqr.trans heq)
  · exact hnew (heq ▸ hid.known)

theorem RelayMove.seen (h : RelayMove accounts s a s')
    (hu : Unique RequestState.requestId s.ws.pending) (hid : s.ws.Seen id) :
    s'.ws.Seen id := by
  refine ⟨h.taken hid.taken, fun q hq heq => ?_⟩
  rcases h.pending hu q hq with ⟨p, hp, hpq, hcommitted⟩ | htaken
  · exact hcommitted (hid.committed p hp (hpq.symm.trans heq))
  · exact absurd heq (hid.taken.past q htaken)

theorem RelayMove.unseen (h : RelayMove accounts s a s')
    (hu : Unique RequestState.requestId s.ws.pending) (hid : Unseen s'.ws.pending id) :
    Unseen s.ws.pending id ∨ ¬s.ws.Taken id := by
  obtain ⟨q, hq, rfl, hunseen⟩ := hid
  rcases h.pending hu q hq with ⟨p, hp, hpq, hcommitted⟩ | htaken
  · refine .inl ⟨p, hp, hpq.symm, ?_⟩
    by_contra hseen
    rw [hcommitted (by simpa using hseen)] at hunseen
    cases hunseen
  · exact .inr fun ht => ht.past q htaken rfl

end Moves

/-! ## Events that are forwarded -/

/-- **What the client has seen**: a request of which an event is forwarded, or whose response has an
id, is marked. -/
structure RelayState.Shown (s : RelayState) : Prop where
  base : s.Base
  forwarded : ∀ id e, .forwarded id e ∈ s.history → s.ws.Seen id
  forwarding : ∀ id e, s.forwarding = some (id, e) → s.ws.Seen id
  created : ∀ u ∈ s.inflight, u.responseId ≠ none → s.ws.Seen u.owner

theorem newRelay_shown : newRelay.Shown where
  base := newRelay_base
  forwarded := nofun
  forwarding := nofun
  created := nofun

theorem mayAnswer_unanswered {created : List (String × ℕ)} {u : UpstreamResponse}
    {e : UpstreamEvent} (h : mayAnswer created u e = true) (hu : u.responseId = none)
    (hne : e.type ≠ .created) : e.responseId = none ∧ e.type.isTerminal = true := by
  have hid : e.responseId = none := by
    rcases he : e.responseId with _ | id
    · rfl
    · have := mayAnswer_other h hne id he
      rw [hu] at this
      cases this
  rw [mayAnswer, hu, hid] at h
  refine ⟨hid, ?_⟩
  simp only [UpstreamEventType.isError, Bool.or_eq_true, decide_eq_true_eq] at h
  rcases h with h | h
  all_goals
    rw [h]
    rfl

namespace RelayState.Shown

variable {accounts : Finset String} {s s' : RelayState} {a : RelayAct} {source : ℕ}
  {e : UpstreamEvent} {u : UpstreamResponse}

theorem created_seen (h : s.Shown) (hmay : mayAnswer s.created u e = true)
    (hc : e.type = .created) :
    ∀ q ∈ (s.ws.text e).pending, q.requestId = source → q.downstreamCommitted = true := by
  intro q hq hid
  have hd := h.base.deque
  obtain ⟨id, -, ⟨r, hr, hnone, hdeque, -⟩ | ⟨hnil, hdeque, -⟩⟩ := h.base.created_cases hmay hc
    source
  · rw [hdeque] at hq
    rcases mem_setRequest hq with ⟨p, hp, -, rfl⟩ | ⟨hq, hne⟩
    · rfl
    · by_contra hunseen
      have hqnone := (hd.gate_of_unseen hq (by simpa using hunseen)).1
      have hone := hd.unresolved_eq hr hnone
      rw [hd.unresolved_eq hq hqnone] at hone
      exact hne (by rw [singleton_inj.mp hone])
  · rw [hdeque] at hq
    by_contra hunseen
    have hqnone := (hd.gate_of_unseen hq (by simpa using hunseen)).1
    have hmem : q ∈ unresolvedRequests s.ws.pending := mem_unresolvedRequests.mpr ⟨hq, hqnone⟩
    rw [hnil] at hmem
    cases hmem

theorem refused_seen (h : s.Shown) (ht : e.type.isTerminal = true) (he : e.responseId = none)
    (hreplay : replayTarget s.ws.pending e = none) :
    ∀ q ∈ (s.ws.text e).pending, q.requestId = source → q.downstreamCommitted = true := by
  intro q hq hid
  have hd := h.base.deque
  obtain ⟨p, hp, horig⟩ := (text_move s.ws e).origin hd.unique q hq
  by_contra hunseen
  have hpunseen : p.downstreamCommitted = false := by
    by_contra hseen
    exact hunseen (horig.committed (by simpa using hseen))
  have hfind : e.responseId.bind (findByResponseId s.ws.pending) = none := by rw [he]; rfl
  have hend : websocketTerminal s.ws.pending e = some p := by
    by_cases hlen : s.ws.pending.length = 1
    · obtain ⟨r, hr⟩ := length_eq_one_iff.mp hlen
      rw [hr] at hp hfind ⊢
      rw [mem_singleton.mp hp]
      exact websocketTerminal_of_single ht hfind
    · exact websocketTerminal_of_unresolved ht hfind hlen
        (hd.unresolved_eq hp (hd.gate_of_unseen hp hpunseen).1)
  simp only [WebsocketState.text, hreplay, hend] at hq
  exact (mem_removeRequest.mp hq).2 horig.id

/-- **The request of an event that is forwarded is marked.** -/
theorem text_seen (h : s.Shown) (hmove : RelayMove accounts s (.text source e) s')
    (hws : s'.ws = s.ws.text e)
    (hu : lookup UpstreamResponse.owner s.inflight source = some u)
    (hmay : mayAnswer s.created u e = true) (hreplay : replayTarget s.ws.pending e = none) :
    s'.ws.Seen source := by
  have hmem := mem_of_lookup hu
  have howner : u.owner = source := key_of_lookup hu
  have htaken : s.ws.Taken source :=
    ⟨howner ▸ h.base.known u hmem, fun r hr => howner ▸ h.base.taken u hmem r hr⟩
  by_cases hc : e.type = .created
  · exact ⟨hmove.taken htaken, hws ▸ h.created_seen hmay hc⟩
  · rcases hresponse : u.responseId with _ | id
    · obtain ⟨he, ht⟩ := mayAnswer_unanswered hmay hresponse hc
      exact ⟨hmove.taken htaken, hws ▸ h.refused_seen ht he hreplay⟩
    · have hseen := h.created u hmem (by rw [hresponse]; nofun)
      rw [howner] at hseen
      exact hmove.seen h.base.deque.unique hseen

theorem mono (h : s.Shown) (hbase : s'.Base) (hseen : ∀ {id}, s.ws.Seen id → s'.ws.Seen id)
    (hhistory : ∀ id e, .forwarded id e ∈ s'.history → .forwarded id e ∈ s.history ∨ s'.ws.Seen id)
    (hforwarding : ∀ id e, s'.forwarding = some (id, e) →
      s.forwarding = some (id, e) ∨ s'.ws.Seen id)
    (hinflight : ∀ v ∈ s'.inflight, v.responseId ≠ none → v ∈ s.inflight ∨ s'.ws.Seen v.owner) :
    s'.Shown where
  base := hbase
  forwarded i e hmem := (hhistory i e hmem).elim (fun hold => hseen (h.forwarded i e hold)) id
  forwarding i e hnew := (hforwarding i e hnew).elim (fun hold => hseen (h.forwarding i e hold)) id
  created v hv hsome := (hinflight v hv hsome).elim (fun hold => hseen (h.created v hold hsome)) id

theorem step (h : s.Shown) (ha : a ≠ .other .resendFailed)
    (hs : relayStep accounts s a = some s') : s'.Shown := by
  have hbase := h.base.step ha hs
  have hmove := relayStep_move ha hs
  have hseen : ∀ {id}, s.ws.Seen id → s'.ws.Seen id := fun hid =>
    hmove.seen h.base.deque.unique hid
  cases relayStep_move ha hs with
  | text source e u act mem may reader eq =>
    subst act
    have hreplay : replayTarget s.ws.pending e = none → s'.ws.Seen source :=
      h.text_seen hmove (by rw [eq]) mem may
    subst eq
    refine h.mono hbase hseen (fun id e' hmem => ?_) (fun id e' hforward => ?_) fun v hv hsome => ?_
    · rcases mem_append.mp hmem with hmem | hmem
      · unfold RelayState.textEvents at hmem
        split at hmem
        · cases mem_singleton.mp hmem
        · cases mem_singleton.mp hmem
        · split at hmem
          · cases mem_singleton.mp hmem
          · cases hmem
      · exact .inl hmem
    · dsimp only [RelayState.afterText] at hforward
      split at hforward
      · next hnone =>
        cases hforward
        exact .inr (hreplay hnone)
      · cases hforward
    · obtain ⟨w, hw, howner, ⟨rfl, -⟩ | ⟨hsource, hc, -⟩⟩ := owner_of_mem_inflightAfter hv
      · exact .inl hw
      · rw [← howner, hsource]
        exact .inr (hreplay (RelayState.Base.created_ends_none hc).2)
  | settle reconnect eq reader =>
    subst eq
    refine h.mono hbase hseen (fun id e' hmem => ?_) nofun fun v hv _ => .inl hv
    rcases mem_append.mp hmem with hmem | hmem
    · obtain ⟨x, hx, hxe⟩ := mem_map.mp hmem
      cases hxe
      exact .inr (hseen (h.forwarding x.1 x.2 (mem_toList.mp hx)))
    · exact .inl hmem
  | leave ws step p pending ids kept eq =>
    subst eq
    refine h.mono hbase hseen (fun id e' hmem => ?_) (fun _ _ => .inl) fun v hv _ => .inl hv
    rcases mem_append.mp hmem with hmem | hmem
    · obtain ⟨x, -, hx⟩ := mem_map.mp hmem
      cases hx
    · exact .inl hmem
  | connect i account m main mem allowed eq =>
    subst eq
    exact h.mono hbase hseen (fun _ _ => .inl) nofun nofun
  | sent i main eq =>
    subst eq
    refine h.mono hbase hseen (fun id e' hmem => ?_) (fun _ _ => .inl) fun v hv hsome => ?_
    · exact .inl ((mem_cons.mp hmem).resolve_left nofun)
    · rcases mem_append.mp hv with hv | hv
      · exact .inl hv
      · rw [mem_singleton.mp hv] at hsome
        exact absurd rfl hsome
  | receive _ _ _ _ eq | acquire _ _ eq | register _ _ eq =>
    subst eq
    exact h.mono hbase hseen (fun _ _ => .inl) (fun _ _ => .inl) fun v hv _ => .inl hv

end RelayState.Shown

/-! ## Accounts -/

/-- **Attempts**: where a request was sent and which accounts are excluded for it. -/
structure RelayState.Attempts (accounts : Finset String) (s : RelayState) : Prop where
  shown : s.Shown
  safe : SafeReplays s.history
  account : s.ws.reader ≠ none → s.account ∈ accounts
  -- `excluded_account_ids` are the accounts after whose errors a request was queued
  queued : s.excluded = s.history.filterMap RelayEvent.replay
  once : s.excluded.Nodup
  selected : ∀ x ∈ s.excluded, x.2 ∈ accounts
  taken : ∀ id account, .sent id account ∈ s.history ∨ (id, account) ∈ s.excluded → s.ws.Taken id
  first : ∀ id, s.ws.main = .connecting id ∨ s.ws.main = .sending (some id) →
    ∀ account, .sent id account ∉ s.history
  replayed : ∀ id, s.ws.main = .replaying id ∨ s.ws.main = .resending id ∨
    s.ws.replayRequest = some id → ∀ account, .sent id account ∈ s.history → (id, account) ∈
      s.excluded
  resending : ∀ id, s.ws.main = .resending id → (id, s.account) ∉ s.excluded
  refused : ∀ id, s.ws.replayRequest = some id → (id, s.account) ∈ s.excluded
  tried : ∀ id, Unseen s.ws.pending id → ∀ account, .sent id account ∈ s.history →
    (id, account) ∈ s.excluded ∨ account = s.account
  fresh : s.ws.reader ≠ none → s.ws.replayRequest = none → ∀ id, Unseen s.ws.pending id →
    (id, s.account) ∉ s.excluded

theorem newRelay_attempts (accounts : Finset String) : newRelay.Attempts accounts where
  shown := newRelay_shown
  safe := trivial
  account h := absurd rfl h
  queued := rfl
  once := nodup_nil
  selected := nofun
  taken := by
    rintro id account (h | h)
    all_goals cases h
  first := nofun
  replayed := by
    rintro id (h | h | h)
    all_goals cases h
  resending := nofun
  refused := nofun
  tried := nofun
  fresh h := absurd rfl h

structure Staying (ws ws' : WebsocketState) : Prop where
  control : SameControl ws ws'
  first : ∀ id, ws'.main = .connecting id ∨ ws'.main = .sending (some id) →
    (ws.main = .connecting id ∨ ws.main = .sending (some id)) ∨
      ∃ r, ws.main.incoming = some r ∧ r.requestId = id
  replayed : ∀ id, ws'.main = .replaying id ∨ ws'.main = .resending id →
    ws.main = .replaying id ∨ ws.main = .resending id ∨ ws.replayRequest = some id
  resending : ∀ id, ws'.main = .resending id → ws.main = .resending id

structure Quiet (s s' : RelayState) : Prop where
  account : s'.account = s.account
  excluded : s'.excluded = s.excluded
  sent : ∀ id account, .sent id account ∈ s'.history → .sent id account ∈ s.history
  replays : s'.history.filterMap RelayEvent.replay = s.history.filterMap RelayEvent.replay
  safe : SafeReplays s.history → SafeReplays s'.history
  staying : Staying s.ws s'.ws

section Quiet

variable {ws ws' : WebsocketState} {s s' : RelayState}

theorem Kept.staying (h : Kept ws ws') : Staying ws ws' where
  control := h.control
  first id hid := by
    have hown : ws'.main.own = some id := by
      rcases hid with hid | hid
      all_goals
        rw [hid]
        rfl
    rcases h.own id hown with hmain | ⟨hreplaying, -⟩
    · exact .inl (hmain ▸ hid)
    · rw [hreplaying] at hid
      rcases hid with hid | hid
      all_goals cases hid
  replayed id hid := by
    rcases hid with hid | hid
    · rcases h.own id (by rw [hid]; rfl) with hmain | ⟨-, hreplay⟩
      · exact .inl (hmain ▸ hid)
      · exact .inr (.inr hreplay)
    · have hmain := h.sends id (by rw [hid]; rfl)
      exact .inr (.inl (hmain ▸ hid))
  resending id hid := by
    have hmain := h.sends id (by rw [hid]; rfl)
    exact hmain ▸ hid

theorem Staying.ofIdle (hown : ws'.main.own = none) (hsends : ws'.main.sends = none)
    (hcontrol : SameControl ws ws') : Staying ws ws' where
  control := hcontrol
  first id hid := by
    rcases hid with hid | hid
    all_goals
      rw [hid] at hown
      cases hown
  replayed id hid := by
    rcases hid with hid | hid
    · rw [hid] at hown
      cases hown
    · rw [hid] at hsends
      cases hsends
  resending id hid := by
    rw [hid] at hsends
    cases hsends

theorem Staying.register {r : RequestState} (hr : ws.main.incoming = some r)
    (hmain : ws'.main = .connecting r.requestId ∨ ws'.main = .sending (some r.requestId))
    (hcontrol : SameControl ws ws') : Staying ws ws' := by
  refine ⟨hcontrol, fun id hid => .inr ⟨r, hr, ?_⟩, fun id hid => ?_, fun id hid => ?_⟩
  · rcases hid with hid | hid
    all_goals
      rw [hid] at hmain
      simp only [MainPhase.connecting.injEq, MainPhase.sending.injEq, some.injEq,
        reduceCtorEq, or_false, false_or] at hmain
      exact hmain.symm
  · rcases hid with hid | hid
    all_goals
      rw [hid] at hmain
      simp at hmain
  · rw [hid] at hmain
    simp at hmain

theorem Staying.quiet {l : List RelayEvent} (h : Staying s.ws s'.ws)
    (hhistory : s'.history = l ++ s.history) (haccount : s'.account = s.account)
    (hexcluded : s'.excluded = s.excluded) (hsent : ∀ id account, .sent id account ∉ l)
    (hqueued : ∀ id account, .queued id account ∉ l) : Quiet s s' where
  account := haccount
  excluded := hexcluded
  sent id account hmem := by
    rw [hhistory] at hmem
    exact (mem_append.mp hmem).resolve_left (hsent id account)
  replays := by
    rw [hhistory, filterMap_append, filterMap_eq_nil_iff.mpr, nil_append]
    intro b hb
    cases b with
    | queued id account => exact absurd hb (hqueued id account)
    | _ => rfl
  safe h := by
    rw [hhistory]
    exact h.append hsent hqueued
  staying := h

end Quiet

namespace RelayState.Attempts

variable {accounts : Finset String} {s s' : RelayState} {a : RelayAct}

theorem control_cases {ws ws' : WebsocketState} (h : SameControl ws ws') :
    (ws'.reader ≠ none → ws.reader ≠ none ∧ ws'.replayRequest = ws.replayRequest) ∧
      ∀ id, ws'.replayRequest = some id → ws.replayRequest = some id := by
  rcases h with ⟨hreader, hreplay⟩ | ⟨hreplay, hreader⟩
  · refine ⟨fun hne => absurd hreader hne, fun id hid => ?_⟩
    rw [hreplay] at hid
    cases hid
  · exact ⟨fun hne => ⟨fun hnone => hne (hreader.mpr hnone), hreplay⟩, fun id hid => hreplay ▸ hid⟩

theorem quiet (h : s.Attempts accounts) (hshown : s'.Shown) (hmove : RelayMove accounts s a s')
    (hq : Quiet s s') : s'.Attempts accounts := by
  obtain ⟨hreader, hreplay⟩ := control_cases hq.staying.control
  have hu := h.shown.base.deque.unique
  have htaken : ∀ {id account}, .sent id account ∈ s'.history ∨ (id, account) ∈ s'.excluded →
      s.ws.Taken id := fun {id account} hmem =>
    h.taken id account (hmem.imp (hq.sent id account) fun hx => hq.excluded ▸ hx)
  refine ⟨hshown, hq.safe h.safe, fun hr => ?_, ?_, ?_, ?_,
    fun id account hmem => hmove.taken (htaken hmem), fun id hmain account hsent => ?_,
    fun id hmain account hsent => ?_, fun id hmain => ?_,
    fun id hid => ?_, fun id hunseen account hsent => ?_, fun hr hnone id hunseen => ?_⟩
  · rw [hq.account]
    exact h.account (hreader hr).1
  · rw [hq.excluded, hq.replays]
    exact h.queued
  · rw [hq.excluded]
    exact h.once
  · rw [hq.excluded]
    exact h.selected
  · rcases hq.staying.first id hmain with hmain | ⟨r, hr, hid⟩
    · exact h.first id hmain account (hq.sent id account hsent)
    · exact (htaken (.inl hsent)).past r hr hid
  · rw [hq.excluded]
    refine h.replayed id ?_ account (hq.sent id account hsent)
    rcases hmain with hmain | hmain | hid
    · exact hq.staying.replayed id (.inl hmain)
    · exact hq.staying.replayed id (.inr hmain)
    · exact .inr (.inr (hreplay id hid))
  · rw [hq.excluded, hq.account]
    exact h.resending id (hq.staying.resending id hmain)
  · rw [hq.excluded, hq.account]
    exact h.refused id (hreplay id hid)
  · rw [hq.excluded, hq.account]
    rcases hmove.unseen hu hunseen with hunseen | hnew
    · exact h.tried id hunseen account (hq.sent id account hsent)
    · exact absurd (htaken (.inl hsent)) hnew
  · rw [hq.excluded, hq.account]
    obtain ⟨hr, hsame⟩ := hreader hr
    rcases hmove.unseen hu hunseen with hunseen | hnew
    · exact h.fresh hr (hsame ▸ hnone) id hunseen
    · exact fun hmem => hnew (h.taken id s.account (.inr hmem))

theorem connect {id : ℕ} {account : String} {m : MainPhase} (h : s.Attempts accounts)
    (hshown : s'.Shown) (hmove : RelayMove accounts s a s')
    (hmain : (s.ws.main = .connecting id ∧ m = .sending (some id)) ∨
      (s.ws.main = .replaying id ∧ m = .resending id))
    (hmem : account ∈ accounts) (hallowed : (id, account) ∉ s.excluded)
    (hs : s' = { s with
      ws := { s.ws.connect with main := m }, account := account, inflight := []
      forwarding := none }) : s'.Attempts accounts := by
  have hopened : s.ws.main = .connecting id ∨ s.ws.main = .replaying id := hmain.imp And.left
    And.left
  -- the upstream is opened for the only request that the client has not seen
  have hunique : ∀ i, Unseen s.ws.pending i → i = id := by
    rintro i ⟨p, hp, rfl, hunseen⟩
    obtain ⟨q, hq, rfl, hq'⟩ := h.shown.base.replay.opened id hopened
    rw [h.shown.base.deque.unseen_unique hq hp hq' hunseen]
  have hsent : ∀ account, .sent id account ∈ s.history → (id, account) ∈ s.excluded := by
    intro account hsent
    rcases hmain with ⟨hmain, -⟩ | ⟨hmain, -⟩
    · exact absurd hsent (h.first id (.inl hmain) account)
    · exact h.replayed id (.inl hmain) account hsent
  subst hs
  refine ⟨hshown, h.safe, fun _ => hmem, h.queued, h.once, h.selected,
    fun i acc hi => hmove.taken (h.taken i acc hi), fun i hi => ?_, fun i hi => ?_, fun i hi => ?_,
    nofun, fun i hunseen acc hi => ?_, fun _ _ i hunseen => ?_⟩
  · rcases hmain with ⟨hmain, rfl⟩ | ⟨-, rfl⟩
    · obtain rfl : id = i := by simpa using hi
      exact h.first id (.inl hmain)
    · simp at hi
  · rcases hmain with ⟨-, rfl⟩ | ⟨-, rfl⟩
    · simp [WebsocketState.connect] at hi
    · obtain rfl : id = i := by simpa [WebsocketState.connect] using hi
      exact hsent
  · rcases hmain with ⟨-, rfl⟩ | ⟨-, rfl⟩
    · cases hi
    · cases hi
      exact hallowed
  · obtain rfl := hunique i hunseen
    exact .inl (hsent acc hi)
  · obtain rfl := hunique i hunseen
    exact hallowed

theorem send {id : ℕ} (h : s.Attempts accounts) (hshown : s'.Shown)
    (hmove : RelayMove accounts s a s')
    (hmain : s.ws.main = .sending (some id) ∨ s.ws.main = .resending id)
    (hs : s' = { s with
      ws := { s.ws with main := .top }
      inflight := s.inflight ++ [⟨id, none⟩]
      history := .sent id s.account :: s.history }) : s'.Attempts accounts := by
  have hnew : .sent id s.account ∉ s.history := by
    rcases hmain with hmain | hmain
    · exact h.first id (.inr hmain) s.account
    · exact fun hmem => h.resending id hmain (h.replayed id (.inr (.inl hmain)) s.account hmem)
  have hmem : ∀ {i account}, .sent i account ∈ s'.history →
      (i = id ∧ account = s.account) ∨ .sent i account ∈ s.history := by
    intro i account hmem
    rw [hs] at hmem
    simpa using hmem
  have hid : s.ws.Taken id := by
    have hsends : s.ws.main.sends = some id := by
      rcases hmain with hmain | hmain
      all_goals
        rw [hmain]
        rfl
    refine ⟨(h.shown.base.sends id hsends).1, fun r hr => ?_⟩
    rcases hmain with hmain | hmain
    all_goals
      rw [hmain] at hr
      cases hr
  subst hs
  refine ⟨hshown, ⟨hnew, h.safe⟩, h.account, h.queued, h.once, h.selected, fun i acc hi => ?_,
    by simp, fun i hi acc hsent => ?_, nofun, h.refused, fun i hunseen acc hsent => ?_, h.fresh⟩
  · refine hmove.taken ?_
    rcases hi with hi | hi
    · rcases hmem hi with ⟨rfl, -⟩ | hi
      · exact hid
      · exact h.taken i acc (.inl hi)
    · exact h.taken i acc (.inr hi)
  · have hqueued : s.ws.replayRequest = some i := by simpa using hi
    rcases hmem hsent with ⟨rfl, rfl⟩ | hsent
    · exact h.refused i hqueued
    · exact h.replayed i (.inr (.inr hqueued)) acc hsent
  · rcases hmem hsent with ⟨-, hacc⟩ | hsent
    · exact .inr hacc
    · exact h.tried i hunseen acc hsent

theorem replay {source : ℕ} {e : UpstreamEvent} {r : RequestState} (h : s.Attempts accounts)
    (hshown : s'.Shown) (hmove : RelayMove accounts s a s')
    (hreader : s.ws.reader = some .receiving) (hinflight : s.inflight ≠ [])
    (hr : replayTarget s.ws.pending e = some r)
    (hs : s' = { s.afterText source e with
      ws := s.ws.text e, history := s.textEvents source e ++ s.history }) :
    s'.Attempts accounts := by
  obtain ⟨hmem, -⟩ := replayTarget_eq_some hr
  have hopen : s.ws.reader ≠ none := by rw [hreader]; nofun
  have hunseen : Unseen s.ws.pending r.requestId := by
    obtain ⟨-, hcond⟩ := filter_eq_some_iff.mp hr
    simp only [Bool.and_eq_true, Bool.not_eq_true', decide_eq_true_eq] at hcond
    exact ⟨r, hmem, rfl, hcond.1.2⟩
  have hnone : s.ws.replayRequest = none := by
    have hreplay := h.shown.base.replay
    rw [WebsocketState.Replay, hreader] at hreplay
    exact hreplay.none_of_phase rfl
  have hmain := (WebsocketState.text_spec s.ws e).main
  have hreplay' : (s.ws.text e).replayRequest = some r.requestId := by
    simp only [WebsocketState.text, hr]
  have hfresh : (r.requestId, s.account) ∉ s.excluded := h.fresh hopen hnone r.requestId hunseen
  have hevents : s.textEvents source e = [.queued r.requestId s.account] := by
    simp only [RelayState.textEvents, hr]
  have hstate : s'.excluded = (r.requestId, s.account) :: s.excluded ∧
      s'.history = .queued r.requestId s.account :: s.history ∧ s'.account = s.account ∧
      s'.ws = s.ws.text e := by
    rw [hs]
    exact ⟨by simp [RelayState.afterText, hr], by rw [hevents]; rfl, rfl, rfl⟩
  obtain ⟨hexcluded, hhistory, haccount, hws⟩ := hstate
  have hsent : ∀ {i account}, .sent i account ∈ s'.history → .sent i account ∈ s.history := by
    intro i account hi
    rw [hhistory] at hi
    simpa using hi
  have hidle : ∀ id, s.ws.main ≠ .replaying id ∧ s.ws.main ≠ .resending id := fun id =>
    ⟨fun hm => hopen (h.shown.base.replay.opening (by rw [hm]; rfl)),
      fun hm => hinflight (h.shown.base.resending id hm)⟩
  have hmain' : s'.ws.main = s.ws.main := by rw [hws, hmain]
  -- an account that has got the request is excluded, or it is the one that has refused it
  have hused : ∀ account, .sent r.requestId account ∈ s.history →
      (r.requestId, account) ∈ s'.excluded := by
    intro account hi
    rw [hexcluded]
    rcases h.tried r.requestId hunseen account hi with hx | rfl
    · exact mem_cons_of_mem _ hx
    · exact mem_cons_self
  refine ⟨hshown, ?_, fun _ => haccount ▸ h.account hopen, ?_, ?_, fun x hx => ?_,
    fun i acc hi => hmove.taken ?_, fun i hi acc hsent' => ?_, fun i hi acc hsent' => ?_,
    fun i hi => ?_, fun i hi => ?_, fun i hi acc hsent' => ?_, fun _ hnone' => ?_⟩
  · rw [hhistory]
    exact ⟨fun e' hmem' => (h.shown.forwarded _ e' hmem').not_unseen hunseen, h.safe⟩
  · rw [hexcluded, hhistory, h.queued]
    rfl
  · rw [hexcluded]
    exact nodup_cons.mpr ⟨hfresh, h.once⟩
  · rw [hexcluded] at hx
    rcases mem_cons.mp hx with rfl | hx
    · exact h.account hopen
    · exact h.selected x hx
  · rcases hi with hi | hi
    · exact h.taken i acc (.inl (hsent hi))
    · rw [hexcluded] at hi
      rcases mem_cons.mp hi with heq | hi
      · cases heq
        refine ⟨h.shown.base.deque.known r hmem, fun q hq heq => ?_⟩
        exact (h.shown.base.deque.incoming q hq).2.1 r hmem heq.symm
      · exact h.taken i acc (.inr hi)
  · exact h.first i (hmain' ▸ hi) acc (hsent hsent')
  · rcases hi with hi | hi | hi
    · exact absurd (hmain' ▸ hi) (hidle i).1
    · exact absurd (hmain' ▸ hi) (hidle i).2
    · rw [hws, hreplay'] at hi
      cases hi
      exact hused acc (hsent hsent')
  · exact absurd (hmain' ▸ hi) (hidle i).2
  · rw [hws, hreplay'] at hi
    cases hi
    rw [hexcluded, haccount]
    exact mem_cons_self
  · rcases hmove.unseen h.shown.base.deque.unique hi with hi | hnew
    · rw [hexcluded, haccount]
      exact (h.tried i hi acc (hsent hsent')).imp_left (mem_cons_of_mem _)
    · exact absurd (h.taken i acc (.inl (hsent hsent'))) hnew
  · rw [hws, hreplay'] at hnone'
    cases hnone'

theorem text_quiet {source : ℕ} {e : UpstreamEvent} (hreader : s.ws.reader = some .receiving)
    (hr : replayTarget s.ws.pending e = none)
    (hs : s' = { s.afterText source e with
      ws := s.ws.text e, history := s.textEvents source e ++ s.history }) : Quiet s s' := by
  have hmain := (WebsocketState.text_spec s.ws e).main
  have hevents : ∀ b ∈ s.textEvents source e,
      (∃ id r, b = .assigned id r) ∨ ∃ id, b = .finalized id source e := by
    intro b hb
    simp only [RelayState.textEvents, hr] at hb
    split at hb
    · next htarget => cases htarget
    · exact .inr ⟨_, mem_singleton.mp hb⟩
    · split at hb
      · exact .inl ⟨_, _, mem_singleton.mp hb⟩
      · cases hb
  have hcontrol : SameControl s.ws (s.ws.text e) := by
    refine .ofReader (by simp [hreader]) ?_ ?_
    · obtain ⟨phase, hphase⟩ := (WebsocketState.text_spec s.ws e).reader
      simp [hphase]
    · rcases (WebsocketState.text_spec s.ws e).replay with heq | ⟨r, hr', -⟩
      · exact heq
      · rw [hr] at hr'
        cases hr'
  have hkept : Kept s.ws (s.ws.text e) := .ofMain hmain hcontrol
  subst hs
  refine hkept.staying.quiet rfl rfl (by simp [RelayState.afterText, hr]) ?_ ?_
  all_goals
    intro id account hmem
    rcases hevents _ hmem with ⟨_, _, hb⟩ | ⟨_, hb⟩
    all_goals cases hb

/-- **Every step keeps the invariant**, but for a failed re-send. -/
theorem step (h : s.Attempts accounts) (ha : a ≠ .other .resendFailed)
    (hs : relayStep accounts s a = some s') : s'.Attempts accounts := by
  have hshown := h.shown.step ha hs
  have hmove := relayStep_move ha hs
  cases relayStep_move ha hs with
  | text source e u act mem may reader eq =>
    rcases hr : replayTarget s.ws.pending e with _ | r
    · exact h.quiet hshown hmove (text_quiet reader hr eq)
    · have hinflight : s.inflight ≠ [] := ne_nil_of_mem (mem_of_lookup mem)
      exact h.replay hshown hmove reader hinflight hr eq
  | connect id account m main mem allowed eq =>
    exact h.connect hshown hmove main mem allowed eq
  | sent id main eq => exact h.send hshown hmove main eq
  | receive r act main fresh eq =>
    subst eq
    refine h.quiet hshown hmove (Staying.quiet (l := []) ?_ rfl rfl rfl nofun nofun)
    exact .ofIdle rfl rfl (.of_eq rfl rfl)
  | acquire r main eq =>
    subst eq
    refine h.quiet hshown hmove (Staying.quiet (l := []) ?_ rfl rfl rfl nofun nofun)
    exact .ofIdle rfl rfl (.of_eq rfl rfl)
  | register r main eq =>
    subst eq
    refine h.quiet hshown hmove (Staying.quiet (l := []) ?_ rfl rfl rfl nofun nofun)
    refine .register (r := r) (by rw [main]; rfl) ?_ (.of_eq rfl rfl)
    dsimp only
    split
    · exact .inl rfl
    · exact .inr rfl
  | settle reconnect eq reader =>
    subst eq
    have hkept : Kept s.ws { s.ws with reader := some .checking, reconnectRequested := reconnect
      } :=
      .ofMain rfl (.ofReader reader nofun rfl)
    exact h.quiet hshown hmove (hkept.staying.quiet rfl rfl rfl (by simp) (by simp))
  | leave ws step p pending ids kept eq =>
    subst eq
    exact h.quiet hshown hmove (kept.staying.quiet rfl rfl rfl (by simp) (by simp))

theorem replays_le (h : s.Attempts accounts) (id : ℕ) : (s.replays id).length ≤ accounts.card := by
  have hreplays : s.replays id = s.excluded.filter (·.1 = id) := by
    rw [RelayState.replays, h.queued]
  have hnodup : ((s.replays id).map Prod.snd).Nodup := by
    rw [hreplays]
    refine (h.once.filter _).map_on fun x hx y hy heq => ?_
    have hx : x.1 = id := of_decide_eq_true (mem_filter.mp hx).2
    have hy : y.1 = id := of_decide_eq_true (mem_filter.mp hy).2
    exact Prod.ext (hx.trans hy.symm) heq
  have hsub : ((s.replays id).map Prod.snd).toFinset ⊆ accounts := by
    intro account haccount
    obtain ⟨x, hx, rfl⟩ := mem_map.mp (mem_toFinset.mp haccount)
    rw [hreplays] at hx
    exact h.selected x (mem_of_mem_filter hx)
  calc (s.replays id).length = ((s.replays id).map Prod.snd).toFinset.card := by
        rw [toFinset_card_of_nodup hnodup, length_map]
    _ ≤ accounts.card := Finset.card_le_card hsub

end RelayState.Attempts

/-! ## Runs -/

def NoFailedResend (_ : RelayState) (a : RelayAct) : Prop := a ≠ .other .resendFailed

instance decidableNoFailedResend (s : RelayState) (a : RelayAct) : Decidable (NoFailedResend s a) :=
  inferInstanceAs (Decidable (a ≠ .other .resendFailed))

/-- **Replays are safe and bounded**, in every run in which no re-send fails. -/
theorem replays_safe_and_bounded {accounts : Finset String} {acts : List RelayAct} {t : RelayState}
    (hok : Along (relayStep accounts) NoFailedResend acts newRelay)
    (hrun : run (relayStep accounts) acts newRelay = some t) :
    SafeReplays t.history ∧ ∀ id, (t.replays id).length ≤ accounts.card := by
  have ht : t.Attempts accounts :=
    run_invariant_along (fun h hok hs => h.step hok hs) (newRelay_attempts accounts) hok hrun
  exact ⟨ht.safe, ht.replays_le⟩

theorem replays_safe_and_bounded_replayed :
    ∃ t, run (relayStep {"a", "b"}) replayedActs newRelay = some t ∧
      Along (relayStep {"a", "b"}) NoFailedResend replayedActs newRelay ∧
      t.replays 0 = [(0, "a")] ∧ .sent 0 "b" ∈ t.history ∧
      SafeReplays t.history ∧ ∀ id, (t.replays id).length ≤ 2 := by
  have hrun : run (relayStep {"a", "b"}) replayedActs newRelay = some _ := rfl
  have hok : Along (relayStep {"a", "b"}) NoFailedResend replayedActs newRelay := by decide
  exact ⟨_, hrun, hok, by decide, by decide, replays_safe_and_bounded hok hrun⟩

/-- The re-send of request 0 fails, it stays in the deque and gets the id of the response to request
1. Request 0 runs out of its budget, and an error queues request 1 for replay after its
`response.created`. -/
def crossedActs : List RelayAct :=
  refusedActs ++ [.other .resendFailed] ++ registerActs 1 ++ [.connect "b", .other .send] ++
    answerActs 1 .created (some "resp_1") ++ [.other (.budgetTimeout [0]),
      .text 1 ⟨.failed, some "resp_1", some "usage_limit_reached", ""⟩]

theorem answered_request_replayed :
    ∃ t, run (relayStep {"a", "b"}) crossedActs newRelay = some t ∧
      t.history.head? = some (.queued 1 "b") ∧
      .forwarded 1 ⟨.created, some "resp_1", none, ""⟩ ∈ t.history ∧ ¬SafeReplays t.history := by
  refine ⟨_, rfl, by decide, by decide, ?_⟩
  rintro ⟨hnone, -⟩
  exact hnone ⟨.created, some "resp_1", none, ""⟩ (by decide)

end CodexOctopus

import CodexOctopus.RelayDeque

/-!
# Settlement of websocket requests

A terminal event settles the request it finds in the deque: the one with its response id,
else the only pending request, else the only one without a response id. The fallbacks are
right as long as the deque holds the request that the event answers. But the upstream goes on
with a request that has run out of its budget and was failed, and then the fallbacks find
another one.
-/

namespace CodexOctopus

open List Option Table Lts

/-! ## The property and the condition -/

def isPending (pending : List RequestState) (id : ℕ) : Bool := pending.any (·.requestId = id)

/-- **Own results**: a request was settled by an event that answers it, and the id of the
event had been assigned to the request. -/
def SettledOwn : List RelayEvent → Prop
  | [] => True
  | .finalized requestId source e :: before =>
    (source = requestId ∧ ∀ id, e.responseId = some id → .assigned id requestId ∈ before) ∧
      SettledOwn before
  | _ :: before => SettledOwn before

/-- **The condition** on steps under which events meet their own request. -/
def OwnAnswer (s : RelayState) : RelayAct → Prop
  | .text source e =>
    if isPending s.ws.pending source then
      -- the end of a pending request, without an id, meets no other that is not answered yet
      e.type.isTerminal = true → e.responseId = none →
        s.ws.pending.length = 1 ∨ ∀ r ∈ unresolvedRequests s.ws.pending, r.requestId = source
    else
      -- the answer to a request that was given up meets no request that is not answered yet,
      -- and its end no single one
      (e.type = .created ∨ e.type.isTerminal = true → unresolvedRequests s.ws.pending = []) ∧
        (e.type.isTerminal = true → s.ws.pending.length ≠ 1)
  | .other .resendFailed => False
  | _ => True

instance decidableOwnAnswer (s : RelayState) : ∀ a, Decidable (OwnAnswer s a)
  | .text _ _ => by dsimp only [OwnAnswer]; infer_instance
  | .connect _ | .replayConnect _ => .isTrue trivial
  | .other a => by
    cases a with
    | resendFailed => exact .isFalse id
    | _ => exact .isTrue trivial

theorem isPending_iff {pending : List RequestState} {id : ℕ} :
    isPending pending id = true ↔ ∃ r ∈ pending, r.requestId = id := by
  simp [isPending]

theorem OwnAnswer.ne_resendFailed {s : RelayState} {a : RelayAct} (h : OwnAnswer s a) :
    a ≠ .other .resendFailed := by
  rintro rfl
  exact h

/-! ## The request that a terminal event ends -/

section Terminal

variable {pending : List RequestState} {e : UpstreamEvent} {r : RequestState}

theorem ne_created_of_terminal (ht : e.type.isTerminal = true) : e.type ≠ .created := by
  intro hc
  rw [hc] at ht
  cases ht

theorem websocketMatch_of_unknown (he : e.type ≠ .created)
    (hfind : e.responseId.bind (findByResponseId pending) = none) (hlen : pending.length ≠ 1) :
    websocketMatch pending e = (none, pending) := by
  unfold websocketMatch
  rw [if_neg he]
  split
  · next hsome =>
    rw [hfind] at hsome
    cases hsome
  · exact absurd rfl hlen
  · rfl

theorem websocketTerminal_of_found (ht : e.type.isTerminal = true)
    (hfind : e.responseId.bind (findByResponseId pending) = some r) :
    websocketTerminal pending e = some r := by
  simp only [websocketTerminal, ht, if_true, websocketMatch_of_terminal ht, terminalRequest, hfind]

theorem websocketTerminal_of_single (ht : e.type.isTerminal = true)
    (hfind : e.responseId.bind (findByResponseId [r]) = none) :
    websocketTerminal [r] e = some r := by
  have hfallback : Option.filter (fun x => decide (x ∈ [r])) (some r) = some r := by simp
  simp only [websocketTerminal, ht, if_true, websocketMatch, if_neg (ne_created_of_terminal ht),
    terminalRequest, hfind, hfallback]

theorem websocketTerminal_of_unresolved (ht : e.type.isTerminal = true)
    (hfind : e.responseId.bind (findByResponseId pending) = none) (hlen : pending.length ≠ 1)
    (hone : unresolvedRequests pending = [r]) : websocketTerminal pending e = some r := by
  have hmatch := websocketMatch_of_unknown (ne_created_of_terminal ht) hfind hlen
  simp [websocketTerminal, ht, hmatch, terminalRequest, hfind, hone]

/-- **What a terminal event finds**: the request with its id, the only request, or the only
one that is not answered yet. -/
theorem websocketTerminal_cases (h : websocketTerminal pending e = some r) :
    (∃ id, e.responseId = some id ∧ findByResponseId pending id = some r) ∨
      (e.responseId.bind (findByResponseId pending) = none ∧
        (pending = [r] ∨ (pending.length ≠ 1 ∧ unresolvedRequests pending = [r]))) := by
  have ht := (websocketTerminal_eq_some h).2
  rcases hfind : e.responseId.bind (findByResponseId pending) with _ | q
  · refine .inr ⟨rfl, ?_⟩
    by_cases hlen : pending.length = 1
    · obtain ⟨q, rfl⟩ := length_eq_one_iff.mp hlen
      rw [websocketTerminal_of_single ht hfind] at h
      exact .inl (by rw [some.inj h])
    · refine .inr ⟨hlen, ?_⟩
      have hmatch := websocketMatch_of_unknown (ne_created_of_terminal ht) hfind hlen
      simp only [websocketTerminal, ht, if_true, hmatch, terminalRequest, hfind,
        filter_none] at h
      split at h
      · next q hq => rw [hq, some.inj h]
      · split at h
        · exact absurd rfl hlen
        · cases h
  · rw [websocketTerminal_of_found ht hfind] at h
    cases h
    obtain ⟨id, hid, hq⟩ := bind_eq_some_iff.mp hfind
    exact .inl ⟨id, hid, hq⟩

end Terminal

/-! ## The invariant -/

/-- **Own answers**: the response id of a pending request is the one that the upstream has
given to its response. -/
structure RelayState.Own (s : RelayState) : Prop where
  base : s.Base
  answered : ∀ p ∈ s.ws.pending, ∀ id, p.responseId = some id →
    (id, p.requestId) ∈ s.created ∧ .assigned id p.requestId ∈ s.history
  owner : ∀ u ∈ s.inflight, ∀ p ∈ s.ws.pending, p.requestId = u.owner →
    p.responseId = u.responseId
  progress : ∀ u ∈ s.inflight, ∀ id, u.responseId = some id → (id, u.owner) ∈ s.created
  unsent : ∀ id, s.ws.main.sends = some id → ∀ p ∈ s.ws.pending, p.requestId = id →
    p.responseId = none
  settled : SettledOwn s.history

theorem newRelay_own : newRelay.Own where
  base := newRelay_base
  answered := nofun
  owner := nofun
  progress := nofun
  unsent := nofun
  settled := trivial

theorem SettledOwn.append {l before : List RelayEvent} (h : SettledOwn before)
    (hl : ∀ requestId source e, .finalized requestId source e ∉ l) : SettledOwn (l ++ before) := by
  induction l with
  | nil => exact h
  | cons b l ih =>
    have ih := ih fun requestId source e hmem => hl requestId source e (mem_cons_of_mem _ hmem)
    cases b with
    | finalized requestId source e => exact absurd mem_cons_self (hl requestId source e)
    | _ => exact ih

theorem mayAnswer_other {created : List (String × ℕ)} {u : UpstreamResponse} {e : UpstreamEvent}
    (h : mayAnswer created u e = true) (hne : e.type ≠ .created) :
    ∀ id, e.responseId = some id → u.responseId = some id := by
  intro id hid
  unfold mayAnswer at h
  split at h
  · simp [hne] at h
  · next hnone =>
    rw [hid] at hnone
    cases hnone
  · next responseId hu =>
    simp only [hid, Bool.and_eq_true, Bool.or_eq_true, decide_eq_true_eq] at h
    rcases h.2 with hnone | hsome
    · cases hnone
    · rw [hu, some.inj hsome]

namespace RelayState.Own

variable {accounts : Finset String} {s s' : RelayState} {a : RelayAct} {source : ℕ}
  {e : UpstreamEvent} {u : UpstreamResponse} {r : RequestState}

theorem created_functional (h : s.Own) {id : String} {i j : ℕ} (hi : (id, i) ∈ s.created)
    (hj : (id, j) ∈ s.created) : i = j := by
  have := inj_on_of_nodup_map h.base.fresh hi hj rfl
  exact congrArg Prod.snd this

theorem response_eq (h : s.Own) (hu : lookup UpstreamResponse.owner s.inflight source = some u)
    (hr : r ∈ s.ws.pending) (hid : r.requestId = source) : r.responseId = u.responseId :=
  h.owner u (mem_of_lookup hu) r hr (hid.trans (key_of_lookup hu).symm)

/-- **A `response.created` meets its own request.** -/
theorem created_own (h : s.Own) (hok : OwnAnswer s (.text source e))
    (hu : lookup UpstreamResponse.owner s.inflight source = some u)
    (hmay : mayAnswer s.created u e = true) (hc : e.type = .created) (hr : r ∈ s.ws.pending)
    (hnone : r.responseId = none) : r.requestId = source := by
  by_cases hpending : isPending s.ws.pending source = true
  · obtain ⟨p, hp, hid⟩ := isPending_iff.mp hpending
    have hpnone : p.responseId = none := by
      rw [h.response_eq hu hp hid]
      exact (mayAnswer_created hmay hc).1
    have hone := h.base.deque.unresolved_eq hp hpnone
    rw [h.base.deque.unresolved_eq hr hnone] at hone
    obtain rfl := singleton_inj.mp hone
    exact hid
  · simp only [OwnAnswer, if_neg hpending] at hok
    have hmem : r ∈ unresolvedRequests s.ws.pending := mem_unresolvedRequests.mpr ⟨hr, hnone⟩
    rw [hok.1 (.inl hc)] at hmem
    cases hmem

/-- **A terminal event meets its own request.** -/
theorem terminal_own (h : s.Own) (hok : OwnAnswer s (.text source e))
    (hu : lookup UpstreamResponse.owner s.inflight source = some u)
    (hmay : mayAnswer s.created u e = true)
    (hr : websocketTerminal s.ws.pending e = some r) :
    r.requestId = source ∧ ∀ id, e.responseId = some id → r.responseId = some id := by
  obtain ⟨hmem, ht⟩ := websocketTerminal_eq_some hr
  have hother := mayAnswer_other hmay (ne_created_of_terminal ht)
  -- it is enough to meet the request; the id is then that of the response
  suffices hid : r.requestId = source from
    ⟨hid, fun id he => (h.response_eq hu hmem hid).trans (hother id he)⟩
  have hgone : isPending s.ws.pending source = false →
      unresolvedRequests s.ws.pending = [] ∧ s.ws.pending.length ≠ 1 := by
    intro hpending
    simp only [OwnAnswer, hpending, Bool.false_eq_true, if_false] at hok
    exact ⟨hok.1 (.inr ht), hok.2 ht⟩
  rcases websocketTerminal_cases hr with ⟨id, he, hfind⟩ | ⟨hfind, hsingle | ⟨hlen, hone⟩⟩
  · obtain ⟨-, hresponse⟩ := mem_of_findByResponseId hfind
    have howner := h.progress u (mem_of_lookup hu) id (hother id he)
    rw [key_of_lookup hu] at howner
    exact h.created_functional (h.answered r hmem id hresponse).1 howner
  · rcases hpending : isPending s.ws.pending source with _ | _
    · exact absurd (by rw [hsingle]; rfl) (hgone hpending).2
    · obtain ⟨p, hp, hid⟩ := isPending_iff.mp hpending
      rw [hsingle] at hp
      rwa [mem_singleton.mp hp] at hid
  · rcases hpending : isPending s.ws.pending source with _ | _
    · rw [(hgone hpending).1] at hone
      cases hone
    · obtain ⟨p, hp, hid⟩ := isPending_iff.mp hpending
      have hnone : e.responseId = none := by
        rcases he : e.responseId with _ | id
        · rfl
        · have hresponse := (h.response_eq hu hp hid).trans (hother id he)
          rw [he, bind_some] at hfind
          simpa [hresponse] using find?_eq_none.mp hfind p hp
      simp only [OwnAnswer, hpending, if_true] at hok
      exact (hok ht hnone).resolve_left hlen r (by rw [hone]; exact mem_singleton_self r)

/-! ## Steps -/

theorem created_mono {x : String × ℕ} (h : x ∈ s.created) :
    x ∈ (s.afterText source e).created := by
  dsimp only [RelayState.afterText]
  split
  · exact mem_append_right _ h
  · exact h

theorem mem_inflightAfter_of_ne (hne : e.type ≠ .created) {v : UpstreamResponse}
    (hv : v ∈ inflightAfter s.inflight source e) : v ∈ s.inflight := by
  obtain ⟨w, hw, -, ⟨rfl, -⟩ | ⟨-, hc, -⟩⟩ := owner_of_mem_inflightAfter hv
  · exact hw
  · exact absurd hc hne

theorem settled_text (h : s.Own) (hok : OwnAnswer s (.text source e))
    (hu : lookup UpstreamResponse.owner s.inflight source = some u)
    (hmay : mayAnswer s.created u e = true) : SettledOwn (s.textEvents source e ++ s.history) := by
  rcases hreplay : replayTarget s.ws.pending e with _ | r
  · rcases hend : websocketTerminal s.ws.pending e with _ | r
    · refine h.settled.append fun requestId src ev hmem => ?_
      simp only [RelayState.textEvents, hreplay, hend] at hmem
      split at hmem
      · cases mem_singleton.mp hmem
      · cases hmem
    · obtain ⟨hid, hresponse⟩ := h.terminal_own hok hu hmay hend
      simp only [RelayState.textEvents, hreplay, hend, cons_append, nil_append]
      refine ⟨⟨hid.symm, fun id he => ?_⟩, h.settled⟩
      exact (h.answered r (websocketTerminal_eq_some hend).1 id (hresponse id he)).2
  · simp only [RelayState.textEvents, hreplay]
    exact h.settled

theorem text_other (h : s.Own) (hne : e.type ≠ .created) (hok : OwnAnswer s (.text source e))
    (hu : lookup UpstreamResponse.owner s.inflight source = some u)
    (hmay : mayAnswer s.created u e = true)
    (hbase : RelayState.Base { s.afterText source e with
      ws := s.ws.text e, history := s.textEvents source e ++ s.history }) :
    RelayState.Own { s.afterText source e with
      ws := s.ws.text e, history := s.textEvents source e ++ s.history } where
  base := hbase
  answered q hq id hid := by
    obtain ⟨p, hp, hpid, hresponse⟩ := h.base.same_response hne q hq
    obtain ⟨hcreated, hassigned⟩ := h.answered p hp id (hresponse ▸ hid)
    rw [hpid]
    exact ⟨created_mono hcreated, mem_append_right _ hassigned⟩
  owner v hv q hq hid := by
    obtain ⟨p, hp, hpid, hresponse⟩ := h.base.same_response hne q hq
    rw [hresponse]
    exact h.owner v (mem_inflightAfter_of_ne hne hv) p hp (hpid ▸ hid)
  progress v hv id hid := created_mono (h.progress v (mem_inflightAfter_of_ne hne hv) id hid)
  unsent id hid q hq hqid := by
    obtain ⟨p, hp, hpid, hresponse⟩ := h.base.same_response hne q hq
    rw [hresponse]
    refine h.unsent id ?_ p hp (hpid ▸ hqid)
    rw [← (WebsocketState.text_spec s.ws e).main]
    exact hid
  settled := h.settled_text hok hu hmay

theorem text_created (h : s.Own) (hc : e.type = .created) (hok : OwnAnswer s (.text source e))
    (hu : lookup UpstreamResponse.owner s.inflight source = some u)
    (hmay : mayAnswer s.created u e = true)
    (hbase : RelayState.Base { s.afterText source e with
      ws := s.ws.text e, history := s.textEvents source e ++ s.history }) :
    RelayState.Own { s.afterText source e with
      ws := s.ws.text e, history := s.textEvents source e ++ s.history } := by
  obtain ⟨id, he, hcase⟩ := h.base.created_cases hmay hc source
  have hgiven : (id, source) ∈ (s.afterText source e).created := by
    simp [RelayState.afterText, hc, he]
  have hsettled := h.settled_text hok hu hmay
  have hmain := (WebsocketState.text_spec s.ws e).main
  -- a request of the deque is the one with the new id, or it is as it was
  have hpending : ∀ q ∈ (s.ws.text e).pending,
      (q.requestId = source ∧ q.responseId = some id ∧
        .assigned id source ∈ s.textEvents source e ++ s.history) ∨
      (q ∈ s.ws.pending ∧ q.requestId ≠ source) := by
    intro q hq
    rcases hcase with ⟨r, hr, hnone, hdeque, hevents⟩ | ⟨hnil, hdeque, hevents⟩
    · obtain rfl := h.created_own hok hu hmay hc hr hnone
      rw [hdeque] at hq
      rcases mem_setRequest hq with ⟨p, hp, hpid, rfl⟩ | ⟨hq, hid⟩
      · exact .inl ⟨hpid, rfl, by simp [hevents]⟩
      · exact .inr ⟨hq, hid⟩
    · rw [hdeque] at hq
      refine .inr ⟨hq, fun hid => ?_⟩
      have hqnone : q.responseId = none := by
        rw [h.response_eq hu hq hid]
        exact (mayAnswer_created hmay hc).1
      have hmem : q ∈ unresolvedRequests s.ws.pending := mem_unresolvedRequests.mpr ⟨hq, hqnone⟩
      rw [hnil] at hmem
      cases hmem
  refine ⟨hbase, fun q hq i hi => ?_, fun v hv q hq hid => ?_, fun v hv i hi => ?_,
    fun i hi q hq hid => ?_, hsettled⟩
  · rcases hpending q hq with ⟨hid, hresponse, hassigned⟩ | ⟨hq, -⟩
    · rw [hresponse] at hi
      cases hi
      rw [hid]
      exact ⟨hgiven, hassigned⟩
    · obtain ⟨hcreated, hassigned⟩ := h.answered q hq i hi
      exact ⟨created_mono hcreated, mem_append_right _ hassigned⟩
  · obtain ⟨w, hw, howner, ⟨rfl, hne⟩ | ⟨hsource, -, hresponse⟩⟩ := owner_of_mem_inflightAfter hv
    · rcases hpending q hq with ⟨hqid, -, -⟩ | ⟨hq, -⟩
      · exact absurd (hid.symm.trans hqid) (hne hc)
      · exact h.owner v hw q hq hid
    · rcases hpending q hq with ⟨-, hq', -⟩ | ⟨-, hne⟩
      · rw [hresponse, he, hq']
      · exact absurd (hid.trans (howner.symm.trans hsource)) hne
  · obtain ⟨w, hw, howner, ⟨rfl, -⟩ | ⟨hsource, -, hresponse⟩⟩ := owner_of_mem_inflightAfter hv
    · exact created_mono (h.progress v hw i hi)
    · rw [hresponse, he] at hi
      cases hi
      rw [← howner, hsource]
      exact hgiven
  · have hsends : s.ws.main.sends = some i := hmain ▸ hi
    rcases hpending q hq with ⟨hqid, -, -⟩ | ⟨hq, -⟩
    · have hne := (h.base.sends i hsends).2 u (mem_of_lookup hu)
      rw [key_of_lookup hu, ← hqid, hid] at hne
      exact absurd rfl hne
    · exact h.unsent i hsends q hq hid

/-- **Every step that meets the condition keeps the invariant.** -/
theorem step (h : s.Own) (hok : OwnAnswer s a) (hs : relayStep accounts s a = some s') :
    s'.Own := by
  have ha := hok.ne_resendFailed
  have hbase := h.base.step ha hs
  cases relayStep_move ha hs with
  | text source e u act mem may reader eq =>
    subst act eq
    by_cases hc : e.type = .created
    · exact h.text_created hc hok mem may hbase
    · exact h.text_other hc hok mem may hbase
  | connect id account m main mem allowed eq =>
    subst eq
    have hopened : ∀ p ∈ s.ws.pending, p.requestId = id → p.responseId = none := by
      rcases main with ⟨hmain, -⟩ | ⟨hmain, -⟩
      · exact (h.base.opened_response (.inl hmain)).2
      · exact (h.base.opened_response (.inr hmain)).2
    refine ⟨hbase, h.answered, nofun, nofun, fun i hi => ?_, h.settled⟩
    rcases main with ⟨-, rfl⟩ | ⟨-, rfl⟩
    all_goals
      cases hi
      exact hopened
  | sent id main eq =>
    subst eq
    have hsends : s.ws.main.sends = some id := by
      rcases main with hmain | hmain
      all_goals
        rw [hmain]
        rfl
    refine ⟨hbase, fun p hp i hi => ?_, fun u hu p hp hid => ?_, fun u hu i hi => ?_, nofun,
      h.settled.append (l := [.sent id s.account]) (by simp)⟩
    · obtain ⟨hcreated, hassigned⟩ := h.answered p hp i hi
      exact ⟨hcreated, mem_cons_of_mem _ hassigned⟩
    · rcases mem_append.mp hu with hu | hu
      · exact h.owner u hu p hp hid
      · obtain rfl := mem_singleton.mp hu
        exact h.unsent id hsends p hp hid
    · rcases mem_append.mp hu with hu | hu
      · exact h.progress u hu i hi
      · obtain rfl := mem_singleton.mp hu
        cases hi
  | receive r act main fresh eq =>
    subst eq
    exact ⟨hbase, h.answered, h.owner, h.progress, nofun, h.settled⟩
  | acquire r main eq =>
    subst eq
    exact ⟨hbase, h.answered, h.owner, h.progress, nofun, h.settled⟩
  | register r main eq =>
    subst eq
    have hr : s.ws.main.incoming = some r := by rw [main]; rfl
    obtain ⟨-, hother, hnone, -⟩ := h.base.deque.incoming r hr
    have hmem : ∀ p ∈ s.ws.pending ++ [r], p ∈ s.ws.pending ∨ p = r := by simp
    refine ⟨hbase, fun p hp i hi => ?_, fun u hu p hp hid => ?_, h.progress,
      fun i hi p hp hid => ?_, h.settled⟩
    · rcases hmem p hp with hp | rfl
      · exact h.answered p hp i hi
      · rw [hnone] at hi
        cases hi
    · rcases hmem p hp with hp | rfl
      · exact h.owner u hu p hp hid
      · exact absurd hid (h.base.taken u hu p hr)
    · dsimp only at hi
      split at hi
      · cases hi
      · cases hi
        rcases hmem p hp with hp | rfl
        · exact absurd hid (hother p hp)
        · exact hnone
  | settle reconnect eq reader =>
    subst eq
    refine ⟨hbase, fun p hp i hi => ?_, h.owner, h.progress, h.unsent, h.settled.append (by simp)⟩
    obtain ⟨hcreated, hassigned⟩ := h.answered p hp i hi
    exact ⟨hcreated, mem_append_right _ hassigned⟩
  | leave ws step p pending ids kept eq =>
    subst eq
    have hsub : ∀ q ∈ ws.pending, q ∈ s.ws.pending := fun q hq =>
      mem_of_mem_filter (pending ▸ hq)
    refine ⟨hbase, fun q hq i hi => ?_, fun u hu q hq => h.owner u hu q (hsub q hq), h.progress,
      fun i hi q hq => ?_, h.settled.append (by simp)⟩
    · obtain ⟨hcreated, hassigned⟩ := h.answered q (hsub q hq) i hi
      exact ⟨hcreated, mem_append_right _ hassigned⟩
    · have hmain := kept.sends i hi
      exact h.unsent i (hmain ▸ hi) q (hsub q hq)

end RelayState.Own

/-! ## Runs -/

/-- **Websocket requests are settled with their own result**, in every run whose steps keep to
`OwnAnswer`. -/
theorem settled_with_own_result {accounts : Finset String} {acts : List RelayAct} {t : RelayState}
    (hok : Along (relayStep accounts) OwnAnswer acts newRelay)
    (hrun : run (relayStep accounts) acts newRelay = some t) : SettledOwn t.history := by
  have ht : t.Own := run_invariant_along (fun h hok hs => h.step hok hs) newRelay_own hok hrun
  exact ht.settled

def registerActs (id : ℕ) : List RelayAct :=
  [.other .loop, .other (.receive (some (plainRequest id))), .other .accept, .other .prepare,
    .other .acquire, .other .register]

def answerActs (source : ℕ) (type : UpstreamEventType) (responseId : Option String) :
    List RelayAct :=
  [.text source ⟨type, responseId, none, ""⟩, .other .settle, .other .check]

def pipelinedActs : List RelayAct :=
  registerActs 0 ++ [.connect "a", .other .send] ++ answerActs 0 .created (some "resp_0") ++
    registerActs 1 ++ [.other .send]

def lateActs : List RelayAct :=
  pipelinedActs ++ answerActs 1 .created (some "resp_1") ++ registerActs 2 ++
    [.other .send, .other (.budgetTimeout [1])] ++ answerActs 2 .created (some "resp_2") ++
    answerActs 1 .completed (some "resp_1") ++ answerActs 0 .completed (some "resp_0")

theorem settled_with_own_result_late :
    ∃ t, run (relayStep {"a"}) lateActs newRelay = some t ∧
      Along (relayStep {"a"}) OwnAnswer lateActs newRelay ∧
      .finalized 0 0 ⟨.completed, some "resp_0", none, ""⟩ ∈ t.history ∧ SettledOwn t.history := by
  have hrun : run (relayStep {"a"}) lateActs newRelay = some _ := rfl
  have hok : Along (relayStep {"a"}) OwnAnswer lateActs newRelay := by decide
  exact ⟨_, hrun, hok, by decide, settled_with_own_result hok hrun⟩

/-- The first request runs out of its budget before the second has its answer: its late end
settles the second one. -/
theorem late_completion_settles_next :
    ∃ t, run (relayStep {"a"}) (pipelinedActs ++ [.other (.budgetTimeout [0]),
        .text 0 ⟨.completed, some "resp_0", none, ""⟩]) newRelay = some t ∧
      .finalized 1 0 ⟨.completed, some "resp_0", none, ""⟩ ∈ t.history ∧
      .assigned "resp_0" 1 ∉ t.history ∧ ¬SettledOwn t.history := by
  refine ⟨_, rfl, by decide, by decide, ?_⟩
  rintro ⟨⟨⟨⟩, -⟩, -⟩

end CodexOctopus

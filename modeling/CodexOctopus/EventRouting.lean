import CodexOctopus.PendingDeque

/-!
# Which request an upstream event reaches

The request it answers or none, while the deque and the responses in progress agree.
-/

namespace CodexOctopus

open List Option Table Lts

/-! ## Matching -/

section Matching

variable {pending waiting : List RequestState} {gatePermits : ℕ} {requestIds detached : List ℕ}
  {created : List (String × ℕ)} {e : UpstreamEvent} {id : String}

/-- **`response.created`** reaches the one request that waits for it. -/
theorem matchRequest_created {r : RequestState}
    (h : Queued pending waiting gatePermits requestIds detached created) (hr : r ∈ pending)
    (hrid : r.responseId = none) (ht : e.type = .created) (hid : e.responseId = some id)
    (hfresh : id ∉ created.map Prod.fst) :
    matchRequest pending e = (some { r with responseId := some id },
      setRequest r.requestId ({ · with responseId := some id }) pending) := by
  have hfind : findByResponseId pending id = none :=
    findByResponseId_eq_none fun q hq hqid =>
      hfresh (mem_map_of_mem (f := Prod.fst) (h.assigned q hq id hqid))
  have hhead : (unresolvedRequests pending).head? = some r := by
    have hmem := mem_unresolvedRequests.mpr ⟨hr, hrid⟩
    have hall := h.unresolved_eq hr hrid
    cases hun : unresolvedRequests pending with
    | nil => simp [hun] at hmem
    | cons q l =>
      rw [head?_cons, hall q (hun ▸ mem_cons_self)]
  simp only [matchRequest, ht, if_true, assignResponseId, hid, hfind, hhead]

theorem terminalRequest_none {responseId : Option String}
    (hfind : responseId.bind (findByResponseId pending) = none)
    (hun : (unresolvedRequests pending).length ≠ 1)
    (hlen : responseId = none → pending.length ≠ 1) :
    terminalRequest pending responseId none = none := by
  have hpending : ∀ r, responseId = none → pending = [r] → False := by
    rintro r hnone rfl
    exact hlen hnone rfl
  have hunresolved : ∀ r, unresolvedRequests pending = [r] → False := by
    intro r hr
    exact hun (by rw [hr]; rfl)
  simp only [terminalRequest, hfind, filter_none]

/-- **Events after `response.created`** reach the request they answer, or none. -/
theorem matchRequest_spec {source : ℕ}
    (h : Queued pending waiting gatePermits requestIds detached created)
    (ht : e.type ≠ .created) (hgiven : (id, source) ∈ created)
    (hown : ∀ r ∈ pending, r.requestId = source → r.responseId = some id)
    (hid : e.responseId = none ∨ e.responseId = some id)
    (halone : e.responseId = none → pending.length = 1 → ∃ r ∈ pending, r.requestId = source)
    (hterm : e.type.isTerminal = true → (unresolvedRequests pending).length = 1 →
      e.responseId ≠ none ∧ ∃ r ∈ pending, r.requestId = source) :
    ∃ m, matchRequest pending e = (m, pending) ∧
      (∀ r ∈ m, r ∈ pending ∧ r.requestId = source) ∧
      (e.type.isTerminal = true → terminalRequest pending e.responseId m = m) ∧
      ((∃ r ∈ pending, r.requestId = source) → (e.responseId = none → pending.length = 1) →
        m ≠ none) := by
  rcases hid with hid | hid
  · by_cases hlen : pending.length = 1
    · -- the only request in the deque
      obtain ⟨r, rfl⟩ := length_eq_one_iff.mp hlen
      obtain ⟨q, hq, hqs⟩ := halone hid hlen
      obtain rfl := mem_singleton.mp hq
      refine ⟨some q, by simp only [matchRequest, ht, if_false, hid], ?_, fun _ => ?_, ?_⟩
      · rintro r hr
        obtain rfl := mem_some.mp hr
        exact ⟨hq, hqs⟩
      · simp [terminalRequest, hid, Option.filter]
      · exact fun _ _ => some_ne_none q
    · refine ⟨none, ?_, by simp, fun hte => ?_, fun _ hone => absurd (hone hid) hlen⟩
      · simp only [matchRequest, ht, if_false, hid]
        split
        · exact absurd rfl hlen
        · rfl
      · refine terminalRequest_none (by rw [hid]; rfl) (fun hun => (hterm hte hun).1 hid) ?_
        exact fun _ => hlen
  · have hmatch : matchRequest pending e = (findByResponseId pending id, pending) := by
      simp only [matchRequest, ht, if_false, hid]
    refine ⟨findByResponseId pending id, hmatch, ?_, fun hte => ?_, ?_⟩
    · intro r hr
      obtain ⟨hr, hrid⟩ := mem_of_findByResponseId hr
      exact ⟨hr, h.owner_eq (h.assigned r hr id hrid) hgiven⟩
    · cases hfind : findByResponseId pending id with
      | some r => simp [terminalRequest, hid, hfind]
      | none =>
        refine terminalRequest_none (by rw [hid]; exact hfind) (fun hun => ?_) (by simp [hid])
        obtain ⟨r, hr, hrs⟩ := (hterm hte hun).2
        exact find?_eq_none.mp hfind r hr (by simpa using hown r hr hrs)
    · rintro ⟨r, hr, hrs⟩ _ hnone
      exact find?_eq_none.mp hnone r hr (by simpa using hown r hr hrs)

end Matching

/-! ## The session as a whole -/

def PendingState.Inv (s : PendingState) : Prop :=
  Queued s.pending s.waiting s.gatePermits s.requestIds s.detached s.created ∧
    Answered s.pending s.detached s.created s.inflight

theorem newPending_inv : newPending.Inv :=
  ⟨⟨nodup_nil, by simp [newPending], by simp [newPending], by simp [newPending], rfl,
    by simp [newPending], by simp [newPending], nodup_nil, by simp [newPending]⟩, .nil⟩

/-- **Every answer reaches its request**: its blocks are on the queue of the request, and a terminal
event has settled that request only. -/
def PendingState.Routed (s : PendingState) : Prop :=
  (∀ p ∈ s.puts, p.queue = p.source) ∧ ∀ x ∈ s.settled, x.1 = x.2

/-- The condition on steps under which answers stay apart. -/
def SoleAnswer (s : PendingState) : PendingAct → Prop
  -- a request is sent while it is in the deque, not twice,
  | .send requestId | .resend requestId =>
    (∃ r ∈ s.pending, r.requestId = requestId ∧ r.responseId = none) ∧
      requestId ∉ s.inflight.map UpstreamResponse.owner
  -- and is not taken out of it before its response is created
  | .sendFailed requestId _ | .interrupt requestId | .prewarmFailed requestId
  | .detach requestId => ⟨requestId, none⟩ ∉ s.inflight
  -- the fallbacks for events without id do not apply to another request
  | .upstream source e =>
    (e.responseId = none → s.pending.length = 1 → ∃ r ∈ s.pending, r.requestId = source) ∧
      (e.type.isTerminal = true → (unresolvedRequests s.pending).length = 1 →
        e.responseId ≠ none ∧ ∃ r ∈ s.pending, r.requestId = source)
  | _ => True

instance decidableSoleAnswer (s : PendingState) : ∀ a, Decidable (SoleAnswer s a)
  | .send _ | .resend _ | .sendFailed _ _ | .interrupt _ | .prewarmFailed _ | .detach _
  | .upstream _ _ => by dsimp only [SoleAnswer]; infer_instance
  | .reopen _ _ | .enter _ | .acquire _ | .leave _ _ | .append _ | .lost _ | .resendFailed _ =>
    .isTrue trivial

/-! ## Steps of the session -/

namespace PendingState

variable {s : PendingState}

variable {r : RequestState} {id source : ℕ} {e : UpstreamEvent}

theorem Inv.remove (h : s.Inv) (hr : r ∈ s.pending) (hid : ⟨r.requestId, none⟩ ∉ s.inflight) :
    (s.remove r).Inv :=
  ⟨(h.1.drop hr).detach
      (h.1.known _ (mem_map_of_mem (mem_append_left _ hr))) (h.1.not_mem_drop hr),
    h.2.remove hid⟩

theorem Inv.cleanup (h : s.Inv) (hid : ⟨id, none⟩ ∉ s.inflight) : (s.cleanup id).Inv := by
  rw [PendingState.cleanup]
  split
  · exact h
  · next r hr =>
    exact h.remove (mem_of_lookup hr) (key_of_lookup hr ▸ hid)

theorem Inv.disconnect (h : s.Inv) : PendingState.Inv { s with inflight := [] } :=
  ⟨h.1, .nil⟩

theorem Inv.abandon (h : s.Inv) : (s.abandon id).Inv := by
  have hclean : (PendingState.cleanup { s with inflight := [] } id).Inv :=
    h.disconnect.cleanup not_mem_nil
  unfold PendingState.abandon PendingState.cleanup at *
  split
  · exact h.disconnect
  · next r hr =>
    simp only [hr] at hclean
    exact hclean

theorem Inv.failAll (h : s.Inv) : s.failAll.Inv := ⟨h.1.clear, .nil⟩

theorem Inv.reconnectFailed (h : s.Inv) : (s.reconnectFailed id).Inv := h.disconnect

theorem Inv.lost (h : s.Inv) (reconnected : Bool) : (s.lost reconnected).Inv := by
  rw [PendingState.lost]
  split
  · split
    · exact h.failAll
    · split
      · exact h.disconnect
      · exact h.reconnectFailed.failAll
  · exact h.failAll

theorem Inv.sendFailed (h : s.Inv) (reconnected : Bool) (hid : ⟨r.requestId, none⟩ ∉ s.inflight) :
    (s.sendFailed r reconnected).Inv := by
  rw [PendingState.sendFailed]
  split
  · exact h.cleanup hid
  · split
    · exact h.abandon
    · split
      · exact h.disconnect
      · exact h.reconnectFailed.abandon

theorem Inv.sent (h : s.Inv) (hr : ∃ r ∈ s.pending, r.requestId = id ∧ r.responseId = none)
    (hnew : id ∉ s.inflight.map UpstreamResponse.owner) : (s.sent id).Inv := by
  obtain ⟨r, hr, rfl, hrid⟩ := hr
  rw [PendingState.sent]
  split
  · exact ⟨h.1, h.2.send hr hrid hnew⟩
  · exact h

/-! ## Upstream events -/

theorem mayEmit_cases {u : UpstreamResponse} (h : mayEmit s u e = true) :
    (u.responseId = none ∧ e.type = .created ∧
      ∃ id, e.responseId = some id ∧ id ∉ s.created.map Prod.fst) ∨
    (e.type ≠ .created ∧
      ∃ id, u.responseId = some id ∧ (e.responseId = none ∨ e.responseId = some id)) := by
  rw [mayEmit] at h
  split at h
  · next id hu he =>
    simp only [Bool.and_eq_true, decide_eq_true_eq] at h
    exact .inl ⟨hu, h.1.1, id, he, h.2⟩
  · cases h
  · next id hu =>
    simp only [Bool.and_eq_true, Bool.or_eq_true, decide_eq_true_eq] at h
    exact .inr ⟨h.1, id, hu, h.2⟩

theorem process_created {id : String} (h : s.Inv) (hr : r ∈ s.pending) (hrid : r.responseId = none)
    (ht : e.type = .created) (hid : e.responseId = some id) (hfresh : id ∉ s.created.map Prod.fst) :
    s.process r.requestId e = { s with
      pending := setRequest r.requestId ({ · with responseId := some id, gateAcquired := false })
        s.pending
      gatePermits := s.gatePermits + r.permit
      puts := s.puts ++ [⟨r.requestId, r.requestId, e⟩] } := by
  have hset := @setRequest_setRequest r.requestId ({ · with responseId := some id })
    ({ · with gateAcquired := false }) (fun _ => rfl) s.pending
  simp only [process, matchRequest_created h.1 hr hrid ht hid hfresh, ht, if_true,
    UpstreamEventType.isTerminal, Bool.false_eq_true, if_false, Option.elim, toList_none,
    toList_some, filter_nil, append_nil, map_cons, map_nil, hset]
  rfl

theorem process_matched {m : Option RequestState} (ht : e.type ≠ .created)
    (hm : matchRequest s.pending e = (m, s.pending))
    (hterm : e.type.isTerminal = true → terminalRequest s.pending e.responseId m = m) :
    s.process source e =
      if e.type.isTerminal then { s with
        pending := m.elim s.pending fun r => removeRequest r.requestId s.pending
        gatePermits := s.gatePermits + m.elim 0 RequestState.permit
        queuedRequestCount :=
          if m = none then s.queuedRequestCount else s.queuedRequestCount - 1
        puts := s.puts ++ m.toList.map fun r => ⟨r.requestId, source, e⟩
        settled := s.settled ++ m.toList.map fun r => (r.requestId, source) }
      else { s with puts := s.puts ++ m.toList.map fun r => ⟨r.requestId, source, e⟩ } := by
  by_cases hte : e.type.isTerminal = true
  · cases m <;> simp [process, hm, ht, hte, hterm hte]
  · cases m <;> simp [process, hm, ht, hte]

inductive Matched (s : PendingState) (source : ℕ) (e : UpstreamEvent) : Prop where
  | created (r : RequestState) (id : String) (hr : r ∈ s.pending) (hsource : r.requestId = source)
      (hrid : r.responseId = none) (ht : e.type = .created) (hid : e.responseId = some id)
      (hfresh : id ∉ s.created.map Prod.fst)
  | after (m : Option RequestState) (ht : e.type ≠ .created)
      (hm : matchRequest s.pending e = (m, s.pending))
      (hown : ∀ r ∈ m, r ∈ s.pending ∧ r.requestId = source)
      (hterm : e.type.isTerminal = true → terminalRequest s.pending e.responseId m = m)
      (hreach : source ∉ s.detached → (e.responseId = none → s.pending.length = 1) → m ≠ none)

theorem Inv.matched {u : UpstreamResponse} (h : s.Inv)
    (hu : lookup UpstreamResponse.owner s.inflight source = some u)
    (hmay : mayEmit s u e = true) (hok : SoleAnswer s (.upstream source e)) :
    Matched s source e := by
  obtain rfl := key_of_lookup hu
  replace hu := mem_of_lookup hu
  rcases mayEmit_cases hmay with ⟨hnone, ht, id, hid, hfresh⟩ | ⟨ht, id, huid, hid⟩
  · obtain ⟨r, hr, hro, hrid⟩ := h.2.answers u hu (.inl hnone)
    exact .created r id hr hro (hrid.trans hnone) ht hid hfresh
  · -- a request in the deque is attached, so it is the one that u answers
    have hown : ∀ r ∈ s.pending, r.requestId = u.owner → r.responseId = some id := by
      intro r hr hro
      have hdet : u.owner ∉ s.detached :=
        h.1.attached _ (hro ▸ mem_map_of_mem (mem_append_left _ hr))
      obtain ⟨q, hq, hqo, hqid⟩ := h.2.answers u hu (.inr hdet)
      rw [h.1.unique_pending.eq_of_key_eq hr hq (hro.trans hqo.symm), hqid, huid]
    obtain ⟨m, hm, hmown, hterm, hreach⟩ :=
      matchRequest_spec h.1 ht (h.2.given u hu id huid) hown hid hok.1 hok.2
    refine .after m ht hm hmown hterm fun hdet => hreach ?_
    obtain ⟨q, hq, hqo, _⟩ := h.2.answers u hu (.inr hdet)
    exact ⟨q, hq, hqo⟩

theorem Inv.upstream (h : s.Inv) (hm : Matched s source e) :
    (s.upstream source e).Inv := by
  rw [PendingState.upstream]
  cases hm with
  | created r id hr hsource hrid ht hid hfresh =>
    subst hsource
    rw [process_created h hr hrid ht hid hfresh]
    simp only [inflightAfter, ht, hid, if_true]
    exact ⟨h.1.create hr hfresh, h.2.create hr⟩
  | after m ht hm hown hterm hreach =>
    rw [process_matched ht hm hterm]
    simp only [inflightAfter, ht, if_false]
    by_cases hte : e.type.isTerminal = true
    · simp only [hte, if_true]
      cases m with
      | none => exact ⟨h.1, h.2.finish fun _ hr _ => hr⟩
      | some r =>
        obtain ⟨hr, rfl⟩ := hown r rfl
        exact ⟨h.1.drop hr, h.2.finish fun q hq hne => mem_removeRequest.mpr ⟨hq, hne⟩⟩
    · simp only [hte, Bool.false_eq_true, if_false]
      exact h

theorem Matched.history (hm : Matched s source e) (h : s.Inv) :
    ∃ sent done, (s.upstream source e).puts = s.puts ++ sent ∧
      (s.upstream source e).settled = s.settled ++ done ∧
      (sent = [] ∨ sent = [⟨source, source, e⟩] ∧ source ∉ s.detached) ∧
      (∀ x ∈ done, x = (source, source)) ∧
      (source ∉ s.detached → (e.responseId = none → s.pending.length = 1) → sent ≠ []) := by
  have hattached : ∀ r ∈ s.pending, r.requestId ∉ s.detached := fun r hr =>
    h.1.attached _ (mem_map_of_mem (mem_append_left _ hr))
  rw [PendingState.upstream]
  cases hm with
  | created r id hr hsource hrid ht hid hfresh =>
    subst hsource
    rw [process_created h hr hrid ht hid hfresh]
    exact ⟨_, [], rfl, (append_nil _).symm, .inr ⟨rfl, hattached r hr⟩, by simp, by simp⟩
  | after m ht hm hown hterm hreach =>
    rw [process_matched ht hm hterm]
    cases m with
    | none =>
      refine ⟨[], [], ?_, ?_, .inl rfl, by simp, fun hdet hone => absurd rfl (hreach hdet hone)⟩
      · split <;> exact rfl
      · split
        · exact rfl
        · exact (append_nil _).symm
    | some r =>
      obtain ⟨hr, rfl⟩ := hown r rfl
      refine ⟨_, if e.type.isTerminal then [(r.requestId, r.requestId)] else [], ?_, ?_,
        .inr ⟨rfl, hattached r hr⟩, ?_, by simp⟩
      · split <;> exact rfl
      · split
        · exact rfl
        · exact (append_nil _).symm
      · split <;> simp

/-! ## Histories -/

def history (s : PendingState) : List QueuePut × List (ℕ × ℕ) × List (ℕ × UpstreamEvent) :=
  (s.puts, s.settled, s.emitted)

@[simp] theorem history_cleanup (id : ℕ) : (s.cleanup id).history = s.history := by
  rw [cleanup]
  split <;> rfl

@[simp] theorem history_abandon (id : ℕ) : (s.abandon id).history = s.history :=
  s.history_cleanup id

@[simp] theorem history_lost (reconnected : Bool) :
    (s.lost reconnected).history = s.history := by
  rw [lost]
  split
  · split
    · rfl
    · split <;> rfl
  · rfl

@[simp] theorem history_sendFailed (r : RequestState) (reconnected : Bool) :
    (s.sendFailed r reconnected).history = s.history := by
  rw [sendFailed]
  split
  · exact s.history_cleanup _
  · split
    · exact s.history_abandon _
    · split
      · rfl
      · exact (s.reconnectFailed r.requestId).history_abandon _

end PendingState

/-! ## Runs -/

section Runs

variable {queueLimit : ℕ} {s s' : PendingState}

/-- **What a step does** when answers are apart: they stay apart, and the histories change
by upstream events only. -/
theorem pendingStep_spec {a : PendingAct} (h : s.Inv) (hok : SoleAnswer s a)
    (hs : pendingStep queueLimit s a = some s') :
    s'.Inv ∧ (s'.history = s.history ∨
      ∃ source e, a = .upstream source e ∧ s.Matched source e ∧ s' = s.upstream source e) := by
  cases a with
  | reopen requestId reconnected =>
    simp only [pendingStep] at hs
    split at hs
    · cases hs
      cases reconnected
      · exact ⟨h.disconnect, .inl rfl⟩
      · exact ⟨h.disconnect, .inl rfl⟩
    · cases hs
  | enter r =>
    simp only [pendingStep] at hs
    split at hs
    · cases hs
    · next hnew =>
      cases hs
      simp only [not_or, Bool.not_eq_true, ne_eq, Decidable.not_not] at hnew
      exact ⟨⟨h.1.enter hnew.1 hnew.2.1 hnew.2.2.1, h.2⟩, .inl rfl⟩
  | acquire requestId =>
    simp only [pendingStep] at hs
    split at hs
    · cases hs
    · next r hr =>
      obtain rfl := key_of_lookup hr
      split at hs
      · cases hs
      · next hfree =>
        cases hs
        simp only [not_or, Bool.not_eq_true] at hfree
        exact ⟨⟨h.1.acquire (mem_of_lookup hr) hfree.1 hfree.2, h.2⟩, .inl rfl⟩
  | leave requestId cancelled =>
    simp only [pendingStep] at hs
    split at hs
    · cases hs
    · next r hr =>
      obtain rfl := key_of_lookup hr
      cases hs
      exact ⟨⟨h.1.leave (mem_of_lookup hr), h.2⟩, .inl rfl⟩
  | append requestId =>
    simp only [pendingStep] at hs
    split at hs
    · cases hs
    · next r hr =>
      obtain rfl := key_of_lookup hr
      split at hs
      · next hgate =>
        cases hs
        refine ⟨⟨h.1.append (mem_of_lookup hr) hgate, ?_⟩, .inl rfl⟩
        exact h.2.mono fun q hq => mem_append_left _ hq
      · cases hs
  | send requestId =>
    simp only [pendingStep] at hs
    split at hs
    · cases hs
    · cases hs
      exact ⟨PendingState.Inv.sent h hok.1 hok.2, .inl rfl⟩
  | sendFailed requestId reconnected =>
    simp only [pendingStep] at hs
    split at hs
    · cases hs
    · next r hr =>
      obtain rfl := key_of_lookup hr
      cases hs
      have h' : PendingState.Inv { s with sending := removeRequest r.requestId s.sending } := h
      exact ⟨h'.sendFailed reconnected hok, .inl (PendingState.history_sendFailed _ _)⟩
  | interrupt requestId =>
    simp only [pendingStep] at hs
    split at hs
    · cases hs
      split
      · exact ⟨h, .inl rfl⟩
      · exact ⟨PendingState.Inv.cleanup h hok, .inl (PendingState.history_cleanup _)⟩
    · split at hs
      · cases hs
        exact ⟨h, .inl rfl⟩
      · cases hs
  | prewarmFailed requestId =>
    simp only [pendingStep] at hs
    split at hs
    · cases hs
      exact ⟨PendingState.Inv.cleanup h hok, .inl (PendingState.history_cleanup _)⟩
    · cases hs
  | detach requestId =>
    simp only [pendingStep] at hs
    split at hs
    · cases hs
    · next r hr =>
      obtain rfl := key_of_lookup hr
      split at hs
      · cases hs
      · cases hs
        exact ⟨h.remove (mem_of_lookup hr) hok, .inl rfl⟩
  | upstream source e =>
    simp only [pendingStep] at hs
    split at hs
    · cases hs
    · next u hu =>
      split at hs
      · next hmay =>
        cases hs
        have hm := h.matched hu hmay.2 hok
        exact ⟨h.upstream hm, .inr ⟨source, e, rfl, hm, rfl⟩⟩
      · cases hs
  | lost reconnected =>
    simp only [pendingStep] at hs
    split at hs
    · cases hs
      exact ⟨h.lost reconnected, .inl (s.history_lost reconnected)⟩
    · cases hs
  | resend requestId =>
    simp only [pendingStep] at hs
    split at hs
    · cases hs
    · cases hs
      exact ⟨PendingState.Inv.sent h hok.1 hok.2, .inl rfl⟩
  | resendFailed requestId =>
    simp only [pendingStep] at hs
    split at hs
    · cases hs
    · cases hs
      split
      · exact ⟨PendingState.Inv.abandon h, .inl (PendingState.history_abandon _)⟩
      · exact ⟨PendingState.Inv.failAll h, .inl rfl⟩

def PendingState.RoutedInv (s : PendingState) : Prop := s.Inv ∧ s.Routed

theorem PendingState.RoutedInv.step {a : PendingAct} (h : s.RoutedInv) (hok : SoleAnswer s a)
    (hs : pendingStep queueLimit s a = some s') : s'.RoutedInv := by
  obtain ⟨hinv, hhist⟩ := pendingStep_spec h.1 hok hs
  refine ⟨hinv, ?_⟩
  rcases hhist with hhist | ⟨source, e, -, hm, rfl⟩
  · obtain ⟨hputs, hrest⟩ := Prod.mk.inj hhist
    obtain ⟨hsettled, -⟩ := Prod.mk.inj hrest
    rw [Routed, hputs, hsettled]
    exact h.2
  · obtain ⟨sent, done, hputs, hsettled, hsent, hdone, -⟩ := hm.history h.1
    rw [Routed, hputs, hsettled]
    refine ⟨fun p hp => ?_, fun x hx => ?_⟩
    · rcases mem_append.mp hp with hp | hp
      · exact h.2.1 p hp
      · rcases hsent with rfl | ⟨rfl, -⟩
        · cases hp
        · rw [mem_singleton.mp hp]
    · rcases mem_append.mp hx with hx | hx
      · exact h.2.2 x hx
      · rw [hdone x hx]

/-- **No request receives another's answer**, in every run whose steps keep to
`SoleAnswer`. -/
theorem events_reach_their_request {acts : List PendingAct} {t : PendingState}
    (hok : Along (pendingStep queueLimit) SoleAnswer acts newPending)
    (hrun : run (pendingStep queueLimit) acts newPending = some t) : t.Routed := by
  have hnew : newPending.RoutedInv :=
    ⟨newPending_inv, by simp [PendingState.Routed, newPending]⟩
  have ht : t.RoutedInv :=
    run_invariant_along (fun h hok hs => h.step hok hs) hnew hok hrun
  exact ht.2

end Runs

/-! ### Two requests on one session -/

def submitActs (requestId : ℕ) : List PendingAct :=
  [.enter (plainRequest requestId), .acquire requestId, .append requestId, .send requestId]

def createdEvent (id : String) : UpstreamEvent := ⟨.created, some id, none, "created"⟩

def deltaEvent (text : String) : UpstreamEvent := ⟨.other, none, none, text⟩

def completedEvent (id : String) : UpstreamEvent := ⟨.completed, some id, none, "completed"⟩

def twoRequestsRun : List PendingAct :=
  submitActs 0 ++ [.upstream 0 (createdEvent "resp_0"), .upstream 0 (deltaEvent "a")] ++
    submitActs 1 ++ [.upstream 1 (createdEvent "resp_1"), .detach 0,
      .upstream 0 (completedEvent "resp_0"), .upstream 1 (deltaEvent "b"),
      .upstream 1 (completedEvent "resp_1")]

theorem events_reach_two_requests :
    ∃ t, run (pendingStep 8) twoRequestsRun newPending = some t ∧
      Along (pendingStep 8) SoleAnswer twoRequestsRun newPending ∧
      t.settled = [(1, 1)] ∧ t.Routed := by
  have hrun : run (pendingStep 8) twoRequestsRun newPending = some _ := rfl
  have hok : Along (pendingStep 8) SoleAnswer twoRequestsRun newPending := by decide
  exact ⟨_, hrun, hok, by decide, events_reach_their_request hok hrun⟩

def detachBeforeCreated : List PendingAct :=
  submitActs 0 ++ [.detach 0] ++ submitActs 1 ++ [.upstream 0 (createdEvent "resp_0"),
    .upstream 0 (completedEvent "resp_0")]

/-- The second request is given the response of the first, and is settled by it. -/
theorem detached_response_reaches_next :
    ∃ t, run (pendingStep 8) detachBeforeCreated newPending = some t ∧
      ⟨1, 0, createdEvent "resp_0"⟩ ∈ t.puts ∧ (1, 0) ∈ t.settled ∧ ¬t.Routed := by
  refine ⟨_, rfl, ?_, ?_, fun hrouted => ?_⟩
  · decide
  · decide
  · exact absurd (hrouted.2 (1, 0) (by decide)) (by decide)

end CodexOctopus

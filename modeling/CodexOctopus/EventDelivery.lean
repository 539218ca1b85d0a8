import CodexOctopus.EventRouting

/-!
# Which upstream events are lost

A request that is still attached gets every event that upstream emits for it, once and in
order, if an event without response id comes only while one request is pending
(`no_event_lost`). With two of them streaming, the proxy cannot tell whose such an event is
and drops it (`delta_of_two_streams_lost`).
-/

namespace CodexOctopus

open List Lts

def PendingState.eventQueue (s : PendingState) (requestId : ℕ) : List UpstreamEvent :=
  (s.puts.filter (·.queue = requestId)).map QueuePut.event

def PendingState.emittedFor (s : PendingState) (requestId : ℕ) : List UpstreamEvent :=
  (s.emitted.filter (·.1 = requestId)).map Prod.snd

/-- **No event is lost**, doubled, out of order or of another request. -/
def PendingState.Delivered (s : PendingState) : Prop :=
  ∀ requestId, s.eventQueue requestId = s.emittedFor requestId

/-- An event without response id for an attached request comes while one request is
pending. -/
def AloneWithoutId (s : PendingState) : PendingAct → Prop
  | .upstream source e =>
    e.responseId = none → source ∉ s.detached → s.pending.length = 1
  | _ => True

instance decidableAloneWithoutId (s : PendingState) : ∀ a, Decidable (AloneWithoutId s a)
  | .upstream _ _ => by dsimp only [AloneWithoutId]; infer_instance
  | .reopen _ _ | .enter _ | .acquire _ | .leave _ _ | .append _ | .send _ | .sendFailed _ _
  | .interrupt _ | .prewarmFailed _ | .detach _ | .lost _ | .resend _ | .resendFailed _ =>
    .isTrue trivial

def PendingState.DeliveredInv (s : PendingState) : Prop := s.Inv ∧ s.Delivered

section

variable {queueLimit : ℕ} {s s' : PendingState}

theorem PendingState.Delivered.upstream {source : ℕ} {e : UpstreamEvent} (hd : s.Delivered)
    (h : s.Inv) (hm : s.Matched source e) (hone : AloneWithoutId s (.upstream source e)) :
    (s.upstream source e).Delivered := by
  obtain ⟨sent, done, hputs, -, hsent, -, hreach⟩ := hm.history h
  have hemitted : (s.upstream source e).emitted =
      if source ∈ s.detached then s.emitted else s.emitted ++ [(source, e)] := rfl
  intro requestId
  rw [eventQueue, emittedFor, hputs, hemitted]
  by_cases hdet : source ∈ s.detached
  · have hnil : sent = [] := hsent.resolve_right fun hs => hs.2 hdet
    rw [if_pos hdet, hnil, append_nil]
    exact hd requestId
  · have hcons := hsent.resolve_left (hreach hdet fun hid => hone hid hdet)
    rw [if_neg hdet, hcons.1, filter_append, filter_append, map_append,
      map_append]
    -- both histories grow by the event, for its source only
    have hlast : ([⟨source, source, e⟩] : List QueuePut).filter (·.queue = requestId) =
        if source = requestId then [⟨source, source, e⟩] else [] := by
      simp [filter_cons]
    have hlast' : ([(source, e)] : List (ℕ × UpstreamEvent)).filter (·.1 = requestId) =
        if source = requestId then [(source, e)] else [] := by
      simp [filter_cons]
    rw [hlast, hlast']
    refine congrArg₂ _ (hd requestId) ?_
    split <;> rfl

theorem PendingState.DeliveredInv.step {a : PendingAct} (h : s.DeliveredInv)
    (hok : SoleAnswer s a ∧ AloneWithoutId s a) (hs : pendingStep queueLimit s a = some s') :
    s'.DeliveredInv := by
  obtain ⟨hinv, hhist⟩ := pendingStep_spec h.1 hok.1 hs
  refine ⟨hinv, ?_⟩
  rcases hhist with hhist | ⟨source, e, rfl, hm, rfl⟩
  · obtain ⟨hputs, hrest⟩ := Prod.mk.inj hhist
    obtain ⟨-, hemitted⟩ := Prod.mk.inj hrest
    intro requestId
    rw [eventQueue, emittedFor, hputs, hemitted]
    exact h.2 requestId
  · exact h.2.upstream h.1 hm hok.2

/-- **Attached requests get all their events**, in every run whose steps keep to
`SoleAnswer` and `AloneWithoutId`. -/
theorem no_event_lost {acts : List PendingAct} {t : PendingState}
    (hok : Along (pendingStep queueLimit) (fun s a => SoleAnswer s a ∧ AloneWithoutId s a)
      acts newPending)
    (hrun : run (pendingStep queueLimit) acts newPending = some t) : t.Delivered := by
  have hnew : newPending.DeliveredInv := ⟨newPending_inv, fun _ => rfl⟩
  have ht : t.DeliveredInv :=
    run_invariant_along (fun h hok hs => h.step hok hs) hnew hok hrun
  exact ht.2

end

def pipelinedRun : List PendingAct :=
  submitActs 0 ++ [.upstream 0 (createdEvent "resp_0"), .upstream 0 (deltaEvent "a")] ++
    submitActs 1 ++ [.upstream 0 (completedEvent "resp_0"),
      .upstream 1 (createdEvent "resp_1"), .upstream 1 (deltaEvent "b"),
      .upstream 1 (completedEvent "resp_1")]

theorem no_event_lost_pipelined :
    ∃ t, run (pendingStep 8) pipelinedRun newPending = some t ∧
      Along (pendingStep 8) (fun s a => SoleAnswer s a ∧ AloneWithoutId s a) pipelinedRun
        newPending ∧
      t.eventQueue 1 = [createdEvent "resp_1", deltaEvent "b", completedEvent "resp_1"] ∧
      t.Delivered := by
  have hrun : run (pendingStep 8) pipelinedRun newPending = some _ := rfl
  have hok : Along (pendingStep 8) (fun s a => SoleAnswer s a ∧ AloneWithoutId s a)
    pipelinedRun newPending := by decide
  exact ⟨_, hrun, hok, by decide, no_event_lost hok hrun⟩

def twoStreamsRun : List PendingAct :=
  submitActs 0 ++ [.upstream 0 (createdEvent "resp_0")] ++ submitActs 1 ++
    [.upstream 0 (deltaEvent "a"), .upstream 0 (completedEvent "resp_0")]

/-- With an upstream that gives the id with `response.created` and terminal events only,
the first request loses its text. -/
theorem delta_of_two_streams_lost :
    ∃ t, run (pendingStep 8) twoStreamsRun newPending = some t ∧
      (∀ x ∈ t.emitted,
        x.2.responseId.isSome = (decide (x.2.type = .created) || x.2.type.isTerminal)) ∧
      t.emittedFor 0 = [createdEvent "resp_0", deltaEvent "a", completedEvent "resp_0"] ∧
      t.eventQueue 0 = [createdEvent "resp_0", completedEvent "resp_0"] ∧ 0 ∉ t.detached ∧
      ¬t.Delivered := by
  refine ⟨_, rfl, ?_, ?_, ?_, ?_, fun hdelivered => ?_⟩
  · decide
  · decide
  · decide
  · decide
  · exact absurd (hdelivered 0) (by decide)

end CodexOctopus

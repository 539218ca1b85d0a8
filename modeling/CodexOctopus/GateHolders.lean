import CodexOctopus.WebsocketProxy
import Mathlib.Algebra.Order.Group.Nat

/-!
# Who holds the create gate

`HeldOnly` says which pending request may hold the gate. The lemmas follow it, and the number
of permits, through the changes that the websocket proxy makes to its deque; `text_spec` does
so for the processing of an upstream event, which never gives the gate to another request.
-/

namespace CodexOctopus

open List Option

def gateHeld (pending : List RequestState) : Bool := pending.any (·.gateAcquired)

/-! ## Who holds the gate -/

def HeldOnly (pending : List RequestState) (id : Option ℕ) : Prop :=
  ∀ q ∈ pending, q.gateAcquired = true → id = some q.requestId

section Held

variable {l : List RequestState} {o : Option ℕ} {r : RequestState}

theorem heldOnly_none_iff : HeldOnly l none ↔ gateHeld l = false := by
  simp [HeldOnly, gateHeld]

theorem heldOnly_nil : HeldOnly [] o := by
  simp [HeldOnly]

theorem HeldOnly.of_none (h : HeldOnly l none) : HeldOnly l o := fun q hq hg =>
  absurd (h q hq hg) (by simp)

theorem HeldOnly.of_sub {l' : List RequestState} (h : HeldOnly l o)
    (hsub : ∀ q ∈ l', q.gateAcquired = true →
      ∃ p ∈ l, p.gateAcquired = true ∧ p.requestId = q.requestId) : HeldOnly l' o := by
  intro q hq hg
  obtain ⟨p, hp, hpg, hid⟩ := hsub q hq hg
  rw [h p hp hpg, hid]

theorem HeldOnly.filter {p : RequestState → Bool} (h : HeldOnly l o) : HeldOnly (l.filter p) o :=
  h.of_sub fun q hq hg => ⟨q, (mem_filter.mp hq).1, hg, rfl⟩

variable {f : RequestState → RequestState} {id : ℕ}

theorem HeldOnly.setRequest (h : HeldOnly l o) (hid : ∀ q, (f q).requestId = q.requestId)
    (hf : ∀ q, (f q).gateAcquired = true → q.gateAcquired = true) :
    HeldOnly (setRequest id f l) o := by
  refine h.of_sub fun q hq hg => ?_
  rcases mem_setRequest hq with ⟨p, hp, -, rfl⟩ | ⟨hp, -⟩
  · exact ⟨p, hp, hf p hg, (hid p).symm⟩
  · exact ⟨q, hp, hg, rfl⟩

theorem HeldOnly.removeRequest (h : HeldOnly l (some id)) :
    HeldOnly (removeRequest id l) none := by
  intro q hq hg
  obtain ⟨hq, hne⟩ := mem_removeRequest.mp hq
  exact absurd (some.inj (h q hq hg)).symm hne

theorem HeldOnly.release (h : HeldOnly l (some id)) :
    HeldOnly (CodexOctopus.setRequest id ({ · with gateAcquired := false }) l) none := by
  intro q hq hg
  rcases mem_setRequest hq with ⟨p, -, -, rfl⟩ | ⟨hq, hne⟩
  · cases hg
  · exact absurd (some.inj (h q hq hg)).symm hne

theorem permit_le_permits (hr : r ∈ l) : r.permit ≤ permits l :=
  le_sum_of_mem (mem_map_of_mem hr)

theorem heldOnly_of_permits_eq_zero (h : permits l = 0) : HeldOnly l none := by
  intro q hq hg
  have hle := permit_le_permits hq
  have hone : q.permit = 1 := by simp [RequestState.permit, hg]
  omega

/-! ## Permits -/

theorem permits_filter_add (p : RequestState → Bool) (l : List RequestState) :
    permits (l.filter p) + permits (l.filter fun q => !p q) = permits l := by
  rw [← permits_append, permits, permits]
  exact ((filter_append_perm p l).map _).sum_eq

theorem permits_removeRequest (id : ℕ) (l : List RequestState) :
    permits (removeRequest id l) + permits (l.filter (·.requestId = id)) = permits l := by
  rw [Nat.add_comm, ← permits_filter_add (·.requestId = id) l, removeRequest]
  simp

theorem permit_add_le (hr : r ∈ l) :
    permits (removeRequest r.requestId l) + r.permit ≤ permits l := by
  have hsum := permits_removeRequest r.requestId l
  have hmem : r ∈ l.filter (·.requestId = r.requestId) := mem_filter.mpr ⟨hr, by simp⟩
  have hle := permit_le_permits hmem
  omega

theorem permits_setRequest_eq (hf : ∀ q, (f q).gateAcquired = q.gateAcquired)
    (l : List RequestState) :
    permits (setRequest id f l) = permits l := by
  rw [permits, setRequest, Table.updateWhere, List.map_map]
  refine congrArg List.sum (List.map_congr_left fun q _ => ?_)
  by_cases hid : q.requestId = id <;> simp [RequestState.permit, hid, hf]

theorem removeRequest_setRequest {i : ℕ} (hf : ∀ q, (f q).requestId = q.requestId)
    (l : List RequestState) :
    removeRequest id (setRequest i f l) = setRequest i f (removeRequest id l) := by
  rw [removeRequest, setRequest, Table.updateWhere, List.filter_map]
  refine congrArg _ (List.filter_congr fun q _ => ?_)
  by_cases hid : q.requestId = i <;> simp [hid, hf]

theorem permits_setRequest_released (hf : ∀ q, (f q).gateAcquired = false) (l : List RequestState) :
    permits (setRequest id f l) = permits (removeRequest id l) := by
  induction l with
  | nil => rfl
  | cons q l ih =>
    by_cases hid : q.requestId = id
    · simp_all [permits, setRequest, Table.updateWhere, removeRequest, RequestState.permit]
    · simp_all [permits, setRequest, Table.updateWhere, removeRequest, RequestState.permit]

end Held

/-! ## Upstream events -/

section Events

variable {l : List RequestState} {e : UpstreamEvent} {r : RequestState}

structure SameGate (l : List RequestState) (x : Option RequestState × List RequestState) :
    Prop where
  mem : ∀ q ∈ x.1, q ∈ x.2
  held : ∀ o, HeldOnly l o → HeldOnly x.2 o
  permits_eq : permits x.2 = permits l

theorem SameGate.of_mem {m : Option RequestState} (hm : ∀ q ∈ m, q ∈ l) : SameGate l (m, l) :=
  ⟨hm, fun _ h => h, rfl⟩

theorem assignResponseId_sameGate (l : List RequestState) (responseId : Option String) :
    SameGate l (assignResponseId l responseId) := by
  unfold assignResponseId
  split
  · exact .of_mem (by simp)
  · next id =>
    split
    · next q hq =>
      refine .of_mem fun p hp => ?_
      obtain rfl := mem_some.mp hp
      exact (mem_of_findByResponseId hq).1
    · split
      · exact .of_mem (by simp)
      · next q hq =>
        have hmem : q ∈ l := (mem_unresolvedRequests.mp (mem_of_mem_head? hq)).1
        refine ⟨fun p hp => ?_, fun o h => h.setRequest (fun _ => rfl) (fun _ hg => hg), ?_⟩
        · obtain rfl := mem_some.mp hp
          exact setRequest_of_eq (f := ({ · with responseId := some id })) hmem
        · refine permits_setRequest_eq ?_ l
          exact fun _ => rfl

theorem websocketMatch_sameGate (l : List RequestState) (e : UpstreamEvent) :
    SameGate l (websocketMatch l e) := by
  unfold websocketMatch
  split
  · exact assignResponseId_sameGate l e.responseId
  · split
    · next q hq =>
      refine .of_mem fun p hp => ?_
      obtain rfl := mem_some.mp hp
      obtain ⟨id, -, hfind⟩ := bind_eq_some_iff.mp hq
      exact (mem_of_findByResponseId hfind).1
    · exact .of_mem fun p hp => by simpa using (mem_some.mp hp).symm
    · exact .of_mem (by simp)

theorem websocketMatch_of_terminal (ht : e.type.isTerminal = true) :
    (websocketMatch l e).2 = l := by
  have hne : e.type ≠ .created := by
    intro hc
    rw [hc] at ht
    cases ht
  unfold websocketMatch
  rw [if_neg hne]
  split <;> rfl

theorem websocketTerminal_eq_some (h : websocketTerminal l e = some r) :
    r ∈ l ∧ e.type.isTerminal = true := by
  simp only [websocketTerminal] at h
  split at h
  · next ht =>
    rw [websocketMatch_of_terminal ht] at h
    exact ⟨mem_of_terminalRequest h, ht⟩
  · cases h

theorem replayTarget_eq_some (h : replayTarget l e = some r) :
    r ∈ l ∧ removeRequest r.requestId l = [] := by
  obtain ⟨hterm, hcond⟩ := filter_eq_some_iff.mp h
  have hmem := (websocketTerminal_eq_some hterm).1
  simp only [Bool.and_eq_true, decide_eq_true_eq] at hcond
  obtain ⟨q, rfl⟩ := length_eq_one_iff.mp hcond.2
  obtain rfl := mem_singleton.mp hmem
  exact ⟨hmem, by simp [removeRequest]⟩

end Events

/-! ## Processing an event -/

namespace WebsocketState

variable {s : WebsocketState} {e : UpstreamEvent}

structure TextSpec (s : WebsocketState) (e : UpstreamEvent) (s' : WebsocketState) : Prop where
  main : s'.main = s.main
  reader : ∃ penalize, s'.reader = some (.settling penalize)
  upstreamOpen : s'.upstreamOpen = s.upstreamOpen
  held : ∀ o, HeldOnly s.pending o → HeldOnly s'.pending o
  gate : s'.gatePermits + permits s'.pending ≤ s.gatePermits + permits s.pending
  replay : s'.replayRequest = s.replayRequest ∨ ∃ r, replayTarget s.pending e = some r ∧
    s'.replayRequest = some r.requestId ∧ HeldOnly s'.pending (some r.requestId)

theorem text_of_replay {r : RequestState} (hr : replayTarget s.pending e = some r) :
    TextSpec s e (s.text e) := by
  obtain ⟨hmem, hnil⟩ := replayTarget_eq_some hr
  have hle := permit_le_permits hmem
  have hone : permits [{ r with responseId := none }] = r.permit := by
    simp [permits, RequestState.permit]
  simp only [text, hr, hnil]
  refine ⟨rfl, ⟨_, rfl⟩, rfl, fun o h => ?_, ?_, .inr ⟨r, hr, rfl, ?_⟩⟩
  · refine h.of_sub fun q hq hg => ?_
    obtain rfl := mem_singleton.mp hq
    exact ⟨r, hmem, hg, rfl⟩
  · exact Nat.add_le_add_left (hone ▸ hle) _
  · intro q hq _
    rw [mem_singleton.mp hq]

theorem text_of_terminal {r : RequestState} (hr : replayTarget s.pending e = none)
    (ht : websocketTerminal s.pending e = some r) : TextSpec s e (s.text e) := by
  obtain ⟨hmem, hterm⟩ := websocketTerminal_eq_some ht
  have hpending := websocketMatch_of_terminal (l := s.pending) hterm
  rcases hm : websocketMatch s.pending e with ⟨matched, pending⟩
  rw [hm] at hpending
  obtain rfl : pending = s.pending := hpending
  have hle := permit_add_le hmem
  simp only [text, hr, ht, hm]
  cases matched with
  | none =>
    refine ⟨rfl, ⟨_, rfl⟩, rfl, fun o h => h.filter, ?_, .inl rfl⟩
    dsimp only [Option.elim]
    omega
  | some q =>
    refine ⟨rfl, ⟨_, rfl⟩, rfl, fun o h => ?_, ?_, .inl rfl⟩
    · refine HeldOnly.filter (HeldOnly.setRequest h ?_ ?_)
      · exact fun _ => rfl
      · exact fun _ hg => hg
    · dsimp only [Option.elim]
      rw [removeRequest_setRequest, permits_setRequest_eq]
      · omega
      · exact fun _ => rfl
      · exact fun _ => rfl

theorem text_of_match {q : RequestState} {pending : List RequestState}
    (hr : replayTarget s.pending e = none) (ht : websocketTerminal s.pending e = none)
    (hm : websocketMatch s.pending e = (some q, pending)) : TextSpec s e (s.text e) := by
  have hsame := websocketMatch_sameGate s.pending e
  rw [hm] at hsame
  have hmem : q ∈ pending := hsame.mem q rfl
  have hpermits : permits pending = permits s.pending := hsame.permits_eq
  have hle := permit_add_le hmem
  simp only [text, hr, ht, hm]
  refine ⟨rfl, ⟨_, rfl⟩, rfl, fun o h => ?_, ?_, .inl rfl⟩
  · refine (hsame.held o h).setRequest (fun _ => rfl) fun p hg => ?_
    exact (Bool.and_eq_true_iff.mp hg).1
  · by_cases hc : e.type = .created
    · simp only [hc, ne_eq, not_true_eq_false, decide_false, Bool.and_false, if_true]
      rw [permits_setRequest_released]
      · omega
      · exact fun _ => rfl
    · simp only [hc, ne_eq, not_false_eq_true, decide_true, Bool.and_true, if_false]
      rw [permits_setRequest_eq]
      · omega
      · exact fun _ => rfl

theorem text_spec (s : WebsocketState) (e : UpstreamEvent) : TextSpec s e (s.text e) := by
  rcases hr : replayTarget s.pending e with _ | r
  · rcases ht : websocketTerminal s.pending e with _ | r
    · rcases hm : websocketMatch s.pending e with ⟨_ | q, pending⟩
      · have hsame := websocketMatch_sameGate s.pending e
        rw [hm] at hsame
        simp only [text, hr, ht, hm]
        exact ⟨rfl, ⟨_, rfl⟩, rfl, hsame.held,
          Nat.le_of_eq (congrArg (s.gatePermits + ·) hsame.permits_eq), .inl rfl⟩
      · exact text_of_match hr ht hm
    · exact text_of_terminal hr ht
  · exact text_of_replay hr

end WebsocketState

end CodexOctopus

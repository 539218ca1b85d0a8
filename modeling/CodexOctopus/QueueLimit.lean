import CodexOctopus.SocketSession

/-!
# The queue limit of a bridge session

`queued_request_count` goes up by one when a client request passes the queue check, and down
on each path on which a request ends. Some of these paths are shared with prewarm requests,
which were not counted, or are taken a second time for a request that has ended already; and
the reader resets the counter when it has lost the upstream, whether or not a submit is still
waiting for the gate.

* `SocketSession.decrements` is the request for which a step decrements the counter.
-/

namespace CodexOctopus

open List Table Lts

/-! ## Requests that count -/

def Submit.isQueued (t : Submit) : Bool :=
  !t.request.prewarm && (t.phase = .waiting || t.phase = .admitted)

def isCounted (dropped : List ℕ) (r : RequestState) : Bool :=
  !r.prewarm && r.requestId ∉ dropped

namespace SocketSession

/-- The client requests that passed the queue check and have not ended. -/
def active (s : SocketSession) : ℕ :=
  s.submits.countP Submit.isQueued + s.pending.countP (isCounted s.dropped)

def isActive (s : SocketSession) (id : ℕ) : Bool :=
  s.submits.any (fun t => t.requestId = id && t.isQueued) ||
    s.pending.any fun r => r.requestId = id && isCounted s.dropped r

end SocketSession

/-- **The counter is right.** -/
def QueueCountRight (queueLimit : ℕ) (s : SocketSession) : Prop :=
  s.queuedRequestCount = s.active ∧ s.active ≤ queueLimit

/-- **The condition** on steps: a decrement is for a request that counts, or the counter is 0; the
reader resets the counter while no client request waits for the gate, and fails the requests that
were in the deque. -/
def CountsRight (s : SocketSession) (a : SocketAct) : Prop :=
  (∀ id ∈ s.decrements a, s.isActive id = true ∨ s.queuedRequestCount = 0) ∧
    match a with
    | .reader _ .reset => s.submits.countP Submit.isQueued = 0
    | .reader _ .failAll => s.pending.countP (isCounted s.dropped) = 0
    | _ => True

instance decidableCountsRight (s : SocketSession) (a : SocketAct) : Decidable
    (CountsRight s a) := by
  refine @instDecidableAnd _ _ inferInstance ?_
  split <;> infer_instance

/-! ## The invariant -/

theorem isQueued_of_phase {t : Submit} (hphase : t.phase.isBefore = false) : t.isQueued =
    false := by
  rcases t with ⟨r, phase⟩
  cases phase with
  | waiting => cases hphase
  | admitted => cases hphase
  | _ => simp [Submit.isQueued]

/-- **The counter**, with what is known of the ids. -/
structure Counted (queueLimit : ℕ) (submits : List Submit) (pending : List RequestState)
    (requestIds dropped : List ℕ) (count : ℕ) : Prop where
  submits_unique : Unique Submit.requestId submits
  pending_unique : Unique RequestState.requestId pending
  submits_known : ∀ t ∈ submits, t.requestId ∈ requestIds
  pending_known : ∀ r ∈ pending, r.requestId ∈ requestIds
  dropped_known : ∀ id ∈ dropped, id ∈ requestIds
  client : ∀ t ∈ submits, t.phase = .reopening ∨ t.phase = .checking → t.request.prewarm = false
  before : ∀ t ∈ submits, t.phase.isBefore = true →
    (∀ r ∈ pending, r.requestId ≠ t.requestId) ∧ t.requestId ∉ dropped
  counts : count = submits.countP Submit.isQueued + pending.countP (isCounted dropped)
  limit : count ≤ queueLimit

def SocketSession.Counted (queueLimit : ℕ) (s : SocketSession) : Prop :=
  CodexOctopus.Counted queueLimit s.submits s.pending s.requestIds s.dropped s.queuedRequestCount

theorem newSocketSession_counted (queueLimit : ℕ) : newSocketSession.Counted queueLimit where
  submits_unique := nodup_nil
  pending_unique := nodup_nil
  submits_known := nofun
  pending_known := nofun
  dropped_known := nofun
  client := nofun
  before := nofun
  counts := rfl
  limit := Nat.zero_le _

namespace Counted

variable {queueLimit : ℕ} {submits : List Submit} {pending : List RequestState}
  {requestIds dropped : List ℕ} {count id : ℕ} {t : Submit} {r : RequestState} {phase : SubmitPhase}

/-! ### Submits -/

theorem add (h : Counted queueLimit submits pending requestIds dropped count)
    (hnew : t.requestId ∉ requestIds) (hq : t.isQueued = false)
    (hclient : t.phase = .reopening ∨ t.phase = .checking → t.request.prewarm = false) :
    Counted queueLimit (submits ++ [t]) pending (t.requestId :: requestIds) dropped count := by
  have hmem : ∀ u ∈ submits ++ [t], u ∈ submits ∨ u = t := by simp
  have hlookup : lookup Submit.requestId submits t.requestId = none :=
    lookup_eq_none_iff.mpr fun u hu heq => hnew (heq ▸ h.submits_known u hu)
  refine ⟨h.submits_unique.append_singleton hlookup, h.pending_unique, fun u hu => ?_,
    fun q hq => mem_cons_of_mem _ (h.pending_known q hq),
    fun id hid => mem_cons_of_mem _ (h.dropped_known id hid), fun u hu hphase => ?_,
    fun u hu hphase => ?_, ?_, h.limit⟩
  · rcases hmem u hu with hu | rfl
    · exact mem_cons_of_mem _ (h.submits_known u hu)
    · exact mem_cons_self
  · rcases hmem u hu with hu | rfl
    · exact h.client u hu hphase
    · exact hclient hphase
  · rcases hmem u hu with hu | rfl
    · exact h.before u hu hphase
    · exact ⟨fun q hq heq => hnew (heq ▸ h.pending_known q hq),
        fun hd => hnew (h.dropped_known _ hd)⟩
  · rw [countP_append, countP_singleton, hq]
    exact h.counts

theorem mem_setPhase (hu : Unique Submit.requestId submits)
    (ht : lookup Submit.requestId submits id = some t) {u : Submit}
    (h : u ∈ updateWhere (fun x => x.requestId = id) ({ · with phase := phase }) submits) :
    u ∈ submits ∨ u = { t with phase := phase } := by
  obtain ⟨v, hv, rfl⟩ := mem_updateWhere.mp h
  by_cases hid : v.requestId = id
  · obtain rfl := hu.eq_of_key_eq hv (mem_of_lookup ht) (hid.trans (key_of_lookup ht).symm)
    exact .inr (by simp [hid])
  · exact .inl (by simpa [hid] using hv)

variable {count' : ℕ}

theorem setPhase (h : Counted queueLimit submits pending requestIds dropped count)
    (ht : lookup Submit.requestId submits id = some t)
    (hbefore : phase.isBefore = true → t.phase.isBefore = true)
    (hclient : phase = .reopening ∨ phase = .checking → t.request.prewarm = false)
    (hcount : count' + (if t.isQueued then 1 else 0) =
      count + if Submit.isQueued { t with phase := phase } then 1 else 0)
    (hlimit : count' ≤ queueLimit) :
    Counted queueLimit (updateWhere (fun x => x.requestId = id) ({ · with phase := phase })
      submits) pending requestIds dropped count' := by
  have hmem : t ∈ submits := mem_of_lookup ht
  refine ⟨h.submits_unique.update fun _ => rfl, h.pending_unique, fun u hu => ?_,
    h.pending_known, h.dropped_known, fun u hu hphase => ?_, fun u hu hphase => ?_, ?_, hlimit⟩
  · rcases mem_setPhase h.submits_unique ht hu with hu | rfl
    · exact h.submits_known u hu
    · exact h.submits_known t hmem
  · rcases mem_setPhase h.submits_unique ht hu with hu | rfl
    · exact h.client u hu hphase
    · exact hclient hphase
  · rcases mem_setPhase h.submits_unique ht hu with hu | rfl
    · exact h.before u hu hphase
    · exact h.before t hmem (hbefore hphase)
  · have hold := h.submits_unique.countP_eq hmem Submit.isQueued
    have hnew := h.submits_unique.countP_updateWhere (f := ({ · with phase := phase })) hmem
      Submit.isQueued
    rw [key_of_lookup ht] at hold hnew
    have := h.counts
    omega

theorem goOn (h : Counted queueLimit submits pending requestIds dropped count)
    (ht : lookup Submit.requestId submits id = some t)
    (hold : t.phase.isBefore = false) (hnew : phase.isBefore = false) :
    Counted queueLimit (updateWhere (fun x => x.requestId = id) ({ · with phase := phase })
      submits) pending requestIds dropped count := by
  have hq : Submit.isQueued { t with phase := phase } = false := isQueued_of_phase hnew
  refine h.setPhase ht (fun hb => ?_) (fun hp => ?_) (by rw [isQueued_of_phase hold, hq]) h.limit
  · rw [hnew] at hb
    cases hb
  · rcases hp with rfl | rfl
    all_goals cases hnew

theorem endSubmit (h : Counted queueLimit submits pending requestIds dropped count)
    (ht : lookup Submit.requestId submits id = some t)
    (hcount : count' + (if t.isQueued then 1 else 0) = count) :
    Counted queueLimit (submits.filter (·.requestId ≠ id)) pending requestIds dropped count' := by
  have hmem : ∀ u ∈ submits.filter (·.requestId ≠ id), u ∈ submits := fun u hu =>
    mem_of_mem_filter hu
  have hold := h.submits_unique.countP_eq (mem_of_lookup ht) Submit.isQueued
  rw [key_of_lookup ht] at hold
  have hc := h.counts
  have hl := h.limit
  exact { h with
    submits_unique := h.submits_unique.sublist (filter_sublist.map _)
    submits_known := fun u hu => h.submits_known u (hmem u hu)
    client := fun u hu => h.client u (hmem u hu)
    before := fun u hu => h.before u (hmem u hu)
    counts := by omega
    limit := by omega }

/-! ### The deque -/

section

variable (h : Counted queueLimit submits pending requestIds dropped count)
include h

theorem append (hl : lookup Submit.requestId submits id = some t) (hphase : t.phase = .admitted)
    (hid : r.requestId = t.requestId) (hprewarm : r.prewarm = t.request.prewarm) :
    Counted queueLimit (updateWhere (fun x => x.requestId = id) ({ · with phase := .sending })
      submits) (pending ++ [r]) requestIds dropped count := by
  have ht : t ∈ submits := mem_of_lookup hl
  obtain rfl : t.requestId = id := key_of_lookup hl
  obtain ⟨hother, hdropped⟩ := h.before t ht (by rw [hphase]; rfl)
  have hlookup : lookup RequestState.requestId pending r.requestId = none :=
    lookup_eq_none_iff.mpr fun q hq heq => hother q hq (heq.trans hid)
  have hmem : ∀ q ∈ pending ++ [r], q ∈ pending ∨ q = r := by simp
  refine ⟨h.submits_unique.update fun _ => rfl, h.pending_unique.append_singleton hlookup,
    fun u hu => ?_, fun q hq => ?_, h.dropped_known, fun u hu hp => ?_, fun u hu hp => ?_, ?_,
    h.limit⟩
  · rcases mem_setPhase h.submits_unique hl hu with hu | rfl
    · exact h.submits_known u hu
    · exact h.submits_known t ht
  · rcases hmem q hq with hq | rfl
    · exact h.pending_known q hq
    · exact hid ▸ h.submits_known t ht
  · rcases mem_setPhase h.submits_unique hl hu with hu | rfl
    · exact h.client u hu hp
    · simp at hp
  · -- another submit that is not in the deque yet, for another request
    have hne : u.requestId ≠ t.requestId := by
      intro heq
      obtain ⟨v, hv, rfl⟩ := mem_updateWhere.mp hu
      by_cases hv' : v.requestId = t.requestId
      · simp [hv', SubmitPhase.isBefore] at hp
      · simp [hv'] at heq
    rcases mem_setPhase h.submits_unique hl hu with hu | rfl
    · refine ⟨fun q hq => ?_, (h.before u hu hp).2⟩
      rcases hmem q hq with hq | rfl
      · exact (h.before u hu hp).1 q hq
      · exact fun heq => hne (heq.symm.trans hid)
    · exact absurd rfl hne
  · have hold := h.submits_unique.countP_eq ht Submit.isQueued
    have hnew := h.submits_unique.countP_updateWhere (f := ({ · with phase := .sending })) ht
      Submit.isQueued
    have hqueued : t.isQueued = !r.prewarm := by simp [Submit.isQueued, hphase, hprewarm]
    have hsending : Submit.isQueued { t with phase := .sending } = false := by
      simp [Submit.isQueued]
    have hcounted : isCounted dropped r = !r.prewarm := by simp [isCounted, hid, hdropped]
    rw [hqueued] at hold
    rw [hsending, if_neg Bool.false_ne_true] at hnew
    rw [countP_append, countP_singleton, hcounted, hnew]
    have := h.counts
    omega

theorem remove (hr : r ∈ pending) (hcount : count' + (if isCounted dropped r then 1 else 0) = count)
    :
    Counted queueLimit submits (removeRequest r.requestId pending) requestIds dropped count' := by
  have hmem : ∀ q ∈ removeRequest r.requestId pending, q ∈ pending := fun q hq =>
    (mem_removeRequest.mp hq).1
  have hold : pending.countP (isCounted dropped) =
      (removeRequest r.requestId pending).countP (isCounted dropped) +
        if isCounted dropped r then 1 else 0 := h.pending_unique.countP_eq hr _
  have hc := h.counts
  have hl := h.limit
  exact { h with
    pending_unique := h.pending_unique.sublist (filter_sublist.map _)
    pending_known := fun q hq => h.pending_known q (hmem q hq)
    before := fun u hu hp =>
      ⟨fun q hq => (h.before u hu hp).1 q (hmem q hq), (h.before u hu hp).2⟩
    counts := by omega
    limit := by omega }

theorem decrement (hr : r ∈ pending) (hcounted : isCounted dropped r = true ∨ count = 0) :
    Counted queueLimit submits (removeRequest r.requestId pending) requestIds dropped
      (count - 1) := by
  refine h.remove hr ?_
  by_cases hc : isCounted dropped r = true
  · have hpos := countP_pos_iff.mpr ⟨r, hr, hc⟩
    have := h.counts
    rw [if_pos hc]
    omega
  · rw [if_neg hc, hcounted.resolve_left hc]

theorem setRequest {id : ℕ} {f : RequestState → RequestState}
    (hf : ∀ q : RequestState, (f q).requestId = q.requestId ∧ (f q).prewarm = q.prewarm) :
    Counted queueLimit submits (CodexOctopus.setRequest id f pending) requestIds dropped count := by
  have horigin : ∀ q ∈ CodexOctopus.setRequest id f pending, ∃ p ∈ pending,
      q.requestId = p.requestId := by
    intro q hq
    rcases mem_setRequest hq with ⟨p, hp, -, rfl⟩ | ⟨hq, -⟩
    · exact ⟨p, hp, (hf p).1⟩
    · exact ⟨q, hq, rfl⟩
  have hcount : (CodexOctopus.setRequest id f pending).countP (isCounted dropped) =
      pending.countP (isCounted dropped) := by
    rw [CodexOctopus.setRequest, updateWhere, countP_map]
    refine countP_congr fun q _ => ?_
    by_cases hid : q.requestId = id
    · simp [isCounted, hid, (hf q).1, (hf q).2]
    · simp [hid]
  refine ⟨h.submits_unique, h.pending_unique.update fun q => (hf q).1, h.submits_known,
    fun q hq => ?_, h.dropped_known, h.client, fun u hu hp =>
      ⟨fun q hq => ?_, (h.before u hu hp).2⟩,
    ?_, h.limit⟩
  · obtain ⟨p, hp, hid⟩ := horigin q hq
    exact hid ▸ h.pending_known p hp
  · obtain ⟨p, hp', hid⟩ := horigin q hq
    exact hid ▸ (h.before u hu hp).1 p hp'
  · rw [hcount]
    exact h.counts

theorem reset (hnone : submits.countP Submit.isQueued = 0) :
    Counted queueLimit submits pending requestIds
      (pending.map RequestState.requestId ++ dropped) 0 := by
  have hcounted : pending.countP (isCounted (pending.map RequestState.requestId ++ dropped)) =
    0 := by
    refine countP_eq_zero.mpr fun r hr => ?_
    simp [isCounted, mem_map_of_mem hr]
  refine ⟨h.submits_unique, h.pending_unique, h.submits_known, h.pending_known, fun id hid => ?_,
    h.client, fun u hu hp => ⟨(h.before u hu hp).1, fun hid => ?_⟩, by rw [hnone, hcounted],
    Nat.zero_le _⟩
  · rcases mem_append.mp hid with hid | hid
    · obtain ⟨r, hr, rfl⟩ := mem_map.mp hid
      exact h.pending_known r hr
    · exact h.dropped_known id hid
  · rcases mem_append.mp hid with hid | hid
    · obtain ⟨r, hr, heq⟩ := mem_map.mp hid
      exact (h.before u hu hp).1 r hr heq
    · exact (h.before u hu hp).2 hid

theorem clear (hnone : pending.countP (isCounted dropped) = 0) :
    Counted queueLimit submits [] requestIds dropped count := { h with
  pending_unique := nodup_nil
  pending_known := nofun
  before u hu hp := ⟨nofun, (h.before u hu hp).2⟩
  counts := by rw [h.counts, hnone, countP_nil] }

end

end Counted

/-! ## Steps -/

namespace SocketSession.Counted

variable {queueLimit : ℕ} {s s' : SocketSession} {a : SocketAct} {t : Submit}

variable {id : ℕ}

theorem isActive_cases (hactive : s.isActive id = true) :
    (∃ t ∈ s.submits, t.requestId = id ∧ t.isQueued = true) ∨
      ∃ r ∈ s.pending, r.requestId = id ∧ isCounted s.dropped r = true := by
  simpa only [SocketSession.isActive, Bool.or_eq_true, any_eq_true, Bool.and_eq_true,
    decide_eq_true_eq] using hactive

section

variable (h : s.Counted queueLimit)
include h

theorem mem_of_isActive (ht : t ∈ s.submits) (hq : t.isQueued = false)
    (hactive : s.isActive t.requestId = true) :
    ∃ r ∈ s.pending, r.requestId = t.requestId ∧ isCounted s.dropped r = true := by
  rcases isActive_cases hactive with ⟨u, hu, hid, hqueued⟩ | hr
  · rw [h.submits_unique.eq_of_key_eq hu ht hid, hq] at hqueued
    cases hqueued
  · exact hr

theorem isCounted_of_isActive {r : RequestState} (hr : r ∈ s.pending)
    (hactive : s.isActive r.requestId = true) : isCounted s.dropped r = true := by
  rcases isActive_cases hactive with ⟨u, hu, hid, hqueued⟩ | ⟨q, hq, hid, hcounted⟩
  · have hbefore : u.phase.isBefore = true := by
      by_contra hb
      rw [isQueued_of_phase (by simpa using hb)] at hqueued
      cases hqueued
    exact absurd hid.symm ((h.before u hu hbefore).1 r hr)
  · rwa [h.pending_unique.eq_of_key_eq hr hq hid.symm]

theorem cleanup (ht : s.submit id = some t) (hq : t.isQueued = false)
    (hok : s.isActive id = true ∨ s.queuedRequestCount = 0) :
    ((s.endSubmit id).cleanup id).Counted queueLimit := by
  have hend : CodexOctopus.Counted queueLimit (s.submits.filter (·.requestId ≠ id))
      s.pending s.requestIds s.dropped s.queuedRequestCount :=
    CodexOctopus.Counted.endSubmit h ht (by simp [hq])
  obtain rfl : t.requestId = id := key_of_lookup ht
  unfold SocketSession.cleanup
  split
  · next hnone =>
    have hzero : s.queuedRequestCount = 0 := by
      refine hok.resolve_left fun ha => ?_
      obtain ⟨r, hr, hid, -⟩ := h.mem_of_isActive (mem_of_lookup ht) hq ha
      exact lookup_eq_none_iff.mp hnone r hr hid
    have hsame : s.queuedRequestCount - 1 = s.queuedRequestCount := by omega
    rw [← hsame] at hend
    exact hend
  · next r hsome =>
    have hr : r ∈ s.pending := mem_of_lookup hsome
    have hid : r.requestId = t.requestId := key_of_lookup hsome
    refine hend.decrement hr (hok.imp_left fun ha => ?_)
    exact h.isCounted_of_isActive hr (hid ▸ ha)

theorem leave (ht : s.submit id = some t) (hok : s.isActive id = true ∨ s.queuedRequestCount = 0)
    (hphase : t.phase = .waiting ∨ t.phase = .admitted) :
    CodexOctopus.Counted queueLimit (s.submits.filter (·.requestId ≠ id)) s.pending
      s.requestIds s.dropped (s.queuedRequestCount - 1) := by
  refine CodexOctopus.Counted.endSubmit h ht ?_
  have hmem : t ∈ s.submits := mem_of_lookup ht
  obtain rfl : t.requestId = id := key_of_lookup ht
  by_cases hq : t.isQueued = true
  · have hpos := countP_pos_iff.mpr ⟨t, hmem, hq⟩
    have := h.counts
    rw [if_pos hq]
    omega
  · have hzero : s.queuedRequestCount = 0 := by
      refine hok.resolve_left fun hactive => ?_
      obtain ⟨r, hr, hid, -⟩ := h.mem_of_isActive hmem (by simpa using hq) hactive
      have hbefore : t.phase.isBefore = true := by
        rcases hphase with hphase | hphase <;> rw [hphase] <;> rfl
      exact (h.before t hmem hbefore).1 r hr hid
    rw [if_neg hq, hzero]

theorem text {k : ℕ} {e : UpstreamEvent} (hok : CountsRight s (.reader k (.text e))) :
    (s.text e).Counted queueLimit := by
  rw [SocketSession.Counted]
  rcases dequeAfter_cases s.pending e with ⟨r, hr, hend, hdeque⟩ | ⟨hend, id, f, hf, hdeque⟩
  · have hcounted : isCounted s.dropped r = true ∨ s.queuedRequestCount = 0 := by
      refine (hok.1 r.requestId ?_).imp_left (h.isCounted_of_isActive hr)
      simp [SocketSession.decrements, hend]
    simp only [SocketSession.text, hdeque, hend]
    exact CodexOctopus.Counted.decrement h hr hcounted
  · simp only [SocketSession.text, hdeque, hend]
    exact CodexOctopus.Counted.setRequest h hf

/-- **Every step that meets the condition keeps the invariant.** -/
theorem step (hok : CountsRight s a) (hs : socketStep queueLimit s a = some s') :
    s'.Counted queueLimit := by
  have hc : CodexOctopus.Counted queueLimit s.submits s.pending s.requestIds s.dropped
    s.queuedRequestCount := h
  cases SocketStep.of_step hs with
  | arrive hnew hclient => exact hc.add hnew (by simp [Submit.isQueued]) fun _ => hclient
  | arriveClosed hnew hclient => exact hc.add hnew (by simp [Submit.isQueued]) fun _ => hclient
  | prewarm hnew hprewarm => exact hc.add hnew (by simp [Submit.isQueued, hprewarm]) (by simp)
  | detach hr => exact hc.decrement hr ((hok.1 _ rfl).imp_left (h.isCounted_of_isActive hr))
  | reopened ht hphase =>
    refine hc.setPhase ht (fun _ => by rw [hphase]; rfl)
      (fun _ => h.client _ (mem_of_lookup ht) (.inl hphase)) ?_ h.limit
    simp only [Submit.isQueued, hphase]
    rfl
  | refuse ht hphase =>
    refine hc.endSubmit ht ?_
    rcases hphase with hphase | hphase <;> simp [Submit.isQueued, hphase, SocketSession.endSubmit]
  | enter ht hphase hfree =>
    have hclient := h.client _ (mem_of_lookup ht) (.inr hphase)
    refine hc.setPhase ht (fun _ => by rw [hphase]; rfl) (fun _ => hclient) ?_ hfree
    simp [Submit.isQueued, hphase, hclient]
  | acquire ht hphase =>
    refine hc.setPhase ht (fun _ => by rw [hphase]; rfl) (by simp) ?_ h.limit
    simp only [Submit.isQueued, hphase]
    rfl
  | leave ht hphase hdec => exact h.leave ht (hok.1 _ hdec) hphase
  | leavePrewarm ht _ hprewarm =>
    exact hc.endSubmit ht (by simp [Submit.isQueued, hprewarm, SocketSession.endSubmit])
  | append ht hphase => exact hc.append ht hphase rfl rfl
  | sendPrewarm ht hphase => exact hc.goOn ht (by rw [hphase]; rfl) rfl
  | send ht hphase => exact hc.endSubmit ht (by rw [isQueued_of_phase hphase]; rfl)
  | retry ht hphase => exact hc.goOn ht (by rw [hphase]; rfl) rfl
  | reconnected ht hphase => exact hc.goOn ht (by rw [hphase]; rfl) rfl
  | cleanup ht hphase hdec => exact h.cleanup ht (isQueued_of_phase hphase) (hok.1 _ hdec)
  | interrupt ht hphase => exact hc.endSubmit ht (by rw [isQueued_of_phase hphase]; rfl)
  | text => exact h.text hok
  | reset => exact hc.reset hok.2
  | failAll => exact hc.clear hok.2
  | _ => exact h

end

end SocketSession.Counted

/-! ## Runs -/

/-- **The queue limit is real** in every run whose steps keep to `CountsRight`. -/
theorem queue_count_right {queueLimit : ℕ} {acts : List SocketAct} {t : SocketSession}
    (hok : Along (socketStep queueLimit) CountsRight acts newSocketSession)
    (hrun : run (socketStep queueLimit) acts newSocketSession = some t) :
    QueueCountRight queueLimit t := by
  have ht : t.Counted queueLimit :=
    run_invariant_along (fun h hok hs => h.step hok hs) (newSocketSession_counted queueLimit)
      hok hrun
  have hcount : t.queuedRequestCount = t.active := ht.counts
  exact ⟨hcount, hcount ▸ ht.limit⟩

def enterActs (id : ℕ) : List SocketAct := [.arrive (plainRequest id), .enter id]

def sendActs (id : ℕ) : List SocketAct := [.acquire id, .append id, .send id]

def readActs (type : UpstreamEventType) (responseId : String) : List SocketAct :=
  [.reader 0 (.text ⟨type, some responseId, none, ""⟩)]

def prewarmActs : List SocketAct :=
  [.arrive (plainRequest 0), .prewarm { plainRequest 1 with prewarm := true }] ++ sendActs 1 ++
    readActs .created "resp_1"

theorem queue_count_right_prewarm :
    ∃ t, run (socketStep 1) (prewarmActs ++ readActs .completed "resp_1" ++ [.enter 0] ++
        sendActs 0) newSocketSession = some t ∧
      Along (socketStep 1) CountsRight (prewarmActs ++ readActs .completed "resp_1" ++
        [.enter 0] ++ sendActs 0) newSocketSession ∧ t.active = 1 ∧ QueueCountRight 1 t := by
  have hrun : run (socketStep 1) (prewarmActs ++ readActs .completed "resp_1" ++ [.enter 0] ++
    sendActs 0) newSocketSession = some _ := rfl
  have hok : Along (socketStep 1) CountsRight (prewarmActs ++ readActs .completed "resp_1" ++
    [.enter 0] ++ sendActs 0) newSocketSession := by decide
  exact ⟨_, hrun, hok, by decide, queue_count_right hok hrun⟩

/-- Another request passes the queue check before the prewarm ends, and two are admitted where one
is allowed. -/
theorem prewarm_admits_one_too_many :
    ∃ t, run (socketStep 1) (prewarmActs ++ enterActs 2 ++ readActs .completed "resp_1" ++
        [.enter 0]) newSocketSession = some t ∧
      t.queuedRequestCount = 1 ∧ t.active = 2 ∧ ¬QueueCountRight 1 t := by
  refine ⟨_, rfl, by decide, by decide, ?_⟩
  rintro ⟨hcount, -⟩
  revert hcount
  decide

end CodexOctopus

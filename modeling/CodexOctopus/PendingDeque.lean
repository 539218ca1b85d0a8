import CodexOctopus.PendingRequests

/-!
# The deque and the responses in progress

What the create gate and the freshness of ids keep true of a bridge session:

* `Queued` is about the requests in the deque and before it: ids are used once, the gate
  has one holder, and a request without response id holds it.
* `Answered` relates the responses in progress to the deque: a request that was sent is in
  the deque until its response is created.

For each kind of step there is a lemma saying what it needs to keep them.
-/

namespace CodexOctopus

open List Table

/-! ## What holds of the deque and of the responses in progress -/

/-- The requests in the deque (`pending`) and before it (`waiting`), with the permits of the gate
and the ids so far. -/
structure Queued (pending waiting : List RequestState) (gatePermits : ℕ)
    (requestIds detached : List ℕ) (created : List (String × ℕ)) : Prop where
  unique : Table.Unique RequestState.requestId (pending ++ waiting)
  known : ∀ id ∈ (pending ++ waiting).map RequestState.requestId, id ∈ requestIds
  attached : ∀ id ∈ (pending ++ waiting).map RequestState.requestId, id ∉ detached
  detached_known : ∀ id ∈ detached, id ∈ requestIds
  -- the gate is free or one request holds it
  gate : gatePermits + permits pending + permits waiting = 1
  holds_gate : ∀ r ∈ pending, r.responseId = none → r.gateAcquired = true
  unassigned : ∀ r ∈ waiting, r.responseId = none
  fresh : (created.map Prod.fst).Nodup
  assigned : ∀ r ∈ pending, ∀ id, r.responseId = some id → (id, r.requestId) ∈ created

structure Answered (pending : List RequestState) (detached : List ℕ)
    (created : List (String × ℕ)) (inflight : List UpstreamResponse) : Prop where
  owners : Table.Unique UpstreamResponse.owner inflight
  given : ∀ u ∈ inflight, ∀ id, u.responseId = some id → (id, u.owner) ∈ created
  -- a request that was sent is in the deque until its answer is created
  answers : ∀ u ∈ inflight, u.responseId = none ∨ u.owner ∉ detached →
    ∃ r ∈ pending, r.requestId = u.owner ∧ r.responseId = u.responseId

theorem Answered.nil {pending : List RequestState} {detached : List ℕ}
    {created : List (String × ℕ)} : Answered pending detached created [] :=
  ⟨nodup_nil, by simp, by simp⟩

namespace Queued

variable {pending waiting : List RequestState} {gatePermits : ℕ} {requestIds detached : List ℕ}
  {created : List (String × ℕ)} {r : RequestState}

section

variable (h : Queued pending waiting gatePermits requestIds detached created)
include h

theorem unique_pending :
    Table.Unique RequestState.requestId pending :=
  h.unique.sublist ((sublist_append_left _ _).map _)

theorem unique_waiting :
    Table.Unique RequestState.requestId waiting :=
  h.unique.sublist ((sublist_append_right _ _).map _)

theorem owner_eq {id : String} {a b : ℕ} (ha : (id, a) ∈ created) (hb : (id, b) ∈ created) :
    a = b :=
  (Prod.mk.inj (inj_on_of_nodup_map h.fresh ha hb rfl)).2

theorem unresolved_eq (hr : r ∈ pending) (hrid : r.responseId = none) :
    ∀ q ∈ unresolvedRequests pending, q = r := by
  intro q hq
  obtain ⟨hq, hqid⟩ := mem_unresolvedRequests.mp hq
  have hgate := h.gate
  exact eq_of_permits_le_one h.unique_pending (by omega) hr hq (h.holds_gate r hr hrid)
    (h.holds_gate q hq hqid)

end

end Queued

/-! ## Steps on the deque -/

namespace Queued

variable {pending waiting : List RequestState} {gatePermits : ℕ} {requestIds detached : List ℕ}
  {created : List (String × ℕ)} {r : RequestState}

section

variable (h : Queued pending waiting gatePermits requestIds detached created)
include h

theorem drop (hr : r ∈ pending) :
    Queued (removeRequest r.requestId pending) waiting (gatePermits + r.permit) requestIds
      detached created := by
  have hsub : (removeRequest r.requestId pending ++ waiting).Sublist (pending ++ waiting) :=
    filter_sublist.append_right _
  have hids := (hsub.map RequestState.requestId).subset
  have hmem : ∀ q ∈ removeRequest r.requestId pending, q ∈ pending := fun q hq =>
    (mem_removeRequest.mp hq).1
  have hpermits := permits_eq_add h.unique_pending hr
  have hgate := h.gate
  exact { h with
    unique := h.unique.sublist (hsub.map _)
    known := fun id hid => h.known id (hids hid)
    attached := fun id hid => h.attached id (hids hid)
    gate := by omega
    holds_gate := fun q hq => h.holds_gate q (hmem q hq)
    assigned := fun q hq => h.assigned q (hmem q hq) }

theorem detach {id : ℕ} (hknown : id ∈ requestIds)
    (hid : id ∉ (pending ++ waiting).map RequestState.requestId) :
    Queued pending waiting gatePermits requestIds (id :: detached) created where
  __ := h
  attached := by
    intro i hi hmem
    rcases mem_cons.mp hmem with rfl | hmem
    · exact hid hi
    · exact h.attached i hi hmem
  detached_known := by
    intro i hi
    rcases mem_cons.mp hi with rfl | hi
    · exact hknown
    · exact h.detached_known i hi

theorem not_mem_drop (hr : r ∈ pending) :
    r.requestId ∉
      (removeRequest r.requestId pending ++ waiting).map RequestState.requestId := by
  intro hmem
  obtain ⟨q, hq, hqid⟩ := mem_map.mp hmem
  rcases mem_append.mp hq with hq | hq
  · exact (mem_removeRequest.mp hq).2 hqid
  · have hdis := List.disjoint_of_nodup_append (by simpa [Table.Unique] using h.unique)
    exact hdis (List.mem_map_of_mem (f := RequestState.requestId) hr)
      (hqid ▸ List.mem_map_of_mem hq)

theorem clear :
    Queued [] waiting (gatePermits + permits pending) requestIds
      (pending.map RequestState.requestId ++ detached) created := by
  have hids : ∀ id ∈ waiting.map RequestState.requestId,
      id ∈ (pending ++ waiting).map RequestState.requestId := fun id hid =>
    ((sublist_append_right pending waiting).map _).subset hid
  have hdis : (pending.map RequestState.requestId).Disjoint
      (waiting.map RequestState.requestId) :=
    List.disjoint_of_nodup_append (by simpa [Table.Unique] using h.unique)
  exact { h with
    unique := h.unique_waiting
    known := fun id hid => h.known id (hids id hid)
    attached := fun id hid hmem =>
      (mem_append.mp hmem).elim (fun hp => hdis hp hid) (h.attached id (hids id hid))
    detached_known := fun id hid => (mem_append.mp hid).elim
      (fun hp => h.known id (by rw [map_append]; exact mem_append_left _ hp))
      (h.detached_known id)
    holds_gate := by simp
    assigned := by simp }

theorem enter (hnew : r.requestId ∉ requestIds) (hrid : r.responseId = none)
    (hgate : r.gateAcquired = false) :
    Queued pending (waiting ++ [r]) gatePermits (r.requestId :: requestIds) detached created := by
  have hids : ∀ id ∈ (pending ++ (waiting ++ [r])).map RequestState.requestId,
      id ∈ (pending ++ waiting).map RequestState.requestId ∨ id = r.requestId := by
    intro id hid
    simpa [or_assoc] using hid
  have hlookup : lookup RequestState.requestId (pending ++ waiting) r.requestId = none :=
    lookup_eq_none_iff.mpr fun q hq heq =>
      hnew (heq ▸ h.known _ (List.mem_map_of_mem hq))
  have hg := h.gate
  have hpermits : permits [r] = 0 := by simp [permits, RequestState.permit, hgate]
  exact { h with
    unique := by
      rw [← append_assoc]
      exact h.unique.append_singleton hlookup
    known := fun id hid => (hids id hid).elim (fun hmem => mem_cons_of_mem _ (h.known id hmem))
      (fun heq => heq ▸ mem_cons_self)
    attached := fun id hid => (hids id hid).elim (h.attached id)
      (fun heq hmem => hnew (heq ▸ h.detached_known id hmem))
    detached_known := fun id hid => mem_cons_of_mem _ (h.detached_known id hid)
    gate := by rw [permits_append]; omega
    unassigned := fun q hq => (mem_append.mp hq).elim (h.unassigned q)
      (fun hq => mem_singleton.mp hq ▸ hrid) }

theorem acquire (hr : r ∈ waiting) (hgate : r.gateAcquired = false) (hfree : gatePermits ≠ 0) :
    Queued pending (setRequest r.requestId ({ · with gateAcquired := true }) waiting)
      (gatePermits - 1) requestIds detached created := by
  have hids : (pending ++ setRequest r.requestId ({ · with gateAcquired := true }) waiting).map
      RequestState.requestId = (pending ++ waiting).map RequestState.requestId := by
    rw [map_append, map_requestId_setRequest, map_append]
    exact fun _ => rfl
  have hset := permits_setRequest h.unique_waiting hr ({ · with gateAcquired := true })
  have hwas := permits_eq_add h.unique_waiting hr
  have hpermit : r.permit = 0 := by simp [RequestState.permit, hgate]
  have hnow : RequestState.permit { r with gateAcquired := true } = 1 := rfl
  have hg := h.gate
  exact { h with
    unique := by rw [Table.Unique, hids]; exact h.unique
    known := by rw [hids]; exact h.known
    attached := by rw [hids]; exact h.attached
    gate := by omega
    unassigned := by
      intro q hq
      rcases mem_setRequest hq with ⟨q', hq', _, rfl⟩ | ⟨hq', _⟩
      · exact h.unassigned q' hq'
      · exact h.unassigned q hq' }

theorem leave (hr : r ∈ waiting) :
    Queued pending (removeRequest r.requestId waiting) (gatePermits + r.permit) requestIds
      detached created := by
  have hsub : (pending ++ removeRequest r.requestId waiting).Sublist (pending ++ waiting) :=
    filter_sublist.append_left _
  have hids := (hsub.map RequestState.requestId).subset
  have hwas := permits_eq_add h.unique_waiting hr
  have hg := h.gate
  exact { h with
    unique := h.unique.sublist (hsub.map _)
    known := fun id hid => h.known id (hids hid)
    attached := fun id hid => h.attached id (hids hid)
    gate := by omega
    unassigned := fun q hq => h.unassigned q (mem_removeRequest.mp hq).1 }

theorem append (hr : r ∈ waiting) (hgate : r.gateAcquired = true) :
    Queued (pending ++ [r]) (removeRequest r.requestId waiting) gatePermits requestIds detached
      created := by
  have hperm : (pending ++ [r] ++ removeRequest r.requestId waiting).Perm (pending ++ waiting) := by
    rw [append_assoc]
    exact (h.unique_waiting.perm_cons_filter hr).symm.append_left _
  have hids := (hperm.map RequestState.requestId).subset
  have hwas := permits_eq_add h.unique_waiting hr
  have hone : permits [r] = r.permit := by simp [permits]
  have hg := h.gate
  have hmem : ∀ q ∈ pending ++ [r], q ∈ pending ∨ q = r := by simp
  exact { h with
    unique := (hperm.map _).nodup_iff.mpr h.unique
    known := fun id hid => h.known id (hids hid)
    attached := fun id hid => h.attached id (hids hid)
    gate := by rw [permits_append]; omega
    holds_gate := fun q hq hqid => (hmem q hq).elim (h.holds_gate q · hqid) (· ▸ hgate)
    unassigned := fun q hq => h.unassigned q (mem_removeRequest.mp hq).1
    assigned := by
      intro q hq id hqid
      rcases hmem q hq with hq | rfl
      · exact h.assigned q hq id hqid
      · rw [h.unassigned q hr] at hqid
        cases hqid }

theorem create {id : String} (hr : r ∈ pending) (hfresh : id ∉ created.map Prod.fst) :
    Queued (setRequest r.requestId ({ · with responseId := some id, gateAcquired := false })
      pending)
      waiting (gatePermits + r.permit) requestIds detached ((id, r.requestId) :: created) := by
  have hids : (setRequest r.requestId ({ · with responseId := some id, gateAcquired := false })
      pending ++ waiting).map RequestState.requestId =
      (pending ++ waiting).map RequestState.requestId := by
    rw [map_append, map_requestId_setRequest, map_append]
    exact fun _ => rfl
  have hset := permits_setRequest h.unique_pending hr
    ({ · with responseId := some id, gateAcquired := false })
  have hwas := permits_eq_add h.unique_pending hr
  have hnow : RequestState.permit { r with responseId := some id, gateAcquired := false } = 0 :=
    rfl
  have hg := h.gate
  exact { h with
    unique := by rw [Table.Unique, hids]; exact h.unique
    known := by rw [hids]; exact h.known
    attached := by rw [hids]; exact h.attached
    gate := by omega
    holds_gate := by
      intro q hq hqid
      rcases mem_setRequest hq with ⟨q', _, _, rfl⟩ | ⟨hq', _⟩
      · cases hqid
      · exact h.holds_gate q hq' hqid
    fresh := nodup_cons.mpr ⟨hfresh, h.fresh⟩
    assigned := by
      intro q hq i hqid
      rcases mem_setRequest hq with ⟨q', _, hq'id, rfl⟩ | ⟨hq', _⟩
      · cases hqid
        exact hq'id ▸ mem_cons_self
      · exact mem_cons_of_mem _ (h.assigned q hq' i hqid) }

end

end Queued

/-! ## Steps on the responses in progress -/

namespace Answered

variable {pending : List RequestState} {detached : List ℕ} {created : List (String × ℕ)}
  {inflight : List UpstreamResponse}

section

variable (h : Answered pending detached created inflight)
include h

theorem remove {id : ℕ} (hid : ⟨id, none⟩ ∉ inflight) :
    Answered (removeRequest id pending) (id :: detached) created inflight := { h with
  answers := by
    intro u hu hcase
    have hne : u.owner ≠ id := by
      rintro rfl
      rcases hcase with hnone | hdet
      · exact hid (hnone ▸ hu)
      · exact hdet mem_cons_self
    obtain ⟨r, hr, hro, hrid⟩ := h.answers u hu
      (hcase.imp_right fun hdet hmem => hdet (mem_cons_of_mem _ hmem))
    exact ⟨r, mem_removeRequest.mpr ⟨hr, hro ▸ hne⟩, hro, hrid⟩ }

theorem mono {pending' : List RequestState} (hsub : ∀ r ∈ pending, r ∈ pending') :
    Answered pending' detached created inflight := { h with
  answers := fun u hu hcase =>
    let ⟨r, hr, hrest⟩ := h.answers u hu hcase
    ⟨r, hsub r hr, hrest⟩ }

theorem send {r : RequestState} (hr : r ∈ pending) (hrid : r.responseId = none)
    (hnew : r.requestId ∉ inflight.map UpstreamResponse.owner) :
    Answered pending detached created (inflight ++ [⟨r.requestId, none⟩]) where
  owners := h.owners.append_singleton (lookup_eq_none_iff.mpr fun u hu heq =>
    hnew (mem_map.mpr ⟨u, hu, heq⟩))
  given := by
    intro u hu id hid
    rcases mem_append.mp hu with hu | hu
    · exact h.given u hu id hid
    · obtain rfl := mem_singleton.mp hu
      cases hid
  answers := by
    intro u hu hcase
    rcases mem_append.mp hu with hu | hu
    · exact h.answers u hu hcase
    · obtain rfl := mem_singleton.mp hu
      exact ⟨r, hr, rfl, hrid⟩

theorem create {r : RequestState} {id : String} (hr : r ∈ pending) :
    Answered
      (setRequest r.requestId ({ · with responseId := some id, gateAcquired := false }) pending)
      detached ((id, r.requestId) :: created)
      (updateWhere (fun u => u.owner = r.requestId) ({ · with responseId := some id })
        inflight) where
  owners := h.owners.update fun _ => rfl
  given := by
    intro u hu i hi
    obtain ⟨u₀, hu₀, rfl⟩ := mem_updateWhere.mp hu
    by_cases hown : u₀.owner = r.requestId
    · simp only [hown, decide_true, if_true] at hi ⊢
      exact Option.some.inj hi ▸ mem_cons_self
    · simp only [hown, decide_false, Bool.false_eq_true, if_false] at hi ⊢
      exact mem_cons_of_mem _ (h.given u₀ hu₀ i hi)
  answers := by
    intro u hu hcase
    obtain ⟨u₀, hu₀, rfl⟩ := mem_updateWhere.mp hu
    by_cases hown : u₀.owner = r.requestId
    · simp only [hown, decide_true, if_true]
      exact ⟨_, setRequest_of_eq hr, rfl, rfl⟩
    · simp only [hown, decide_false, Bool.false_eq_true, if_false] at hcase ⊢
      obtain ⟨q, hq, hqo, hqid⟩ := h.answers u₀ hu₀ hcase
      exact ⟨q, setRequest_of_ne hq (hqo ▸ hown), hqo, hqid⟩

theorem finish {source : ℕ} {pending' : List RequestState}
    (hsub : ∀ r ∈ pending, r.requestId ≠ source → r ∈ pending') :
    Answered pending' detached created (inflight.filter (·.owner ≠ source)) where
  owners := h.owners.sublist (filter_sublist.map _)
  given := fun u hu => h.given u (mem_filter.mp hu).1
  answers := by
    intro u hu hcase
    obtain ⟨hu, hne⟩ := mem_filter.mp hu
    obtain ⟨r, hr, hro, hrid⟩ := h.answers u hu hcase
    exact ⟨r, hsub r hr (hro ▸ of_decide_eq_true hne), hro, hrid⟩

end

end Answered

end CodexOctopus

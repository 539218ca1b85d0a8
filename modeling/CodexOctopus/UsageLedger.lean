import CodexOctopus.LimitUpdate

/-!
# The ledger of the usage calls

What a step of the usage calls does to the committed limit rows is the replay, row by
row, of the changes it writes to the ledger (`UsageMove.limits_eq`). The reason is that
open calls keep out of each other's rows (`UsageState.Apart`): what a call sees of a row
it has updated is the committed row with another `current_value`.
-/

namespace CodexOctopus

open List Option Table

/-! ## Replaying a ledger -/

section

variable {l l' : LimitRow} {ch : LimitChange} {ledger ledger' : List LimitChange}

@[simp] theorem LimitChange.apply_id : (ch.apply l).id = l.id := by
  cases ch with
  | add k delta => by_cases h : l.id = k <;> simp [LimitChange.apply, h]
  | reset k e now => by_cases h : l.id = k ∧ l.resetAt = e <;> simp [LimitChange.apply, h]

theorem LimitChange.apply_of_ne (h : ch.limitId ≠ l.id) : ch.apply l = l := by
  cases ch with
  | add k delta => exact if_neg (Ne.symm h)
  | reset k e now => exact if_neg fun hk => h hk.1.symm

@[simp] theorem replay_nil : replay [] l = l := rfl

theorem replay_append : replay (ledger ++ ledger') l = replay ledger' (replay ledger l) :=
  foldl_append

@[simp] theorem replay_id : (replay ledger l).id = l.id := by
  induction ledger generalizing l with
  | nil => rfl
  | cons ch ledger ih => exact ih.trans LimitChange.apply_id

theorem replay_filter : replay (ledger.filter (·.limitId = l.id)) l = replay ledger l := by
  induction ledger generalizing l with
  | nil => rfl
  | cons ch ledger ih =>
    by_cases h : ch.limitId = l.id
    · rw [filter_cons_of_pos (by simpa using h)]
      have hid : (ch.apply l).id = l.id := LimitChange.apply_id
      exact hid ▸ ih
    · rw [filter_cons_of_neg (by simpa using h), ih]
      exact congrArg (ledger.foldl LimitChange.apply) (LimitChange.apply_of_ne h).symm

structure SameUsage (l l' : LimitRow) : Prop where
  id : l.id = l'.id
  limitWindow : l.limitWindow = l'.limitWindow
  currentValue : l.currentValue = l'.currentValue
  resetAt : l.resetAt = l'.resetAt

theorem SameUsage.apply (h : SameUsage l l') (ch : LimitChange) :
    SameUsage (ch.apply l) (ch.apply l') := by
  obtain ⟨hid, hwindow, hcurrent, hreset⟩ := h
  cases ch with
  | add k delta =>
    by_cases hk : l.id = k
    · simp only [LimitChange.apply, if_pos hk, if_pos (hid ▸ hk)]
      exact ⟨hid, hwindow, congrArg (· + delta) hcurrent, hreset⟩
    · simp only [LimitChange.apply, if_neg hk, if_neg (hid ▸ hk)]
      exact ⟨hid, hwindow, hcurrent, hreset⟩
  | reset k e now =>
    by_cases hk : l.id = k ∧ l.resetAt = e
    · have hk' : l'.id = k ∧ l'.resetAt = e := hid ▸ hreset ▸ hk
      simp only [LimitChange.apply, if_pos hk, if_pos hk']
      exact ⟨hid, hwindow, rfl, congrArg (advanceReset e now) hwindow⟩
    · have hk' : ¬ (l'.id = k ∧ l'.resetAt = e) := hid ▸ hreset ▸ hk
      simp only [LimitChange.apply, if_neg hk, if_neg hk']
      exact ⟨hid, hwindow, hcurrent, hreset⟩

theorem SameUsage.replay (h : SameUsage l l') (ledger : List LimitChange) :
    SameUsage (CodexOctopus.replay ledger l) (CodexOctopus.replay ledger l') := by
  induction ledger generalizing l l' with
  | nil => exact h
  | cons ch ledger ih => exact ih (h.apply ch)

theorem replay_additions {rows : List LimitRow} (hids : Table.Unique LimitRow.id rows)
    (d : LimitRow → ℤ) (hl : l ∈ rows) :
    replay (rows.map fun r => .add r.id (d r)) l = l.add (d l) := by
  induction rows with
  | nil => cases hl
  | cons r rows ih =>
    obtain ⟨hr, hids⟩ := nodup_cons.mp hids
    have hskip : ∀ {l' : LimitRow}, l'.id ∉ rows.map LimitRow.id →
        replay (rows.map fun r => .add r.id (d r)) l' = l' := by
      intro l' hl'
      rw [← replay_filter, filter_eq_nil_iff.mpr]
      · rfl
      · intro ch hch
        obtain ⟨r', hr', rfl⟩ := mem_map.mp hch
        have hne : r'.id ≠ l'.id := fun h => hl' (h ▸ mem_map_of_mem hr')
        exact fun hd => hne (of_decide_eq_true hd)
    rcases mem_cons.mp hl with rfl | hl
    · have happ : LimitChange.apply l (.add l.id (d l)) = l.add (d l) := if_pos rfl
      exact (congrArg _ happ).trans (hskip (by simpa using hr))
    · have hne : l.id ≠ r.id := fun h => hr (h ▸ mem_map_of_mem hl)
      have happ : LimitChange.apply l (.add r.id (d r)) = l := if_neg hne
      exact (congrArg _ happ).trans (ih hids hl)

end

/-! ## What a usage step does to the rows -/

inductive CallsMove (s : UsageState) : List Call → Prop where
  | keep : CallsMove s s.calls
  | enter {c : Call} (hfresh : lookup Call.cid s.calls c.cid = none) (hwrites : c.writes = []) :
    CallsMove s (s.calls ++ [c])
  | leave (cid : ℕ) : CallsMove s (s.dropCall cid).calls
  | move {c c' : Call} (hc : c ∈ s.calls) (hcid : c'.cid = c.cid) (hwrites : c'.writes = c.writes) :
    CallsMove s (s.setCall c').calls
  | write {c c' : Call} {l : LimitRow} {delta : ℤ} (hc : c ∈ s.calls) (hcid : c'.cid = c.cid)
    (hl : l ∈ s.limits) (hfree : s.lockedFor c.cid l.id = false)
    (hwrites : c'.writes = (Txn.view LimitRow.id c.writes l).add delta :: c.writes) :
    CallsMove s (s.setCall c').calls

section

variable {s s' : UsageState} {a : UsageAct} {c : Call}

theorem reserveNext_moves (hc : c ∈ s.calls) {apiKeyId : String} {model tier : Option String}
    {l : LimitRow} {todo : List LimitRow} {items : List ReservationItem}
    (h : reserveNext s c apiKeyId model tier l todo items = some s') :
    s'.limits = s.limits ∧ CallsMove s s'.calls := by
  rw [reserveNext] at h
  simp only at h
  split at h
  · exact some.inj h ▸ ⟨rfl, .move hc rfl rfl⟩
  split at h
  · exact some.inj h ▸ ⟨rfl, .leave _⟩
  split at h
  · exact some.inj h ▸ ⟨rfl, .move hc rfl rfl⟩
  split at h
  · cases h
  next hfree =>
  split at h
  · exact some.inj h ▸ ⟨rfl, .leave _⟩
  next ws hws =>
  obtain ⟨l₀, hl₀, hid, _, rfl⟩ := Txn.update_eq_some hws
  exact some.inj h ▸ ⟨rfl, .write hc rfl hl₀ (by simpa [hid] using hfree) rfl⟩

theorem adjustNext_moves (hc : c ∈ s.calls) {rid : String} {o : Settlement} {i : ReservationItem}
    {todo done : List ReservationItem} (h : adjustNext s c rid o i todo done = some s') :
    s'.limits = s.limits ∧ CallsMove s s'.calls := by
  rw [adjustNext] at h
  simp only at h
  split at h
  · exact some.inj h ▸ ⟨rfl, .move hc rfl rfl⟩
  split at h
  · cases h
  next hfree =>
  cases h
  rcases hws : adjustReservedUsage i.limitId (o.actual i - i.reservedDelta) i.expectedResetAt
    c.writes
      s.limits with _ | ws
  · exact ⟨rfl, .move hc rfl rfl⟩
  · obtain ⟨l₀, hl₀, hid, _, rfl⟩ := Txn.update_eq_some hws
    exact ⟨rfl, .write hc rfl hl₀ (by simpa [hid] using hfree) rfl⟩

inductive UsageMove (s s' : UsageState) : List LimitChange → Prop where
  | calls (hlimits : s'.limits = s.limits) (hcalls : CallsMove s s'.calls) : UsageMove s s' []
  | reset {k : ℕ} {e now : ℤ} (hlimits : s'.limits = resetLimit k e now s.limits)
    (hcalls : s'.calls = s.calls)
    (hfree : ∀ c ∈ s.calls, Txn.locks LimitRow.id c.writes k = false) :
    UsageMove s s' [.reset k e now]
  | commit {c : Call} (hc : c ∈ s.calls)
    (hlimits : s'.limits = Txn.commit LimitRow.id c.writes s.limits)
    (hcalls : s'.calls = (s.dropCall c.cid).calls) : UsageMove s s' (c.additions s.limits)

theorem UsageMove.of_calls (h : s'.limits = s.limits ∧ CallsMove s s'.calls) : UsageMove s s' [] :=
  .calls h.1 h.2

theorem callStep_moves {cid : ℕ} (hcid : a.cid = some cid)
    (hc : lookup Call.cid s.calls cid = some c) (h : callStep s c a = some s') :
    UsageMove s s' (usageChanges s a) := by
  have hmem := mem_of_lookup hc
  cases a with
  | reset | enforce | settle => cases h
  | rollback => exact some.inj h ▸ .calls rfl (.leave _)
  | reserve =>
    simp only [callStep] at h
    split at h
    · exact .of_calls (reserveNext_moves hmem h)
    · cases h
  | createReservation cid' rid =>
    cases hcid
    simp only [callStep] at h
    split at h
    · split at h
      · cases h
        simp only [usageChanges, hc, map_some, getD_some]
        exact .commit hmem rfl rfl
      · cases h
    · cases h
  | claim =>
    simp only [callStep] at h
    split at h
    · split at h
      · cases h
      split at h
      · exact some.inj h ▸ .calls rfl (.leave _)
      split at h
      · exact some.inj h ▸ .calls rfl (.move hmem rfl rfl)
      · exact some.inj h ▸ .calls rfl (.leave _)
    · cases h
  | adjust =>
    simp only [callStep] at h
    split at h
    · exact .of_calls (adjustNext_moves hmem h)
    · cases h
  | finish cid' =>
    cases hcid
    simp only [callStep] at h
    split at h
    · cases h
      simp only [usageChanges, hc, map_some, getD_some]
      exact .commit hmem rfl rfl
    · cases h

theorem usageStep_moves (h : usageStep s a = some s') : UsageMove s s' (usageChanges s a) := by
  unfold usageStep at h
  split at h
  · split at h
    · next hguard => exact some.inj h ▸ .reset rfl rfl (by simpa using hguard.2)
    · cases h
  · split at h
    · next hfresh => exact some.inj h ▸ .calls rfl (.enter hfresh rfl)
    · cases h
  · split at h
    · next hfresh =>
      split at h
      · exact some.inj h ▸ .calls rfl .keep
      split at h
      · exact some.inj h ▸ .calls rfl (.enter hfresh rfl)
      · exact some.inj h ▸ .calls rfl .keep
    · cases h
  · split at h
    · cases h
    · next c hc =>
      obtain ⟨cid, hcid, hlookup⟩ := bind_eq_some_iff.mp hc
      exact callStep_moves hcid hlookup h

theorem usageStepOrRollback_moves (h : usageStepOrRollback s a = some s') :
    UsageMove s s' (usageChanges s a) := by
  unfold usageStepOrRollback at h
  split at h
  · split at h
    · exact some.inj h ▸ .calls rfl (.leave _)
    · exact usageStep_moves h
  · exact usageStep_moves h

/-! ## Calls keep out of each other's rows -/

/-- What an open call sees of a row is the committed row with another `current_value`, and a row
that it has updated is no one else's. -/
structure UsageState.Apart (s : UsageState) : Prop where
  limitIds : Table.Unique LimitRow.id s.limits
  cids : Table.Unique Call.cid s.calls
  view : ∀ c ∈ s.calls, ∀ l ∈ s.limits, ∃ delta, Txn.view LimitRow.id c.writes l = l.add delta
  locked : ∀ c ∈ s.calls, ∀ k, Txn.locks LimitRow.id c.writes k = true → ∃ l ∈ s.limits, l.id = k
  locks : s.Exclusive

theorem LimitRow.add_zero (l : LimitRow) : l.add 0 = l := by simp [LimitRow.add]

theorem replay_additions_eq_view (hA : s.Apart) (hc : c ∈ s.calls) {l : LimitRow}
    (hl : l ∈ s.limits) : replay (c.additions s.limits) l = Txn.view LimitRow.id c.writes l := by
  by_cases hlock : Txn.locks LimitRow.id c.writes l.id = true
  · have hrows : Table.Unique LimitRow.id
        (s.limits.filter fun l => Txn.locks LimitRow.id c.writes l.id) :=
      List.Nodup.sublist (List.Sublist.map _ filter_sublist) hA.limitIds
    obtain ⟨delta, hview⟩ := hA.view c hc l hl
    refine (replay_additions hrows _ (mem_filter.mpr ⟨hl, hlock⟩)).trans ?_
    rw [hview, LimitRow.add_currentValue, add_sub_cancel_left]
  · have hnone : (c.additions s.limits).filter (·.limitId = l.id) = [] := by
      refine filter_eq_nil_iff.mpr fun ch hch hd => ?_
      obtain ⟨r, hr, rfl⟩ := mem_map.mp hch
      have hid : r.id = l.id := of_decide_eq_true hd
      exact hlock (hid ▸ (mem_filter.mp hr).2)
    rw [← replay_filter, hnone, replay_nil, Txn.view_of_not_locks (Bool.eq_false_iff.mpr hlock)]

/-- **A usage step replays its changes** on every row. -/
theorem UsageMove.limits_eq (hA : s.Apart) {changes : List LimitChange}
    (h : UsageMove s s' changes) : s'.limits = s.limits.map (replay changes) := by
  cases h with
  | calls hlimits _ => simp [hlimits, funext fun l => replay_nil (l := l)]
  | reset hlimits _ _ =>
    rw [hlimits, resetLimit, updateWhere]
    refine List.map_congr_left fun l _ => ?_
    simp [replay, LimitChange.apply]
  | commit hc hlimits _ =>
    rw [hlimits, Txn.commit]
    exact List.map_congr_left fun l hl => (replay_additions_eq_view hA hc hl).symm

theorem CallsMove.apart (hA : s.Apart) {calls : List Call} (h : CallsMove s calls)
    (reservations : List Reservation) : UsageState.Apart ⟨s.limits, reservations, calls⟩ := by
  cases h with
  | keep => exact ⟨hA.limitIds, hA.cids, hA.view, hA.locked, hA.locks⟩
  | enter hfresh hwrites =>
    refine ⟨hA.limitIds, hA.cids.append_singleton hfresh, ?_, ?_, hA.locks.addCall hwrites⟩
    · intro d hd l hl
      rcases mem_append.mp hd with hd | hd
      · exact hA.view d hd l hl
      · rw [mem_singleton.mp hd, hwrites]
        exact ⟨0, l.add_zero.symm⟩
    · intro d hd k hk
      rcases mem_append.mp hd with hd | hd
      · exact hA.locked d hd k hk
      · rw [mem_singleton.mp hd, hwrites] at hk
        cases hk
  | leave cid =>
    exact ⟨hA.limitIds, unique_dropCall hA.cids, fun d hd => hA.view d (mem_dropCall.mp hd).1,
      fun d hd => hA.locked d (mem_dropCall.mp hd).1, hA.locks.dropCall⟩
  | move hc hcid hwrites =>
    refine ⟨hA.limitIds, unique_setCall hA.cids, ?_, ?_,
      hA.locks.setCall hc hcid fun k hk => .inl (hwrites ▸ hk)⟩
    · intro d hd
      rcases mem_setCall hd with rfl | ⟨hmd, _⟩
      · exact hwrites ▸ hA.view _ hc
      · exact hA.view d hmd
    · intro d hd
      rcases mem_setCall hd with rfl | ⟨hmd, _⟩
      · exact hwrites ▸ hA.locked _ hc
      · exact hA.locked d hmd
  | @write c c' l₀ delta hc hcid hl₀ hfree hwrites =>
    refine ⟨hA.limitIds, unique_setCall hA.cids, ?_, ?_,
      hA.locks.setCall hc hcid fun k hk => locks_add hfree (hwrites ▸ hk)⟩
    · intro d hd l hl
      rcases mem_setCall hd with rfl | ⟨hmd, _⟩
      · rw [hwrites, Txn.view_write, LimitRow.add_id, view_id]
        split
        · next hid =>
          obtain rfl := hA.limitIds.eq_of_key_eq hl₀ hl hid
          obtain ⟨delta₀, hview⟩ := hA.view c hc l₀ hl₀
          exact ⟨delta₀ + delta, by simp only [hview, LimitRow.add, add_assoc]⟩
        · exact hA.view c hc l hl
      · exact hA.view d hmd l hl
    · intro d hd k hk
      rcases mem_setCall hd with rfl | ⟨hmd, _⟩
      · rw [hwrites, Txn.locks_write, Bool.or_eq_true, decide_eq_true_eq, LimitRow.add_id, view_id]
          at hk
        rcases hk with rfl | hk
        · exact ⟨l₀, hl₀, rfl⟩
        · exact hA.locked c hc k hk
      · exact hA.locked d hmd k hk

theorem UsageState.Apart.of_unlocked (hA : s.Apart)
    (hids : Table.Unique LimitRow.id s'.limits) (hcids : Table.Unique Call.cid s'.calls)
    (hcalls : ∀ c ∈ s'.calls, c ∈ s.calls)
    (hsame : ∀ l ∈ s'.limits, l ∈ s.limits ∨
      ∀ c ∈ s'.calls, Txn.locks LimitRow.id c.writes l.id = false)
    (hkeep : ∀ c ∈ s'.calls, ∀ l ∈ s.limits, Txn.locks LimitRow.id c.writes l.id = true →
      ∃ l' ∈ s'.limits, l'.id = l.id) : s'.Apart := by
  refine ⟨hids, hcids, ?_, ?_, fun d hd d' hd' => hA.locks d (hcalls d hd) d' (hcalls d' hd')⟩
  · intro d hd l hl
    rcases hsame l hl with hl | hfree
    · exact hA.view d (hcalls d hd) l hl
    · exact ⟨0, by rw [Txn.view_of_not_locks (hfree d hd), LimitRow.add_zero]⟩
  · intro d hd k hk
    obtain ⟨l, hl, rfl⟩ := hA.locked d (hcalls d hd) k hk
    exact hkeep d hd l hl hk

theorem UsageMove.apart (hA : s.Apart) {changes : List LimitChange} (h : UsageMove s s' changes) :
    s'.Apart := by
  have hlimits := h.limits_eq hA
  have hids : Table.Unique LimitRow.id s'.limits := by
    have hkeys : s.limits.map (LimitRow.id ∘ replay changes) = s.limits.map LimitRow.id :=
      List.map_congr_left fun l _ => replay_id
    rw [Table.Unique, hlimits, List.map_map, hkeys]
    exact hA.limitIds
  have hkeep : ∀ l ∈ s.limits, ∃ l' ∈ s'.limits, l'.id = l.id := fun l hl =>
    ⟨_, hlimits ▸ mem_map_of_mem hl, replay_id⟩
  cases h with
  | calls hl hcalls =>
    obtain ⟨limits, reservations, calls⟩ := s'
    subst hl
    exact hcalls.apart hA reservations
  | reset hl hcalls hfree =>
    refine hA.of_unlocked hids (hcalls ▸ hA.cids) (fun c hc => hcalls ▸ hc) (fun l' hl' => ?_)
      (fun c _ l hl _ => hkeep l hl)
    rw [hl] at hl'
    obtain ⟨l, hl, rfl⟩ := mem_updateWhere.mp hl'
    split
    · next hp =>
      obtain ⟨rfl, _⟩ := of_decide_eq_true hp
      exact .inr (hcalls ▸ hfree)
    · exact .inl hl
  | @commit c hc hl hcalls =>
    refine hA.of_unlocked hids (hcalls ▸ unique_dropCall hA.cids)
      (fun d hd => (mem_dropCall.mp (hcalls ▸ hd)).1) (fun l' hl' => ?_)
      (fun d _ l hl _ => hkeep l hl)
    rw [hl] at hl'
    obtain ⟨l, hl, rfl⟩ := Txn.mem_commit.mp hl'
    by_cases hlock : Txn.locks LimitRow.id c.writes l.id = true
    · -- the call had the row locked, so no call that stays has
      refine .inr fun d hd => ?_
      obtain ⟨hmd, hdc⟩ := mem_dropCall.mp (hcalls ▸ hd)
      rw [view_id]
      exact Bool.eq_false_iff.mpr fun hk => hdc (congrArg Call.cid (hA.locks d hmd c hc _ hk hlock))
    · rw [Txn.view_of_not_locks (Bool.eq_false_iff.mpr hlock)]
      exact .inl hl

end

end CodexOctopus

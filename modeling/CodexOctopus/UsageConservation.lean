import CodexOctopus.UsageCharges

/-!
# Usage is conserved

The balance of a limit: `current_value` is the sum of what the reservations charge to
the window the limit is in (`usage_conserved`). It holds in every committed state,
whatever calls are open and however their statements interleave.

Beside the view of each call, two facts about windows carry it: the end of a window
only moves forward, so no item is ever charged to a window later than its own, and an
item of an earlier window is never counted again. There is one lemma for each kind of
step: a window ends, a call commits, a call updates a row.
-/

namespace CodexOctopus

open List Option Table Lts

section

variable {s s' : UsageState} {c c' : Call} {l : LimitRow} {k : ℕ}

/-! ## A window ends -/

variable {l' : LimitRow} {items done todo : List ReservationItem} {model tier : Option String}
  {rid apiKeyId : String} {o : Settlement} {ws : List LimitRow} {i : ReservationItem}

theorem UsageState.Inv.chargedOn_ahead (hI : s.Inv) (hl : l ∈ s.limits) (hid : l'.id = l.id)
    (hlt : l.resetAt < l'.resetAt) : chargedOn s.reservations l' = 0 := by
  refine sum_eq_zero fun x hx => ?_
  obtain ⟨r, hr, rfl⟩ := mem_map.mp hx
  refine itemSum_eq_zero fun i hi hil => ?_
  exact ((hI.items r hr i hi).window l hl (hid.symm.trans hil.symm)).trans_lt hlt

theorem UsageState.Inv.pending_ahead (hI : s.Inv) (hc : c ∈ s.calls) (hl : l ∈ s.limits)
    (hid : l'.id = l.id) (hlt : l.resetAt < l'.resetAt) : c.pending l' = 0 := by
  have hstate := (hI.calls c hc).state
  obtain ⟨cid, state, ws⟩ := c
  cases state with
  | enforcing _ _ _ _ items =>
    refine itemSum_eq_zero fun i hi hil => ?_
    exact ((hstate i hi).window l hl (hid.symm.trans hil.symm)).trans_lt hlt
  | settling rid o claimed todo done =>
    cases claimed with
    | false =>
      obtain ⟨_, rfl, _⟩ := hstate
      rfl
    | true =>
      obtain ⟨r, hr, _, _, seen, hitems, rfl⟩ := hstate
      refine itemSum_eq_zero fun i hi hil => ?_
      obtain ⟨j, hj, rfl⟩ := mem_map.mp hi
      have hj' : j ∈ r.items := hitems ▸ mem_append_left _ hj
      exact ((hI.items r hr j hj').window l hl (hid.symm.trans hil.symm)).trans_lt hlt

theorem mem_resetLimit {limitId : ℕ} {expected now : ℤ} {limits : List LimitRow}
    (hlt : expected < now) (h : l' ∈ resetLimit limitId expected now limits) :
    l' ∈ limits ∨ ∃ l ∈ limits, l.id = limitId ∧ l'.id = l.id ∧ l'.currentValue = 0 ∧
      l.resetAt < l'.resetAt := by
  obtain ⟨l, hl, rfl⟩ := mem_updateWhere.mp h
  by_cases hp : l.id = limitId ∧ l.resetAt = expected
  · rw [if_pos (by simpa using hp)]
    have hspec := advanceReset_spec expected now l.limitWindow
    exact .inr ⟨l, hl, hp.1, rfl, rfl, hp.2 ▸ hlt.trans hspec.1⟩
  · rw [if_neg (by simpa using hp)]
    exact .inl hl

theorem UsageState.Inv.reset (hI : s.Inv) {limitId : ℕ} {expected now : ℤ} (hlt : expected < now)
    (hfree : ∀ c ∈ s.calls, Txn.locks LimitRow.id c.writes limitId = false) :
    UsageState.Inv { s with limits := resetLimit limitId expected now s.limits } := by
  have hwindow : ∀ l' ∈ resetLimit limitId expected now s.limits,
      ∃ l ∈ s.limits, l.id = l'.id ∧ l.resetAt ≤ l'.resetAt := by
    intro l' hl'
    rcases mem_resetLimit hlt hl' with hl | ⟨l, hl, _, hid, _, hreset⟩
    · exact ⟨l', hl, rfl, le_rfl⟩
    · exact ⟨l, hl, hid.symm, hreset.le⟩
  refine ⟨hI.limitIds.update fun _ => rfl, hI.reservationIds, hI.cids, ?_,
    fun r hr i hi => (hI.items r hr i hi).mono hwindow, hI.settled, ?_, hI.locks, hI.claims⟩
  · intro l' hl'
    rcases mem_resetLimit hlt hl' with hl | ⟨l, hl, _, hid, hzero, hreset⟩
    · exact hI.balance l' hl
    · rw [hzero, hI.chargedOn_ahead hl hid hreset]
  · intro c hc
    refine ⟨?_, ?_⟩
    · exact (hI.calls c hc).state.mono hwindow
    · intro l' hl'
      rcases mem_resetLimit hlt hl' with hl | ⟨l, hl, rfl, hid, _, hreset⟩
      · exact (hI.calls c hc).view l' hl
      · rw [Txn.view_of_not_locks (hid ▸ hfree c hc), hI.pending_ahead hc hl hid hreset]
        simp [LimitRow.add]

/-! ## A call commits -/

theorem UsageState.Inv.commit (hI : s.Inv) (hc : c ∈ s.calls) {rs : List Reservation}
    (hids : Table.Unique Reservation.id rs)
    (hcharge : ∀ l ∈ s.limits, chargedOn rs l = chargedOn s.reservations l + c.pending l)
    (hitems : ∀ r ∈ rs, ∀ i ∈ r.items, ItemOk s.limits i)
    (hsettled : ∀ r ∈ rs, r.status ≠ .reserved → ∀ i ∈ r.items, 0 ≤ i.actualDelta.getD 0)
    (hcalls : ∀ d ∈ s.calls, d.cid ≠ c.cid → d.state.Ok s.limits rs d.writes) :
    UsageState.Inv { s.dropCall c.cid with
      limits := Txn.commit LimitRow.id c.writes s.limits
      reservations := rs } := by
  have hrow : ∀ l' ∈ Txn.commit LimitRow.id c.writes s.limits,
      ∃ l ∈ s.limits, l' = Txn.view LimitRow.id c.writes l ∧ l' = l.add (c.pending l) := by
    intro l' hl'
    obtain ⟨l, hl, rfl⟩ := Txn.mem_commit.mp hl'
    exact ⟨l, hl, rfl, (hI.calls c hc).view l hl⟩
  have hwindow : ∀ l' ∈ Txn.commit LimitRow.id c.writes s.limits,
      ∃ l ∈ s.limits, l.id = l'.id ∧ l.resetAt ≤ l'.resetAt := by
    intro l' hl'
    obtain ⟨l, hl, _, rfl⟩ := hrow l' hl'
    exact ⟨l, hl, rfl, le_rfl⟩
  have hdrop := hI.dropCall c.cid
  refine ⟨Txn.unique_commit hI.limitIds, hids, hdrop.cids, ?_,
    fun r hr i hi => (hitems r hr i hi).mono hwindow, hsettled, ?_, hdrop.locks, hdrop.claims⟩
  · intro l' hl'
    obtain ⟨l, hl, _, rfl⟩ := hrow l' hl'
    rw [LimitRow.add_currentValue, hI.balance l hl, ← hcharge l hl]
    exact chargedOn_congr_limit rfl rfl
  · intro d hd
    obtain ⟨hmd, hdc⟩ := mem_dropCall.mp hd
    refine ⟨(hcalls d hmd hdc).mono hwindow, ?_⟩
    intro l' hl'
    obtain ⟨l, hl, hview, hadd⟩ := hrow l' hl'
    by_cases hlock : Txn.locks LimitRow.id d.writes l.id = true
    · -- the row is locked by `d`, so `c` has not updated it
      have hfree : Txn.locks LimitRow.id c.writes l.id = false :=
        Bool.eq_false_iff.mpr fun hk => hdc (congrArg Call.cid (hI.locks d hmd c hc _ hlock hk))
      rw [Txn.view_of_not_locks hfree] at hview
      subst hview
      exact (hI.calls d hmd).view l' hl
    · -- `d` has not updated the row, so it has nothing pending there
      have hfree := Bool.eq_false_iff.mpr hlock
      have hviewd := (hI.calls d hmd).view l hl
      rw [Txn.view_of_not_locks hfree] at hviewd
      have hzero : d.pending l = 0 := by
        have hcur := congrArg LimitRow.currentValue hviewd
        rw [LimitRow.add_currentValue] at hcur
        omega
      have hid : l'.id = l.id := by rw [hadd, LimitRow.add_id]
      have hreset : l'.resetAt = l.resetAt := by rw [hadd, LimitRow.add_resetAt]
      rw [Txn.view_of_not_locks (hid ▸ hfree), pending_congr_limit d hid hreset, hzero]
      simp [LimitRow.add]

theorem chargedOn_append_singleton {rs : List Reservation} (r : Reservation) :
    chargedOn (rs ++ [r]) l = chargedOn rs l + r.chargeOn l := by
  simp [chargedOn]

theorem UsageState.Inv.createReservation (hI : s.Inv) (hc : c ∈ s.calls) {m : String}
    (hstate : c.state = .enforcing apiKeyId model tier [] items)
    (hfresh : lookup Reservation.id s.reservations rid = none) :
    UsageState.Inv { s.dropCall c.cid with
      limits := Txn.commit LimitRow.id c.writes s.limits
      reservations := s.reservations ++ [⟨rid, apiKeyId, m, .reserved, items⟩] } := by
  have hitems : ∀ i ∈ items, ItemOk s.limits i := by
    have hOk := (hI.calls c hc).state
    rwa [hstate] at hOk
  have hmem : ∀ {r}, r ∈ s.reservations ++ [⟨rid, apiKeyId, m, .reserved, items⟩] →
      r ∈ s.reservations ∨ r = ⟨rid, apiKeyId, m, .reserved, items⟩ := by
    intro r hr
    simpa using hr
  refine hI.commit hc (hI.reservationIds.append_singleton hfresh) ?_ ?_ ?_ ?_
  · intro l _
    rw [chargedOn_append_singleton, Call.pending, hstate]
    rfl
  · intro r hr
    rcases hmem hr with hr | rfl
    · exact hI.items r hr
    · exact hitems
  · intro r hr hst
    rcases hmem hr with hr | rfl
    · exact hI.settled r hr hst
    · exact absurd rfl hst
  · intro d hd _
    exact (hI.calls d hd).state.append

theorem Settlement.settled_chargedTo (o : Settlement) (i : ReservationItem) :
    (o.settled i).chargedTo l = i.chargedTo l := rfl

theorem Settlement.actual_nonneg (o : Settlement) (i : ReservationItem) : 0 ≤ o.actual i := by
  cases o with
  | finalize u => exact u.increment_nonneg _
  | fail u => exact u.increment_nonneg _
  | release => exact le_rfl

theorem Settlement.status_ne (o : Settlement) : o.status ≠ .reserved := by
  cases o <;> simp [Settlement.status]

theorem chargeOn_settle (o : Settlement) {r : Reservation} (hr : r.status = .reserved) :
    Reservation.chargeOn l { r with status := o.status, items := r.items.map o.settled } =
      r.chargeOn l +
        itemSum (fun i => i.actualDelta.getD 0 - i.reservedDelta) (r.items.map o.settled) l := by
  have hreserved : r.chargeOn l = itemSum ReservationItem.reservedDelta (r.items.map o.settled)
    l := by
    rw [itemSum_map _ o.settled_chargedTo]
    exact itemSum_congr fun i _ => by simp [Reservation.charge, hr, Settlement.settled]
  have hsettled : Reservation.chargeOn l { r with status := o.status, items := r.items.map o.settled
    } =
      itemSum (fun i => i.actualDelta.getD 0) (r.items.map o.settled) l :=
    itemSum_congr fun i _ => by simp [Reservation.charge, o.status_ne]
  rw [hsettled, hreserved, itemSum_sub]
  omega

theorem UsageState.Inv.finish (hI : s.Inv) (hc : c ∈ s.calls)
    (hstate : c.state = .settling rid o true [] done) :
    UsageState.Inv { s.dropCall c.cid with
      limits := Txn.commit LimitRow.id c.writes s.limits
      reservations := updateWhere (fun r => r.id = rid)
        ({ · with status := o.status, items := done }) s.reservations } := by
  have hOk := (hI.calls c hc).state
  rw [hstate] at hOk
  obtain ⟨r, hr, hid, hst, seen, hitems, rfl⟩ := hOk
  rw [append_nil] at hitems
  subst hitems
  have hlookup : lookup Reservation.id s.reservations rid = some r :=
    hid ▸ hI.reservationIds.lookup_eq hr
  -- the settled reservation is the only row that changes
  have hmem : ∀ {r'}, r' ∈ updateWhere (fun r => r.id = rid)
      ({ · with status := o.status, items := r.items.map o.settled }) s.reservations →
      r' = { r with status := o.status, items := r.items.map o.settled } ∨
        r' ∈ s.reservations ∧ r'.id ≠ rid := by
    intro r' hr'
    obtain ⟨r₀, hr₀, rfl⟩ := mem_updateWhere.mp hr'
    by_cases h : r₀.id = rid
    · obtain rfl := hI.reservationIds.eq_of_key_eq hr₀ hr (h.trans hid.symm)
      exact .inl (by simp [h])
    · exact .inr (by simp [h, hr₀])
  have hkeep : ∀ {r'}, r' ∈ s.reservations → r'.id ≠ rid →
      r' ∈ updateWhere (fun r => r.id = rid)
        ({ · with status := o.status, items := r.items.map o.settled }) s.reservations :=
    fun hr' h => mem_updateWhere.mpr ⟨_, hr', by simp [h]⟩
  refine hI.commit hc (hI.reservationIds.update fun _ => rfl) ?_ ?_ ?_ ?_
  · intro l _
    have hsum := hI.reservationIds.sum_updateWhere_key
      (f := ({ · with status := o.status, items := r.items.map o.settled })) (·.chargeOn l) hlookup
    rw [chargeOn_settle o hst] at hsum
    rw [chargedOn, hsum, chargedOn, Call.pending, hstate]
    dsimp only
    omega
  · intro r' hr'
    rcases hmem hr' with rfl | ⟨hr', _⟩
    · intro i hi
      obtain ⟨j, hj, rfl⟩ := mem_map.mp hi
      have hjOk := hI.items r hr j hj
      exact ⟨hjOk.reserved_nonneg, hjOk.window⟩
    · exact hI.items r' hr'
  · intro r' hr' hst'
    rcases hmem hr' with rfl | ⟨hr', _⟩
    · intro i hi
      obtain ⟨j, _, rfl⟩ := mem_map.mp hi
      exact o.actual_nonneg j
    · exact hI.settled r' hr' hst'
  · intro d hd hdc
    have hOk := (hI.calls d hd).state
    rcases hds : d.state with ⟨_, _, _, _, _⟩ | ⟨rid', o', _ | _, todo, done⟩ <;> rw [hds] at hOk
    · exact hOk
    · obtain ⟨hws, hdone, r', hr', hid', htodo⟩ := hOk
      refine ⟨hws, hdone, ?_⟩
      by_cases h : r'.id = rid
      · refine ⟨_, mem_updateWhere.mpr ⟨r', hr', rfl⟩, ?_, ?_⟩
        · simp [h, ← hid']
        · intro hst'
          rw [if_pos (by simpa using h)] at hst'
          exact absurd hst' o.status_ne
      · exact ⟨r', hkeep hr' h, hid', htodo⟩
    · obtain ⟨r', hr', hid', hrest⟩ := hOk
      have hne : r'.id ≠ rid := by
        intro h
        have hclaimc : c.claims rid = true := by simp [Call.claims, hstate]
        have hclaimd : d.claims rid = true := by simp [Call.claims, hds, ← h, hid']
        exact hdc (congrArg Call.cid (hI.claims d hd c hc rid hclaimd hclaimc))
      exact ⟨r', hkeep hr' hne, hid', hrest⟩

/-! ## A call updates a row -/

theorem view_add {limits : List LimitRow} {pending pending' : LimitRow → ℤ} {l₀ : LimitRow}
    {delta : ℤ} (hids : Table.Unique LimitRow.id limits) (hl₀ : l₀ ∈ limits)
    (hview : ∀ l ∈ limits, Txn.view LimitRow.id ws l = l.add (pending l))
    (hadd : pending' l₀ = pending l₀ + delta)
    (hkeep : ∀ l ∈ limits, l.id ≠ l₀.id → pending' l = pending l) (hl : l ∈ limits) :
    Txn.view LimitRow.id ((Txn.view LimitRow.id ws l₀).add delta :: ws) l = l.add (pending' l) := by
  rw [Txn.view_write, LimitRow.add_id, view_id]
  by_cases h : l₀.id = l.id
  · obtain rfl := hids.eq_of_key_eq hl₀ hl h
    rw [if_pos rfl, hview l₀ hl₀, hadd]
    simp only [LimitRow.add, add_assoc]
  · rw [if_neg h, hview l hl, hkeep l hl (Ne.symm h)]

theorem pending_reserved (l : LimitRow) {cid cid' : ℕ} {todo todo' ws' : List LimitRow}
    (i : ReservationItem) :
    Call.pending ⟨cid, .enforcing apiKeyId model tier todo (items ++ [i]), ws⟩ l =
      Call.pending ⟨cid', .enforcing apiKeyId model tier todo' items, ws'⟩ l +
        if i.chargedTo l then i.reservedDelta else 0 := by
  simp [Call.pending, itemSum_singleton]

theorem pending_settled (l : LimitRow) {cid cid' : ℕ} {todo' : List ReservationItem}
    {ws' : List LimitRow} (i : ReservationItem) :
    Call.pending ⟨cid, .settling rid o true todo (done ++ [o.settled i]), ws⟩ l =
      Call.pending ⟨cid', .settling rid o true todo' done, ws'⟩ l +
        if i.chargedTo l then o.actual i - i.reservedDelta else 0 := by
  simp only [Call.pending, itemSum_append, itemSum_singleton, o.settled_chargedTo]
  rfl

theorem chargedTo_iff :
    i.chargedTo l = true ↔ i.limitId = l.id ∧ i.expectedResetAt = l.resetAt := by
  simp [ReservationItem.chargedTo]

theorem UsageState.Inv.reserveNext (hI : s.Inv) (hc : c ∈ s.calls) {todo : List LimitRow}
    (hstate : c.state = .enforcing apiKeyId model tier (l :: todo) items)
    (h : CodexOctopus.reserveNext s c apiKeyId model tier l todo items = some s') : s'.Inv := by
  obtain ⟨cid, state, ws⟩ := c
  subst hstate
  obtain ⟨hitems, hview⟩ := hI.calls _ hc
  have hskip : (s.setCall ⟨cid, .enforcing apiKeyId model tier todo items, ws⟩).Inv :=
    hI.setCall hc rfl ⟨hitems, hview⟩ (fun _ hk => .inl hk) (fun _ hr => .inl hr)
  rw [CodexOctopus.reserveNext] at h
  simp only at h
  split at h
  · exact some.inj h ▸ hskip
  split at h
  · exact some.inj h ▸ hI.dropCall cid
  split at h
  · exact some.inj h ▸ hskip
  next hpos =>
  split at h
  · cases h
  next hfree =>
  split at h
  · exact some.inj h ▸ hI.dropCall cid
  next ws' hws =>
  obtain ⟨l₀, hl₀, hid, hp, rfl⟩ := Txn.update_eq_some hws
  cases h
  have hreset : l₀.resetAt = l.resetAt := by
    have hp' := (of_decide_eq_true hp).1
    rwa [hview l₀ hl₀] at hp'
  have hcharged : (reservedItem l (reserveDeltaForLimit l model tier)).chargedTo l₀ = true :=
    chargedTo_iff.mpr ⟨hid.symm, hreset.symm⟩
  refine hI.setCall hc rfl ⟨?_, ?_⟩ (fun k hk => locks_add (by simpa [hid] using hfree) hk)
    (fun _ hr => .inl hr)
  · intro i hi
    rcases mem_append.mp hi with hi | hi
    · exact hitems i hi
    · obtain rfl := mem_singleton.mp hi
      refine ⟨(not_le.mp hpos).le, ?_⟩
      intro l' hl' hid'
      obtain rfl := hI.limitIds.eq_of_key_eq hl₀ hl' (hid.trans hid'.symm)
      exact hreset.ge
  · intro l' hl'
    refine view_add hI.limitIds hl₀ hview ?_ ?_ hl'
    · rw [pending_reserved, if_pos hcharged]
      rfl
    · intro l'' _ hne
      rw [pending_reserved, if_neg, add_zero]
      intro hch
      exact hne ((chargedTo_iff.mp hch).1.symm.trans hid.symm)

/-! ## The guard of a settlement -/

theorem UsageState.Inv.chargeOn_nonneg (hI : s.Inv) {r : Reservation} (hr : r ∈ s.reservations) :
    0 ≤ r.chargeOn l := by
  refine itemSum_nonneg fun i hi => ?_
  rw [Reservation.charge]
  split
  · exact (hI.items r hr i hi).reserved_nonneg
  · next hst => exact hI.settled r hr hst i hi

theorem UsageState.Inv.reserved_le_view (hI : s.Inv) (hc : c ∈ s.calls)
    (hstate : c.state = .settling rid o true (i :: todo) done) (hl : l ∈ s.limits)
    (hcharged : i.chargedTo l = true) :
    i.reservedDelta ≤ (Txn.view LimitRow.id c.writes l).currentValue := by
  obtain ⟨hOk, hview⟩ := hI.calls c hc
  rw [hstate] at hOk
  obtain ⟨r, hr, hid, hst, seen, hitems, rfl⟩ := hOk
  have htotal : r.chargeOn l ≤ l.currentValue := by
    rw [hI.balance l hl]
    refine single_le_sum ?_ _ (mem_map_of_mem hr)
    intro x hx
    obtain ⟨r', hr', rfl⟩ := mem_map.mp hx
    exact hI.chargeOn_nonneg hr'
  have hreserved : r.chargeOn l = itemSum ReservationItem.reservedDelta seen l + i.reservedDelta +
      itemSum ReservationItem.reservedDelta todo l := by
    have hsum : r.chargeOn l = itemSum ReservationItem.reservedDelta r.items l :=
      itemSum_congr fun j _ => by simp [Reservation.charge, hst]
    rw [hsum, hitems, ← singleton_append, itemSum_append, itemSum_append, itemSum_singleton,
      if_pos hcharged, add_assoc]
  have hpending : c.pending l = itemSum (fun j => o.actual j) seen l -
      itemSum ReservationItem.reservedDelta seen l := by
    rw [Call.pending, hstate]
    dsimp only
    rw [itemSum_map _ o.settled_chargedTo, ← itemSum_sub]
    rfl
  have hactual : 0 ≤ itemSum (fun j => o.actual j) seen l :=
    itemSum_nonneg fun j _ => o.actual_nonneg j
  have htodo : 0 ≤ itemSum ReservationItem.reservedDelta todo l :=
    itemSum_nonneg fun j hj => by
      have hmem : j ∈ r.items := by simp [hitems, hj]
      exact (hI.items r hr j hmem).reserved_nonneg
  rw [hview l hl, LimitRow.add_currentValue, hpending]
  omega

theorem UsageState.Inv.adjustNext (hI : s.Inv) (hc : c ∈ s.calls)
    (hstate : c.state = .settling rid o true (i :: todo) done)
    (h : CodexOctopus.adjustNext s c rid o i todo done = some s') : s'.Inv := by
  have hguard := fun l hl => hI.reserved_le_view (l := l) hc hstate hl
  obtain ⟨cid, state, ws⟩ := c
  subst hstate
  obtain ⟨⟨r, hr, hid, hst, seen, hitems, hdone⟩, hview⟩ := hI.calls _ hc
  have hnext : ∀ ws', CallState.Ok s.limits s.reservations ws'
      (.settling rid o true todo (done ++ [o.settled i])) := by
    intro ws'
    refine ⟨r, hr, hid, hst, seen ++ [i], ?_, ?_⟩
    · simpa using hitems
    · simp [hdone]
  -- an adjustment of nothing, or one that meets no row
  have hsame : (∀ l ∈ s.limits, i.chargedTo l = true → o.actual i - i.reservedDelta = 0) →
      (s.setCall ⟨cid, .settling rid o true todo (done ++ [o.settled i]), ws⟩).Inv := by
    intro hzero
    refine hI.setCall hc rfl ⟨hnext ws, ?_⟩ (fun _ hk => .inl hk) (fun _ hr => .inl hr)
    intro l hl
    rw [hview l hl, pending_settled]
    split
    · next hch => rw [hzero l hl hch, add_zero]
    · rw [add_zero]
  rw [CodexOctopus.adjustNext] at h
  simp only at h
  split at h
  · next hadj =>
    refine some.inj h ▸ hsame fun l hl _ => ?_
    cases o with
    | finalize u => simpa [Settlement.adjusts] using hadj
    | fail u => simpa [Settlement.adjusts] using hadj
    | release => cases hadj
  split at h
  · cases h
  next hfree =>
  cases h
  rcases hws : adjustReservedUsage i.limitId (o.actual i - i.reservedDelta) i.expectedResetAt ws
      s.limits with _ | ws'
  · rw [getD_none]
    refine hsame fun l hl hch => ?_
    have hp := Txn.update_eq_none hI.limitIds hws hl (chargedTo_iff.mp hch).1.symm
    have hle := hguard l hl hch
    have hactual := o.actual_nonneg i
    -- the window is the item's own, so only the guard could have refused
    have hreset : (Txn.view LimitRow.id ws l).resetAt = i.expectedResetAt := by
      rw [hview l hl, LimitRow.add_resetAt, (chargedTo_iff.mp hch).2]
    simp only [decide_eq_false_iff_not, not_and, not_forall, hreset, true_implies] at hp
    obtain ⟨_, hnot⟩ := hp
    dsimp only at hle
    omega
  · rw [getD_some]
    obtain ⟨l₀, hl₀, hid₀, hp, rfl⟩ := Txn.update_eq_some hws
    have hreset : l₀.resetAt = i.expectedResetAt := by
      have hp' := (of_decide_eq_true hp).1
      rwa [hview l₀ hl₀] at hp'
    have hcharged : i.chargedTo l₀ = true := chargedTo_iff.mpr ⟨hid₀.symm, hreset.symm⟩
    refine hI.setCall hc rfl ⟨hnext _, ?_⟩ (fun k hk => locks_add (by simpa [hid₀] using hfree) hk)
      (fun _ hr => .inl hr)
    intro l hl
    refine view_add hI.limitIds hl₀ hview ?_ ?_ hl
    · rw [pending_settled, if_pos hcharged]
    · intro l' _ hne
      rw [pending_settled, if_neg, add_zero]
      intro hch
      exact hne ((chargedTo_iff.mp hch).1.symm.trans hid₀.symm)

/-! ## Every run -/

theorem UsageState.Inv.callStep (hI : s.Inv) (hc : c ∈ s.calls) {a : UsageAct}
    (h : CodexOctopus.callStep s c a = some s') : s'.Inv := by
  cases a with
  | reset | enforce | settle => cases h
  | rollback => exact some.inj h ▸ hI.dropCall c.cid
  | reserve =>
    simp only [CodexOctopus.callStep] at h
    split at h
    · next hstate => exact hI.reserveNext hc hstate h
    · cases h
  | createReservation =>
    simp only [CodexOctopus.callStep] at h
    split at h
    · next hstate =>
      split at h
      · next hguard => exact some.inj h ▸ hI.createReservation hc hstate hguard.1
      · cases h
    · cases h
  | claim =>
    simp only [CodexOctopus.callStep] at h
    split at h
    · next rid o todo done hstate =>
      split at h
      · cases h
      next hfree =>
      split at h
      · exact some.inj h ▸ hI.dropCall c.cid
      next r hr =>
      split at h
      · next hst =>
        cases h
        obtain ⟨cid, state, ws⟩ := c
        subst hstate
        obtain ⟨⟨rfl, rfl, r', hr', hid, htodo⟩, hview⟩ := hI.calls _ hc
        obtain rfl := hI.reservationIds.eq_of_key_eq (mem_of_lookup hr) hr'
          ((key_of_lookup hr).trans hid.symm)
        refine hI.setCall hc rfl ⟨⟨r, hr', hid, hst, [], htodo hst, rfl⟩, hview⟩
          (fun _ hk => .inl hk) ?_
        intro rid' hrid'
        refine .inr ?_
        have heq : rid = rid' := by simpa [Call.claims] using hrid'
        subst heq
        simpa using hfree
      · exact some.inj h ▸ hI.dropCall c.cid
    · cases h
  | adjust =>
    simp only [CodexOctopus.callStep] at h
    split at h
    · next hstate => exact hI.adjustNext hc hstate h
    · cases h
  | finish =>
    simp only [CodexOctopus.callStep] at h
    split at h
    · next hstate => exact some.inj h ▸ hI.finish hc hstate
    · cases h

theorem UsageState.Inv.step (hI : s.Inv) {a : UsageAct} (h : usageStep s a = some s') : s'.Inv := by
  unfold usageStep at h
  split at h
  · split at h
    · next hguard =>
      exact some.inj h ▸ hI.reset hguard.1 (by simpa using hguard.2)
    · cases h
  · split at h
    · next hfresh =>
      cases h
      exact hI.addCall hfresh ⟨fun i hi => absurd hi not_mem_nil, fun l _ => by
        simp [Call.pending, LimitRow.add]⟩ rfl fun _ => rfl
    · cases h
  · split at h
    · next hfresh =>
      split at h
      · exact some.inj h ▸ hI
      next r hr =>
      split at h
      · cases h
        exact hI.addCall hfresh
          ⟨⟨rfl, rfl, r, mem_of_lookup hr, key_of_lookup hr, fun _ => rfl⟩, fun l _ => by
            simp [Call.pending, LimitRow.add]⟩ rfl fun _ => rfl
      · exact some.inj h ▸ hI
    · cases h
  · split at h
    · cases h
    · next c hc =>
      obtain ⟨cid, _, hlookup⟩ := bind_eq_some_iff.mp hc
      exact hI.callStep (mem_of_lookup hlookup) h

theorem adjustNext_eq_some (h : adjustNext s c rid o i todo done = some s') :
    ∃ ws, s' = s.setCall ⟨c.cid, .settling rid o true todo (done ++ [o.settled i]), ws⟩ := by
  rw [adjustNext] at h
  simp only at h
  split at h
  · exact ⟨_, (some.inj h).symm⟩
  · split at h
    · cases h
    · exact ⟨_, (some.inj h).symm⟩

theorem UsageState.Inv.adjust_exact (hI : s.Inv) (hc : c ∈ s.calls)
    (hstate : c.state = .settling rid o true (i :: todo) done)
    (h : usageStep s (.adjust c.cid) = some s') :
    ∃ c' ∈ s'.calls, c'.cid = c.cid ∧
      c'.state = .settling rid o true todo (done ++ [o.settled i]) ∧
      ∀ l ∈ s.limits, Txn.view LimitRow.id c'.writes l = (Txn.view LimitRow.id c.writes l).add
        (if i.chargedTo l then o.actual i - i.reservedDelta else 0) := by
  have hI' := hI.step h
  have hnext : CodexOctopus.adjustNext s c rid o i todo done = some s' := by
    simpa [usageStep, UsageAct.cid, hI.cids.lookup_eq hc, CodexOctopus.callStep, hstate] using h
  obtain ⟨ws, rfl⟩ := adjustNext_eq_some hnext
  obtain ⟨cid, state, ws₀⟩ := c
  subst hstate
  have hc' : (⟨cid, .settling rid o true todo (done ++ [o.settled i]), ws⟩ : Call) ∈
      (s.setCall ⟨cid, .settling rid o true todo (done ++ [o.settled i]), ws⟩).calls :=
    mem_updateWhere.mpr ⟨_, hc, by simp⟩
  refine ⟨_, hc', rfl, rfl, ?_⟩
  intro l hl
  rw [(hI'.calls _ hc').view l hl, (hI.calls _ hc).view l hl, pending_settled]
  simp only [LimitRow.add, add_assoc]
  rfl

/-- Tables in balance that no call is working on, such as those of a new key. -/
structure UsageState.Quiet (s : UsageState) : Prop where
  limitIds : Table.Unique LimitRow.id s.limits
  reservationIds : Table.Unique Reservation.id s.reservations
  noCalls : s.calls = []
  balance : ∀ l ∈ s.limits, l.currentValue = chargedOn s.reservations l
  items : ∀ r ∈ s.reservations, ∀ i ∈ r.items, ItemOk s.limits i
  settled : ∀ r ∈ s.reservations, r.status ≠ .reserved → ∀ i ∈ r.items, 0 ≤ i.actualDelta.getD 0

theorem UsageState.Quiet.inv (hQ : s.Quiet) : s.Inv := { hQ with
  cids := by simp [hQ.noCalls, Table.Unique]
  calls c hc := by simp [hQ.noCalls] at hc
  locks c hc := by simp [hQ.noCalls] at hc
  claims c hc := by simp [hQ.noCalls] at hc }

/-- **Usage is conserved.** In every state of every run, each limit's `current_value` is what the
reservations charge to its window. Each reservation is one row and counts once; a round of a
settlement changes the limit of its item by the whole difference if the window is still the same,
and nothing else. -/
theorem usage_conserved {s₀ : UsageState} {acts : List UsageAct} (hQ : s₀.Quiet)
    (hrun : run usageStep acts s₀ = some s) :
    (∀ l ∈ s.limits, l.currentValue = chargedOn s.reservations l) ∧
    Table.Unique Reservation.id s.reservations ∧
    ∀ c ∈ s.calls, ∀ rid o i todo done, c.state = .settling rid o true (i :: todo) done →
      ∀ s', usageStep s (.adjust c.cid) = some s' →
        ∃ c' ∈ s'.calls, c'.cid = c.cid ∧
          c'.state = .settling rid o true todo (done ++ [o.settled i]) ∧
          ∀ l ∈ s.limits, Txn.view LimitRow.id c'.writes l =
            (Txn.view LimitRow.id c.writes l).add
              (if i.chargedTo l then o.actual i - i.reservedDelta else 0) := by
  have hI : s.Inv := run_invariant (fun hI hstep => hI.step hstep) hQ.inv hrun
  refine ⟨hI.balance, hI.reservationIds, ?_⟩
  intro c hc rid o i todo done hstate s' hstep
  exact hI.adjust_exact hc hstate hstep

end

def newKeyTables : UsageState where
  limits := [⟨1, "key", .totalTokens, .daily, 20000, 0, none, 86400000000⟩]
  reservations := []
  calls := []

theorem newKeyTables_quiet : newKeyTables.Quiet where
  limitIds := nodup_singleton _
  reservationIds := nodup_nil
  noCalls := rfl
  balance := by decide
  items := by simp [newKeyTables]
  settled := by simp [newKeyTables]

def smallReport : UsageReport := ⟨"gpt-5", some 10, some 5, none, none, by decide⟩

def twoReservationsRun : List UsageAct :=
  [.enforce 1 "key" (some "gpt-5") none, .enforce 2 "key" (some "gpt-5") none, .reserve 1,
    .createReservation 1 "r1", .reserve 2, .createReservation 2 "r2",
    .settle 3 "r1" (.finalize smallReport), .claim 3, .adjust 3, .finish 3,
    .settle 4 "r2" .release, .settle 5 "r2" (.fail smallReport), .claim 4]

theorem usage_conserved_two_reservations :
    ∃ s, run usageStep twoReservationsRun newKeyTables = some s ∧
      s.limits.map LimitRow.currentValue = [8207] ∧
      ∀ l ∈ s.limits, l.currentValue = chargedOn s.reservations l := by
  have hrun : run usageStep twoReservationsRun newKeyTables = some _ := rfl
  exact ⟨_, hrun, by decide, (usage_conserved newKeyTables_quiet hrun).1⟩

end CodexOctopus

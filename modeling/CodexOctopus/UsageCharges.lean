import CodexOctopus.UsageSystem

/-!
# What the reservations charge

What each reservation charges to the window a limit is in: `reserved_delta` while it is
reserved, `actual_delta` once it is settled. The invariant that ties `current_value` to
it speaks about the committed tables and about every open call: the rows a call has
updated differ from the committed ones by exactly what its commit will add to the
charges (`pending`), and row locks keep the committed row still meanwhile.
-/

namespace CodexOctopus

open List Table

/-! ## Charges -/

def ReservationItem.chargedTo (l : LimitRow) (i : ReservationItem) : Bool :=
  i.limitId = l.id ∧ i.expectedResetAt = l.resetAt

def itemSum (f : ReservationItem → ℤ) (items : List ReservationItem) (l : LimitRow) : ℤ :=
  ((items.filter (·.chargedTo l)).map f).sum

def Reservation.charge (r : Reservation) (i : ReservationItem) : ℤ :=
  if r.status = .reserved then i.reservedDelta else i.actualDelta.getD 0

def Reservation.chargeOn (l : LimitRow) (r : Reservation) : ℤ := itemSum r.charge r.items l

def chargedOn (reservations : List Reservation) (l : LimitRow) : ℤ :=
  (reservations.map (·.chargeOn l)).sum

def Call.pending (c : Call) (l : LimitRow) : ℤ :=
  match c.state with
  | .enforcing _ _ _ _ items => itemSum ReservationItem.reservedDelta items l
  | .settling _ _ _ _ done => itemSum (fun i => i.actualDelta.getD 0 - i.reservedDelta) done l

section

variable {f g : ReservationItem → ℤ} {items items' : List ReservationItem} {l l' : LimitRow}

@[simp] theorem itemSum_nil : itemSum f [] l = 0 := rfl

@[simp] theorem itemSum_append :
    itemSum f (items ++ items') l = itemSum f items l + itemSum f items' l := by
  simp [itemSum]

theorem itemSum_singleton (i : ReservationItem) :
    itemSum f [i] l = if i.chargedTo l then f i else 0 := by
  by_cases h : i.chargedTo l <;> simp [itemSum, h]

theorem itemSum_congr_limit (hid : l.id = l'.id) (hreset : l.resetAt = l'.resetAt) :
    itemSum f items l = itemSum f items l' := by
  simp only [itemSum, ReservationItem.chargedTo, hid, hreset]

theorem itemSum_congr (h : ∀ i ∈ items, f i = g i) : itemSum f items l = itemSum g items l := by
  have hmap : (items.filter (·.chargedTo l)).map f = (items.filter (·.chargedTo l)).map g :=
    map_congr_left fun i hi => h i (mem_of_mem_filter hi)
  rw [itemSum, hmap, itemSum]

theorem itemSum_map (h : ReservationItem → ReservationItem)
    (hcharged : ∀ i, (h i).chargedTo l = i.chargedTo l) :
    itemSum f (items.map h) l = itemSum (f ∘ h) items l := by
  induction items with
  | nil => rfl
  | cons i items ih =>
    rw [map_cons, ← singleton_append, itemSum_append, ih, itemSum_singleton, hcharged,
      ← singleton_append (l := items), itemSum_append, itemSum_singleton, Function.comp]

theorem itemSum_sub : itemSum (fun i => f i - g i) items l = itemSum f items l - itemSum g items
    l := by
  induction items with
  | nil => rfl
  | cons i items ih =>
    rw [← singleton_append, itemSum_append, itemSum_append, itemSum_append, ih,
      itemSum_singleton, itemSum_singleton, itemSum_singleton]
    split <;> omega

theorem itemSum_nonneg (h : ∀ i ∈ items, 0 ≤ f i) : 0 ≤ itemSum f items l := by
  refine sum_nonneg fun x hx => ?_
  obtain ⟨i, hi, rfl⟩ := mem_map.mp hx
  exact h i (mem_of_mem_filter hi)

theorem itemSum_eq_zero (h : ∀ i ∈ items, i.limitId = l.id → i.expectedResetAt < l.resetAt) :
    itemSum f items l = 0 := by
  have hnone : items.filter (·.chargedTo l) = [] := by
    refine filter_eq_nil_iff.mpr fun i hi hc => ?_
    simp only [ReservationItem.chargedTo, decide_eq_true_eq] at hc
    exact absurd hc.2 (h i hi hc.1).ne
  rw [itemSum, hnone]
  rfl

theorem chargedOn_congr_limit {rs : List Reservation} (hid : l.id = l'.id)
    (hreset : l.resetAt = l'.resetAt) : chargedOn rs l = chargedOn rs l' := by
  have hmap : rs.map (·.chargeOn l) = rs.map (·.chargeOn l') :=
    map_congr_left fun r _ => itemSum_congr_limit hid hreset
  rw [chargedOn, hmap, chargedOn]

theorem pending_congr_limit (c : Call) (hid : l.id = l'.id) (hreset : l.resetAt = l'.resetAt) :
    c.pending l = c.pending l' := by
  unfold Call.pending
  split <;> exact itemSum_congr_limit hid hreset

end

/-! ## The invariant -/

structure ItemOk (limits : List LimitRow) (i : ReservationItem) : Prop where
  reserved_nonneg : 0 ≤ i.reservedDelta
  window : ∀ l ∈ limits, l.id = i.limitId → i.expectedResetAt ≤ l.resetAt

def CallState.Ok (limits : List LimitRow) (reservations : List Reservation) (writes : List LimitRow)
    :
    CallState → Prop
  | .enforcing _ _ _ _ items => ∀ i ∈ items, ItemOk limits i
  | .settling rid _ false todo done =>
    writes = [] ∧ done = [] ∧
      ∃ r ∈ reservations, r.id = rid ∧ (r.status = .reserved → r.items = todo)
  | .settling rid o true todo done =>
    ∃ r ∈ reservations, r.id = rid ∧ r.status = .reserved ∧
      ∃ seen, r.items = seen ++ todo ∧ done = seen.map o.settled

structure Call.Ok (limits : List LimitRow) (reservations : List Reservation) (c : Call) : Prop where
  state : c.state.Ok limits reservations c.writes
  view : ∀ l ∈ limits, Txn.view LimitRow.id c.writes l = l.add (c.pending l)

structure UsageState.Inv (s : UsageState) : Prop where
  limitIds : Unique LimitRow.id s.limits
  reservationIds : Unique Reservation.id s.reservations
  cids : Unique Call.cid s.calls
  balance : ∀ l ∈ s.limits, l.currentValue = chargedOn s.reservations l
  items : ∀ r ∈ s.reservations, ∀ i ∈ r.items, ItemOk s.limits i
  settled : ∀ r ∈ s.reservations, r.status ≠ .reserved → ∀ i ∈ r.items, 0 ≤ i.actualDelta.getD 0
  calls : ∀ c ∈ s.calls, c.Ok s.limits s.reservations
  locks : s.Exclusive
  claims : ∀ c ∈ s.calls, ∀ c' ∈ s.calls, ∀ rid, c.claims rid = true → c'.claims rid = true → c = c'

section

variable {s s' : UsageState} {c c' : Call} {l : LimitRow} {k : ℕ}

theorem ItemOk.mono {limits limits' : List LimitRow} {i : ReservationItem} (h : ItemOk limits i)
    (hlimits : ∀ l' ∈ limits', ∃ l ∈ limits, l.id = l'.id ∧ l.resetAt ≤ l'.resetAt) :
    ItemOk limits' i := by
  refine ⟨h.reserved_nonneg, ?_⟩
  intro l' hl' hid
  obtain ⟨l, hl, hid', hle⟩ := hlimits l' hl'
  exact (h.window l hl (hid'.trans hid)).trans hle

theorem CallState.Ok.mono {limits limits' ws : List LimitRow} {rs : List Reservation}
    {state : CallState} (h : state.Ok limits rs ws)
    (hlimits : ∀ l' ∈ limits', ∃ l ∈ limits, l.id = l'.id ∧ l.resetAt ≤ l'.resetAt) :
    state.Ok limits' rs ws := by
  rcases state with ⟨_, _, _, _, items⟩ | ⟨_, _, _ | _, _, _⟩
  · exact fun i hi => (h i hi).mono hlimits
  · exact h
  · exact h

theorem CallState.Ok.append {limits ws : List LimitRow} {rs rs' : List Reservation}
    {state : CallState} (h : state.Ok limits rs ws) : state.Ok limits (rs ++ rs') ws := by
  rcases state with ⟨_, _, _, _, _⟩ | ⟨_, _, _ | _, _, _⟩
  · exact h
  · obtain ⟨hws, hdone, r, hr, hrest⟩ := h
    exact ⟨hws, hdone, r, mem_append_left _ hr, hrest⟩
  · obtain ⟨r, hr, hrest⟩ := h
    exact ⟨r, mem_append_left _ hr, hrest⟩

/-! ## Calls that come, change and go -/

theorem UsageState.Inv.dropCall (hI : s.Inv) (cid : ℕ) : (s.dropCall cid).Inv := { hI with
  cids := unique_dropCall hI.cids
  calls d hd := hI.calls d (mem_dropCall.mp hd).1
  locks := hI.locks.dropCall
  claims d hd d' hd' := hI.claims d (mem_dropCall.mp hd).1 d' (mem_dropCall.mp hd').1 }

theorem UsageState.Inv.addCall (hI : s.Inv) (hfresh : lookup Call.cid s.calls c.cid = none)
    (hOk : c.Ok s.limits s.reservations) (hwrites : c.writes = [])
    (hclaims : ∀ rid, c.claims rid = false) :
    UsageState.Inv { s with calls := s.calls ++ [c] } := by
  have hmem : ∀ {d : Call}, d ∈ s.calls ++ [c] → d ∈ s.calls ∨ d = c := by
    intro d hd
    simpa using hd
  refine ⟨hI.limitIds, hI.reservationIds, hI.cids.append_singleton hfresh, hI.balance, hI.items,
    hI.settled, ?_, hI.locks.addCall hwrites, ?_⟩
  · intro d hd
    rcases hmem hd with hd | rfl
    · exact hI.calls d hd
    · exact hOk
  · intro d hd d' hd' rid hr hr'
    rcases hmem hd with hd | rfl
    · rcases hmem hd' with hd' | rfl
      · exact hI.claims d hd d' hd' rid hr hr'
      · rw [hclaims] at hr'
        cases hr'
    · rw [hclaims] at hr
      cases hr

theorem UsageState.Inv.setCall (hI : s.Inv) (hc : c ∈ s.calls) (hcid : c'.cid = c.cid)
    (hOk : c'.Ok s.limits s.reservations)
    (hlocks : ∀ k, Txn.locks LimitRow.id c'.writes k = true →
      Txn.locks LimitRow.id c.writes k = true ∨ s.lockedFor c.cid k = false)
    (hclaims : ∀ rid, c'.claims rid = true →
      c.claims rid = true ∨ ∀ d ∈ s.calls, d.claims rid = false) : (s.setCall c').Inv := by
  have hclaim : ∀ {d : Call} {rid : String}, d ∈ s.calls → d.cid ≠ c'.cid →
      c'.claims rid = true → d.claims rid = false := by
    intro d rid hd hdc hr
    rw [hcid] at hdc
    rcases hclaims rid hr with hr | hr
    · exact Bool.eq_false_iff.mpr fun hdr => hdc (congrArg Call.cid
        (hI.claims d hd c hc rid hdr hr))
    · exact hr d hd
  refine ⟨hI.limitIds, hI.reservationIds, unique_setCall hI.cids, hI.balance, hI.items, hI.settled,
    ?_, hI.locks.setCall hc hcid hlocks, ?_⟩
  · intro d hd
    rcases mem_setCall hd with rfl | ⟨hmd, _⟩
    · exact hOk
    · exact hI.calls d hmd
  · intro d hd d' hd' rid hr hr'
    rcases mem_setCall hd with rfl | ⟨hmd, hdc⟩
    · rcases mem_setCall hd' with rfl | ⟨hmd', hdc'⟩
      · rfl
      · rw [hclaim hmd' hdc' hr] at hr'
        cases hr'
    · rcases mem_setCall hd' with rfl | ⟨hmd', _⟩
      · rw [hclaim hmd hdc hr'] at hr
        cases hr
      · exact hI.claims d hmd d' hmd' rid hr hr'

end

end CodexOctopus

import CodexOctopus.Run
import CodexOctopus.Transactions
import CodexOctopus.ApiKeys

/-!
# Reserving and settling usage

`enforce_limits_for_request`, `finalize_usage_reservation`, `fail_usage_reservation`
and `release_usage_reservation` of `app/modules/api_keys/service.py`, any number of
them at once. A call reads what it needs, runs its `UPDATE` statements one by one in
a transaction and commits; it may be rolled back at any point. Each statement is one
step. A statement on a row that another open transaction has updated waits, that is,
it is not a step until the other one has ended.

The lazy reset of an expired window commits by itself and is a step of its own, which
any call may take at any time.
-/

namespace CodexOctopus

open List Table

/-! ## Statements of the repository -/

def LimitRow.add (delta : ℤ) (l : LimitRow) : LimitRow :=
  { l with currentValue := l.currentValue + delta }

@[simp] theorem LimitRow.add_id (delta : ℤ) (l : LimitRow) : (l.add delta).id = l.id := rfl

@[simp] theorem LimitRow.add_resetAt (delta : ℤ) (l : LimitRow) :
    (l.add delta).resetAt = l.resetAt := rfl

@[simp] theorem LimitRow.add_currentValue (delta : ℤ) (l : LimitRow) :
    (l.add delta).currentValue = l.currentValue + delta := rfl

def tryReserveUsage (limitId : ℕ) (delta expectedResetAt : ℤ) :
    List LimitRow → List LimitRow → Option (List LimitRow) :=
  Txn.update LimitRow.id limitId
    (fun l => l.resetAt = expectedResetAt ∧ l.currentValue + delta ≤ l.maxValue) (·.add delta)

/-- The `UPDATE` of `adjust_reserved_usage`; the last condition is there only for a
negative adjustment. -/
def adjustReservedUsage (limitId : ℕ) (delta expectedResetAt : ℤ) :
    List LimitRow → List LimitRow → Option (List LimitRow) :=
  Txn.update LimitRow.id limitId
    (fun l => l.resetAt = expectedResetAt ∧ (delta < 0 → -delta ≤ l.currentValue)) (·.add delta)

def resetLimit (limitId : ℕ) (expectedResetAt now : ℤ) (limits : List LimitRow) : List LimitRow :=
  updateWhere (fun l => l.id = limitId ∧ l.resetAt = expectedResetAt)
    (fun l =>
      { l with currentValue := 0, resetAt := advanceReset expectedResetAt now l.limitWindow })
    limits

/-! ## Calls -/

inductive Settlement : Type where
  | finalize (report : UsageReport)
  | fail (report : UsageReport)
  | release

def Settlement.status : Settlement → ReservationStatus
  | .finalize _ => .finalized
  | .fail _ => .failed
  | .release => .released

def Settlement.actual (o : Settlement) (i : ReservationItem) : ℤ :=
  match o with
  | .finalize u | .fail u =>
    computeIncrementForLimitType (u.inputTokens.getD 0) (u.outputTokens.getD 0)
      u.costMicrodollars i.limitType
  | .release => 0

def Settlement.settled (o : Settlement) (i : ReservationItem) : ReservationItem :=
  { i with actualDelta := some (o.actual i) }

def Settlement.adjusts (o : Settlement) (i : ReservationItem) : Bool :=
  match o with
  | .release => true
  | .finalize _ | .fail _ => o.actual i - i.reservedDelta ≠ 0

/-- Where a call is. `todo` is what its loop has still to go through. -/
inductive CallState : Type where
  /-- `enforce_limits_for_request`, over the limits it has read -/
  | enforcing (apiKeyId : String) (requestModel requestServiceTier : Option String)
      (todo : List LimitRow) (items : List ReservationItem)
  /-- a settlement, over the items it has read; `claimed` once the reservation's status
  is `settling` (or `released`) in the transaction -/
  | settling (reservationId : String) (outcome : Settlement) (claimed : Bool)
      (todo done : List ReservationItem)

structure Call where
  cid : ℕ
  state : CallState
  writes : List LimitRow

structure UsageState where
  limits : List LimitRow
  reservations : List Reservation
  calls : List Call

inductive UsageAct : Type where
  | reset (limitId : ℕ) (expectedResetAt now : ℤ)
  | enforce (cid : ℕ) (apiKeyId : String) (requestModel requestServiceTier : Option String)
  | reserve (cid : ℕ)
  | createReservation (cid : ℕ) (reservationId : String)
  | settle (cid : ℕ) (reservationId : String) (outcome : Settlement)
  | claim (cid : ℕ)
  | adjust (cid : ℕ)
  | finish (cid : ℕ)
  | rollback (cid : ℕ)

def UsageState.lockedFor (s : UsageState) (cid limitId : ℕ) : Bool :=
  s.calls.any fun c => c.cid ≠ cid && Txn.locks LimitRow.id c.writes limitId

def Call.claims (c : Call) (reservationId : String) : Bool :=
  match c.state with
  | .settling rid _ true _ _ => rid = reservationId
  | _ => false

def UsageState.setCall (s : UsageState) (c : Call) : UsageState :=
  { s with calls := updateWhere (fun c' => c'.cid = c.cid) (fun _ => c) s.calls }

def UsageState.dropCall (s : UsageState) (cid : ℕ) : UsageState :=
  { s with calls := s.calls.filter (·.cid ≠ cid) }

def reservedItem (l : LimitRow) (delta : ℤ) : ReservationItem :=
  ⟨l.id, l.limitType, delta, l.resetAt, none⟩

def reserveNext (s : UsageState) (c : Call) (apiKeyId : String)
    (model tier : Option String) (l : LimitRow) (todo : List LimitRow)
    (items : List ReservationItem) : Option UsageState :=
  let skip := s.setCall { c with state := .enforcing apiKeyId model tier todo items }
  if limitAppliesForRequest l model = false then some skip
  else if l.maxValue ≤ l.currentValue then some (s.dropCall c.cid)
  else
    let delta := reserveDeltaForLimit l model tier
    if delta ≤ 0 then some skip
    else if s.lockedFor c.cid l.id then none
    else
      match tryReserveUsage l.id delta l.resetAt c.writes s.limits with
      | none => some (s.dropCall c.cid)
      | some ws =>
        some (s.setCall ⟨c.cid,
          .enforcing apiKeyId model tier todo (items ++ [reservedItem l delta]), ws⟩)

/-- One round of a settlement. The result of the `UPDATE` is not looked at. -/
def adjustNext (s : UsageState) (c : Call) (reservationId : String) (o : Settlement)
    (i : ReservationItem) (todo done : List ReservationItem) : Option UsageState :=
  let next := CallState.settling reservationId o true todo (done ++ [o.settled i])
  if o.adjusts i = false then some (s.setCall { c with state := next })
  else if s.lockedFor c.cid i.limitId then none
  else
    let delta := o.actual i - i.reservedDelta
    let ws := (adjustReservedUsage i.limitId delta i.expectedResetAt c.writes s.limits).getD
      c.writes
    some (s.setCall ⟨c.cid, next, ws⟩)

def callStep (s : UsageState) (c : Call) : UsageAct → Option UsageState
  | .reserve _ =>
    match c.state with
    | .enforcing apiKeyId model tier (l :: todo) items =>
      reserveNext s c apiKeyId model tier l todo items
    | _ => none
  | .createReservation _ reservationId =>
    match c.state with
    | .enforcing apiKeyId model _ [] items =>
      -- the unique constraints on reservations and on their items
      if lookup Reservation.id s.reservations reservationId = none ∧
          (items.map ReservationItem.limitId).Nodup then
        some { s.dropCall c.cid with
          limits := Txn.commit LimitRow.id c.writes s.limits
          reservations :=
            s.reservations ++ [⟨reservationId, apiKeyId, model.getD "", .reserved, items⟩] }
      else none
    | _ => none
  | .claim _ =>
    match c.state with
    | .settling reservationId o false todo done =>
      if s.calls.any (·.claims reservationId) then none
      else
        match lookup Reservation.id s.reservations reservationId with
        | none => some (s.dropCall c.cid)
        | some r =>
          if r.status = .reserved then
            some (s.setCall { c with state := .settling reservationId o true todo done })
          else some (s.dropCall c.cid)
    | _ => none
  | .adjust _ =>
    match c.state with
    | .settling reservationId o true (i :: todo) done => adjustNext s c reservationId o i todo done
    | _ => none
  | .finish _ =>
    match c.state with
    | .settling reservationId o true [] done =>
      some { s.dropCall c.cid with
        limits := Txn.commit LimitRow.id c.writes s.limits
        reservations :=
          updateWhere (fun r => r.id = reservationId)
            ({ · with status := o.status, items := done }) s.reservations }
    | _ => none
  | .rollback _ => some (s.dropCall c.cid)
  | .reset .. | .enforce .. | .settle .. => none

def UsageAct.cid : UsageAct → Option ℕ
  | .reserve cid | .createReservation cid _ | .claim cid | .adjust cid | .finish cid
  | .rollback cid => some cid
  | .reset .. | .enforce .. | .settle .. => none

def usageStep (s : UsageState) (a : UsageAct) : Option UsageState :=
  match a with
  | .reset limitId expectedResetAt now =>
    if expectedResetAt < now ∧ s.calls.all (!Txn.locks LimitRow.id ·.writes limitId) then
      some { s with limits := resetLimit limitId expectedResetAt now s.limits }
    else none
  | .enforce cid apiKeyId model tier =>
    if lookup Call.cid s.calls cid = none then
      some { s with
        calls := s.calls ++
          [⟨cid, .enforcing apiKeyId model tier (s.limits.filter (·.apiKeyId = apiKeyId)) [], []⟩] }
    else none
  | .settle cid reservationId o =>
    if lookup Call.cid s.calls cid = none then
      match lookup Reservation.id s.reservations reservationId with
      | none => some s
      | some r =>
        if r.status = .reserved then
          some { s with
            calls := s.calls ++ [⟨cid, .settling reservationId o false r.items [], []⟩] }
        else some s
    else none
  | a =>
    match a.cid.bind (lookup Call.cid s.calls) with
    | none => none
    | some c => callStep s c a

/-! ## Open calls and their locks -/

/-- **A limit row is locked by one call at most.** -/
def UsageState.Exclusive (s : UsageState) : Prop :=
  ∀ c ∈ s.calls, ∀ c' ∈ s.calls, ∀ k, Txn.locks LimitRow.id c.writes k = true →
    Txn.locks LimitRow.id c'.writes k = true → c = c'

section

variable {s : UsageState} {c c' d : Call} {l : LimitRow} {k cid : ℕ}

theorem lockedFor_eq_false : s.lockedFor cid k = false ↔
    ∀ d ∈ s.calls, d.cid ≠ cid → Txn.locks LimitRow.id d.writes k = false := by
  simp [UsageState.lockedFor, any_eq_false]

@[simp] theorem view_id (ws : List LimitRow) : (Txn.view LimitRow.id ws l).id = l.id := Txn.key_view

theorem locks_add {ws : List LimitRow} {delta : ℤ} (hfree : s.lockedFor cid l.id = false)
    (hk : Txn.locks LimitRow.id ((Txn.view LimitRow.id ws l).add delta :: ws) k = true) :
    Txn.locks LimitRow.id ws k = true ∨ s.lockedFor cid k = false := by
  rw [Txn.locks_write, Bool.or_eq_true, decide_eq_true_eq, LimitRow.add_id, view_id] at hk
  rcases hk with rfl | hk
  · exact .inr hfree
  · exact .inl hk

theorem mem_dropCall : c ∈ (s.dropCall cid).calls ↔ c ∈ s.calls ∧ c.cid ≠ cid := by
  simp [UsageState.dropCall]

theorem mem_setCall (h : d ∈ (s.setCall c).calls) : d = c ∨ d ∈ s.calls ∧ d.cid ≠ c.cid := by
  obtain ⟨d₀, hd₀, rfl⟩ := mem_updateWhere.mp h
  by_cases hd : d₀.cid = c.cid
  · exact .inl (by simp [hd])
  · exact .inr (by simp [hd, hd₀])

theorem unique_dropCall (h : Unique Call.cid s.calls) :
    Unique Call.cid (s.dropCall cid).calls :=
  List.Nodup.sublist (List.Sublist.map _ filter_sublist) h

theorem unique_setCall (h : Unique Call.cid s.calls) :
    Unique Call.cid (s.setCall c).calls :=
  h.update_of fun _ hd => (of_decide_eq_true hd).symm

theorem UsageState.Exclusive.dropCall (h : s.Exclusive) : (s.dropCall cid).Exclusive :=
  fun d hd d' hd' => h d (mem_dropCall.mp hd).1 d' (mem_dropCall.mp hd').1

theorem UsageState.Exclusive.addCall (h : s.Exclusive) (hwrites : c.writes = []) :
    UsageState.Exclusive { s with calls := s.calls ++ [c] } := by
  intro d hd d' hd' k hk hk'
  rcases mem_append.mp hd with hd | hd
  · rcases mem_append.mp hd' with hd' | hd'
    · exact h d hd d' hd' k hk hk'
    · rw [mem_singleton.mp hd', hwrites] at hk'
      cases hk'
  · rw [mem_singleton.mp hd, hwrites] at hk
    cases hk

theorem UsageState.Exclusive.setCall (h : s.Exclusive) (hc : c ∈ s.calls) (hcid : c'.cid = c.cid)
    (hlocks : ∀ k, Txn.locks LimitRow.id c'.writes k = true →
      Txn.locks LimitRow.id c.writes k = true ∨ s.lockedFor c.cid k = false) :
    (s.setCall c').Exclusive := by
  have hlock : ∀ {d : Call} {k : ℕ}, d ∈ s.calls → d.cid ≠ c'.cid →
      Txn.locks LimitRow.id c'.writes k = true → Txn.locks LimitRow.id d.writes k = false := by
    intro d k hd hdc hk
    rw [hcid] at hdc
    rcases hlocks k hk with hk | hk
    · exact Bool.eq_false_iff.mpr fun hdk => hdc (congrArg Call.cid (h d hd c hc k hdk hk))
    · exact lockedFor_eq_false.mp hk d hd hdc
  intro d hd d' hd' k hk hk'
  rcases mem_setCall hd with rfl | ⟨hmd, hdc⟩
  · rcases mem_setCall hd' with rfl | ⟨hmd', hdc'⟩
    · rfl
    · rw [hlock hmd' hdc' hk] at hk'
      cases hk'
  · rcases mem_setCall hd' with rfl | ⟨hmd', _⟩
    · rw [hlock hmd hdc hk'] at hk
      cases hk
    · exact h d hmd d' hmd' k hk hk'

end

end CodexOctopus

import CodexOctopus.Threads
import CodexOctopus.UsageSystem

/-!
# Enforcing the limits of a request

`enforce_limits_for_request` as a program: it reads the key with its limits, resets the
windows that have expired, each with a commit of its own, and reads again if there was
one. Then it reserves on one limit after the other in a transaction, and commits them
together with the reservation; whatever is raised in between rolls back.

Many such calls run at once, and others write to the tables as they like: settlements,
resets and edits are the environment, which only respects the rows that an open
transaction has updated. Every statement may raise. A commit that raises has not happened.
-/

namespace CodexOctopus.LimitEnforcement

open List Option Table Interaction Lts

structure KeyRow where
  id : String
  isActive : Bool
  expiresAt : Option ℤ

structure World where
  keys : List KeyRow
  limits : List LimitRow
  reservations : List Reservation
  transactions : List (ℕ × List LimitRow)
  clock : ℤ

def World.writes (w : World) (tid : ℕ) : List LimitRow :=
  ((w.transactions.find? fun x => x.1 = tid).map Prod.snd).getD []

def World.lockedFor (w : World) (tid limitId : ℕ) : Bool :=
  w.transactions.any fun x => x.1 ≠ tid && Txn.locks LimitRow.id x.2 limitId

def World.endTransaction (w : World) (tid : ℕ) : World :=
  { w with transactions := w.transactions.filter (·.1 ≠ tid) }

def World.setWrites (w : World) (tid : ℕ) (ws : List LimitRow) : World :=
  { w with transactions := (tid, ws) :: (w.endTransaction tid).transactions }

inductive EnforceError : Type where
  | invalid (message : String)
  | rateLimitExceeded (message : String) (resetAt : ℤ)
  | database
  deriving DecidableEq

def limitTypeValue : LimitType → String
  | .totalTokens => "total_tokens"
  | .inputTokens => "input_tokens"
  | .outputTokens => "output_tokens"
  | .costUsd => "cost_usd"
  | .credits => "credits"

def limitWindowValue : LimitWindow → String
  | .daily => "daily"
  | .weekly => "weekly"
  | .monthly => "monthly"
  | .fiveHours => "5h"
  | .sevenDays => "7d"

def rateLimitExceededError (limit : LimitRow) : EnforceError :=
  .rateLimitExceeded
    ("API key " ++ limitTypeValue limit.limitType ++ " " ++ limitWindowValue limit.limitWindow ++
      " limit exceeded" ++
      ((limit.modelFilter.filter (· ≠ "")).map (" for model " ++ ·)).getD "")
    limit.resetAt

inductive Op : Type where
  | utcnow
  | getById (keyId : String)
  | resetLimit (limitId : ℕ) (expectedResetAt now : ℤ)
  | tryReserveUsage (limitId : ℕ) (delta expectedResetAt : ℤ)
  | commitReservation (reservation : Reservation)
  | rollback

abbrev Op.Ans : Op → Type
  | .utcnow => ℤ
  | .getById _ => Option (Option (KeyRow × List LimitRow))
  | .resetLimit _ _ _ => Option Unit
  | .tryReserveUsage _ _ _ => Option Bool
  | .commitReservation _ => Option Unit
  | .rollback => Unit

structure Call where
  keyId : String
  requestModel : Option String
  requestServiceTier : Option String
  reservationId : String
  deriving DecidableEq

structure ReservationData where
  reservationId : String
  keyId : String
  model : String
  deriving DecidableEq

abbrev Result (α : Type) : Type := Except EnforceError α

abbrev M (α : Type) : Type := Prog Op Op.Ans α

def readLimits (keyId : String) (now : ℤ) : M (Result (List LimitRow)) := do
  let row : Option (Option (KeyRow × List LimitRow)) ← Prog.perform (Op.getById keyId)
  match row with
  | none => return .error .database
  | some none => return .error (.invalid "Invalid API key")
  | some (some (key, limits)) =>
    if key.isActive = false then return .error (.invalid "Invalid API key")
    else if key.expiresAt.any (· < now) then return .error (.invalid "API key has expired")
    else return .ok limits

def lazyResetExpiredLimits (now : ℤ) : List LimitRow → M (Result Bool)
  | [] => return .ok false
  | limit :: rest =>
    if now ≤ limit.resetAt then lazyResetExpiredLimits now rest
    else do
      let done : Option Unit ← Prog.perform (Op.resetLimit limit.id limit.resetAt now)
      match done with
      | none => return .error .database
      | some () =>
        let others ← lazyResetExpiredLimits now rest
        match others with
        | .error e => return .error e
        | .ok _ => return .ok true

def reserveLimits (c : Call) : List LimitRow → List ReservationItem → M
    (Result (List ReservationItem))
  | [], items => return .ok items
  | limit :: rest, items =>
    if limitAppliesForRequest limit c.requestModel = false then reserveLimits c rest items
    else if limit.maxValue ≤ limit.currentValue then return .error (rateLimitExceededError limit)
    else
      let delta := reserveDeltaForLimit limit c.requestModel c.requestServiceTier
      if delta ≤ 0 then reserveLimits c rest items
      else do
        let result : Option Bool ← Prog.perform (Op.tryReserveUsage limit.id delta limit.resetAt)
        match result with
        | none => return .error .database
        | some false => return .error (rateLimitExceededError limit)
        | some true => reserveLimits c rest (items ++ [reservedItem limit delta])

def Call.reservation (c : Call) (items : List ReservationItem) : Reservation :=
  ⟨c.reservationId, c.keyId, c.requestModel.getD "", .reserved, items⟩

def rollbackAndRaise (e : EnforceError) : M (Result ReservationData) := do
  Prog.perform Op.rollback
  return .error e

def reserveAndCommit (c : Call) (limits : List LimitRow) : M (Result ReservationData) := do
  let reserved ← reserveLimits c limits []
  match reserved with
  | .error e => rollbackAndRaise e
  | .ok items =>
    let committed : Option Unit ← Prog.perform (Op.commitReservation (c.reservation items))
    match committed with
    | none => rollbackAndRaise .database
    | some () => return .ok ⟨c.reservationId, c.keyId, c.requestModel.getD ""⟩

def enforceLimitsForRequest (c : Call) : M (Result ReservationData) := do
  let now : ℤ ← Prog.perform Op.utcnow
  let row ← readLimits c.keyId now
  match row with
  | .error e => return .error e
  | .ok limits =>
    let reset ← lazyResetExpiredLimits now limits
    match reset with
    | .error e => return .error e
    | .ok false => reserveAndCommit c limits
    | .ok true =>
      let refreshed ← readLimits c.keyId now
      match refreshed with
      | .error e => return .error e
      | .ok limits => reserveAndCommit c limits

inductive Ending : Type where
  | done
  | raised
  deriving DecidableEq

def World.limitsOf (w : World) (tid : ℕ) (keyId : String) : List LimitRow :=
  (w.limits.filter (·.apiKeyId = keyId)).map (Txn.view LimitRow.id (w.writes tid))

def World.reserve (w : World) (tid limitId : ℕ) (delta expectedResetAt : ℤ) : World × Option Bool :=
  match tryReserveUsage limitId delta expectedResetAt (w.writes tid) w.limits with
  | none => (w, some false)
  | some ws => (w.setWrites tid ws, some true)

def World.commit (w : World) (tid : ℕ) (r : Reservation) : World × Option Unit :=
  if (lookup Reservation.id w.reservations r.id).isSome then (w, none)
  else
    ({ w.endTransaction tid with
        limits := Txn.commit LimitRow.id (w.writes tid) w.limits
        reservations := w.reservations ++ [r] }, some ())

def exec (tid : ℕ) : (op : Op) → Ending → World → Option (World × op.Ans)
  | .utcnow, _, w => some (w, w.clock)
  | .getById _, .raised, w => some (w, none)
  | .getById keyId, .done, w =>
    some (w, some ((lookup KeyRow.id w.keys keyId).map fun key => (key, w.limitsOf tid keyId)))
  | .resetLimit _ _ _, .raised, w => some (w, none)
  | .resetLimit limitId expectedResetAt now, .done, w =>
    if w.lockedFor tid limitId then none
    else some ({ w with limits := resetLimit limitId expectedResetAt now w.limits }, some ())
  | .tryReserveUsage _ _ _, .raised, w => some (w, none)
  | .tryReserveUsage limitId delta expectedResetAt, .done, w =>
    if w.lockedFor tid limitId then none
    else some (w.reserve tid limitId delta expectedResetAt)
  | .commitReservation _, .raised, w => some (w, none)
  | .commitReservation r, .done, w => some (w.commit tid r)
  | .rollback, _, w => some (w.endTransaction tid, ())

inductive Other : Type where
  | tables (keys : List KeyRow) (limits : List LimitRow) (reservations : List Reservation)
  | elapsed (time : ℕ)

/-- The ids stay unique, and a row that an open transaction has updated stays as it is. -/
def World.Admits (w : World) (limits : List LimitRow) : Prop :=
  (limits.map LimitRow.id).Nodup ∧ ∀ x ∈ w.transactions, ∀ row ∈ w.limits,
    Txn.locks LimitRow.id x.2 row.id = true → row ∈ limits

instance (w : World) (limits : List LimitRow) : Decidable (w.Admits limits) :=
  inferInstanceAs (Decidable (_ ∧ ∀ x ∈ w.transactions, ∀ row ∈ w.limits, _ → _))

def system : System World Op Op.Ans (Result ReservationData) Call Ending Other where
  exec := exec
  program := enforceLimitsForRequest
  environment w
    | .tables keys limits reservations =>
      if w.Admits limits then
        some { w with keys := keys, limits := limits, reservations := reservations }
      else none
    | .elapsed time => some { w with clock := w.clock + time }

abbrev State : Type := Pool World Op.Ans (Result ReservationData) Call

/-! ## What a call does -/

def limitsRead? : Event Op.Ans → Option (List LimitRow)
  | ⟨.getById _, some (some row)⟩ => some row.2
  | _ => none

def lastRead (h : History Op.Ans) : Option (List LimitRow) := h.findSome? limitsRead?

def leftOpen? : Event Op.Ans → Option Bool
  | ⟨.tryReserveUsage _ _ _, some true⟩ => some true
  | ⟨.commitReservation _, some ()⟩ => some false
  | ⟨.rollback, ()⟩ => some false
  | _ => none

def LeftOpen (h : History Op.Ans) : Prop := h.findSome? leftOpen? = some true

def Call.charges (c : Call) (l : LimitRow) : Bool :=
  limitAppliesForRequest l c.requestModel &&
    decide (0 < reserveBudgetForLimitType c.requestModel c.requestServiceTier l.limitType)

def Call.AtMaximum (c : Call) (rows : List LimitRow) : Prop :=
  ∃ l ∈ rows, limitAppliesForRequest l c.requestModel = true ∧ l.maxValue ≤ l.currentValue

def Call.Updates (c : Call) (rows : List LimitRow) (limitId : ℕ) (delta expectedResetAt : ℤ) :
    Prop :=
  ∃ l ∈ rows, l.id = limitId ∧ l.resetAt = expectedResetAt ∧ l.currentValue < l.maxValue ∧
    delta = reserveDeltaForLimit l c.requestModel c.requestServiceTier ∧ 0 < delta

def callSpec (c : Call) : Spec Op.Ans where
  pre h
    | .getById keyId => keyId = c.keyId ∧ ¬ LeftOpen h
    | .resetLimit _ expectedResetAt now => ⟨.utcnow, now⟩ ∈ h ∧ expectedResetAt < now
    | .tryReserveUsage limitId delta expectedResetAt =>
      ∃ rows, lastRead h = some rows ∧ c.Updates rows limitId delta expectedResetAt
    | _ => True
  post _ _ _ := True

def Refused (h : History Op.Ans) : Prop :=
  ∃ limitId delta expectedResetAt, ⟨.tryReserveUsage limitId delta expectedResetAt, some false⟩ ∈ h

def Committed (h : History Op.Ans) : Prop := ∃ r, ⟨.commitReservation r, some ()⟩ ∈ h

structure Items (c : Call) (rows : List LimitRow) (items : List ReservationItem) : Prop where
  limits : items.map ReservationItem.limitId = (rows.filter c.charges).map LimitRow.id
  delta : ∀ i ∈ items, 1 ≤ i.reservedDelta

def Rejected (c : Call) (h : History Op.Ans) (e : EnforceError) : Prop :=
  ∀ message resetAt, e = .rateLimitExceeded message resetAt →
    Refused h ∨ ∃ e ∈ h, ∃ rows, limitsRead? e = some rows ∧ c.AtMaximum rows

def Ends (c : Call) (h : History Op.Ans) : Result ReservationData → Prop
  | .error e => ¬ Committed h ∧ ¬ LeftOpen h ∧ Rejected c h e
  | .ok data => ∃ rows items, lastRead h = some rows ∧ Items c rows items ∧
      (∀ i ∈ items, ⟨.tryReserveUsage i.limitId i.reservedDelta i.expectedResetAt, some true⟩ ∈ h) ∧
      ⟨.commitReservation (c.reservation items), some ()⟩ ∈ h ∧
      data = ⟨c.reservationId, c.keyId, c.requestModel.getD ""⟩

def IsUpdate (e : Event Op.Ans) : Prop := ∃ limitId delta expected, e.op = .tryReserveUsage limitId
    delta expected

def IsEarly (e : Event Op.Ans) : Prop :=
  (∀ limitId delta expected, e.op ≠ .tryReserveUsage limitId delta expected) ∧
    (∀ r, e.op ≠ .commitReservation r) ∧ e.op ≠ .rollback

variable {e : Event Op.Ans} {h : History Op.Ans} {c : Call} {rows : List LimitRow} {w' w : World}
  {tid : ℕ} {ending : Ending} {p p₀ : State} {as : List (Action Call Ending Other)}

theorem limitsRead_of_isUpdate (he : IsUpdate e) : limitsRead? e = none := by
  obtain ⟨op, r⟩ := e
  obtain ⟨_, _, _, rfl⟩ := he
  rfl

theorem leftOpen_of_isEarly (he : IsEarly e) : leftOpen? e = none := by
  obtain ⟨op, r⟩ := e
  cases op with
  | utcnow => rfl
  | getById _ => rfl
  | resetLimit _ _ _ => rfl
  | tryReserveUsage _ _ _ => exact absurd rfl (he.1 _ _ _)
  | commitReservation _ => exact absurd rfl (he.2.1 _)
  | rollback => exact absurd rfl he.2.2

theorem not_committed_of_early (hg : Grown IsEarly [] h) :
    ¬ Committed h ∧ ¬ LeftOpen h := by
  constructor
  · rintro ⟨r, hmem⟩
    rcases hg.mem_or hmem with hmem | he
    · cases hmem
    · exact he.2.1 r rfl
  · rw [LeftOpen, hg.findSome? fun e he => leftOpen_of_isEarly he]
    exact nofun

theorem reserveDelta_pos_iff {l : LimitRow} (hroom : l.currentValue < l.maxValue) :
    0 < reserveDeltaForLimit l c.requestModel c.requestServiceTier ↔
      0 < reserveBudgetForLimitType c.requestModel c.requestServiceTier l.limitType := by
  rw [reserveDeltaForLimit, if_neg (by omega), lt_min_iff]
  exact ⟨fun h => h.2, fun h => ⟨by omega, h⟩⟩

def LoopEnds (c : Call) (rows todo : List LimitRow) (items : List ReservationItem)
    (h : History Op.Ans) : Result (List ReservationItem) → Prop
  | .ok items' => ∃ new, items' = items ++ new ∧ Items c todo new ∧ ∀ i ∈ new,
      ⟨.tryReserveUsage i.limitId i.reservedDelta i.expectedResetAt, some true⟩ ∈ h
  | .error e => ∀ message resetAt, e = .rateLimitExceeded message resetAt →
      Refused h ∨ c.AtMaximum rows

theorem sat_reserveLimits (todo : List LimitRow) (items : List ReservationItem)
    (hread : lastRead h = some rows) (htodo : todo ⊆ rows) :
    Sat (callSpec c) (fun h' r => Grown IsUpdate h h' ∧ LoopEnds c rows todo items h' r) h
      (reserveLimits c todo items) := by
  induction todo generalizing h items with
  | nil => exact ⟨.refl, [], by simp, ⟨rfl, nofun⟩, nofun⟩
  | cons limit todo ih =>
    obtain ⟨hlimit, htodo⟩ := cons_subset.mp htodo
    -- a limit that is passed over
    have hpass : c.charges limit = false → Sat (callSpec c)
        (fun h' r => Grown IsUpdate h h' ∧ LoopEnds c rows (limit :: todo) items h' r) h
        (reserveLimits c todo items) := by
      intro hcharges
      refine (ih items hread htodo).mono fun h' r hr => ⟨hr.1, ?_⟩
      cases r with
      | error e => exact hr.2
      | ok items' =>
        obtain ⟨new, heq, hnew, hupdates⟩ := hr.2
        refine ⟨new, heq, ⟨?_, hnew.delta⟩, hupdates⟩
        rw [hnew.limits, filter_cons_of_neg (by simp [hcharges])]
    rw [reserveLimits]
    by_cases happlies : limitAppliesForRequest limit c.requestModel = false
    · rw [if_pos happlies]
      exact hpass (by simp [Call.charges, happlies])
    rw [if_neg happlies]
    by_cases hmax : limit.maxValue ≤ limit.currentValue
    · rw [if_pos hmax]
      refine ⟨.refl, fun _ _ _ => .inr ⟨limit, hlimit, by simpa using happlies, hmax⟩⟩
    rw [if_neg hmax]
    have hroom : limit.currentValue < limit.maxValue := not_le.mp hmax
    by_cases hdelta : reserveDeltaForLimit limit c.requestModel c.requestServiceTier ≤ 0
    · rw [if_pos hdelta]
      have hbudget := mt (reserveDelta_pos_iff hroom).mpr (not_lt.mpr hdelta)
      exact hpass (by simp [Call.charges, hbudget])
    rw [if_neg hdelta]
    have hpos := not_le.mp hdelta
    refine ⟨⟨rows, hread, limit, hlimit, rfl, rfl, hroom, rfl, hpos⟩, fun result _ => ?_⟩
    have hgrown : Grown IsUpdate h (⟨.tryReserveUsage limit.id
        (reserveDeltaForLimit limit c.requestModel c.requestServiceTier) limit.resetAt, result⟩ ::
          h) :=
      .cons ⟨_, _, _, rfl⟩ .refl
    cases result with
    | none => exact ⟨hgrown, nofun⟩
    | some success =>
      cases success with
      | false => exact ⟨hgrown, fun _ _ _ => .inl ⟨_, _, _, mem_cons_self⟩⟩
      | true =>
        refine (ih _ (hread ▸ hgrown.findSome? fun e he => limitsRead_of_isUpdate he) htodo).mono ?_
        rintro h' r ⟨hgrown', hr⟩
        refine ⟨hgrown'.trans hgrown, ?_⟩
        cases r with
        | error e => exact hr
        | ok items' =>
          obtain ⟨new, heq, hnew, hupdates⟩ := hr
          have hcharges : c.charges limit = true := by
            have := (reserveDelta_pos_iff hroom).mp hpos
            simp [Call.charges, this, Bool.not_eq_false _ ▸ happlies]
          refine ⟨reservedItem limit _ :: new, by rw [heq, append_assoc]; rfl, ⟨?_, ?_⟩, ?_⟩
          · rw [filter_cons_of_pos hcharges, map_cons, map_cons, hnew.limits]
            rfl
          · intro i hi
            rcases mem_cons.mp hi with rfl | hi
            · exact hpos
            · exact hnew.delta i hi
          · intro i hi
            rcases mem_cons.mp hi with rfl | hi
            · exact hgrown'.subset mem_cons_self
            · exact hupdates i hi

theorem not_leftOpen_rollback (h : History Op.Ans) : ¬ LeftOpen (⟨.rollback, ()⟩ :: h) := nofun

theorem not_committed_of_updates {h' : History Op.Ans} (hg : Grown IsUpdate h h')
    (hcommitted : ¬ Committed h) : ¬ Committed h' := by
  rintro ⟨r, hmem⟩
  rcases hg.mem_or hmem with hmem | ⟨_, _, _, he⟩
  · exact hcommitted ⟨r, hmem⟩
  · cases he

theorem exists_of_lastRead (hread : lastRead h = some rows) : ∃ e ∈ h, limitsRead? e = some rows :=
  exists_of_findSome?_eq_some hread

theorem sat_rollbackAndRaise {e : EnforceError} (hcommitted : ¬ Committed h)
    (hrejected : Rejected c h e) :
    Sat (callSpec c) (Ends c) h (rollbackAndRaise e) := by
  refine ⟨trivial, fun _ _ => ⟨?_, not_leftOpen_rollback h, fun message resetAt heq => ?_⟩⟩
  · rintro ⟨r, hmem⟩
    exact hcommitted ⟨r, (mem_cons.mp hmem).resolve_left nofun⟩
  · rcases hrejected message resetAt heq with ⟨id, delta, expected, hmem⟩ | ⟨x, hx, hrows⟩
    · exact .inl ⟨id, delta, expected, mem_cons_of_mem _ hmem⟩
    · exact .inr ⟨x, mem_cons_of_mem _ hx, hrows⟩

theorem sat_reserveAndCommit (hearly : Grown IsEarly [] h) (hread : lastRead h = some rows) :
    Sat (callSpec c) (Ends c) h (reserveAndCommit c rows) := by
  refine (sat_reserveLimits rows [] hread (List.Subset.refl rows)).bind fun h' r hr => ?_
  obtain ⟨hgrown, hloop⟩ := hr
  have hcommitted := not_committed_of_updates hgrown (not_committed_of_early hearly).1
  have hread' : lastRead h' = some rows :=
    hread ▸ hgrown.findSome? fun e he => limitsRead_of_isUpdate he
  cases r with
  | error e =>
    refine sat_rollbackAndRaise hcommitted fun message resetAt heq => ?_
    rcases hloop message resetAt heq with hrefused | hmax
    · exact .inl hrefused
    · obtain ⟨x, hx, hrows⟩ := exists_of_lastRead hread'
      exact .inr ⟨x, hx, rows, hrows, hmax⟩
  | ok items =>
    obtain ⟨new, heq, hitems, hupdates⟩ := hloop
    obtain rfl : items = new := heq
    refine ⟨trivial, fun committed _ => ?_⟩
    cases committed with
    | none =>
      refine sat_rollbackAndRaise ?_ nofun
      rintro ⟨r, hmem⟩
      exact hcommitted ⟨r, (mem_cons.mp hmem).resolve_left (by simp)⟩
    | some _ =>
      exact ⟨rows, items, hread', hitems, fun i hi => mem_cons_of_mem _ (hupdates i hi),
        mem_cons_self, rfl⟩

def ReadEnds (h : History Op.Ans) : Result (List LimitRow) → Prop
  | .ok limits => lastRead h = some limits
  | .error e => ∀ message resetAt, e ≠ .rateLimitExceeded message resetAt

theorem sat_readLimits (now : ℤ) (hearly : Grown IsEarly [] h) :
    Sat (callSpec c) (fun h' r => Grown IsEarly h h' ∧ ReadEnds h' r) h
      (readLimits c.keyId now) := by
  refine ⟨⟨rfl, (not_committed_of_early hearly).2⟩, fun row _ => ?_⟩
  have hgrown : Grown IsEarly h (⟨.getById c.keyId, row⟩ :: h) :=
    .cons ⟨nofun, nofun, nofun⟩ .refl
  cases row with
  | none => exact ⟨hgrown, nofun⟩
  | some row =>
    cases row with
    | none => exact ⟨hgrown, nofun⟩
    | some row =>
      obtain ⟨key, limits⟩ := row
      change Sat _ _ _ (if key.isActive = false then _ else if key.expiresAt.any (· < now) then _
        else _)
      split_ifs
      · exact ⟨hgrown, nofun⟩
      · exact ⟨hgrown, nofun⟩
      · exact ⟨hgrown, rfl⟩

def ResetEnds (h h' : History Op.Ans) : Result Bool → Prop
  | .ok reset => reset = false → h' = h
  | .error e => ∀ message resetAt, e ≠ .rateLimitExceeded message resetAt

theorem sat_lazyResetExpiredLimits {now : ℤ} (limits : List LimitRow) (hnow : ⟨.utcnow, now⟩ ∈ h)
    (hearly : Grown IsEarly [] h) :
    Sat (callSpec c) (fun h' r => Grown IsEarly [] h' ∧ ResetEnds h h' r) h
      (lazyResetExpiredLimits now limits) := by
  induction limits generalizing h with
  | nil => exact ⟨hearly, fun _ => rfl⟩
  | cons limit limits ih =>
    rw [lazyResetExpiredLimits]
    by_cases hcurrent : now ≤ limit.resetAt
    · rw [if_pos hcurrent]
      exact ih hnow hearly
    rw [if_neg hcurrent]
    refine ⟨⟨hnow, not_le.mp hcurrent⟩, fun done _ => ?_⟩
    have hearly' : Grown IsEarly [] (⟨.resetLimit limit.id limit.resetAt now, done⟩ :: h) :=
      .cons ⟨nofun, nofun, nofun⟩ hearly
    cases done with
    | none => exact ⟨hearly', nofun⟩
    | some _ =>
      refine (ih (mem_cons_of_mem _ hnow) hearly').bind fun h' r hr => ?_
      cases r with
      | error e => exact hr
      | ok _ => exact ⟨hr.1, nofun⟩

theorem ends_early {e : EnforceError} (hearly : Grown IsEarly [] h)
    (he : ∀ message resetAt, e ≠ .rateLimitExceeded message resetAt) : Ends c h (.error e) :=
  ⟨(not_committed_of_early hearly).1, (not_committed_of_early hearly).2,
    fun message resetAt heq => absurd heq (he message resetAt)⟩

theorem sat_enforceLimitsForRequest (c : Call) :
    Sat (callSpec c) (Ends c) [] (enforceLimitsForRequest c) := by
  refine ⟨trivial, fun now _ => ?_⟩
  have hclock : Grown IsEarly [] [(⟨.utcnow, now⟩ : Event Op.Ans)] :=
    .cons ⟨nofun, nofun, nofun⟩ .refl
  refine (sat_readLimits now hclock).bind fun h₁ row hrow => ?_
  obtain ⟨hgrown₁, hread₁⟩ := hrow
  have hearly₁ := hgrown₁.trans hclock
  cases row with
  | error e => exact ends_early hearly₁ hread₁
  | ok limits =>
    have hnow : ⟨.utcnow, now⟩ ∈ h₁ := hgrown₁.subset mem_cons_self
    refine (sat_lazyResetExpiredLimits limits hnow hearly₁).bind fun h₂ reset hreset => ?_
    obtain ⟨hearly₂, hreset⟩ := hreset
    cases reset with
    | error e => exact ends_early hearly₂ hreset
    | ok reset =>
      cases reset with
      | false =>
        obtain rfl := hreset rfl
        exact sat_reserveAndCommit hearly₁ hread₁
      | true =>
        refine (sat_readLimits now hearly₂).bind fun h₃ refreshed hrefreshed => ?_
        obtain ⟨hgrown₃, hread₃⟩ := hrefreshed
        cases refreshed with
        | error e => exact ends_early (hgrown₃.trans hearly₂) hread₃
        | ok limits' => exact sat_reserveAndCommit (hgrown₃.trans hearly₂) hread₃

/-! ## What an operation does -/

inductive Effect (tid : ℕ) (w : World) : Event Op.Ans → World → Prop where
  | unchanged {e : Event Op.Ans} (he : leftOpen? e = none) : Effect tid w e w
  | reset (limitId : ℕ) (expectedResetAt now : ℤ) :
      Effect tid w ⟨.resetLimit limitId expectedResetAt now, some ()⟩
        { w with limits := resetLimit limitId expectedResetAt now w.limits }
  | updated {delta expectedResetAt : ℤ} {l : LimitRow} (hl : l ∈ w.limits)
      (hmax : (Txn.view LimitRow.id (w.writes tid) l).currentValue + delta ≤
        (Txn.view LimitRow.id (w.writes tid) l).maxValue) :
      Effect tid w ⟨.tryReserveUsage l.id delta expectedResetAt, some true⟩
        (w.setWrites tid ((Txn.view LimitRow.id (w.writes tid) l).add delta :: w.writes tid))
  | committed (r : Reservation) :
      Effect tid w ⟨.commitReservation r, some ()⟩
        { w.endTransaction tid with
          limits := Txn.commit LimitRow.id (w.writes tid) w.limits
          reservations := w.reservations ++ [r] }
  | rolledBack : Effect tid w ⟨.rollback, ()⟩ (w.endTransaction tid)

theorem effect_of_exec {op : Op} {r : op.Ans} (hexec : exec tid op ending w = some (w', r)) :
    Effect tid w ⟨op, r⟩ w' := by
  cases op with
  | utcnow =>
    cases hexec
    exact .unchanged rfl
  | getById keyId =>
    cases ending <;> obtain ⟨rfl, rfl⟩ := Prod.mk.inj (Option.some.inj hexec) <;>
      exact .unchanged rfl
  | resetLimit limitId expectedResetAt now =>
    cases ending with
    | raised =>
      cases hexec
      exact .unchanged rfl
    | done =>
      obtain ⟨-, hexec⟩ := ite_none_left_eq_some.mp hexec
      cases hexec
      exact .reset limitId expectedResetAt now
  | tryReserveUsage limitId delta expectedResetAt =>
    cases ending with
    | raised =>
      cases hexec
      exact .unchanged rfl
    | done =>
      obtain ⟨-, hexec⟩ := ite_none_left_eq_some.mp hexec
      have hexec := Option.some.inj hexec
      unfold World.reserve at hexec
      split at hexec
      · obtain ⟨rfl, rfl⟩ := Prod.mk.inj hexec
        exact .unchanged rfl
      · next ws hws =>
        obtain ⟨rfl, rfl⟩ := Prod.mk.inj hexec
        obtain ⟨l, hl, rfl, hroom, rfl⟩ := Txn.update_eq_some hws
        exact .updated hl (of_decide_eq_true hroom).2
  | commitReservation reservation =>
    cases ending with
    | raised =>
      cases hexec
      exact .unchanged rfl
    | done =>
      have hexec : w.commit tid reservation = (w', r) := Option.some.inj hexec
      unfold World.commit at hexec
      split_ifs at hexec
      · obtain ⟨rfl, rfl⟩ := Prod.mk.inj hexec
        exact .unchanged rfl
      · obtain ⟨rfl, rfl⟩ := Prod.mk.inj hexec
        exact .committed reservation
  | rollback =>
    cases hexec
    exact .rolledBack

theorem writes_endTransaction (w : World) (tid tid' : ℕ) :
    (w.endTransaction tid).writes tid' = if tid' = tid then [] else w.writes tid' := by
  rw [World.writes, World.endTransaction, find?_filter]
  split_ifs with htid
  · subst htid
    rw [find?_eq_none.mpr (by simp)]
    rfl
  · have hfind : (fun x : ℕ × List LimitRow =>
        decide (decide (x.1 ≠ tid) = true ∧ decide (x.1 = tid') = true)) =
          fun x => decide (x.1 = tid') := by
      funext x
      simp only [decide_eq_true_eq, decide_eq_decide]
      exact and_iff_right_of_imp fun hx => hx ▸ htid
    rw [hfind]
    rfl

theorem writes_setWrites (w : World) (tid tid' : ℕ) (ws : List LimitRow) :
    (w.setWrites tid ws).writes tid' = if tid' = tid then ws else w.writes tid' := by
  rw [World.writes, World.setWrites, find?_cons]
  split_ifs with htid
  · rw [htid, decide_eq_true rfl]
    rfl
  · rw [decide_eq_false (Ne.symm htid)]
    exact (writes_endTransaction w tid tid').trans (if_neg htid)

def OnlyResets (h : History Op.Ans) (w w' : World) : Prop :=
  w'.reservations = w.reservations ∧ (w'.limits = w.limits ∨ ∃ limitId expectedResetAt now,
    ⟨.utcnow, now⟩ ∈ h ∧ expectedResetAt < now ∧
      w'.limits = resetLimit limitId expectedResetAt now w.limits)

theorem Effect.onlyResets (heffect : Effect tid w e w') (hpre : (callSpec c).pre h e.op)
    (hcommit : ∀ reservation, e ≠ ⟨.commitReservation reservation, some ()⟩) :
    OnlyResets h w w' := by
  cases heffect with
  | unchanged he => exact ⟨rfl, .inl rfl⟩
  | reset limitId expectedResetAt now =>
    exact ⟨rfl, .inr ⟨limitId, expectedResetAt, now, hpre.1, hpre.2, rfl⟩⟩
  | updated hl hmax => exact ⟨rfl, .inl rfl⟩
  | committed r => exact absurd rfl (hcommit r)
  | rolledBack => exact ⟨rfl, .inl rfl⟩

theorem Effect.writes_of_ne {tid' : ℕ} (heffect : Effect tid w e w') (htid : tid' ≠ tid) :
    w'.writes tid' = w.writes tid' := by
  cases heffect with
  | unchanged he => rfl
  | reset limitId expectedResetAt now => rfl
  | updated hl hmax => rw [writes_setWrites, if_neg htid]
  | committed r => exact (writes_endTransaction w tid tid').trans (if_neg htid)
  | rolledBack => rw [writes_endTransaction, if_neg htid]

theorem Effect.writes_eq_nil (heffect : Effect tid w e w') (hw : ¬ LeftOpen h → w.writes tid = [])
    (hclosed : ¬ LeftOpen (e :: h)) : w'.writes tid = [] := by
  cases heffect with
  | unchanged he =>
    refine hw fun hopen => hclosed ?_
    rw [LeftOpen, findSome?_cons, he]
    exact hopen
  | reset limitId expectedResetAt now => exact hw hclosed
  | updated hl hmax => exact absurd rfl hclosed
  | committed r => exact (writes_endTransaction w tid tid).trans (if_pos rfl)
  | rolledBack => rw [writes_endTransaction, if_pos rfl]

theorem Effect.unique (heffect : Effect tid w e w') (hids : Table.Unique LimitRow.id w.limits) :
    Table.Unique LimitRow.id w'.limits := by
  cases heffect with
  | unchanged he => exact hids
  | reset limitId expectedResetAt now => exact hids.update fun _ => rfl
  | updated hl hmax => exact hids
  | committed r => exact Txn.unique_commit hids
  | rolledBack => exact hids

theorem Effect.within_maximum {limitId : ℕ} {delta expectedResetAt : ℤ}
    (hids : Table.Unique LimitRow.id w.limits)
    (heffect : Effect tid w ⟨.tryReserveUsage limitId delta expectedResetAt, some true⟩ w') :
    ∃ l, Txn.read LimitRow.id (w'.writes tid) w'.limits limitId = some l ∧
      l.currentValue ≤ l.maxValue := by
  cases heffect with
  | unchanged he => cases he
  | updated hl hmax =>
    refine ⟨(Txn.view LimitRow.id (w.writes tid) _).add delta, ?_, hmax⟩
    rw [Txn.read, writes_setWrites, if_pos rfl, World.setWrites, hids.lookup_eq hl, map_some,
      Txn.view_write, LimitRow.add_id, view_id, if_pos rfl]

/-! ## Whole runs -/

def ReadsUnique (_ : World) (h : History Op.Ans) : Prop :=
  ∀ e ∈ h, ∀ rows, limitsRead? e = some rows → (rows.map LimitRow.id).Nodup

theorem limitsRead_of_exec {op : Op} {r : op.Ans} (hexec : exec tid op ending w = some (w', r))
    (hread : limitsRead? ⟨op, r⟩ = some rows) :
    ∃ keyId, op = .getById keyId ∧ rows = w.limitsOf tid keyId := by
  cases op with
  | getById keyId =>
    cases ending with
    | raised =>
      obtain ⟨-, rfl⟩ := Prod.mk.inj (Option.some.inj hexec)
      cases hread
    | done =>
      obtain ⟨-, rfl⟩ := Prod.mk.inj (Option.some.inj hexec)
      cases hkey : lookup KeyRow.id w.keys keyId with
      | none =>
        rw [hkey] at hread
        cases hread
      | some key =>
        rw [hkey] at hread
        exact ⟨keyId, rfl, (Option.some.inj hread).symm⟩
  | utcnow => cases hread
  | resetLimit _ _ _ => cases hread
  | tryReserveUsage _ _ _ => cases hread
  | commitReservation _ => cases hread
  | rollback => cases hread

theorem nodup_limitsOf (hids : Table.Unique LimitRow.id w.limits) (tid : ℕ) (keyId : String) :
    ((w.limitsOf tid keyId).map LimitRow.id).Nodup := by
  have hview : LimitRow.id ∘ Txn.view LimitRow.id (w.writes tid) = LimitRow.id :=
    funext fun _ => Txn.key_view
  rw [World.limitsOf, List.map_map, hview]
  exact hids.sublist (List.filter_sublist.map _)

theorem upholds : Upholds system (fun _ _ => True) (fun w => Table.Unique LimitRow.id w.limits)
    ReadsUnique callSpec Ends where
  spawn {_ _ c} _ _ := ⟨nofun, sat_enforceLimitsForRequest c⟩
  exec {p tid e t op k w' r} _ _ _ hids hlink _ hexec := by
    refine ⟨(effect_of_exec hexec).unique hids, trivial, fun x hx rows hread => ?_⟩
    rcases mem_cons.mp hx with rfl | hx
    · obtain ⟨keyId, -, rfl⟩ := limitsRead_of_exec hexec hread
      exact nodup_limitsOf hids tid keyId
    · exact hlink x hx rows hread
  stable _ _ _ _ _ _ hlink := hlink
  environment {p x w'} _ hids hw' := by
    cases x with
    | tables keys limits reservations =>
      obtain ⟨hadmits, hw'⟩ := ite_none_right_eq_some.mp hw'
      cases hw'
      exact ⟨hadmits.1, fun _ hlink => hlink⟩
    | elapsed time =>
      cases hw'
      exact ⟨hids, fun _ hlink => hlink⟩

structure Kept (p : State) : Prop where
  verified : Verified (fun w => Table.Unique LimitRow.id w.limits) ReadsUnique callSpec Ends p
  writes : ∀ tid, ¬ LeftOpen (p.history tid) → p.shared.writes tid = []

theorem kept_start (hids : Table.Unique LimitRow.id w.limits) (hfree : w.transactions = []) :
    Kept ⟨w, ∅⟩ where
  verified := .start hids
  writes tid _ := by
    rw [World.writes, hfree]
    rfl

theorem Kept.step {p' : State} {a : Action Call Ending Other} (hp : Kept p)
    (h : system.step p a = some p') : Kept p' where
  verified := upholds.step hp.verified trivial h
  writes tid hclosed := by
    cases a with
    | spawn tid' c =>
      rw [System.history_of_step h nofun] at hclosed
      obtain ⟨-, rfl⟩ := System.step_spawn h
      exact hp.writes tid hclosed
    | resume tid' e =>
      obtain ⟨t, op, k, r, -, -, hexec, hself, hothers⟩ := System.history_of_resume h
      by_cases htid : tid = tid'
      · subst htid
        rw [hself] at hclosed
        exact (effect_of_exec hexec).writes_eq_nil (hp.writes tid) hclosed
      · rw [hothers tid htid] at hclosed
        rw [(effect_of_exec hexec).writes_of_ne htid]
        exact hp.writes tid hclosed
    | environment x =>
      rw [System.history_of_step h nofun] at hclosed
      have hsame : p'.shared.transactions = p.shared.transactions := by
        have hw' := (System.step_environment h).1
        cases x with
        | tables keys limits reservations =>
          obtain ⟨-, hw'⟩ := ite_none_right_eq_some.mp hw'
          rw [← Option.some.inj hw']
        | elapsed time => rw [← Option.some.inj hw']
      rw [World.writes, hsame]
      exact hp.writes tid hclosed

def KeepsTables (tid : ℕ) (p : State) (a : Action Call Ending Other) : Prop :=
  ∀ e p', a = .resume tid e → system.step p a = some p' →
    OnlyResets (p.history tid) p.shared p'.shared

def WithinMaximum (p : State) (a : Action Call Ending Other) : Prop :=
  ∀ tid e p' limitId delta expectedResetAt, a = .resume tid e → system.step p a = some p' →
    p'.history tid =
        ⟨.tryReserveUsage limitId delta expectedResetAt, some true⟩ :: p.history tid →
      ∃ l, Txn.read LimitRow.id (p'.shared.writes tid) p'.shared.limits limitId = some l ∧
        l.currentValue ≤ l.maxValue

theorem Kept.withinMaximum (hp : Kept p) (a : Action Call Ending Other) :
    WithinMaximum p a := by
  rintro tid e p' limitId delta expectedResetAt rfl h hhistory
  obtain ⟨t, op, k, r, -, -, hexec, hself, -⟩ := System.history_of_resume h
  have heffect := effect_of_exec hexec
  rw [(List.cons.inj (hself.symm.trans hhistory)).1] at heffect
  exact heffect.within_maximum hp.verified.inv

theorem keepsTables_of_not_committed (hkept : Kept p₀) (hrun : run system.step as p₀ = some p)
    (hcommitted : ¬ Committed (p.history tid)) : Along system.step (KeepsTables tid) as p₀ := by
  refine along_of_run (fun hs hstep => hs.step hstep) ?_ hkept hrun
  rintro q a q' rest hq hstep hrest e q'' rfl hstep'
  obtain rfl := Option.some.inj (hstep.symm.trans hstep')
  obtain ⟨t, op, k, r, ht, hprog, hexec, hself, -⟩ := System.history_of_resume hstep
  rw [Pool.history_eq ht]
  refine (effect_of_exec hexec).onlyResets (hq.verified.pre ht hprog) fun reservation heq => ?_
  -- what is committed in this step is still in the history at the end
  refine hcommitted ⟨reservation, (System.history_suffix_of_run hrest tid).subset ?_⟩
  rw [hself, heq]
  exact mem_cons_self

structure Commits (c : Call) (tid : ℕ) (items : List ReservationItem) (w w' : World) : Prop where
  limits : w'.limits = Txn.commit LimitRow.id (w.writes tid) w.limits
  reservations : w'.reservations = w.reservations ++ [c.reservation items]

theorem commits_of_mem_history {items : List ReservationItem}
    (hrun : run system.step as p₀ = some p) (hstart : p₀.history tid = [])
    (hmem : ⟨.commitReservation (c.reservation items), some ()⟩ ∈ p.history tid) :
    ∃ as₁ e as₂ q q', as = as₁ ++ .resume tid e :: as₂ ∧ run system.step as₁ p₀ = some q ∧
      system.step q (.resume tid e) = some q' ∧ Commits c tid items q.shared q'.shared := by
  obtain ⟨as₁, e, as₂, q, q', has, hrun₁, hstep, hhistory, -⟩ :=
    System.performed_of_mem_history hrun hmem (by rw [hstart]; exact nofun)
  refine ⟨as₁, e, as₂, q, q', has, hrun₁, hstep, ?_⟩
  obtain ⟨t, op, k, r, -, -, hexec, hself, -⟩ := System.history_of_resume hstep
  have heffect := effect_of_exec hexec
  rw [(List.cons.inj (hself.symm.trans hhistory)).1] at heffect
  generalize q'.shared = w' at heffect ⊢
  cases heffect with
  | unchanged he => cases he
  | committed => exact ⟨rfl, rfl⟩

structure Succeeds (c : Call) (tid : ℕ) (as : List (Action Call Ending Other)) (p₀ p : State)
    (rows : List LimitRow) (items : List ReservationItem) : Prop where
  read : lastRead (p.history tid) = some rows
  charged : Items c rows items
  once : (items.map ReservationItem.limitId).Nodup
  updates : ∀ i ∈ items,
    ⟨.tryReserveUsage i.limitId i.reservedDelta i.expectedResetAt, some true⟩ ∈ p.history tid
  commits : ∃ as₁ e as₂ q q', as = as₁ ++ .resume tid e :: as₂ ∧
    run system.step as₁ p₀ = some q ∧ system.step q (.resume tid e) = some q' ∧
    Commits c tid items q.shared q'.shared

/-- **A reservation is all or nothing**, in every run of the calls from tables without an open
transaction. -/
theorem reservation_all_or_nothing {w : World} {as : List (Action Call Ending Other)} {p : State}
    (hids : Table.Unique LimitRow.id w.limits) (hfree : w.transactions = [])
    (hrun : run system.step as ⟨w, ∅⟩ = some p) :
    (∀ tid c e, p.outcome tid = some (c, .error e) →
        Along system.step (KeepsTables tid) as ⟨w, ∅⟩ ∧ p.shared.writes tid = []) ∧
      (∀ tid c data, p.outcome tid = some (c, .ok data) →
        ∃ rows items, Succeeds c tid as ⟨w, ∅⟩ p rows items) ∧
      Along system.step WithinMaximum as ⟨w, ∅⟩ := by
  have hstart := kept_start hids hfree
  have hkept : Kept p := run_invariant (fun hs hstep => hs.step hstep) hstart hrun
  refine ⟨fun tid c e hout => ?_, fun tid c data hout => ?_, ?_⟩
  · obtain ⟨hcommitted, hclosed, -⟩ := hkept.verified.result hout
    exact ⟨keepsTables_of_not_committed hstart hrun hcommitted, hkept.writes tid hclosed⟩
  · obtain ⟨rows, items, hread, hitems, hupdates, hcommit, -⟩ := hkept.verified.result hout
    refine ⟨rows, items, hread, hitems, ?_, hupdates, commits_of_mem_history hrun rfl hcommit⟩
    obtain ⟨t, ht, -, -⟩ := Pool.outcome_eq_some hout
    rw [Pool.history_eq ht] at hread
    obtain ⟨x, hx, hrows⟩ := exists_of_lastRead hread
    have hnodup := (hkept.verified.thread ht).1 x hx rows hrows
    rw [hitems.limits]
    exact hnodup.sublist (List.filter_sublist.map _)
  · exact along_of_invariant (fun hs hstep => hs.step hstep) (fun hs => hs.withinMaximum _) hstart

def whole (tid : ℕ) (c : Call) (n : ℕ) : List (Action Call Ending Other) :=
  .spawn tid c :: List.replicate n (.resume tid .done)

def tokenLimits (max : ℤ) : World :=
  ⟨[⟨"key", true, none⟩],
    [⟨1, "key", .totalTokens, .daily, 10000, 0, none, 100⟩,
      ⟨2, "key", .inputTokens, .daily, max, 0, none, 100⟩], [], [], 0⟩

def request (reservationId : String) : Call := ⟨"key", some "gpt-5", none, reservationId⟩

theorem reservation_all_or_nothing_refused : ∃ p,
    run system.step (whole 0 (request "a") 5 ++ whole 1 (request "b") 4)
        ⟨tokenLimits 8192, ∅⟩ = some p ∧
      p.outcome 0 = some (request "a", .ok ⟨"a", "key", "gpt-5"⟩) ∧
      p.outcome 1 = some (request "b", .error (.rateLimitExceeded
        "API key input_tokens daily limit exceeded" 100)) ∧
      Along system.step (KeepsTables 1) (whole 0 (request "a") 5 ++ whole 1 (request "b") 4)
        ⟨tokenLimits 8192, ∅⟩ ∧
      ∃ rows items, Succeeds (request "a") 0 (whole 0 (request "a") 5 ++ whole 1 (request "b") 4)
        ⟨tokenLimits 8192, ∅⟩ p rows items := by
  obtain ⟨p, hrun, hadmitted, hrejected⟩ : ∃ p,
      run system.step (whole 0 (request "a") 5 ++ whole 1 (request "b") 4)
        ⟨tokenLimits 8192, ∅⟩ = some p ∧
      p.outcome 0 = some (request "a", .ok ⟨"a", "key", "gpt-5"⟩) ∧
      p.outcome 1 = some (request "b", .error (.rateLimitExceeded
        "API key input_tokens daily limit exceeded" 100)) := by
    decide +kernel
  have hids : Table.Unique LimitRow.id (tokenLimits 8192).limits := by
    rw [Table.Unique]
    decide
  obtain ⟨hfails, hsucceeds, -⟩ := reservation_all_or_nothing hids rfl hrun
  exact ⟨p, hrun, hadmitted, hrejected, (hfails 1 _ _ hrejected).1, hsucceeds 0 _ _ hadmitted⟩

/-! ## Rejections -/

/-- The limit that is about to be updated has the window that the call has read, and no less room
than it had then. -/
def World.AsRead (w : World) (tid : ℕ) (h : History Op.Ans) : Op → Prop
  | .tryReserveUsage limitId _ _ => ∀ rows ∈ lastRead h, ∀ l ∈ rows, l.id = limitId →
      (Txn.read LimitRow.id (w.writes tid) w.limits limitId).any (fun l' =>
        decide (l'.resetAt = l.resetAt ∧
          l.maxValue - l.currentValue ≤ l'.maxValue - l'.currentValue)) = true
  | _ => True

instance (w : World) (tid : ℕ) (h : History Op.Ans) : ∀ op, Decidable (w.AsRead tid h op)
  | .tryReserveUsage _ _ _ =>
    inferInstanceAs (Decidable (∀ rows ∈ lastRead h, ∀ l ∈ rows, _ → _ = true))
  | .utcnow => inferInstanceAs (Decidable True)
  | .getById _ => inferInstanceAs (Decidable True)
  | .resetLimit _ _ _ => inferInstanceAs (Decidable True)
  | .commitReservation _ => inferInstanceAs (Decidable True)
  | .rollback => inferInstanceAs (Decidable True)

def AsRead (p : State) : Action Call Ending Other → Prop
  | .resume tid _ => ∀ op ∈ p.next tid, p.shared.AsRead tid (p.history tid) op
  | .spawn _ _ => True
  | .environment _ => True

instance (p : State) : ∀ a, Decidable (AsRead p a)
  | .resume tid _ =>
    inferInstanceAs (Decidable (∀ op ∈ p.next tid, p.shared.AsRead tid (p.history tid) op))
  | .spawn _ _ => inferInstanceAs (Decidable True)
  | .environment _ => inferInstanceAs (Decidable True)

theorem reserveDelta_le {l : LimitRow} (hroom : l.currentValue < l.maxValue) :
    reserveDeltaForLimit l c.requestModel c.requestServiceTier ≤ l.maxValue - l.currentValue := by
  rw [reserveDeltaForLimit, if_neg (by omega)]
  exact min_le_left _ _

theorem not_refused {limitId : ℕ} {delta expectedResetAt : ℤ}
    (hpre : (callSpec c).pre h (.tryReserveUsage limitId delta expectedResetAt))
    (has : w.AsRead tid h (.tryReserveUsage limitId delta expectedResetAt)) :
    exec tid (.tryReserveUsage limitId delta expectedResetAt) ending w ≠ some (w', some false) := by
  intro hexec
  obtain ⟨rows, hread, l, hl, rfl, rfl, hroom, rfl, -⟩ := hpre
  obtain ⟨l', hl', hsame⟩ := (any_eq_true _ _).mp (has rows hread l hl rfl)
  obtain ⟨hwindow, hless⟩ := of_decide_eq_true hsame
  cases ending with
  | raised => cases hexec
  | done =>
    obtain ⟨-, hexec⟩ := ite_none_left_eq_some.mp hexec
    have hdelta := reserveDelta_le (c := c) hroom
    set delta := reserveDeltaForLimit l c.requestModel c.requestServiceTier
    have hupdate : tryReserveUsage l.id delta l.resetAt (w.writes tid) w.limits =
        some (l'.add delta :: w.writes tid) := by
      rw [tryReserveUsage, Txn.update, hl']
      exact if_pos (decide_eq_true ⟨hwindow, by omega⟩)
    rw [World.reserve, hupdate] at hexec
    cases hexec

structure Granted (p : State) : Prop where
  kept : Kept p
  granted : ∀ tid, ¬ Refused (p.history tid)

theorem Granted.step {p' : State} {a : Action Call Ending Other} (hp : Granted p) (hok : AsRead p a)
    (h : system.step p a = some p') : Granted p' where
  kept := hp.kept.step h
  granted tid := by
    cases a with
    | spawn tid' c =>
      rw [System.history_of_step h nofun]
      exact hp.granted tid
    | environment x =>
      rw [System.history_of_step h nofun]
      exact hp.granted tid
    | resume tid' e =>
      obtain ⟨t, op, k, r, ht, hprog, hexec, hself, hothers⟩ := System.history_of_resume h
      by_cases htid : tid = tid'
      · subst htid
        rintro ⟨limitId, delta, expectedResetAt, hmem⟩
        rw [hself] at hmem
        rcases mem_cons.mp hmem with heq | hmem
        · obtain ⟨rfl, hr⟩ := Event.mk.inj heq
          obtain rfl := eq_of_heq hr
          have has := hok _ (Pool.next_eq ht hprog)
          rw [Pool.history_eq ht] at has
          exact not_refused (hp.kept.verified.pre ht hprog) has hexec
        · exact hp.granted tid ⟨limitId, delta, expectedResetAt, hmem⟩
      · rw [hothers tid htid]
        exact hp.granted tid

def AtMaximumDuring (c : Call) (tid : ℕ) (p : State) : Prop :=
  (p.next tid).isSome = true ∧ c.AtMaximum (p.shared.limits.filter (·.apiKeyId = c.keyId))

theorem atMaximum_of_read {a : Result ReservationData} (hkept : Kept p₀)
    (hstart : p₀.history tid = []) (hrun : run system.step as p₀ = some p)
    (hout : p.outcome tid = some (c, a)) (he : e ∈ p.history tid)
    (hread : limitsRead? e = some rows) (hmax : c.AtMaximum rows) :
    ∃ as₁ as₂ q, as = as₁ ++ as₂ ∧ run system.step as₁ p₀ = some q ∧ AtMaximumDuring c tid q := by
  obtain ⟨as₁, ending, as₂, q, q', has, hrun₁, hstep, hhistory, hrun₂⟩ :=
    System.performed_of_mem_history hrun he (by rw [hstart]; exact nofun)
  obtain ⟨t, op, k, r, ht, hprog, hexec, hself, -⟩ := System.history_of_resume hstep
  have hq : Kept q := run_invariant (fun hs hstep => hs.step hstep) hkept hrun₁
  obtain rfl := (List.cons.inj (hself.symm.trans hhistory)).1
  obtain ⟨keyId, rfl, rfl⟩ := limitsRead_of_exec hexec hread
  obtain ⟨hkey, hclosed⟩ := hq.verified.pre ht hprog
  -- the call of the thread is the one that has ended
  obtain ⟨t₁, ht₁, hcall₁⟩ := System.call_of_step hstep ht
  obtain ⟨t₂, ht₂, hcall₂⟩ := System.call_of_run hrun₂ ht₁
  obtain ⟨t₃, ht₃, rfl, -⟩ := Pool.outcome_eq_some hout
  obtain rfl := Option.some.inj (ht₂.symm.trans ht₃)
  rw [← Pool.history_eq ht] at hclosed
  refine ⟨as₁, _, q, has, hrun₁, by rw [Pool.next_eq ht hprog]; rfl, ?_⟩
  have hview : Txn.view LimitRow.id [] = id := funext fun _ => Txn.view_nil
  rw [World.limitsOf, hq.writes tid hclosed, hview, List.map_id, hkey, ← hcall₁, ← hcall₂] at hmax
  exact hmax

/-- **A request is rejected only if a limit was at its maximum**, in every run in which nobody takes
from the limits of a call between its read and its updates. -/
theorem rejection_justified {w : World} {as : List (Action Call Ending Other)} {p : State}
    (hids : Table.Unique LimitRow.id w.limits) (hfree : w.transactions = [])
    (hok : Along system.step AsRead as ⟨w, ∅⟩) (hrun : run system.step as ⟨w, ∅⟩ = some p)
    {tid : ℕ} {c : Call} {message : String} {resetAt : ℤ}
    (hout : p.outcome tid = some (c, .error (.rateLimitExceeded message resetAt))) :
    ∃ as₁ as₂ q, as = as₁ ++ as₂ ∧ run system.step as₁ ⟨w, ∅⟩ = some q ∧
      AtMaximumDuring c tid q := by
  have hstart := kept_start hids hfree
  have hgranted : Granted p :=
    run_invariant_along (fun hs hoks hstep => hs.step hoks hstep) ⟨hstart, fun _ => nofun⟩ hok hrun
  obtain ⟨-, -, hrejected⟩ := hgranted.kept.verified.result hout
  rcases hrejected message resetAt rfl with hrefused | ⟨e, he, rows, hread, hmax⟩
  · exact absurd hrefused (hgranted.granted tid)
  · exact atMaximum_of_read hstart rfl hrun hout he hread hmax

theorem rejection_justified_exhausted : ∃ p,
    run system.step (whole 0 (request "a") 5 ++ whole 1 (request "b") 4)
        ⟨tokenLimits 8192, ∅⟩ = some p ∧
      p.outcome 1 = some (request "b", .error (.rateLimitExceeded
        "API key input_tokens daily limit exceeded" 100)) ∧
      ∃ as₁ as₂ q, whole 0 (request "a") 5 ++ whole 1 (request "b") 4 = as₁ ++ as₂ ∧
        run system.step as₁ ⟨tokenLimits 8192, ∅⟩ = some q ∧
        AtMaximumDuring (request "b") 1 q := by
  obtain ⟨p, hrun, hrejected⟩ : ∃ p,
      run system.step (whole 0 (request "a") 5 ++ whole 1 (request "b") 4)
        ⟨tokenLimits 8192, ∅⟩ = some p ∧
      p.outcome 1 = some (request "b", .error (.rateLimitExceeded
        "API key input_tokens daily limit exceeded" 100)) := by
    decide +kernel
  have hids : Table.Unique LimitRow.id (tokenLimits 8192).limits := by
    rw [Table.Unique]
    decide
  exact ⟨p, hrun, hrejected, rejection_justified hids rfl (by decide +kernel) hrun hrejected⟩

def HasRoom (p : State) : Prop :=
  (∀ l ∈ p.shared.limits, l.currentValue < l.maxValue) ∧
    ∀ x ∈ p.shared.transactions, ∀ l ∈ x.2, l.currentValue < l.maxValue

instance (p : State) : Decidable (HasRoom p) :=
  inferInstanceAs (Decidable ((∀ l ∈ p.shared.limits, l.currentValue < l.maxValue) ∧
    ∀ x ∈ p.shared.transactions, ∀ l ∈ x.2, l.currentValue < l.maxValue))

def sideBySide : List (Action Call Ending Other) :=
  [.spawn 0 (request "a"), .spawn 1 (request "b"), .resume 0 .done, .resume 0 .done,
    .resume 1 .done, .resume 1 .done, .resume 0 .done, .resume 0 .done, .resume 0 .done,
    .resume 1 .done, .resume 1 .done]

/-- **A request is rejected although every limit has room all the time**: another one takes 8192
tokens first. -/
theorem concurrent_rejection : ∃ p,
    run system.step sideBySide ⟨tokenLimits 10000, ∅⟩ = some p ∧
      p.outcome 1 = some (request "b", .error (.rateLimitExceeded
        "API key total_tokens daily limit exceeded" 100)) ∧
      Along system.step (fun q _ => HasRoom q) sideBySide ⟨tokenLimits 10000, ∅⟩ ∧
      HasRoom p := by
  decide +kernel

end CodexOctopus.LimitEnforcement

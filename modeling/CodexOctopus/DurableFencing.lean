import CodexOctopus.DurableOwnership

/-!
# Fencing of durable writes

`renew_session`, `release_session` and `mark_owner_draining` read rows, check the
caller's pair on what was read, and commit later. The commit is an
`UPDATE ... WHERE id = ...` of the columns that changed, with no condition on the
epoch. Here the read and the commit are two steps, and claims run in between.
-/

namespace CodexOctopus

open List Option Table Lts

/-! ## Writes in flight -/

/-- The column's entry in the `UPDATE`: present only if the value changed. -/
def changedColumn {α : Type} [DecidableEq α] (old new : α) : Option α :=
  if old = new then none else some new

@[simp] theorem changedColumn_getD {α : Type} [DecidableEq α] (old new : α) :
    (changedColumn old new).getD old = new := by
  rw [changedColumn]
  split
  · next h => rw [getD_none, h]
  · rw [getD_some]

structure RowPatch where
  ownerInstanceId : Option (Option String)
  leaseExpiresAt : Option (Option ℤ)
  state : Option BridgeState
  latestTurnState : Option (Option String)
  latestResponseId : Option (Option String)
  lastSeenAt : Option ℤ
  closedAt : Option (Option ℤ)

def RowPatch.of (old new : SessionRecord) : RowPatch where
  ownerInstanceId := changedColumn old.ownerInstanceId new.ownerInstanceId
  leaseExpiresAt := changedColumn old.leaseExpiresAt new.leaseExpiresAt
  state := changedColumn old.state new.state
  latestTurnState := changedColumn old.latestTurnState new.latestTurnState
  latestResponseId := changedColumn old.latestResponseId new.latestResponseId
  lastSeenAt := changedColumn old.lastSeenAt new.lastSeenAt
  closedAt := changedColumn old.closedAt new.closedAt

def RowPatch.apply (p : RowPatch) (r : SessionRecord) : SessionRecord :=
  { r with
    ownerInstanceId := p.ownerInstanceId.getD r.ownerInstanceId
    leaseExpiresAt := p.leaseExpiresAt.getD r.leaseExpiresAt
    state := p.state.getD r.state
    latestTurnState := p.latestTurnState.getD r.latestTurnState
    latestResponseId := p.latestResponseId.getD r.latestResponseId
    lastSeenAt := p.lastSeenAt.getD r.lastSeenAt
    closedAt := p.closedAt.getD r.closedAt }

/-- A row of a transaction in flight: its id and epoch as they were read, and the columns to
write. -/
structure RowWrite where
  id : String
  epoch : ℤ
  patch : RowPatch

def RowWrite.of (f : SessionRecord → SessionRecord) (row : SessionRecord) : RowWrite :=
  ⟨row.id, row.ownerEpoch, .of row (f row)⟩

/-- What `renew_session` and `release_session` have pending after their check;
`none` if they return without writing. -/
def readHeld (sessionId instanceId : String) (epoch : ℤ) (f : SessionRecord → SessionRecord)
    (rows : List SessionRecord) : Option (List RowWrite) :=
  match rowById rows sessionId with
  | none => none
  | some row => if holdsLease instanceId epoch row then some [.of f row] else none

def readOwned (now : ℤ) (instanceId : String) (rows : List SessionRecord) : List RowWrite :=
  (rows.filter (ownedActive instanceId)).map (.of (drainedRow now))

def commitWrites (ws : List RowWrite) (rows : List SessionRecord) : List SessionRecord :=
  ws.foldl (fun rows w => writeRow w.id w.patch.apply rows) rows

/-! ## The system -/

structure FencingState where
  db : DurableDb
  inFlight : List (List RowWrite)

inductive FencingAct : Type where
  | claim (now : ℤ) (newId : String) (c : ClaimArgs)
  | renewRead (now : ℤ) (a : RenewArgs)
  | releaseRead (now : ℤ) (a : ReleaseArgs)
  | drainRead (now : ℤ) (instanceId : String)
  | commit (n : ℕ)

def FencingState.begin (s : FencingState) : Option (List RowWrite) → FencingState
  | none => s
  | some ws => { s with inFlight := s.inFlight ++ [ws] }

/-- One step: a claim (the row is locked, so it is atomic), the read of an
operation, or the commit of the `n`-th one in flight. -/
def fencingStep (hash : String → String) (s : FencingState) : FencingAct → Option FencingState
  | .claim now newId c =>
    (durableStep hash s.db (now, .claim newId c)).map fun db => { s with db := db }
  | .renewRead now a =>
    some (s.begin (readHeld a.sessionId a.instanceId a.ownerEpoch (renewedRow now a) s.db.rows))
  | .releaseRead now a =>
    some (s.begin
      (readHeld a.sessionId a.instanceId a.ownerEpoch (releasedRow now a.draining) s.db.rows))
  | .drainRead now i => some (s.begin (some (readOwned now i s.db.rows)))
  | .commit n =>
    s.inFlight[n]?.map fun ws =>
      ⟨{ s.db with rows := commitWrites ws s.db.rows }, s.inFlight.eraseIdx n⟩

/-! ## Reading and committing with nothing in between -/

section

variable {hash : String → String} {s s' : FencingState} {r : SessionRecord}

theorem RowPatch.apply_of (new : SessionRecord)
    (hnew : new = { r with
      ownerInstanceId := new.ownerInstanceId
      leaseExpiresAt := new.leaseExpiresAt
      state := new.state
      latestTurnState := new.latestTurnState
      latestResponseId := new.latestResponseId
      lastSeenAt := new.lastSeenAt
      closedAt := new.closedAt }) : (RowPatch.of r new).apply r = new := by
  rw [hnew]
  simp [RowPatch.of, RowPatch.apply]

theorem RowPatch.apply_renewedRow (now : ℤ) (a : RenewArgs) (r : SessionRecord) :
    (RowPatch.of r (renewedRow now a r)).apply r = renewedRow now a r :=
  RowPatch.apply_of _ rfl

theorem RowPatch.apply_releasedRow (now : ℤ) (b : Bool) (r : SessionRecord) :
    (RowPatch.of r (releasedRow now b r)).apply r = releasedRow now b r :=
  RowPatch.apply_of _ rfl

theorem RowPatch.apply_drainedRow (now : ℤ) (r : SessionRecord) :
    (RowPatch.of r (drainedRow now r)).apply r = drainedRow now r :=
  RowPatch.apply_of _ rfl

def applyWrites (ws : List RowWrite) (r : SessionRecord) : SessionRecord :=
  ws.foldl (fun r w => if r.id = w.id then w.patch.apply r else r) r

theorem commitWrites_eq_map (ws : List RowWrite) (rows : List SessionRecord) :
    commitWrites ws rows = rows.map (applyWrites ws) := by
  induction ws generalizing rows with
  | nil => exact (map_id rows).symm
  | cons w ws ih =>
    rw [commitWrites, List.foldl_cons, ← commitWrites, ih, writeRow, Table.updateWhere,
      List.map_map]
    refine List.map_congr_left fun r _ => ?_
    by_cases hid : r.id = w.id <;> simp [applyWrites, hid]

theorem applyWrites_frame (ws : List RowWrite) (r : SessionRecord) :
    (applyWrites ws r).id = r.id ∧ (applyWrites ws r).key = r.key ∧
      (applyWrites ws r).ownerEpoch = r.ownerEpoch := by
  induction ws generalizing r with
  | nil => exact ⟨rfl, rfl, rfl⟩
  | cons w ws ih =>
    rw [applyWrites, List.foldl_cons, ← applyWrites]
    split
    · exact ih (w.patch.apply r)
    · exact ih r

theorem applyWrites_of_forall_ne {ws : List RowWrite} (h : ∀ w ∈ ws, w.id ≠ r.id) :
    applyWrites ws r = r := by
  induction ws with
  | nil => rfl
  | cons w ws ih =>
    rw [applyWrites, List.foldl_cons, if_neg (Ne.symm (h w (by simp))), ← applyWrites]
    exact ih fun w' hw' => h w' (by simp [hw'])

variable {f : SessionRecord → SessionRecord} {rows : List SessionRecord}

theorem applyWrites_filter {p : SessionRecord → Bool}
    (hf : ∀ r, (RowPatch.of r (f r)).apply r = f r) (hid : ∀ r, (f r).id = r.id)
    (hU : Unique SessionRecord.id rows) (hr : r ∈ rows) :
    applyWrites ((rows.filter p).map (.of f)) r = if p r then f r else r := by
  induction rows with
  | nil => cases hr
  | cons r₀ rows ih =>
    have hnd := nodup_cons.mp hU
    -- the rows after `r₀` have other ids than `r₀`
    have hother : ∀ w ∈ (rows.filter p).map (RowWrite.of f), w.id ≠ r₀.id := by
      intro w hw heq
      obtain ⟨r', hr', rfl⟩ := mem_map.mp hw
      exact hnd.1 (heq ▸ mem_map_of_mem (mem_filter.mp hr').1)
    rcases mem_cons.mp hr with rfl | hr
    · by_cases hp : p r
      · have hrest : applyWrites ((rows.filter p).map (.of f)) (f r) = f r :=
          applyWrites_of_forall_ne (by simpa [hid] using hother)
        rw [filter_cons_of_pos hp, map_cons, applyWrites, List.foldl_cons,
          ← applyWrites, if_pos (by rfl), if_pos hp]
        exact (congrArg _ (hf r)).trans hrest
      · rw [filter_cons_of_neg hp, if_neg hp]
        exact applyWrites_of_forall_ne hother
    · have hne : r.id ≠ (RowWrite.of f r₀).id :=
        fun heq => hnd.1 (mem_map.mpr ⟨r, hr, heq⟩)
      by_cases hp₀ : p r₀
      · rw [filter_cons_of_pos hp₀, map_cons, applyWrites, List.foldl_cons,
          ← applyWrites, if_neg hne]
        exact ih hnd.2 hr
      · rw [filter_cons_of_neg hp₀]
        exact ih hnd.2 hr

theorem commit_readHeld (hf : ∀ r, (RowPatch.of r (f r)).apply r = f r)
    (hU : Unique SessionRecord.id rows) (sessionId instanceId : String) (epoch : ℤ) :
    (readHeld sessionId instanceId epoch f rows).elim rows (commitWrites · rows) =
      (writeIfHeld sessionId instanceId epoch f rows).1 := by
  rw [readHeld, writeIfHeld]
  rcases hl : rowById rows sessionId with _ | row
  · rfl
  · by_cases hh : holdsLease instanceId epoch row = true
    · simp only [hh, if_true, elim_some, commitWrites, List.foldl_cons, foldl_nil]
      refine List.map_congr_left fun r hr => ?_
      by_cases hid : r.id = row.id
      · obtain rfl := hU.eq_of_key_eq hr (mem_of_lookup hl) hid
        simp [RowWrite.of, hf]
      · simp [RowWrite.of, hid]
    · simp [hh]

theorem commit_readOwned (now : ℤ) (instanceId : String) (hU : Unique SessionRecord.id rows) :
    commitWrites (readOwned now instanceId rows) rows =
      (markOwnerDraining now instanceId rows).1 := by
  rw [commitWrites_eq_map, markOwnerDraining, Table.updateWhere]
  exact List.map_congr_left fun r hr =>
    applyWrites_filter (RowPatch.apply_drainedRow now) (drainedRow_id now) hU hr

/-- **Read, then commit**: with nothing in between, the operations in two steps are the atomic
operations of the durable bridge repository. -/
theorem commit_read_eq_atomic (hU : Unique SessionRecord.id rows) (now : ℤ) (a : RenewArgs)
    (b : ReleaseArgs) (instanceId : String) :
    (readHeld a.sessionId a.instanceId a.ownerEpoch (renewedRow now a) rows).elim rows
        (commitWrites · rows) = (renewSession now a rows).1 ∧
    (readHeld b.sessionId b.instanceId b.ownerEpoch (releasedRow now b.draining) rows).elim rows
        (commitWrites · rows) = (releaseSession now b rows).1 ∧
    commitWrites (readOwned now instanceId rows) rows =
      (markOwnerDraining now instanceId rows).1 :=
  ⟨commit_readHeld (RowPatch.apply_renewedRow now a) hU _ _ _,
    commit_readHeld (RowPatch.apply_releasedRow now b.draining) hU _ _ _,
    commit_readOwned now instanceId hU⟩

theorem commit_read_eq_atomic_drain :
    commitWrites (readOwned 1 "i1" [newRecord sessionHash "row" 0 (claimOfK "i1" false)])
        [newRecord sessionHash "row" 0 (claimOfK "i1" false)] =
      (markOwnerDraining 1 "i1" [newRecord sessionHash "row" 0 (claimOfK "i1" false)]).1 :=
  (@commit_read_eq_atomic [_] (nodup_singleton _) 1 ⟨"row", "i1", 1, 0, none, none, none⟩
    ⟨"row", "i1", 1, false⟩ "i1").2.2

/-! ## Fenced commits -/

def SessionRecord.guarded (r : SessionRecord) :
    Option String × BridgeState × Option ℤ × Option String × Option String :=
  (r.ownerInstanceId, r.state, r.leaseExpiresAt, r.latestTurnState, r.latestResponseId)

/-- No commit changes the guarded columns of a row whose epoch is larger than the one it has
read. -/
def FencedCommits (hash : String → String) (s : FencingState) : Prop :=
  ∀ n s', fencingStep hash s (.commit n) = some s' → ∀ ws, s.inFlight[n]? = some ws →
    ∀ w ∈ ws, ∀ r, rowById s.db.rows w.id = some r → w.epoch < r.ownerEpoch →
      (rowById s'.db.rows w.id).map SessionRecord.guarded = some r.guarded

def NoTakeoverInFlight (hash : String → String) (s : FencingState) : FencingAct → Prop
  | .claim now _ c =>
    ∀ r ∈ lookup SessionRecord.key s.db.rows (c.key hash),
      r.ownerInstanceId ≠ some c.instanceId → claimRefused now c r = false →
        ∀ ws ∈ s.inFlight, ∀ w ∈ ws, w.id ≠ r.id
  | _ => True

instance (hash : String → String) (s : FencingState) :
    ∀ a, Decidable (NoTakeoverInFlight hash s a)
  | .claim _ _ c => inferInstanceAs (Decidable (∀ r ∈ lookup _ _ (c.key hash), _))
  | .renewRead .. => .isTrue trivial
  | .releaseRead .. => .isTrue trivial
  | .drainRead .. => .isTrue trivial
  | .commit _ => .isTrue trivial

structure FencingState.Current (s : FencingState) : Prop where
  constraints : s.db.Constraints
  current : ∀ ws ∈ s.inFlight, ∀ w ∈ ws, ∃ r, rowById s.db.rows w.id = some r ∧
    r.ownerEpoch = w.epoch

theorem rowById_commitWrites (ws : List RowWrite) (rows : List SessionRecord) (k : String) :
    rowById (commitWrites ws rows) k = (rowById rows k).map (applyWrites ws) := by
  have hw := lookup_updateWhere (p := fun _ => true) (t := rows) (k := k)
    fun r => (applyWrites_frame ws r).1
  simpa [commitWrites_eq_map, Table.updateWhere] using hw

theorem commitWrites_constraints {d : DurableDb} (hC : d.Constraints) (ws : List RowWrite) :
    DurableDb.Constraints { d with rows := commitWrites ws d.rows } := by
  have hmap : commitWrites ws d.rows = Table.updateWhere (fun _ => true) (applyWrites ws)
    d.rows := by
    simp [commitWrites_eq_map, Table.updateWhere]
  constructor
  · rw [hmap]
    exact hC.ids.update fun r => (applyWrites_frame ws r).1
  · rw [hmap]
    exact hC.keys.update fun r => (applyWrites_frame ws r).2.1

theorem FencingState.Current.begin (hI : s.Current) {o : Option (List RowWrite)}
    (ho : ∀ ws ∈ o, ∀ w ∈ ws, ∃ r, rowById s.db.rows w.id = some r ∧ r.ownerEpoch = w.epoch) :
    (s.begin o).Current := by
  rcases o with _ | ws
  · exact hI
  · refine ⟨hI.constraints, ?_⟩
    intro ws' hws'
    rcases mem_append.mp hws' with hws' | hws'
    · exact hI.current ws' hws'
    · obtain rfl := mem_singleton.mp hws'
      exact ho ws' rfl

theorem readHeld_current {sessionId instanceId : String} {epoch : ℤ} :
    ∀ ws ∈ readHeld sessionId instanceId epoch f rows, ∀ w ∈ ws,
      ∃ r, rowById rows w.id = some r ∧ r.ownerEpoch = w.epoch := by
  intro ws hws w hw
  rw [readHeld] at hws
  rcases hl : rowById rows sessionId with _ | row <;> rw [hl] at hws
  · cases hws
  · simp only at hws
    split at hws
    · cases hws
      obtain rfl := mem_singleton.mp hw
      have hid : sessionId = (RowWrite.of f row).id := (key_of_lookup hl).symm
      exact ⟨row, hid ▸ hl, rfl⟩
    · cases hws

theorem readOwned_current {now : ℤ} {instanceId : String} (hU : Unique SessionRecord.id rows) :
    ∀ w ∈ readOwned now instanceId rows,
      ∃ r, rowById rows w.id = some r ∧ r.ownerEpoch = w.epoch := by
  intro w hw
  obtain ⟨r, hr, rfl⟩ := mem_map.mp hw
  exact ⟨r, hU.lookup_eq (mem_filter.mp hr).1, rfl⟩

theorem fencingStep_current {a : FencingAct} (hI : s.Current) (hok : NoTakeoverInFlight hash s a)
    (h : fencingStep hash s a = some s') : s'.Current := by
  cases a with
  | renewRead now a =>
    cases h
    exact hI.begin readHeld_current
  | releaseRead now a =>
    cases h
    exact hI.begin readHeld_current
  | drainRead now i =>
    cases h
    refine hI.begin fun ws hws => ?_
    cases hws
    exact readOwned_current hI.constraints.ids
  | commit n =>
    obtain ⟨ws, _, rfl⟩ := map_eq_some_iff.mp h
    refine ⟨commitWrites_constraints hI.constraints ws, ?_⟩
    intro ws' hws' w hw
    obtain ⟨r, hr, he⟩ := hI.current ws' (mem_of_mem_eraseIdx hws') w hw
    refine ⟨applyWrites ws r, ?_, (applyWrites_frame ws r).2.2.trans he⟩
    rw [rowById_commitWrites, hr, map_some]
  | claim now newId c =>
    obtain ⟨db, hdb, rfl⟩ := map_eq_some_iff.mp h
    refine ⟨durableStep_constraints hI.constraints hdb, ?_⟩
    intro ws hws w hw
    obtain ⟨r, hr, he⟩ := hI.current ws hws w hw
    obtain ⟨r', hr', hstep⟩ := durableStep_row hI.constraints hdb hr
    refine ⟨r', hr', ?_⟩
    cases hstep with
    | same => exact he
    | claimed hkey href =>
      by_cases ho : r.ownerInstanceId = some c.instanceId
      · rw [claimedRow_epoch, if_pos ho, he]
      · -- the claim takes over a row that `w` is about to write
        have hl : lookup SessionRecord.key s.db.rows (c.key hash) = some r :=
          hI.constraints.keys.lookup_eq_some_iff.mpr ⟨mem_of_lookup hr, hkey⟩
        exact absurd (key_of_lookup hr).symm (hok r hl ho href ws hws w hw)

theorem FencingState.Current.fencedCommits (hI : s.Current) : FencedCommits hash s := by
  intro n s' _ ws hws w hw r hr hlt
  obtain ⟨r₁, hr₁, he⟩ := hI.current ws (mem_of_getElem? hws) w hw
  obtain rfl := some.inj (hr₁.symm.trans hr)
  omega

/-- **Fencing.** In every run in which no claim takes over a row while an operation that has read it
is in flight, no commit of the holder of a pair changes a row whose epoch is larger. -/
theorem commits_fenced_of_no_takeover {acts : List FencingAct} {s₀ : FencingState}
    (hC : s₀.db.Constraints) (hidle : s₀.inFlight = [])
    (hok : Along (fencingStep hash) (NoTakeoverInFlight hash) acts s₀)
    (hrun : run (fencingStep hash) acts s₀ = some s) : FencedCommits hash s := by
  have hI₀ : s₀.Current := ⟨hC, by simp [hidle]⟩
  have hI : s.Current := run_invariant_along fencingStep_current hI₀ hok hrun
  exact hI.fencedCommits

end

def releaseRun (takeover : Bool) : List FencingAct :=
  [.claim 0 "row" (claimOfK "i1" false), .releaseRead 1000000 ⟨"row", "i1", 1, false⟩,
    .claim 2000000 "row2" (claimOfK "i2" takeover)]

theorem commits_fenced_release :
    ∃ s, run (fencingStep sessionHash) (releaseRun false) ⟨⟨[], 0, []⟩, []⟩ = some s ∧
      s.inFlight.length = 1 ∧ FencedCommits sessionHash s := by
  have hrun : run (fencingStep sessionHash) (releaseRun false) ⟨⟨[], 0, []⟩, []⟩ = some _ := rfl
  have hC : DurableDb.Constraints ⟨[], 0, []⟩ := ⟨nodup_nil, nodup_nil⟩
  exact ⟨_, hrun, by decide, commits_fenced_of_no_takeover hC rfl (by decide) hrun⟩

/-- A release that read the row before the takeover closes the new owner's row:
owner NULL, state CLOSED, at epoch 2. -/
theorem release_over_takeover :
    ∃ s, run (fencingStep sessionHash) (releaseRun true) ⟨⟨[], 0, []⟩, []⟩ = some s ∧
      ¬ FencedCommits sessionHash s := by
  refine ⟨_, rfl, ?_⟩
  intro hF
  have h := hF 0 _ rfl _ rfl _ (mem_singleton.mpr rfl) _ rfl (by decide)
  exact absurd h (by decide)

end CodexOctopus

import CodexOctopus.Run
import CodexOctopus.DurableBridge

/-!
# The durable ownership protocol

Runs of `claim_session`, `renew_session`, `release_session` and
`mark_owner_draining` by any instances, each operation one atomic step at a
clock that never goes back. `RowStep` says once what an operation can do to a
row; everything about epochs is read off it:

* an epoch never decreases, and only a claim by an instance other than the
  recorded owner raises it, by one;
* the (instance, epoch) pairs handed out for a row are *fenced*: an epoch
  belongs to one instance, and no pair handed out is ahead of the row.

`handed` is a history variable: the pairs that successful claims returned.
-/

namespace CodexOctopus

open List Option Table Lts

structure LeaseToken where
  sessionId : String
  instanceId : String
  epoch : ℤ
  deriving DecidableEq

structure DurableDb where
  rows : List SessionRecord
  clock : ℤ
  handed : List LeaseToken

inductive DurableOp : Type where
  | claim (newId : String) (c : ClaimArgs)
  | renew (a : RenewArgs)
  | release (a : ReleaseArgs)
  | drain (instanceId : String)

def handedBy (c : ClaimArgs) (snapshot : SessionRecord) : List LeaseToken :=
  if snapshot.ownerInstanceId = some c.instanceId then
    [⟨snapshot.id, c.instanceId, snapshot.ownerEpoch⟩]
  else []

section

variable (hash : String → String)

/-- One atomic operation. The clock does not go back, and the id of a new row is fresh. -/
def durableStep (s : DurableDb) : ℤ × DurableOp → Option DurableDb
  | (now, op) =>
    if now < s.clock then none
    else match op with
      | .claim newId c =>
        if (rowById s.rows newId).isSome then none
        else
          let (rows, snapshot) := claimSession hash newId now c s.rows
          some ⟨rows, now, s.handed ++ handedBy c snapshot⟩
      | .renew a => some ⟨(renewSession now a s.rows).1, now, s.handed⟩
      | .release a => some ⟨(releaseSession now a s.rows).1, now, s.handed⟩
      | .drain i => some ⟨(markOwnerDraining now i s.rows).1, now, s.handed⟩

inductive RowStep (now : ℤ) : DurableOp → SessionRecord → SessionRecord → Prop where
  | same {op r} : RowStep now op r r
  | claimed {newId c r} : r.key = c.key hash → claimRefused now c r = false →
      RowStep now (.claim newId c) r (claimedRow now c r)
  | renewed {a r} : r.id = a.sessionId → holdsLease a.instanceId a.ownerEpoch r = true →
      RowStep now (.renew a) r (renewedRow now a r)
  | released {a r} : r.id = a.sessionId → holdsLease a.instanceId a.ownerEpoch r = true →
      RowStep now (.release a) r (releasedRow now a.draining r)
  | drained {i r} : ownedActive i r = true → RowStep now (.drain i) r (drainedRow now r)

structure DurableDb.Constraints (s : DurableDb) : Prop where
  ids : Unique SessionRecord.id s.rows
  keys : Unique SessionRecord.key s.rows

variable {hash} {s s' : DurableDb} {now : ℤ} {op : DurableOp} {r r' : SessionRecord}

/-! ## Inversion -/

variable {k newId : String} {f : SessionRecord → SessionRecord} {rows : List SessionRecord}
  {c : ClaimArgs} {t : LeaseToken}

theorem rowById_writeRow_cases (hf : ∀ r, (f r).id = r.id) (hU : Unique SessionRecord.id rows)
    {row : SessionRecord} (hrow : row ∈ rows) (hr : rowById rows k = some r) :
    rowById (writeRow row.id f rows) k = some (if r = row then f row else r) := by
  rw [rowById_writeRow hf, hr, map_some]
  by_cases hid : r.id = row.id
  · obtain rfl := hU.eq_of_key_eq (mem_of_lookup hr) hrow hid
    simp
  · have hne : r ≠ row := fun hh => hid (congrArg SessionRecord.id hh)
    simp [hid, hne]

theorem writeIfHeld_row (hf : ∀ r, (f r).id = r.id) (hU : Unique SessionRecord.id rows)
    {sessionId instanceId : String} {epoch : ℤ} (hr : rowById rows k = some r) :
    ∃ r', rowById (writeIfHeld sessionId instanceId epoch f rows).1 k = some r' ∧
      (r' = r ∨ r.id = sessionId ∧ holdsLease instanceId epoch r = true ∧ r' = f r) := by
  rcases hl : rowById rows sessionId with _ | row
  · exact ⟨r, by simpa [writeIfHeld, hl] using hr, .inl rfl⟩
  · by_cases hh : holdsLease instanceId epoch row = true
    · have hw := rowById_writeRow_cases hf hU (mem_of_lookup hl) hr
      by_cases hrow : r = row
      · subst hrow
        exact ⟨f r, by simpa [writeIfHeld, hl, hh] using hw,
          .inr ⟨key_of_lookup hl, hh, rfl⟩⟩
      · exact ⟨r, by simpa [writeIfHeld, hl, hh, hrow] using hw, .inl rfl⟩
    · exact ⟨r, by simpa [writeIfHeld, hl, hh] using hr, .inl rfl⟩

theorem rowById_writeIfHeld_snapshot (hf : ∀ r, (f r).id = r.id)
    (hU : Unique SessionRecord.id rows) {sessionId instanceId : String} {epoch : ℤ}
    (h : (writeIfHeld sessionId instanceId epoch f rows).2 = some r) :
    rowById (writeIfHeld sessionId instanceId epoch f rows).1 sessionId = some r := by
  rcases hl : rowById rows sessionId with _ | row
  · simp [writeIfHeld, hl] at h
  · by_cases hh : holdsLease instanceId epoch row = true
    · obtain rfl : f row = r := by simpa [writeIfHeld, hl, hh] using h
      have hw := rowById_writeRow_cases hf hU (mem_of_lookup hl) hl
      simpa [writeIfHeld, hl, hh] using hw
    · obtain rfl : row = r := by simpa [writeIfHeld, hl, hh] using h
      simp [writeIfHeld, hl, hh]

theorem claimSession_row (hC : s.Constraints) (hr : rowById s.rows k = some r) :
    ∃ r', rowById (claimSession hash newId now c s.rows).1 k = some r' ∧
      RowStep hash now (.claim newId c) r r' := by
  rcases hl : lookup SessionRecord.key s.rows (c.key hash) with _ | row
  · refine ⟨r, ?_, .same⟩
    simpa [claimSession, hl] using lookup_append_of_some hr
  · by_cases href : claimRefused now c row = true
    · exact ⟨r, by simpa [claimSession, hl, href] using hr, .same⟩
    · have hw := rowById_writeRow_cases (claimedRow_id now c) hC.ids (mem_of_lookup hl) hr
      by_cases hrow : r = row
      · subst hrow
        refine ⟨claimedRow now c r, ?_,
          .claimed (key_of_lookup hl) (Bool.not_eq_true _ ▸ href)⟩
        simpa [claimSession, hl, href] using hw
      · exact ⟨r, by simpa [claimSession, hl, href, hrow] using hw, .same⟩

theorem durableStep_eq_some (h : durableStep hash s (now, op) = some s') :
    match op with
    | .claim newId c => rowById s.rows newId = none ∧
        s' = ⟨(claimSession hash newId now c s.rows).1, now,
          s.handed ++ handedBy c (claimSession hash newId now c s.rows).2⟩
    | .renew a => s' = ⟨(renewSession now a s.rows).1, now, s.handed⟩
    | .release a => s' = ⟨(releaseSession now a s.rows).1, now, s.handed⟩
    | .drain i => s' = ⟨(markOwnerDraining now i s.rows).1, now, s.handed⟩ := by
  simp only [durableStep] at h
  split at h
  · cases h
  · cases op with
    | claim newId c =>
      simp only at h
      split at h
      · cases h
      · next hfresh => exact ⟨by simpa using hfresh, (some.inj h).symm⟩
    | renew a => exact (some.inj h).symm
    | release a => exact (some.inj h).symm
    | drain i => exact (some.inj h).symm

theorem durableStep_row (hC : s.Constraints) (h : durableStep hash s (now, op) = some s')
    (hr : rowById s.rows k = some r) :
    ∃ r', rowById s'.rows k = some r' ∧ RowStep hash now op r r' := by
  cases op with
  | claim newId c =>
    obtain ⟨_, rfl⟩ := durableStep_eq_some h
    exact claimSession_row hC hr
  | renew a =>
    obtain rfl : s' = _ := durableStep_eq_some h
    obtain ⟨r', hr', rfl | ⟨hid, hh, rfl⟩⟩ := writeIfHeld_row (renewedRow_id now a) hC.ids hr
    · exact ⟨_, hr', .same⟩
    · exact ⟨_, hr', .renewed hid hh⟩
  | release a =>
    obtain rfl : s' = _ := durableStep_eq_some h
    obtain ⟨r', hr', rfl | ⟨hid, hh, rfl⟩⟩ :=
      writeIfHeld_row (releasedRow_id now a.draining) hC.ids hr
    · exact ⟨_, hr', .same⟩
    · exact ⟨_, hr', .released hid hh⟩
  | drain i =>
    obtain rfl : s' = _ := durableStep_eq_some h
    have hw := lookup_updateWhere (p := ownedActive i) (t := s.rows) (k := k)
      (drainedRow_id now)
    rw [show lookup SessionRecord.id s.rows k = some r from hr, map_some] at hw
    by_cases ho : ownedActive i r = true
    · exact ⟨_, by simpa [markOwnerDraining, ho] using hw, .drained ho⟩
    · exact ⟨r, by simpa [markOwnerDraining, ho] using hw, .same⟩

/-! ## The table's constraints -/

theorem claimSession_constraints (hC : s.Constraints) (hfresh : rowById s.rows newId = none)
    {handed : List LeaseToken} :
    DurableDb.Constraints ⟨(claimSession hash newId now c s.rows).1, now, handed⟩ := by
  rcases hl : lookup SessionRecord.key s.rows (c.key hash) with _ | row
  · have hkey : lookup SessionRecord.key s.rows (newRecord hash newId now c).key = none := hl
    simpa [claimSession, hl] using
      DurableDb.Constraints.mk (s := ⟨s.rows ++ [newRecord hash newId now c], now, handed⟩)
        (hC.ids.append_singleton hfresh) (hC.keys.append_singleton hkey)
  · by_cases href : claimRefused now c row = true
    · simpa [claimSession, hl, href] using
        DurableDb.Constraints.mk (s := ⟨s.rows, now, handed⟩) hC.ids hC.keys
    · simpa [claimSession, hl, href] using
        DurableDb.Constraints.mk (s := ⟨writeRow row.id (claimedRow now c) s.rows, now, handed⟩)
          (hC.ids.update (claimedRow_id now c)) (hC.keys.update (claimedRow_key now c))

theorem writeIfHeld_unique {κ : Type} {key : SessionRecord → κ} (hf : ∀ r, key (f r) = key r)
    (hU : Unique key rows) (sessionId instanceId : String) (epoch : ℤ) :
    Unique key (writeIfHeld sessionId instanceId epoch f rows).1 := by
  rw [writeIfHeld]
  split
  · exact hU
  · split
    · exact hU.update hf
    · exact hU

theorem durableStep_constraints (hC : s.Constraints)
    (h : durableStep hash s (now, op) = some s') : s'.Constraints := by
  cases op with
  | claim newId c =>
    obtain ⟨hfresh, rfl⟩ := durableStep_eq_some h
    exact claimSession_constraints hC hfresh
  | renew a =>
    obtain rfl : s' = _ := durableStep_eq_some h
    exact ⟨writeIfHeld_unique (renewedRow_id now a) hC.ids _ _ _,
      writeIfHeld_unique (renewedRow_key now a) hC.keys _ _ _⟩
  | release a =>
    obtain rfl : s' = _ := durableStep_eq_some h
    exact ⟨writeIfHeld_unique (releasedRow_id now a.draining) hC.ids _ _ _,
      writeIfHeld_unique (releasedRow_key now a.draining) hC.keys _ _ _⟩
  | drain i =>
    obtain rfl : s' = _ := durableStep_eq_some h
    exact ⟨hC.ids.update (drainedRow_id now), hC.keys.update (drainedRow_key now)⟩

/-! ## Epochs -/

theorem RowStep.epoch (h : RowStep hash now op r r') :
    r'.ownerEpoch = r.ownerEpoch ∨ ∃ newId c, op = .claim newId c ∧
      r'.ownerEpoch = r.ownerEpoch + 1 ∧ r.ownerInstanceId ≠ some c.instanceId := by
  cases h with
  | same => exact .inl rfl
  | renewed _ _ => exact .inl (renewedRow_epoch _ _ _)
  | released _ _ => exact .inl (releasedRow_epoch _ _ _)
  | drained _ => exact .inl (drainedRow_epoch _ _)
  | @claimed newId c r _ _ =>
    by_cases ho : r.ownerInstanceId = some c.instanceId
    · exact .inl (by rw [claimedRow_epoch, if_pos ho])
    · exact .inr ⟨newId, c, rfl, by rw [claimedRow_epoch, if_neg ho], ho⟩

theorem RowStep.epoch_le (h : RowStep hash now op r r') : r.ownerEpoch ≤ r'.ownerEpoch := by
  rcases h.epoch with he | ⟨_, _, _, he, _⟩ <;> omega

theorem RowStep.lt_of_claim {e : ℤ} (h : RowStep hash now (.claim newId c) r r')
    (howner : r'.ownerInstanceId = some c.instanceId) (hle : e ≤ r.ownerEpoch)
    (hnot : holdsLease c.instanceId e r = false) :
    e < r'.ownerEpoch := by
  have hne : r.ownerInstanceId = some c.instanceId → r.ownerEpoch ≠ e := by
    intro ho he
    exact absurd ((holdsLease_iff r).mpr ⟨ho, he⟩) (by simp [hnot])
  rcases h.epoch with he | ⟨_, _, _, he, _⟩
  · cases h with
    | same =>
      have := hne howner
      omega
    | claimed _ _ =>
      by_cases ho : r.ownerInstanceId = some c.instanceId
      · have := hne ho
        omega
      · rw [claimedRow_epoch, if_neg ho] at he
        omega
  · omega

def EpochsGrow (s t : DurableDb) : Prop :=
  ∀ k r, rowById s.rows k = some r → ∃ r', rowById t.rows k = some r' ∧
    r.ownerEpoch ≤ r'.ownerEpoch

theorem durableStep_epochsGrow (hC : s.Constraints)
    (h : durableStep hash s (now, op) = some s') : EpochsGrow s s' := by
  intro k r hr
  obtain ⟨r', hr', hstep⟩ := durableStep_row hC h hr
  exact ⟨r', hr', hstep.epoch_le⟩

theorem EpochsGrow.trans {u : DurableDb} (h₁ : EpochsGrow s s') (h₂ : EpochsGrow s' u) :
    EpochsGrow s u := by
  intro k r hr
  obtain ⟨r₁, hr₁, hle₁⟩ := h₁ k r hr
  obtain ⟨r₂, hr₂, hle₂⟩ := h₂ k r₁ hr₁
  exact ⟨r₂, hr₂, hle₁.trans hle₂⟩

/-! ## Fencing of the pairs handed out -/

def LeaseToken.Behind (s : DurableDb) (t : LeaseToken) : Prop :=
  ∃ r, rowById s.rows t.sessionId = some r ∧ t.epoch ≤ r.ownerEpoch ∧
    (t.epoch = r.ownerEpoch → r.ownerInstanceId = some t.instanceId ∨ r.ownerInstanceId = none)

structure DurableDb.Fenced (s : DurableDb) : Prop where
  constraints : s.Constraints
  behind : ∀ t ∈ s.handed, t.Behind s
  single : ∀ t₁ ∈ s.handed, ∀ t₂ ∈ s.handed, t₁.sessionId = t₂.sessionId →
    t₁.epoch = t₂.epoch → t₁.instanceId = t₂.instanceId

theorem LeaseToken.Behind.step (ht : t.Behind s) (hC : s.Constraints)
    (h : durableStep hash s (now, op) = some s') : t.Behind s' := by
  obtain ⟨r, hr, hle, hown⟩ := ht
  obtain ⟨r', hr', hstep⟩ := durableStep_row hC h hr
  refine ⟨r', hr', hle.trans hstep.epoch_le, ?_⟩
  intro heq
  cases hstep with
  | same => exact hown heq
  | renewed _ _ => exact hown heq
  | released _ _ => exact .inr rfl
  | drained _ => exact hown heq
  | @claimed _ c _ _ _ =>
    rw [claimedRow_epoch] at heq
    by_cases ho : r.ownerInstanceId = some c.instanceId
    · rw [if_pos ho] at heq
      rcases hown heq with hi | hi
      · exact .inl (by rw [claimedRow_owner, ← ho, hi])
      · rw [ho] at hi
        cases hi
    · -- the claim moved the epoch past the pair
      rw [if_neg ho] at heq
      omega

theorem rowById_claimSession_snapshot (hC : s.Constraints) (hfresh : rowById s.rows newId = none) :
    rowById (claimSession hash newId now c s.rows).1 (claimSession hash newId now c s.rows).2.id =
      some (claimSession hash newId now c s.rows).2 := by
  rcases hl : lookup SessionRecord.key s.rows (c.key hash) with _ | row
  · have hU := hC.ids.append_singleton (r := newRecord hash newId now c) hfresh
    simpa [claimSession, hl] using hU.lookup_eq (by simp)
  · have hrow := mem_of_lookup hl
    by_cases href : claimRefused now c row = true
    · simpa [claimSession, hl, href] using hC.ids.lookup_eq hrow
    · have hw := rowById_writeRow_cases (claimedRow_id now c) hC.ids hrow (hC.ids.lookup_eq hrow)
      simpa [claimSession, hl, href] using hw

theorem durableStep_handed (hC : s.Constraints) (h : durableStep hash s (now, op) = some s')
    (ht : t ∈ s'.handed) :
    t ∈ s.handed ∨ ∃ r, rowById s'.rows t.sessionId = some r ∧
      r.ownerInstanceId = some t.instanceId ∧ r.ownerEpoch = t.epoch := by
  cases op with
  | claim newId c =>
    obtain ⟨hfresh, rfl⟩ := durableStep_eq_some h
    rcases mem_append.mp ht with ht | ht
    · exact .inl ht
    · rw [handedBy] at ht
      split at ht
      · next howner =>
        obtain rfl := mem_singleton.mp ht
        exact .inr ⟨_, rowById_claimSession_snapshot hC hfresh, howner, rfl⟩
      · cases ht
  | renew a => exact .inl (by rwa [durableStep_eq_some h] at ht)
  | release a => exact .inl (by rwa [durableStep_eq_some h] at ht)
  | drain i => exact .inl (by rwa [durableStep_eq_some h] at ht)

theorem LeaseToken.Behind.instance_eq (ht : t.Behind s) {i : String}
    (hr : rowById s.rows t.sessionId = some r) (ho : r.ownerInstanceId = some i)
    (he : r.ownerEpoch = t.epoch) : t.instanceId = i := by
  obtain ⟨r₁, hr₁, _, hown⟩ := ht
  obtain rfl := some.inj (hr₁.symm.trans hr)
  rcases hown he.symm with hi | hi
  · exact some.inj (hi.symm.trans ho)
  · rw [ho] at hi
    cases hi

theorem durableStep_fenced (hF : s.Fenced) (h : durableStep hash s (now, op) = some s') :
    s'.Fenced := by
  have hbehind : ∀ t ∈ s'.handed, t.Behind s' := by
    intro t ht
    rcases durableStep_handed hF.constraints h ht with hold | ⟨r, hr, ho, he⟩
    · exact (hF.behind t hold).step hF.constraints h
    · exact ⟨r, hr, he.ge, fun _ => .inl ho⟩
  refine ⟨durableStep_constraints hF.constraints h, hbehind, ?_⟩
  intro t₁ ht₁ t₂ ht₂ hid hep
  rcases durableStep_handed hF.constraints h ht₁ with hold₁ | ⟨r, hr, ho, he⟩
  · rcases durableStep_handed hF.constraints h ht₂ with hold₂ | ⟨r, hr, ho, he⟩
    · exact hF.single t₁ hold₁ t₂ hold₂ hid hep
    · exact (hbehind t₁ ht₁).instance_eq (hid ▸ hr) ho (he.trans hep.symm)
  · exact ((hbehind t₂ ht₂).instance_eq (hid ▸ hr) ho (he.trans hep)).symm

theorem DurableDb.Fenced.holder_unique (hF : s.Fenced) {t₁ t₂ : LeaseToken}
    (ht₁ : t₁ ∈ s.handed) (ht₂ : t₂ ∈ s.handed) (hid : t₁.sessionId = t₂.sessionId)
    (h₁ : holdsLease t₁.instanceId t₁.epoch r = true)
    (h₂ : holdsLease t₂.instanceId t₂.epoch r = true) : t₁ = t₂ := by
  have he : t₁.epoch = t₂.epoch := by
    rw [← ((holdsLease_iff r).mp h₁).2, ((holdsLease_iff r).mp h₂).2]
  have hi := hF.single t₁ ht₁ t₂ ht₂ hid he
  cases t₁
  cases t₂
  simp_all

/-! ## Refused claims -/

theorem claimRefused_of_held (htake : c.allowTakeover = false) (hstate : r.state = .active)
    {lease : ℤ} (hlease : r.leaseExpiresAt = some lease) (hlive : now < lease) {owner : String}
    (howner : r.ownerInstanceId = some owner) (hother : owner ≠ c.instanceId) :
    claimRefused now c r = true := by
  have hchanged : ownerChanged c r = true := by simp [ownerChanged, howner, hother]
  have hexp : leaseExpired now r = false := by simpa [leaseExpired, hlease] using hlive
  have hkeep : stateAllowsTakeover r = false := by simp [stateAllowsTakeover, hstate]
  rw [claimRefused, hchanged, htake, hexp, hkeep]
  rfl

theorem durableStep_refused (hl : lookup SessionRecord.key s.rows (c.key hash) = some r)
    (href : claimRefused now c r = true) (h : durableStep hash s (now, .claim newId c) = some s') :
    s'.rows = s.rows := by
  obtain ⟨_, rfl⟩ := durableStep_eq_some h
  simp [claimSession, hl, href]

/-! ## The protocol -/

/-- **The durable ownership protocol**, at the end of every run: no epoch has decreased; the next
operation changes an epoch only if it is a claim by another than the recorded owner, and by one; a
claim without takeover leaves an active, unexpired row of another instance alone; and of the pairs
handed out for a row at most one passes the check of `renew_session` and `release_session`. -/
theorem durable_ownership {ops : List (ℤ × DurableOp)} {s₀ s : DurableDb}
    (hC : s₀.Constraints) (hnone : s₀.handed = [])
    (hrun : run (durableStep hash) ops s₀ = some s) :
    EpochsGrow s₀ s ∧
    (∀ now op s', durableStep hash s (now, op) = some s' → ∀ k r, rowById s.rows k = some r →
      ∃ r', rowById s'.rows k = some r' ∧ (r'.ownerEpoch = r.ownerEpoch ∨
        ∃ newId c, op = .claim newId c ∧ r'.ownerEpoch = r.ownerEpoch + 1 ∧
          r.ownerInstanceId ≠ some c.instanceId)) ∧
    (∀ now newId c s', durableStep hash s (now, .claim newId c) = some s' →
      c.allowTakeover = false → ∀ r lease owner,
        lookup SessionRecord.key s.rows (c.key hash) = some r → r.state = .active →
        r.leaseExpiresAt = some lease → now < lease → r.ownerInstanceId = some owner →
        owner ≠ c.instanceId → s'.rows = s.rows) ∧
    (∀ t₁ ∈ s.handed, ∀ t₂ ∈ s.handed, t₁.sessionId = t₂.sessionId →
      ∀ r, rowById s.rows t₁.sessionId = some r →
        holdsLease t₁.instanceId t₁.epoch r = true →
        holdsLease t₂.instanceId t₂.epoch r = true → t₁ = t₂) := by
  have hF₀ : s₀.Fenced := ⟨hC, by simp [hnone], by simp [hnone]⟩
  have hF : s.Fenced := run_invariant (fun hF h => durableStep_fenced hF h) hF₀ hrun
  refine ⟨?_, ?_, ?_, ?_⟩
  · exact run_trans (R := EpochsGrow) (fun _ k r hr => ⟨r, hr, le_rfl⟩) EpochsGrow.trans
      (fun hC h => durableStep_constraints hC h) (fun hC h => durableStep_epochsGrow hC h) hC hrun
  · intro now op s' h k r hr
    obtain ⟨r', hr', hstep⟩ := durableStep_row hF.constraints h hr
    exact ⟨r', hr', hstep.epoch⟩
  · intro now newId c s' h htake r lease owner hl hstate hlease hlive howner hother
    exact durableStep_refused hl
      (claimRefused_of_held htake hstate hlease hlive howner hother) h
  · intro t₁ ht₁ t₂ ht₂ hid r _ h₁ h₂
    exact hF.holder_unique ht₁ ht₂ hid h₁ h₂

end

def sessionHash (v : String) : String :=
  if v = "j" then "189f40034be7a199f1fa9891668ee3ab6049f82d38c68be70f596eab2e1857b7"
  else if v = "k" then "8254c329a92850f6d539dd376f4816ee2764517da5e0235514af433164480d7a"
  else "acac86c0e609ca906f632b0e2dacccb2b77d22b0621f20ebece1a4835b93f6f0"

def claimOfK (instanceId : String) (allowTakeover : Bool) : ClaimArgs where
  sessionKeyKind := "session_header"
  sessionKeyValue := "k"
  apiKeyScope := "__anonymous__"
  instanceId := instanceId
  leaseTtl := 60000000
  accountId := some "acc"
  model := some "gpt-5"
  serviceTier := none
  latestTurnState := none
  latestResponseId := none
  allowTakeover := allowTakeover

def expiredLeaseRun : List (ℤ × DurableOp) :=
  [(0, .claim "row" (claimOfK "i1" false)), (1000000, .claim "row2" (claimOfK "i2" false)),
    (60000000, .claim "row3" (claimOfK "i2" false))]

theorem durable_ownership_expired_lease :
    ∃ s, run (durableStep sessionHash) expiredLeaseRun ⟨[], 0, []⟩ = some s ∧
      s.handed = [⟨"row", "i1", 1⟩, ⟨"row", "i2", 2⟩] ∧
      ∀ t₁ ∈ s.handed, ∀ t₂ ∈ s.handed, t₁.sessionId = t₂.sessionId →
        ∀ r, rowById s.rows t₁.sessionId = some r →
          holdsLease t₁.instanceId t₁.epoch r = true →
          holdsLease t₂.instanceId t₂.epoch r = true → t₁ = t₂ := by
  have hrun : run (durableStep sessionHash) expiredLeaseRun ⟨[], 0, []⟩ = some _ := rfl
  have hC : DurableDb.Constraints ⟨[], 0, []⟩ := ⟨nodup_nil, nodup_nil⟩
  exact ⟨_, hrun, by decide, (durable_ownership hC rfl hrun).2.2.2⟩

end CodexOctopus

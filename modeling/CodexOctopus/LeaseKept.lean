import CodexOctopus.BridgeLease

/-!
# Leases of newer sessions under the close of older ones

A claim by the instance that already owns the row keeps the epoch, so the pair
of a session that was popped but not yet released stays valid for the row a newer
session has claimed.
-/

namespace CodexOctopus

open List Option Table Lts

section

variable (hash : String → String) (self : String) (maxSessions : ℕ)

/-- The commit of a release leaves every registered session of the closed session's
key the lease it holds. -/
def LeasesKept (s : LeaseState) : Prop :=
  ∀ n s', leaseStep hash self maxSessions s (.closeCommit n) = some s' →
    ∀ p, s.releases[n]? = some p → ∀ o ∈ s.sessions, o.oid = p.1 →
      ∀ o' ∈ s.sessions, o'.phase = .registered → o'.key = o.key →
        ∀ k e, o'.token = some (k, e) → ∀ r, rowById s.db.rows k = some r →
          holdsLease self e r = true →
            ∃ r', rowById s'.db.rows k = some r' ∧ holdsLease self e r' = true

/-- When a session's row is claimed, no session of its key that has left the map can still release
the row. -/
def QuietClaim (s : LeaseState) : LeaseAct → Prop
  | .claim oid .. =>
    ∀ o ∈ s.sessions, o.oid = oid → ∀ o' ∈ s.sessions, o'.live = false → o'.key = o.key →
      (∀ p ∈ s.releases, p.1 ≠ o'.oid) ∧
      ∀ t ∈ o'.token, ∀ r ∈ rowById s.db.rows t.1, holdsLease self t.2 r = false
  | _ => True

instance (s : LeaseState) : ∀ a, Decidable (QuietClaim self s a)
  | .claim .. => inferInstanceAs (Decidable (∀ o ∈ s.sessions, _))
  | .enter .. | .fallback _ | .register _ | .abort _ | .refresh .. | .touch .. | .closeRead ..
  | .closeCommit _ | .closeFail _ | .drain _ | .foreign .. => .isTrue trivial

end

/-! ## The invariant -/

def PairBehind (db : DurableDb) (t : String × ℤ) : Prop :=
  ∃ r, rowById db.rows t.1 = some r ∧ t.2 ≤ r.ownerEpoch

/-- No session of this key that occupies it remembers a pair for the row `k`. -/
def RowUnclaimed (s : LeaseState) (key : BridgeKey) (k : String) : Prop :=
  ∀ o ∈ s.sessions, o.live = true → o.key = key → ∀ e, o.token ≠ some (k, e)

structure LeaseState.Inv (s : LeaseState) : Prop where
  constraints : s.db.Constraints
  oids : Table.Unique BridgeSession.oid s.sessions
  single : ∀ o ∈ s.sessions, ∀ o' ∈ s.sessions, o.live = true → o'.live = true →
    o.key = o'.key → o = o'
  behind : ∀ o ∈ s.sessions, ∀ t, o.token = some t → PairBehind s.db t
  /-- the pair of a session that left the map is older than the occupying session's -/
  older : ∀ o ∈ s.sessions, ∀ o' ∈ s.sessions, o.live = false → o'.live = true →
    o.key = o'.key → ∀ k e e', o.token = some (k, e) → o'.token = some (k, e') → e < e'
  /-- a release in flight is for a row no session of the key has claimed since -/
  releasing : ∀ p ∈ s.releases, ∃ o ∈ s.sessions, o.oid = p.1 ∧ o.live = false ∧
    ∀ w ∈ p.2, RowUnclaimed s o.key w.id

section

variable {hash : String → String} {self : String} {maxSessions : ℕ} {s s' : LeaseState}

theorem PairBehind.mono {d d' : DurableDb} {t : String × ℤ} (h : PairBehind d t)
    (hg : EpochsGrow d d') : PairBehind d' t := by
  obtain ⟨r, hr, hle⟩ := h
  obtain ⟨r', hr', hle'⟩ := hg t.1 r hr
  exact ⟨r', hr', hle.trans hle'⟩

variable {db : DurableDb} {now : ℤ} {o : BridgeSession}

theorem LeaseState.Inv.setDb (hI : s.Inv) (hC : db.Constraints) (hg : EpochsGrow s.db db) :
    LeaseState.Inv { s with db := db } := { hI with
  constraints := hC
  behind o ho t ht := (hI.behind o ho t ht).mono hg }

theorem LeaseState.Inv.dbStep (hI : s.Inv) {op : DurableOp}
    (h : durableStep hash s.db (now, op) = some db) : LeaseState.Inv { s with db := db } :=
  hI.setDb (durableStep_constraints hI.constraints h) (durableStep_epochsGrow hI.constraints h)

theorem commitWrites_epochsGrow (d : DurableDb) (ws : List RowWrite) :
    EpochsGrow d { d with rows := commitWrites ws d.rows } := by
  intro k r hr
  refine ⟨applyWrites ws r, ?_, (applyWrites_frame ws r).2.2.ge⟩
  rw [rowById_commitWrites, hr, map_some]

theorem LeaseState.Inv.eraseRelease (hI : s.Inv) (n : ℕ) :
    LeaseState.Inv { s with releases := s.releases.eraseIdx n } := { hI with
  releasing p hp := hI.releasing p (mem_of_mem_eraseIdx hp) }

theorem mem_relabel {p : ℕ → Bool} {phase : BridgePhase}
    (hfree : ∀ o ∈ s.sessions, p o.oid = true → phase = .popped ∨ phase = .closed ∨ o.live = true)
    (ho : o ∈ (s.relabel p phase).sessions) :
    ∃ o₀ ∈ s.sessions, o.oid = o₀.oid ∧ o.key = o₀.key ∧ o.token = o₀.token ∧
      (o.live = true → o₀.live = true) := by
  obtain ⟨o₀, ho₀, rfl⟩ := mem_updateWhere.mp ho
  refine ⟨o₀, ho₀, ?_⟩
  by_cases hp : p o₀.oid = true
  · simp only [hp, if_true, true_and]
    rcases hfree o₀ ho₀ hp with rfl | rfl | hlive
    · intro h
      cases h
    · intro h
      cases h
    · exact fun _ => hlive
  · simp [hp]

theorem LeaseState.Inv.relabel (hI : s.Inv) {p : ℕ → Bool} {phase : BridgePhase}
    (hfree : ∀ o ∈ s.sessions, p o.oid = true → phase = .popped ∨ phase = .closed ∨ o.live = true) :
    (s.relabel p phase).Inv := by
  have hunclaimed : ∀ {key k}, RowUnclaimed s key k → RowUnclaimed (s.relabel p phase) key k := by
    intro key k hun o ho hlive hkey e
    obtain ⟨o₀, ho₀, _, hk, ht, hl⟩ := mem_relabel hfree ho
    rw [ht]
    exact hun o₀ ho₀ (hl hlive) (hk ▸ hkey) e
  refine ⟨hI.constraints, hI.oids.update fun _ => rfl, ?_, ?_, ?_, ?_⟩
  · intro o ho o' ho' hlive hlive' hkey
    obtain ⟨o₀, ho₀, hid, hk, _, hl⟩ := mem_relabel hfree ho
    obtain ⟨o₁, ho₁, hid', hk', _, hl'⟩ := mem_relabel hfree ho'
    have heq := hI.single o₀ ho₀ o₁ ho₁ (hl hlive) (hl' hlive') (hk ▸ hk' ▸ hkey)
    have hU : Table.Unique BridgeSession.oid (s.relabel p phase).sessions :=
      hI.oids.update fun _ => rfl
    exact hU.eq_of_key_eq ho ho' (hid.trans (heq ▸ hid'.symm))
  · intro o ho t ht
    obtain ⟨o₀, ho₀, _, _, htok, _⟩ := mem_relabel hfree ho
    exact hI.behind o₀ ho₀ t (htok ▸ ht)
  · intro o ho o' ho' hdead hlive' hkey k e e' ht ht'
    obtain ⟨o₀, ho₀, hid, hk, htok, _⟩ := mem_relabel hfree ho
    obtain ⟨o₁, ho₁, hid', hk', htok', hl'⟩ := mem_relabel hfree ho'
    by_cases hdead₀ : o₀.live = true
    · -- freed just now: it occupied the key alone, so `o'` is this very object
      have heq := hI.single o₀ ho₀ o₁ ho₁ hdead₀ (hl' hlive') (hk ▸ hk' ▸ hkey)
      have hU : Table.Unique BridgeSession.oid (s.relabel p phase).sessions :=
        hI.oids.update fun _ => rfl
      obtain rfl := hU.eq_of_key_eq ho ho' (hid.trans (heq ▸ hid'.symm))
      rw [hdead] at hlive'
      cases hlive'
    · exact hI.older o₀ ho₀ o₁ ho₁ (Bool.not_eq_true _ ▸ hdead₀) (hl' hlive')
        (hk ▸ hk' ▸ hkey) k e e' (htok ▸ ht) (htok' ▸ ht')
  · intro q hq
    obtain ⟨o, ho, hid, hdead, hun⟩ := hI.releasing q hq
    refine ⟨_, mem_updateWhere.mpr ⟨o, ho, rfl⟩, ?_⟩
    by_cases hp : p o.oid = true
    · simp only [hp, if_true]
      refine ⟨hid, ?_, fun w hw => hunclaimed (hun w hw)⟩
      rcases hfree o ho hp with rfl | rfl | hlive
      · rfl
      · rfl
      · rw [hdead] at hlive
        cases hlive
    · simp only [hp, Bool.false_eq_true, if_false]
      exact ⟨hid, hdead, fun w hw => hunclaimed (hun w hw)⟩

theorem LeaseState.Inv.append (hI : s.Inv) {oid : ℕ} {key : BridgeKey} {waits : List ℕ}
    (hoid : s.session oid = none) (hfree : ∀ o ∈ s.sessions, o.live = true → o.key ≠ key) :
    LeaseState.Inv { s with sessions := s.sessions ++ [⟨oid, key, none, .creating, waits⟩] } := by
  have hmem : ∀ {o : BridgeSession}, o ∈ s.sessions ++ [⟨oid, key, none, .creating, waits⟩] →
      o ∈ s.sessions ∨ o = ⟨oid, key, none, .creating, waits⟩ := by
    intro o ho
    simpa using ho
  refine ⟨hI.constraints, hI.oids.append_singleton hoid, ?_, ?_, ?_, ?_⟩
  · intro o ho o' ho' hlive hlive' hkey
    rcases hmem ho with ho | rfl
    · rcases hmem ho' with ho' | rfl
      · exact hI.single o ho o' ho' hlive hlive' hkey
      · exact absurd hkey (hfree o ho hlive)
    · rcases hmem ho' with ho' | rfl
      · exact absurd hkey.symm (hfree o' ho' hlive')
      · rfl
  · intro o ho t ht
    rcases hmem ho with ho | rfl
    · exact hI.behind o ho t ht
    · cases ht
  · intro o ho o' ho' hdead hlive' hkey k e e' ht ht'
    rcases hmem ho with ho | rfl
    · rcases hmem ho' with ho' | rfl
      · exact hI.older o ho o' ho' hdead hlive' hkey k e e' ht ht'
      · cases ht'
    · cases ht
  · intro p hp
    obtain ⟨o, ho, hid, hdead, hun⟩ := hI.releasing p hp
    refine ⟨o, mem_append_left _ ho, hid, hdead, ?_⟩
    intro w hw o' ho' hlive hkey e
    rcases hmem ho' with ho' | rfl
    · exact hun w hw o' ho' hlive hkey e
    · exact fun h => by cases h

structure NewerPair (s : LeaseState) (key : BridgeKey) (t : String × ℤ) : Prop where
  behind : PairBehind s.db t
  newer : ∀ d ∈ s.sessions, d.live = false → d.key = key → ∀ e, d.token = some (t.1, e) → e < t.2
  quiet : ∀ p ∈ s.releases, ∀ d ∈ s.sessions, d.oid = p.1 → d.key = key → ∀ w ∈ p.2, w.id ≠ t.1

theorem LeaseState.Inv.set (hI : s.Inv) {o' : BridgeSession} (ho : o ∈ s.sessions)
    (hid : o'.oid = o.oid) (hkey : o'.key = o.key) (hlive : o.live = true) (hlive' : o'.live = true)
    (htok : ∀ t, o'.token = some t → NewerPair s o.key t) :
    (s.set o').Inv := by
  have hmem : ∀ {d : BridgeSession}, d ∈ (s.set o').sessions →
      d = o' ∨ d ∈ s.sessions ∧ d.oid ≠ o.oid := by
    intro d hd
    obtain ⟨d₀, hd₀, rfl⟩ := mem_updateWhere.mp hd
    by_cases hd' : d₀.oid = o'.oid
    · exact .inl (by simp [hd'])
    · exact .inr (by simp [hd', hd₀, hid ▸ hd'])
  have hdead : ∀ {d : BridgeSession}, d ∈ (s.set o').sessions → d.live = false → d ∈
    s.sessions := by
    intro d hd hdd
    rcases hmem hd with rfl | ⟨hd, _⟩
    · rw [hlive'] at hdd
      cases hdd
    · exact hd
  -- the object keeps the key to itself
  have hother : ∀ {d : BridgeSession}, d ∈ s.sessions → d.oid ≠ o.oid → d.live = true →
      d.key ≠ o.key := by
    intro d hd hne hl hk
    exact hne (congrArg BridgeSession.oid (hI.single d hd o ho hl hlive hk))
  refine ⟨hI.constraints, ?_, ?_, ?_, ?_, ?_⟩
  · exact hI.oids.update_of fun r hr => (of_decide_eq_true hr).symm
  · intro d hd d' hd' hl hl' hk
    rcases hmem hd with rfl | ⟨hmd, hne⟩
    · rcases hmem hd' with rfl | ⟨hmd', hne'⟩
      · rfl
      · exact absurd (hk.symm.trans hkey) (hother hmd' hne' hl')
    · rcases hmem hd' with rfl | ⟨hmd', _⟩
      · exact absurd (hk.trans hkey) (hother hmd hne hl)
      · exact hI.single d hmd d' hmd' hl hl' hk
  · intro d hd t ht
    rcases hmem hd with rfl | ⟨hd, _⟩
    · exact (htok t ht).behind
    · exact hI.behind d hd t ht
  · intro d hd d' hd' hdl hl' hk k e e' ht ht'
    rcases hmem hd' with rfl | ⟨hd', _⟩
    · exact (htok _ ht').newer d (hdead hd hdl) hdl (hk.trans hkey) e ht
    · exact hI.older d (hdead hd hdl) d' hd' hdl hl' hk k e e' ht ht'
  · intro p hp
    obtain ⟨d, hd, hdid, hdl, hun⟩ := hI.releasing p hp
    have hne : d.oid ≠ o'.oid := by
      intro h
      obtain rfl := hI.oids.eq_of_key_eq hd ho (h.trans hid)
      rw [hlive] at hdl
      cases hdl
    refine ⟨d, mem_updateWhere.mpr ⟨d, hd, by simp [hne]⟩, hdid, hdl, ?_⟩
    intro w hw d' hd' hl' hk' e hte
    rcases hmem hd' with rfl | ⟨hd', _⟩
    · exact (htok _ hte).quiet p hp d hd hdid (hk'.symm.trans hkey) w hw rfl
    · exact hun w hw d' hd' hl' hk' e hte

/-! ## The steps -/

theorem LeaseState.Inv.claim_newerPair (hI : s.Inv) (ho : o ∈ s.sessions) {newId : String}
    {a : SessionClaim} {cancelled : Bool}
    (hquiet : QuietClaim self s (.claim o.oid now newId a cancelled))
    (h : durableStep hash s.db (now, .claim newId (o.claimArgs self a)) = some db)
    {snapshot : SessionRecord}
    (hsnap : (claimSession hash newId now (o.claimArgs self a) s.db.rows).2 = snapshot)
    (howner : snapshot.ownerInstanceId = some self) :
    NewerPair { s with db := db } o.key (snapshot.id, snapshot.ownerEpoch) := by
  obtain ⟨hfresh, hdb⟩ := durableStep_eq_some h
  have hrow : rowById db.rows snapshot.id = some snapshot := by
    rw [hdb, ← hsnap]
    exact rowById_claimSession_snapshot hI.constraints hfresh
  refine ⟨⟨snapshot, hrow, le_rfl⟩, ?_, ?_⟩
  · intro d hd hdead hkey e ht
    obtain ⟨r, hr, hle⟩ := hI.behind d hd _ ht
    obtain ⟨r', hr', hstep⟩ := durableStep_row hI.constraints h hr
    obtain rfl := some.inj (hr'.symm.trans hrow)
    exact hstep.lt_of_claim howner hle ((hquiet o ho rfl d hd hdead hkey).2 _ ht r hr)
  · intro p hp d hd hid hkey w _
    obtain ⟨d', hd', hid', hdead, _⟩ := hI.releasing p hp
    obtain rfl := hI.oids.eq_of_key_eq hd hd' (hid.trans hid'.symm)
    exact absurd hid.symm ((hquiet o ho rfl d hd hdead hkey).1 p hp)

theorem LeaseState.Inv.refresh_newerPair (hI : s.Inv) (ho : o ∈ s.sessions) (hlive : o.live = true)
    {token : String × ℤ} (htok : o.token = some token) {ttl : ℤ} {turnState : Option String}
    (h : durableStep hash s.db (now, .renew (renewWith self token ttl turnState none)) = some db)
    {snapshot : SessionRecord}
    (hsnap : (renewSession now (renewWith self token ttl turnState none) s.db.rows).2 =
      some snapshot) :
    NewerPair { s with db := db } o.key (token.1, snapshot.ownerEpoch) := by
  have hrow : rowById db.rows token.1 = some snapshot := by
    rw [show db = _ from durableStep_eq_some h]
    exact rowById_writeIfHeld_snapshot (renewedRow_id now _) hI.constraints.ids hsnap
  have hle : token.2 ≤ snapshot.ownerEpoch := by
    obtain ⟨r, hr, hle⟩ := (hI.behind o ho token htok).mono
      (durableStep_epochsGrow hI.constraints h)
    obtain rfl := some.inj (hr.symm.trans hrow)
    exact hle
  refine ⟨⟨snapshot, hrow, le_rfl⟩, ?_, ?_⟩
  · intro d hd hdead hkey e ht
    exact (hI.older d hd o ho hdead hlive hkey token.1 e token.2 ht htok).trans_le hle
  · intro p hp d hd hid hkey w hw heq
    obtain ⟨d', hd', hid', _, hun⟩ := hI.releasing p hp
    obtain rfl := hI.oids.eq_of_key_eq hd hd' (hid.trans hid'.symm)
    exact hun w hw o ho hlive hkey.symm token.2 (by rw [htok, heq])

theorem LeaseState.Inv.beginRelease (hI : s.Inv) (ho : o ∈ s.sessions) (hdead : o.live = false)
    {token : String × ℤ} (htok : o.token = some token) {f : SessionRecord → SessionRecord}
    {ws : List RowWrite} (hws : readHeld token.1 self token.2 f s.db.rows = some ws) :
    LeaseState.Inv { s with releases := s.releases ++ [(o.oid, ws)] } := by
  refine ⟨hI.constraints, hI.oids, hI.single, hI.behind, hI.older, ?_⟩
  intro p hp
  rcases mem_append.mp hp with hp | hp
  · exact hI.releasing p hp
  · obtain rfl := mem_singleton.mp hp
    refine ⟨o, ho, rfl, hdead, ?_⟩
    intro w hw o' ho' hlive hkey e' ht'
    -- the row accepts the old pair, so no newer pair of the key can exist
    rcases hl : rowById s.db.rows token.1 with _ | row
    · simp [readHeld, hl] at hws
    · by_cases hh : holdsLease self token.2 row = true
      · obtain rfl : [RowWrite.of f row] = ws := by simpa [readHeld, hl, hh] using hws
        obtain rfl := mem_singleton.mp hw
        have hid : row.id = token.1 := key_of_lookup hl
        have ht₁ : o'.token = some (token.1, e') := ht'.trans (by rw [← hid]; rfl)
        have hlt := hI.older o ho o' ho' hdead hlive hkey.symm token.1 token.2 e' htok ht₁
        obtain ⟨r, hr, hle⟩ := hI.behind o' ho' _ ht₁
        obtain rfl := some.inj (hr.symm.trans hl)
        have he := ((holdsLease_iff r).mp hh).2
        simp only at hle
        omega
      · simp [readHeld, hl, hh] at hws

theorem live_of_inPhase (hI : s.Inv) {oid : ℕ} {ps : List BridgePhase} (h : s.inPhase oid ps = true)
    (hps : ∀ ph ∈ ps, ph ≠ .popped ∧ ph ≠ .closed) (ho : o ∈ s.sessions) (hid : o.oid = oid) :
    o.live = true := by
  obtain ⟨o', ho', h'⟩ := any_eq_true.mp h
  simp only [Bool.and_eq_true, decide_eq_true_eq, contains_iff_mem] at h'
  obtain rfl := hI.oids.eq_of_key_eq ho ho' (hid.trans h'.1.symm)
  have hph := hps _ h'.2
  cases hphase : o.phase with
  | creating => simp [BridgeSession.live, hphase]
  | claimed => simp [BridgeSession.live, hphase]
  | registered => simp [BridgeSession.live, hphase]
  | popped => exact absurd hphase hph.1
  | closed => exact absurd hphase hph.2

theorem leaseStep_inv {a : LeaseAct} (hI : s.Inv) (hok : QuietClaim self s a)
    (h : leaseStep hash self maxSessions s a = some s') : s'.Inv := by
  cases a with
  | enter pops create =>
    simp only [leaseStep] at h
    split at h
    · have hI₁ : (s.relabel (pops.contains ·) .popped).Inv := hI.relabel fun _ _ _ => .inl rfl
      split at h
      · cases h
        exact hI₁
      · split at h
        · next hguard =>
          cases h
          exact hI₁.append hguard.1 hguard.2.1
        · cases h
    · cases h
  | claim oid now newId a cancelled =>
    simp only [leaseStep] at h
    split at h
    · cases h
    · next o hl =>
      have ho := mem_of_lookup hl
      obtain rfl := key_of_lookup hl
      split at h
      · next hguard =>
        obtain ⟨db, hdb, rfl⟩ := map_eq_some_iff.mp h
        have hlive : o.live = true := by simp [BridgeSession.live, hguard.1]
        split
        · next hsnap =>
          refine (hI.dbStep hdb).set ho rfl rfl hlive rfl fun t ht => ?_
          cases ht
          exact hI.claim_newerPair ho hok hdb rfl hsnap.2
        · exact (hI.dbStep hdb).relabel fun _ _ _ => .inl rfl
      · cases h
  | fallback oid =>
    simp only [leaseStep] at h
    split at h
    · next hph =>
      cases h
      refine hI.relabel fun o ho hid => .inr (.inr ?_)
      exact live_of_inPhase hI hph (by decide) ho (of_decide_eq_true hid)
    · cases h
  | register oid =>
    simp only [leaseStep] at h
    split at h
    · next hph =>
      cases h
      refine hI.relabel fun o ho hid => .inr (.inr ?_)
      exact live_of_inPhase hI hph (by decide) ho (of_decide_eq_true hid)
    · cases h
  | abort oid =>
    simp only [leaseStep] at h
    split at h
    · cases h
      exact hI.relabel fun _ _ _ => .inl rfl
    · cases h
  | refresh oid now ttl turnState =>
    simp only [leaseStep] at h
    split at h
    · cases h
    · next o hl =>
      have ho := mem_of_lookup hl
      split at h
      · next hphase =>
        have hlive : o.live = true := by simp [BridgeSession.live, hphase]
        split at h
        · cases h
          exact hI
        · next token htok =>
          obtain ⟨db, hdb, rfl⟩ := map_eq_some_iff.mp h
          split
          · exact hI.dbStep hdb
          · next snapshot hsnap =>
            refine (hI.dbStep hdb).set ho rfl rfl hlive hlive fun t ht => ?_
            cases ht
            exact hI.refresh_newerPair ho hlive htok hdb hsnap
      · cases h
  | touch oid now ttl turnState responseId =>
    simp only [leaseStep] at h
    split at h
    · cases h
    · obtain ⟨db, hdb, rfl⟩ := map_eq_some_iff.mp h
      exact hI.dbStep hdb
  | closeRead oid now draining =>
    simp only [leaseStep] at h
    split at h
    · cases h
    · next o hl =>
      have ho := mem_of_lookup hl
      obtain rfl := key_of_lookup hl
      split at h
      · cases h
      · next hdead =>
        split at h
        · cases h
          exact hI.relabel fun _ _ _ => .inr (.inl rfl)
        · next ws hws =>
          cases h
          obtain ⟨token, htok, hread⟩ := bind_eq_some_iff.mp hws
          exact hI.beginRelease ho (Bool.not_eq_true _ ▸ hdead) htok hread
  | closeCommit n =>
    obtain ⟨p, _, rfl⟩ := map_eq_some_iff.mp h
    have hI₁ := (hI.eraseRelease n).setDb (commitWrites_constraints hI.constraints p.2)
      (commitWrites_epochsGrow s.db p.2)
    exact hI₁.relabel fun _ _ _ => .inr (.inl rfl)
  | closeFail n =>
    obtain ⟨p, _, rfl⟩ := map_eq_some_iff.mp h
    exact (hI.eraseRelease n).relabel fun _ _ _ => .inr (.inl rfl)
  | drain now =>
    obtain ⟨db, hdb, rfl⟩ := map_eq_some_iff.mp h
    exact hI.dbStep hdb
  | foreign now op =>
    simp only [leaseStep] at h
    split at h
    · cases h
    · obtain ⟨db, hdb, rfl⟩ := map_eq_some_iff.mp h
      exact hI.dbStep hdb

theorem LeaseState.Inv.leasesKept (hI : s.Inv) : LeasesKept hash self maxSessions s := by
  intro n s' h p hp o ho hid o' ho' hreg hkey k e ht r hr hh
  obtain ⟨p', hp', rfl⟩ := map_eq_some_iff.mp h
  obtain rfl := some.inj (hp.symm.trans hp')
  obtain ⟨d, hd, hdid, _, hun⟩ := hI.releasing p (mem_of_getElem? hp)
  obtain rfl := hI.oids.eq_of_key_eq hd ho (hdid.trans hid.symm)
  have hlive : o'.live = true := by simp [BridgeSession.live, hreg]
  have hne : ∀ w ∈ p.2, w.id ≠ r.id := by
    intro w hw heq
    rw [key_of_lookup hr] at heq
    exact hun w hw o' ho' hlive hkey e (by rw [ht, heq])
  refine ⟨r, ?_, hh⟩
  exact (rowById_commitWrites p.2 s.db.rows k).trans
    (by rw [hr, map_some, applyWrites_of_forall_ne hne])

/-- **Live sessions keep their lease** in every run whose claims are quiet: closing a session never
releases the row that a registered session of its key has claimed. -/
theorem leases_kept_of_quiet_claims {acts : List LeaseAct} {s₀ : LeaseState}
    (hC : s₀.db.Constraints) (hnone : s₀.sessions = []) (hidle : s₀.releases = [])
    (hok : Along (leaseStep hash self maxSessions) (QuietClaim self) acts s₀)
    (hrun : run (leaseStep hash self maxSessions) acts s₀ = some s) :
    LeasesKept hash self maxSessions s := by
  have hI₀ : s₀.Inv := by
    refine ⟨hC, ?_, ?_, ?_, ?_, ?_⟩
    · rw [Table.Unique, hnone]
      exact List.nodup_nil
    all_goals simp [hnone, hidle]
  have hI : s.Inv := run_invariant_along leaseStep_inv hI₀ hok hrun
  exact hI.leasesKept

end

def headerKey (v : String) : BridgeKey := ⟨"session_header", v, none⟩

def plainClaim : SessionClaim := ⟨60000000, "acc", some "gpt-5", none, false⟩

/-- Sessions `k` and `l` fill an instance. A request for `j` evicts `k`; before it has closed it
(unless `early`), a request for `k` evicts `l` and creates `k` anew. Then the first session of `k`
is about to release its row. -/
def evictRun (early : Bool) : List LeaseAct :=
  [.enter [] (some (0, headerKey "k")), .claim 0 0 "rowK" plainClaim false, .register 0,
    .enter [] (some (1, headerKey "l")), .claim 1 1 "rowL" plainClaim false, .register 1,
    .enter [0] (some (2, headerKey "j"))] ++
  (if early then [.closeRead 0 2 false, .closeCommit 0] else []) ++
  [.enter [1] (some (3, headerKey "k")), .closeRead 1 3 false, .closeCommit 0,
    .claim 3 4 "rowX" plainClaim false, .register 3, .closeRead 0 5 false]

theorem leases_kept_early_close :
    ∃ s, run (leaseStep sessionHash "i1" 2) (evictRun true) ⟨⟨[], 0, []⟩, [], []⟩ = some s ∧
      (s.session 3).bind BridgeSession.token = some ("rowK", 2) ∧
      LeasesKept sessionHash "i1" 2 s := by
  have hrun : run (leaseStep sessionHash "i1" 2) (evictRun true)
    ⟨⟨[], 0, []⟩, [], []⟩ = some _ := rfl
  have hC : DurableDb.Constraints ⟨[], 0, []⟩ := ⟨List.nodup_nil, List.nodup_nil⟩
  exact ⟨_, hrun, by decide, leases_kept_of_quiet_claims hC rfl rfl (by decide) hrun⟩

/-- The evicted session releases the row its successor has claimed: owner NULL,
state CLOSED, while the successor is registered. -/
theorem evicted_close_releases_newer :
    ∃ s, run (leaseStep sessionHash "i1" 2) (evictRun false) ⟨⟨[], 0, []⟩, [], []⟩ = some s ∧
      ¬ LeasesKept sessionHash "i1" 2 s := by
  refine ⟨_, rfl, ?_⟩
  intro hK
  obtain ⟨r', hr', hh⟩ := hK 0 _ rfl _ rfl ⟨0, headerKey "k", some ("rowK", 1), .popped, []⟩
    (by decide) rfl ⟨3, headerKey "k", some ("rowK", 1), .registered, [1]⟩ (by decide) rfl rfl
    "rowK" 1 rfl _ rfl (by decide)
  cases hr'
  exact absurd hh (by decide)

end CodexOctopus

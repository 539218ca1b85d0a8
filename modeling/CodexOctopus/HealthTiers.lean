import CodexOctopus.SelectionSoundness

/-!
# Health tiers

The tier of a runtime entry over a whole run: what the calls of the load balancer do to the entry of
one account between two points where they can be suspended (`EntryOp`), in any order. Only the pass
that builds the candidates moves the tier, and only `record_success` counts successes.
-/

namespace CodexOctopus.Balancer

open List

inductive EntryOp : Type where
  | build (now : ℚ) (e : PoolEntry)
  | sync (now : ℚ) (selected : Bool) (expectedVersion : Option ℕ) (account : Account)
      (state : AccountState)
  /-- a selection finds the account missing from the accounts it has loaded -/
  | prune
  | recordSuccess
  | recordErrors (now : ℚ) (count : ℕ) (account : Account)
  | mark (now delay : ℚ) (failure : Failure) (account : Account)

/-- The entry afterwards; `record_errors` does nothing for no errors. -/
def EntryOp.apply (cfg : BalancerSettings) (r : RuntimeEntry) : EntryOp → RuntimeEntry
  | build now e => (buildState cfg now r e).1
  | sync now selected expectedVersion account state =>
    (syncRuntimeState now selected expectedVersion account state r).1
  | prune => .fresh
  | recordSuccess => recordSuccessEntry r
  | recordErrors now count account => if count < 1 then r else recordErrorsEntry now count account r
  | mark now delay failure account =>
    (syncRuntimeState now false none account (failureState now delay failure account r) r).1

def EntryOp.isSuccess : EntryOp → Bool
  | recordSuccess => true
  | _ => false

def EntryOp.isFailure : EntryOp → Bool
  | recordErrors _ count _ => decide (1 ≤ count)
  | mark _ _ _ _ => true
  | _ => false

def entryAfter (cfg : BalancerSettings) (ops : List EntryOp) : RuntimeEntry :=
  ops.foldl (fun r op => op.apply cfg r) .fresh

def EntryOp.Careful (r : RuntimeEntry) : EntryOp → Prop
  | mark _ _ _ _ => r.healthTier = .probing → r.probeSuccessStreak = 0
  | prune => r.healthTier = .healthy
  | _ => True

def Proven (cfg : BalancerSettings) (ops : List EntryOp) (n : ℕ) : Prop :=
  ∃ before during, ops = before ++ during ∧
    (∀ k ≤ during.length, (entryAfter cfg (before ++ during.take k)).healthTier = .probing) ∧
    (∀ op ∈ during, op.isFailure = false) ∧ n ≤ during.countP EntryOp.isSuccess

section

variable {cfg : BalancerSettings} {ops : List EntryOp} {op : EntryOp} {r : RuntimeEntry} {n : ℕ}

theorem entryAfter_concat : entryAfter cfg (ops ++ [op]) = op.apply cfg (entryAfter cfg ops) := by
  rw [entryAfter, foldl_append]
  rfl

theorem Proven.start (h : (entryAfter cfg ops).healthTier = .probing) : Proven cfg ops 0 := by
  refine ⟨ops, [], (append_nil _).symm, fun k hk => ?_,
    fun _ hop => absurd hop not_mem_nil, Nat.zero_le _⟩
  rwa [take_nil, append_nil]

theorem Proven.concat (h : Proven cfg ops n) (hop : op.isFailure = false)
    (htier : (entryAfter cfg (ops ++ [op])).healthTier = .probing) :
    Proven cfg (ops ++ [op]) (n + if op.isSuccess then 1 else 0) := by
  obtain ⟨before, during, rfl, hprobing, hclean, hcount⟩ := h
  refine ⟨before, during ++ [op], append_assoc _ _ _, fun k hk => ?_, ?_, ?_⟩
  · rw [length_append, length_singleton] at hk
    rcases Nat.lt_or_ge during.length k with hlt | hle
    · rwa [take_of_length_le (by rw [length_append, length_singleton]; omega),
        ← append_assoc]
    · rw [take_append_of_le_length hle]
      exact hprobing k hle
  · rw [forall_mem_append]
    exact ⟨hclean, by simpa using hop⟩
  · rw [countP_append, countP_singleton]
    omega

/-! ## One operation -/

theorem syncRuntimeState_tier (now : ℚ) (selected : Bool) (expectedVersion : Option ℕ)
    (account : Account) (state : AccountState) :
    let r' := (syncRuntimeState now selected expectedVersion account state r).1
    r'.healthTier = r.healthTier ∧ r'.drainEnteredAt = r.drainEnteredAt ∧
      r'.probeSuccessStreak = r.probeSuccessStreak := by
  unfold syncRuntimeState
  dsimp only
  split_ifs <;> exact ⟨rfl, rfl, rfl⟩

structure Keeps (op : EntryOp) (r r' : RuntimeEntry) : Prop where
  tier : r'.healthTier = r.healthTier
  drain : r'.drainEnteredAt = r.drainEnteredAt
  streak_idle : r.healthTier ≠ .probing → r'.probeSuccessStreak = r.probeSuccessStreak
  streak_probing : r.healthTier = .probing → r'.probeSuccessStreak = 0 ∨
    op.isFailure = false ∧ r'.probeSuccessStreak = r.probeSuccessStreak + if op.isSuccess then 1
      else 0

theorem keeps_recordSuccess : Keeps .recordSuccess r (recordSuccessEntry r) := by
  unfold recordSuccessEntry
  dsimp only
  split_ifs with _ hp hp <;>
    exact ⟨rfl, rfl, fun h => by first | exact absurd hp h | rfl,
      fun h => by first | exact .inr ⟨rfl, rfl⟩ | exact absurd h hp⟩

theorem keeps_recordErrors (now : ℚ) {count : ℕ} (account : Account) :
    Keeps (.recordErrors now count account) r (EntryOp.apply cfg r
      (.recordErrors now count account)) := by
  rw [EntryOp.apply]
  split_ifs with hcount
  · exact ⟨rfl, rfl, fun _ => rfl, fun _ => .inr ⟨decide_eq_false (Nat.not_le.mpr hcount), rfl⟩⟩
  · obtain ⟨htier, hdrain, hstreak⟩ :=
      @syncRuntimeState_tier r now false none account (errorState now count account r)
    unfold recordErrorsEntry
    dsimp only
    split_ifs with hp
    · exact ⟨htier, hdrain, fun h => absurd (htier.symm.trans hp) h, fun _ => .inl rfl⟩
    · exact ⟨htier, hdrain, fun _ => hstreak, fun h => absurd (htier.trans h) hp⟩

inductive TierMove (cfg : BalancerSettings) (r : RuntimeEntry) : HealthTier → Prop
  | stay : TierMove cfg r r.healthTier
  | drain (hcfg : cfg.softDrainEnabled) (h : r.healthTier ≠ .draining) : TierMove cfg r .draining
  | probe (hcfg : cfg.softDrainEnabled) (h : r.healthTier = .draining) : TierMove cfg r .probing
  | recover (h : r.healthTier = .probing)
      (hn : cfg.probeSuccessStreakRequired ≤ r.probeSuccessStreak) : TierMove cfg r .healthy

theorem evaluateHealthTier_move (hcfg : cfg.softDrainEnabled) (now : ℚ) (state : AccountState) :
    TierMove cfg r (evaluateHealthTier cfg now r state) := by
  unfold evaluateHealthTier
  dsimp only
  split
  · exact .stay
  · split
    · next h =>
      split_ifs
      · exact .drain hcfg (by rw [h]; exact nofun)
      · exact h ▸ .stay
    · next h =>
      split_ifs
      · exact h ▸ .stay
      · exact .probe hcfg h
      · exact h ▸ .stay
    · next h =>
      split_ifs with _ hn
      · exact .drain hcfg (by rw [h]; exact nofun)
      · exact .recover h hn
      · exact h ▸ .stay

/-! ## A run -/

structure TierSound (cfg : BalancerSettings) (ops : List EntryOp) (r : RuntimeEntry) : Prop where
  drained : r.drainEnteredAt.isSome ↔ r.healthTier ≠ .healthy
  enabled : r.healthTier ≠ .healthy → cfg.softDrainEnabled
  streak_draining : r.healthTier = .draining → r.probeSuccessStreak = 0
  proven : r.healthTier = .probing → Proven cfg ops r.probeSuccessStreak

theorem buildState_move (h : TierSound cfg ops r) (now : ℚ) (e : PoolEntry) :
    ∃ tier, TierMove cfg r tier ∧ (buildState cfg now r e).1 = enterTier now tier r := by
  unfold buildState
  dsimp only
  split_ifs with hcfg
  · exact ⟨_, evaluateHealthTier_move hcfg now _, rfl⟩
  · -- without soft draining no entry has left `HEALTHY`
    have hhealthy : r.healthTier = .healthy := Decidable.not_not.mp (mt h.enabled hcfg)
    exact ⟨.healthy, hhealthy ▸ .stay, rfl⟩

theorem TierSound.keeps {r' : RuntimeEntry} (h : TierSound cfg ops r)
    (hr' : entryAfter cfg (ops ++ [op]) = r') (hk : Keeps op r r') :
    TierSound cfg (ops ++ [op]) r' := by
  refine ⟨?_, ?_, fun ht => ?_, fun ht => ?_⟩
  · rw [hk.drain, hk.tier]
    exact h.drained
  · rw [hk.tier]
    exact h.enabled
  · rw [hk.tier] at ht
    rw [hk.streak_idle (by rw [ht]; exact nofun)]
    exact h.streak_draining ht
  · rcases hk.streak_probing (hk.tier ▸ ht) with h0 | ⟨hop, hstreak⟩
    · rw [h0]
      exact .start (hr' ▸ ht)
    · rw [hstreak]
      exact (h.proven (hk.tier ▸ ht)).concat hop (hr' ▸ ht)

theorem TierSound.build {now : ℚ} {e : PoolEntry} (h : TierSound cfg ops r)
    (hr' : entryAfter cfg (ops ++ [.build now e]) = (buildState cfg now r e).1) :
    TierSound cfg (ops ++ [.build now e]) (buildState cfg now r e).1 := by
  obtain ⟨tier, hmove, heq⟩ := buildState_move h now e
  rw [heq] at hr' ⊢
  cases hmove with
  | stay =>
    by_cases hh : r.healthTier = .healthy
    · simp [enterTier, hh, TierSound.mk]
    · have hsame : enterTier now r.healthTier r = r := by simp [enterTier, hh]
      rw [hsame] at hr' ⊢
      exact h.keeps hr' ⟨rfl, rfl, fun _ => rfl, fun _ => .inr ⟨rfl, rfl⟩⟩
  | drain hcfg hne =>
    refine ⟨?_, fun _ => hcfg, fun _ => ?_, nofun⟩ <;> simp [enterTier, hne]
  | probe hcfg hd =>
    have hfields : (enterTier now .probing r).drainEnteredAt = r.drainEnteredAt ∧
        (enterTier now .probing r).probeSuccessStreak = r.probeSuccessStreak := ⟨rfl, rfl⟩
    refine ⟨?_, fun _ => hcfg, nofun, fun ht => ?_⟩
    · rw [hfields.1, h.drained, hd]
      exact ⟨nofun, nofun⟩
    · rw [hfields.2, h.streak_draining hd]
      exact .start (hr' ▸ ht)
  | recover _ _ => simp [enterTier, TierSound.mk]

theorem TierSound.concat (h : TierSound cfg ops (entryAfter cfg ops))
    (hop : op.Careful (entryAfter cfg ops)) :
    TierSound cfg (ops ++ [op]) (entryAfter cfg (ops ++ [op])) := by
  have hr' := @entryAfter_concat cfg ops op
  rw [hr']
  cases op with
  | build now e => exact h.build hr'
  | sync now selected expectedVersion account state =>
    obtain ⟨htier, hdrain, hstreak⟩ :=
      @syncRuntimeState_tier (entryAfter cfg ops) now selected expectedVersion account state
    exact h.keeps hr' ⟨htier, hdrain, fun _ => hstreak, fun _ => .inr ⟨rfl, hstreak⟩⟩
  | prune => exact ⟨⟨nofun, fun hne => absurd rfl hne⟩, fun hne => absurd rfl hne, nofun, nofun⟩
  | recordSuccess => exact h.keeps hr' keeps_recordSuccess
  | recordErrors now count account => exact h.keeps hr' (keeps_recordErrors now account)
  | mark now delay failure account =>
    obtain ⟨htier, hdrain, hstreak⟩ := @syncRuntimeState_tier (entryAfter cfg ops) now false none
      account (failureState now delay failure account (entryAfter cfg ops))
    exact h.keeps hr' ⟨htier, hdrain, fun _ => hstreak, fun hp => .inl (hstreak.trans (hop hp))⟩

theorem tierSound_run (ops : List EntryOp)
    (hrun : ∀ before op after, ops = before ++ op :: after → op.Careful (entryAfter cfg before)) :
    TierSound cfg ops (entryAfter cfg ops) := by
  induction ops using List.reverseRecOn with
  | nil => exact ⟨⟨nofun, fun hne => absurd rfl hne⟩, fun hne => absurd rfl hne, nofun, nofun⟩
  | append_singleton ops op ih =>
    refine (ih fun before op' after h => ?_).concat (hrun ops op [] rfl)
    exact hrun before op' (after ++ [op]) (by rw [h, append_assoc, cons_append])

theorem TierSound.healthy_after (h : TierSound cfg ops (entryAfter cfg ops))
    (hop : op.Careful (entryAfter cfg ops))
    (hnext : (entryAfter cfg (ops ++ [op])).healthTier = .healthy) :
    (entryAfter cfg ops).healthTier = .healthy ∨
      (entryAfter cfg ops).healthTier = .probing ∧
        cfg.probeSuccessStreakRequired ≤ (entryAfter cfg ops).probeSuccessStreak := by
  rw [entryAfter_concat] at hnext
  cases op with
  | build now e =>
    obtain ⟨tier, hmove, heq⟩ := buildState_move h now e
    have htier : tier = .healthy := by
      rw [EntryOp.apply, heq] at hnext
      exact hnext
    cases hmove with
    | stay => exact .inl htier
    | drain => cases htier
    | probe => cases htier
    | recover hp hn => exact .inr ⟨hp, hn⟩
  | sync now selected expectedVersion account state =>
    exact .inl ((syncRuntimeState_tier now selected expectedVersion account state).1.symm.trans
      hnext)
  | prune => exact .inl hop
  | recordSuccess => exact .inl (keeps_recordSuccess.tier.symm.trans hnext)
  | recordErrors now count account => exact .inl ((keeps_recordErrors now account).tier.symm.trans
      hnext)
  | mark now delay failure account =>
    exact .inl ((syncRuntimeState_tier now false none account _).1.symm.trans hnext)

end

/-- In every run in which a failure mark finds no successes counted, and in which an account that is
not `HEALTHY` is never missing: `drain_entered_at` is set exactly while the tier is not `HEALTHY`,
which is reached from `PROBING` only, after enough successes. -/
theorem health_tiers_proven (cfg : BalancerSettings) (ops : List EntryOp)
    (hrun : ∀ before op after, ops = before ++ op :: after → op.Careful (entryAfter cfg before)) :
    ((entryAfter cfg ops).drainEnteredAt.isSome ↔ (entryAfter cfg ops).healthTier ≠ .healthy) ∧
    ∀ op : EntryOp, op.Careful (entryAfter cfg ops) →
      (entryAfter cfg (ops ++ [op])).healthTier = .healthy →
      (entryAfter cfg ops).healthTier ≠ .draining ∧
      ((entryAfter cfg ops).healthTier = .probing → Proven cfg ops
        cfg.probeSuccessStreakRequired) := by
  have h := tierSound_run ops hrun
  refine ⟨h.drained, fun op hop hnext => ?_⟩
  rcases h.healthy_after hop hnext with hh | ⟨hp, hn⟩
  · rw [hh]
    exact ⟨nofun, nofun⟩
  · rw [hp]
    refine ⟨nofun, fun _ => ?_⟩
    obtain ⟨before, during, hops, hprobing, hclean, hcount⟩ := h.proven hp
    exact ⟨before, during, hops, hprobing, hclean, hn.trans hcount⟩

def probingRun : List EntryOp :=
  let account := activeAccount "a"
  [.recordErrors 1000 2 account.toAccount, .build 1001 ⟨account, none, none⟩,
    .build 1061 ⟨account, none, none⟩]

theorem health_tiers_proven_recovered :
    Proven plainSettings (probingRun ++ [.recordSuccess, .recordSuccess, .recordSuccess]) 3 := by
  refine ((health_tiers_proven plainSettings _ fun before op after h => ?_).2
    (.build 1062 ⟨activeAccount "a", none, none⟩) trivial ?_).2 ?_
  · have hop : op ∈ probingRun ++ [.recordSuccess, .recordSuccess, .recordSuccess] :=
      h ▸ mem_append_right before mem_cons_self
    simp only [probingRun, cons_append, nil_append, mem_cons, not_mem_nil,
      or_false] at hop
    rcases hop with rfl | rfl | rfl | rfl | rfl | rfl <;> trivial
  · decide +kernel
  · decide +kernel

/-- A failure mark keeps the successes counted before it: two, a rate limit and one more make an
account `HEALTHY`. -/
theorem marked_account_healthy :
    let account := activeAccount "a"
    let ops := probingRun ++ [.recordSuccess, .recordSuccess,
      .mark 1062 1 (.rateLimit ⟨none, none, none⟩) account.toAccount, .recordSuccess]
    (entryAfter plainSettings ops).healthTier = .probing ∧
    (entryAfter plainSettings (ops ++ [.build 1100 ⟨account, none, none⟩])).healthTier = .healthy ∧
    ¬Proven plainSettings ops plainSettings.probeSuccessStreakRequired := by
  refine ⟨by decide +kernel, by decide +kernel, ?_⟩
  rintro ⟨before, during, hops, -, hclean, hcount⟩
  have hsuffix : during <:+ _ := ⟨before, hops.symm⟩
  simp only [probingRun, cons_append, nil_append, suffix_cons_iff,
    suffix_nil] at hsuffix
  rcases hsuffix with rfl | rfl | rfl | rfl | rfl | rfl | rfl | rfl <;> revert hclean hcount <;>
    decide +kernel

end CodexOctopus.Balancer

import CodexOctopus.SelectionSoundness

/-!
# Failure marks and selections in flight

`record_errors` and the failure marks write `error_count` and `cooldown_until` of a runtime
entry under the lock of the account. A selection reads the entries when it builds its
candidates, and writes them back later, under the same lock but without a look at what it
had read: `_sync_runtime_state` has an `expected_version` for that, which no caller passes.
-/

namespace CodexOctopus.Balancer

open Option Python Interaction Lts

structure Recorded where
  errorCount : ℕ
  cooldownUntil : Option ℚ
  lastErrorAt : Option ℚ
  deriving DecidableEq

def recordedOf (r : RuntimeState) : Recorded := ⟨r.errorCount, r.cooldownUntil, r.lastErrorAt⟩

def recordedIn (s : AccountState) : Recorded := ⟨s.errorCount, s.cooldownUntil, s.lastErrorAt⟩

def World.recorded (w : World) (accountId : String) : Recorded :=
  recordedOf (runtimeOf accountId w.runtime).toRuntimeState

/-- The cooldown is over, or there is none and the error backoff is over. -/
def Expired (now : ℚ) (f : Recorded) : Prop :=
  (∃ c, orNone f.cooldownUntil = some c ∧ c ≤ now) ∨
    orNone f.cooldownUntil = none ∧ 3 ≤ f.errorCount ∧
      ∀ l, orNone f.lastErrorAt = some l → backoffSeconds f.errorCount ≤ now - l

theorem Expired.mono {t t' : ℚ} (hle : t ≤ t') {f : Recorded} (h : Expired t f) : Expired t' f := by
  obtain ⟨c, hc, hct⟩ | ⟨hnone, hcount, hlast⟩ := h
  · exact .inl ⟨c, hc, hct.trans hle⟩
  · exact .inr ⟨hnone, hcount, fun l hl => (hlast l hl).trans (sub_le_sub_right hle l)⟩

/-! ## Passes -/

theorem checkCooldown_recorded (t : ℚ) (s : AccountState) :
    recordedIn (checkCooldown t s).1 = recordedIn s ∨ Expired t (recordedIn s) := by
  cases cooldownCase t s with
  | elapsed c h hc => exact .inr (.inl ⟨c, h, hc⟩)
  | pending c h hc =>
    rw [checkCooldown_pending h hc]
    exact .inl rfl
  | backoff l h hcount hlast hl =>
    rw [checkCooldown_backoff h hcount hlast hl]
    exact .inl rfl
  | expired h hcount hlast => exact .inr (.inr ⟨h, hcount, hlast⟩)
  | calm h hcount =>
    rw [checkCooldown_calm h hcount]
    exact .inl rfl

/-- A recovery from a rate limit leaves no running cooldown with its errors cleared. -/
def Lasting (now : ℚ) (b : AccountState) : Prop :=
  b.status = .rateLimited → resetElapsed now b = true →
    b.errorCount = 0 ∨ (orNone b.cooldownUntil).any (· ≤ now) = true

instance (now : ℚ) (b : AccountState) : Decidable (Lasting now b) :=
  inferInstanceAs (Decidable (_ → _ → _ ∨ _))

def Remains (b s : AccountState) : Prop :=
  recordedIn s = recordedIn b ∧ (s.status = .rateLimited → b.status = .rateLimited ∧ s.resetAt =
    b.resetAt)

theorem checkAvailability_remains {t now : ℚ} (hle : t ≤ now) {b s : AccountState}
    (hb : Lasting now b) (hs : Remains b s) :
    Remains b (checkAvailability t s).1 ∨ Expired now (recordedIn b) := by
  obtain ⟨hfields, hlimited⟩ := hs
  -- once the status is active, only the cooldown is looked at
  have hcool : ∀ s' : AccountState, s'.status = .active → recordedIn s' = recordedIn b →
      Remains b (checkCooldown t s').1 ∨ Expired now (recordedIn b) := by
    intro s' hactive hs'
    obtain hsame | hexpired := checkCooldown_recorded t s'
    · refine .inl ⟨hsame.trans hs', fun hr => ?_⟩
      rw [checkCooldown_status, hactive] at hr
      cases hr
    · rw [hs'] at hexpired
      exact .inr (hexpired.mono hle)
  unfold checkAvailability
  split
  · exact .inl ⟨hfields, hlimited⟩
  · exact .inl ⟨hfields, hlimited⟩
  · next hstatus =>
    split_ifs with helapsed
    · obtain ⟨hbstatus, hreset⟩ := hlimited hstatus
      have helapsed' : resetElapsed now b = true := by
        refine resetElapsed_mono hle ?_
        unfold resetElapsed at helapsed ⊢
        rwa [hreset] at helapsed
      obtain hzero | hover := hb hbstatus helapsed'
      · refine hcool _ rfl ?_
        have hcount : s.errorCount = 0 := (congrArg Recorded.errorCount hfields).trans hzero
        rw [← hfields]
        simp [recordedIn, hcount]
      · obtain ⟨c, hc, hle'⟩ := (any_eq_true _ _).mp hover
        exact .inr (.inl ⟨c, hc, of_decide_eq_true hle'⟩)
    · exact .inl ⟨hfields, hlimited⟩
  · split_ifs
    · exact hcool _ rfl hfields
    · exact .inl ⟨hfields, hlimited⟩
  · next hstatus => exact hcool s hstatus hfields

/-- **Passes keep what is recorded until it expires.** -/
theorem passed_recorded {t now : ℚ} (hle : t ≤ now) {b s : Candidate}
    (hb : Lasting now b.toAccountState)
    (h : Passed t b s) :
    recordedIn s.toAccountState = recordedIn b.toAccountState ∨
      Expired now (recordedIn b.toAccountState) := by
  have hall : Remains b.toAccountState s.toAccountState ∨ Expired now
    (recordedIn b.toAccountState) := by
    induction h with
    | refl => exact .inl ⟨rfl, fun hr => ⟨hr, rfl⟩⟩
    | check hle' _ ih =>
      obtain hremains | hexpired := ih
      · exact checkAvailability_remains (hle'.trans hle) hb hremains
      · exact .inr hexpired
  exact hall.imp_left And.left

/-! ## Records -/

inductive Extends (f : Recorded) : Recorded → Prop where
  | refl : Extends f f
  | errors {g : Recorded} (count : ℕ) (now : ℚ) (h : Extends f g) :
      Extends f ⟨g.errorCount + count, g.cooldownUntil, some now⟩
  | rateLimit {g : Recorded} (cooldownUntil now : ℚ) (h : Extends f g) :
      Extends f ⟨g.errorCount + 1, some cooldownUntil, some now⟩
  | quotaExceeded {g : Recorded} (cooldownUntil : ℚ) (h : Extends f g) :
      Extends f ⟨g.errorCount, some cooldownUntil, g.lastErrorAt⟩

theorem Extends.trans {f g k : Recorded} (hgk : Extends g k) (hfg : Extends f g) : Extends f k := by
  induction hgk with
  | refl => exact hfg
  | errors count now _ ih => exact .errors count now ih
  | rateLimit cooldownUntil now _ ih => exact .rateLimit cooldownUntil now ih
  | quotaExceeded cooldownUntil _ ih => exact .quotaExceeded cooldownUntil ih

theorem extends_failureState (now delay : ℚ) (failure : Failure) (account : Account)
    (runtime : RuntimeEntry) :
    Extends (recordedOf runtime.toRuntimeState)
      (recordedIn (failureState now delay failure account runtime)) := by
  cases failure with
  | rateLimit error => exact .rateLimit _ _ .refl
  | quotaExceeded error => exact .quotaExceeded _ .refl
  | permanent errorCode => exact .refl

theorem recordedOf_recordErrorsEntry (now : ℚ) (count : ℕ) (account : Account)
    (runtime : RuntimeEntry) :
    recordedOf (recordErrorsEntry now count account runtime).toRuntimeState =
      ⟨runtime.errorCount + count, runtime.cooldownUntil, some now⟩ := by
  unfold recordErrorsEntry
  dsimp only
  split_ifs <;> rfl

/-! ## Steps -/

/-- A selection writes an entry back only while it is as the selection had read it, no recovery from
a rate limit clears errors under a running cooldown, the account is among those listed, and no
success is recorded on it. -/
def careful (accountId : String) (w : World) (h : Log) : BalancerOp → Bool
  | .sync account _ _ => account.id = accountId → ∀ x ∈ lastBuilt h, ∀ b ∈ x.2,
      b.accountId = accountId →
        recordedIn b.toAccountState = w.recorded accountId ∧ Lasting w.now b.toAccountState
  | .build inputs => accountId ∈ inputs.runtimeIds
  | .recordSuccess id => id ≠ accountId
  | _ => true

section

variable {cfg : BalancerSettings} {accountId : String} {w w' : World} {h : Log} {c : Call} {tid : ℕ}
  {op : BalancerOp} {e : Reading} {r : op.Ans}

theorem sync_of_pre {account : PoolAccount} {state : Candidate} {selected : Bool}
    (hpre : (callSpec cfg .trivial c).pre h (.sync account state selected)) :
    SyncOk .trivial h account state := by
  cases c with
  | select req => exact hpre
  | selectWithBudget preferred req => exact hpre
  | mark account failure => exact hpre.elim
  | recordErrors account count => exact hpre.elim
  | recordSuccess accountId => exact hpre.elim

theorem sync_recorded {account : PoolAccount} {state : Candidate} {selected : Bool} {r : Unit}
    (ht : Timely w h) (hpre : SyncOk .trivial h account state)
    (hcareful : careful account.id w h (.sync account state selected) = true)
    (hexec : w.exec cfg tid (.sync account state selected) e = some (w', r)) :
    w'.recorded account.id = w.recorded account.id ∨
      Expired w'.now (w.recorded account.id) := by
  obtain ⟨x, b, rfl, hd⟩ := hpre
  obtain ⟨inputs, built, hbuilt, hmem⟩ := hd.attempt
  obtain ⟨t, hlast, -, hpassed⟩ := hd.passed
  obtain ⟨hsame, hlasting⟩ := of_decide_eq_true hcareful rfl (inputs, built) hbuilt b
    (List.of_mem_zip hmem).2 hd.id
  have hwritten : w'.recorded x.account.id = recordedIn state.toAccountState := by
    rw [World.recorded, World.exec_runtime hexec, runtimeAfter, runtimeOf_setItem_self]
    rfl
  rw [hwritten, ← hsame]
  obtain hkept | hexpired := passed_recorded (ht t hlast) hlasting hpassed
  · exact .inl hkept
  · exact .inr (hexpired.mono (World.exec_now hexec))

/-- **One operation keeps what is recorded**, or adds to it, or it has expired. -/
theorem exec_recorded (ht : Timely w h) (hpre : (callSpec cfg .trivial c).pre h op)
    (hcareful : careful accountId w h op = true) (hexec : w.exec cfg tid op e = some (w', r)) :
    Extends (w.recorded accountId) (w'.recorded accountId) ∨
      Expired w'.now (w.recorded accountId) := by
  have hruntime := World.exec_runtime hexec
  have hsame : w'.recorded accountId = w.recorded accountId →
      Extends (w.recorded accountId) (w'.recorded accountId) ∨
        Expired w'.now (w.recorded accountId) := by
    intro heq
    rw [heq]
    exact .inl .refl
  -- an operation on the entry of another account
  have hother : ∀ {id : String} {runtime : RuntimeEntry}, id ≠ accountId →
      w'.runtime = setItem id runtime w.runtime →
      w'.recorded accountId = w.recorded accountId := by
    intro id runtime hne hset
    rw [World.recorded, hset, runtimeOf_setItem_of_ne hne, World.recorded]
  cases op with
  | build inputs =>
    refine hsame ?_
    rw [World.recorded, hruntime, runtimeAfter, buildStates_runtime,
      runtimeOf_pruneRuntime (of_decide_eq_true hcareful), World.recorded]
  | sync account state selected =>
    by_cases hid : account.id = accountId
    · subst hid
      obtain heq | hexpired := sync_recorded ht (sync_of_pre hpre) hcareful hexec
      · exact hsame heq
      · exact .inr hexpired
    · exact hsame (hother hid hruntime)
  | mark account failure =>
    by_cases hid : account.id = accountId
    · subst hid
      have hset : w'.recorded account.id = recordedIn
          (failureState e.now e.delay failure account.toAccount
            (runtimeOf account.id w.runtime)) := by
        rw [World.recorded, hruntime, runtimeAfter, runtimeOf_setItem_self]
        rfl
      rw [hset]
      exact .inl (extends_failureState ..)
    · exact hsame (hother hid hruntime)
  | recordErrors account count =>
    by_cases hid : account.id = accountId
    · subst hid
      have hset : w'.recorded account.id = ⟨(w.recorded account.id).errorCount + count,
          (w.recorded account.id).cooldownUntil, some e.now⟩ := by
        rw [World.recorded, hruntime, runtimeAfter, runtimeOf_setItem_self,
          recordedOf_recordErrorsEntry]
        rfl
      rw [hset]
      exact .inl (.errors count e.now .refl)
    · exact hsame (hother hid hruntime)
  | recordSuccess id =>
    have hne : id ≠ accountId := of_decide_eq_true hcareful
    rw [runtimeAfter] at hruntime
    split_ifs at hruntime
    · exact hsame (hother hne hruntime)
    · refine hsame ?_
      rw [World.recorded, hruntime, World.recorded]
  | _ =>
    refine hsame ?_
    rw [World.recorded, hruntime]
    rfl

end

/-! ## Runs -/

section

variable {cfg : BalancerSettings} {accountId : String} {w : World} {as₁ as₂ : List Act}
  {p p' p₁ p₂ : State}

theorem step_recorded {a : Act} (hp : Specified cfg p)
    (hok : p.OnNext (fun w h op => careful accountId w h op = true) a)
    (hstep : (system cfg).step p a = some p') :
    Extends (p.shared.recorded accountId) (p'.shared.recorded accountId) ∨
      Expired p'.shared.now (p.shared.recorded accountId) := by
  cases a with
  | spawn tid c =>
    obtain ⟨-, rfl⟩ := System.step_spawn hstep
    exact .inl .refl
  | resume tid e =>
    obtain ⟨t, op, k, r, ht, hprog, hexec, -⟩ := System.step_resume hstep
    have hcareful := hok op (Pool.next_eq ht hprog)
    rw [Pool.history_eq ht] at hcareful
    exact exec_recorded (hp.thread ht).1 (hp.pre ht hprog) hcareful hexec
  | environment x =>
    obtain hx := some.inj (System.step_environment hstep).1
    rw [← hx, World.recorded, World.recorded, (elsewhere_now_runtime ..).2]
    exact .inl .refl

end

def stickyRequest (id : String) : SelectRequest :=
  { soloRequest id with sticky := some ⟨"s", .codexSession, false, none⟩ }

end CodexOctopus.Balancer

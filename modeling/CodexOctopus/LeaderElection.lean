import Mathlib
import CodexOctopus.Threads

/-!
# Leader election

The replicas elect a leader through one row of the database. `try_acquire` writes itself
into the row if the row has expired or is its own, commits and looks whose row it is;
`renew` moves the expiry of its own row and looks at nothing. A statement runs with the
clock reading that its call took earlier, so time may have passed, and other replicas may
have written, in between. A statement with its commit is one operation: the row stays
locked from the one to the other.

The shared state keeps, for the statements only, a list of *moments*: the row as each
statement of a call left it, with the clock at that time.

* `Leases.applied`: what one applied statement does to the leases given so far.
-/

namespace CodexOctopus.LeaderElection

open List Option Interaction Lts

structure Settings where
  enabled : Bool
  sqlite : Bool
  ttl : ℤ

structure LeaderRow where
  leaderId : String
  acquiredAt : ℤ
  expiresAt : ℤ
  deriving DecidableEq

structure Moment where
  thread : ℕ
  replica : String
  clock : ℤ
  row : Option LeaderRow

structure World where
  clock : ℤ
  row : Option LeaderRow
  isLeader : String → Bool
  moments : List Moment

inductive DatabaseError : Type where
  | failed

inductive Op : Type where
  | now
  /-- `INSERT … ON CONFLICT DO UPDATE … WHERE`, and the commit -/
  | upsert (leaderId : String) (now expiresAt : ℤ)
  | update (leaderId : String) (expiresAt : ℤ)
  | selectLeader
  | isLeader (leaderId : String)
  | setIsLeader (leaderId : String) (value : Bool)
  deriving DecidableEq

abbrev Op.Ans : Op → Type
  | .now => ℤ
  | .upsert _ _ _ => Except DatabaseError Bool
  | .update _ _ => Except DatabaseError Bool
  | .selectLeader => Except DatabaseError (Option String)
  | .isLeader _ => Bool
  | .setIsLeader _ _ => Unit

abbrev M (α : Type) : Type := Prog Op Op.Ans α

def tryAcquire (settings : Settings) (self : String) : M Bool :=
  if !settings.enabled || settings.sqlite then do
    Prog.perform (Op.setIsLeader self true)
    return true
  else do
    let now : ℤ ← Prog.perform Op.now
    let written : Except DatabaseError Bool ←
      Prog.perform (Op.upsert self now (now + settings.ttl))
    match written with
    | .error _ =>
      Prog.perform (Op.setIsLeader self false)
      return false
    | .ok _ =>
      let row : Except DatabaseError (Option String) ← Prog.perform Op.selectLeader
      match row with
      | .error _ =>
        Prog.perform (Op.setIsLeader self false)
        return false
      | .ok row =>
        Prog.perform (Op.setIsLeader self (row = some self))
        return decide (row = some self)

def renew (settings : Settings) (self : String) : M Bool := do
  let isLeader : Bool ← Prog.perform (Op.isLeader self)
  if !isLeader then return false
  else if !settings.enabled || settings.sqlite then return true
  else
    let now : ℤ ← Prog.perform Op.now
    let written : Except DatabaseError Bool ← Prog.perform (Op.update self (now + settings.ttl))
    match written with
    | .error _ => return false
    | .ok _ => return true

inductive Call : Type where
  | tryAcquire (self : String)
  | renew (self : String)
  deriving DecidableEq

def Call.replica : Call → String
  | .tryAcquire self => self
  | .renew self => self

inductive Ending : Type where
  | done
  | failed
  | lost
  deriving DecidableEq

namespace World

/-- Whether the upsert writes: there is no row, or it has expired, or it is the replica's own. -/
def upserts (w : World) (leaderId : String) (now : ℤ) : Bool :=
  match w.row with
  | none => true
  | some row => row.expiresAt < now || row.leaderId = leaderId

def updates (w : World) (leaderId : String) : Bool :=
  match w.row with
  | none => false
  | some row => row.leaderId = leaderId

def statement (w : World) (tid : ℕ) (writes : Bool) (row : LeaderRow) : World :=
  let row' := if writes then some row else w.row
  { w with row := row', moments := ⟨tid, row.leaderId, w.clock, row'⟩ :: w.moments }

def renewed (w : World) (leaderId : String) (expiresAt : ℤ) : LeaderRow :=
  ⟨leaderId, (w.row.map LeaderRow.acquiredAt).getD 0, expiresAt⟩

end World

def answer (ending : Ending) (w w' : World) (writes : Bool) :
    World × Except DatabaseError Bool :=
  match ending with
  | .done => (w', .ok writes)
  | .failed => (w, .error .failed)
  | .lost => (w', .error .failed)

def exec (tid : ℕ) : (op : Op) → Ending → World → Option (World × op.Ans)
  | .now, _, w => some (w, w.clock)
  | .upsert leaderId now expiresAt, ending, w =>
    let writes := w.upserts leaderId now
    some (answer ending w (w.statement tid writes ⟨leaderId, now, expiresAt⟩) writes)
  | .update leaderId expiresAt, ending, w =>
    let writes := w.updates leaderId
    some (answer ending w (w.statement tid writes (w.renewed leaderId expiresAt)) writes)
  | .selectLeader, .done, w => some (w, .ok (w.row.map LeaderRow.leaderId))
  | .selectLeader, _, w => some (w, .error .failed)
  | .isLeader leaderId, _, w => some (w, w.isLeader leaderId)
  | .setIsLeader leaderId value, _, w =>
    some ({ w with isLeader := Function.update w.isLeader leaderId value }, ())

def system (settings : Settings) : System World Op Op.Ans Bool Call Ending ℕ where
  exec := exec
  program
    | .tryAcquire self => tryAcquire settings self
    | .renew self => renew settings self
  environment w seconds := some { w with clock := w.clock + seconds }

abbrev State : Type := Pool World Op.Ans Bool Call

def callTime (h : History Op.Ans) : Option ℤ :=
  h.findSome? fun
    | ⟨.now, now⟩ => some now
    | _ => none

def lease? : Event Op.Ans → Option (String × ℤ)
  | ⟨.upsert leaderId _ expiresAt, .ok true⟩ => some (leaderId, expiresAt)
  | ⟨.update leaderId expiresAt, .ok true⟩ => some (leaderId, expiresAt)
  | _ => none

def refused? : Event Op.Ans → Option String
  | ⟨.upsert leaderId _ _, .ok false⟩ => some leaderId
  | _ => none

/-- A statement runs before the lease that it writes is over, a replica does not move its own expiry
back, `renew` finds the row its own, and a call whose upsert was refused does not see a later row of
its replica. -/
def SteadyOp (w : World) (h : History Op.Ans) : Op → Prop
  | .upsert leaderId _ expiresAt =>
    w.clock < expiresAt ∧ ∀ row ∈ w.row, row.leaderId = leaderId → row.expiresAt ≤ expiresAt
  | .update leaderId expiresAt =>
    w.clock < expiresAt ∧ ∃ row ∈ w.row, row.leaderId = leaderId ∧ row.expiresAt ≤ expiresAt
  | .selectLeader => ∀ row ∈ w.row, ∀ e ∈ h, refused? e ≠ some row.leaderId
  | _ => True

instance (w : World) (h : History Op.Ans) : (op : Op) → Decidable (SteadyOp w h op)
  | .upsert leaderId _ expiresAt => inferInstanceAs (Decidable (w.clock < expiresAt ∧
      ∀ row ∈ w.row, row.leaderId = leaderId → row.expiresAt ≤ expiresAt))
  | .update leaderId expiresAt => inferInstanceAs (Decidable (w.clock < expiresAt ∧
      ∃ row ∈ w.row, row.leaderId = leaderId ∧ row.expiresAt ≤ expiresAt))
  | .selectLeader =>
    inferInstanceAs (Decidable (∀ row ∈ w.row, ∀ e ∈ h, refused? e ≠ some row.leaderId))
  | .now => inferInstanceAs (Decidable True)
  | .isLeader _ => inferInstanceAs (Decidable True)
  | .setIsLeader _ _ => inferInstanceAs (Decidable True)

def Steady (p : State) (a : Action Call Ending ℕ) : Prop := p.OnNext SteadyOp a

instance (p : State) (a : Action Call Ending ℕ) : Decidable (Steady p a) :=
  inferInstanceAs (Decidable (p.OnNext SteadyOp a))

/-! ## The leases -/

/-- At this moment the row names the replica of the statement, until `expiresAt`. -/
def Moment.Grants (m : Moment) (leaderId : String) (expiresAt : ℤ) : Prop :=
  m.replica = leaderId ∧ ∃ row ∈ m.row, row.leaderId = leaderId ∧ row.expiresAt = expiresAt

/-- The row outlasts every lease that was given, and by a whole lease those of other replicas. -/
structure Leases (ttl : ℤ) (w : World) : Prop where
  outlasted : ∀ {m leaderId expiresAt}, m ∈ w.moments → m.Grants leaderId expiresAt →
    ∃ row ∈ w.row, expiresAt ≤ row.expiresAt ∧
      (row.leaderId ≠ leaderId → expiresAt + ttl ≤ row.expiresAt)
  apart : ∀ {m₁ m₂ leader₁ leader₂ e₁ e₂}, m₁ ∈ w.moments → m₂ ∈ w.moments →
    m₁.Grants leader₁ e₁ → m₂.Grants leader₂ e₂ → leader₁ ≠ leader₂ →
    e₁ + ttl ≤ e₂ ∨ e₂ + ttl ≤ e₁
  ahead : ∀ {m leaderId expiresAt}, m ∈ w.moments → m.Grants leaderId expiresAt →
    m.clock < expiresAt

variable {ttl : ℤ} {w w' : World} {tid : ℕ}

theorem Leases.refused (hw : Leases ttl w) {row : LeaderRow}
    (hother : ∀ old ∈ w.row, old.leaderId ≠ row.leaderId) :
    Leases ttl (w.statement tid false row) := by
  have hnone : ∀ {leaderId expiresAt},
      ¬ (⟨tid, row.leaderId, w.clock, w.row⟩ : Moment).Grants leaderId expiresAt := by
    rintro leaderId expiresAt ⟨rfl, old, hold, hleader, -⟩
    exact hother old hold hleader
  have hmem : ∀ {m leaderId expiresAt}, m ∈ (w.statement tid false row).moments →
      m.Grants leaderId expiresAt → m ∈ w.moments := by
    intro m leaderId expiresAt hm hgrants
    rcases mem_cons.mp hm with rfl | hm
    · exact absurd hgrants hnone
    · exact hm
  exact ⟨fun hm hg => hw.outlasted (hmem hm hg) hg,
    fun hm₁ hm₂ hg₁ hg₂ => hw.apart (hmem hm₁ hg₁) (hmem hm₂ hg₂) hg₁ hg₂,
    fun hm hg => hw.ahead (hmem hm hg) hg⟩

theorem Leases.applied (hw : Leases ttl w) {row : LeaderRow} (httl : 0 < ttl)
    (hclock : w.clock < row.expiresAt)
    (hown : ∀ old ∈ w.row, old.leaderId = row.leaderId → old.expiresAt ≤ row.expiresAt)
    (hother : ∀ old ∈ w.row, old.leaderId ≠ row.leaderId → old.expiresAt + ttl < row.expiresAt) :
    Leases ttl (w.statement tid true row) := by
  have hnew : ∀ {leaderId expiresAt},
      (⟨tid, row.leaderId, w.clock, some row⟩ : Moment).Grants leaderId expiresAt →
        leaderId = row.leaderId ∧ expiresAt = row.expiresAt := by
    rintro leaderId expiresAt ⟨rfl, row', hrow', -, rfl⟩
    obtain rfl := mem_some_iff.mp hrow'
    exact ⟨rfl, rfl⟩
  -- an earlier lease against the row that is written now
  have hold : ∀ {m leaderId expiresAt}, m ∈ w.moments → m.Grants leaderId expiresAt →
      expiresAt ≤ row.expiresAt ∧ (row.leaderId ≠ leaderId → expiresAt + ttl ≤ row.expiresAt) := by
    intro m leaderId expiresAt hm hg
    obtain ⟨old, hrow, hle, hlonger⟩ := hw.outlasted hm hg
    by_cases hsame : old.leaderId = row.leaderId
    · have := hown old hrow hsame
      refine ⟨by omega, fun hne => ?_⟩
      have := hlonger (hsame ▸ hne)
      omega
    · have := hother old hrow hsame
      exact ⟨by omega, fun _ => by omega⟩
  refine ⟨fun {m _ _} hm hg => ?_, fun {m₁ m₂ _ _ _ _} hm₁ hm₂ hg₁ hg₂ hne => ?_,
    fun {m _ _} hm hg => ?_⟩
  · rcases mem_cons.mp hm with rfl | hm
    · obtain ⟨rfl, rfl⟩ := hnew hg
      exact ⟨row, rfl, le_rfl, fun hne => absurd rfl hne⟩
    · exact ⟨row, rfl, hold hm hg⟩
  · rcases mem_cons.mp hm₁ with rfl | hm₁ <;> rcases mem_cons.mp hm₂ with rfl | hm₂
    · obtain ⟨rfl, rfl⟩ := hnew hg₁
      exact absurd (hnew hg₂).1.symm hne
    · obtain ⟨rfl, rfl⟩ := hnew hg₁
      exact .inr ((hold hm₂ hg₂).2 hne)
    · obtain ⟨rfl, rfl⟩ := hnew hg₂
      exact .inl ((hold hm₁ hg₁).2 hne.symm)
    · exact hw.apart hm₁ hm₂ hg₁ hg₂ hne
  · rcases mem_cons.mp hm with rfl | hm
    · obtain ⟨rfl, rfl⟩ := hnew hg
      exact hclock
    · exact hw.ahead hm hg

variable {h : History Op.Ans} {op : Op} {ending : Ending} {p : State}

theorem leases_upsert (tid : ℕ) (hw : Leases ttl w) {leaderId : String} {now : ℤ}
    (hnow : now ≤ w.clock) (hsteady : SteadyOp w h (.upsert leaderId now (now + ttl))) :
    Leases ttl (w.statement tid (w.upserts leaderId now) ⟨leaderId, now, now + ttl⟩) := by
  obtain ⟨hclock, hown⟩ := hsteady
  cases hwrites : w.upserts leaderId now with
  | false =>
    refine hw.refused fun old hold hleader => ?_
    rw [World.upserts, hold] at hwrites
    simp [hleader] at hwrites
  | true =>
    refine hw.applied (by omega) hclock hown fun old hold hleader => ?_
    rw [World.upserts, hold] at hwrites
    simp only [hleader, decide_false, Bool.or_false, decide_eq_true_eq] at hwrites
    change old.expiresAt + ttl < now + ttl
    omega

theorem leases_update (tid : ℕ) (hw : Leases ttl w) {leaderId : String} {now : ℤ}
    (hnow : now ≤ w.clock) (hsteady : SteadyOp w h (.update leaderId (now + ttl))) :
    w.updates leaderId = true ∧
      Leases ttl (w.statement tid true (w.renewed leaderId (now + ttl))) := by
  obtain ⟨hclock, row, hrow, hleader, hle⟩ := hsteady
  have hold : ∀ old ∈ w.row, old = row := fun old hmem => mem_unique hmem hrow
  refine ⟨?_, hw.applied (by omega) hclock (fun old hmem _ => hold old hmem ▸ hle) ?_⟩
  · rw [World.updates, hrow]
    exact decide_eq_true hleader
  · intro old hmem hne
    exact absurd (hold old hmem ▸ hleader) hne

/-! ## The calls -/

/-- What a call does: its statements are its replica's and run with its own clock reading. -/
def callSpec (ttl : ℤ) (c : Call) : Spec Op.Ans where
  pre h
    | .upsert leaderId now expiresAt =>
      leaderId = c.replica ∧ callTime h = some now ∧ expiresAt = now + ttl
    | .update leaderId expiresAt =>
      leaderId = c.replica ∧ ∃ now, callTime h = some now ∧ expiresAt = now + ttl
    | _ => True
  post h
    | .update _ _, r => r ≠ .ok false
    | .selectLeader, r => ∀ leaderId, r = .ok (some leaderId) → ∀ e ∈ h, refused? e ≠ some leaderId
    | _, _ => True

def HasLease (ttl : ℤ) (c : Call) (h : History Op.Ans) : Prop :=
  ∃ now, callTime h = some now ∧ ∃ e ∈ h, lease? e = some (c.replica, now + ttl)

variable {settings : Settings}

theorem sat_tryAcquire (helects : (!settings.enabled || settings.sqlite) = false) (self : String) :
    Sat (callSpec settings.ttl (.tryAcquire self))
      (fun h a => a = true → HasLease settings.ttl (.tryAcquire self) h) []
      (tryAcquire settings self) := by
  rw [tryAcquire, helects, if_neg Bool.false_ne_true]
  refine ⟨trivial, fun now _ => ⟨⟨rfl, rfl, rfl⟩, fun written _ => ?_⟩⟩
  cases written with
  | error _ => exact ⟨trivial, fun _ _ => nofun⟩
  | ok writes =>
    refine ⟨trivial, fun row hrow => ?_⟩
    cases row with
    | error _ => exact ⟨trivial, fun _ _ => nofun⟩
    | ok row =>
      refine ⟨trivial, fun _ _ hself => ⟨now, rfl, ?_⟩⟩
      obtain rfl := of_decide_eq_true hself
      cases writes with
      | false => exact absurd rfl (hrow self rfl _ mem_cons_self)
      | true =>
        exact ⟨⟨.upsert self now (now + settings.ttl), .ok true⟩, by simp, rfl⟩

theorem sat_renew (helects : (!settings.enabled || settings.sqlite) = false) (self : String) :
    Sat (callSpec settings.ttl (.renew self))
      (fun h a => a = true → HasLease settings.ttl (.renew self) h) [] (renew settings self) := by
  refine ⟨trivial, fun isLeader _ => ?_⟩
  cases isLeader with
  | false => exact nofun
  | true =>
    rw [helects, if_neg Bool.false_ne_true]
    refine ⟨trivial, fun now _ => ⟨⟨rfl, now, rfl, rfl⟩, fun written hwritten => ?_⟩⟩
    cases written with
    | error _ => exact nofun
    | ok writes =>
      cases writes with
      | false => exact absurd rfl hwritten
      | true => exact fun _ => ⟨now, rfl, _, mem_cons_self, rfl⟩

def ReadEarlier (w : World) (h : History Op.Ans) : Prop := ∀ now ∈ callTime h, now ≤ w.clock

theorem exec_clock {r : op.Ans} (h : exec tid op ending w = some (w', r)) : w'.clock = w.clock := by
  cases op with
  | upsert leaderId now expiresAt =>
    cases ending <;> (obtain rfl := (Prod.mk.inj (some.inj h)).1; rfl)
  | update leaderId expiresAt =>
    cases ending <;> (obtain rfl := (Prod.mk.inj (some.inj h)).1; rfl)
  | selectLeader =>
    cases ending <;> (obtain rfl := (Prod.mk.inj (some.inj h)).1; rfl)
  | now => obtain rfl := (Prod.mk.inj (some.inj h)).1; rfl
  | isLeader leaderId => obtain rfl := (Prod.mk.inj (some.inj h)).1; rfl
  | setIsLeader leaderId value => obtain rfl := (Prod.mk.inj (some.inj h)).1; rfl

theorem exec_leases {c : Call} {r : op.Ans} (hw : Leases ttl w) (hread : ReadEarlier w h)
    (hpre : (callSpec ttl c).pre h op) (hsteady : SteadyOp w h op)
    (hexec : exec tid op ending w = some (w', r)) :
    Leases ttl w' ∧ (callSpec ttl c).post h op r := by
  cases op with
  | upsert leaderId now expiresAt =>
    obtain ⟨-, hnow, rfl⟩ := hpre
    have hnew := leases_upsert tid hw (hread now hnow) hsteady
    cases ending <;> cases hexec
    · exact ⟨hnew, trivial⟩
    · exact ⟨hw, trivial⟩
    · exact ⟨hnew, trivial⟩
  | update leaderId expiresAt =>
    obtain ⟨-, now, hnow, rfl⟩ := hpre
    obtain ⟨hwrites, hnew⟩ := leases_update tid hw (hread now hnow) hsteady
    rw [exec, hwrites] at hexec
    cases ending <;> cases hexec
    · exact ⟨hnew, nofun⟩
    · exact ⟨hw, nofun⟩
    · exact ⟨hnew, nofun⟩
  | selectLeader =>
    cases ending <;> cases hexec
    · refine ⟨hw, fun leaderId hleader e he => ?_⟩
      obtain ⟨row, hrow, rfl⟩ := map_eq_some_iff.mp (Except.ok.inj hleader)
      exact hsteady row hrow e he
    · exact ⟨hw, nofun⟩
    · exact ⟨hw, nofun⟩
  | now =>
    cases hexec
    exact ⟨hw, trivial⟩
  | isLeader leaderId =>
    cases hexec
    exact ⟨hw, trivial⟩
  | setIsLeader leaderId value =>
    cases hexec
    exact ⟨⟨hw.outlasted, hw.apart, hw.ahead⟩, trivial⟩

theorem exec_readEarlier {r : op.Ans} (hread : ReadEarlier w h)
    (hexec : exec tid op ending w = some (w', r)) :
    ReadEarlier w' (⟨op, r⟩ :: h) := by
  intro now hnow
  rw [exec_clock hexec]
  cases op with
  | now =>
    obtain ⟨-, rfl⟩ := Prod.mk.inj (some.inj hexec)
    cases hnow
    exact le_rfl
  | upsert _ _ _ => exact hread now hnow
  | update _ _ => exact hread now hnow
  | selectLeader => exact hread now hnow
  | isLeader _ => exact hread now hnow
  | setIsLeader _ _ => exact hread now hnow

theorem upholds_leases (helects : (!settings.enabled || settings.sqlite) = false) :
    Upholds (system settings) Steady (Leases settings.ttl) ReadEarlier (callSpec settings.ttl)
      (fun c h a => a = true → HasLease settings.ttl c h) where
  spawn {p tid c} _ _ := by
    refine ⟨nofun, ?_⟩
    cases c with
    | tryAcquire self => exact sat_tryAcquire helects self
    | renew self => exact sat_renew helects self
  exec {p tid e t op k w' r} hok ht hprog hinv hread hpre hexec := by
    have hsteady := hok op (Pool.next_eq ht hprog)
    rw [Pool.history_eq ht] at hsteady
    obtain ⟨hleases, hpost⟩ := exec_leases hinv hread hpre hsteady hexec
    exact ⟨hleases, hpost, exec_readEarlier hread hexec⟩
  stable {p tid e t op k w' r h} _ _ _ _ _ hexec hread := by
    intro now hnow
    rw [exec_clock hexec]
    exact hread now hnow
  environment {p x w'} _ hinv hw' := by
    cases hw'
    refine ⟨⟨hinv.outlasted, hinv.apart, hinv.ahead⟩, fun h hread now hnow => ?_⟩
    exact (hread now hnow).trans (Int.le_add_of_nonneg_right (Int.natCast_nonneg x))

def Recorded (p : State) : Prop :=
  ∀ tid t, p.threads.lookup tid = some t → ∀ e ∈ t.history, ∀ leaderId expiresAt,
    lease? e = some (leaderId, expiresAt) →
      ∃ m ∈ p.shared.moments, m.thread = tid ∧ m.Grants leaderId expiresAt

theorem exec_moments {r : op.Ans} (hexec : exec tid op ending w = some (w', r)) :
    (∀ m ∈ w.moments, m ∈ w'.moments) ∧ ∀ leaderId expiresAt,
      lease? ⟨op, r⟩ = some (leaderId, expiresAt) →
        ∃ m ∈ w'.moments, m.thread = tid ∧ m.Grants leaderId expiresAt := by
  have hstatement : ∀ writes row, ∀ m ∈ w.moments, m ∈ (w.statement tid writes row).moments :=
    fun _ _ _ hm => mem_cons_of_mem _ hm
  have hgrant : ∀ row, ∃ m ∈ (w.statement tid true row).moments,
      m.thread = tid ∧ m.Grants row.leaderId row.expiresAt :=
    fun row => ⟨_, mem_cons_self, rfl, rfl, row, rfl, rfl, rfl⟩
  cases op with
  | upsert leaderId now expiresAt =>
    cases ending <;> cases hexec
    · refine ⟨hstatement _ _, fun leader expires hlease => ?_⟩
      cases hwrites : w.upserts leaderId now with
      | false =>
        rw [hwrites] at hlease
        cases hlease
      | true =>
        rw [hwrites] at hlease
        cases hlease
        exact hgrant _
    · exact ⟨fun _ hm => hm, nofun⟩
    · exact ⟨hstatement _ _, nofun⟩
  | update leaderId expiresAt =>
    cases ending <;> cases hexec
    · refine ⟨hstatement _ _, fun leader expires hlease => ?_⟩
      cases hwrites : w.updates leaderId with
      | false =>
        rw [hwrites] at hlease
        cases hlease
      | true =>
        rw [hwrites] at hlease
        cases hlease
        exact hgrant _
    · exact ⟨fun _ hm => hm, nofun⟩
    · exact ⟨hstatement _ _, nofun⟩
  | selectLeader =>
    cases ending <;> obtain ⟨rfl, -⟩ := Prod.mk.inj (some.inj hexec) <;>
      exact ⟨fun _ hm => hm, nofun⟩
  | now =>
    cases hexec
    exact ⟨fun _ hm => hm, nofun⟩
  | isLeader leaderId =>
    cases hexec
    exact ⟨fun _ hm => hm, nofun⟩
  | setIsLeader leaderId value =>
    cases hexec
    exact ⟨fun _ hm => hm, nofun⟩

theorem step_moments {p' : State} {a : Action Call Ending ℕ}
    (h : (system settings).step p a = some p') :
    ∀ m ∈ p.shared.moments, m ∈ p'.shared.moments := by
  cases a with
  | spawn tid c =>
    obtain ⟨-, rfl⟩ := System.step_spawn h
    exact fun _ hm => hm
  | resume tid e =>
    obtain ⟨t, op, k, r, -, -, hexec, -⟩ := System.step_resume h
    exact (exec_moments hexec).1
  | environment seconds =>
    have hw := some.inj (System.step_environment h).1
    rw [← hw]
    exact fun _ hm => hm

theorem Recorded.step {p' : State} {a : Action Call Ending ℕ} (hp : Recorded p)
    (h : (system settings).step p a = some p') : Recorded p' := by
  intro tid t ht e he leaderId expiresAt hlease
  have hkeep := step_moments h
  cases System.came_of_step h ht with
  | kept ht =>
    obtain ⟨m, hm, hthread⟩ := hp tid t ht e he leaderId expiresAt hlease
    exact ⟨m, hkeep m hm, hthread⟩
  | spawned => cases he
  | advanced hthread hprog hexec =>
    rcases mem_cons.mp he with rfl | he
    · exact (exec_moments hexec).2 leaderId expiresAt hlease
    · obtain ⟨m, hm, hthread⟩ := hp tid _ hthread e he leaderId expiresAt hlease
      exact ⟨m, hkeep m hm, hthread⟩

theorem moment_of_outcome {c : Call} (hrecorded : Recorded p)
    (hverified : Verified (Leases settings.ttl) ReadEarlier (callSpec settings.ttl)
      (fun c h a => a = true → HasLease settings.ttl c h) p) (hout : p.outcome tid = some (c, true))
        :
    ∃ now, callTime (p.history tid) = some now ∧
      ∃ m ∈ p.shared.moments, m.thread = tid ∧ m.Grants c.replica (now + settings.ttl) := by
  obtain ⟨now, hnow, e, he, hlease⟩ := hverified.result hout rfl
  obtain ⟨t, ht, -, -⟩ := Pool.outcome_eq_some hout
  rw [Pool.history_eq ht] at he
  exact ⟨now, hnow, hrecorded tid t ht e he _ _ hlease⟩

/-- **Leadership is exclusive** among replicas on PostgreSQL in every run whose statements are
steady: a call that returned true had the row at a moment of its own, and the leases of two replicas
do not overlap. -/
theorem leadership_exclusive (settings : Settings) (henabled : settings.enabled = true)
    (hpostgres : settings.sqlite = false) (w : World) (hw : w.moments = [])
    (actions : List (Action Call Ending ℕ)) (p : State)
    (hsteady : Along (system settings).step Steady actions ⟨w, ∅⟩)
    (hrun : run (system settings).step actions ⟨w, ∅⟩ = some p) :
    (∀ tid c, p.outcome tid = some (c, true) →
      ∃ m ∈ p.shared.moments, m.thread = tid ∧
        ∃ row ∈ m.row, row.leaderId = c.replica ∧ m.clock < row.expiresAt) ∧
    ∀ tid₁ tid₂ c₁ c₂, p.outcome tid₁ = some (c₁, true) → p.outcome tid₂ = some (c₂, true) →
      c₁.replica ≠ c₂.replica →
      ∃ now₁ now₂, callTime (p.history tid₁) = some now₁ ∧ callTime (p.history tid₂) = some now₂ ∧
        Disjoint (Set.Ico now₁ (now₁ + settings.ttl)) (Set.Ico now₂ (now₂ + settings.ttl)) := by
  have helects : (!settings.enabled || settings.sqlite) = false := by
    rw [henabled, hpostgres]
    rfl
  have hstart : Leases settings.ttl w := by
    constructor <;> simp [hw]
  have hverified := (upholds_leases helects).run (Verified.start hstart) hsteady hrun
  have hrecorded : Recorded p := by
    refine run_invariant (fun hp h => Recorded.step hp h) ?_ hrun
    intro tid t ht
    cases (AList.lookup_empty _).symm.trans ht
  refine ⟨fun tid c hout => ?_, fun tid₁ tid₂ c₁ c₂ hout₁ hout₂ hne => ?_⟩
  · obtain ⟨now, -, m, hm, hthread, hgrants⟩ := moment_of_outcome hrecorded hverified hout
    have hahead := hverified.inv.ahead hm hgrants
    obtain ⟨-, row, hrow, hleader, hexpires⟩ := hgrants
    exact ⟨m, hm, hthread, row, hrow, hleader, hexpires ▸ hahead⟩
  · obtain ⟨now₁, hnow₁, m₁, hm₁, -, hgrants₁⟩ := moment_of_outcome hrecorded hverified hout₁
    obtain ⟨now₂, hnow₂, m₂, hm₂, -, hgrants₂⟩ := moment_of_outcome hrecorded hverified hout₂
    refine ⟨now₁, now₂, hnow₁, hnow₂, ?_⟩
    rw [Set.Ico_disjoint_Ico]
    have hapart := hverified.inv.apart hm₁ hm₂ hgrants₁ hgrants₂ hne
    omega

def tenSeconds : Settings := ⟨true, false, 10⟩

def noLeader : World := ⟨0, none, fun _ => false, []⟩

def whole (tid : ℕ) (c : Call) (n : ℕ) : List (Action Call Ending ℕ) :=
  .spawn tid c :: List.replicate n (.resume tid .done)

def handOver : List (Action Call Ending ℕ) :=
  whole 1 (.tryAcquire "a") 4 ++ [.environment 5] ++ whole 2 (.renew "a") 3 ++ [.environment 11] ++
    whole 3 (.tryAcquire "b") 4

theorem leadership_exclusive_handOver : ∃ p,
    run (system tenSeconds).step handOver ⟨noLeader, ∅⟩ = some p ∧
      p.outcome 2 = some (.renew "a", true) ∧ p.outcome 3 = some (.tryAcquire "b", true) ∧
      ∃ now₁ now₂, callTime (p.history 2) = some now₁ ∧ callTime (p.history 3) = some now₂ ∧
        Disjoint (Set.Ico now₁ (now₁ + 10)) (Set.Ico now₂ (now₂ + 10)) := by
  obtain ⟨p, hrun, hrenewed, hacquired⟩ : ∃ p,
      run (system tenSeconds).step handOver ⟨noLeader, ∅⟩ = some p ∧
      p.outcome 2 = some (.renew "a", true) ∧ p.outcome 3 = some (.tryAcquire "b", true) := by
    decide +kernel
  have hexclusive := leadership_exclusive tenSeconds rfl rfl noLeader rfl handOver p
    (by decide +kernel) hrun
  exact ⟨p, hrun, hrenewed, hacquired, hexclusive.2 2 3 _ _ hrenewed hacquired (by decide)⟩

def lateRenewal : List (Action Call Ending ℕ) :=
  whole 1 (.tryAcquire "a") 4 ++ [.environment 11] ++ whole 2 (.tryAcquire "b") 4 ++
    whole 3 (.renew "a") 3

/-- **`renew` does not see that the lease is lost**: it returns true while `b` has the row. -/
theorem renewed_lost_lease : ∃ p,
    run (system tenSeconds).step lateRenewal ⟨noLeader, ∅⟩ = some p ∧
      p.outcome 2 = some (.tryAcquire "b", true) ∧ p.outcome 3 = some (.renew "a", true) ∧
      callTime (p.history 2) = some 11 ∧ callTime (p.history 3) = some 11 ∧
      (p.shared.moments.filter (·.thread = 3)).map (·.row) = [some ⟨"b", 11, 21⟩] := by
  decide +kernel

end CodexOctopus.LeaderElection

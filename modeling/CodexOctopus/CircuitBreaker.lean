import Mathlib.Algebra.Order.Ring.Int
import CodexOctopus.Threads

/-!
# The circuit breaker

An account's breaker opens after a number of server failures. When the recovery timeout has
passed since the last of them it is half open, which is not stored but derived from the
clock: then one call at a time is admitted as a probe, and enough successes close it.

A call is admitted, waits for the upstream, records what came of it and releases the probe,
if it was one. All calls share the counters. The three ways to call upstream are `call`,
`serviceCircuitBreakerContext` and `streamResponsesViaWebsocket`; the last one holds its
probe until the stream is over, and keeps it for good if the handshake fails.

The shared state keeps a *log* of what the breaker was told and did, the latest first.

* `Recorded`, `Probes`: the log of a call is its history, and the flag is the one unreleased
  probe.
-/

namespace CodexOctopus.CircuitBreaker

open List Option Interaction Lts

inductive CircuitState : Type where
  | closed
  | open
  | halfOpen
  deriving DecidableEq

structure Config where
  failureThreshold : ℕ
  recoveryTimeoutSeconds : ℤ
  successThreshold : ℕ

structure Breaker where
  state : CircuitState
  failureCount : ℕ
  successCount : ℕ
  lastFailureTime : Option ℤ
  halfOpenProbeInFlight : Bool

/-- The exceptions that a call may end with, as far as they are told apart. -/
inductive Exc : Type where
  | clientResponse (status : ℕ)
  | timeout
  | withStatusCode (statusCode : ℕ)
  | circuitBreakerOpen
  | other
  deriving DecidableEq

def isServerError : Exc → Bool
  | .clientResponse status => 500 ≤ status
  | .timeout => true
  | .withStatusCode statusCode => 500 ≤ statusCode
  | .circuitBreakerOpen => true
  | .other => true

namespace Breaker

def current (cfg : Config) (b : Breaker) (now : ℤ) : CircuitState :=
  if b.state = .open ∧ b.lastFailureTime.any fun t => cfg.recoveryTimeoutSeconds ≤ now - t then
    .halfOpen
  else b.state

def preCallCheck (cfg : Config) (b : Breaker) (now : ℤ) : Breaker × Option Bool :=
  match b.current cfg now with
  | .open => (b, none)
  | .halfOpen =>
    if b.halfOpenProbeInFlight then (b, none)
    else ({ b with halfOpenProbeInFlight := true }, some true)
  | .closed => (b, some false)

def releaseHalfOpenProbe (b : Breaker) : Breaker := { b with halfOpenProbeInFlight := false }

def recordSuccess (cfg : Config) (b : Breaker) (now : ℤ) : Breaker :=
  match b.current cfg now with
  | .halfOpen =>
    if cfg.successThreshold ≤ b.successCount + 1 then
      { b with state := .closed, failureCount := 0, successCount := 0 }
    else { b with successCount := b.successCount + 1 }
  | .closed => if 0 < b.failureCount then { b with failureCount := 0 } else b
  | .open => b

def recordFailure (cfg : Config) (b : Breaker) (now : ℤ) : Breaker :=
  { b with
    failureCount := b.failureCount + 1
    lastFailureTime := some now
    successCount := 0
    state := if cfg.failureThreshold ≤ b.failureCount + 1 then .open else b.state }

end Breaker

inductive Entry : Type where
  | admitted (tid : ℕ) (isProbe : Bool)
  | succeeded (tid : ℕ)
  | failed (tid : ℕ)
  | released (tid : ℕ)
  | opened
  | closed
  deriving DecidableEq

structure World where
  breaker : Breaker
  clock : ℤ
  log : List Entry

inductive Outcome : Type where
  | finished (status : ℕ)
  | raised (exc : Exc) (status : Option ℕ)
  | terminal
  | cancelled

inductive Op : Type where
  | preCallCheck
  | upstream
  | recordSuccess
  | recordFailure (exc : Exc)
  | releaseHalfOpenProbe
  deriving DecidableEq

abbrev Op.Ans : Op → Type
  | .preCallCheck => Option Bool
  | .upstream => Outcome
  | .recordSuccess => Unit
  | .recordFailure _ => Unit
  | .releaseHalfOpenProbe => Unit

abbrev M (α : Type) : Type := Prog Op Op.Ans α

def releaseIf (isProbe : Bool) : M Unit :=
  if isProbe then do
    Prog.perform Op.releaseHalfOpenProbe
    return
  else return

def admitted (body : Bool → M Unit) : M Unit := do
  let isProbe : Option Bool ← Prog.perform Op.preCallCheck
  match isProbe with
  | none => return
  | some isProbe => body isProbe

def call : M Unit :=
  admitted fun isProbe => do
    let outcome : Outcome ← Prog.perform Op.upstream
    match outcome with
    | .finished _ => Prog.perform Op.recordSuccess
    | .terminal => Prog.perform Op.recordSuccess
    | .raised exc _ => Prog.perform (Op.recordFailure exc)
    | .cancelled => pure ()
    releaseIf isProbe

def serviceCircuitBreakerContext : M Unit :=
  admitted fun isProbe => do
    let outcome : Outcome ← Prog.perform Op.upstream
    match outcome with
    | .finished status =>
      if 500 ≤ status then Prog.perform (Op.recordFailure .other)
      else Prog.perform Op.recordSuccess
    | .terminal => Prog.perform Op.recordSuccess
    | .raised .circuitBreakerOpen _ => pure ()
    | .raised exc status =>
      if status.any (· < 500) && !isServerError exc then Prog.perform Op.recordSuccess
      else Prog.perform (Op.recordFailure exc)
    | .cancelled => pure ()
    releaseIf isProbe

/-- The stream on an open socket. Only the first terminal event is recorded, as a success. -/
def streamWebsocketEvents (isProbe : Bool) : M Unit := do
  let outcome : Outcome ← Prog.perform Op.upstream
  match outcome with
  | .terminal =>
    Prog.perform Op.recordSuccess
    let _rest : Outcome ← Prog.perform Op.upstream
    releaseIf isProbe
  | .finished _ =>
    -- the socket was closed without a terminal event
    Prog.perform (Op.recordFailure .other)
    releaseIf isProbe
  | .raised exc _ =>
    Prog.perform (Op.recordFailure exc)
    releaseIf isProbe
  | .cancelled => releaseIf isProbe

/-- `_stream_responses_via_websocket`. A handshake that fails holds its probe. -/
def streamResponsesViaWebsocket : M Unit :=
  admitted fun isProbe => do
    let handshake : Outcome ← Prog.perform Op.upstream
    match handshake with
    | .finished status =>
      if 500 ≤ status then Prog.perform (Op.recordFailure .other)
      else if status ≠ 101 then Prog.perform Op.recordSuccess
      else streamWebsocketEvents isProbe
    | .raised exc _ => Prog.perform (Op.recordFailure exc)
    | .terminal => pure ()
    | .cancelled => pure ()

inductive Call : Type where
  | call
  | context
  | websocket
  deriving DecidableEq

namespace World

def preCallCheck (cfg : Config) (tid : ℕ) (w : World) : World × Option Bool :=
  let checked := w.breaker.preCallCheck cfg w.clock
  match checked.2 with
  | none => (w, none)
  | some isProbe =>
    ({ w with breaker := checked.1, log := .admitted tid isProbe :: w.log }, some isProbe)

def recordSuccess (cfg : Config) (tid : ℕ) (w : World) : World :=
  let breaker := w.breaker.recordSuccess cfg w.clock
  let log := .succeeded tid :: w.log
  { w with
    breaker := breaker
    log := if w.breaker.state = .open ∧ breaker.state = .closed then .closed :: log else log }

def recordFailure (cfg : Config) (tid : ℕ) (exc : Exc) (w : World) : World :=
  if isServerError exc then
    let breaker := w.breaker.recordFailure cfg w.clock
    let log := .failed tid :: w.log
    { w with
      breaker := breaker
      log := if w.breaker.state = .closed ∧ breaker.state = .open then .opened :: log else log }
  else w

def releaseHalfOpenProbe (tid : ℕ) (w : World) : World :=
  { w with breaker := w.breaker.releaseHalfOpenProbe, log := .released tid :: w.log }

end World

def exec (cfg : Config) (tid : ℕ) : (op : Op) → Outcome → World → Option (World × op.Ans)
  | .preCallCheck, _, w => some (w.preCallCheck cfg tid)
  | .upstream, outcome, w => some (w, outcome)
  | .recordSuccess, _, w => some (w.recordSuccess cfg tid, ())
  | .recordFailure exc, _, w => some (w.recordFailure cfg tid exc, ())
  | .releaseHalfOpenProbe, _, w => some (w.releaseHalfOpenProbe tid, ())

def system (cfg : Config) : System World Op Op.Ans Unit Call Outcome ℕ where
  exec := exec cfg
  program
    | .call => call
    | .context => serviceCircuitBreakerContext
    | .websocket => streamResponsesViaWebsocket
  environment w elapsed := some { w with clock := w.clock + elapsed }

abbrev State : Type := Pool World Op.Ans Unit Call

def Breaker.new : Breaker := ⟨.closed, 0, 0, none, false⟩

/-! ## The log -/

def Unreleased (log : List Entry) (tid : ℕ) : Prop :=
  .admitted tid true ∈ log ∧ .released tid ∉ log

def sinceOpened (log : List Entry) : List Entry := log.takeWhile (· ≠ .opened)

def Entry.isFailure : Entry → Bool
  | .failed _ => true
  | _ => false

def sinceFailure (log : List Entry) : List Entry := log.takeWhile fun e => !e.isFailure

def isProbeSuccess (log : List Entry) : Entry → Bool
  | .succeeded tid => .admitted tid true ∈ sinceOpened log
  | _ => false

/-- The successes, since the last server failure, of probes that were admitted since the breaker
opened. -/
def probeSuccesses (log : List Entry) : ℕ := (sinceFailure log).countP (isProbeSuccess log)

def NoStragglers (cfg : Config) (p : State) : Action Call Outcome ℕ → Prop
  | .resume tid _ => p.next tid = some .recordSuccess →
    p.shared.breaker.current cfg p.shared.clock = .halfOpen →
    .admitted tid true ∈ sinceOpened p.shared.log
  | _ => True

instance (cfg : Config) (p : State) : (a : Action Call Outcome ℕ) → Decidable (NoStragglers cfg p a)
  | .resume tid _ => inferInstanceAs (Decidable (p.next tid = some .recordSuccess →
      p.shared.breaker.current cfg p.shared.clock = .halfOpen →
      .admitted tid true ∈ sinceOpened p.shared.log))
  | .spawn _ _ => inferInstanceAs (Decidable True)
  | .environment _ => inferInstanceAs (Decidable True)

/-! ## What a call does -/

def Held (h : History Op.Ans) : Prop :=
  ⟨.preCallCheck, some true⟩ ∈ h ∧ ⟨.releaseHalfOpenProbe, ()⟩ ∉ h

def callSpec : Spec Op.Ans where
  pre h
    | .preCallCheck => h = []
    | .releaseHalfOpenProbe => Held h
    | _ => True
  post _ _ _ := True

def Keeps (isProbe : Bool) (p : M Unit) : Prop :=
  ∀ h, (isProbe = true → Held h) → Sat callSpec (fun _ _ => True) h p

theorem Held.cons {h : History Op.Ans} {e : Event Op.Ans} (hheld : Held h)
    (he : e.op ≠ .releaseHalfOpenProbe) : Held (e :: h) := by
  refine ⟨mem_cons_of_mem _ hheld.1, fun hmem => ?_⟩
  rcases mem_cons.mp hmem with rfl | hmem
  · exact he rfl
  · exact hheld.2 hmem

theorem keeps_return (isProbe : Bool) : Keeps isProbe (return) := fun _ _ => trivial

theorem keeps_releaseIf (isProbe : Bool) : Keeps isProbe (releaseIf isProbe) := by
  intro h hheld
  cases isProbe with
  | false => trivial
  | true => exact ⟨hheld rfl, fun _ _ => trivial⟩

variable {op : Op} {w w' : World} {tid : ℕ} {e : Entry} {r : op.Ans} {outcome : Outcome}
  {p' p : State} {a : Action Call Outcome ℕ}

theorem Keeps.call {isProbe : Bool} {k : op.Ans → M Unit} (hcheck : op ≠ .preCallCheck)
    (hrelease : op ≠ .releaseHalfOpenProbe) (hk : ∀ r, Keeps isProbe (k r)) :
    Keeps isProbe (.call op k) := by
  intro h hheld
  refine ⟨?_, fun r _ => hk r _ fun hprobe => (hheld hprobe).cons hrelease⟩
  cases op with
  | preCallCheck => exact absurd rfl hcheck
  | releaseHalfOpenProbe => exact absurd rfl hrelease
  | upstream => trivial
  | recordSuccess => trivial
  | recordFailure exc => trivial

theorem keeps_success {isProbe : Bool} {p : M Unit} (hp : Keeps isProbe p) :
    Keeps isProbe (Prog.perform Op.recordSuccess >>= fun _ => p) :=
  .call nofun nofun fun _ => hp

theorem keeps_failure {isProbe : Bool} {p : M Unit} (exc : Exc) (hp : Keeps isProbe p) :
    Keeps isProbe (Prog.perform (Op.recordFailure exc) >>= fun _ => p) :=
  .call nofun nofun fun _ => hp

theorem sat_admitted {body : Bool → M Unit} (hbody : ∀ isProbe, Keeps isProbe (body isProbe)) :
    Sat callSpec (fun _ _ => True) [] (admitted body) := by
  refine ⟨rfl, fun isProbe _ => ?_⟩
  cases isProbe with
  | none => trivial
  | some isProbe =>
    refine hbody isProbe _ ?_
    rintro rfl
    exact ⟨mem_cons_self, by simp⟩

theorem sat_call : Sat callSpec (fun _ _ => True) [] call := by
  refine sat_admitted fun isProbe => .call nofun nofun fun outcome => ?_
  cases outcome with
  | finished status => exact keeps_success (keeps_releaseIf isProbe)
  | terminal => exact keeps_success (keeps_releaseIf isProbe)
  | raised exc status => exact keeps_failure exc (keeps_releaseIf isProbe)
  | cancelled => exact keeps_releaseIf isProbe

theorem sat_serviceCircuitBreakerContext :
    Sat callSpec (fun _ _ => True) [] serviceCircuitBreakerContext := by
  refine sat_admitted fun isProbe => .call nofun nofun fun outcome => ?_
  have hraised : ∀ exc (status : Option ℕ), Keeps isProbe
      (if (status.any (· < 500) && !isServerError exc) = true then
          Prog.perform Op.recordSuccess >>= fun _ => releaseIf isProbe
        else Prog.perform (Op.recordFailure exc) >>= fun _ => releaseIf isProbe) := by
    intro exc status
    split_ifs
    · exact keeps_success (keeps_releaseIf isProbe)
    · exact keeps_failure exc (keeps_releaseIf isProbe)
  cases outcome with
  | finished status =>
    change Keeps isProbe (if 500 ≤ status then _ else _)
    split_ifs
    · exact keeps_failure .other (keeps_releaseIf isProbe)
    · exact keeps_success (keeps_releaseIf isProbe)
  | terminal => exact keeps_success (keeps_releaseIf isProbe)
  | raised exc status =>
    cases exc with
    | circuitBreakerOpen => exact keeps_releaseIf isProbe
    | clientResponse s => exact hraised (.clientResponse s) status
    | timeout => exact hraised .timeout status
    | withStatusCode s => exact hraised (.withStatusCode s) status
    | other => exact hraised .other status
  | cancelled => exact keeps_releaseIf isProbe

theorem keeps_streamWebsocketEvents (isProbe : Bool) :
    Keeps isProbe (streamWebsocketEvents isProbe) := by
  refine .call nofun nofun fun outcome => ?_
  cases outcome with
  | terminal => exact keeps_success (.call nofun nofun fun _ => keeps_releaseIf isProbe)
  | finished status => exact keeps_failure .other (keeps_releaseIf isProbe)
  | raised exc status => exact keeps_failure exc (keeps_releaseIf isProbe)
  | cancelled => exact keeps_releaseIf isProbe

theorem sat_streamResponsesViaWebsocket :
    Sat callSpec (fun _ _ => True) [] streamResponsesViaWebsocket := by
  refine sat_admitted fun isProbe => .call nofun nofun fun handshake => ?_
  cases handshake with
  | finished status =>
    change Keeps isProbe (if 500 ≤ status then _ else if status ≠ 101 then _ else _)
    split_ifs
    · exact keeps_failure .other (keeps_return isProbe)
    · exact keeps_success (keeps_return isProbe)
    · exact keeps_streamWebsocketEvents isProbe
  | raised exc status => exact keeps_failure exc (keeps_return isProbe)
  | terminal => exact keeps_return isProbe
  | cancelled => exact keeps_return isProbe

abbrev Disciplined (p : State) : Prop :=
  Verified (fun _ => True) (fun _ _ => True) (fun _ : Call => callSpec) (fun _ _ _ => True) p

variable {cfg : Config}

theorem upholds_discipline (cfg : Config) :
    Upholds (system cfg) (fun _ _ => True) (fun _ => True) (fun _ _ => True)
      (fun _ : Call => callSpec) (fun _ _ _ => True) where
  spawn {_ _ c} _ _ := by
    refine ⟨trivial, ?_⟩
    cases c with
    | call => exact sat_call
    | context => exact sat_serviceCircuitBreakerContext
    | websocket => exact sat_streamResponsesViaWebsocket
  exec _ _ _ _ _ _ _ := ⟨trivial, trivial, trivial⟩
  stable _ _ _ _ _ _ _ := trivial
  environment _ _ _ := ⟨trivial, fun _ _ => trivial⟩

/-! ## At most one probe -/

structure Recorded (p : State) : Prop where
  admitted : ∀ tid isProbe, .admitted tid isProbe ∈ p.shared.log ↔
    ⟨.preCallCheck, some isProbe⟩ ∈ p.history tid
  released : ∀ tid, .released tid ∈ p.shared.log ↔ ⟨.releaseHalfOpenProbe, ()⟩ ∈ p.history tid

theorem mem_log_recordSuccess :
    e ∈ (w.recordSuccess cfg tid).log ↔ e ∈ w.log ∨ e = .succeeded tid ∨ e = .closed ∧
      w.breaker.state = .open ∧ (w.breaker.recordSuccess cfg w.clock).state = .closed := by
  unfold World.recordSuccess
  dsimp only
  split_ifs with hcloses
  · simp only [mem_cons, hcloses, and_self, and_true]
    tauto
  · simp only [mem_cons, hcloses, and_false, or_false]
    tauto

theorem mem_log_recordFailure {exc : Exc} (he : e ∈ (w.recordFailure cfg tid exc).log) :
    e ∈ w.log ∨ e = .failed tid ∨ e = .opened := by
  unfold World.recordFailure at he
  split_ifs at he
  · dsimp only at he
    split_ifs at he
    · simp only [mem_cons] at he
      tauto
    · simp only [mem_cons] at he
      tauto
  · exact .inl he

theorem log_subset_recordFailure {exc : Exc} :
    w.log ⊆ (w.recordFailure cfg tid exc).log := by
  unfold World.recordFailure
  split_ifs
  · dsimp only
    split_ifs
    · exact subset_cons_of_subset _ (subset_cons_self _ _)
    · exact subset_cons_self _ _
  · exact List.Subset.refl _

theorem exec_preCallCheck {r : Option Bool}
    (h : exec cfg tid .preCallCheck outcome w = some (w', r)) :
    w' = w ∧ r = none ∨ ∃ isProbe, r = some isProbe ∧
      (w.breaker.preCallCheck cfg w.clock).2 = some isProbe ∧
      w' = { w with
        breaker := (w.breaker.preCallCheck cfg w.clock).1
        log := .admitted tid isProbe :: w.log } := by
  cases hchecked : (w.breaker.preCallCheck cfg w.clock).2 with
  | none =>
    rw [exec, World.preCallCheck, hchecked] at h
    cases h
    exact .inl ⟨rfl, rfl⟩
  | some isProbe =>
    rw [exec, World.preCallCheck, hchecked] at h
    cases h
    exact .inr ⟨isProbe, rfl, rfl, rfl⟩

theorem exec_log (hexec : exec cfg tid op outcome w = some (w', r)) :
    (∀ tid' isProbe, .admitted tid' isProbe ∈ w'.log ↔ .admitted tid' isProbe ∈ w.log ∨
      tid' = tid ∧ (⟨op, r⟩ : Event Op.Ans) = ⟨.preCallCheck, some isProbe⟩) ∧
    ∀ tid', .released tid' ∈ w'.log ↔ .released tid' ∈ w.log ∨
      tid' = tid ∧ op = .releaseHalfOpenProbe := by
  cases op with
  | preCallCheck =>
    obtain ⟨rfl, rfl⟩ | ⟨isProbe, rfl, -, rfl⟩ := exec_preCallCheck hexec
    · simp
    · refine ⟨fun tid' isProbe' => ?_, fun tid' => by simp⟩
      simp only [mem_cons, Entry.admitted.injEq, Event.mk.injEq, heq_eq_eq, true_and,
        some.injEq]
      tauto
  | upstream =>
    cases hexec
    simp
  | recordSuccess =>
    cases hexec
    simp [mem_log_recordSuccess]
  | recordFailure exc =>
    cases hexec
    refine ⟨fun tid' isProbe => ⟨fun h => ?_, fun h => ?_⟩, fun tid' => ⟨fun h => ?_, fun h => ?_⟩⟩
    · exact .inl ((mem_log_recordFailure h).resolve_right (by simp))
    · exact log_subset_recordFailure (h.resolve_right (by simp))
    · exact .inl ((mem_log_recordFailure h).resolve_right (by simp))
    · exact log_subset_recordFailure (h.resolve_right (by simp))
  | releaseHalfOpenProbe =>
    cases hexec
    refine ⟨fun tid' isProbe => by simp [World.releaseHalfOpenProbe], fun tid' => ?_⟩
    simp only [World.releaseHalfOpenProbe, mem_cons, Entry.released.injEq, and_true]
    tauto

theorem Recorded.step (hp : Recorded p) (h : (system cfg).step p a = some p') : Recorded p' := by
  cases a with
  | spawn tid c =>
    have hhistory := System.history_of_step h (by simp)
    obtain ⟨-, rfl⟩ := System.step_spawn h
    exact ⟨fun t b => by rw [hhistory]; exact hp.admitted t b,
      fun t => by rw [hhistory]; exact hp.released t⟩
  | environment elapsed =>
    have hhistory := System.history_of_step h (by simp)
    have hw := some.inj (System.step_environment h).1
    exact ⟨fun t b => by rw [hhistory, ← hw]; exact hp.admitted t b,
      fun t => by rw [hhistory, ← hw]; exact hp.released t⟩
  | resume tid outcome =>
    obtain ⟨t, op, k, r, -, -, hexec, hself, hothers⟩ := System.history_of_resume h
    obtain ⟨hadmitted, hreleased⟩ := exec_log hexec
    refine ⟨fun tid' isProbe => ?_, fun tid' => ?_⟩
    · rw [hadmitted, hp.admitted]
      by_cases htid : tid' = tid
      · subst htid
        rw [hself, mem_cons]
        simp only [true_and]
        tauto
      · rw [hothers tid' htid]
        simp [htid]
    · rw [hreleased, hp.released]
      by_cases htid : tid' = tid
      · subst htid
        rw [hself, mem_cons]
        cases op <;> simp
      · rw [hothers tid' htid]
        simp [htid]

structure Probes (w : World) : Prop where
  inFlight : ∀ {tid}, Unreleased w.log tid → w.breaker.halfOpenProbeInFlight = true
  unique : ∀ {tid tid'}, Unreleased w.log tid → Unreleased w.log tid' → tid = tid'

theorem preCallCheck_eq_some {b : Breaker} {now : ℤ} {isProbe : Bool}
    (h : (b.preCallCheck cfg now).2 = some isProbe) :
    isProbe = true ∧ b.halfOpenProbeInFlight = false ∧
        (b.preCallCheck cfg now).1 = { b with halfOpenProbeInFlight := true } ∨
      isProbe = false ∧ (b.preCallCheck cfg now).1 = b := by
  unfold Breaker.preCallCheck at h ⊢
  cases hcurrent : b.current cfg now with
  | «open» =>
    rw [hcurrent] at h
    cases h
  | halfOpen =>
    rw [hcurrent] at h
    dsimp only at h ⊢
    split_ifs at h with hflag
    cases h
    exact .inl ⟨rfl, Bool.eq_false_iff.mpr hflag, by rw [if_neg hflag]⟩
  | closed =>
    rw [hcurrent] at h
    cases h
    exact .inr ⟨rfl, rfl⟩

theorem recordSuccess_flag (b : Breaker) (now : ℤ) :
    (b.recordSuccess cfg now).halfOpenProbeInFlight = b.halfOpenProbeInFlight := by
  unfold Breaker.recordSuccess
  split
  · split_ifs <;> rfl
  · split_ifs <;> rfl
  · rfl

theorem recordFailure_flag (w : World) (tid : ℕ) (exc : Exc) :
    (w.recordFailure cfg tid exc).breaker.halfOpenProbeInFlight =
      w.breaker.halfOpenProbeInFlight := by
  unfold World.recordFailure
  split_ifs <;> rfl

theorem Probes.other (hw : Probes w)
    (hflag : w'.breaker.halfOpenProbeInFlight = w.breaker.halfOpenProbeInFlight)
    (hlog : ∀ tid, Unreleased w'.log tid → Unreleased w.log tid) : Probes w' :=
  ⟨fun h => hflag.trans (hw.inFlight (hlog _ h)), fun h h' => hw.unique (hlog _ h) (hlog _ h')⟩

theorem probes_exec (hw : Probes w) (hcheck : op = .preCallCheck → .admitted tid true ∉ w.log)
    (hrelease : op = .releaseHalfOpenProbe → Unreleased w.log tid)
    (hexec : exec cfg tid op outcome w = some (w', r)) : Probes w' := by
  obtain ⟨hadmitted, hreleased⟩ := exec_log hexec
  -- all operations but an admission leave no more probes unreleased
  have hquiet : op ≠ .preCallCheck → ∀ tid', Unreleased w'.log tid' → Unreleased w.log tid' := by
    rintro hop tid' ⟨hadm, hrel⟩
    refine ⟨((hadmitted tid' true).mp hadm).resolve_right fun h => hop (Event.mk.inj h.2).1, ?_⟩
    exact fun hmem => hrel ((hreleased tid').mpr (.inl hmem))
  cases op with
  | preCallCheck =>
    obtain ⟨rfl, -⟩ | ⟨isProbe, -, hchecked, rfl⟩ := exec_preCallCheck hexec
    · exact hw
    · rcases preCallCheck_eq_some hchecked with ⟨rfl, hfree, hbreaker⟩ | ⟨rfl, hbreaker⟩
      · -- no probe was in flight, so the new one is the only one
        have hnone : ∀ tid', ¬ Unreleased w.log tid' := fun tid' h =>
          Bool.false_ne_true (hfree.symm.trans (hw.inFlight h))
        have honly : ∀ {tid'}, Unreleased (.admitted tid true :: w.log) tid' → tid' = tid := by
          rintro tid' ⟨hadm, hrel⟩
          rcases mem_cons.mp hadm with heq | hadm
          · exact (Entry.admitted.inj heq).1
          · exact absurd ⟨hadm, fun h => hrel (mem_cons_of_mem _ h)⟩ (hnone tid')
        refine ⟨fun _ => by rw [hbreaker], fun h h' => (honly h).trans (honly h').symm⟩
      · refine hw.other (by rw [hbreaker]) fun tid' ⟨hadm, hrel⟩ => ?_
        refine ⟨(mem_cons.mp hadm).resolve_left (by simp), fun h => hrel ?_⟩
        exact mem_cons_of_mem _ h
  | upstream =>
    cases hexec
    exact hw
  | recordSuccess =>
    cases hexec
    exact hw.other (recordSuccess_flag _ _) (hquiet nofun)
  | recordFailure exc =>
    cases hexec
    exact hw.other (recordFailure_flag _ _ _) (hquiet nofun)
  | releaseHalfOpenProbe =>
    -- what is released was the only probe
    have hnone : ∀ tid', ¬ Unreleased w'.log tid' := by
      intro tid' h
      obtain rfl := hw.unique (hquiet nofun tid' h) (hrelease rfl)
      exact h.2 ((hreleased tid').mpr (.inr ⟨rfl, rfl⟩))
    exact ⟨fun h => absurd h (hnone _), fun h => absurd h (hnone _)⟩

theorem Probes.step (hw : Probes p.shared) (hrecorded : Recorded p) (hdisciplined : Disciplined p)
    (h : (system cfg).step p a = some p') :
    Probes p'.shared := by
  cases a with
  | spawn tid c =>
    obtain ⟨-, rfl⟩ := System.step_spawn h
    exact hw
  | environment elapsed =>
    have hshared := some.inj (System.step_environment h).1
    rw [← hshared]
    exact ⟨hw.inFlight, hw.unique⟩
  | resume tid outcome =>
    obtain ⟨t, op, k, r, ht, hprog, hexec, -⟩ := System.step_resume h
    have hpre := hdisciplined.pre ht hprog
    rw [← Pool.history_eq ht] at hpre
    refine probes_exec hw ?_ ?_ hexec
    · rintro rfl hmem
      rw [hrecorded.admitted, show p.history tid = [] from hpre] at hmem
      cases hmem
    · rintro rfl
      exact ⟨(hrecorded.admitted tid true).mpr hpre.1,
        fun hmem => hpre.2 ((hrecorded.released tid).mp hmem)⟩

/-! ## Enough successes of probes -/

theorem sinceOpened_cons (he : e ≠ .opened) (log : List Entry) :
    sinceOpened (e :: log) = e :: sinceOpened log :=
  takeWhile_cons_of_pos (decide_eq_true he)

theorem sinceFailure_cons (he : e.isFailure = false) (log : List Entry) :
    sinceFailure (e :: log) = e :: sinceFailure log :=
  takeWhile_cons_of_pos (by rw [he]; rfl)

theorem probeSuccesses_cons (e : Entry) (hopened : e ≠ .opened) (hfailure : e.isFailure = false)
    (log : List Entry) :
    probeSuccesses log + (if isProbeSuccess log e then 1 else 0) ≤ probeSuccesses (e :: log) := by
  have hmore : ∀ x, isProbeSuccess log x = true → isProbeSuccess (e :: log) x = true := by
    intro x hx
    cases x with
    | succeeded tid =>
      refine decide_eq_true ?_
      rw [sinceOpened_cons hopened]
      exact mem_cons_of_mem _ (of_decide_eq_true hx)
    | admitted _ _ => cases hx
    | failed _ => cases hx
    | released _ => cases hx
    | opened => cases hx
    | closed => cases hx
  rw [probeSuccesses, probeSuccesses, sinceFailure_cons hfailure, countP_cons]
  refine Nat.add_le_add (countP_mono_left fun x _ => hmore x) ?_
  split_ifs with hold hnew hnew
  · exact le_rfl
  · exact absurd (hmore e hold) hnew
  · exact Nat.zero_le _
  · exact le_rfl

/-- The successes that the breaker counts are successes of probes, and where it closed there were
enough. -/
structure Counted (cfg : Config) (w : World) : Prop where
  stored : w.breaker.state ≠ .halfOpen
  whenClosed : w.breaker.state = .closed → w.breaker.successCount = 0
  whenOpen : w.breaker.state = .open → w.breaker.successCount ≤ probeSuccesses w.log
  justified : ∀ {later earlier}, w.log = later ++ .closed :: earlier →
    cfg.successThreshold ≤ probeSuccesses earlier

theorem justified_cons {log : List Entry} (e : Entry) (he : e ≠ .closed)
    (h : ∀ {later earlier}, log = later ++ .closed :: earlier →
      cfg.successThreshold ≤ probeSuccesses earlier) {later earlier : List Entry}
    (hlog : e :: log = later ++ .closed :: earlier) :
    cfg.successThreshold ≤ probeSuccesses earlier := by
  cases later with
  | nil => exact absurd (head_eq_of_cons_eq hlog) he
  | cons x later => exact h (tail_eq_of_cons_eq hlog)

theorem Counted.entry (hw : Counted cfg w) (e : Entry) (hclosed : e ≠ .closed)
    (hopened : e ≠ .opened) (hfailure : e.isFailure = false) (hlog : w'.log = e :: w.log)
    (hstate : w'.breaker.state = w.breaker.state)
    (hcount : w'.breaker.successCount = w.breaker.successCount) : Counted cfg w' where
  stored := hstate ▸ hw.stored
  whenClosed h := hcount.trans (hw.whenClosed (hstate ▸ h))
  whenOpen h := by
    rw [hcount, hlog]
    have := probeSuccesses_cons e hopened hfailure w.log
    exact (hw.whenOpen (hstate ▸ h)).trans (by omega)
  justified h := justified_cons e hclosed hw.justified (hlog ▸ h)

theorem state_of_current (cfg : Config) {b : Breaker} (now : ℤ) (hstored : b.state ≠ .halfOpen) :
    b.state = if b.current cfg now = .closed then .closed else .open := by
  unfold Breaker.current
  split_ifs with hrecovered hclosed hclosed
  · cases hclosed
  · exact hrecovered.1
  · exact hclosed
  · cases hstate : b.state with
    | closed => exact absurd hstate hclosed
    | «open» => rfl
    | halfOpen => exact absurd hstate hstored

theorem counted_recordSuccess (hw : Counted cfg w)
    (hprobe : w.breaker.current cfg w.clock = .halfOpen → .admitted tid true ∈ sinceOpened w.log) :
    Counted cfg (w.recordSuccess cfg tid) := by
  have hstate := state_of_current cfg w.clock hw.stored
  unfold World.recordSuccess Breaker.recordSuccess
  cases hcurrent : w.breaker.current cfg w.clock with
  | closed =>
    rw [hcurrent, if_pos rfl] at hstate
    have hopen : ¬ w.breaker.state = .open := by simp [hstate]
    dsimp only
    split_ifs with hfailures hcloses hcloses
    · exact absurd hcloses.1 hopen
    · exact hw.entry (.succeeded tid) nofun nofun rfl rfl rfl rfl
    · exact absurd hcloses.1 hopen
    · exact hw.entry (.succeeded tid) nofun nofun rfl rfl rfl rfl
  | «open» =>
    dsimp only
    rw [if_neg fun h => nomatch h.1.symm.trans h.2]
    exact hw.entry (.succeeded tid) nofun nofun rfl rfl rfl rfl
  | halfOpen =>
    rw [hcurrent, if_neg (by simp)] at hstate
    have hopen := hw.whenOpen hstate
    have hcounts : isProbeSuccess w.log (.succeeded tid) = true := decide_eq_true (hprobe hcurrent)
    have hmore := probeSuccesses_cons (.succeeded tid) nofun rfl w.log
    rw [if_pos hcounts] at hmore
    dsimp only
    by_cases henough : cfg.successThreshold ≤ w.breaker.successCount + 1
    · rw [if_pos henough, if_pos ⟨hstate, rfl⟩]
      refine ⟨nofun, fun _ => rfl, nofun, fun {later earlier} hlog => ?_⟩
      cases later with
      | nil =>
        -- this success closes the breaker
        obtain rfl := tail_eq_of_cons_eq hlog
        omega
      | cons x later =>
        exact justified_cons (.succeeded tid) nofun hw.justified (tail_eq_of_cons_eq hlog)
    · rw [if_neg henough, if_neg (by simp [hstate])]
      refine ⟨hw.stored, fun h => ?_, fun _ => ?_,
        justified_cons (.succeeded tid) nofun hw.justified⟩
      · cases hstate.symm.trans h
      · exact (Nat.add_le_add_right hopen 1).trans hmore

theorem counted_recordFailure (hw : Counted cfg w) (exc : Exc) :
    Counted cfg (w.recordFailure cfg tid exc) := by
  unfold World.recordFailure
  split_ifs
  · have hfailed : ∀ {later earlier}, Entry.failed tid :: w.log = later ++ .closed :: earlier →
        cfg.successThreshold ≤ probeSuccesses earlier :=
      justified_cons (.failed tid) nofun hw.justified
    refine ⟨?_, fun _ => rfl, fun _ => Nat.zero_le _, fun hlog => ?_⟩
    · unfold Breaker.recordFailure
      dsimp only
      split_ifs
      · exact nofun
      · exact hw.stored
    · dsimp only at hlog
      split_ifs at hlog
      · exact justified_cons .opened nofun hfailed hlog
      · exact hfailed hlog
  · exact hw

theorem counted_exec (hw : Counted cfg w)
    (hprobe : op = .recordSuccess → w.breaker.current cfg w.clock = .halfOpen →
      .admitted tid true ∈ sinceOpened w.log) (hexec : exec cfg tid op outcome w = some (w', r)) :
    Counted cfg w' := by
  cases op with
  | preCallCheck =>
    obtain ⟨rfl, -⟩ | ⟨isProbe, -, hchecked, rfl⟩ := exec_preCallCheck hexec
    · exact hw
    · rcases preCallCheck_eq_some hchecked with ⟨-, -, hbreaker⟩ | ⟨-, hbreaker⟩
      · exact hw.entry (.admitted tid isProbe) nofun nofun rfl rfl (by rw [hbreaker])
          (by rw [hbreaker])
      · exact hw.entry (.admitted tid isProbe) nofun nofun rfl rfl (by rw [hbreaker])
          (by rw [hbreaker])
  | upstream =>
    cases hexec
    exact hw
  | recordSuccess =>
    cases hexec
    exact counted_recordSuccess hw (hprobe rfl)
  | recordFailure exc =>
    cases hexec
    exact counted_recordFailure hw exc
  | releaseHalfOpenProbe =>
    cases hexec
    exact hw.entry (.released tid) nofun nofun rfl rfl rfl rfl

theorem Counted.step (hw : Counted cfg p.shared) (hok : NoStragglers cfg p a)
    (h : (system cfg).step p a = some p') : Counted cfg p'.shared := by
  cases a with
  | spawn tid c =>
    obtain ⟨-, rfl⟩ := System.step_spawn h
    exact hw
  | environment elapsed =>
    have hshared := some.inj (System.step_environment h).1
    rw [← hshared]
    exact ⟨hw.stored, hw.whenClosed, hw.whenOpen, hw.justified⟩
  | resume tid outcome =>
    obtain ⟨t, op, k, r, ht, hprog, hexec, -⟩ := System.step_resume h
    refine counted_exec hw ?_ hexec
    rintro rfl
    exact hok (Pool.next_eq ht hprog)

structure Orderly (p : State) : Prop where
  disciplined : Disciplined p
  recorded : Recorded p
  probes : Probes p.shared

theorem Orderly.step (hp : Orderly p) (h : (system cfg).step p a = some p') : Orderly p' :=
  ⟨(upholds_discipline cfg).step hp.disciplined trivial h, hp.recorded.step h,
    hp.probes.step hp.recorded hp.disciplined h⟩

theorem Orderly.start (clock : ℤ) : Orderly ⟨⟨.new, clock, []⟩, ∅⟩ := by
  refine ⟨Verified.start trivial, ⟨fun tid isProbe => ?_, fun tid => ?_⟩,
    ⟨fun h => ?_, fun h => ?_⟩⟩
  · simp [Pool.history]
  · simp [Pool.history]
  · cases h.1
  · cases h.1

/-- **The protocol of a breaker**, for every interleaving of its calls. At most one probe is
unreleased. And if no call admitted before the breaker opened succeeds while it is half open, then
wherever it closed there had been enough successes of probes since. -/
theorem breaker_protocol (cfg : Config) (clock : ℤ) (actions : List (Action Call Outcome ℕ))
    (p : State)
    (hrun : run (system cfg).step actions ⟨⟨.new, clock, []⟩, ∅⟩ = some p) :
    (∀ tid tid', Unreleased p.shared.log tid → Unreleased p.shared.log tid' → tid = tid') ∧
    (Along (system cfg).step (NoStragglers cfg) actions ⟨⟨.new, clock, []⟩, ∅⟩ →
      ∀ later earlier, p.shared.log = later ++ .closed :: earlier →
        cfg.successThreshold ≤ probeSuccesses earlier) := by
  refine ⟨fun tid tid' => ?_, fun halong later earlier hlog => ?_⟩
  · have horderly := run_invariant (fun hp h => Orderly.step hp h) (Orderly.start clock) hrun
    exact horderly.probes.unique
  · have hstart : Counted cfg (⟨.new, clock, []⟩ : World) := by
      refine ⟨nofun, fun _ => rfl, nofun, fun hlog => ?_⟩
      simp at hlog
    have hstep : ∀ {p p' : State} {a}, Counted cfg p.shared → NoStragglers cfg p a →
        (system cfg).step p a = some p' → Counted cfg p'.shared := fun hp hok h => hp.step hok h
    have hcounted : Counted cfg p.shared := run_invariant_along hstep hstart halong hrun
    exact hcounted.justified hlog

def defaults : Config := ⟨5, 60, 2⟩

def play (tid : ℕ) (outcome : Outcome) (n : ℕ) : List (Action Call Outcome ℕ) :=
  .spawn tid .context :: .resume tid .cancelled :: List.replicate n (.resume tid outcome)

def recovery : List (Action Call Outcome ℕ) :=
  ([1, 2, 3, 4, 5].flatMap fun tid => play tid (.finished 503) 2) ++ [.environment 60] ++
    play 6 (.finished 200) 3 ++ play 7 (.finished 200) 3

theorem breaker_protocol_recovery : ∃ p,
    run (system defaults).step recovery ⟨⟨.new, 0, []⟩, ∅⟩ = some p ∧
      p.shared.breaker.state = .closed ∧
      ∀ later earlier, p.shared.log = later ++ .closed :: earlier → 2 ≤ probeSuccesses earlier := by
  obtain ⟨p, hrun, hclosed⟩ : ∃ p,
      run (system defaults).step recovery ⟨⟨.new, 0, []⟩, ∅⟩ = some p ∧
      p.shared.breaker.state = .closed := by
    decide +kernel
  have hprotocol := breaker_protocol defaults 0 recovery p hrun
  exact ⟨p, hrun, hclosed, hprotocol.2 (by decide +kernel)⟩

def Entry.isProbe : Entry → Bool
  | .admitted _ isProbe => isProbe
  | _ => false

def lateSuccesses : List (Action Call Outcome ℕ) :=
  [.spawn 6 .context, .resume 6 .cancelled, .spawn 7 .context, .resume 7 .cancelled] ++
    ([1, 2, 3, 4, 5].flatMap fun tid => play tid (.finished 503) 2) ++ [.environment 60] ++
    List.replicate 2 (.resume 6 (.finished 200)) ++ List.replicate 2 (.resume 7 (.finished 200))

/-- **Old calls close the breaker.** It is closed again, and no probe was ever admitted. -/
theorem stragglers_close : ∃ p,
    run (system defaults).step lateSuccesses ⟨⟨.new, 0, []⟩, ∅⟩ = some p ∧
      p.shared.breaker.state = .closed ∧ p.shared.log.head? = some .closed ∧
      ∀ tid, .admitted tid true ∉ p.shared.log := by
  obtain ⟨p, hrun, hstate, hhead, hprobes⟩ : ∃ p,
      run (system defaults).step lateSuccesses ⟨⟨.new, 0, []⟩, ∅⟩ = some p ∧
      p.shared.breaker.state = .closed ∧ p.shared.log.head? = some .closed ∧
      ∀ e ∈ p.shared.log, e.isProbe = false := by
    decide +kernel
  exact ⟨p, hrun, hstate, hhead, fun tid hmem => Bool.noConfusion (hprobes _ hmem)⟩

end CodexOctopus.CircuitBreaker

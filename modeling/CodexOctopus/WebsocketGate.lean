import CodexOctopus.GateInvariant

/-!
# The create gate of the websocket proxy

The main loop takes the create gate for each `response.create`, and the gate is released
when the reader sees the answer or the request fails. If the loop waits for the gate, no
reader runs and a pending request holds the gate, it waits forever (`Deadlocked`).
-/

namespace CodexOctopus

open Lts

/-! ## Deadlock -/

def WebsocketState.readerRuns (s : WebsocketState) : Bool := s.reader.any ReaderPhase.isRunning

/-- The loop waits for a gate that nobody will release. -/
def WebsocketState.Deadlocked (s : WebsocketState) : Prop :=
  (∃ r, s.main = .atGate r) ∧ s.readerRuns = false ∧ gateHeld s.pending = true

def ReaderPhase.isClosing : ReaderPhase → Bool
  | .failing true | .closing => true
  | _ => false

/-- **The condition** on steps under which the gate stays live. -/
def ReplaySafe (s : WebsocketState) : WebsocketAct → Prop
  -- no request is queued for replay while the loop has one to register
  | .text e => (replayTarget s.pending e).isSome = true → s.main.beforeRegister = false
  -- no request is taken while one is queued for replay and the reader is not done
  | .accept => s.main ≠ .received none → s.replayRequest ≠ none → s.readerRuns = false
  -- no request is sent on an upstream that the reader closes
  | .send => s.reader.any ReaderPhase.isClosing = true → s.replayRequest = none →
      gateHeld s.pending = false
  -- the reader does not raise while the loop is bound to wait
  | .raised => s.main.bound = true → gateHeld s.pending = false
  | _ => True

instance decidableReplaySafe (s : WebsocketState) : ∀ a, Decidable (ReplaySafe s a)
  | .text _ | .accept | .send | .raised => by dsimp only [ReplaySafe]; infer_instance
  | .loop | .poll | .receive _ | .leave | .prepare | .prepareFailed | .join | .acquire | .refuse
  | .register | .connect | .connectFailed | .sendFailed | .recover | .replayConnect
  | .replayConnectFailed | .resend | .resendFailed | .settle | .check | .idleTimeout
  | .budgetTimeout _ | .upstreamClosed | .failed | .close => .isTrue trivial

/-! ## The invariant -/

def WebsocketState.Inv (s : WebsocketState) : Prop :=
  GateInv s.main s.reader s.upstreamOpen s.replayRequest s.pending s.gatePermits

theorem newWebsocket_inv : newWebsocket.Inv where
  gate := Nat.le_refl 1
  admitted := nofun
  replay := nofun
  gone _ _ := heldOnly_nil
  before := nofun
  raised := nofun
  noReader _ := rfl
  opening := nofun
  resending := nofun
  failing := nofun
  closed _ := rfl

/-- **No deadlock** in a state with the invariant, and no request is queued for replay when
the loop waits for the gate. -/
theorem WebsocketState.Inv.live {s : WebsocketState} (h : s.Inv) :
    ¬s.Deadlocked ∧ ∀ r, s.main = .atGate r → s.replayRequest = none := by
  have hreplay : ∀ r, s.main = .atGate r → s.replayRequest = none := fun r hr =>
    h.before (by rw [hr]; rfl)
  refine ⟨?_, hreplay⟩
  rintro ⟨⟨r, hr⟩, hruns, hheld⟩
  have hfree : HeldOnly s.pending none → False := fun hnone => by
    rw [heldOnly_none_iff.mp hnone] at hheld
    cases hheld
  have hown : s.main.own = none := by rw [hr]; rfl
  -- the reader is not there, or done
  rcases hreader : s.reader with _ | phase
  · exact hfree (hown ▸ h.gone (by rw [hreader]; rfl) (hreplay r hr))
  · cases phase with
    | done raised =>
      cases raised with
      | true => exact hfree (h.raised (by rw [hr]; rfl) hreader)
      | false => exact hfree (hown ▸ h.gone (by rw [hreader]; rfl) (hreplay r hr))
    | receiving | settling _ | checking | failing _ | closing =>
      rw [readerRuns, hreader] at hruns
      cases hruns

/-! ## Steps of the main loop -/

namespace WebsocketState

variable {s s' : WebsocketState}

theorem Inv.inPhase {m : MainPhase} (h : s.Inv) (hm : s.main = m) :
    GateInv m s.reader s.upstreamOpen s.replayRequest s.pending s.gatePermits := by
  rw [← hm]
  exact h

theorem Inv.finish (h : s.Inv) : s.finish.Inv :=
  (h.clear.disconnect heldOnly_nil).toPlain rfl fun _ _ => heldOnly_nil

theorem Inv.pollReader {next : WebsocketState → WebsocketState} (h : s.Inv)
    (hstay : (∀ raised, s.reader ≠ some (.done raised)) → (next s).Inv)
    (hgone : s.disconnect.Inv → (next s.disconnect).Inv) : (s.pollReader next).Inv := by
  unfold WebsocketState.pollReader
  split
  · exact h.finish
  · next hreader =>
    split
    · next id hid =>
      exact h.replay_queued hid
    · next hnone =>
      exact hgone (h.disconnect (h.gone (by rw [hreader]; rfl) hnone))
  · next hraised hdone =>
    refine hstay fun raised hreader => ?_
    cases raised with
    | true => exact hraised hreader
    | false => exact hdone hreader

theorem Inv.sent (h : s.Inv) (hok : ReplaySafe s .send) (hopen : s.upstreamOpen = true) :
    readerGone s.reader = true → s.replayRequest = none → HeldOnly s.pending none := by
  intro hgone hnone
  have hclosed : readerClosed s.reader = true → False := fun hc => by
    rw [h.closed hc] at hopen
    cases hopen
  have hclosing : s.reader.any ReaderPhase.isClosing = true → HeldOnly s.pending none := fun hc =>
    heldOnly_none_iff.mpr (hok hc hnone)
  rcases hreader : s.reader with _ | phase
  · exact absurd (by rw [hreader]; rfl) hclosed
  · cases phase with
    | receiving | settling _ | checking =>
      rw [hreader] at hgone
      cases hgone
    | closing => exact hclosing (by rw [hreader]; rfl)
    | failing timedOut =>
      cases timedOut with
      | true => exact hclosing (by rw [hreader]; rfl)
      | false => exact absurd (by rw [hreader]; rfl) hclosed
    | done raised =>
      cases raised with
      | true =>
        rw [hreader] at hgone
        cases hgone
      | false => exact absurd (by rw [hreader]; rfl) hclosed

theorem Inv.accept {m : Option RequestState} (h : s.Inv) (hown : s.main.own = none)
    (hnone : m ≠ none → s.replayRequest = none)
    (hdone : ∀ raised, s.reader ≠ some (.done raised)) : (s.accept m).Inv := by
  cases m with
  | none =>
    refine GateInv.toPlain_of_own h ?_ hown
    dsimp only [WebsocketState.accept]
    split <;> rfl
  | some r =>
    exact GateInv.toWaiting h (.inl rfl) hown (hnone nofun) fun _ hr => absurd hr (hdone true)

variable {a : WebsocketAct}

/-- **The main loop keeps the invariant.** -/
theorem Inv.mainStep (h : s.Inv) (hok : ReplaySafe s a) (hs : mainStep s a s.main = some s') :
    s'.Inv := by
  unfold CodexOctopus.mainStep at hs
  split at hs
  · -- loop
    next hmain =>
    cases hs
    have hown : s.main.own = none := by rw [hmain]; rfl
    exact h.pollReader (fun _ => GateInv.toPlain_of_own h rfl hown)
      fun hd => GateInv.toPlain_of_own hd rfl hown
  · -- poll
    next hmain =>
    cases hs
    exact GateInv.toPlain_of_own h rfl (by rw [hmain]; rfl)
  · -- receive
    next hmain =>
    cases hs
    exact GateInv.toPlain_of_own h rfl (by rw [hmain]; rfl)
  · next hmain =>
    split at hs
    · cases hs
    · cases hs
      exact GateInv.toPlain_of_own h rfl (by rw [hmain]; rfl)
  · -- accept
    next m hmain =>
    cases hs
    have hown : s.main.own = none := by rw [hmain]; rfl
    refine h.pollReader (fun hdone => ?_) fun hd => hd.accept hown (fun _ => rfl) nofun
    refine h.accept hown (fun hm => ?_) hdone
    by_contra hreplay
    have hruns := hok (by rw [hmain]; simpa using hm) hreplay
    rcases hreader : s.reader with _ | phase
    · exact hreplay (h.noReader hreader)
    · cases phase with
      | done raised => exact hdone raised hreader
      | receiving | settling _ | checking | failing _ | closing =>
        rw [readerRuns, hreader] at hruns
        cases hruns
  · -- prepare
    next r hmain =>
    have hown : s.main.own = none := by rw [hmain]; rfl
    have hnone : s.replayRequest = none := h.before (by rw [hmain]; rfl)
    split at hs
    · cases hs
      exact GateInv.toWaiting h (.inr (.inl rfl)) hown hnone nofun
    · cases hs
      exact GateInv.toWaiting h (.inr (.inr rfl)) hown hnone fun _ => h.raised (by rw [hmain]; rfl)
  · -- prepareFailed
    next hmain =>
    cases hs
    exact GateInv.toPlain_of_own h rfl (by rw [hmain]; rfl)
  · -- join
    next r hmain =>
    split at hs
    · cases hs
      exact h.finish
    · next hreader =>
      cases hs
      have hown : s.main.own = none := by rw [hmain]; rfl
      have hd := h.disconnect
        (h.gone (by rw [hreader]; rfl) (h.before (by rw [hmain]; rfl)))
      exact GateInv.toWaiting hd (.inr (.inr rfl)) hown rfl nofun
    · cases hs
  · -- acquire
    next r hmain =>
    split at hs
    · cases hs
    · next hfree =>
      cases hs
      exact (h.inPhase hmain).acquire hfree
  · -- refuse
    next r hmain =>
    cases hs
    exact (h.inPhase hmain).refuse
  · -- register
    next r hmain =>
    cases hs
    refine (h.inPhase hmain).register ?_ ?_
    · dsimp only
      split
      · exact .inl rfl
      · exact .inr rfl
    · dsimp only
      split
      · next hreader => exact fun _ => hreader
      · rintro ⟨⟩
  · -- connect
    next id hmain =>
    cases hs
    exact GateInv.connect h (.inl ⟨id, rfl⟩) nofun
  · -- connectFailed
    next id hmain =>
    cases hs
    exact GateInv.dropOwn h (by rw [hmain]; rfl) (by rw [hmain]; rfl)
  · -- send
    next hmain =>
    split at hs
    · next hopen =>
      cases hs
      exact GateInv.toPlain h rfl (h.sent hok hopen)
    · cases hs
  · -- sendFailed
    cases hs
    exact h.clear.fail
  · -- recover
    next hmain =>
    cases hs
    have hheld : HeldOnly s.pending none := h.failing hmain
    exact GateInv.toPlain (h.disconnect hheld.of_none) rfl fun _ _ => hheld
  · -- replayConnect
    next id hmain =>
    cases hs
    have hreader : s.reader = none := h.opening (by rw [hmain]; rfl)
    have hheld : HeldOnly s.pending s.main.own := h.gone (by rw [hreader]; rfl) (h.noReader hreader)
    rw [hmain] at hheld
    refine GateInv.connect h (.inr ⟨id, rfl⟩) ?_
    rintro i ⟨⟩
    exact hheld
  · -- replayConnectFailed
    next id hmain =>
    cases hs
    exact GateInv.dropOwn h (by rw [hmain]; rfl) (by rw [hmain]; rfl)
  · -- resend
    next hmain =>
    split at hs
    · cases hs
      exact GateInv.toPlain_of_own h rfl (by rw [hmain]; rfl)
    · cases hs
  · -- resendFailed
    next id hmain =>
    cases hs
    exact (h.inPhase hmain).resendFailed
  · -- leave
    split at hs
    · cases hs
    · cases hs
      exact h.finish
  · cases hs

/-! ## Steps of the reader -/

theorem Inv.ofReader (h : s.Inv) (hmain : s'.main = s.main) (hreader : s.reader ≠ none)
    (hreader' : s'.reader ≠ none) (hheld : ∀ o, HeldOnly s.pending o → HeldOnly s'.pending o)
    (hgate : s'.gatePermits + permits s'.pending ≤ s.gatePermits + permits s.pending)
    (hreplay : ∀ id, s'.replayRequest = some id → HeldOnly s'.pending (some id))
    (hbefore : s.main.beforeRegister = true → s'.replayRequest = none)
    (hgone : readerGone s'.reader = true → s'.replayRequest = none →
      HeldOnly s'.pending s.main.own)
    (hraised : s.main.bound = true → s'.reader = some (.done true) → HeldOnly s'.pending none)
    (hclosed : readerClosed s'.reader = true → s'.upstreamOpen = false) : s'.Inv := by
  have hsum : s.gatePermits + permits s.pending + s.main.permit ≤ 1 := h.gate
  rw [WebsocketState.Inv]
  rw [hmain]
  exact {
    gate := by omega
    admitted := h.admitted
    replay := hreplay
    gone := hgone
    before := hbefore
    raised := hraised
    noReader := fun hn => absurd hn hreader'
    opening := fun ho => absurd (h.opening ho) hreader
    resending := fun id hid => hheld _ (h.resending id hid)
    failing := fun hf => hheld _ (h.failing hf)
    closed := hclosed }

theorem Inv.readerPhase {phase : ReaderPhase} {reconnect : Bool} (h : s.Inv)
    (hreader : s.reader ≠ none)
    (hgone : readerGone (some phase) = true → s.replayRequest = none →
      HeldOnly s.pending s.main.own)
    (hraised : s.main.bound = true → phase = .done true → HeldOnly s.pending none)
    (hclosed : readerClosed (some phase) = true → s.upstreamOpen = false) :
    WebsocketState.Inv { s with reader := some phase, reconnectRequested := reconnect } :=
  h.ofReader rfl hreader nofun (fun _ hh => hh) (Nat.le_refl _) h.replay h.before hgone
    (fun hb hp => hraised hb (Option.some.inj hp)) hclosed

theorem Inv.readerFails {timedOut isOpen : Bool} (h : s.Inv) (hreader : s.reader ≠ none)
    (hclosed : timedOut = false → isOpen = false) :
    WebsocketState.Inv { s.failAll with
      reader := some (.failing timedOut), upstreamOpen := isOpen } := by
  refine h.ofReader rfl hreader nofun (fun _ _ => heldOnly_nil) (Nat.le_refl _)
    (fun _ _ => heldOnly_nil) h.before (fun _ _ => heldOnly_nil) nofun ?_
  cases timedOut with
  | true => nofun
  | false => exact fun _ => hclosed rfl

theorem Inv.text {e : UpstreamEvent} (h : s.Inv) (hreader : s.reader = some .receiving)
    (hok : ReplaySafe s (.text e)) : (s.text e).Inv := by
  have hspec := text_spec s e
  obtain ⟨penalize, hphase⟩ := hspec.reader
  refine h.ofReader hspec.main (by rw [hreader]; nofun) (by rw [hphase]; nofun) hspec.held
    hspec.gate ?_ ?_ (by rw [hphase]; nofun) (by rw [hphase]; nofun) (by rw [hphase]; nofun)
  · intro id hid
    rcases hspec.replay with heq | ⟨r, -, heq, hheld⟩
    · exact hspec.held _ (h.replay id (heq ▸ hid))
    · rw [← hid, heq]
      exact hheld
  · intro hbefore
    rcases hspec.replay with heq | ⟨r, hr, -, -⟩
    · exact heq.trans (h.before hbefore)
    · have hafter := hok (by rw [hr]; rfl)
      rw [hafter] at hbefore
      cases hbefore

/-- **The reader keeps the invariant.** -/
theorem Inv.readerStep {phase : ReaderPhase} (h : s.Inv) (hok : ReplaySafe s a)
    (hphase : s.reader = some phase) (hs : readerStep s a phase = some s') : s'.Inv := by
  have hreader : s.reader ≠ none := by rw [hphase]; nofun
  unfold CodexOctopus.readerStep at hs
  split at hs
  · -- text
    cases hs
    exact h.text hphase hok
  · -- settle
    cases hs
    exact h.readerPhase hreader nofun nofun nofun
  · -- check
    split at hs
    · next hclose =>
      cases hs
      refine h.readerPhase hreader (fun _ hnone => ?_) nofun nofun
      rw [hclose.2.resolve_left fun hne => hne hnone]
      exact heldOnly_nil
    · cases hs
      exact h.readerPhase hreader nofun nofun nofun
  · -- idleTimeout
    cases hs
    exact h.readerFails hreader nofun
  · -- budgetTimeout
    next expired =>
    cases hs
    have hsum := permits_filter_add (·.requestId ∈ expired) s.pending
    refine h.ofReader rfl hreader hreader (fun _ hh => hh.filter) ?_
      (fun id hid => (h.replay id hid).filter) h.before (fun hg hr => (h.gone hg hr).filter)
      (fun hb hd => (h.raised hb hd).filter) h.closed
    simp only [failExpired, decide_not]
    omega
  · -- upstreamClosed
    cases hs
    exact h.readerFails hreader fun _ => rfl
  · -- failed
    next timedOut =>
    cases hs
    have hgone : s.replayRequest = none → HeldOnly s.pending s.main.own :=
      h.gone (by rw [hphase]; rfl)
    cases timedOut with
    | true => exact h.readerPhase hreader (fun _ => hgone) nofun nofun
    | false =>
      exact h.readerPhase hreader (fun _ => hgone) nofun fun _ => h.closed (by rw [hphase]; rfl)
  · -- close
    cases hs
    exact h.ofReader rfl hreader nofun (fun _ hh => hh) (Nat.le_refl _) h.replay h.before
      (fun _ => h.gone (by rw [hphase]; rfl)) nofun fun _ => rfl
  · -- raised
    split at hs
    · cases hs
      exact h.readerPhase hreader nofun (fun hb _ => heldOnly_none_iff.mpr (hok hb)) nofun
    · cases hs
  · cases hs

theorem Inv.step (h : s.Inv) (hok : ReplaySafe s a) (hs : websocketStep s a = some s') :
    s'.Inv := by
  rw [websocketStep] at hs
  split at hs
  · obtain ⟨phase, hphase, hstep⟩ := Option.bind_eq_some_iff.mp hs
    exact h.readerStep hok hphase hstep
  · exact h.mainStep hok hs

end WebsocketState

/-! ## Runs -/

/-- **The loop does not deadlock on the create gate**, in every run whose steps keep to
`ReplaySafe`. -/
theorem gate_free_of_deadlock {acts : List WebsocketAct} {t : WebsocketState}
    (hok : Along websocketStep ReplaySafe acts newWebsocket)
    (hrun : run websocketStep acts newWebsocket = some t) :
    ¬t.Deadlocked ∧ ∀ r, t.main = .atGate r → t.replayRequest = none := by
  have ht : t.Inv :=
    run_invariant_along (fun h hok hs => h.step hok hs) newWebsocket_inv hok hrun
  exact ht.live

/-! ### A request queued for replay -/

def firstRequest : List WebsocketAct :=
  [.loop, .receive (some (plainRequest 0)), .accept, .prepare, .acquire, .register, .connect, .send]

def secondRequest : List WebsocketAct :=
  [.loop, .receive (some (plainRequest 1)), .accept, .prepare]

def quotaError : List WebsocketAct :=
  [.text ⟨.error, none, some "usage_limit_reached", "usage limit reached"⟩, .settle, .check, .close]

def replayActs : List WebsocketAct := [.loop, .replayConnect, .resend]

theorem gate_free_after_replay :
    ∃ t, run websocketStep (firstRequest ++ quotaError ++ replayActs ++ secondRequest)
        newWebsocket = some t ∧
      Along websocketStep ReplaySafe (firstRequest ++ quotaError ++ replayActs ++ secondRequest)
        newWebsocket ∧
      t.main = .atGate (plainRequest 1) ∧ gateHeld t.pending = true ∧
      ¬t.Deadlocked ∧ ∀ r, t.main = .atGate r → t.replayRequest = none := by
  have hrun : run websocketStep (firstRequest ++ quotaError ++ replayActs ++ secondRequest)
    newWebsocket = some _ := rfl
  have hok : Along websocketStep ReplaySafe
    (firstRequest ++ quotaError ++ replayActs ++ secondRequest) newWebsocket := by decide
  exact ⟨_, hrun, hok, by decide, by decide, gate_free_of_deadlock hok hrun⟩

/-- The second request is pipelined: the loop waits for the gate when the first one is
refused and queued for replay. -/
theorem pipelined_replay_deadlocks :
    ∃ t, run websocketStep (firstRequest ++ secondRequest ++ quotaError) newWebsocket = some t ∧
      t.main = .atGate (plainRequest 1) ∧ t.replayRequest = some 0 ∧ t.Deadlocked := by
  refine ⟨_, rfl, ?_, ?_, ⟨plainRequest 1, ?_⟩, ?_, ?_⟩ <;> decide

end CodexOctopus

import CodexOctopus.WebsocketRelay

/-!
# What a step of the websocket proxy can do

The proofs about the deque of pending requests do not look into the step function. They
split on what it does to the deque and to the request that the main loop works for. The
failure of a re-send is left out: the request then stays in the deque without the gate.
-/

namespace CodexOctopus

open List Option Table

/-! ## Events -/

def RequestState.commit (r : RequestState) : RequestState := { r with downstreamCommitted := true }

/-- **What an event does to the deque.** -/
inductive TextMove (pending : List RequestState) (e : UpstreamEvent) :
    List RequestState → Prop where
  | replay (r : RequestState) (only : pending = [r]) (target : replayTarget pending e = some r)
      (unseen : r.downstreamCommitted = false) :
      TextMove pending e [{ r with responseId := none }]
  | terminal (r : RequestState) (matched : Option RequestState)
      (noReplay : replayTarget pending e = none) (target : websocketTerminal pending e = some r) :
      TextMove pending e (removeRequest r.requestId (matched.elim pending fun q =>
        setRequest q.requestId RequestState.commit pending))
  | assign (id : String) (r : RequestState) (created : e.type = .created)
      (eventId : e.responseId = some id) (unknown : findByResponseId pending id = none)
      (first : (unresolvedRequests pending).head? = some r) :
      TextMove pending e (setRequest r.requestId (fun q =>
        { q with responseId := some id, downstreamCommitted := true, gateAcquired := false })
          pending)
  | touch (q : RequestState) (mem : q ∈ pending) (matched : (websocketMatch pending e).1 = some q)
      (known : e.type = .created → q.responseId ≠ none ∧ q.responseId = e.responseId)
      (noEnd : websocketTerminal pending e = none) :
      TextMove pending e (setRequest q.requestId (fun p => { p with
        downstreamCommitted := true
        gateAcquired := p.gateAcquired && e.type ≠ .created }) pending)
  | skip (matched : (websocketMatch pending e).1 = none)
      (noEnd : websocketTerminal pending e = none) : TextMove pending e pending

section Text

variable {s : WebsocketState} {e : UpstreamEvent}

theorem websocketMatch_of_ne_created {pending : List RequestState} (he : e.type ≠ .created) :
    (websocketMatch pending e).2 = pending := by
  unfold websocketMatch
  rw [if_neg he]
  split <;> rfl

theorem mem_of_websocketMatch {pending : List RequestState} {q : RequestState}
    (he : e.type ≠ .created) (h : (websocketMatch pending e).1 = some q) : q ∈ pending := by
  have hmem := (websocketMatch_sameGate pending e).mem q h
  rwa [websocketMatch_of_ne_created he] at hmem

/-- **`_process_upstream_websocket_text`** moves the deque as `TextMove` says. -/
theorem text_move (s : WebsocketState) (e : UpstreamEvent) :
    TextMove s.pending e (s.text e).pending := by
  rcases hr : replayTarget s.pending e with _ | r
  · rcases ht : websocketTerminal s.pending e with _ | r
    · by_cases hc : e.type = .created
      · have hmatch : websocketMatch s.pending e = assignResponseId s.pending e.responseId :=
          if_pos hc
        rcases assignResponseId_cases s.pending e.responseId with
          heq | ⟨id, r, hid, hfind, heq⟩ | ⟨id, r, hid, hfind, hhead, heq⟩
        · simp only [WebsocketState.text, hr, ht, hmatch, heq]
          exact .skip (by rw [hmatch, heq]) ht
        · obtain ⟨hmem, hresponse⟩ := mem_of_findByResponseId hfind
          simp only [WebsocketState.text, hr, ht, hmatch, heq]
          exact .touch r hmem (by rw [hmatch, heq]) (fun _ => by simp [hresponse, hid]) ht
        · simp only [WebsocketState.text, hr, ht, hmatch, heq]
          rw [setRequest_setRequest]
          · simpa [hc, Function.comp_def] using TextMove.assign (e := e) id r hc hid hfind hhead
          · exact fun _ => rfl
      · have hpending : (websocketMatch s.pending e).2 = s.pending :=
          websocketMatch_of_ne_created hc
        rcases hm : websocketMatch s.pending e with ⟨_ | q, pending⟩
        · obtain rfl : pending = s.pending := by rw [hm] at hpending; exact hpending
          simp only [WebsocketState.text, hr, ht, hm]
          exact .skip (by rw [hm]) ht
        · obtain rfl : pending = s.pending := by rw [hm] at hpending; exact hpending
          have hmem := mem_of_websocketMatch hc (by rw [hm])
          simp only [WebsocketState.text, hr, ht, hm]
          exact .touch q hmem (by rw [hm]) (fun h => absurd h hc) ht
    · have hterm := (websocketTerminal_eq_some ht).2
      have hpending := websocketMatch_of_terminal (l := s.pending) hterm
      rcases hm : websocketMatch s.pending e with ⟨matched, pending⟩
      obtain rfl : pending = s.pending := by rw [hm] at hpending; exact hpending
      simp only [WebsocketState.text, hr, ht, hm]
      exact .terminal r matched hr ht
  · obtain ⟨hmem, hnil⟩ := replayTarget_eq_some hr
    obtain ⟨hterm, hcond⟩ := filter_eq_some_iff.mp hr
    simp only [Bool.and_eq_true, Bool.not_eq_true', decide_eq_true_eq] at hcond
    obtain ⟨q, honly⟩ := length_eq_one_iff.mp hcond.2
    obtain rfl : r = q := mem_singleton.mp (honly ▸ hmem)
    simp only [WebsocketState.text, hr, hnil]
    exact .replay r honly hr hcond.1.2

theorem text_requestIds (s : WebsocketState) (e : UpstreamEvent) :
    (s.text e).requestIds = s.requestIds := by
  unfold WebsocketState.text
  split <;> rfl

structure Origin (e : UpstreamEvent) (p q : RequestState) : Prop where
  id : q.requestId = p.requestId
  committed : p.downstreamCommitted = true → q.downstreamCommitted = true
  -- kept, reset for a replay, or given by the event
  response : q.responseId = p.responseId ∨
    (p.downstreamCommitted = false ∧ q.responseId = none) ∨
    (e.type = .created ∧ q.responseId = e.responseId ∧ e.responseId ≠ none ∧
      q.downstreamCommitted = true)
  gate : q.responseId = none → q.gateAcquired = p.gateAcquired

theorem Origin.refl (p : RequestState) : Origin e p p := ⟨rfl, fun h => h, .inl rfl, fun _ => rfl⟩

theorem Origin.commit (p : RequestState) : Origin e p p.commit :=
  ⟨rfl, fun _ => rfl, .inl rfl, fun _ => rfl⟩

section Moves

variable {pending pending' : List RequestState}

theorem TextMove.origin (h : TextMove pending e pending')
    (hu : Unique RequestState.requestId pending) :
    ∀ q ∈ pending', ∃ p ∈ pending, Origin e p q := by
  intro q hq
  cases h with
  | replay r only target unseen =>
    obtain rfl := mem_singleton.mp hq
    exact ⟨r, only ▸ mem_singleton_self r, rfl, fun h => h, .inr (.inl ⟨unseen, rfl⟩),
      fun _ => rfl⟩
  | terminal r matched noReplay target =>
    have hq' := (mem_removeRequest.mp hq).1
    cases matched with
    | none => exact ⟨q, hq', .refl q⟩
    | some m =>
      rcases mem_setRequest hq' with ⟨p, hp, -, rfl⟩ | ⟨hp, -⟩
      · exact ⟨p, hp, .commit p⟩
      · exact ⟨q, hp, .refl q⟩
  | assign id r created eventId unknown first =>
    rcases mem_setRequest hq with ⟨p, hp, -, rfl⟩ | ⟨hp, -⟩
    · exact ⟨p, hp, rfl, fun _ => rfl,
        .inr (.inr ⟨created, eventId.symm, by simp [eventId], rfl⟩), nofun⟩
    · exact ⟨q, hp, .refl q⟩
  | touch m mem matched known noEnd =>
    rcases mem_setRequest hq with ⟨p, hp, hid, rfl⟩ | ⟨hp, -⟩
    · obtain rfl := hu.eq_of_key_eq hp mem hid
      refine ⟨p, hp, rfl, fun _ => rfl, .inl rfl, fun hnone => ?_⟩
      have hne : e.type ≠ .created := fun hc => (known hc).1 hnone
      simp [hne]
    · exact ⟨q, hp, .refl q⟩
  | skip matched noEnd => exact ⟨q, hq, .refl q⟩

theorem TextMove.sublist (h : TextMove pending e pending') :
    (pending'.map RequestState.requestId).Sublist (pending.map RequestState.requestId) := by
  cases h with
  | replay r only target unseen => rw [only]; rfl
  | terminal r matched noReplay target =>
    refine (filter_sublist.map _).trans ?_
    cases matched with
    | none => exact List.Sublist.refl _
    | some m =>
      dsimp only [Option.elim]
      rw [map_requestId_setRequest]
      exact fun _ => rfl
  | assign id r created eventId unknown first =>
    rw [map_requestId_setRequest]
    exact fun _ => rfl
  | touch m mem matched known noEnd =>
    rw [map_requestId_setRequest]
    exact fun _ => rfl
  | skip matched noEnd => exact List.Sublist.refl _

end Moves

end Text

/-! ## Steps -/

def MainPhase.idle (m : MainPhase) : Bool :=
  m.incoming = none && m.own = none && m.sends = none

def SameControl (s s' : WebsocketState) : Prop :=
  (s'.reader = none ∧ s'.replayRequest = none) ∨
    (s'.replayRequest = s.replayRequest ∧ (s'.reader = none ↔ s.reader = none))

structure Kept (s s' : WebsocketState) : Prop where
  incoming : ∀ r, s'.main.incoming = some r → s.main.incoming = some r
  admitted : ∀ r, s'.main = .admitting r → s.main = .admitting r
  sends : ∀ id, s'.main.sends = some id → s'.main = s.main
  own : ∀ id, s'.main.own = some id →
    s'.main = s.main ∨ (s'.main = .replaying id ∧ s.replayRequest = some id)
  control : SameControl s s'

/-- **What a step does to the deque** and to the request that the main loop works for. -/
inductive DequeMove (s : WebsocketState) (a : WebsocketAct) (s' : WebsocketState) : Prop where
  | leave (p : RequestState → Bool) (pending : s'.pending = s.pending.filter p)
      (ids : s'.requestIds = s.requestIds) (kept : Kept s s')
      (gate : s'.gatePermits + permits s'.pending + s'.main.permit ≤
        s.gatePermits + permits s.pending + s.main.permit)
  | receive (r : RequestState) (act : a = .receive (some r)) (main : s.main = .receiving)
      (fresh : r.requestId ∉ s.requestIds) (eq : s' = { s with
        main := .received (some r), requestIds := r.requestId :: s.requestIds })
  | acquire (r : RequestState) (act : a = .acquire) (main : s.main = .atGate r)
      (free : s.gatePermits ≠ 0) (eq : s' = { s with
        main := .admitting { r with gateAcquired := true }, gatePermits := s.gatePermits - 1 })
  | register (r : RequestState) (act : a = .register) (main : s.main = .admitting r)
      (eq : s' = { s with
        main := if s.reader = none then .connecting r.requestId else .sending (some r.requestId)
        pending := s.pending ++ [r] })
  | connect (id : ℕ) (act : a = .connect) (main : s.main = .connecting id)
      (eq : s' = { s.connect with main := .sending (some id) })
  | replayConnect (id : ℕ) (act : a = .replayConnect) (main : s.main = .replaying id)
      (eq : s' = { s.connect with main := .resending id })
  | text (e : UpstreamEvent) (act : a = .text e) (reader : s.reader = some .receiving)
      (eq : s' = s.text e)

theorem MainPhase.permit_of_incoming {m : MainPhase} (h : m.incoming = none) : m.permit = 0 := by
  cases m with
  | admitting r => cases h
  | _ => rfl

section Moves

variable {s s' : WebsocketState} {a : WebsocketAct}

theorem Kept.permit_le (h : Kept s s') : s'.main.permit ≤ s.main.permit := by
  rcases hm : s'.main with _ | _ | _ | _ | _ | _ | r
  case admitting => rw [h.admitted r hm]
  all_goals exact Nat.zero_le _

theorem SameControl.of_eq (hreader : s'.reader = s.reader)
    (hreplay : s'.replayRequest = s.replayRequest) : SameControl s s' :=
  .inr ⟨hreplay, by rw [hreader]⟩

theorem SameControl.ofReader (hreader : s.reader ≠ none) (hreader' : s'.reader ≠ none)
    (hreplay : s'.replayRequest = s.replayRequest) : SameControl s s' :=
  .inr ⟨hreplay, by simp [hreader, hreader']⟩

theorem Kept.ofIdle (hm : s'.main.idle = true) (hc : SameControl s s') : Kept s s' := by
  simp only [MainPhase.idle, Bool.and_eq_true, decide_eq_true_eq] at hm
  obtain ⟨⟨hincoming, hown⟩, hsends⟩ := hm
  refine ⟨fun r hr => ?_, fun r hr => ?_, fun id hid => ?_, fun id hid => ?_, hc⟩
  · rw [hincoming] at hr
    cases hr
  · rw [hr] at hincoming
    cases hincoming
  · rw [hsends] at hid
    cases hid
  · rw [hown] at hid
    cases hid

theorem Kept.ofMain (hm : s'.main = s.main) (hc : SameControl s s') : Kept s s' :=
  ⟨fun _ hr => hm ▸ hr, fun _ hr => hm ▸ hr, fun _ _ => hm, fun _ _ => .inl hm, hc⟩

theorem Kept.ofTaken {r : RequestState} (hr : s.main.incoming = some r)
    (hm : s'.main = .preparing r ∨ s'.main = .joining r ∨ s'.main = .atGate r)
    (hc : SameControl s s') : Kept s s' := by
  rcases hm with hm | hm | hm
  all_goals
    refine ⟨fun q hq => ?_, fun q hq => ?_, fun id hid => ?_, fun id hid => ?_, hc⟩
    · rw [hm] at hq
      cases hq
      exact hr
    · rw [hm] at hq
      cases hq
    · rw [hm] at hid
      cases hid
    · rw [hm] at hid
      cases hid

theorem Kept.takeUp {id : ℕ} (hid : s.replayRequest = some id) :
    Kept s { s.disconnect with main := .replaying id } := by
  refine ⟨nofun, nofun, nofun, ?_, .inl ⟨rfl, rfl⟩⟩
  rintro i ⟨⟩
  exact .inr ⟨rfl, hid⟩

theorem DequeMove.keep (hpending : s'.pending = s.pending) (hids : s'.requestIds = s.requestIds)
    (hgate : s'.gatePermits = s.gatePermits) (hkept : Kept s s') : DequeMove s a s' := by
  have hle := hkept.permit_le
  refine .leave (fun _ => true) (by simpa using hpending) hids hkept ?_
  rw [hpending, hgate]
  omega

theorem DequeMove.clear (hpending : s'.pending = []) (hids : s'.requestIds = s.requestIds)
    (hgate : s'.gatePermits = s.gatePermits + permits s.pending) (hkept : Kept s s') :
    DequeMove s a s' := by
  have hle := hkept.permit_le
  have hnil : permits [] = 0 := rfl
  refine .leave (fun _ => false) (by simpa using hpending) hids hkept ?_
  rw [hpending, hgate]
  omega

theorem DequeMove.finish (hs : s' = s.finish) : DequeMove s a s' := by
  subst hs
  exact .clear rfl rfl rfl (.ofIdle rfl (.inl ⟨rfl, rfl⟩))

theorem DequeMove.drop {id : ℕ} (hs : s' = { s.drop id with main := .top }) : DequeMove s a s' := by
  subst hs
  have hsum := permits_removeRequest id s.pending
  have htop : MainPhase.top.permit = 0 := rfl
  refine .leave (·.requestId ≠ id) rfl rfl (.ofIdle rfl (.of_eq rfl rfl)) ?_
  dsimp only [WebsocketState.drop]
  omega

theorem DequeMove.pollReader {next : WebsocketState → WebsocketState}
    (hs : s' = s.pollReader next)
    (hnext : ∀ t, t.pending = s.pending → t.requestIds = s.requestIds →
      t.gatePermits = s.gatePermits → t.main = s.main → SameControl s t →
      (next t).pending = s.pending ∧ (next t).requestIds = s.requestIds ∧
        (next t).gatePermits = s.gatePermits ∧ Kept s (next t)) : DequeMove s a s' := by
  subst hs
  unfold WebsocketState.pollReader
  split
  · exact .finish rfl
  · split
    · next id hid => exact .keep rfl rfl rfl (.takeUp hid)
    · obtain ⟨hpending, hids, hgate, hkept⟩ :=
        hnext s.disconnect rfl rfl rfl rfl (.inl ⟨rfl, rfl⟩)
      exact .keep hpending hids hgate hkept
  · obtain ⟨hpending, hids, hgate, hkept⟩ := hnext s rfl rfl rfl rfl (.of_eq rfl rfl)
    exact .keep hpending hids hgate hkept

theorem accept_kept {t : WebsocketState} {m : Option RequestState} (hmain : s.main = .received m)
    (hc : SameControl s t) : Kept s (t.accept m) := by
  cases m with
  | none =>
    refine .ofIdle ?_ hc
    dsimp only [WebsocketState.accept]
    split <;> rfl
  | some r => exact .ofTaken (by rw [hmain]; rfl) (.inl rfl) hc

theorem mainStep_move (ha : a ≠ .resendFailed) (hs : mainStep s a s.main = some s') :
    DequeMove s a s' := by
  unfold mainStep at hs
  split at hs
  · -- loop
    refine .pollReader (some.inj hs).symm fun t hp hi hg _ hc => ?_
    exact ⟨hp, hi, hg, .ofIdle rfl hc⟩
  · -- poll
    cases hs
    exact .keep rfl rfl rfl (.ofIdle rfl (.of_eq rfl rfl))
  · -- receive
    cases hs
    exact .keep rfl rfl rfl (.ofIdle rfl (.of_eq rfl rfl))
  · next r hmain =>
    split at hs
    · cases hs
    · next hfresh =>
      cases hs
      exact .receive r rfl hmain (fun h => hfresh (.inl h)) rfl
  · -- accept
    next m hmain =>
    refine .pollReader (some.inj hs).symm fun t hp hi hg _ hc => ?_
    have hkept : Kept s (t.accept m) := accept_kept hmain hc
    cases m with
    | none => exact ⟨hp, hi, hg, hkept⟩
    | some r => exact ⟨hp, hi, hg, hkept⟩
  · -- prepare
    next r hmain =>
    split at hs
    · cases hs
      exact .keep rfl rfl rfl (.ofTaken (by rw [hmain]; rfl) (.inr (.inl rfl)) (.of_eq rfl rfl))
    · cases hs
      exact .keep rfl rfl rfl (.ofTaken (by rw [hmain]; rfl) (.inr (.inr rfl)) (.of_eq rfl rfl))
  · -- prepareFailed
    cases hs
    exact .keep rfl rfl rfl (.ofIdle rfl (.of_eq rfl rfl))
  · -- join
    next r hmain =>
    split at hs
    · exact .finish (some.inj hs).symm
    · cases hs
      exact .keep rfl rfl rfl (.ofTaken (by rw [hmain]; rfl) (.inr (.inr rfl)) (.inl ⟨rfl, rfl⟩))
    · cases hs
  · -- acquire
    next r hmain =>
    split at hs
    · cases hs
    · next hfree => exact .acquire r rfl hmain hfree (some.inj hs).symm
  · -- refuse
    next r hmain =>
    cases hs
    refine .leave (fun _ => true) (by simp) rfl (.ofIdle rfl (.of_eq rfl rfl)) ?_
    have hpermit : s.main.permit = r.permit := by rw [hmain]; rfl
    have htop : MainPhase.top.permit = 0 := rfl
    dsimp only
    omega
  · -- register
    next r hmain => exact .register r rfl hmain (some.inj hs).symm
  · -- connect
    next id hmain => exact .connect id rfl hmain (some.inj hs).symm
  · -- connectFailed
    exact .drop (some.inj hs).symm
  · -- send
    split at hs
    · cases hs
      exact .keep rfl rfl rfl (.ofIdle rfl (.of_eq rfl rfl))
    · cases hs
  · -- sendFailed
    cases hs
    exact .clear rfl rfl rfl (.ofIdle rfl (.of_eq rfl rfl))
  · -- recover
    cases hs
    exact .keep rfl rfl rfl (.ofIdle rfl (.inl ⟨rfl, rfl⟩))
  · -- replayConnect
    next id hmain => exact .replayConnect id rfl hmain (some.inj hs).symm
  · -- replayConnectFailed
    exact .drop (some.inj hs).symm
  · -- resend
    split at hs
    · cases hs
      exact .keep rfl rfl rfl (.ofIdle rfl (.of_eq rfl rfl))
    · cases hs
  · -- resendFailed
    exact absurd rfl ha
  · -- leave
    split at hs
    · cases hs
    · exact .finish (some.inj hs).symm
  · cases hs

theorem readerStep_move {phase : ReaderPhase} (hphase : s.reader = some phase)
    (hs : readerStep s a phase = some s') : DequeMove s a s' := by
  have hreader : s.reader ≠ none := by rw [hphase]; nofun
  unfold readerStep at hs
  split at hs
  · -- text
    next e => exact .text e rfl hphase (some.inj hs).symm
  · -- settle
    cases hs
    exact .keep rfl rfl rfl (.ofMain rfl (.ofReader hreader nofun rfl))
  · -- check
    split at hs
    all_goals
      cases hs
      exact .keep rfl rfl rfl (.ofMain rfl (.ofReader hreader nofun rfl))
  · -- idleTimeout
    cases hs
    exact .clear rfl rfl rfl (.ofMain rfl (.ofReader hreader nofun rfl))
  · -- budgetTimeout
    next expired =>
    cases hs
    have hsum := permits_filter_add (·.requestId ∈ expired) s.pending
    refine .leave (·.requestId ∉ expired) rfl rfl (.ofMain rfl (.of_eq rfl rfl)) ?_
    simp only [WebsocketState.failExpired, decide_not]
    omega
  · -- upstreamClosed
    cases hs
    exact .clear rfl rfl rfl (.ofMain rfl (.ofReader hreader nofun rfl))
  · -- failed
    cases hs
    exact .keep rfl rfl rfl (.ofMain rfl (.ofReader hreader nofun rfl))
  · -- close
    cases hs
    exact .keep rfl rfl rfl (.ofMain rfl (.ofReader hreader nofun rfl))
  · -- raised
    split at hs
    · cases hs
      exact .keep rfl rfl rfl (.ofMain rfl (.ofReader hreader nofun rfl))
    · cases hs
  · cases hs

/-- **Every step but a failed re-send** moves the deque as `DequeMove` says. -/
theorem websocketStep_move (ha : a ≠ .resendFailed) (hs : websocketStep s a = some s') :
    DequeMove s a s' := by
  rw [websocketStep] at hs
  split at hs
  · obtain ⟨phase, hphase, hstep⟩ := bind_eq_some_iff.mp hs
    exact readerStep_move hphase hstep
  · exact mainStep_move ha hs

end Moves

/-! ### The steps that the history tells apart -/

section Inversion

variable {s s' : WebsocketState}

theorem websocketStep_text {e : UpstreamEvent} (h : websocketStep s (.text e) = some s') :
    s.reader = some .receiving ∧ s' = s.text e := by
  obtain ⟨phase, hphase, hstep⟩ := bind_eq_some_iff.mp h
  cases phase with
  | receiving => exact ⟨hphase, (some.inj hstep).symm⟩
  | _ => cases hstep

theorem websocketStep_settle (h : websocketStep s .settle = some s') :
    s.reader ≠ none ∧
      ∃ b, s' = { s with reader := some .checking, reconnectRequested := b } := by
  obtain ⟨phase, hphase, hstep⟩ := bind_eq_some_iff.mp h
  cases phase with
  | settling penalize => exact ⟨by rw [hphase]; nofun, _, (some.inj hstep).symm⟩
  | _ => cases hstep

theorem websocketStep_send (h : websocketStep s .send = some s') :
    ∃ id, s.main = .sending id ∧ s' = { s with main := .top } := by
  have hstep : mainStep s .send s.main = some s' := h
  rcases hm : s.main
  case sending id =>
    rw [hm] at hstep
    dsimp only [mainStep] at hstep
    split at hstep
    · exact ⟨id, rfl, (some.inj hstep).symm⟩
    · cases hstep
  all_goals
    rw [hm] at hstep
    cases hstep

theorem websocketStep_resend (h : websocketStep s .resend = some s') :
    ∃ id, s.main = .resending id ∧ s' = { s with main := .top } := by
  have hstep : mainStep s .resend s.main = some s' := h
  rcases hm : s.main
  case resending id =>
    rw [hm] at hstep
    dsimp only [mainStep] at hstep
    split at hstep
    · exact ⟨id, rfl, (some.inj hstep).symm⟩
    · cases hstep
  all_goals
    rw [hm] at hstep
    cases hstep

theorem websocketStep_connect (h : websocketStep s .connect = some s') :
    ∃ id, s.main = .connecting id ∧ s' = { s.connect with main := .sending (some id) } := by
  have hstep : mainStep s .connect s.main = some s' := h
  rcases hm : s.main
  case connecting id =>
    rw [hm] at hstep
    exact ⟨id, rfl, (some.inj hstep).symm⟩
  all_goals
    rw [hm] at hstep
    cases hstep

theorem websocketStep_replayConnect (h : websocketStep s .replayConnect = some s') :
    ∃ id, s.main = .replaying id ∧ s' = { s.connect with main := .resending id } := by
  have hstep : mainStep s .replayConnect s.main = some s' := h
  rcases hm : s.main
  case replaying id =>
    rw [hm] at hstep
    exact ⟨id, rfl, (some.inj hstep).symm⟩
  all_goals
    rw [hm] at hstep
    cases hstep

end Inversion

/-! ## Steps with their history -/

/-- **What a step of the relay does.** -/
inductive RelayMove (accounts : Finset String) (s : RelayState) (a : RelayAct)
    (s' : RelayState) : Prop where
  | text (source : ℕ) (e : UpstreamEvent) (u : UpstreamResponse) (act : a = .text source e)
      (mem : lookup UpstreamResponse.owner s.inflight source = some u)
      (may : mayAnswer s.created u e = true) (reader : s.ws.reader = some .receiving)
      (eq : s' = { s.afterText source e with
        ws := s.ws.text e, history := s.textEvents source e ++ s.history })
  | connect (id : ℕ) (account : String) (m : MainPhase)
      (main : (s.ws.main = .connecting id ∧ m = .sending (some id)) ∨
        (s.ws.main = .replaying id ∧ m = .resending id))
      (mem : account ∈ accounts) (allowed : (id, account) ∉ s.excluded) (eq : s' = { s with
        ws := { s.ws.connect with main := m }
        account := account
        inflight := []
        forwarding := none })
  | sent (id : ℕ) (main : s.ws.main = .sending (some id) ∨ s.ws.main = .resending id)
      (eq : s' = { s with
        ws := { s.ws with main := .top }
        inflight := s.inflight ++ [⟨id, none⟩]
        history := .sent id s.account :: s.history })
  | receive (r : RequestState) (act : a = .other (.receive (some r)))
      (main : s.ws.main = .receiving) (fresh : r.requestId ∉ s.ws.requestIds)
      (eq : s' = { s with ws := { s.ws with
        main := .received (some r), requestIds := r.requestId :: s.ws.requestIds } })
  | acquire (r : RequestState) (main : s.ws.main = .atGate r) (eq : s' = { s with
        ws := { s.ws with
          main := .admitting { r with gateAcquired := true }
          gatePermits := s.ws.gatePermits - 1 } })
  | register (r : RequestState) (main : s.ws.main = .admitting r) (eq : s' = { s with
        ws := { s.ws with
          main := if s.ws.reader = none then .connecting r.requestId else
            .sending (some r.requestId)
          pending := s.ws.pending ++ [r] } })
  | settle (reconnect : Bool) (eq : s' = { s with
        ws := { s.ws with reader := some .checking, reconnectRequested := reconnect }
        forwarding := none
        history := s.forwarding.toList.map (fun x => .forwarded x.1 x.2) ++ s.history })
      (reader : s.ws.reader ≠ none)
  | leave (ws : WebsocketState) (step : websocketStep s.ws a.act = some ws)
      (p : RequestState → Bool) (pending : ws.pending = s.ws.pending.filter p)
      (ids : ws.requestIds = s.ws.requestIds) (kept : Kept s.ws ws)
      (eq : s' = { s with
        ws := ws, history := (s.ws.failedBy a.act).map .failed ++ s.history })

section Relay

variable {accounts : Finset String} {s s' : RelayState} {a : RelayAct}

theorem relayStep_eq_some (h : relayStep accounts s a = some s') :
    s.enabled accounts a = true ∧ ∃ ws, websocketStep s.ws a.act = some ws ∧
      s' = { s.after a with ws := ws, history := s.events a ++ s.history } := by
  rw [relayStep] at h
  split at h
  · next henabled =>
    obtain ⟨ws, hstep, heq⟩ := map_eq_some_iff.mp h
    exact ⟨henabled, ws, hstep, heq.symm⟩
  · cases h

theorem maySelect_of_own {account : String} {id : ℕ} (h : s.maySelect accounts account = true)
    (hown : s.ws.main.own = some id) : account ∈ accounts ∧ (id, account) ∉ s.excluded := by
  simpa [RelayState.maySelect, hown] using h

theorem otherStep_move {b : WebsocketAct} {ws : WebsocketState} (hb : b ≠ .resendFailed)
    (henabled : s.enabled accounts (.other b) = true) (hstep : websocketStep s.ws b = some ws)
    (hs : s' = { s with ws := ws, history := (s.ws.failedBy b).map .failed ++ s.history }) :
    RelayMove accounts s (.other b) s' := by
  cases websocketStep_move hb hstep with
  | leave p pending ids kept gate => exact .leave ws hstep p pending ids kept hs
  | receive r act main fresh eq =>
    subst act eq
    exact .receive r rfl main fresh hs
  | acquire r act main free eq =>
    subst act eq
    exact .acquire r main hs
  | register r act main eq =>
    subst act eq
    exact .register r main hs
  | connect id act main eq =>
    subst act
    cases henabled
  | replayConnect id act main eq =>
    subst act
    cases henabled
  | text e act reader eq =>
    subst act
    cases henabled

/-- **Every step but a failed re-send** is one of `RelayMove`. -/
theorem relayStep_move (ha : a ≠ .other .resendFailed) (h : relayStep accounts s a = some s') :
    RelayMove accounts s a s' := by
  obtain ⟨henabled, ws, hstep, hs⟩ := relayStep_eq_some h
  cases a with
  | text source e =>
    obtain ⟨hreader, rfl⟩ := websocketStep_text hstep
    obtain ⟨u, hu, hmay⟩ := (any_eq_true _ _).mp henabled
    exact .text source e u rfl hu hmay hreader hs
  | connect account =>
    obtain ⟨id, hmain, rfl⟩ := websocketStep_connect hstep
    obtain ⟨hmem, hallowed⟩ := maySelect_of_own henabled (by rw [hmain]; rfl)
    exact .connect id account _ (.inl ⟨hmain, rfl⟩) hmem hallowed hs
  | replayConnect account =>
    obtain ⟨id, hmain, rfl⟩ := websocketStep_replayConnect hstep
    obtain ⟨hmem, hallowed⟩ := maySelect_of_own henabled (by rw [hmain]; rfl)
    exact .connect id account _ (.inr ⟨hmain, rfl⟩) hmem hallowed hs
  | other b =>
    have hb : b ≠ .resendFailed := fun heq => ha (by rw [heq])
    cases b with
    | settle =>
      obtain ⟨hreader, b, rfl⟩ := websocketStep_settle hstep
      exact .settle b hs hreader
    | send =>
      obtain ⟨id, hmain, rfl⟩ := websocketStep_send hstep
      cases id with
      | none =>
        refine otherStep_move hb henabled hstep ?_
        simpa [RelayState.after, RelayState.events, WebsocketState.failedBy, hmain,
          MainPhase.sends] using hs
      | some id =>
        refine .sent id (.inl hmain) ?_
        simpa [RelayState.after, RelayState.events, hmain, MainPhase.sends] using hs
    | resend =>
      obtain ⟨id, hmain, rfl⟩ := websocketStep_resend hstep
      refine .sent id (.inr hmain) ?_
      simpa [RelayState.after, RelayState.events, hmain, MainPhase.sends] using hs
    | _ => exact otherStep_move hb henabled hstep hs

/-! ### Requests before and after a step -/

theorem RelayMove.pending (h : RelayMove accounts s a s')
    (hu : Unique RequestState.requestId s.ws.pending) :
    ∀ q ∈ s'.ws.pending, (∃ p ∈ s.ws.pending, q.requestId = p.requestId ∧
      (p.downstreamCommitted = true → q.downstreamCommitted = true)) ∨
        s.ws.main.incoming = some q := by
  intro q hq
  cases h with
  | text source e u act mem may reader eq =>
    subst eq
    obtain ⟨p, hp, horig⟩ := (text_move s.ws e).origin hu q hq
    exact .inl ⟨p, hp, horig.id, horig.committed⟩
  | register r main eq =>
    subst eq
    rcases mem_append.mp hq with hq | hq
    · exact .inl ⟨q, hq, rfl, id⟩
    · obtain rfl := mem_singleton.mp hq
      exact .inr (by rw [main]; rfl)
  | leave ws step p pending ids kept eq =>
    subst eq
    exact .inl ⟨q, mem_of_mem_filter (pending ▸ hq), rfl, id⟩
  | connect _ _ _ _ _ _ eq | sent _ _ eq | receive _ _ _ _ eq | acquire _ _ eq | settle _ eq _ =>
    subst eq
    exact .inl ⟨q, hq, rfl, id⟩

theorem RelayMove.incoming (h : RelayMove accounts s a s') :
    ∀ r, s'.ws.main.incoming = some r →
      (∃ q, s.ws.main.incoming = some q ∧ q.requestId = r.requestId) ∨
        r.requestId ∉ s.ws.requestIds := by
  intro r hr
  cases h with
  | text source e u act mem may reader eq =>
    subst eq
    dsimp only at hr
    rw [(WebsocketState.text_spec s.ws e).main] at hr
    exact .inl ⟨r, hr, rfl⟩
  | connect i account m main mem allowed eq =>
    subst eq
    rcases main with ⟨-, rfl⟩ | ⟨-, rfl⟩
    all_goals cases hr
  | sent i main eq =>
    subst eq
    cases hr
  | receive q act main fresh eq =>
    subst eq
    cases hr
    exact .inr fresh
  | acquire q main eq =>
    subst eq
    cases hr
    exact .inl ⟨q, by rw [main]; rfl, rfl⟩
  | register q main eq =>
    subst eq
    dsimp only at hr
    split at hr
    all_goals cases hr
  | settle reconnect eq reader =>
    subst eq
    exact .inl ⟨r, hr, rfl⟩
  | leave ws step p pending ids kept eq =>
    subst eq
    exact .inl ⟨r, kept.incoming r hr, rfl⟩

theorem RelayMove.known (h : RelayMove accounts s a s') {id : ℕ} (hid : id ∈ s.ws.requestIds) :
    id ∈ s'.ws.requestIds := by
  cases h with
  | text source e u act mem may reader eq =>
    subst eq
    rwa [← text_requestIds s.ws e] at hid
  | receive r act main fresh eq =>
    subst eq
    exact mem_cons_of_mem _ hid
  | leave ws step p pending ids kept eq =>
    subst eq
    rwa [← ids] at hid
  | connect _ _ _ _ _ _ eq | sent _ _ eq | acquire _ _ eq | register _ _ eq | settle _ eq _ =>
    subst eq
    exact hid

end Relay

end CodexOctopus

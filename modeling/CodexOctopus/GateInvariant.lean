import CodexOctopus.GateHolders

/-!
# Who may hold the create gate, by phases

The invariant behind the liveness of the create gate: for each phase of the main loop and of
the reader, `GateInv` says which pending request may hold the gate when the reader takes no
more events. One lemma per kind of step of the main loop says how it is kept.
-/

namespace CodexOctopus

/-! ## Phases -/

def MainPhase.beforeRegister : MainPhase → Bool
  | .preparing _ | .joining _ | .atGate _ | .admitting _ => true
  | _ => false

/-- The main loop will wait for the gate without looking at the reader again. -/
def MainPhase.bound : MainPhase → Bool
  | .preparing _ | .atGate _ => true
  | _ => false

/-- The reader takes no more events, and has not raised: a request left in the deque gets no
answer any more. -/
def readerGone : Option ReaderPhase → Bool
  | none | some (.failing _) | some .closing | some (.done false) => true
  | _ => false

def readerClosed : Option ReaderPhase → Bool
  | none | some (.failing false) | some (.done false) => true
  | _ => false

namespace MainPhase

def own : MainPhase → Option ℕ
  | .connecting id | .sending (some id) | .replaying id => some id
  | _ => none

def permit : MainPhase → ℕ
  | .admitting r => r.permit
  | _ => 0

def opening : MainPhase → Bool
  | .connecting _ | .replaying _ => true
  | _ => false

def plain : MainPhase → Bool
  | .top | .receiving | .received _ | .sending none | .ended => true
  | _ => false

theorem plain_cases {m : MainPhase} (h : m.plain = true) :
    m = .top ∨ m = .receiving ∨ (∃ r, m = .received r) ∨ m = .sending none ∨ m = .ended := by
  unfold plain at h
  split at h <;> simp_all

end MainPhase

/-! ## The invariant -/

structure GateInv (main : MainPhase) (reader : Option ReaderPhase) (upstreamOpen : Bool)
    (replayRequest : Option ℕ) (pending : List RequestState) (gatePermits : ℕ) : Prop where
  gate : gatePermits + permits pending + main.permit ≤ 1
  admitted : ∀ r, main = .admitting r → r.gateAcquired = true
  -- a request queued for replay leaves the gate to no other
  replay : ∀ id, replayRequest = some id → HeldOnly pending (some id)
  -- without a reader, only the request that the main loop works for
  gone : readerGone reader = true → replayRequest = none → HeldOnly pending main.own
  before : main.beforeRegister = true → replayRequest = none
  raised : main.bound = true → reader = some (.done true) → HeldOnly pending none
  noReader : reader = none → replayRequest = none
  opening : main.opening = true → reader = none
  resending : ∀ id, main = .resending id → HeldOnly pending (some id)
  failing : main = .failing → HeldOnly pending none
  closed : readerClosed reader = true → upstreamOpen = false

/-! ## Steps of the main loop -/

namespace GateInv

variable {main m : MainPhase} {reader : Option ReaderPhase} {upstreamOpen : Bool}
  {replayRequest : Option ℕ} {pending : List RequestState} {gatePermits : ℕ}

theorem ofPlain (hm : m.plain = true) (hgate : gatePermits + permits pending ≤ 1)
    (hreplay : ∀ id, replayRequest = some id → HeldOnly pending (some id))
    (hgone : readerGone reader = true → replayRequest = none → HeldOnly pending none)
    (hreader : reader = none → replayRequest = none)
    (hclosed : readerClosed reader = true → upstreamOpen = false) :
    GateInv m reader upstreamOpen replayRequest pending gatePermits := by
  rcases MainPhase.plain_cases hm with rfl | rfl | ⟨r, rfl⟩ | rfl | rfl
  all_goals exact {
    gate := hgate
    admitted := nofun
    replay := hreplay
    gone := hgone
    before := nofun
    raised := nofun
    noReader := hreader
    opening := nofun
    resending := nofun
    failing := nofun
    closed := hclosed }

section

variable (h : GateInv main reader upstreamOpen replayRequest pending gatePermits)
include h

theorem toPlain (hm : m.plain = true)
    (hgone : readerGone reader = true → replayRequest = none → HeldOnly pending none) :
    GateInv m reader upstreamOpen replayRequest pending gatePermits :=
  ofPlain hm (Nat.le_of_add_right_le h.gate) h.replay hgone h.noReader h.closed

theorem toPlain_of_own (hm : m.plain = true) (hown : main.own = none) :
    GateInv m reader upstreamOpen replayRequest pending gatePermits :=
  h.toPlain hm fun hg hr => hown ▸ h.gone hg hr

end

variable {r : RequestState} {id : ℕ}

theorem toWaiting (h : GateInv main reader upstreamOpen replayRequest pending gatePermits)
    (hm : m = .preparing r ∨ m = .joining r ∨ m = .atGate r) (hown : main.own = none)
    (hnone : replayRequest = none)
    (hraised : m.bound = true → reader = some (.done true) → HeldOnly pending none) :
    GateInv m reader upstreamOpen replayRequest pending gatePermits := by
  have hgone : readerGone reader = true → replayRequest = none → HeldOnly pending none :=
    fun hg hr => hown ▸ h.gone hg hr
  rcases hm with rfl | rfl | rfl
  all_goals exact { h with
    gate := Nat.le_of_add_right_le h.gate
    admitted := nofun
    gone := hgone
    before := fun _ => hnone
    raised := hraised
    opening := nofun
    resending := nofun
    failing := nofun }

theorem acquire (h : GateInv (.atGate r) reader upstreamOpen replayRequest pending gatePermits)
    (hfree : gatePermits ≠ 0) :
    GateInv (.admitting { r with gateAcquired := true }) reader upstreamOpen replayRequest pending
      (gatePermits - 1) := { h with
  gate := by
    have hgate : gatePermits + permits pending + 0 ≤ 1 := h.gate
    have hone : (MainPhase.admitting { r with gateAcquired := true }).permit = 1 := rfl
    omega
  admitted := by
    rintro q ⟨⟩
    rfl
  before _ := h.before rfl
  raised := nofun
  opening := nofun
  resending := nofun
  failing := nofun }

theorem refuse (h : GateInv (.admitting r) reader upstreamOpen replayRequest pending gatePermits) :
    GateInv .top reader upstreamOpen replayRequest pending (gatePermits + r.permit) := by
  have hgate : gatePermits + permits pending + r.permit ≤ 1 := h.gate
  exact ofPlain rfl (by omega) h.replay h.gone h.noReader h.closed

section

variable (h : GateInv main reader upstreamOpen replayRequest pending gatePermits)
include h

theorem disconnect (hheld : HeldOnly pending main.own) :
    GateInv main none false none pending gatePermits :=
  { h with
    replay := nofun
    gone _ _ := hheld
    before _ := rfl
    raised := nofun
    noReader _ := rfl
    opening _ := rfl
    closed _ := rfl }

theorem clear :
    GateInv main reader upstreamOpen replayRequest [] (gatePermits + permits pending) := { h with
  replay _ _ := heldOnly_nil
  gone _ _ := heldOnly_nil
  raised _ _ := heldOnly_nil
  resending _ _ := heldOnly_nil
  failing _ := heldOnly_nil }

end

theorem fail (h : GateInv main reader upstreamOpen replayRequest [] gatePermits) :
    GateInv .failing reader upstreamOpen replayRequest [] gatePermits := { h with
  gate := Nat.le_of_add_right_le h.gate
  admitted := nofun
  gone _ _ := heldOnly_nil
  before := nofun
  raised := nofun
  opening := nofun
  resending := nofun
  failing _ := heldOnly_nil }

section

variable (h : GateInv main reader upstreamOpen replayRequest pending gatePermits)
include h

theorem replay_queued (hid : replayRequest = some id) :
    GateInv (.replaying id) none false none pending gatePermits where
  gate := Nat.le_of_add_right_le h.gate
  admitted := nofun
  replay := nofun
  gone _ _ := h.replay id hid
  before := nofun
  raised := nofun
  noReader _ := rfl
  opening _ := rfl
  resending := nofun
  failing := nofun
  closed _ := rfl

theorem connect (hm : (∃ id, m = .sending (some id)) ∨ ∃ id, m = .resending id)
    (hheld : ∀ id, m = .resending id → HeldOnly pending (some id)) :
    GateInv m (some .receiving) true none pending gatePermits := by
  rcases hm with ⟨id, rfl⟩ | ⟨id, rfl⟩
  all_goals exact {
    gate := Nat.le_of_add_right_le h.gate
    admitted := nofun
    replay := nofun
    gone := nofun
    before := nofun
    raised := nofun
    noReader := nofun
    opening := nofun
    resending := hheld
    failing := nofun
    closed := nofun }

end

theorem register (h : GateInv (.admitting r) reader upstreamOpen replayRequest pending gatePermits)
    (hm : m = .connecting r.requestId ∨ m = .sending (some r.requestId))
    (hopen : m.opening = true → reader = none) :
    GateInv m reader upstreamOpen replayRequest (pending ++ [r]) gatePermits := by
  have hgate : gatePermits + permits pending + r.permit ≤ 1 := h.gate
  have hr : r.gateAcquired = true := h.admitted r rfl
  have hone : r.permit = 1 := by simp [RequestState.permit, hr]
  have hsum : permits (pending ++ [r]) = permits pending + r.permit := by simp [permits]
  have hheld : HeldOnly (pending ++ [r]) (some r.requestId) := by
    intro q hq hg
    rcases List.mem_append.mp hq with hq | hq
    · exact (heldOnly_of_permits_eq_zero (by omega)).of_none q hq hg
    · rw [List.mem_singleton.mp hq]
  have hle : gatePermits + permits (pending ++ [r]) + 0 ≤ 1 := by omega
  have hnone : replayRequest = none := h.before rfl
  subst hnone
  rcases hm with rfl | rfl
  all_goals exact { h with
    gate := hle
    admitted := by rintro _ ⟨⟩
    replay := by rintro _ ⟨⟩
    gone := fun _ _ => hheld
    before := by rintro ⟨⟩
    raised := by rintro ⟨⟩
    opening := hopen
    resending := by rintro _ ⟨⟩
    failing := by rintro ⟨⟩ }

theorem dropOwn (h : GateInv main reader upstreamOpen replayRequest pending gatePermits)
    (hopen : main.opening = true) (hown : main.own = some id) :
    GateInv .top reader upstreamOpen replayRequest (removeRequest id pending)
      (gatePermits + permits (pending.filter (·.requestId = id))) := by
  obtain rfl := h.opening hopen
  obtain rfl := h.noReader rfl
  have hheld : HeldOnly (removeRequest id pending) none :=
    HeldOnly.removeRequest (hown ▸ h.gone rfl rfl)
  have hgate := h.gate
  have hsum := permits_removeRequest id pending
  exact ofPlain rfl (by omega) nofun (fun _ _ => hheld) h.noReader h.closed

theorem resendFailed
    (h : GateInv (.resending id) reader upstreamOpen replayRequest pending gatePermits) :
    GateInv .top none false none (setRequest id ({ · with gateAcquired := false }) pending)
      (gatePermits + permits (pending.filter (·.requestId = id))) := by
  have hheld := HeldOnly.release (h.resending id rfl)
  have hgate : gatePermits + permits pending + 0 ≤ 1 := h.gate
  have hsum := permits_removeRequest id pending
  have hreleased : permits (setRequest id ({ · with gateAcquired := false }) pending) =
      permits (removeRequest id pending) := permits_setRequest_released (fun _ => rfl) pending
  exact ofPlain rfl (by omega) nofun (fun _ _ => hheld) (fun _ => rfl) fun _ => rfl

end GateInv

end CodexOctopus

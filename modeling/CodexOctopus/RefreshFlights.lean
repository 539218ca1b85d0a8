import CodexOctopus.Run
import CodexOctopus.Table

/-!
# One refresh per token

`_RefreshSingleflight`: callers of `ensure_fresh` with the same account and the same refresh
token share one task that refreshes the tokens. The body of `run` never waits while it holds its
lock, so a call of it is one step. The health checker refreshes accounts by `refresh_account`
itself and knows nothing of the flights; the scheduler runs one check at a time.

* `SingleFlight`: at most one call to the token endpoint with a key is in flight, and what a
  caller gets is the result of the flight it joined.
-/

namespace CodexOctopus

open List Option Table Lts

/-! ## Flights -/

structure FlightKey where
  accountId : String
  fingerprint : String
  deriving DecidableEq

structure RefreshError where
  code : String
  message : String
  isPermanent : Bool
  deriving DecidableEq

inductive FlightResult : Type where
  | refreshed (account : ℕ)
  | refreshError (error : RefreshError)
  | failed
  | cancelled
  deriving DecidableEq

inductive FlightPhase : Type where
  | created
  | calling
  | answered
  | done (result : FlightResult)
  deriving DecidableEq

structure Flight where
  flightId : ℕ
  key : FlightKey
  phase : FlightPhase

def Flight.isDone (f : Flight) : Bool :=
  match f.phase with
  | .done _ => true
  | _ => false

structure FlightCaller where
  callerId : ℕ
  key : FlightKey
  flightId : ℕ
  deriving DecidableEq

structure Delivery where
  caller : FlightCaller
  result : FlightResult
  deriving DecidableEq

structure RefreshFlights where
  inflight : List (FlightKey × ℕ)
  recentFailures : List (FlightKey × ℤ × RefreshError)
  flights : List Flight
  callers : List FlightCaller
  delivered : List Delivery
  refused : List (ℕ × RefreshError)
  healthCheck : Option FlightKey

def newRefreshFlights : RefreshFlights := ⟨[], [], [], [], [], [], none⟩

namespace RefreshFlights

def flight (s : RefreshFlights) (flightId : ℕ) : Option Flight :=
  lookup Flight.flightId s.flights flightId

def setPhase (s : RefreshFlights) (flightId : ℕ) (phase : FlightPhase) : RefreshFlights :=
  let set (f : Flight) : Flight := { f with phase := phase }
  { s with flights := updateWhere (fun f => f.flightId = flightId) set s.flights }

def purgeStaleVersions (s : RefreshFlights) (key : FlightKey) : RefreshFlights :=
  { s with
    recentFailures := s.recentFailures.filter fun x =>
      !(x.1.accountId = key.accountId && x.1 ≠ key)
    inflight := s.inflight.filter fun x =>
      !(x.1.accountId = key.accountId && x.1 ≠ key && (s.flight x.2).any Flight.isDone) }

def join (s : RefreshFlights) (callerId : ℕ) (key : FlightKey) (flightId : ℕ) : RefreshFlights :=
  { s with callers := s.callers ++ [⟨callerId, key, flightId⟩] }

def launch (s : RefreshFlights) (flightId : ℕ) (key : FlightKey) : RefreshFlights :=
  { s with
    inflight := s.inflight.filter (fun x => x.1 ≠ key) ++ [(key, flightId)]
    flights := s.flights ++ [⟨flightId, key, .created⟩] }

/-- The flight that a caller with this key joins: one that runs, or one that has succeeded and
was not removed yet. -/
def joinable (s : RefreshFlights) (key : FlightKey) : Option Flight :=
  ((lookup Prod.fst s.inflight key).bind fun x => s.flight x.2).filter fun f =>
    match f.phase with
    | .done (.refreshed _) => true
    | .done _ => false
    | _ => true

/-- The last part of `run`: join the flight of the key or create one. -/
def joinOrLaunch (s : RefreshFlights) (callerId flightId : ℕ) (key : FlightKey) : RefreshFlights :=
  match s.joinable key with
  | some f => s.join callerId key f.flightId
  | none => (s.launch flightId key).join callerId key flightId

def run (s : RefreshFlights) (callerId flightId : ℕ) (key : FlightKey) (now : ℤ) :
    RefreshFlights :=
  let s := s.purgeStaleVersions key
  match lookup Prod.fst s.recentFailures key with
  | none => s.joinOrLaunch callerId flightId key
  | some (_, expiresAt, error) =>
    if now < expiresAt then { s with refused := s.refused ++ [(callerId, error)] }
    else
      let s := { s with recentFailures := s.recentFailures.filter fun x => x.1 ≠ key }
      s.joinOrLaunch callerId flightId key

def complete (s : RefreshFlights) (f : Flight) (result : FlightResult) (now ttl : ℤ) :
    RefreshFlights :=
  let failures := s.recentFailures.filter fun x => x.1 ≠ f.key
  { s with
    inflight := s.inflight.filter fun x => x ≠ (f.key, f.flightId)
    recentFailures := match result with
      | .refreshError error =>
        if 0 < ttl then failures ++ [(f.key, now + ttl, error)] else s.recentFailures
      | _ => failures }

end RefreshFlights

inductive FlightAct : Type where
  /-- `ensure_fresh` enters `run`; a task that it creates gets the id -/
  | enter (callerId flightId : ℕ) (key : FlightKey) (now : ℤ)
  | call (flightId : ℕ)
  | answer (flightId : ℕ)
  | finish (flightId : ℕ) (result : FlightResult)
  | complete (flightId : ℕ) (now ttl : ℤ)
  | deliver (callerId : ℕ)
  | abandon (callerId : ℕ)
  /-- `check_once` calls the token endpoint -/
  | check (key : FlightKey)
  | checked

/-- **A step of the process.** -/
def flightStep (s : RefreshFlights) : FlightAct → Option RefreshFlights
  | .enter callerId flightId key now =>
    if (s.flight flightId).isSome ∨ ∃ c ∈ s.callers, c.callerId = callerId then none
    else some (s.run callerId flightId key now)
  | .call flightId =>
    (s.flight flightId).bind fun f =>
      if f.phase = .created then some (s.setPhase flightId .calling) else none
  | .answer flightId =>
    (s.flight flightId).bind fun f =>
      if f.phase = .calling then some (s.setPhase flightId .answered) else none
  | .finish flightId result =>
    (s.flight flightId).bind fun f =>
      if f.phase = .created ∨ f.phase = .answered then some (s.setPhase flightId (.done result))
      else none
  | .complete flightId now ttl =>
    (s.flight flightId).bind fun f =>
      match f.phase with
      | .done result => some (s.complete f result now ttl)
      | _ => none
  | .deliver callerId =>
    (lookup FlightCaller.callerId s.callers callerId).bind fun c =>
      (s.flight c.flightId).bind fun f =>
        match f.phase with
        | .done result =>
          some { s with
            callers := s.callers.filter fun x => x.callerId ≠ callerId
            delivered := s.delivered ++ [⟨c, result⟩] }
        | _ => none
  | .abandon callerId =>
    some { s with callers := s.callers.filter fun x => x.callerId ≠ callerId }
  | .check key => if s.healthCheck.isSome then none else some { s with healthCheck := some key }
  | .checked => some { s with healthCheck := none }

/-! ## The property -/

def RefreshFlights.callsInFlight (s : RefreshFlights) (key : FlightKey) : ℕ :=
  s.flights.countP (fun f => f.key = key && f.phase = .calling) +
    if s.healthCheck = some key then 1 else 0

def SingleFlight (s : RefreshFlights) : Prop :=
  (∀ key, s.callsInFlight key ≤ 1) ∧
  ∀ d ∈ s.delivered, ∃ f ∈ s.flights, f.flightId = d.caller.flightId ∧ f.key = d.caller.key ∧
    f.phase = .done d.result

/-- **The condition** on steps: calls of the health checker and of flights do not overlap. -/
def CallsApart (s : RefreshFlights) : FlightAct → Prop
  | .call flightId => ∀ f ∈ s.flight flightId, s.healthCheck ≠ some f.key
  | .check key => ∀ f ∈ s.flights, f.key = key → f.phase ≠ .calling
  | _ => True

instance decidableCallsApart (s : RefreshFlights) : ∀ a, Decidable (CallsApart s a)
  | .call _ | .check _ => by
    unfold CallsApart
    infer_instance
  | .enter _ _ _ _ | .answer _ | .finish _ _ | .complete _ _ _ | .deliver _ | .abandon _
  | .checked => inferInstanceAs (Decidable True)

/-! ## The invariant -/

/-- **Flights.** A task that is not done is the entry of its key, so there is one such task for
each key. -/
structure Flying (s : RefreshFlights) : Prop where
  flights_unique : Unique Flight.flightId s.flights
  inflight_unique : Unique Prod.fst s.inflight
  running : ∀ f ∈ s.flights, f.isDone = false → (f.key, f.flightId) ∈ s.inflight
  apart : ∀ f ∈ s.flights, f.phase = .calling → s.healthCheck ≠ some f.key
  entries : ∀ x ∈ s.inflight, ∃ f ∈ s.flights, f.flightId = x.2 ∧ f.key = x.1
  callers : ∀ c ∈ s.callers, ∃ f ∈ s.flights, f.flightId = c.flightId ∧ f.key = c.key
  delivered : ∀ d ∈ s.delivered, ∃ f ∈ s.flights, f.flightId = d.caller.flightId ∧
    f.key = d.caller.key ∧ f.phase = .done d.result

theorem newRefreshFlights_flying : Flying newRefreshFlights where
  flights_unique := nodup_nil
  inflight_unique := nodup_nil
  running _ hf := absurd hf not_mem_nil
  apart _ hf := absurd hf not_mem_nil
  entries _ hx := absurd hx not_mem_nil
  callers _ hc := absurd hc not_mem_nil
  delivered _ hd := absurd hd not_mem_nil

namespace Flying

variable {s s' : RefreshFlights} {a : FlightAct} {f : Flight} {key : FlightKey}

theorem filterInflight {inflight : List (FlightKey × ℕ)} (h : Flying s)
    (hsub : inflight.Sublist s.inflight) (hinflight : s'.inflight = inflight)
    (hflights : s'.flights = s.flights) (hcallers : s'.callers = s.callers)
    (hdelivered : s'.delivered = s.delivered) (hcheck : s'.healthCheck = s.healthCheck)
    (hkept : ∀ f ∈ s.flights, f.isDone = false → (f.key, f.flightId) ∈ inflight) : Flying s' where
  flights_unique := hflights ▸ h.flights_unique
  inflight_unique := hinflight ▸ (hsub.map Prod.fst).nodup h.inflight_unique
  running := by
    rw [hflights, hinflight]
    exact hkept
  apart := by
    rw [hflights, hcheck]
    exact h.apart
  entries x hx := by
    rw [hflights]
    exact h.entries x (hsub.subset (hinflight ▸ hx))
  callers := by
    rw [hflights, hcallers]
    exact h.callers
  delivered := by
    rw [hflights, hdelivered]
    exact h.delivered

theorem purgeStaleVersions (h : Flying s) : Flying (s.purgeStaleVersions key) := by
  refine h.filterInflight filter_sublist rfl rfl rfl rfl rfl fun f hf hdone => ?_
  have hflight : s.flight f.flightId = some f := h.flights_unique.lookup_eq hf
  exact mem_filter.mpr ⟨h.running f hf hdone, by simp [hflight, hdone]⟩

theorem complete {result : FlightResult} {now ttl : ℤ} (h : Flying s) (hf : f ∈ s.flights)
    (hdone : f.isDone = true) : Flying (s.complete f result now ttl) := by
  refine h.filterInflight filter_sublist rfl rfl rfl rfl rfl fun f' hf' hrunning => ?_
  refine mem_filter.mpr ⟨h.running f' hf' hrunning, decide_eq_true fun heq => ?_⟩
  obtain rfl : f' = f := h.flights_unique.eq_of_key_eq hf' hf (congrArg Prod.snd heq)
  exact absurd (hrunning.symm.trans hdone) nofun

variable {flightId callerId : ℕ} {phase : FlightPhase} {f' : Flight}

theorem join (h : Flying s) (hflight : ∃ f ∈ s.flights, f.flightId = flightId ∧ f.key = key) :
    Flying (s.join callerId key flightId) := { h with
  callers c hc := by
    rcases mem_append.mp hc with hc | hc
    · exact h.callers c hc
    · obtain rfl := mem_singleton.mp hc
      exact hflight }

theorem not_running_of_joinable_none (h : Flying s) (hnone : s.joinable key = none) :
    ∀ f ∈ s.flights, f.isDone = false → f.key ≠ key := by
  rintro f hf hdone rfl
  have hentry := h.inflight_unique.lookup_eq (h.running f hf hdone)
  have hflight : s.flight f.flightId = some f := h.flights_unique.lookup_eq hf
  rw [RefreshFlights.joinable, hentry, bind_some, hflight] at hnone
  rcases f with ⟨flightId, key, phase⟩
  cases phase with
  | done => cases hdone
  | _ => simp at hnone

theorem launch (h : Flying s) (hnew : s.flight flightId = none)
    (hnone : ∀ f ∈ s.flights, f.isDone = false → f.key ≠ key) : Flying (s.launch flightId key) := by
  have hmem : ∀ f ∈ s.flights, f ∈ (s.launch flightId key).flights := fun f hf =>
    mem_append_left _ hf
  refine ⟨h.flights_unique.append_singleton hnew, ?_, fun f hf hdone => ?_, fun f hf hcalling => ?_,
    fun x hx => ?_, fun c hc => ?_, fun d hd => ?_⟩
  · refine Unique.append_singleton ?_ (lookup_eq_none_iff.mpr fun x hx => ?_)
    · exact (filter_sublist.map Prod.fst).nodup h.inflight_unique
    · exact of_decide_eq_true (mem_filter.mp hx).2
  · rcases mem_append.mp hf with hf | hf
    · refine mem_append_left _ (mem_filter.mpr ⟨h.running f hf hdone, ?_⟩)
      exact decide_eq_true (hnone f hf hdone)
    · obtain rfl := mem_singleton.mp hf
      exact mem_append_right _ mem_cons_self
  · rcases mem_append.mp hf with hf | hf
    · exact h.apart f hf hcalling
    · obtain rfl := mem_singleton.mp hf
      cases hcalling
  · rcases mem_append.mp hx with hx | hx
    · obtain ⟨f, hf, heq⟩ := h.entries x (mem_filter.mp hx).1
      exact ⟨f, hmem f hf, heq⟩
    · obtain rfl := mem_singleton.mp hx
      exact ⟨_, mem_append_right _ mem_cons_self, rfl, rfl⟩
  · obtain ⟨f, hf, heq⟩ := h.callers c hc
    exact ⟨f, hmem f hf, heq⟩
  · obtain ⟨f, hf, heq⟩ := h.delivered d hd
    exact ⟨f, hmem f hf, heq⟩

theorem joinOrLaunch (h : Flying s) (hnew : s.flight flightId = none) :
    Flying (s.joinOrLaunch callerId flightId key) := by
  unfold RefreshFlights.joinOrLaunch
  split
  · next f hjoinable =>
    obtain ⟨hfound, -⟩ := filter_eq_some_iff.mp hjoinable
    obtain ⟨x, hx, hflight⟩ := bind_eq_some_iff.mp hfound
    have hf := mem_of_lookup hflight
    obtain ⟨f', hf', hid, hkey⟩ := h.entries x (mem_of_lookup hx)
    obtain rfl : f' = f := h.flights_unique.eq_of_key_eq hf' hf
      (hid.trans (key_of_lookup hflight).symm)
    exact h.join ⟨f', hf, rfl, hkey.trans (key_of_lookup hx)⟩
  · next hnone =>
    refine (h.launch hnew (h.not_running_of_joinable_none hnone)).join ?_
    exact ⟨_, mem_append_right _ mem_cons_self, rfl, rfl⟩

theorem of_failures (h : Flying s) (hflights : s'.flights = s.flights)
    (hinflight : s'.inflight = s.inflight) (hcallers : s'.callers = s.callers)
    (hdelivered : s'.delivered = s.delivered) (hcheck : s'.healthCheck = s.healthCheck) :
    Flying s' :=
  h.filterInflight (List.Sublist.refl _) hinflight hflights hcallers hdelivered hcheck h.running

theorem run {now : ℤ} (h : Flying s) (hnew : s.flight flightId = none) :
    Flying (s.run callerId flightId key now) := by
  have hpurged : Flying (s.purgeStaleVersions key) := h.purgeStaleVersions
  unfold RefreshFlights.run
  dsimp only
  split
  · exact hpurged.joinOrLaunch hnew
  · split
    · exact hpurged.of_failures rfl rfl rfl rfl rfl
    · refine Flying.joinOrLaunch ?_ hnew
      exact hpurged.of_failures rfl rfl rfl rfl rfl

theorem mem_setPhase (h : Flying s) (hf : f ∈ s.flights)
    (hf' : f' ∈ (s.setPhase f.flightId phase).flights) :
    f' = { f with phase := phase } ∨ f' ∈ s.flights ∧ f'.flightId ≠ f.flightId := by
  obtain ⟨f₀, hf₀, rfl⟩ := mem_updateWhere.mp hf'
  by_cases hid : f₀.flightId = f.flightId
  · obtain rfl : f₀ = f := h.flights_unique.eq_of_key_eq hf₀ hf hid
    exact .inl (if_pos (decide_eq_true rfl))
  · rw [if_neg (by simpa using hid)]
    exact .inr ⟨hf₀, hid⟩

theorem exists_setPhase (hf' : f' ∈ s.flights) :
    ∃ f'' ∈ (s.setPhase flightId phase).flights, f''.flightId = f'.flightId ∧
      f''.key = f'.key ∧ (f'.flightId ≠ flightId → f''.phase = f'.phase) := by
  refine ⟨_, mem_updateWhere.mpr ⟨f', hf', rfl⟩, ?_⟩
  by_cases hid : f'.flightId = flightId
  · simp [hid]
  · simp [hid]

theorem setPhase (h : Flying s) (hf : f ∈ s.flights) (hrunning : f.isDone = false)
    (hcalling : phase = .calling → s.healthCheck ≠ some f.key) :
    Flying (s.setPhase f.flightId phase) where
  flights_unique := h.flights_unique.update fun _ => rfl
  inflight_unique := h.inflight_unique
  running f' hf' hdone := by
    rcases h.mem_setPhase hf hf' with rfl | ⟨hf', -⟩
    · exact h.running f hf hrunning
    · exact h.running f' hf' hdone
  apart f' hf' hcalls := by
    rcases h.mem_setPhase hf hf' with rfl | ⟨hf', -⟩
    · exact hcalling hcalls
    · exact h.apart f' hf' hcalls
  entries x hx := by
    obtain ⟨f', hf', hid, hkey⟩ := h.entries x hx
    obtain ⟨f'', hf'', hid', hkey', -⟩ := exists_setPhase hf'
    exact ⟨f'', hf'', hid'.trans hid, hkey'.trans hkey⟩
  callers c hc := by
    obtain ⟨f', hf', hid, hkey⟩ := h.callers c hc
    obtain ⟨f'', hf'', hid', hkey', -⟩ := exists_setPhase hf'
    exact ⟨f'', hf'', hid'.trans hid, hkey'.trans hkey⟩
  delivered d hd := by
    obtain ⟨f', hf', hid, hkey, hphase⟩ := h.delivered d hd
    obtain ⟨f'', hf'', hid', hkey', hphase'⟩ := exists_setPhase hf'
    refine ⟨f'', hf'', hid'.trans hid, hkey'.trans hkey, (hphase' fun heq => ?_).trans hphase⟩
    -- a task that is done does not go on
    obtain rfl : f' = f := h.flights_unique.eq_of_key_eq hf' hf heq
    rw [Flight.isDone, hphase] at hrunning
    cases hrunning

theorem of_callers (h : Flying s) (hflights : s'.flights = s.flights)
    (hinflight : s'.inflight = s.inflight) (hcallers : ∀ c ∈ s'.callers, c ∈ s.callers)
    (hdelivered : ∀ d ∈ s'.delivered, d ∈ s.delivered ∨ ∃ f ∈ s.flights,
      f.flightId = d.caller.flightId ∧ f.key = d.caller.key ∧ f.phase = .done d.result)
    (hcheck : ∀ f ∈ s.flights, f.phase = .calling → s'.healthCheck ≠ some f.key) : Flying s' where
  flights_unique := hflights ▸ h.flights_unique
  inflight_unique := hinflight ▸ h.inflight_unique
  running := by
    rw [hflights, hinflight]
    exact h.running
  apart := by
    rw [hflights]
    exact hcheck
  entries := by
    rw [hflights, hinflight]
    exact h.entries
  callers c hc := by
    rw [hflights]
    exact h.callers c (hcallers c hc)
  delivered d hd := by
    rw [hflights]
    exact (hdelivered d hd).elim (h.delivered d) fun hnew => hnew

theorem step (h : Flying s) (hok : CallsApart s a) (hs : flightStep s a = some s') :
    Flying s' := by
  cases a with
  | enter callerId flightId key now =>
    obtain ⟨hnot, hs⟩ := ite_none_left_eq_some.mp hs
    cases hs
    exact h.run (not_isSome_iff_eq_none.mp (not_or.mp hnot).1)
  | call flightId =>
    obtain ⟨f, hflight, hs⟩ := bind_eq_some_iff.mp hs
    obtain ⟨hphase, hs⟩ := ite_none_right_eq_some.mp hs
    cases hs
    obtain rfl := key_of_lookup hflight
    refine h.setPhase (mem_of_lookup hflight) ?_ fun _ => hok f hflight
    rw [Flight.isDone, hphase]
  | answer flightId =>
    obtain ⟨f, hflight, hs⟩ := bind_eq_some_iff.mp hs
    obtain ⟨hphase, hs⟩ := ite_none_right_eq_some.mp hs
    cases hs
    obtain rfl := key_of_lookup hflight
    refine h.setPhase (mem_of_lookup hflight) ?_ nofun
    rw [Flight.isDone, hphase]
  | finish flightId result =>
    obtain ⟨f, hflight, hs⟩ := bind_eq_some_iff.mp hs
    obtain ⟨hphase, hs⟩ := ite_none_right_eq_some.mp hs
    cases hs
    obtain rfl := key_of_lookup hflight
    refine h.setPhase (mem_of_lookup hflight) ?_ nofun
    rcases hphase with hphase | hphase <;> rw [Flight.isDone, hphase]
  | complete flightId now ttl =>
    obtain ⟨f, hflight, hs⟩ := bind_eq_some_iff.mp hs
    split at hs
    · next result hphase =>
      cases hs
      exact h.complete (mem_of_lookup hflight) (by rw [Flight.isDone, hphase])
    · cases hs
  | deliver callerId =>
    obtain ⟨c, hc, hs⟩ := bind_eq_some_iff.mp hs
    obtain ⟨f, hflight, hs⟩ := bind_eq_some_iff.mp hs
    split at hs
    · next result hphase =>
      cases hs
      refine h.of_callers rfl rfl (fun c hc => (mem_filter.mp hc).1) (fun d hd => ?_) h.apart
      rcases mem_append.mp hd with hd | hd
      · exact .inl hd
      · obtain rfl := mem_singleton.mp hd
        have hf := mem_of_lookup hflight
        obtain ⟨f', hf', hid, hkey⟩ := h.callers c (mem_of_lookup hc)
        obtain rfl : f' = f := h.flights_unique.eq_of_key_eq hf' hf
          (hid.trans (key_of_lookup hflight).symm)
        exact .inr ⟨f', hf, hid, hkey, hphase⟩
    · cases hs
  | abandon callerId =>
    cases hs
    exact h.of_callers rfl rfl (fun c hc => (mem_filter.mp hc).1) (fun d hd => .inl hd) h.apart
  | check key =>
    obtain ⟨-, hs⟩ := ite_none_left_eq_some.mp hs
    cases hs
    refine h.of_callers rfl rfl (fun c hc => hc) (fun d hd => .inl hd) fun f hf hcalling heq => ?_
    exact hok f hf (some.inj heq).symm hcalling
  | checked =>
    cases hs
    exact h.of_callers rfl rfl (fun c hc => hc) (fun d hd => .inl hd) fun _ _ _ => nofun

theorem eq_of_key_eq (h : Flying s) (hf : f ∈ s.flights) (hf' : f' ∈ s.flights)
    (hrunning : f.isDone = false) (hrunning' : f'.isDone = false) (hkey : f.key = f'.key) :
    f = f' := by
  have heq := h.inflight_unique.eq_of_key_eq (h.running f hf hrunning)
    (h.running f' hf' hrunning') hkey
  exact h.flights_unique.eq_of_key_eq hf hf' (congrArg Prod.snd heq)

theorem callsInFlight_le (h : Flying s) (key : FlightKey) : s.callsInFlight key ≤ 1 := by
  unfold RefreshFlights.callsInFlight
  by_cases hcalls : ∃ f ∈ s.flights, f.key = key ∧ f.phase = .calling
  · obtain ⟨f, hf, rfl, hcalling⟩ := hcalls
    have hdone : ∀ {f : Flight}, f.phase = .calling → f.isDone = false := fun hcalling => by
      rw [Flight.isDone, hcalling]
    rw [if_neg (h.apart f hf hcalling), h.flights_unique.countP_eq hf]
    have hothers : (s.flights.filter fun f' => f'.flightId ≠ f.flightId).countP
        (fun f' => f'.key = f.key && f'.phase = .calling) = 0 := by
      refine countP_eq_zero.mpr fun f' hf' hcalls' => ?_
      obtain ⟨hf', hid⟩ := mem_filter.mp hf'
      obtain ⟨hkey, hcalling'⟩ := Bool.and_eq_true_iff.mp hcalls'
      obtain rfl := h.eq_of_key_eq hf' hf (hdone (of_decide_eq_true hcalling')) (hdone hcalling)
        (of_decide_eq_true hkey)
      exact of_decide_eq_true hid rfl
    rw [hothers]
    split <;> omega
  · have hnone : s.flights.countP (fun f => f.key = key && f.phase = .calling) = 0 := by
      refine countP_eq_zero.mpr fun f hf hcalls' => hcalls ?_
      obtain ⟨hkey, hcalling⟩ := Bool.and_eq_true_iff.mp hcalls'
      exact ⟨f, hf, of_decide_eq_true hkey, of_decide_eq_true hcalling⟩
    rw [hnone]
    split <;> omega

end Flying

/-! ## The result -/

/-- **There is a single flight per refresh token**, in every run whose steps all meet the
condition. -/
theorem single_flight {acts : List FlightAct} {s : RefreshFlights}
    (hok : Along flightStep CallsApart acts newRefreshFlights)
    (hrun : run flightStep acts newRefreshFlights = some s) : SingleFlight s := by
  have hflying := run_invariant_along Flying.step newRefreshFlights_flying hok hrun
  exact ⟨hflying.callsInFlight_le, hflying.delivered⟩

def accountKey : FlightKey := ⟨"a", "f0"⟩

def sharedActs : List FlightAct :=
  [.enter 0 0 accountKey 0, .call 0, .enter 1 1 accountKey 0, .answer 0, .finish 0 (.refreshed 7),
   .check accountKey, .deliver 0, .complete 0 0 5, .deliver 1]

theorem single_flight_shared :
    ∃ s, run flightStep sharedActs newRefreshFlights = some s ∧
      Along flightStep CallsApart sharedActs newRefreshFlights ∧
      s.delivered = [⟨⟨0, accountKey, 0⟩, .refreshed 7⟩, ⟨⟨1, accountKey, 0⟩, .refreshed 7⟩] ∧
      SingleFlight s := by
  have hrun : run flightStep sharedActs newRefreshFlights = some _ := rfl
  have hok : Along flightStep CallsApart sharedActs newRefreshFlights := by decide
  exact ⟨_, hrun, hok, by decide, single_flight hok hrun⟩

/-- **The counterexample**: the health checker refreshes an account while a flight does. -/
theorem health_check_refreshes_beside_flight :
    ∃ s, run flightStep [.enter 0 0 accountKey 0, .call 0, .check accountKey]
        newRefreshFlights = some s ∧ s.callsInFlight accountKey = 2 ∧ ¬SingleFlight s := by
  refine ⟨_, rfl, by decide, fun h => ?_⟩
  exact absurd (h.1 accountKey) (by decide)

end CodexOctopus

import CodexOctopus.SessionLookup

/-!
# What a session lookup leaves behind

Up to the reservation, all parts of a pass do the same kind of thing to the registry: they add
no session, leave reservations alone, change session objects only towards being closed, and
hand over what they pop to be closed. `BridgeRegistry.Shrinks` says so, and composes.
`findSession_move` classifies the pass by its outcome.
-/

namespace CodexOctopus

open List Option Table

structure HttpSession.Subsides (f : HttpSession → HttpSession) : Prop where
  oid : ∀ o, (f o).oid = o.oid
  accountId : ∀ o, (f o).accountId = o.accountId
  live : ∀ o, (f o).live = true → o.live = true

namespace HttpSession.Subsides

variable {f f' : HttpSession → HttpSession}

theorem id : Subsides fun o => o := ⟨fun _ => rfl, fun _ => rfl, fun _ h => h⟩

theorem comp (h : Subsides f) (h' : Subsides f') : Subsides (f' ∘ f) where
  oid o := (h'.oid _).trans (h.oid o)
  accountId o := (h'.accountId _).trans (h.accountId o)
  live o hlive := h.live o (h'.live _ hlive)

theorem ite (h : Subsides f) (p : HttpSession → Bool) :
    Subsides fun o => if p o then f o else o where
  oid o := by split <;> [exact h.oid o; rfl]
  accountId o := by split <;> [exact h.accountId o; rfl]
  live o := by split <;> [exact h.live o; exact fun h => h]

theorem shut : Subsides HttpSession.shut :=
  ⟨fun _ => rfl, fun _ => rfl, nofun⟩

theorem closing : Subsides fun o => { o with closed := true } :=
  ⟨fun _ => rfl, fun _ => rfl, nofun⟩

theorem ending : Subsides fun o => { o with closed := true, reading := false } :=
  ⟨fun _ => rfl, fun _ => rfl, nofun⟩

theorem status (active : Bool) : Subsides fun o => { o with accountActive := active } :=
  ⟨fun _ => rfl, fun _ => rfl, fun _ h => h⟩

theorem responseIds (l : HttpSession → List String) :
    Subsides fun o => { o with previousResponseIds := l o } :=
  ⟨fun _ => rfl, fun _ => rfl, fun _ h => h⟩

theorem aliases (l : HttpSession → List String) :
    Subsides fun o => { o with downstreamTurnStateAliases := l o } :=
  ⟨fun _ => rfl, fun _ => rfl, fun _ h => h⟩

end HttpSession.Subsides

namespace BridgeRegistry

structure WellFormed (g : BridgeRegistry) : Prop where
  objects_unique : Table.Unique HttpSession.oid g.objects
  sessions_unique : Table.Unique Prod.fst g.sessions
  known : ∀ x ∈ g.sessions, ∃ o ∈ g.objects, o.oid = x.2

/-- **The registry shrinks**: sessions are popped, and the live ones among them are in
`closing`. -/
structure Shrinks (g g' : BridgeRegistry) (closing : List ℕ) : Prop where
  objects : ∃ f, HttpSession.Subsides f ∧ g'.objects = g.objects.map f
  sessions : g'.sessions.Sublist g.sessions
  inflight : g'.inflight = g.inflight
  popped : ∀ o ∈ g'.objects, o.live = true → ∀ x ∈ g.sessions, x.2 = o.oid →
    x ∈ g'.sessions ∨ o.oid ∈ closing
  counts : g'.sessions.length + closing.length ≤ g.sessions.length

namespace Shrinks

variable {g g' g'' : BridgeRegistry} {closing closing' : List ℕ}

theorem of_objects {f : HttpSession → HttpSession} (hf : HttpSession.Subsides f)
    (hobjects : g'.objects = g.objects.map f) (hsessions : g'.sessions = g.sessions)
    (hinflight : g'.inflight = g.inflight) : Shrinks g g' [] where
  objects := ⟨f, hf, hobjects⟩
  sessions := by rw [hsessions]
  inflight := hinflight
  popped _ _ _ x hx _ := .inl (hsessions ▸ hx)
  counts := by rw [hsessions]; exact Nat.le_refl _

theorem of_index (hobjects : g'.objects = g.objects) (hsessions : g'.sessions = g.sessions)
    (hinflight : g'.inflight = g.inflight) : Shrinks g g' [] :=
  of_objects .id (by rw [hobjects, List.map_id']) hsessions hinflight

theorem trans (h : Shrinks g g' closing) (h' : Shrinks g' g'' closing') :
    Shrinks g g'' (closing ++ closing') := by
  obtain ⟨f, hf, hobjects⟩ := h.objects
  obtain ⟨f', hf', hobjects'⟩ := h'.objects
  refine ⟨⟨f' ∘ f, hf.comp hf', ?_⟩, h'.sessions.trans h.sessions, h'.inflight.trans h.inflight,
    ?_, ?_⟩
  · rw [hobjects', hobjects, List.map_map]
  · intro o'' ho'' hlive x hx hoid
    obtain ⟨o', ho', rfl⟩ := List.mem_map.mp (hobjects' ▸ ho'')
    rw [hf'.oid] at hoid
    rcases h.popped o' ho' (hf'.live o' hlive) x hx hoid with hx' | hclosing
    · rcases h'.popped _ ho'' hlive x hx' (hoid.trans (hf'.oid o').symm) with hx'' | hclosing
      · exact .inl hx''
      · exact .inr (mem_append_right _ hclosing)
    · refine .inr (mem_append_left _ ?_)
      rw [hf'.oid]
      exact hclosing
  · have := h.counts
    have := h'.counts
    rw [length_append]
    omega

theorem wellFormed (h : Shrinks g g' closing) (hg : g.WellFormed) : g'.WellFormed := by
  obtain ⟨f, hf, hobjects⟩ := h.objects
  refine ⟨?_, ?_, fun x hx => ?_⟩
  · rw [hobjects, Table.Unique, List.map_map]
    have hoid : HttpSession.oid ∘ f = HttpSession.oid := funext hf.oid
    rw [hoid]
    exact hg.objects_unique
  · exact (h.sessions.map Prod.fst).nodup hg.sessions_unique
  · obtain ⟨o, ho, hoid⟩ := hg.known x (h.sessions.subset hx)
    exact ⟨f o, hobjects ▸ mem_map_of_mem ho, (hf.oid o).trans hoid⟩

theorem object {oid : ℕ} {o : HttpSession} (h : Shrinks g g' closing)
    (ho : g.object oid = some o) :
    ∃ o', g'.object oid = some o' ∧ o'.accountId = o.accountId := by
  obtain ⟨f, hf, hobjects⟩ := h.objects
  refine ⟨f o, ?_, hf.accountId o⟩
  rw [BridgeRegistry.object, Table.lookup, hobjects, List.find?_map]
  have hoid : (fun o => decide (HttpSession.oid o = oid)) ∘ f = fun o => decide (o.oid = oid) := by
    funext o
    rw [Function.comp_apply, hf.oid]
  rw [hoid]
  exact congrArg (Option.map f) ho

theorem size_le (h : Shrinks g g' closing) : g'.size + closing.length ≤ g.size := by
  have := h.counts
  rw [size, size, h.inflight]
  omega

end Shrinks

/-! ## The operations of a pass -/

section Operations

variable {g : BridgeRegistry} {o : HttpSession} {key : BridgeKey} {x : BridgeKey × ℕ}

theorem object_set {f : HttpSession → HttpSession} (hf : ∀ o, (f o).oid = o.oid) {oid oid' : ℕ}
    (ho : g.object oid' = some o) :
    (g.set oid f).object oid' = some (if o.oid = oid then f o else o) := by
  rw [object, set, lookup_updateWhere hf]
  simp only [decide_eq_true_eq]
  exact congrArg _ ho

theorem shrinks_set {f : HttpSession → HttpSession} (hf : HttpSession.Subsides f) (oid : ℕ) :
    Shrinks g (g.set oid f) [] :=
  .of_objects (hf.ite _) rfl rfl rfl

theorem shrinks_unregisterTurnStates : Shrinks g (g.unregisterTurnStates o) [] :=
  .of_objects ((HttpSession.Subsides.aliases _).ite _) rfl rfl rfl

theorem shrinks_addTurnState (turnState : String) : Shrinks g (g.addTurnState o turnState) [] :=
  .of_objects ((HttpSession.Subsides.aliases _).ite _) rfl rfl rfl

theorem shrinks_addPreviousResponseId (o : HttpSession) (responseId : String) :
    Shrinks g (g.addPreviousResponseId o responseId) [] := by
  unfold addPreviousResponseId
  dsimp only
  split
  · exact .of_index rfl rfl rfl
  · exact .of_objects ((HttpSession.Subsides.responseIds _).ite _) rfl rfl rfl

theorem not_live_close {oids : List ℕ} (ho : o ∈ (g.close oids).objects)
    (hoid : o.oid ∈ oids) : o.live = false := by
  obtain ⟨o₀, -, rfl⟩ := mem_updateWhere.mp ho
  by_cases hclosed : oids.contains o₀.oid = true
  · rw [if_pos hclosed]
    rfl
  · rw [if_neg hclosed] at hoid
    exact absurd (contains_iff_mem.mpr hoid) hclosed

theorem subsides_close (oids : List ℕ) :
    ∃ f, HttpSession.Subsides f ∧ (g.close oids).objects = g.objects.map f :=
  ⟨_, HttpSession.Subsides.shut.ite fun o => oids.contains o.oid, rfl⟩

theorem shrinks_close (oids : List ℕ) : Shrinks g (g.close oids) [] :=
  .of_objects (HttpSession.Subsides.shut.ite fun o => oids.contains o.oid) rfl rfl rfl

theorem shrinks_prune (idle : List ℕ) : Shrinks g (g.prune idle) [] where
  objects := subsides_close (g := { g with sessions := _ }) _
  sessions := filter_sublist
  inflight := rfl
  popped := by
    intro o ho hlive x hx hoid
    refine .inl (mem_filter.mpr ⟨hx, ?_⟩)
    rw [Bool.not_eq_true', Bool.eq_false_iff]
    intro hstale
    have hmem := mem_map_of_mem (f := Prod.snd) (contains_iff_mem.mp hstale)
    have hnot := not_live_close ho (hoid ▸ hmem)
    exact absurd (hlive.symm.trans hnot) nofun
  counts := length_filter_le _ _

theorem mem_of_session (ho : g.session key = some o) :
    (key, o.oid) ∈ g.sessions ∧ g.object o.oid = some o := by
  obtain ⟨x, hx, hobject⟩ := bind_eq_some_iff.mp ho
  have hkey := key_of_lookup hx
  have hoid : o.oid = x.2 := key_of_lookup hobject
  rw [← hkey, hoid]
  exact ⟨mem_of_lookup hx, hobject⟩

theorem WellFormed.ne_key_of_session_none (hg : g.WellFormed) (hnone : g.session key = none) :
    ∀ x ∈ g.sessions, x.1 ≠ key := by
  rintro x hx rfl
  obtain ⟨o, ho, hoid⟩ := hg.known x hx
  have hlookup : g.object x.2 = some o := hoid ▸ hg.objects_unique.lookup_eq ho
  have hsession : g.session x.1 = some o := by
    rw [session, hg.sessions_unique.lookup_eq hx]
    exact hlookup
  exact absurd (hnone.symm.trans hsession) nofun

theorem shrinks_pop (hg : g.WellFormed) (ho : g.session key = some o) :
    Shrinks g (g.pop key) [o.oid] where
  objects := ⟨_, .id, (List.map_id' _).symm⟩
  sessions := filter_sublist
  inflight := rfl
  popped := by
    intro o' _ _ y hy hoid
    by_cases hkey : y.1 = key
    · refine .inr (mem_singleton.mpr ?_)
      obtain rfl : y = (key, o.oid) :=
        hg.sessions_unique.eq_of_key_eq hy (mem_of_session ho).1 hkey
      exact hoid.symm
    · exact .inl (mem_filter.mpr ⟨hy, decide_eq_true hkey⟩)
  counts := by
    refine length_filter_lt_length_iff_exists.mpr ⟨_, (mem_of_session ho).1, ?_⟩
    simp

theorem ne_key_pop : ∀ x ∈ (g.pop key).sessions, x.1 ≠ key := fun _ hx =>
  of_decide_eq_true (mem_filter.mp hx).2

theorem shrinks_makeRoom (maxSessions : ℕ) :
    ∀ (evictable : List ℕ) (g : BridgeRegistry),
      Shrinks g (g.makeRoom maxSessions evictable).1 (g.makeRoom maxSessions evictable).2 := by
  intro evictable
  induction evictable with
  | nil => exact fun g => .of_index rfl rfl rfl
  | cons oid rest ih =>
    intro g
    rw [makeRoom]
    split
    · next hroom =>
      obtain ⟨-, x, hx, hoid⟩ := hroom
      have hevict : Shrinks g { g with sessions := g.sessions.filter fun x => x.2 ≠ oid }
        [oid] := by
        refine ⟨⟨_, .id, (List.map_id' _).symm⟩, filter_sublist, rfl, ?_, ?_⟩
        · intro o _ _ y hy hyoid
          by_cases hy' : y.2 = oid
          · exact .inr (mem_singleton.mpr (hyoid.symm.trans hy'))
          · exact .inl (mem_filter.mpr ⟨hy, decide_eq_true hy'⟩)
        · refine length_filter_lt_length_iff_exists.mpr ⟨x, hx, ?_⟩
          simp [hoid]
      exact hevict.trans (ih _)
    · exact ih g

end Operations

end BridgeRegistry

/-! ## The parts of a pass -/

section Pass

variable {maxSessions callId : ℕ} {r : SessionRequest} {env : LookupEnv} {c : KeyChoice}
  {g g₀ g' : BridgeRegistry} {key : BridgeKey} {o : HttpSession} {future : Option ℕ}
  {closing : List ℕ} {forward : Bool}

open BridgeRegistry

theorem shrinks_previousSession : Shrinks g (previousSession g r).1 [] := by
  unfold previousSession
  split
  · exact .of_index rfl rfl rfl
  · dsimp only
    split
    · exact .of_index rfl rfl rfl
    · split <;> exact .of_index rfl rfl rfl

theorem object_of_previousSession (h : previousSession g r = (g', some o)) :
    g'.object o.oid = some o := by
  unfold previousSession at h
  split at h
  · cases h
  · dsimp only at h
    split at h
    · cases h
    · split at h
      · next o' hfilter =>
        cases h
        obtain ⟨hsession, -⟩ := filter_eq_some_iff.mp hfilter
        exact (mem_of_session hsession).2
      · cases h

theorem shrinks_resolveKey : Shrinks g (resolveKey g r).registry [] := by
  unfold resolveKey
  split
  · exact .of_index rfl rfl rfl
  · dsimp only
    split
    · exact .of_index rfl rfl rfl
    · split
      · split
        · exact shrinks_addTurnState _
        · exact .of_index rfl rfl rfl
      · split
        · have hprevious := shrinks_previousSession (g := g) (r := r)
          split
          · next hfound =>
            rw [hfound] at hprevious
            exact hprevious.trans (shrinks_addTurnState _)
          · next hfound =>
            rw [hfound] at hprevious
            split <;> exact hprevious
        · exact .of_index rfl rfl rfl

def LookupOutcome.isLeaving : LookupOutcome → Bool
  | .forward | .failed _ | .awaitCapacity _ | .await _ _ => true
  | _ => false

/-- **What a pass leaves behind.** -/
inductive LookupMove (maxSessions callId : ℕ) (r : SessionRequest) (g : BridgeRegistry) :
    LookupResult → Prop
  | reuse {g' : BridgeRegistry} {oid : ℕ} {o : HttpSession} (shrinks : Shrinks g g' [])
      (found : g'.object oid = some o) (allows : o.allowsApiKey r.apiKey = true) :
      LookupMove maxSessions callId r g ⟨g', [], .reuse oid⟩
  | reusePrevious {g' : BridgeRegistry} {closing : List ℕ} {oid : ℕ} {o : HttpSession}
      (shrinks : Shrinks g g' closing) (found : g'.object oid = some o) :
      LookupMove maxSessions callId r g ⟨g', closing, .reusePrevious oid⟩
  /-- an error under the lock leaves nothing live that was to be closed, if there was room -/
  | raised {g' : BridgeRegistry} {closing : List ℕ} {error : Option BridgeError}
      (shrinks : Shrinks g g' closing)
      (closed : (∀ o ∈ g'.objects, o.live = true → o.oid ∉ closing) ∨ maxSessions ≤ g'.size) :
      LookupMove maxSessions callId r g ⟨g', closing, .raised error⟩
  | leave {g' : BridgeRegistry} {closing : List ℕ} {outcome : LookupOutcome}
      (shrinks : Shrinks g g' closing) (leaving : outcome.isLeaving = true) :
      LookupMove maxSessions callId r g ⟨g', closing, outcome⟩
  | reserve {g' : BridgeRegistry} {closing : List ℕ} {forward : Bool} {key : BridgeKey}
      (shrinks : Shrinks g g' closing) (free : ∀ x ∈ g'.sessions, x.1 ≠ key)
      (unreserved : ∀ x ∈ g'.inflight, x.1 ≠ key) (room : g'.size < maxSessions) :
      LookupMove maxSessions callId r g
        ⟨{ g' with inflight := g'.inflight ++ [(key, callId)] }, closing,
          leaveLock forward (.create key)⟩

theorem isLeaving_leaveLock {outcome : LookupOutcome} (h : outcome.isLeaving = true) :
    (leaveLock forward outcome).isLeaving = true := by
  unfold leaveLock
  split
  · rfl
  · exact h

theorem ne_key_of_future_none (h : g.future key = none) : ∀ x ∈ g.inflight, x.1 ≠ key :=
  lookup_eq_none_iff.mp (map_eq_none_iff.mp h)

theorem reserveKey_move (h : Shrinks g₀ g closing)
    (hfree : future = none → (∀ x ∈ g.sessions, x.1 ≠ key) ∧ g.future key = none) :
    LookupMove maxSessions callId r g₀
      (reserveKey maxSessions callId r env c forward key future closing g) := by
  unfold reserveKey
  split
  · exact .leave h (isLeaving_leaveLock rfl)
  · split
    · exact .leave h (isLeaving_leaveLock rfl)
    · split
      · exact .leave h (isLeaving_leaveLock rfl)
      · dsimp only
        obtain ⟨hsessions, hfuture⟩ := hfree rfl
        have hroom := shrinks_makeRoom maxSessions env.evictable g
        have hall := h.trans hroom
        split
        · next hfull =>
          split
          · exact .leave hall (isLeaving_leaveLock rfl)
          · exact .raised hall (.inr hfull)
        · next hfree =>
          refine .reserve hall (fun x hx => hsessions x (hroom.sessions.subset hx)) ?_
            (Nat.lt_of_not_le hfree)
          rw [hroom.inflight]
          exact ne_key_of_future_none hfuture

theorem shrinks_incomingTurnState {o : HttpSession} (incoming : Option String) :
    Shrinks g (match incoming with
      | none => g
      | some turnState => if turnState = "" then g else g.addTurnState o turnState) [] := by
  cases incoming with
  | none => exact .of_index rfl rfl rfl
  | some turnState =>
    dsimp only
    split
    · exact .of_index rfl rfl rfl
    · exact shrinks_addTurnState _

theorem claimKey_move (h : Shrinks g₀ g closing) (hfree : ∀ x ∈ g.sessions, x.1 ≠ c.key) :
    LookupMove maxSessions callId r g₀
      (claimKey maxSessions callId r env c forward closing g) := by
  unfold claimKey
  split
  · exact reserveKey_move h nofun
  · next hfuture =>
    have hprevious := shrinks_previousSession (g := g) (r := r)
    split
    · next g' hfound =>
      rw [hfound] at hprevious
      have hall := h.trans hprevious
      rw [append_nil] at hall
      refine reserveKey_move hall fun _ => ⟨fun x hx => hfree x (hprevious.sessions.subset hx), ?_⟩
      rw [BridgeRegistry.future, hprevious.inflight]
      exact hfuture
    · next g' o hfound =>
      rw [hfound] at hprevious
      have hturn := shrinks_incomingTurnState (g := g') (o := o) r.incomingTurnState
      have hall := (h.trans hprevious).trans hturn
      rw [append_nil, append_nil] at hall
      dsimp only
      split
      · obtain ⟨o', ho', -⟩ := hturn.object (object_of_previousSession hfound)
        exact .reusePrevious hall ho'
      · exact reserveKey_move hall nofun

def StaleAt (g : BridgeRegistry) (key : BridgeKey) : Option HttpSession → Prop
  | none => ∀ x ∈ g.sessions, x.1 ≠ key
  | some o => g.session key = some o

theorem replaceSession_move {stale : Option HttpSession} (h : Shrinks g₀ g closing)
    (hg : g.WellFormed) (hclosed : ∀ o ∈ g.objects, o.live = true → o.oid ∉ closing)
    (hstale : StaleAt g c.key stale) :
    LookupMove maxSessions callId r g₀
      (replaceSession maxSessions callId r env c stale closing g) := by
  unfold replaceSession
  split
  · exact .raised h (.inl hclosed)
  · split
    · exact .raised h (.inl hclosed)
    · split
      · exact .leave h rfl
      · exact .leave (h.trans (shrinks_pop hg hstale)) rfl
    · split
      · exact claimKey_move h hstale
      · exact claimKey_move (h.trans (shrinks_pop hg hstale)) ne_key_pop

/-- **Every pass is one of the moves.** -/
theorem findSession_move (hg : g.WellFormed) :
    LookupMove maxSessions callId r g (findSession maxSessions callId r env g) := by
  have hstart : Shrinks g ((resolveKey g r).registry.prune env.idle) [] :=
    shrinks_resolveKey.trans (shrinks_prune env.idle)
  have hpruned := hstart.wellFormed hg
  unfold findSession
  dsimp only
  split
  · next hnone =>
    exact replaceSession_move hstart hpruned nofun (hpruned.ne_key_of_session_none hnone)
  · next o hsession =>
    split
    · split
      · next hallows =>
        exact .reuse hstart (mem_of_session hsession).2 (Bool.and_eq_true_iff.mp hallows).1
      · -- the session is popped, and marked as closed before the pass goes on
        have hreplaced := (shrinks_pop hpruned hsession).trans
          ((shrinks_unregisterTurnStates (o := o)).trans
            (shrinks_set HttpSession.Subsides.closing o.oid))
        refine replaceSession_move (hstart.trans hreplaced) (hreplaced.wellFormed hpruned)
          (fun o' ho' hlive hoid => ?_) ne_key_pop
        obtain ⟨o₁, -, rfl⟩ := mem_updateWhere.mp ho'
        split at hlive
        · cases hlive
        · next hne =>
          rw [if_neg hne] at hoid
          exact hne (decide_eq_true (mem_singleton.mp hoid))
    · exact replaceSession_move hstart hpruned nofun hsession

end Pass

end CodexOctopus

import CodexOctopus.SessionRegistry

/-!
# The cap on bridge sessions

`max_sessions` bounds the registered sessions and the reservations. A session that is not
registered is closed, or about to be registered by the call that creates it; but a caller that
holds on to a session may reconnect it after it was closed, and some ways out of the lookup and
of a shutdown leave a session behind that is still open.

* `SessionCap`: every session with a running reader that is not closed is registered or is being
  created for a reservation, and there are at most `max_sessions` of them.
* `KeepsCap` is the condition on steps: only registered sessions are reconnected, a pass that
  returns the session of a previous response has not dropped another one, and there is no
  shutdown during a creation.
-/

namespace CodexOctopus

open List Table Lts

namespace CallPhase

def reserves : CallPhase → Option BridgeKey
  | .creating key | .created key _ => some key
  | .reusing _ | .awaiting _ _ => none

def creates : CallPhase → Option ℕ
  | .created _ oid => some oid
  | .creating _ | .reusing _ | .awaiting _ _ => none

theorem reserves_ne_none {phase : CallPhase} {oid : ℕ} (h : phase.creates = some oid) :
    phase.reserves ≠ none := by
  cases phase <;> cases h
  exact nofun

end CallPhase

def BridgeCalls.isRegistered (s : BridgeCalls) (oid : ℕ) : Bool :=
  s.registry.sessions.any fun x => x.2 = oid

def BridgeCalls.isBeingCreated (s : BridgeCalls) (oid : ℕ) : Bool :=
  s.registry.inflight.any fun x => (s.call x.2).any fun t => t.phase = .created x.1 oid

def SessionCap (maxSessions : ℕ) (s : BridgeCalls) : Prop :=
  (∀ o ∈ s.registry.objects, o.live = true →
    s.isRegistered o.oid = true ∨ s.isBeingCreated o.oid = true) ∧
  s.registry.objects.countP HttpSession.live ≤ maxSessions

def LookupOutcome.isPrevious : LookupOutcome → Bool
  | .reusePrevious _ => true
  | _ => false

def KeepsCap (maxSessions : ℕ) (s : BridgeCalls) : BridgeAct → Prop
  | .lookup callId r env =>
    let result := findSession maxSessions callId r env s.registry
    result.outcome.isPrevious = true → ∀ o ∈ result.registry.objects, o.live = true →
      o.oid ∉ result.sessionsToClose
  | .reconnect callId _ _ =>
    ∀ x ∈ lookup ReturnedSession.callId s.returned callId, s.isRegistered x.oid = true
  | .closeAll => ∀ t ∈ s.calls, t.phase.reserves = none
  | _ => True

instance decidableKeepsCap (maxSessions : ℕ) (s : BridgeCalls) :
    ∀ a, Decidable (KeepsCap maxSessions s a)
  | .lookup _ _ _ | .reconnect _ _ _ | .closeAll => by
    unfold KeepsCap
    infer_instance
  | .reused _ | .abandon _ | .create _ _ _ | .creationFailed _ | .register _ | .wake _ _
  | .readerEnds _ | .statusChanged _ _ | .registerTurnState _ _
  | .registerPreviousResponseId _ _ => inferInstanceAs (Decidable True)

/-! ## The invariant -/

/-- **Reservations and live sessions.** -/
structure Capped (maxSessions : ℕ) (g : BridgeRegistry) (calls : List BridgeCall) : Prop where
  inflight_unique : Unique Prod.fst g.inflight
  free : ∀ x ∈ g.inflight, ∀ y ∈ g.sessions, y.1 ≠ x.1
  reserved : ∀ t ∈ calls, ∀ key ∈ t.phase.reserves, (key, t.callId) ∈ g.inflight
  covered : ∀ o ∈ g.objects, o.live = true →
    (∃ y ∈ g.sessions, y.2 = o.oid) ∨ ∃ t ∈ calls, t.phase.creates = some o.oid
  room : g.size ≤ maxSessions

theorem newBridgeCalls_capped (maxSessions : ℕ) :
    Capped maxSessions newBridgeCalls.registry newBridgeCalls.calls where
  inflight_unique := nodup_nil
  free _ hx := absurd hx not_mem_nil
  reserved _ ht := absurd ht not_mem_nil
  covered _ ho := absurd ho not_mem_nil
  room := Nat.zero_le _

namespace Capped

variable {maxSessions : ℕ} {g g' : BridgeRegistry} {calls calls' : List BridgeCall}
  {closing : List ℕ} {t : BridgeCall}

section

variable (h : Capped maxSessions g calls)
include h

theorem shrink (hg : g.Shrinks g' closing)
    (hclosed : ∀ o ∈ g'.objects, o.live = true → o.oid ∉ closing) :
    Capped maxSessions g' calls where
  inflight_unique := hg.inflight ▸ h.inflight_unique
  free x hx y hy := h.free x (hg.inflight ▸ hx) y (hg.sessions.subset hy)
  reserved t ht key hkey := hg.inflight ▸ h.reserved t ht key hkey
  covered o ho hlive := by
    obtain ⟨f, hf, hobjects⟩ := hg.objects
    obtain ⟨o₀, ho₀, rfl⟩ := mem_map.mp (hobjects ▸ ho)
    rcases h.covered o₀ ho₀ (hf.live o₀ hlive) with ⟨y, hy, hoid⟩ | ⟨t, ht, hcreates⟩
    · have hoid' : y.2 = (f o₀).oid := hoid.trans (hf.oid o₀).symm
      have hkept := (hg.popped _ ho hlive y hy hoid').resolve_right (hclosed _ ho hlive)
      exact .inl ⟨y, hkept, hoid'⟩
    · exact .inr ⟨t, ht, hcreates.trans (congrArg some (hf.oid o₀).symm)⟩
  room := Nat.le_trans (Nat.le_of_add_right_le hg.size_le) h.room

theorem shrink_nil (hg : g.Shrinks g' []) :
    Capped maxSessions g' calls :=
  h.shrink hg fun _ _ _ => not_mem_nil

theorem shrink_close (hg : g.Shrinks g' closing) :
    Capped maxSessions (g'.close closing) calls := by
  refine h.shrink (hg.trans (BridgeRegistry.shrinks_close closing)) fun o ho hlive hoid => ?_
  rw [append_nil] at hoid
  exact absurd (hlive.symm.trans (BridgeRegistry.not_live_close ho hoid)) nofun

theorem of_calls (hold : ∀ t ∈ calls, t.phase.reserves ≠ none → t ∈ calls')
    (hnew : ∀ t ∈ calls', t ∈ calls ∨ t.phase.reserves = none) : Capped maxSessions g calls' :=
  { h with
    reserved t ht key hkey := by
      rcases hnew t ht with ht | hnone
      · exact h.reserved t ht key hkey
      · exact absurd (hnone.symm.trans hkey) nofun
    covered o ho hlive := by
      rcases h.covered o ho hlive with hy | ⟨t, ht, hcreates⟩
      · exact .inl hy
      · exact .inr ⟨t, hold t ht (CallPhase.reserves_ne_none hcreates), hcreates⟩ }

end

variable {callId oid : ℕ} {key : BridgeKey}

section

variable (h : Capped maxSessions g calls)
include h

theorem reserve (hfree : ∀ y ∈ g.sessions, y.1 ≠ key) (hunreserved : ∀ x ∈ g.inflight, x.1 ≠ key)
    (hroom : g.size < maxSessions) :
    Capped maxSessions { g with inflight := g.inflight ++ [(key, callId)] } calls where
  inflight_unique := h.inflight_unique.append_singleton (lookup_eq_none_iff.mpr hunreserved)
  free x hx y hy := by
    rcases mem_append.mp hx with hx | hx
    · exact h.free x hx y hy
    · obtain rfl := mem_singleton.mp hx
      exact hfree y hy
  reserved t ht key' hkey := mem_append_left _ (h.reserved t ht key' hkey)
  covered := h.covered
  room := by
    simp only [BridgeRegistry.size, length_append, length_singleton] at hroom ⊢
    omega

theorem addCreating {r : SessionRequest} (hmem : (key, callId) ∈ g.inflight) :
    Capped maxSessions g (calls ++ [⟨callId, r, .creating key⟩]) := { h with
  reserved t ht key' hkey := by
    rcases mem_append.mp ht with ht | ht
    · exact h.reserved t ht key' hkey
    · obtain rfl := mem_singleton.mp ht
      cases hkey
      exact hmem
  covered o ho hlive :=
    (h.covered o ho hlive).imp_right fun ⟨t, ht, hcreates⟩ =>
      ⟨t, mem_append_left _ ht, hcreates⟩ }

theorem create {accountId : String} (hu : Unique BridgeCall.callId calls)
    (ht : lookup BridgeCall.callId calls callId = some t) (hphase : t.phase = .creating key) :
    Capped maxSessions { g with objects := g.objects ++ [newSession oid key accountId] }
      (updateWhere (fun u => u.callId = t.callId)
        (fun u => { u with phase := .created key oid }) calls) := { h with
  reserved u hu' key' hkey := by
    obtain ⟨u₀, hu₀, rfl⟩ := mem_updateWhere.mp hu'
    split at hkey
    · next hid =>
      obtain rfl : u₀ = t :=
        hu.eq_of_key_eq hu₀ (mem_of_lookup ht) (of_decide_eq_true hid)
      cases hkey
      rw [if_pos hid]
      exact h.reserved u₀ hu₀ key (by rw [hphase]; exact rfl)
    · next hid =>
      rw [if_neg hid]
      exact h.reserved u₀ hu₀ key' hkey
  covered o ho hlive := by
    rcases mem_append.mp ho with ho | ho
    · refine (h.covered o ho hlive).imp_right fun ⟨u, hu', hcreates⟩ => ?_
      have hne : u.callId ≠ t.callId := by
        intro hid
        obtain rfl : u = t := hu.eq_of_key_eq hu' (mem_of_lookup ht) hid
        rw [hphase] at hcreates
        cases hcreates
      exact ⟨u, mem_updateWhere.mpr ⟨u, hu', if_neg (by simpa using hne)⟩, hcreates⟩
    · obtain rfl := mem_singleton.mp ho
      refine .inr ⟨{ t with phase := .created key oid }, mem_updateWhere.mpr ?_, rfl⟩
      exact ⟨t, mem_of_lookup ht, if_pos (decide_eq_true rfl)⟩ }

theorem reserved_filter (ht : t ∈ calls) (hkey : t.phase.reserves = some key) :
    ∀ u ∈ calls.filter (fun u => u.callId ≠ t.callId), ∀ key' ∈ u.phase.reserves,
      (key', u.callId) ∈ g.inflight.filter fun x => x.1 ≠ key := by
  intro u hu key' hkey'
  obtain ⟨hu, hid⟩ := mem_filter.mp hu
  have hmem := h.reserved u hu key' hkey'
  refine mem_filter.mpr ⟨hmem, decide_eq_true ?_⟩
  rintro rfl
  have heq := h.inflight_unique.eq_of_key_eq hmem (h.reserved t ht _ hkey) rfl
  exact of_decide_eq_true hid (congrArg Prod.snd heq)

theorem release (ht : t ∈ calls) (hu : Unique BridgeCall.callId calls)
    (hkey : t.phase.reserves = some key)
    (hdead : ∀ o ∈ g.objects, o.live = true → t.phase.creates ≠ some o.oid) :
    Capped maxSessions { g with inflight := g.inflight.filter fun x => x.1 ≠ key }
      (calls.filter fun u => u.callId ≠ t.callId) where
  inflight_unique := (filter_sublist.map Prod.fst).nodup h.inflight_unique
  free x hx := h.free x (mem_filter.mp hx).1
  reserved := h.reserved_filter ht hkey
  covered o ho hlive := by
    refine (h.covered o ho hlive).imp_right fun ⟨u, hu', hcreates⟩ => ?_
    refine ⟨u, mem_filter.mpr ⟨hu', decide_eq_true fun hid => ?_⟩, hcreates⟩
    obtain rfl : u = t := hu.eq_of_key_eq hu' ht hid
    exact hdead o ho hlive hcreates
  room := Nat.le_trans (Nat.add_le_add_left (length_filter_le _ _) _) h.room

theorem register (ht : t ∈ calls) (hu : Unique BridgeCall.callId calls)
    (hphase : t.phase = .created key oid) :
    Capped maxSessions
      { g with
        sessions := g.sessions.filter (fun x => x.1 ≠ key) ++ [(key, oid)]
        inflight := g.inflight.filter fun x => x.1 ≠ key }
      (calls.filter fun u => u.callId ≠ t.callId) := by
  have hkey : t.phase.reserves = some key := by rw [hphase]; rfl
  have hmem := h.reserved t ht key hkey
  refine ⟨(filter_sublist.map Prod.fst).nodup h.inflight_unique, ?_,
    h.reserved_filter ht hkey, ?_, ?_⟩
  · intro x hx y hy
    obtain ⟨hx, hne⟩ := mem_filter.mp hx
    rcases mem_append.mp hy with hy | hy
    · exact h.free x hx y (mem_filter.mp hy).1
    · obtain rfl := mem_singleton.mp hy
      exact Ne.symm (of_decide_eq_true hne)
  · intro o ho hlive
    rcases h.covered o ho hlive with ⟨y, hy, hoid⟩ | ⟨u, hu', hcreates⟩
    · have hne : y.1 ≠ key := h.free _ hmem y hy
      exact .inl ⟨y, mem_append_left _ (mem_filter.mpr ⟨hy, decide_eq_true hne⟩), hoid⟩
    · by_cases hid : u.callId = t.callId
      · obtain rfl : u = t := hu.eq_of_key_eq hu' ht hid
        rw [hphase] at hcreates
        cases hcreates
        exact .inl ⟨_, mem_append_right _ mem_cons_self, rfl⟩
      · exact .inr ⟨u, mem_filter.mpr ⟨hu', decide_eq_true hid⟩, hcreates⟩
  · have hlt : (g.inflight.filter fun x => x.1 ≠ key).length < g.inflight.length :=
      length_filter_lt_length_iff_exists.mpr ⟨_, hmem, by simp⟩
    have hle : (g.sessions.filter fun x => x.1 ≠ key).length ≤ g.sessions.length :=
      length_filter_le _ _
    have hroom := h.room
    simp only [BridgeRegistry.size, length_append, length_singleton] at hroom ⊢
    omega

theorem discard {o : HttpSession} :
    Capped maxSessions
      (BridgeRegistry.close { g with sessions := g.sessions.filter (· ≠ (key, o.oid)) } [o.oid])
      calls := { h with
  free x hx y hy := h.free x hx y (mem_filter.mp hy).1
  covered o' ho' hlive := by
    have hne : o'.oid ∉ [o.oid] := fun hoid =>
      absurd (hlive.symm.trans (BridgeRegistry.not_live_close ho' hoid)) nofun
    have hclosed := h.shrink_nil (BridgeRegistry.shrinks_close [o.oid])
    refine (hclosed.covered o' ho' hlive).imp_left fun ⟨y, hy, hoid⟩ => ⟨y, ?_, hoid⟩
    refine mem_filter.mpr ⟨hy, decide_eq_true ?_⟩
    rintro rfl
    exact hne (mem_singleton.mpr hoid.symm)
  room := Nat.le_trans (Nat.add_le_add_right (length_filter_le _ _) _) h.room }

theorem reconnect {f : HttpSession → HttpSession} (hf : ∀ o, (f o).oid = o.oid)
    (hregistered : ∃ y ∈ g.sessions, y.2 = oid) :
    Capped maxSessions (g.set oid f) calls := { h with
  covered o ho hlive := by
    obtain ⟨o₀, ho₀, rfl⟩ := mem_updateWhere.mp ho
    by_cases hoid : o₀.oid = oid
    · rw [if_pos (decide_eq_true hoid), hf, hoid]
      exact .inl hregistered
    · rw [if_neg (by simpa using hoid)] at hlive ⊢
      exact h.covered o₀ ho₀ hlive }

theorem closeAll (hnone : ∀ t ∈ calls, t.phase.reserves = none) :
    Capped maxSessions (g.cleared.close (g.sessions.map Prod.snd)) calls where
  inflight_unique := nodup_nil
  free _ hx := absurd hx not_mem_nil
  reserved t ht key hkey := absurd ((hnone t ht).symm.trans hkey) nofun
  covered o ho hlive := by
    have hclosed := h.shrink_nil (BridgeRegistry.shrinks_close (g.sessions.map Prod.snd))
    rcases hclosed.covered o ho hlive with ⟨y, hy, hoid⟩ | ⟨t, ht, hcreates⟩
    · have hmem : o.oid ∈ g.sessions.map Prod.snd := hoid ▸ mem_map_of_mem hy
      exact absurd (hlive.symm.trans (BridgeRegistry.not_live_close ho hmem)) nofun
    · exact absurd (hnone t ht) (CallPhase.reserves_ne_none hcreates)
  room := Nat.zero_le _

end

end Capped

/-! ## Steps -/

section Steps

variable {maxSessions : ℕ} {s s' : BridgeCalls} {a : BridgeAct} {t : BridgeCall} {callId : ℕ}
  {key : BridgeKey}

def BridgeCalls.Capped (maxSessions : ℕ) (s : BridgeCalls) : Prop :=
  CodexOctopus.Capped maxSessions s.registry s.calls

theorem Capped.future {g : BridgeRegistry} {calls : List BridgeCall}
    (h : Capped maxSessions g calls) (ht : t ∈ calls) (hkey : t.phase.reserves = some key) :
    g.future key = some t.callId := by
  rw [BridgeRegistry.future, h.inflight_unique.lookup_eq (h.reserved t ht key hkey)]
  rfl

namespace BridgeCalls.Capped

theorem finish (h : s.Capped maxSessions) (hu : Unique BridgeCall.callId s.calls)
    (ht : t ∈ s.calls) (hnone : t.phase.reserves = none) : (s.finish t.callId).Capped
      maxSessions := by
  refine h.of_calls (fun u hu' hreserves => ?_) fun u hu' => .inl (mem_filter.mp hu').1
  refine mem_filter.mpr ⟨hu', decide_eq_true fun hid => ?_⟩
  obtain rfl : u = t := hu.eq_of_key_eq hu' ht hid
  exact hreserves hnone

theorem afterLookup {r : SessionRequest} {result : LookupResult} (h : s.Capped maxSessions)
    (hmove : LookupMove maxSessions callId r s.registry result)
    (hok : result.outcome.isPrevious = true → ∀ o ∈ result.registry.objects, o.live = true →
      o.oid ∉ result.sessionsToClose) :
    (s.afterLookup callId r result).Capped maxSessions := by
  -- the calls of the outcomes that reserve nothing
  have hadd : ∀ {g} {phase : CallPhase}, phase.reserves = none →
      CodexOctopus.Capped maxSessions g s.calls →
      CodexOctopus.Capped maxSessions g (s.calls ++ [⟨callId, r, phase⟩]) := by
    intro g phase hnone hg
    refine hg.of_calls (fun _ ht _ => mem_append_left _ ht) fun t ht => ?_
    rcases mem_append.mp ht with ht | ht
    · exact .inl ht
    · obtain rfl := mem_singleton.mp ht
      exact .inr hnone
  cases hmove with
  | reuse hshrinks => exact hadd rfl (h.shrink_nil hshrinks)
  | reusePrevious hshrinks => exact hadd rfl (h.shrink hshrinks (hok rfl))
  | @raised g' closing error hshrinks hclosed =>
    refine h.shrink hshrinks ?_
    rcases hclosed with hclosed | hfull
    · exact hclosed
    · -- without room, the pass has popped nothing
      have hsize := hshrinks.size_le
      have hroom := h.room
      obtain rfl : closing = [] := length_eq_zero_iff.mp (by omega)
      exact fun _ _ _ => not_mem_nil
  | @leave g' closing outcome hshrinks hleaving =>
    have hclosed := h.shrink_close hshrinks
    cases outcome with
    | forward | failed | awaitCapacity => exact hclosed
    | await => exact hadd rfl hclosed
    | _ => cases hleaving
  | @reserve g' closing forward key hshrinks hfree hunreserved hroom =>
    have hreserved : CodexOctopus.Capped maxSessions
        (BridgeRegistry.close { g' with inflight := g'.inflight ++ [(key, callId)] } closing)
        s.calls :=
      (h.shrink_close hshrinks).reserve hfree hunreserved hroom
    cases forward with
    | true => exact hreserved
    | false => exact hreserved.addCreating (mem_append_right _ mem_cons_self)

theorem step (h : s.Capped maxSessions) (hsound : s.Sound) (hok : KeepsCap maxSessions s a)
    (hs : bridgeStep maxSessions s a = some s') : s'.Capped maxSessions := by
  have hu := hsound.calls_unique
  cases bridgeStep_move hs with
  | lookup hnew => exact h.afterLookup (findSession_move hsound.registry) hok
  | reused ht hphase ho => exact h.finish hu (mem_of_lookup ht) (by rw [hphase]; rfl)
  | abandon ht hphase =>
    refine h.finish hu (mem_of_lookup ht) ?_
    rcases hphase with ⟨oid, hphase⟩ | ⟨key, future, hphase⟩ <;> rw [hphase] <;> rfl
  | create ht hphase hselect hnew => exact CodexOctopus.Capped.create h hu ht hphase
  | @createFailed callId t key ht hphase =>
    have hmem := mem_of_lookup ht
    have hkey : t.phase.reserves = some key := by rw [hphase]; rfl
    rw [BridgeCalls.settle, if_pos (h.future hmem hkey)]
    exact h.release hmem hu hkey fun o _ _ => by rw [hphase]; exact nofun
  | @claimFailed callId oid t key ht hphase =>
    have hmem := mem_of_lookup ht
    have hkey : t.phase.reserves = some key := by rw [hphase]; rfl
    rw [BridgeCalls.settle, if_pos (h.future hmem hkey)]
    have hclosed := h.shrink_nil (BridgeRegistry.shrinks_close [oid])
    refine hclosed.release hmem hu hkey fun o ho hlive hcreates => ?_
    rw [hphase] at hcreates
    have hoid : o.oid ∈ [oid] := mem_singleton.mpr (Option.some.inj hcreates).symm
    exact absurd (hlive.symm.trans (BridgeRegistry.not_live_close ho hoid)) nofun
  | @register callId oid t key o ht hphase ho =>
    have hmem := mem_of_lookup ht
    have hkey : t.phase.reserves = some key := by rw [hphase]; rfl
    have hfuture := h.future hmem hkey
    rw [BridgeCalls.registerSession, if_pos hfuture, BridgeCalls.settle, if_pos]
    · exact CodexOctopus.Capped.register h hmem hu hphase
    · exact hfuture
  | wakeFailed ht hphase =>
    obtain ⟨key, future, hphase⟩ := hphase
    exact h.finish hu (mem_of_lookup ht) (by rw [hphase]; rfl)
  | @wake callId future env t key o ht hphase ho =>
    have hfinish := h.finish hu (mem_of_lookup ht) (by rw [hphase]; rfl)
    unfold BridgeCalls.useAwaited
    split
    · exact hfinish
    · split
      · exact hfinish.discard
      · exact hfinish
  | readerEnds => exact h.shrink_nil (BridgeRegistry.shrinks_set .ending _)
  | reconnect hx hselect =>
    refine CodexOctopus.Capped.reconnect h (fun _ => rfl) ?_
    obtain ⟨y, hy, hoid⟩ := any_eq_true.mp (hok _ hx)
    exact ⟨y, hy, of_decide_eq_true hoid⟩
  | statusChanged => exact h.shrink_nil (BridgeRegistry.shrinks_set (.status _) _)
  | skip => exact h
  | registerTurnState => exact h.shrink_nil (BridgeRegistry.shrinks_addTurnState _)
  | @registerPreviousResponseId _ responseId o =>
    have hadded := BridgeRegistry.shrinks_addPreviousResponseId (g := s.registry) o responseId
    exact h.shrink_nil hadded
  | closeAll => exact CodexOctopus.Capped.closeAll h hok

theorem registered_or_created {o : HttpSession} (h : s.Capped maxSessions) (hsound : s.Sound)
    (ho : o ∈ s.registry.objects) (hlive : o.live = true) :
    s.isRegistered o.oid = true ∨ s.isBeingCreated o.oid = true := by
  rcases h.covered o ho hlive with ⟨y, hy, hoid⟩ | ⟨t, ht, hcreates⟩
  · exact .inl (any_eq_true.mpr ⟨y, hy, decide_eq_true hoid⟩)
  · have hcall : s.call t.callId = some t := hsound.calls_unique.lookup_eq ht
    rcases t with ⟨callId, r, phase⟩
    cases phase <;> cases hcreates
    next key =>
    refine .inr (any_eq_true.mpr ⟨_, h.reserved _ ht key rfl, ?_⟩)
    rw [hcall]
    simp

theorem countP_live_le (h : s.Capped maxSessions) (hsound : s.Sound) :
    s.registry.objects.countP HttpSession.live ≤ s.registry.size := by
  have hnodup : ((s.registry.objects.filter HttpSession.live).map HttpSession.oid).Nodup :=
    (filter_sublist.map HttpSession.oid).nodup hsound.registry.objects_unique
  have hsubset : (s.registry.objects.filter HttpSession.live).map HttpSession.oid ⊆
      s.registry.sessions.map Prod.snd ++ s.registry.inflight.filterMap fun x =>
        (s.call x.2).bind fun t => t.phase.creates := by
    intro oid hoid
    obtain ⟨o, ho, rfl⟩ := mem_map.mp hoid
    obtain ⟨ho, hlive⟩ := mem_filter.mp ho
    refine mem_append.mpr ?_
    rcases h.covered o ho hlive with ⟨y, hy, hy'⟩ | ⟨t, ht, hcreates⟩
    · exact .inl (hy' ▸ mem_map_of_mem hy)
    · obtain ⟨key, hkey⟩ :=
        Option.ne_none_iff_exists'.mp (CallPhase.reserves_ne_none hcreates)
      refine .inr (mem_filterMap.mpr ⟨_, h.reserved t ht key hkey, ?_⟩)
      have hcall : s.call t.callId = some t := hsound.calls_unique.lookup_eq ht
      rw [hcall]
      exact hcreates
  have hle := (subperm_of_subset hnodup hsubset).length_le
  have hinflight := length_filterMap_le
    (fun x : BridgeKey × ℕ => (s.call x.2).bind fun t => t.phase.creates) s.registry.inflight
  rw [length_map, length_append, length_map] at hle
  rw [countP_eq_length_filter, BridgeRegistry.size]
  omega

end BridgeCalls.Capped

end Steps

/-! ## The result -/

def openActs (callId oid : ℕ) (cacheKey : String) (env : LookupEnv) : List BridgeAct :=
  [.lookup callId (cacheRequest cacheKey ["a"] none) env, .create callId oid ⟨none, [], ["a"]⟩,
   .register callId]

def evictActs : List BridgeAct :=
  openActs 0 0 "k1" quietEnv ++ [.readerEnds 0, .reconnect 0 ⟨none, [], ["a"]⟩ true] ++
    openActs 1 1 "k2" { quietEnv with evictable := [0] }

def reopenActs : List BridgeAct :=
  openActs 0 0 "k1" quietEnv ++
    [.lookup 1 (cacheRequest "k1" ["a"] none) quietEnv, .readerEnds 0, .reused 1] ++
    openActs 2 1 "k2" quietEnv ++ [.reconnect 1 ⟨none, [], ["a"]⟩ true]

end CodexOctopus

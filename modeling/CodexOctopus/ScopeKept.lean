import CodexOctopus.SessionRegistry

/-!
# The account scope of API keys on session reuse

An API key may be limited to some accounts, and the limits may change between two requests. A
call that finds the session of its key checks the session's account, as does a call that waited
for a session; a new session is opened on an account within the scope. The session that the
previous response of a request came from is returned as it is.

* `ScopeKept`: every session that was returned is on an account of the API key's scope.
* `InScope` is the condition on steps: the session of a previous response is within the scope,
  and no session is moved to another account while a call is about to return it, unless that
  account is within the call's scope.
-/

namespace CodexOctopus

open List Option Table Lts

def ScopeKept (s : BridgeCalls) : Prop :=
  ∀ x ∈ s.returned, ∀ k ∈ x.apiKey, k.accountAssignmentScopeEnabled = true →
    x.accountId ∈ k.assignedAccountIds

def CallPhase.holds : CallPhase → Option ℕ
  | .reusing oid | .created _ oid => some oid
  | .awaiting _ _ | .creating _ => none

def LookupResult.previous (result : LookupResult) : Option HttpSession :=
  match result.outcome with
  | .reusePrevious oid => result.registry.object oid
  | _ => none

def InScope (maxSessions : ℕ) (s : BridgeCalls) : BridgeAct → Prop
  | .lookup callId r env =>
    ∀ o ∈ (findSession maxSessions callId r env s.registry).previous, o.allowsApiKey r.apiKey = true
  | .reconnect callId choice _ =>
    ∀ x ∈ lookup ReturnedSession.callId s.returned callId,
      ∀ accountId ∈ selectAccountWithBudget x.apiKey choice, ∀ t ∈ s.calls,
        t.phase.holds = some x.oid → ApiKeyScope.allows accountId t.request.apiKey = true
  | _ => True

instance decidableInScope (maxSessions : ℕ) (s : BridgeCalls) :
    ∀ a, Decidable (InScope maxSessions s a)
  | .lookup _ _ _ | .reconnect _ _ _ => by
    unfold InScope
    infer_instance
  | .reused _ | .abandon _ | .create _ _ _ | .creationFailed _ | .register _ | .wake _ _
  | .readerEnds _ | .statusChanged _ _ | .registerTurnState _ _ | .registerPreviousResponseId _ _
  | .closeAll => inferInstanceAs (Decidable True)

/-! ## Selection stays within the scope -/

variable {accountId : String}

theorem mem_of_allows {k : ApiKeyScope} (h : ApiKeyScope.allows accountId (some k) = true)
    (hscope : k.accountAssignmentScopeEnabled = true) : accountId ∈ k.assignedAccountIds := by
  simpa [ApiKeyScope.allows, hscope] using h

theorem allows_eq_scoped {apiKey : Option ApiKeyScope} :
    ApiKeyScope.allows accountId apiKey =
      (scopedAccountIds apiKey).all fun ids => ids.contains accountId := by
  cases apiKey with
  | none => rfl
  | some k => by_cases h : k.accountAssignmentScopeEnabled <;> simp
      [ApiKeyScope.allows, scopedAccountIds, h]

theorem all_of_selectAccount {accountIds : Option (List String)} {excluded ranking : List String}
    (h : selectAccount accountIds excluded ranking = some accountId) :
    accountIds.all (fun ids => ids.contains accountId) = true := by
  have hfound := find?_some h
  exact (Bool.and_eq_true_iff.mp hfound).1

theorem allows_of_select {apiKey : Option ApiKeyScope} {choice : AccountChoice}
    (h : selectAccountWithBudget apiKey choice = some accountId) :
    ApiKeyScope.allows accountId apiKey = true := by
  rw [allows_eq_scoped]
  unfold selectAccountWithBudget at h
  dsimp only at h
  rw [orElse_eq_orElse, orElse_eq_or] at h
  rcases or_eq_some_iff.mp h with h | ⟨-, h⟩
  · obtain ⟨p, hp, hselect⟩ := bind_eq_some_iff.mp h
    obtain ⟨-, hallowed⟩ := filter_eq_some_iff.mp hp
    have hmem := all_of_selectAccount hselect
    obtain rfl : accountId = p := by simpa using hmem
    exact (Bool.and_eq_true_iff.mp hallowed).2
  · exact all_of_selectAccount h

/-! ## The invariant -/

def KeepsAccounts (g g' : BridgeRegistry) : Prop :=
  ∀ oid o, g.object oid = some o → ∃ o', g'.object oid = some o' ∧ o'.accountId = o.accountId

theorem BridgeRegistry.Shrinks.keepsAccounts {g g' : BridgeRegistry}
    {closing : List ℕ} (h : g.Shrinks g' closing) : KeepsAccounts g g' :=
  fun _ _ ho => h.object ho

namespace KeepsAccounts

variable {g g' : BridgeRegistry}

theorem of_objects (h : g'.objects = g.objects) : KeepsAccounts g g' := fun oid o ho => by
  refine ⟨o, ?_, rfl⟩
  rw [BridgeRegistry.object, h]
  exact ho

theorem trans {g'' : BridgeRegistry} (h : KeepsAccounts g g') (h' : KeepsAccounts g' g'') :
    KeepsAccounts g g'' := fun oid o ho => by
  obtain ⟨o', ho', heq⟩ := h oid o ho
  obtain ⟨o'', ho'', heq'⟩ := h' oid o' ho'
  exact ⟨o'', ho'', heq'.trans heq⟩

theorem set {oid : ℕ} {f : HttpSession → HttpSession}
    (hf : ∀ o, (f o).oid = o.oid ∧ (f o).accountId = o.accountId) :
    KeepsAccounts g (g.set oid f) := fun oid' o ho => by
  refine ⟨_, BridgeRegistry.object_set (fun o => (hf o).1) ho, ?_⟩
  split
  · exact (hf o).2
  · rfl

theorem lookup {maxSessions callId : ℕ} {r : SessionRequest} {result : LookupResult}
    (hmove : LookupMove maxSessions callId r g result) : KeepsAccounts g result.registry := by
  cases hmove with
  | reuse hg | reusePrevious hg | raised hg | leave hg => exact hg.keepsAccounts
  | reserve hg => exact hg.keepsAccounts.trans (of_objects rfl)

end KeepsAccounts

/-- **What calls hold and what they returned is within their scope.** -/
structure Scoped (s : BridgeCalls) : Prop where
  holds : ∀ t ∈ s.calls, ∀ oid ∈ t.phase.holds, ∃ o, s.registry.object oid = some o ∧
    o.allowsApiKey t.request.apiKey = true
  returned : ∀ x ∈ s.returned, ApiKeyScope.allows x.accountId x.apiKey = true

theorem newBridgeCalls_scoped : Scoped newBridgeCalls where
  holds _ ht := absurd ht not_mem_nil
  returned _ hx := absurd hx not_mem_nil

namespace Scoped

variable {maxSessions : ℕ} {s s' : BridgeCalls} {a : BridgeAct} {t : BridgeCall}

theorem of_keeps (h : Scoped s) (hg : KeepsAccounts s.registry s'.registry)
    (hcalls : ∀ t ∈ s'.calls, t ∈ s.calls ∨ t.phase.holds = none)
    (hreturned : s'.returned = s.returned) : Scoped s' where
  holds t ht oid hoid := by
    rcases hcalls t ht with ht | hnone
    · obtain ⟨o, ho, hallows⟩ := h.holds t ht oid hoid
      obtain ⟨o', ho', heq⟩ := hg oid o ho
      refine ⟨o', ho', ?_⟩
      rw [HttpSession.allowsApiKey, heq]
      exact hallows
    · exact absurd (hnone.symm.trans hoid) nofun
  returned := hreturned ▸ h.returned

theorem finish (h : Scoped s) (callId : ℕ) : Scoped (s.finish callId) :=
  h.of_keeps (.of_objects rfl) (fun _ ht => .inl (mem_filter.mp ht).1) rfl

variable {o : HttpSession} {key : BridgeKey} {callId oid : ℕ}

theorem giveBack (h : Scoped s) (hallows : o.allowsApiKey t.request.apiKey = true) :
    Scoped (s.giveBack t o) where
  holds := (h.finish t.callId).holds
  returned x hx := by
    rcases mem_append.mp hx with hx | hx
    · exact h.returned x hx
    · obtain rfl := mem_singleton.mp hx
      exact hallows

theorem settle {result : Option ℕ} (h : Scoped s) :
    Scoped (s.settle key callId result) := by
  unfold BridgeCalls.settle
  split
  · exact h.of_keeps (.of_objects rfl) (fun _ ht => .inl ht) rfl
  · exact h

theorem registerSession (h : Scoped s) :
    Scoped (s.registerSession key callId oid) := by
  unfold BridgeCalls.registerSession
  split
  · exact h.of_keeps (.of_objects rfl) (fun _ ht => .inl ht) rfl
  · exact h

theorem useAwaited {env : LookupEnv} (h : Scoped s) :
    Scoped (s.useAwaited t key o env) := by
  unfold BridgeCalls.useAwaited
  split
  · next hreuse =>
    exact h.giveBack (Bool.and_eq_true_iff.mp (Bool.and_eq_true_iff.mp hreuse).1).2
  · split
    · refine (h.finish t.callId).of_keeps ?_ (fun _ ht => .inl ht) rfl
      exact (KeepsAccounts.of_objects rfl).trans
        (BridgeRegistry.shrinks_close [o.oid]).keepsAccounts
    · exact h.finish t.callId

theorem add {g : BridgeRegistry} {r : SessionRequest} {callIds : List ℕ} (h : Scoped s)
    (hg : KeepsAccounts s.registry g) (ho : g.object oid = some o)
    (hallows : o.allowsApiKey r.apiKey = true) :
    Scoped { s with registry := g, calls := s.calls ++ [⟨callId, r, .reusing oid⟩],
                    callIds := callIds } where
  holds t ht oid' hoid := by
    rcases mem_append.mp ht with ht | ht
    · have hold : Scoped { s with registry := g } := h.of_keeps hg (fun _ ht => .inl ht) rfl
      exact hold.holds t ht oid' hoid
    · obtain rfl := mem_singleton.mp ht
      cases hoid
      exact ⟨o, ho, hallows⟩
  returned := h.returned

theorem afterLookup {r : SessionRequest} {result : LookupResult} (h : Scoped s)
    (hmove : LookupMove maxSessions callId r s.registry result)
    (hok : ∀ o ∈ result.previous, o.allowsApiKey r.apiKey = true) :
    Scoped (s.afterLookup callId r result) := by
  have hg := KeepsAccounts.lookup hmove
  have hclosed := hg.trans (BridgeRegistry.shrinks_close result.sessionsToClose).keepsAccounts
  -- the calls of the outcomes that hold no session
  have hadd : ∀ phase : CallPhase, phase.holds = none → ∀ t ∈ s.calls ++ [⟨callId, r, phase⟩],
      t ∈ s.calls ∨ t.phase.holds = none := by
    intro phase hnone t ht
    rcases mem_append.mp ht with ht | ht
    · exact .inl ht
    · obtain rfl := mem_singleton.mp ht
      exact .inr hnone
  cases hmove with
  | reuse hshrinks hfound hallows => exact h.add hg hfound hallows
  | reusePrevious hshrinks hfound => exact h.add hg hfound (hok _ hfound)
  | raised => exact h.of_keeps hg (fun _ ht => .inl ht) rfl
  | @leave g' closing outcome hshrinks hleaving =>
    cases outcome with
    | forward | failed | awaitCapacity => exact h.of_keeps hclosed (fun _ ht => .inl ht) rfl
    | await key future => exact h.of_keeps hclosed (hadd _ rfl) rfl
    | _ => cases hleaving
  | @reserve g' closing forward key =>
    cases forward with
    | true => exact h.of_keeps hclosed (fun _ ht => .inl ht) rfl
    | false => exact h.of_keeps hclosed (hadd _ rfl) rfl

theorem create {accountId : String} (h : Scoped s) (hsound : s.Sound) (ht : s.call callId = some t)
    (hnew : s.registry.object oid = none)
    (hallows : ApiKeyScope.allows accountId t.request.apiKey = true) :
    Scoped { s.setPhase t.callId (.created key oid) with
      registry :=
        { s.registry with objects := s.registry.objects ++ [newSession oid key accountId] } } where
  holds t' ht' oid' hoid := by
    obtain ⟨t₀, ht₀, rfl⟩ := mem_updateWhere.mp ht'
    split at hoid
    · next hid =>
      obtain rfl : t₀ = t := hsound.calls_unique.eq_of_key_eq ht₀ (mem_of_lookup ht)
        (of_decide_eq_true hid)
      cases hoid
      have hadded := hsound.registry.add (o := newSession oid key accountId) hnew
      refine ⟨_, hadded.objects_unique.lookup_eq (mem_append_right _ mem_cons_self), ?_⟩
      rw [if_pos hid]
      exact hallows
    · next hid =>
      obtain ⟨o, ho, hallows⟩ := h.holds t₀ ht₀ oid' hoid
      rw [if_neg hid]
      exact ⟨o, lookup_append_of_some ho, hallows⟩
  returned := h.returned

theorem reconnect {accountId : String} (h : Scoped s)
    (hallows : ∀ t ∈ s.calls, t.phase.holds = some oid →
      ApiKeyScope.allows accountId t.request.apiKey = true) :
    Scoped { s with registry := s.registry.set oid fun o =>
      { o with accountId := accountId, accountActive := true, closed := false,
               reading := true } } where
  holds t ht oid' hoid := by
    obtain ⟨o, ho, hold⟩ := h.holds t ht oid' hoid
    refine ⟨_, BridgeRegistry.object_set ?_ ho, ?_⟩
    · exact fun _ => rfl
    · split
      · next hmoved =>
        obtain rfl : oid' = oid := (key_of_lookup ho).symm.trans hmoved
        exact hallows t ht hoid
      · exact hold
  returned := h.returned

theorem step (h : Scoped s) (hsound : s.Sound) (hok : InScope maxSessions s a)
    (hs : bridgeStep maxSessions s a = some s') : Scoped s' := by
  have hcalls : ∀ t ∈ s.calls, t ∈ s.calls ∨ t.phase.holds = none := fun _ ht => .inl ht
  cases bridgeStep_move hs with
  | lookup hnew => exact h.afterLookup (findSession_move hsound.registry) hok
  | reused ht hphase ho =>
    obtain ⟨o', ho', hallows⟩ :=
      h.holds _ (mem_of_lookup ht) _ (by rw [hphase]; exact rfl)
    obtain rfl := some.inj (ho.symm.trans ho')
    exact h.giveBack hallows
  | abandon => exact h.finish _
  | create ht hphase hselect hnew => exact h.create hsound ht hnew (allows_of_select hselect)
  | createFailed => exact h.settle.finish _
  | claimFailed =>
    exact (h.settle.finish _).of_keeps (BridgeRegistry.shrinks_close _).keepsAccounts
      (fun _ ht => .inl ht) rfl
  | register ht hphase ho =>
    obtain ⟨o', ho', hallows⟩ :=
      h.holds _ (mem_of_lookup ht) _ (by rw [hphase]; exact rfl)
    obtain rfl := some.inj (ho.symm.trans ho')
    exact h.registerSession.settle.giveBack hallows
  | wakeFailed => exact h.finish _
  | wake => exact h.useAwaited
  | readerEnds => exact h.of_keeps (.set fun _ => ⟨rfl, rfl⟩) hcalls rfl
  | reconnect hx hselect => exact h.reconnect (hok _ hx _ hselect)
  | statusChanged => exact h.of_keeps (.set fun _ => ⟨rfl, rfl⟩) hcalls rfl
  | skip => exact h
  | registerTurnState =>
    exact h.of_keeps (BridgeRegistry.shrinks_addTurnState _).keepsAccounts hcalls rfl
  | @registerPreviousResponseId _ responseId o =>
    have hadded := (BridgeRegistry.shrinks_addPreviousResponseId (g := s.registry) o responseId)
    exact h.of_keeps hadded.keepsAccounts hcalls rfl
  | closeAll =>
    have hcleared : KeepsAccounts s.registry s.registry.cleared := .of_objects rfl
    exact h.of_keeps (hcleared.trans (BridgeRegistry.shrinks_close _).keepsAccounts) hcalls rfl

end Scoped

/-! ## The result -/

/-- **The scope of an API key is kept**, in every run whose steps meet the condition: a session that
is returned is on one of the key's accounts, whichever way it was found. -/
theorem scope_kept {maxSessions : ℕ} {acts : List BridgeAct} {s : BridgeCalls}
    (hok : Along (bridgeStep maxSessions) (InScope maxSessions) acts newBridgeCalls)
    (hrun : run (bridgeStep maxSessions) acts newBridgeCalls = some s) : ScopeKept s := by
  have hstep : ∀ {s a s'}, s.Sound ∧ Scoped s → InScope maxSessions s a →
      bridgeStep maxSessions s a = some s' → s'.Sound ∧ Scoped s' :=
    fun h hok hs => ⟨h.1.step hs, h.2.step h.1 hok hs⟩
  obtain ⟨-, hinv⟩ := run_invariant_along hstep ⟨newBridgeCalls_sound, newBridgeCalls_scoped⟩
    hok hrun
  intro x hx k hk hscope
  have hallows := hinv.returned x hx
  rw [mem_def.mp hk] at hallows
  exact mem_of_allows hallows hscope

/-- A session on account `a` answers `resp_0`. A request with another prompt cache key goes on from
that response, with an API key that may use the given accounts. -/
def continueActs (accountIds : List String) : List BridgeAct :=
  [.lookup 0 (cacheRequest "k1" ["a", "b"] none) quietEnv, .create 0 0 ⟨none, [], ["a", "b"]⟩,
   .register 0, .registerPreviousResponseId 0 "resp_0",
   .lookup 1 (cacheRequest "k2" accountIds (some "resp_0")) quietEnv, .reused 1]

theorem scope_kept_continue :
    ∃ s, run (bridgeStep 2) (continueActs ["a"]) newBridgeCalls = some s ∧
      Along (bridgeStep 2) (InScope 2) (continueActs ["a"]) newBridgeCalls ∧
      s.returned.length = 2 ∧ ScopeKept s := by
  have hrun : run (bridgeStep 2) (continueActs ["a"]) newBridgeCalls = some _ := rfl
  have hok : Along (bridgeStep 2) (InScope 2) (continueActs ["a"]) newBridgeCalls := by decide
  exact ⟨_, hrun, hok, by decide, scope_kept hok hrun⟩

/-- **The counterexample**: the accounts of the key are changed to `b` only, and the session on
account `a` is still returned for it. -/
theorem previous_response_out_of_scope :
    ∃ s, run (bridgeStep 2) (continueActs ["b"]) newBridgeCalls = some s ∧ ¬ScopeKept s := by
  refine ⟨_, rfl, fun h => ?_⟩
  have hmem := h ⟨1, some (scopedKey ["b"]), 0, "a"⟩ (by decide) (scopedKey ["b"]) rfl rfl
  exact absurd hmem (by decide)

end CodexOctopus

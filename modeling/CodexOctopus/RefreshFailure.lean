import CodexOctopus.TokenRefresh

/-!
# A failed refresh and the current token

After a permanent error `refresh_account` reads the row again, and deactivates the account if its
refresh token is still the one that was rejected. A refresh of another task may have succeeded
with that token and not be stored yet, or be stored between the re-read and the write; and a task
whose object belongs to its database session gets that same object back instead of the row.

* `DeactivatedRightly`: whenever DEACTIVATED was written, the rejected token was in the row and
  no refresh of another task with it had succeeded.
* `FailsRightly` is the condition on steps: a re-read that finds the token unchanged does so while
  the row has it and no refresh with it has succeeded, and no other token is stored between such
  a re-read and the write.
-/

namespace CodexOctopus

open List Table Lts

def DeactivatedRightly (s : AuthState) : Prop :=
  ∀ d ∈ s.deactivations, d.rejected = d.stored ∧ d.succeeded = false

def AuthTask.isDeactivating (t : AuthTask) : Bool :=
  match t.phase with
  | .deactivating _ => true
  | _ => false

def AuthTask.isFailing (t : AuthTask) : Bool :=
  match t.phase with
  | .rejected _ | .deactivating _ => true
  | _ => false

def StoresSameToken (s : AuthState) (taskId : ℕ) : Prop :=
  ∀ t ∈ s.task taskId, ∀ u ∈ s.tasks, u.isDeactivating = true →
    u.account.refreshToken = t.account.refreshToken

def FailsRightly (s : AuthState) : AuthAct → Prop
  | .reread taskId => ∀ t ∈ s.task taskId, (s.latest t).refreshToken = t.account.refreshToken →
    s.row.refreshToken = t.account.refreshToken ∧ s.otherSucceeded t = false
  | .store taskId => StoresSameToken s taskId
  | .commitSync taskId => StoresSameToken s taskId
  | _ => True

instance decidableStoresSameToken (s : AuthState) (taskId : ℕ) :
    Decidable (StoresSameToken s taskId) := by
  unfold StoresSameToken
  infer_instance

instance decidableFailsRightly (s : AuthState) : ∀ a, Decidable (FailsRightly s a)
  | .reread _ | .store _ | .commitSync _ => by
    unfold FailsRightly
    infer_instance
  | .load _ _ | .clone _ _ | .refresh _ | .accept _ _ _ _ | .reject _ _ | .revoke _ | .receive _
  | .deactivate _ | .syncPlanType _ _ | .ensureChatgptAccountId _ | .syncFromRepo _
  | .leave _ => inferInstanceAs (Decidable True)

/-! ## The invariant -/

structure Rightful (s : AuthState) : Prop where
  spent : ∀ t ∈ s.tasks, t.isFailing = true → t.account.refreshToken ∈ s.spent
  stored : ∀ t ∈ s.tasks, t.isDeactivating = true → t.account.refreshToken = s.row.refreshToken
  alone : ∀ t ∈ s.tasks, t.isDeactivating = true → ∀ u ∈ s.tasks, u.taskId ≠ t.taskId →
    u.hasSpent t.account.refreshToken = false
  recorded : DeactivatedRightly s

theorem newAuthState_rightful (account : AuthAccount) : Rightful (newAuthState account) where
  spent _ ht := absurd ht not_mem_nil
  stored _ ht := absurd ht not_mem_nil
  alone _ ht := absurd ht not_mem_nil
  recorded _ hd := absurd hd not_mem_nil

section Phases

variable {t : AuthTask}

theorem isFailing_of_isDeactivating (h : t.isDeactivating = true) : t.isFailing = true := by
  rcases t with ⟨taskId, account, attached, phase⟩
  cases phase <;> first | rfl | cases h

theorem isFailing_of_isQuiet (h : t.isQuiet = true) : t.isFailing = false := by
  rcases t with ⟨taskId, account, attached, phase⟩
  cases phase <;> first | rfl | cases h

theorem hasSpent_of_isQuiet (h : t.isQuiet = true) (token : ℕ) : t.hasSpent token = false := by
  rcases t with ⟨taskId, account, attached, phase⟩
  cases phase <;> first | rfl | cases h

end Phases

namespace Rightful

variable {s s' : AuthState} {a : AuthAct} {t : AuthTask}

theorem of_tasks (h : Rightful s) (hrow : s'.row.refreshToken = s.row.refreshToken)
    (hspent : s.spent ⊆ s'.spent) (hrecorded : s'.deactivations = s.deactivations)
    (htasks : ∀ t ∈ s'.tasks, t ∈ s.tasks ∨ t.isFailing = false ∧
      ∀ u ∈ s.tasks, u.isDeactivating = true → u.taskId ≠ t.taskId →
        t.hasSpent u.account.refreshToken = false) : Rightful s' := by
  have hold : ∀ t ∈ s'.tasks, t.isFailing = true → t ∈ s.tasks := fun t ht hfailing =>
    (htasks t ht).resolve_right fun hnew => absurd (hnew.1.symm.trans hfailing) nofun
  refine ⟨fun t ht hfailing => ?_, fun t ht hdeact => ?_, fun t ht hdeact u hu hid => ?_, ?_⟩
  · exact hspent (h.spent t (hold t ht hfailing) hfailing)
  · rw [hrow]
    exact h.stored t (hold t ht (isFailing_of_isDeactivating hdeact)) hdeact
  · have ht' := hold t ht (isFailing_of_isDeactivating hdeact)
    rcases htasks u hu with hu | ⟨-, hnew⟩
    · exact h.alone t ht' hdeact u hu hid
    · exact hnew t ht' hdeact fun heq => hid heq.symm
  · rw [DeactivatedRightly, hrecorded]
    exact h.recorded

theorem set (h : Rightful s) (hfailing : t.isFailing = false)
    (hnew : ∀ u ∈ s.tasks, u.isDeactivating = true → u.taskId ≠ t.taskId →
      t.hasSpent u.account.refreshToken = false) : Rightful (s.setTask t) :=
  h.of_tasks rfl (List.Subset.refl _) rfl fun u hu => by
    rcases AuthState.mem_setTask hu with rfl | ⟨hu, -⟩
    · exact .inr ⟨hfailing, hnew⟩
    · exact .inl hu

theorem setQuiet (h : Rightful s) (hquiet : t.isQuiet = true) : Rightful (s.setTask t) :=
  h.set (isFailing_of_isQuiet hquiet) fun _ _ _ _ => hasSpent_of_isQuiet hquiet _

theorem reject {code : String} (h : Rightful s)
    (hspent : t.account.refreshToken ∈ s.spent) :
    Rightful (s.setTask { t with phase := .rejected code }) where
  spent u hu hfailing := by
    rcases AuthState.mem_setTask hu with rfl | ⟨hu, -⟩
    · exact hspent
    · exact h.spent u hu hfailing
  stored u hu hdeact := by
    rcases AuthState.mem_setTask hu with rfl | ⟨hu, -⟩
    · cases hdeact
    · exact h.stored u hu hdeact
  alone u hu hdeact v hv hid := by
    rcases AuthState.mem_setTask hu with rfl | ⟨hu, -⟩
    · cases hdeact
    · rcases AuthState.mem_setTask hv with rfl | ⟨hv, -⟩
      · rfl
      · exact h.alone u hu hdeact v hv hid
  recorded := h.recorded

theorem reread {code : String} (h : Rightful s) (ht : t ∈ s.tasks)
    (hphase : t.phase = .rejected code)
    (hstored : s.row.refreshToken = t.account.refreshToken) (hother : s.otherSucceeded t = false) :
    Rightful (s.setTask { t with phase := .deactivating code }) where
  spent u hu hfailing := by
    rcases AuthState.mem_setTask hu with rfl | ⟨hu, -⟩
    · exact h.spent t ht (by rw [AuthTask.isFailing, hphase])
    · exact h.spent u hu hfailing
  stored u hu hdeact := by
    rcases AuthState.mem_setTask hu with rfl | ⟨hu, -⟩
    · exact hstored.symm
    · exact h.stored u hu hdeact
  alone u hu hdeact v hv hid := by
    rcases AuthState.mem_setTask hv with rfl | ⟨hv, hvt⟩
    · rfl
    · rcases AuthState.mem_setTask hu with rfl | ⟨hu, -⟩
      · have hnot := any_eq_false.mp hother v hv
        simpa [hvt] using hnot
      · exact h.alone u hu hdeact v hv hid
  recorded := h.recorded

theorem commit (h : Rightful s)
    (hsame : ∀ u ∈ s.tasks, u.isDeactivating = true →
      u.account.refreshToken = t.account.refreshToken) : Rightful (s.commit t) := by
  have hset : Rightful (s.setTask { t with phase := .idle }) := h.setQuiet rfl
  refine ⟨hset.spent, fun u hu hdeact => ?_, hset.alone, h.recorded⟩
  rcases AuthState.mem_setTask hu with rfl | ⟨hu, -⟩
  · cases hdeact
  · exact hsame u hu hdeact

theorem step (h : Rightful s) (hok : FailsRightly s a) (hs : authStep s a = some s') :
    Rightful s' := by
  cases authStep_move hs with
  | start hquiet =>
    refine h.of_tasks rfl (List.Subset.refl _) rfl fun u hu => ?_
    rcases AuthState.mem_start hu with hu | rfl
    · exact .inl hu
    · exact .inr ⟨isFailing_of_isQuiet hquiet, fun _ _ _ _ => hasSpent_of_isQuiet hquiet _⟩
  | go hquiet => exact h.setQuiet hquiet
  | @accept taskId t accountId planType email ht hphase hunspent =>
    refine h.of_tasks rfl (subset_cons_self _ _) rfl fun u hu => ?_
    rcases AuthState.mem_setTask hu with rfl | ⟨hu, -⟩
    · refine .inr ⟨rfl, fun u hu hdeact _ => decide_eq_false fun heq => ?_⟩
      have hspent := h.spent u hu (isFailing_of_isDeactivating hdeact)
      exact hunspent (heq ▸ hspent)
    · exact .inl hu
  | reject ht hphase hspent => exact h.reject hspent
  | revoke => exact h.of_tasks rfl (subset_cons_self _ _) rfl fun _ ht => .inl ht
  | @receive taskId t result ht hphase =>
    refine h.set rfl fun u hu hdeact hid => ?_
    have hbefore := h.alone u hu hdeact t (mem_of_lookup ht) fun heq => hid heq.symm
    rw [AuthTask.hasSpent, hphase] at hbefore
    exact hbefore
  | store ht hphase => exact h.commit (hok _ ht)
  | commitSync ht hphase => exact h.commit (hok _ ht)
  | reread ht hphase hsame =>
    obtain ⟨hstored, hother⟩ := hok _ ht hsame
    exact h.reread (mem_of_lookup ht) hphase hstored hother
  | @deactivate taskId t code ht hphase =>
    have hmem := mem_of_lookup ht
    have hdeact : t.isDeactivating = true := by rw [AuthTask.isDeactivating, hphase]
    have hend : Rightful (s.endTask t.taskId) :=
      h.of_tasks rfl (List.Subset.refl _) rfl fun _ ht => .inl (mem_filter.mp ht).1
    refine ⟨hend.spent, hend.stored, hend.alone, fun d hd => ?_⟩
    rcases mem_append.mp hd with hd | hd
    · exact h.recorded d hd
    · obtain rfl := mem_singleton.mp hd
      refine ⟨h.stored t hmem hdeact, any_eq_false.mpr fun u hu => ?_⟩
      by_cases hid : u.taskId = t.taskId
      · simp [hid]
      · simp [h.alone t hmem hdeact u hu hid]
  | leave =>
    exact h.of_tasks rfl (List.Subset.refl _) rfl fun _ ht => .inl (mem_filter.mp ht).1

end Rightful

/-! ## The result -/

/-- **A failed refresh deactivates an account only for its current token**, in every run whose
steps all meet the condition. -/
theorem deactivated_rightly {account : AuthAccount} {acts : List AuthAct} {s : AuthState}
    (hok : Along authStep FailsRightly acts (newAuthState account))
    (hrun : run authStep acts (newAuthState account) = some s) : DeactivatedRightly s :=
  (run_invariant_along Rightful.step (newAuthState_rightful account) hok hrun).recorded

def plusAccount : AuthAccount := ⟨0, some "acc", "plus", "b@example.com", some "acc", .active, none⟩

def lostAnswerActs : List AuthAct :=
  [.load 0 false, .load 1 false, .refresh 0, .accept 0 none none none, .leave 0, .refresh 1,
   .reject 1 "refresh_token_reused", .reread 1, .deactivate 1]

theorem deactivated_rightly_lost :
    ∃ s, run authStep lostAnswerActs (newAuthState plusAccount) = some s ∧
      Along authStep FailsRightly lostAnswerActs (newAuthState plusAccount) ∧
      s.row.status = .deactivated ∧ DeactivatedRightly s := by
  have hrun : run authStep lostAnswerActs (newAuthState plusAccount) = some _ := rfl
  have hok : Along authStep FailsRightly lostAnswerActs (newAuthState plusAccount) := by decide
  exact ⟨_, hrun, hok, by decide, deactivated_rightly hok hrun⟩

def replicaActs : List AuthAct :=
  [.load 0 false, .load 1 false, .refresh 0, .refresh 1, .accept 0 none none none,
   .reject 1 "refresh_token_reused", .reread 1, .receive 0, .store 0, .deactivate 1]

/-- **The counterexample**: the account is deactivated although its new tokens are stored. -/
theorem replica_deactivates_refreshed_account :
    ∃ s, run authStep replicaActs (newAuthState plusAccount) = some s ∧
      s.row.refreshToken = 1 ∧ s.row.status = .deactivated ∧ ¬DeactivatedRightly s := by
  refine ⟨_, rfl, by decide, by decide, fun h => ?_⟩
  exact absurd (h ⟨0, 1, false⟩ (by decide)).1 (by decide)

end CodexOctopus

import CodexOctopus.TokenRefresh

/-!
# Stored tokens do not go back

`refresh_account` stores tokens that are newer than those in the row, as long as refreshes are
stored in the order in which they were granted. `_sync_plan_type` and
`_ensure_chatgpt_account_id`, however, write all tokens of their object back although they change
another column, and the object may have been loaded before the last refresh.

* `TokensKept`: the row's refresh token is not older than any that was committed.
* `KeepsTokens` is the condition on steps: no refresh is granted while another one is not stored
  yet, and a side update carries the token of the row, or the newest one.
-/

namespace CodexOctopus

open List Table Lts

def TokensKept (s : AuthState) : Prop := ∀ g ∈ s.committed, g ≤ s.row.refreshToken

def AuthTask.unstored (t : AuthTask) : Option ℕ :=
  match t.phase with
  | .granted result => some result.refreshToken
  | .storing _ => some t.account.refreshToken
  | _ => none

def KeepsTokens (s : AuthState) : AuthAct → Prop
  | .accept taskId _ _ _ => ∀ u ∈ s.tasks, u.taskId ≠ taskId → u.unstored = none
  | .commitSync taskId => ∀ t ∈ s.task taskId,
    t.account.refreshToken = s.row.refreshToken ∨ t.account.refreshToken = s.issued
  | _ => True

instance decidableKeepsTokens (s : AuthState) : ∀ a, Decidable (KeepsTokens s a)
  | .accept _ _ _ _ | .commitSync _ => by
    unfold KeepsTokens
    infer_instance
  | .load _ _ | .clone _ _ | .refresh _ | .reject _ _ | .revoke _ | .receive _ | .store _
  | .reread _ | .deactivate _ | .syncPlanType _ _ | .ensureChatgptAccountId _ | .syncFromRepo _
  | .leave _ => inferInstanceAs (Decidable True)

/-! ## The invariant -/

structure Ordered (s : AuthState) : Prop where
  row_le : s.row.refreshToken ≤ s.issued
  newest : ∀ t ∈ s.tasks, ∀ g ∈ t.unstored, g = s.issued
  committed : TokensKept s

theorem newAuthState_ordered (account : AuthAccount) : Ordered (newAuthState account) where
  row_le := Nat.le_refl 0
  newest _ ht := absurd ht not_mem_nil
  committed _ hg := absurd hg not_mem_nil

namespace Ordered

variable {s s' : AuthState} {a : AuthAct} {t : AuthTask}

theorem of_tasks (h : Ordered s) (hrow : s'.row.refreshToken = s.row.refreshToken)
    (hissued : s'.issued = s.issued) (hcommitted : s'.committed = s.committed)
    (htasks : ∀ t ∈ s'.tasks, t ∈ s.tasks ∨ ∀ g ∈ t.unstored, g = s.issued) : Ordered s' where
  row_le := by
    rw [hrow, hissued]
    exact h.row_le
  newest t ht g hg := by
    rw [hissued]
    rcases htasks t ht with ht | hnew
    · exact h.newest t ht g hg
    · exact hnew g hg
  committed := by
    rw [TokensKept, hrow, hcommitted]
    exact h.committed

theorem set (h : Ordered s) (hnew : ∀ g ∈ t.unstored, g = s.issued) : Ordered (s.setTask t) :=
  h.of_tasks rfl rfl rfl fun u hu => by
    rcases AuthState.mem_setTask hu with rfl | ⟨hu, -⟩
    · exact .inr hnew
    · exact .inl hu

theorem commit (h : Ordered s) (hold : s.row.refreshToken ≤ t.account.refreshToken)
    (hnew : t.account.refreshToken ≤ s.issued) : Ordered (s.commit t) where
  row_le := hnew
  newest := (h.set (t := { t with phase := .idle }) nofun).newest
  committed g hg := by
    rcases mem_append.mp hg with hg | hg
    · exact Nat.le_trans (h.committed g hg) hold
    · exact Nat.le_of_eq (mem_singleton.mp hg)

theorem unstored_of_isQuiet (hquiet : t.isQuiet = true) : t.unstored = none := by
  rcases t with ⟨taskId, account, attached, phase⟩
  cases phase <;> first | rfl | cases hquiet

theorem step (h : Ordered s) (hok : KeepsTokens s a) (hs : authStep s a = some s') :
    Ordered s' := by
  cases authStep_move hs with
  | start hquiet =>
    refine h.of_tasks rfl rfl rfl fun u hu => ?_
    rcases AuthState.mem_start hu with hu | rfl
    · exact .inl hu
    · exact .inr (by rw [unstored_of_isQuiet hquiet]; exact nofun)
  | go hquiet => exact h.set (by rw [unstored_of_isQuiet hquiet]; exact nofun)
  | accept ht hphase hunspent =>
    refine ⟨Nat.le_succ_of_le h.row_le, fun u hu g hg => ?_, h.committed⟩
    rcases AuthState.mem_setTask hu with rfl | ⟨hu, hid⟩
    · exact (Option.some.inj hg).symm
    · have hnone := hok u hu fun heq => hid (heq.trans (key_of_lookup ht).symm)
      exact absurd (hnone.symm.trans hg) nofun
  | reject => exact h.set nofun
  | revoke => exact h.of_tasks rfl rfl rfl fun _ ht => .inl ht
  | @receive taskId t result ht hphase =>
    refine h.set fun g hg => ?_
    refine h.newest t (mem_of_lookup ht) g ?_
    rw [AuthTask.unstored, hphase]
    exact hg
  | @store taskId used t ht hphase =>
    have hnewest : t.account.refreshToken = s.issued := by
      refine h.newest t (mem_of_lookup ht) _ ?_
      rw [AuthTask.unstored, hphase]
      exact rfl
    exact h.commit (hnewest ▸ h.row_le) (Nat.le_of_eq hnewest)
  | commitSync ht hphase =>
    rcases hok _ ht with heq | heq
    · exact h.commit (Nat.le_of_eq heq.symm) (heq ▸ h.row_le)
    · exact h.commit (heq ▸ h.row_le) (Nat.le_of_eq heq)
  | reread => exact h.set nofun
  | deactivate => exact h.of_tasks rfl rfl rfl fun _ ht => .inl (mem_filter.mp ht).1
  | leave => exact h.of_tasks rfl rfl rfl fun _ ht => .inl (mem_filter.mp ht).1

end Ordered

/-! ## The result -/

/-- **Stored tokens do not go back**, in every run whose steps all meet the condition. -/
theorem tokens_kept {account : AuthAccount} {acts : List AuthAct} {s : AuthState}
    (hok : Along authStep KeepsTokens acts (newAuthState account))
    (hrun : run authStep acts (newAuthState account) = some s) : TokensKept s :=
  (run_invariant_along Ordered.step (newAuthState_ordered account) hok hrun).committed

def freeAccount : AuthAccount := ⟨0, some "acc", "free", "a@example.com", some "acc", .active, none⟩

def refreshDuringFetch : List AuthAct :=
  [.load 1 false, .load 0 false, .refresh 0, .accept 0 (some "acc") none none, .receive 0, .store 0]

def syncedPlanActs : List AuthAct :=
  refreshDuringFetch ++ [.syncFromRepo 1, .syncPlanType 1 (some "pro"), .commitSync 1]

theorem tokens_kept_synced :
    ∃ s, run authStep syncedPlanActs (newAuthState freeAccount) = some s ∧
      Along authStep KeepsTokens syncedPlanActs (newAuthState freeAccount) ∧
      s.committed = [1, 1] ∧ s.row.planType = "pro" ∧ TokensKept s := by
  have hrun : run authStep syncedPlanActs (newAuthState freeAccount) = some _ := rfl
  have hok : Along authStep KeepsTokens syncedPlanActs (newAuthState freeAccount) := by decide
  exact ⟨_, hrun, hok, by decide, by decide, tokens_kept hok hrun⟩

/-- **The counterexample**: the usage updater writes the plan, and with it the tokens it has
loaded before the refresh. -/
theorem plan_sync_restores_old_token :
    ∃ s, run authStep (refreshDuringFetch ++ [.syncPlanType 1 (some "pro"), .commitSync 1])
        (newAuthState freeAccount) = some s ∧
      s.committed = [1, 0] ∧ s.row.refreshToken = 0 ∧ ¬TokensKept s := by
  refine ⟨_, rfl, by decide, by decide, fun h => ?_⟩
  exact absurd (h 1 (by decide)) (by decide)

end CodexOctopus

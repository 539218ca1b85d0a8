import CodexOctopus.Run
import Mathlib.Data.List.MinMax
import Mathlib.Algebra.Order.Ring.Int

/-!
# The rate limiter of the dashboard

`check_and_increment` of `app/core/rate_limiter/db_rate_limiter.py`. The guarded insert is one
statement; after a refusal the call reads the oldest attempt of its window in another one, so
other calls may come in between. Moments are counted in microseconds, as `datetime` does.

`rate_limit_iff`: no window holds too many attempts, and the hint of a refusal is right just if
an attempt leaves the window within a second.
-/

namespace CodexOctopus.RateLimiter

open Lts

def second : ℤ := 1000000

/-- `DatabaseRateLimiter`; the constructor refuses other numbers. -/
structure Limiter where
  maxAttempts : ℕ
  windowSeconds : ℕ
  type : String
  maxAttempts_pos : 0 < maxAttempts
  windowSeconds_pos : 0 < windowSeconds

structure Attempt where
  key : String
  type : String
  attemptedAt : ℤ
  deriving DecidableEq

structure Call where
  key : String
  now : ℤ

structure Store where
  rows : List Attempt
  clock : ℤ

namespace Limiter

variable (l : Limiter)

def window : ℤ := l.windowSeconds * second

def attemptsOf (key : String) (rows : List Attempt) : List Attempt :=
  rows.filter fun a => a.key = key ∧ a.type = l.type

def InWindow (c : Call) (a : Attempt) : Prop := c.now - l.window ≤ a.attemptedAt

instance (c : Call) (a : Attempt) : Decidable (l.InWindow c a) :=
  inferInstanceAs (Decidable (_ ≤ _))

def Accepts (c : Call) (rows : List Attempt) : Prop :=
  (l.attemptsOf c.key rows).countP (l.InWindow c) < l.maxAttempts

instance (c : Call) (rows : List Attempt) : Decidable (l.Accepts c rows) :=
  inferInstanceAs (Decidable (_ < _))

def insert (c : Call) (rows : List Attempt) : List Attempt :=
  if l.Accepts c rows then rows ++ [⟨c.key, l.type, c.now⟩] else rows

def retryAfter (c : Call) (rows : List Attempt) : ℤ :=
  match (((l.attemptsOf c.key rows).filter (l.InWindow c)).map (·.attemptedAt)).min? with
  | some oldest => max 1 ((oldest + l.window - c.now).tdiv second)
  | none => l.windowSeconds

def step (s : Store) (c : Call) : Option Store :=
  if c.now < s.clock then none else some ⟨l.insert c s.rows, c.now⟩

def Spans (x : ℤ) (a : Attempt) : Prop := x ≤ a.attemptedAt ∧ a.attemptedAt ≤ x + l.window

instance (x : ℤ) (a : Attempt) : Decidable (l.Spans x a) := inferInstanceAs (Decidable (_ ∧ _))

/-! ## The bound -/

structure Inv (s : Store) : Prop where
  past : ∀ a ∈ s.rows, a.attemptedAt ≤ s.clock
  bound : ∀ key x, (l.attemptsOf key s.rows).countP (l.Spans x) ≤ l.maxAttempts

variable {l} {s s' : Store} {c : Call} {rows : List Attempt}

theorem countP_spans_le {x : ℤ} (hx : c.now ≤ x + l.window) :
    (l.attemptsOf c.key rows).countP (l.Spans x) ≤
      (l.attemptsOf c.key rows).countP (l.InWindow c) := by
  refine List.countP_mono_left fun a _ ha => ?_
  obtain ⟨hle, -⟩ : l.Spans x a := of_decide_eq_true ha
  exact decide_eq_true (sub_le_iff_le_add.mpr (hx.trans (Int.add_le_add_right hle _)))

theorem countP_inWindow_le (h : l.Inv s) (hnow : s.clock ≤ c.now) :
    (l.attemptsOf c.key s.rows).countP (l.InWindow c) ≤ l.maxAttempts := by
  refine le_trans (List.countP_mono_left fun a ha hin => ?_) (h.bound c.key (c.now - l.window))
  have hpast := h.past a (List.mem_of_mem_filter ha)
  exact decide_eq_true ⟨of_decide_eq_true hin, by omega⟩

theorem attemptsOf_append (key : String) (new : List Attempt) :
    l.attemptsOf key (rows ++ new) = l.attemptsOf key rows ++ l.attemptsOf key new :=
  List.filter_append _ _

theorem Inv.step (h : l.Inv s) (hs : l.step s c = some s') : l.Inv s' := by
  obtain ⟨hclock, ⟨⟩⟩ := Option.ite_none_left_eq_some.mp hs
  have hpast : ∀ a ∈ s.rows, a.attemptedAt ≤ c.now := fun a ha =>
    (h.past a ha).trans (not_lt.mp hclock)
  unfold insert
  split_ifs with haccepts
  · refine ⟨fun a ha => ?_, fun key x => ?_⟩
    · rcases List.mem_append.mp ha with ha | ha
      · exact hpast a ha
      · rw [List.mem_singleton.mp ha]
    · rw [attemptsOf_append, List.countP_append]
      by_cases hnew : c.key = key ∧ l.Spans x ⟨c.key, l.type, c.now⟩
      · -- all others of the interval were counted before the insert
        obtain ⟨rfl, hspans⟩ := hnew
        have hcount : (l.attemptsOf c.key s.rows).countP (l.Spans x) ≤ _ := countP_spans_le hspans.2
        have hone : (l.attemptsOf c.key [⟨c.key, l.type, c.now⟩]).countP (l.Spans x) ≤ 1 :=
          List.countP_le_length.trans (List.length_filter_le _ _)
        have hless : (l.attemptsOf c.key s.rows).countP (l.InWindow c) < l.maxAttempts := haccepts
        omega
      · have hnone : (l.attemptsOf key [⟨c.key, l.type, c.now⟩]).countP (l.Spans x) = 0 := by
          refine List.countP_eq_zero.mpr fun a ha hspans => hnew ?_
          obtain ⟨ha, hkey⟩ := List.mem_filter.mp ha
          obtain rfl := List.mem_singleton.mp ha
          exact ⟨(of_decide_eq_true hkey).1, of_decide_eq_true hspans⟩
        rw [hnone]
        exact h.bound key x
  · exact ⟨hpast, h.bound⟩

/-! ## The hint -/

theorem attemptsOf_sublist (key : String) (hs : l.step s c = some s') :
    (l.attemptsOf key s.rows).Sublist (l.attemptsOf key s'.rows) := by
  obtain ⟨-, ⟨⟩⟩ := Option.ite_none_left_eq_some.mp hs
  refine List.Sublist.filter _ ?_
  unfold insert
  split_ifs
  · exact List.sublist_append_left _ _
  · exact List.Sublist.refl _

theorem retryAfter_spec (hno : ¬l.Accepts c rows) :
    ∃ a ∈ l.attemptsOf c.key rows, l.InWindow c a ∧
      (∀ b ∈ l.attemptsOf c.key rows, l.InWindow c b → a.attemptedAt ≤ b.attemptedAt) ∧
      l.retryAfter c rows = max 1 ((a.attemptedAt + l.window - c.now) / second) := by
  have hsome : (((l.attemptsOf c.key rows).filter (l.InWindow c)).map (·.attemptedAt)) ≠ [] := by
    intro hnil
    refine hno (lt_of_le_of_lt (Nat.le_of_eq ?_) l.maxAttempts_pos)
    rw [List.countP_eq_length_filter, List.map_eq_nil_iff.mp hnil, List.length_nil]
  obtain ⟨oldest, holdest⟩ := Option.ne_none_iff_exists'.mp (mt List.min?_eq_none_iff.mp hsome)
  obtain ⟨hmem, hmin⟩ := List.min?_eq_some_iff.mp holdest
  obtain ⟨a, ha, rfl⟩ := List.mem_map.mp hmem
  obtain ⟨ha, hin⟩ := List.mem_filter.mp ha
  refine ⟨a, ha, of_decide_eq_true hin, fun b hb hbin => hmin _ (List.mem_map_of_mem ?_), ?_⟩
  · exact List.mem_filter.mpr ⟨hb, decide_eq_true hbin⟩
  · have hnonneg : 0 ≤ a.attemptedAt + l.window - c.now := by
      have : c.now - l.window ≤ a.attemptedAt := of_decide_eq_true hin
      omega
    rw [retryAfter, holdest]
    exact congrArg (max 1) (Int.tdiv_eq_ediv_of_nonneg hnonneg)

theorem accepts_later_iff (h : l.Inv s) (hnow : s.clock ≤ c.now) (hno : ¬l.Accepts c s.rows) :
    l.Accepts { c with now := c.now + l.retryAfter c s.rows * second } s.rows ↔
      ∃ a ∈ l.attemptsOf c.key s.rows, l.InWindow c a ∧
        a.attemptedAt + l.window - c.now < second := by
  obtain ⟨a, ha, hin, hmin, hretry⟩ := retryAfter_spec hno
  have hleft : 0 ≤ a.attemptedAt + l.window - c.now := by
    unfold InWindow at hin
    omega
  have hfull := countP_inWindow_le h hnow
  have hsecond : (0 : ℤ) < second := by decide
  constructor
  · intro haccepts
    refine ⟨a, ha, hin, ?_⟩
    by_contra hlong
    -- the hint is at most what the oldest attempt has left, so all are still counted
    refine absurd haccepts (not_lt.mpr ((not_lt.mp hno).trans ?_))
    refine List.countP_mono_left fun b hb hbin => ?_
    have hb := hmin b hb (of_decide_eq_true hbin)
    have hle := Int.ediv_mul_le (a.attemptedAt + l.window - c.now) (ne_of_gt hsecond)
    have hone : 1 ≤ (a.attemptedAt + l.window - c.now) / second :=
      (Int.le_ediv_iff_mul_le hsecond).mpr (by omega)
    rw [hretry, max_eq_right hone]
    exact decide_eq_true (by unfold InWindow; dsimp only; omega)
  · rintro ⟨b, hb, hbin, hshort⟩
    have hle := hmin b hb hbin
    have hzero : (a.attemptedAt + l.window - c.now) / second = 0 :=
      Int.ediv_eq_zero_of_lt hleft (by omega)
    rw [hretry, hzero, max_eq_left zero_le_one, one_mul]
    have hsub : ((l.attemptsOf c.key s.rows).filter
        (l.InWindow { c with now := c.now + second })).Sublist
          ((l.attemptsOf c.key s.rows).filter (l.InWindow c)) := by
      refine List.monotone_filter_right _ fun x hx => decide_eq_true ?_
      have hx : c.now + second - l.window ≤ x.attemptedAt := of_decide_eq_true hx
      unfold InWindow
      omega
    -- the oldest attempt is no longer counted
    refine lt_of_lt_of_le (lt_of_le_of_ne ?_ fun hlen => ?_) hfull
    · rw [List.countP_eq_length_filter, List.countP_eq_length_filter]
      exact hsub.length_le
    · rw [List.countP_eq_length_filter, List.countP_eq_length_filter] at hlen
      have hmem : a ∈ (l.attemptsOf c.key s.rows).filter (l.InWindow c) :=
        List.mem_filter.mpr ⟨ha, decide_eq_true hin⟩
      rw [← hsub.eq_of_length hlen] at hmem
      have hstill : c.now + second - l.window ≤ a.attemptedAt :=
        of_decide_eq_true (List.mem_filter.mp hmem).2
      omega

end Limiter

def start (clock : ℤ) : Store := ⟨[], clock⟩

theorem start_inv (l : Limiter) (clock : ℤ) : l.Inv (start clock) :=
  ⟨nofun, fun _ _ => Nat.zero_le _⟩

/-- **The rate limit.** In every run, no closed interval as long as the window holds more than
`max_attempts` accepted attempts. After the hint of a refused call, with no other attempt accepted,
one is accepted exactly if an attempt that was counted was less than a second from leaving the
window. -/
theorem rate_limit_iff (l : Limiter) {clock : ℤ} {calls : List Call} {s : Store}
    (hrun : run l.step calls (start clock) = some s) :
    (∀ key x, (l.attemptsOf key s.rows).countP (l.Spans x) ≤ l.maxAttempts) ∧
      ∀ c : Call, s.clock ≤ c.now → ¬l.Accepts c s.rows →
        ∀ (calls₁ calls₂ : List Call) (s₁ s₂ : Store), run l.step calls₁ s = some s₁ →
          run l.step calls₂ s₁ = some s₂ →
          l.attemptsOf c.key s₂.rows = l.attemptsOf c.key s.rows →
          (l.Accepts { c with now := c.now + l.retryAfter c s₁.rows * second } s₂.rows ↔
            ∃ a ∈ l.attemptsOf c.key s.rows, l.InWindow c a ∧
              a.attemptedAt + l.window - c.now < second) := by
  have hinv : l.Inv s := run_invariant (fun h hs => h.step hs) (start_inv l clock) hrun
  refine ⟨hinv.bound, fun c hnow hno calls₁ calls₂ s₁ s₂ hrun₁ hrun₂ hsame => ?_⟩
  have hgrow : ∀ {calls : List Call} {s s' : Store}, run l.step calls s = some s' →
      (l.attemptsOf c.key s.rows).Sublist (l.attemptsOf c.key s'.rows) := by
    intro calls s s'
    refine @run_invariant _ _ l.step
      (fun t => (l.attemptsOf c.key s.rows).Sublist (l.attemptsOf c.key t.rows)) ?_ _ _ _ (.refl _)
    exact fun h hs => h.trans (Limiter.attemptsOf_sublist c.key hs)
  have hread : l.attemptsOf c.key s₁.rows = l.attemptsOf c.key s.rows :=
    (hsame ▸ hgrow hrun₂).antisymm (hgrow hrun₁)
  have hhint : l.retryAfter c s₁.rows = l.retryAfter c s.rows := by
    rw [Limiter.retryAfter, Limiter.retryAfter, hread]
  rw [← Limiter.accepts_later_iff hinv hnow hno, hhint, Limiter.Accepts, Limiter.Accepts, hsame]

def oneAMinute : Limiter := ⟨1, 60, "password", by decide, by decide⟩

def once : Store := ⟨[⟨"k", "password", 0⟩], 0⟩

theorem rate_limit_half_second :
    ¬oneAMinute.Accepts ⟨"k", 59500000⟩ once.rows ∧
      oneAMinute.Accepts ⟨"k", 59500000 + oneAMinute.retryAfter ⟨"k", 59500000⟩ once.rows * second⟩
        once.rows := by
  refine ⟨by decide, ?_⟩
  refine ((@rate_limit_iff oneAMinute 0 [⟨"k", 0⟩] once rfl).2
    ⟨"k", 59500000⟩ (by decide) (by decide) [] [] once once rfl rfl rfl).mpr ?_
  exact ⟨⟨"k", "password", 0⟩, by decide, by decide, by decide⟩

/-- **Half a minute before**, the hint is half a minute, and the attempt is refused again. -/
theorem hint_refused :
    run oneAMinute.step [⟨"k", 0⟩, ⟨"k", 30000000⟩] (start 0) = some ⟨once.rows, 30000000⟩ ∧
      oneAMinute.retryAfter ⟨"k", 30000000⟩ once.rows = 30 ∧
      ¬oneAMinute.Accepts ⟨"k", 30000000 + 30 * second⟩ once.rows :=
  ⟨rfl, by decide, by decide⟩

end CodexOctopus.RateLimiter

import Mathlib.Data.List.Basic

/-!
# Runs of a partial step function

The shared vocabulary of the interleaving models. A system is a step function
`step : σ → α → Option σ`: in state `s` the action `a` is either not enabled
(`none`) or leads to one next state. An interleaving is a list of actions, and
`run` plays it. Nothing here mentions a particular system.

* `Along ok` says that each action of a run is taken in a state meeting `ok`;
  `run_invariant_along` is for invariants that only the steps meeting `ok` keep.
-/

namespace Lts

universe u v

variable {σ : Type u} {α : Type v} (step : σ → α → Option σ)

/-- Play the actions in order; `none` as soon as one of them is not enabled. -/
def run : List α → σ → Option σ
  | [], s => some s
  | a :: as, s => (step s a).bind (run as)

/-- Every action of the run is taken in a state that meets `ok`. -/
def Along (ok : σ → α → Prop) : List α → σ → Prop
  | [], _ => True
  | a :: as, s => ok s a ∧ ∀ s' ∈ step s a, Along ok as s'

instance decidableAlong {ok : σ → α → Prop} [∀ s a, Decidable (ok s a)] :
    ∀ as s, Decidable (Along step ok as s)
  | [], _ => inferInstanceAs (Decidable True)
  | a :: as, s =>
    have : ∀ s', Decidable (Along step ok as s') := decidableAlong as
    inferInstanceAs (Decidable (ok s a ∧ ∀ s' ∈ step s a, Along step ok as s'))

instance decidableExistsEnd {P : σ → Prop} [DecidablePred P] (o : Option σ) :
    Decidable (∃ s, o = some s ∧ P s) :=
  inferInstanceAs (Decidable (∃ s ∈ o, P s))

variable {step}

@[simp] theorem run_cons (a : α) (as : List α) (s : σ) :
    run step (a :: as) s = (step s a).bind (run step as) := rfl

theorem run_cons_eq_some {a : α} {as : List α} {s t : σ}
    (h : run step (a :: as) s = some t) :
    ∃ s', step s a = some s' ∧ run step as s' = some t :=
  Option.bind_eq_some_iff.mp h

variable {Inv : σ → Prop} {ok : σ → α → Prop}

/-- **The invariant rule**: what holds at the start and is kept by each step
holds at the end of every run. -/
theorem run_invariant (hstep : ∀ {s a s'}, Inv s → step s a = some s' → Inv s') :
    ∀ {as : List α} {s t : σ}, Inv s → run step as s = some t → Inv t := by
  intro as
  induction as with
  | nil =>
    intro s t hs hr
    cases hr
    exact hs
  | cons a as ih =>
    intro s t hs hr
    obtain ⟨s', hstep', hr'⟩ := run_cons_eq_some hr
    exact ih (hstep hs hstep') hr'

theorem run_invariant_along (hstep : ∀ {s a s'}, Inv s → ok s a → step s a = some s' → Inv s') :
    ∀ {as : List α} {s t : σ}, Inv s → Along step ok as s → run step as s = some t →
      Inv t := by
  intro as
  induction as with
  | nil =>
    intro s t hs _ hr
    cases hr
    exact hs
  | cons a as ih =>
    intro s t hs hok hr
    obtain ⟨s', hstep', hr'⟩ := run_cons_eq_some hr
    exact ih (hstep hs hok.1 hstep') (hok.2 s' hstep') hr'

theorem along_of_invariant (hstep : ∀ {s a s'}, Inv s → step s a = some s' → Inv s')
    (hok : ∀ {s a}, Inv s → ok s a) :
    ∀ {as : List α} {s : σ}, Inv s → Along step ok as s := by
  intro as
  induction as with
  | nil => exact fun _ => trivial
  | cons a as ih => exact fun hs => ⟨hok hs, fun s' hs' => ih (hstep hs hs')⟩

theorem along_of_run {t : σ} (hstep : ∀ {s a s'}, Inv s → step s a = some s' → Inv s')
    (hok : ∀ {s a s' as}, Inv s → step s a = some s' → run step as s' = some t → ok s a) :
    ∀ {as : List α} {s : σ}, Inv s → run step as s = some t → Along step ok as s := by
  intro as
  induction as with
  | nil => exact fun _ _ => trivial
  | cons a as ih =>
    intro s hs hr
    obtain ⟨s', hstep', hr'⟩ := run_cons_eq_some hr
    refine ⟨hok hs hstep' hr', fun s'' hs'' => ?_⟩
    obtain rfl := Option.some.inj (hstep'.symm.trans hs'')
    exact ih (hstep hs hstep') hr'

theorem Along.and_forall {P : α → Prop} :
    ∀ {as : List α} {s : σ}, Along step ok as s → (∀ a ∈ as, P a) →
      Along step (fun s a => ok s a ∧ P a) as s := by
  intro as
  induction as with
  | nil => exact fun _ _ => trivial
  | cons a as ih =>
    intro s hok hP
    refine ⟨⟨hok.1, hP a List.mem_cons_self⟩, fun s' hs' => ?_⟩
    exact ih (hok.2 s' hs') fun b hb => hP b (List.mem_cons_of_mem _ hb)

theorem run_trans {R : σ → σ → Prop} (hrefl : ∀ s, R s s)
    (htrans : ∀ {s t u}, R s t → R t u → R s u)
    (hinv : ∀ {s a s'}, Inv s → step s a = some s' → Inv s')
    (hstep : ∀ {s a s'}, Inv s → step s a = some s' → R s s') :
    ∀ {as : List α} {s t : σ}, Inv s → run step as s = some t → R s t := by
  intro as
  induction as with
  | nil =>
    intro s t _ hr
    cases hr
    exact hrefl s
  | cons a as ih =>
    intro s t hs hr
    obtain ⟨s', hstep', hr'⟩ := run_cons_eq_some hr
    exact htrans (hstep hs hstep') (ih (hinv hs hstep') hr')

end Lts

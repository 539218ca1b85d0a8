import Mathlib.Data.List.AList
import Mathlib.Data.List.Infix
import CodexOctopus.Interaction
import CodexOctopus.Run

/-!
# Threads that share a state

A `System` says what an operation does to the shared state and what it answers, which
program a call runs, and what else can happen to the shared state. A `Pool` is the shared
state and the threads: each has its call, the rest of its program and its history. The
scheduler is the list of actions: it starts calls and lets a thread perform its next
operation, with an input from outside (a reading of the clock, a random draw).

* `Upholds`: an invariant of the shared state, a link between the shared state and the
  history of each thread, and a specification of each call that the operations keep up.
-/

namespace Interaction

variable {Op : Type} {Ans : Op → Type}

structure System (σ Op : Type) (Ans : Op → Type) (α C ε η : Type) where
  /-- an operation of a thread, with an input from outside; `none` if it has to wait -/
  exec : ℕ → (op : Op) → ε → σ → Option (σ × Ans op)
  program : C → Prog Op Ans α
  environment : σ → η → Option σ

structure Thread (Ans : Op → Type) (α C : Type) where
  call : C
  history : History Ans
  prog : Prog Op Ans α

structure Pool (σ : Type) {Op : Type} (Ans : Op → Type) (α C : Type) where
  shared : σ
  threads : AList fun _ : ℕ => Thread Ans α C

namespace Pool

variable {σ α C : Type}

def history (p : Pool σ Ans α C) (tid : ℕ) : History Ans :=
  ((p.threads.lookup tid).map Thread.history).getD []

def outcome (p : Pool σ Ans α C) (tid : ℕ) : Option (C × α) :=
  (p.threads.lookup tid).bind fun t =>
    match t.prog with
    | .ret a => some (t.call, a)
    | .call _ _ => none

def next (p : Pool σ Ans α C) (tid : ℕ) : Option Op :=
  (p.threads.lookup tid).bind fun t =>
    match t.prog with
    | .ret _ => none
    | .call op _ => some op

variable {p : Pool σ Ans α C} {tid : ℕ}

theorem next_eq {t : Thread Ans α C} {op : Op} {k : Ans op → Prog Op Ans α}
    (h : p.threads.lookup tid = some t) (hprog : t.prog = .call op k) :
    p.next tid = some op := by
  rw [next, h, Option.bind_some, hprog]

theorem history_eq {t : Thread Ans α C} (h : p.threads.lookup tid = some t) :
    p.history tid = t.history := by
  rw [history, h]
  rfl

theorem outcome_eq_some {c : C} {a : α} (h : p.outcome tid = some (c, a)) :
    ∃ t, p.threads.lookup tid = some t ∧ t.call = c ∧ t.prog = .ret a := by
  obtain ⟨t, ht, h⟩ := Option.bind_eq_some_iff.mp h
  split at h
  · next a' hprog =>
    cases h
    exact ⟨t, ht, rfl, hprog⟩
  · cases h

end Pool

inductive Action (C ε η : Type) : Type where
  | spawn (tid : ℕ) (c : C)
  | resume (tid : ℕ) (e : ε)
  | environment (x : η)

variable {σ α C ε η : Type} {M : System σ Op Ans α C ε η}

def Pool.OnNext (P : σ → History Ans → Op → Prop) (p : Pool σ Ans α C) : Action C ε η → Prop
  | .spawn _ _ => True
  | .resume tid _ => ∀ op ∈ p.next tid, P p.shared (p.history tid) op
  | .environment _ => True

instance {P : σ → History Ans → Op → Prop} [∀ w h op, Decidable (P w h op)] (p : Pool σ Ans α C) :
    ∀ a : Action C ε η, Decidable (p.OnNext P a)
  | .spawn _ _ => inferInstanceAs (Decidable True)
  | .resume tid _ => inferInstanceAs (Decidable (∀ op ∈ p.next tid, P p.shared (p.history tid) op))
  | .environment _ => inferInstanceAs (Decidable True)

namespace System

def advance (M : System σ Op Ans α C ε η) (tid : ℕ) (e : ε) (w : σ) (t : Thread Ans α C) :
    Option (σ × Thread Ans α C) :=
  match t.prog with
  | .ret _ => none
  | .call op k =>
    (M.exec tid op e w).map fun x => (x.1, ⟨t.call, ⟨op, x.2⟩ :: t.history, k x.2⟩)

def step (M : System σ Op Ans α C ε η) (p : Pool σ Ans α C) :
    Action C ε η → Option (Pool σ Ans α C)
  | .spawn tid c =>
    if (p.threads.lookup tid).isSome then none
    else some { p with threads := p.threads.insert tid ⟨c, [], M.program c⟩ }
  | .resume tid e =>
    (p.threads.lookup tid).bind fun t =>
      (M.advance tid e p.shared t).map fun x => ⟨x.1, p.threads.insert tid x.2⟩
  | .environment x => (M.environment p.shared x).map fun w => { p with shared := w }

variable {e : ε} {t : Thread Ans α C} {tid : ℕ} {p p' : Pool σ Ans α C} {a : Action C ε η}
  {as : List (Action C ε η)}

theorem advance_eq_some {w w' : σ} {t' : Thread Ans α C} (h : M.advance tid e w t = some (w', t')) :
    ∃ op k r, t.prog = .call op k ∧ M.exec tid op e w = some (w', r) ∧
      t' = ⟨t.call, ⟨op, r⟩ :: t.history, k r⟩ := by
  unfold advance at h
  split at h
  · cases h
  · next op k hprog =>
    obtain ⟨⟨w₁, r⟩, hexec, hx⟩ := Option.map_eq_some_iff.mp h
    obtain ⟨rfl, rfl⟩ := Prod.mk.inj hx
    exact ⟨op, k, r, hprog, hexec, rfl⟩

theorem step_resume (h : M.step p (.resume tid e) = some p') :
    ∃ t op k r, p.threads.lookup tid = some t ∧ t.prog = .call op k ∧
      M.exec tid op e p.shared = some (p'.shared, r) ∧
      p'.threads = p.threads.insert tid ⟨t.call, ⟨op, r⟩ :: t.history, k r⟩ := by
  obtain ⟨t, ht, h⟩ := Option.bind_eq_some_iff.mp h
  obtain ⟨⟨w', t'⟩, hadvance, rfl⟩ := Option.map_eq_some_iff.mp h
  obtain ⟨op, k, r, hprog, hexec, rfl⟩ := advance_eq_some hadvance
  exact ⟨t, op, k, r, ht, hprog, hexec, rfl⟩

theorem step_of_exec {op : Op} {k : Ans op → Prog Op Ans α} {w' : σ} {r : Ans op}
    (ht : p.threads.lookup tid = some t) (hprog : t.prog = .call op k)
    (hexec : M.exec tid op e p.shared = some (w', r)) :
    M.step p (.resume tid e) =
      some ⟨w', p.threads.insert tid ⟨t.call, ⟨op, r⟩ :: t.history, k r⟩⟩ := by
  rw [step, ht, Option.bind_some, advance, hprog]
  dsimp only
  rw [hexec]
  rfl

theorem step_spawn {c : C} (h : M.step p (.spawn tid c) = some p') :
    p.threads.lookup tid = none ∧
      p' = { p with threads := p.threads.insert tid ⟨c, [], M.program c⟩ } := by
  obtain ⟨hfree, h⟩ := (Option.ite_none_left_eq_some).mp h
  exact ⟨Option.not_isSome_iff_eq_none.mp hfree, (Option.some.inj h).symm⟩

theorem step_of_spawn (M : System σ Op Ans α C ε η) (c : C) (hnew : p.threads.lookup tid = none) :
    M.step p (.spawn tid c) =
      some { p with threads := p.threads.insert tid ⟨c, [], M.program c⟩ } := by
  rw [step, hnew]
  rfl

theorem step_environment {x : η} (h : M.step p (.environment x) = some p') :
    M.environment p.shared x = some p'.shared ∧ p'.threads = p.threads := by
  obtain ⟨w, hw, rfl⟩ := Option.map_eq_some_iff.mp h
  exact ⟨hw, rfl⟩

theorem history_of_step (h : M.step p a = some p') (ha : ∀ tid e, a ≠ .resume tid e) (tid : ℕ) :
    p'.history tid = p.history tid := by
  cases a with
  | spawn tid' c =>
    obtain ⟨hfree, rfl⟩ := step_spawn h
    by_cases htid : tid = tid'
    · subst htid
      rw [Pool.history, Pool.history, hfree, AList.lookup_insert]
      rfl
    · rw [Pool.history, Pool.history, AList.lookup_insert_ne htid]
  | resume tid' e => exact absurd rfl (ha tid' e)
  | environment x => rw [Pool.history, Pool.history, (step_environment h).2]

theorem history_of_resume (h : M.step p (.resume tid e) = some p') :
    ∃ t op k r, p.threads.lookup tid = some t ∧ t.prog = .call op k ∧
      M.exec tid op e p.shared = some (p'.shared, r) ∧
      p'.history tid = ⟨op, r⟩ :: p.history tid ∧
      ∀ tid', tid' ≠ tid → p'.history tid' = p.history tid' := by
  obtain ⟨t, op, k, r, ht, hprog, hexec, hthreads⟩ := step_resume h
  refine ⟨t, op, k, r, ht, hprog, hexec, ?_, fun tid' hne => ?_⟩
  · rw [Pool.history_eq ht, Pool.history, hthreads, AList.lookup_insert]
    rfl
  · rw [Pool.history, hthreads, AList.lookup_insert_ne hne, Pool.history]

theorem history_suffix_of_step (h : M.step p a = some p') (tid : ℕ) :
    p.history tid <:+ p'.history tid := by
  cases a with
  | spawn tid' c =>
    rw [history_of_step h (by simp)]
  | environment x =>
    rw [history_of_step h (by simp)]
  | resume tid' e =>
    obtain ⟨-, op, -, r, -, -, -, hself, hothers⟩ := history_of_resume h
    by_cases htid : tid = tid'
    · subst htid
      rw [hself]
      exact List.suffix_cons _ _
    · rw [hothers tid htid]

theorem history_suffix_of_run (h : Lts.run M.step as p = some p') (tid : ℕ) :
    p.history tid <:+ p'.history tid := by
  induction as generalizing p with
  | nil =>
    cases h
    exact List.suffix_rfl
  | cons a as ih =>
    obtain ⟨q, hstep, hrun⟩ := Lts.run_cons_eq_some h
    exact (history_suffix_of_step hstep tid).trans (ih hrun)

theorem performed_of_mem_history {x : Event Ans} (h : Lts.run M.step as p = some p')
    (hmem : x ∈ p'.history tid) (hnew : x ∉ p.history tid) :
    ∃ as₁ e as₂ q q', as = as₁ ++ .resume tid e :: as₂ ∧ Lts.run M.step as₁ p = some q ∧
      M.step q (.resume tid e) = some q' ∧ q'.history tid = x :: q.history tid ∧
      Lts.run M.step as₂ q' = some p' := by
  induction as generalizing p with
  | nil =>
    cases h
    exact absurd hmem hnew
  | cons a as ih =>
    obtain ⟨q, hstep, hrun⟩ := Lts.run_cons_eq_some h
    by_cases hq : x ∈ q.history tid
    · -- this step has added it
      cases a with
      | spawn tid' c => exact absurd (history_of_step hstep (by simp) tid ▸ hq) hnew
      | environment y => exact absurd (history_of_step hstep (by simp) tid ▸ hq) hnew
      | resume tid' e =>
        obtain ⟨-, op, -, r, -, -, -, hself, hothers⟩ := history_of_resume hstep
        by_cases htid : tid = tid'
        · subst htid
          rw [hself] at hq
          obtain rfl := (List.mem_cons.mp hq).resolve_right hnew
          exact ⟨[], e, as, p, q, rfl, rfl, hstep, hself, hrun⟩
        · exact absurd (hothers tid htid ▸ hq) hnew
    · obtain ⟨as₁, e, as₂, q₁, q₂, rfl, hrun₁, hlast⟩ := ih hrun hq
      refine ⟨a :: as₁, e, as₂, q₁, q₂, rfl, ?_, hlast⟩
      rw [Lts.run_cons, hstep]
      exact hrun₁

theorem call_of_step (h : M.step p a = some p') (ht : p.threads.lookup tid = some t) :
    ∃ t', p'.threads.lookup tid = some t' ∧ t'.call = t.call := by
  cases a with
  | spawn tid' c =>
    obtain ⟨hfree, rfl⟩ := step_spawn h
    by_cases htid : tid = tid'
    · subst htid
      cases hfree.symm.trans ht
    · exact ⟨t, (AList.lookup_insert_ne htid).trans ht, rfl⟩
  | resume tid' e =>
    obtain ⟨t', op, k, r, ht', -, -, hthreads⟩ := step_resume h
    rw [hthreads]
    by_cases htid : tid = tid'
    · subst htid
      obtain rfl := Option.some.inj (ht'.symm.trans ht)
      exact ⟨_, AList.lookup_insert _, rfl⟩
    · exact ⟨t, (AList.lookup_insert_ne htid).trans ht, rfl⟩
  | environment x => exact ⟨t, (step_environment h).2 ▸ ht, rfl⟩

theorem call_of_run (h : Lts.run M.step as p = some p') (ht : p.threads.lookup tid = some t) :
    ∃ t', p'.threads.lookup tid = some t' ∧ t'.call = t.call := by
  induction as generalizing p t with
  | nil =>
    cases h
    exact ⟨t, ht, rfl⟩
  | cons a as ih =>
    obtain ⟨q, hstep, hrun⟩ := Lts.run_cons_eq_some h
    obtain ⟨t₁, ht₁, hcall₁⟩ := call_of_step hstep ht
    obtain ⟨t₂, ht₂, hcall₂⟩ := ih hrun ht₁
    exact ⟨t₂, ht₂, hcall₂.trans hcall₁⟩

inductive Came (M : System σ Op Ans α C ε η) (p p' : Pool σ Ans α C) (tid : ℕ) :
    Action C ε η → Thread Ans α C → Prop where
  | kept {a : Action C ε η} {t : Thread Ans α C} (ht : p.threads.lookup tid = some t) :
      Came M p p' tid a t
  | spawned {c : C} : Came M p p' tid (.spawn tid c) ⟨c, [], M.program c⟩
  | advanced {e : ε} {t : Thread Ans α C} {op : Op} {k : Ans op → Prog Op Ans α} {r : Ans op}
      (ht : p.threads.lookup tid = some t) (hprog : t.prog = .call op k)
      (hexec : M.exec tid op e p.shared = some (p'.shared, r)) :
      Came M p p' tid (.resume tid e) ⟨t.call, ⟨op, r⟩ :: t.history, k r⟩

theorem came_of_step (h : M.step p a = some p') (ht : p'.threads.lookup tid = some t) :
    Came M p p' tid a t := by
  cases a with
  | spawn tid' c =>
    obtain ⟨-, rfl⟩ := step_spawn h
    by_cases htid : tid = tid'
    · subst htid
      obtain rfl := Option.some.inj ((AList.lookup_insert _).symm.trans ht)
      exact .spawned
    · exact .kept ((AList.lookup_insert_ne htid).symm.trans ht)
  | resume tid' e =>
    obtain ⟨t', op, k, r, ht', hprog, hexec, hthreads⟩ := step_resume h
    rw [hthreads] at ht
    by_cases htid : tid = tid'
    · subst htid
      obtain rfl := Option.some.inj ((AList.lookup_insert _).symm.trans ht)
      exact .advanced ht' hprog hexec
    · exact .kept ((AList.lookup_insert_ne htid).symm.trans ht)
  | environment x =>
    rw [(step_environment h).2] at ht
    exact .kept ht

/-- **A thread whose operations never have to wait returns**, if it is resumed often enough. -/
theorem returns_of_all {P : Op → Prop} (es : ℕ → ε) (inv : ℕ → σ → Prop)
    (hexec : ∀ i op w, P op → inv i w →
      ∃ w' r, M.exec tid op (es i) w = some (w', r) ∧ inv (i + 1) w')
    (ht : p.threads.lookup tid = some t) (hall : t.prog.All P) (hinv : inv 0 p.shared) :
    ∃ n p', Lts.run M.step ((List.range n).map fun i => .resume tid (es i)) p = some p' ∧
      (p'.outcome tid).isSome = true := by
  obtain ⟨c, h, prog⟩ := t
  induction prog generalizing p h es inv with
  | ret a =>
    refine ⟨0, p, rfl, ?_⟩
    rw [Pool.outcome, ht]
    rfl
  | call op k ih =>
    obtain ⟨w', r, hr, hnext⟩ := hexec 0 op p.shared hall.1 hinv
    have hstep := step_of_exec ht rfl hr
    set q : Pool σ Ans α C := ⟨w', p.threads.insert tid ⟨c, ⟨op, r⟩ :: h, k r⟩⟩
    have hq : q.threads.lookup tid = some ⟨c, ⟨op, r⟩ :: h, k r⟩ := AList.lookup_insert _
    obtain ⟨n, p', hrun, hout⟩ := ih r (fun i => es (i + 1)) (fun i => inv (i + 1))
      (fun i => hexec (i + 1)) hnext _ hq (hall.2 r)
    refine ⟨n + 1, p', ?_, hout⟩
    rw [List.range_succ_eq_map, List.map_cons, List.map_map, Lts.run_cons, hstep]
    exact hrun

end System

/-! ## The logic of a pool -/

/-- What the operations keep up, along runs that meet `ok`. -/
structure Upholds (M : System σ Op Ans α C ε η) (ok : Pool σ Ans α C → Action C ε η → Prop)
    (inv : σ → Prop) (link : σ → History Ans → Prop) (spec : C → Spec Ans)
    (Q : C → History Ans → α → Prop) : Prop where
  spawn : ∀ {p tid c}, ok p (.spawn tid c) → inv p.shared →
    link p.shared [] ∧ Sat (spec c) (Q c) [] (M.program c)
  exec : ∀ {p tid e t op k w' r}, ok p (.resume tid e) → p.threads.lookup tid = some t →
    t.prog = .call op k → inv p.shared → link p.shared t.history →
    (spec t.call).pre t.history op → M.exec tid op e p.shared = some (w', r) →
    inv w' ∧ (spec t.call).post t.history op r ∧ link w' (⟨op, r⟩ :: t.history)
  stable : ∀ {p tid e t op k w' r h}, ok p (.resume tid e) → p.threads.lookup tid = some t →
    t.prog = .call op k → inv p.shared → (spec t.call).pre t.history op →
    M.exec tid op e p.shared = some (w', r) → link p.shared h → link w' h
  environment : ∀ {p x w'}, ok p (.environment x) → inv p.shared →
    M.environment p.shared x = some w' → inv w' ∧ ∀ h, link p.shared h → link w' h

/-- The invariant holds, and every thread keeps to its specification from here on. -/
structure Verified (inv : σ → Prop) (link : σ → History Ans → Prop) (spec : C → Spec Ans)
    (Q : C → History Ans → α → Prop) (p : Pool σ Ans α C) : Prop where
  inv : inv p.shared
  thread : ∀ {tid t}, p.threads.lookup tid = some t →
    link p.shared t.history ∧ Sat (spec t.call) (Q t.call) t.history t.prog

section

variable {ok : Pool σ Ans α C → Action C ε η → Prop} {inv : σ → Prop}
  {link : σ → History Ans → Prop} {spec : C → Spec Ans} {Q : C → History Ans → α → Prop}
  {p p' : Pool σ Ans α C}

theorem Verified.start {w : σ} (h : inv w) : Verified inv link spec Q ⟨w, ∅⟩ where
  inv := h
  thread ht := by cases (AList.lookup_empty _).symm.trans ht

theorem Verified.pre (h : Verified inv link spec Q p) {tid : ℕ} {t : Thread Ans α C} {op : Op}
    {k : Ans op → Prog Op Ans α} (ht : p.threads.lookup tid = some t) (hprog : t.prog = .call op k)
      :
    (spec t.call).pre t.history op := by
  have hsat := (h.thread ht).2
  rw [hprog] at hsat
  exact hsat.1

theorem Verified.result (h : Verified inv link spec Q p) {tid : ℕ} {c : C} {a : α}
    (hout : p.outcome tid = some (c, a)) : Q c (p.history tid) a := by
  obtain ⟨t, ht, rfl, hprog⟩ := Pool.outcome_eq_some hout
  have hsat := (h.thread ht).2
  rw [hprog] at hsat
  rw [Pool.history_eq ht]
  exact hsat

theorem Upholds.shared (hM : Upholds M ok inv link spec Q) {a : Action C ε η}
    (hp : Verified inv link spec Q p) (hok : ok p a) (h : M.step p a = some p') :
    inv p'.shared ∧ ∀ h, link p.shared h → link p'.shared h := by
  cases a with
  | spawn tid c =>
    obtain ⟨-, rfl⟩ := System.step_spawn h
    exact ⟨hp.inv, fun _ hl => hl⟩
  | resume tid e =>
    obtain ⟨t, op, k, r, ht, hprog, hexec, -⟩ := System.step_resume h
    have hpre := hp.pre ht hprog
    exact ⟨(hM.exec hok ht hprog hp.inv (hp.thread ht).1 hpre hexec).1,
      fun _ hl => hM.stable hok ht hprog hp.inv hpre hexec hl⟩
  | environment x => exact hM.environment hok hp.inv (System.step_environment h).1

theorem Upholds.step (hM : Upholds M ok inv link spec Q) {a : Action C ε η}
    (hp : Verified inv link spec Q p) (hok : ok p a) (h : M.step p a = some p') :
    Verified inv link spec Q p' := by
  obtain ⟨hinv, hkeep⟩ := hM.shared hp hok h
  refine ⟨hinv, fun {tid t} ht => ?_⟩
  cases System.came_of_step h ht with
  | kept ht =>
    obtain ⟨hlink, hsat⟩ := hp.thread ht
    exact ⟨hkeep _ hlink, hsat⟩
  | spawned =>
    obtain ⟨hlink, hsat⟩ := hM.spawn hok hp.inv
    exact ⟨hkeep _ hlink, hsat⟩
  | advanced hthread hprog hexec =>
    obtain ⟨hlink, hsat⟩ := hp.thread hthread
    rw [hprog] at hsat
    obtain ⟨-, hpost, hlink⟩ := hM.exec hok hthread hprog hp.inv hlink hsat.1 hexec
    exact ⟨hlink, hsat.2 _ hpost⟩

/-- **Every thread of every run keeps to its specification.** -/
theorem Upholds.run (hM : Upholds M ok inv link spec Q) {as : List (Action C ε η)}
    (hp : Verified inv link spec Q p) (hok : Lts.Along M.step ok as p)
    (h : Lts.run M.step as p = some p') : Verified inv link spec Q p' :=
  Lts.run_invariant_along (fun hs hoks hstep => hM.step hs hoks hstep) hp hok h

end

/-! ## Calls that nothing interrupts -/

/-- Started in this state and performed by the thread `tid` alone, the program only returns with
`Q`. -/
def Alone {β : Type} (M : System σ Op Ans α C ε η) (tid : ℕ) (Q : σ → History Ans → β → Prop) :
    σ → History Ans → Prog Op Ans β → Prop
  | w, h, .ret a => Q w h a
  | w, h, .call op k =>
    ∀ e w' r, M.exec tid op e w = some (w', r) → Alone M tid Q w' (⟨op, r⟩ :: h) (k r)

namespace Alone

variable {β γ : Type} {tid : ℕ} {P : σ → History Ans → β → Prop} {Q : σ → History Ans → γ → Prop}
  {w : σ} {h : History Ans} {p : Prog Op Ans β}

theorem mono {P' : σ → History Ans → β → Prop} (hp : Alone M tid P w h p)
    (himp : ∀ w' h' a, P w' h' a → P' w' h' a) : Alone M tid P' w h p := by
  induction p generalizing w h with
  | ret a => exact himp w h a hp
  | call op k ih => exact fun e w' r hexec => ih r (hp e w' r hexec)

theorem bind {f : β → Prog Op Ans γ} (hp : Alone M tid P w h p)
    (hf : ∀ w' h' a, P w' h' a → Alone M tid Q w' h' (f a)) : Alone M tid Q w h (p >>= f) := by
  induction p generalizing w h with
  | ret a => exact hf w h a hp
  | call op k ih => exact fun e w' r hexec => ih r (hp e w' r hexec)

/-- **A thread that runs alone** returns as its logic says, and the other threads are where they
were. -/
theorem resumes {Q : σ → History Ans → α → Prop} {es : List ε} {p p' : Pool σ Ans α C}
    {t : Thread Ans α C} (ht : p.threads.lookup tid = some t)
    (hp : Alone M tid Q p.shared t.history t.prog)
    (hrun : Lts.run M.step (es.map (.resume tid)) p = some p') :
    (∀ c a, p'.outcome tid = some (c, a) → c = t.call ∧ Q p'.shared (p'.history tid) a) ∧
      ∀ tid', tid' ≠ tid → p'.threads.lookup tid' = p.threads.lookup tid' := by
  induction es generalizing p t with
  | nil =>
    cases hrun
    refine ⟨fun c a hout => ?_, fun _ _ => rfl⟩
    obtain ⟨t', ht', rfl, hprog⟩ := Pool.outcome_eq_some hout
    obtain rfl := Option.some.inj (ht.symm.trans ht')
    rw [hprog] at hp
    rw [Pool.history_eq ht]
    exact ⟨rfl, hp⟩
  | cons e es ih =>
    obtain ⟨q, hstep, hrun⟩ := Lts.run_cons_eq_some hrun
    obtain ⟨t', op, k, r, ht', hprog, hexec, hthreads⟩ := System.step_resume hstep
    obtain rfl := Option.some.inj (ht.symm.trans ht')
    rw [hprog] at hp
    have hq : q.threads.lookup tid = some ⟨t.call, ⟨op, r⟩ :: t.history, k r⟩ := by
      rw [hthreads, AList.lookup_insert]
    obtain ⟨hout, hothers⟩ := ih hq (hp e _ r hexec) hrun
    refine ⟨hout, fun tid' hne => ?_⟩
    rw [hothers tid' hne, hthreads, AList.lookup_insert_ne hne]

theorem call {Q : σ → History Ans → α → Prop} {es : List ε} {p p' : Pool σ Ans α C} {c : C}
    (hp : Alone M tid Q p.shared [] (M.program c))
    (hrun : Lts.run M.step (.spawn tid c :: es.map (.resume tid)) p = some p') :
    (∀ c' a, p'.outcome tid = some (c', a) → c' = c ∧ Q p'.shared (p'.history tid) a) ∧
      ∀ tid', tid' ≠ tid → p'.threads.lookup tid' = p.threads.lookup tid' := by
  obtain ⟨q, hstep, hrun⟩ := Lts.run_cons_eq_some hrun
  obtain ⟨-, rfl⟩ := System.step_spawn hstep
  obtain ⟨hout, hothers⟩ := resumes (AList.lookup_insert _) hp hrun
  refine ⟨hout, fun tid' hne => ?_⟩
  rw [hothers tid' hne, AList.lookup_insert_ne hne]

end Alone

end Interaction

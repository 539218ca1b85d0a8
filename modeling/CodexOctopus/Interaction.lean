/-!
# Programs over operations

A program performs operations on a state that it shares with others, one at a time, and
goes on with their answers. Between two operations anything may happen to the shared
state, so a program is only a tree: what it does next is a function of the answers it has
had. `Prog` is the free monad over the operations, and programs are written with `do`.

`Sat` is the logic for such programs. Its assertions are about the *history*: the
operations performed so far and their answers, the latest first. `Sat S Q h p` says that
`p`, started with the history `h`, only performs operations that the specification `S`
allows at that point, as long as the answers are as `S` promises, and returns with `Q`.
Rules: `Sat.bind` for sequencing, `Sat.mono` for consequence; a `call` is unfolded.
-/

namespace Interaction

/-- A program: it returns, or performs an operation and goes on with the answer. -/
inductive Prog (Op : Type) (Ans : Op → Type) (α : Type) : Type where
  | ret (a : α)
  | call (op : Op) (k : Ans op → Prog Op Ans α)

variable {Op : Type} {Ans : Op → Type} {α β : Type}

namespace Prog

protected def bind : Prog Op Ans α → (α → Prog Op Ans β) → Prog Op Ans β
  | ret a, f => f a
  | call op k, f => call op fun r => (k r).bind f

instance : Monad (Prog Op Ans) where
  pure := ret
  bind := Prog.bind

def perform (op : Op) : Prog Op Ans (Ans op) := call op ret

def isCall : Prog Op Ans α → Bool
  | ret _ => false
  | call _ _ => true

def All (P : Op → Prop) : Prog Op Ans α → Prop
  | ret _ => True
  | call op k => P op ∧ ∀ r, (k r).All P

theorem All.bind {P : Op → Prop} {p : Prog Op Ans α} {f : α → Prog Op Ans β} (hp : p.All P)
    (hf : ∀ a, (f a).All P) : (p >>= f).All P := by
  induction p with
  | ret a => exact hf a
  | call op k ih => exact ⟨hp.1, fun r => ih r (hp.2 r)⟩

@[simp] theorem pure_eq (a : α) : (pure a : Prog Op Ans α) = ret a := rfl

@[simp] theorem ret_bind (a : α) (f : α → Prog Op Ans β) : ret a >>= f = f a := rfl

@[simp] theorem call_bind (op : Op) (k : Ans op → Prog Op Ans α) (f : α → Prog Op Ans β) :
    call op k >>= f = call op fun r => k r >>= f := rfl

@[simp] theorem perform_bind (op : Op) (f : Ans op → Prog Op Ans β) :
    perform op >>= f = call op f := rfl

end Prog

structure Event (Ans : Op → Type) where
  op : Op
  ans : Ans op

abbrev History (Ans : Op → Type) : Type := List (Event Ans)

inductive Grown (P : Event Ans → Prop) (h : History Ans) : History Ans → Prop where
  | refl : Grown P h h
  | cons {h' : History Ans} {e : Event Ans} (he : P e) (hg : Grown P h h') : Grown P h (e :: h')

namespace Grown

variable {P P' : Event Ans → Prop} {h h₁ h₂ : History Ans}

theorem trans (h₁₂ : Grown P h₁ h₂) (h₀₁ : Grown P h h₁) : Grown P h h₂ := by
  induction h₁₂ with
  | refl => exact h₀₁
  | cons he _ ih => exact .cons he ih

theorem mono (himp : ∀ e, P e → P' e) (hg : Grown P h h₁) : Grown P' h h₁ := by
  induction hg with
  | refl => exact .refl
  | cons he _ ih => exact .cons (himp _ he) ih

theorem subset (hg : Grown P h h₁) : h ⊆ h₁ := by
  induction hg with
  | refl => exact List.Subset.refl _
  | cons _ _ ih => exact List.subset_cons_of_subset _ ih

theorem mem_or (hg : Grown P h h₁) {e : Event Ans} (he : e ∈ h₁) : e ∈ h ∨ P e := by
  induction hg with
  | refl => exact .inl he
  | cons hP _ ih =>
    obtain rfl | he := List.mem_cons.mp he
    · exact .inr hP
    · exact ih he

theorem findSome? {f : Event Ans → Option β} (hf : ∀ e, P e → f e = none) (hg : Grown P h h₁) :
    h₁.findSome? f = h.findSome? f := by
  induction hg with
  | refl => rfl
  | cons he _ ih =>
    rw [← ih]
    exact List.findSome?_cons_of_isNone (Option.isNone_iff_eq_none.mpr (hf _ he))

end Grown

structure Spec (Ans : Op → Type) where
  pre : History Ans → Op → Prop
  post : History Ans → (op : Op) → Ans op → Prop

/-- From the history `h` on the program keeps to the specification, and returns with `Q`. -/
def Sat (S : Spec Ans) (Q : History Ans → α → Prop) : History Ans → Prog Op Ans α → Prop
  | h, .ret a => Q h a
  | h, .call op k => S.pre h op ∧ ∀ r, S.post h op r → Sat S Q (⟨op, r⟩ :: h) (k r)

namespace Sat

variable {S : Spec Ans} {P : History Ans → α → Prop} {Q : History Ans → β → Prop}
  {h : History Ans} {p : Prog Op Ans α}

theorem mono {P' : History Ans → α → Prop} (hp : Sat S P h p)
    (himp : ∀ h' a, P h' a → P' h' a) : Sat S P' h p := by
  induction p generalizing h with
  | ret a => exact himp h a hp
  | call op k ih => exact ⟨hp.1, fun r hr => ih r (hp.2 r hr)⟩

theorem bind {f : α → Prog Op Ans β} (hp : Sat S P h p)
    (hf : ∀ h' a, P h' a → Sat S Q h' (f a)) : Sat S Q h (p >>= f) := by
  induction p generalizing h with
  | ret a => exact hf h a hp
  | call op k ih => exact ⟨hp.1, fun r hr => ih r (hp.2 r hr)⟩

end Sat

end Interaction

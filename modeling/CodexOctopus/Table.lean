import Mathlib.Data.List.Nodup
import Mathlib.Algebra.BigOperators.Group.List.Basic
import Mathlib.Algebra.Order.BigOperators.Group.List
import Mathlib.Algebra.Order.Ring.Int

/-!
# Database tables as lists of rows

A table is the list of its rows; `key` reads a column (or several) that a
unique constraint covers. `updateWhere` is one `UPDATE ... WHERE ... SET`
statement, `lookup` a `SELECT` by unique key. The rules below are what proofs
about tables use: how a lookup and how a sum over the rows change with an
update, and that updates leaving the key column alone keep the constraint.
-/

namespace Table

universe u v

variable {ρ : Type u} {κ : Type v}

def updateWhere (p : ρ → Bool) (f : ρ → ρ) (t : List ρ) : List ρ :=
  t.map fun r => if p r then f r else r

def lookup [DecidableEq κ] (key : ρ → κ) (t : List ρ) (k : κ) : Option ρ :=
  t.find? fun r => key r = k

def Unique (key : ρ → κ) (t : List ρ) : Prop := (t.map key).Nodup

variable {key : ρ → κ} {p : ρ → Bool} {f : ρ → ρ} {t : List ρ} {k : κ} {r : ρ}

theorem Unique.eq_of_key_eq {r' : ρ} (h : Unique key t) (hr : r ∈ t) (hr' : r' ∈ t)
    (hk : key r = key r') : r = r' :=
  List.inj_on_of_nodup_map h hr hr' hk

theorem mem_updateWhere :
    r ∈ updateWhere p f t ↔ ∃ r₀ ∈ t, (if p r₀ then f r₀ else r₀) = r :=
  List.mem_map

theorem map_key_updateWhere (hf : ∀ r, p r = true → key (f r) = key r) :
    (updateWhere p f t).map key = t.map key := by
  rw [updateWhere, List.map_map]
  refine List.map_congr_left fun r _ => ?_
  by_cases hp : p r = true
  · simp [hp, hf r hp]
  · simp [hp]

theorem Unique.update_of (h : Unique key t) (hf : ∀ r, p r = true → key (f r) = key r) :
    Unique key (updateWhere p f t) := by
  rw [Unique, map_key_updateWhere hf]
  exact h

theorem Unique.update (h : Unique key t) (hf : ∀ r, key (f r) = key r) :
    Unique key (updateWhere p f t) :=
  h.update_of fun r _ => hf r

/-! ### Lookups -/

variable [DecidableEq κ]

theorem mem_of_lookup (h : lookup key t k = some r) : r ∈ t :=
  List.mem_of_find?_eq_some h

theorem key_of_lookup (h : lookup key t k = some r) : key r = k :=
  by simpa using List.find?_some h

theorem Unique.lookup_eq (h : Unique key t) (hr : r ∈ t) : lookup key t (key r) = some r := by
  rcases hl : lookup key t (key r) with _ | r'
  · exact absurd (decide_eq_true rfl) (List.find?_eq_none.mp hl r hr)
  · rw [h.eq_of_key_eq (mem_of_lookup hl) hr (key_of_lookup hl)]

theorem Unique.lookup_eq_some_iff (h : Unique key t) :
    lookup key t k = some r ↔ r ∈ t ∧ key r = k := by
  constructor
  · intro hl
    exact ⟨mem_of_lookup hl, key_of_lookup hl⟩
  · rintro ⟨hr, rfl⟩
    exact h.lookup_eq hr

theorem lookup_eq_none_iff : lookup key t k = none ↔ ∀ r ∈ t, key r ≠ k := by
  simp [lookup, List.find?_eq_none]

theorem lookup_append_of_some {u : List ρ} (h : lookup key t k = some r) :
    lookup key (t ++ u) k = some r := by
  unfold lookup at h ⊢
  rw [List.find?_append, h, Option.some_or]

theorem Unique.append_singleton (h : Unique key t) (hk : lookup key t (key r) = none) :
    Unique key (t ++ [r]) := by
  rw [Unique, List.map_append, List.nodup_append]
  refine ⟨h, List.nodup_singleton _, ?_⟩
  intro a ha b hb
  obtain ⟨r', hr', rfl⟩ := List.mem_map.mp ha
  obtain rfl := List.mem_singleton.mp hb
  exact lookup_eq_none_iff.mp hk r' hr'

theorem lookup_updateWhere (hf : ∀ r, key (f r) = key r) :
    lookup key (updateWhere p f t) k =
      (lookup key t k).map fun r => if p r then f r else r := by
  induction t with
  | nil => rfl
  | cons r t ih =>
    have hkey : key (if p r then f r else r) = key r := by
      by_cases hp : p r <;> simp [hp, hf]
    by_cases hk : key r = k
    · simp [lookup, updateWhere, hkey, hk]
    · simpa [lookup, updateWhere, hkey, hk] using ih

theorem Unique.perm_cons_filter (h : Unique key t) (hr : r ∈ t) :
    t.Perm (r :: t.filter fun q => key q ≠ key r) := by
  induction t with
  | nil => cases hr
  | cons q t ih =>
    have hnd := List.nodup_cons.mp h
    by_cases hk : key q = key r
    · obtain rfl := h.eq_of_key_eq List.mem_cons_self hr hk
      have hrest : t.filter (fun p => key p ≠ key q) = t :=
        List.filter_eq_self.mpr fun p hp =>
          decide_eq_true fun heq => hnd.1 (heq ▸ List.mem_map_of_mem hp)
      rw [List.filter_cons_of_neg (by simp), hrest]
    · have hr' : r ∈ t := (List.mem_cons.mp hr).resolve_left fun heq => hk (heq ▸ rfl)
      rw [List.filter_cons_of_pos (by simpa using hk)]
      exact ((ih hnd.2 hr').cons q).trans (List.Perm.swap r q _)

theorem Unique.updateWhere_perm (h : Unique key t) (hr : r ∈ t) :
    (updateWhere (fun q => key q = key r) f t).Perm
      (f r :: t.filter fun q => key q ≠ key r) := by
  refine ((h.perm_cons_filter hr).map _).trans ?_
  rw [List.map_cons, if_pos (decide_eq_true rfl)]
  refine List.Perm.of_eq (congrArg _ ?_)
  conv_rhs => rw [← List.map_id (t.filter _)]
  refine List.map_congr_left fun q hq => ?_
  have hne : key q ≠ key r := of_decide_eq_true (List.mem_filter.mp hq).2
  simp [hne]

theorem Unique.countP_eq (h : Unique key t) (hr : r ∈ t) (p : ρ → Bool) :
    t.countP p = (t.filter fun q => key q ≠ key r).countP p + if p r then 1 else 0 := by
  rw [(h.perm_cons_filter hr).countP_eq, List.countP_cons]

theorem Unique.countP_updateWhere (h : Unique key t) (hr : r ∈ t) (p : ρ → Bool) :
    (updateWhere (fun q => key q = key r) f t).countP p =
      (t.filter fun q => key q ≠ key r).countP p + if p (f r) then 1 else 0 := by
  rw [(h.updateWhere_perm hr).countP_eq, List.countP_cons]

theorem Unique.sum_updateWhere_key (h : Unique key t) (g : ρ → ℤ)
    (hl : lookup key t k = some r) :
    ((updateWhere (fun r => key r = k) f t).map g).sum = (t.map g).sum + (g (f r) - g r) := by
  induction t with
  | nil => cases hl
  | cons r₀ t ih =>
    have hnd := List.nodup_cons.mp h
    by_cases hk : key r₀ = k
    · obtain rfl : r₀ = r := by simpa [lookup, hk] using hl
      have hrest : updateWhere (fun r => key r = k) f t = t := by
        conv_rhs => rw [← List.map_id t]
        refine List.map_congr_left fun r' hr' => ?_
        have hne : key r' ≠ k := fun hh => hnd.1 (hk ▸ hh ▸ List.mem_map_of_mem hr')
        simp [hne]
      have hsum : (t.map fun r => g (if key r = k then f r else r)).sum = (t.map g).sum := by
        rw [← congrArg (fun l => (l.map g).sum) hrest]
        simp [updateWhere, Function.comp_def]
      simp only [updateWhere, List.map_cons, List.sum_cons, List.map_map, hk,
        Function.comp_def, if_true, decide_eq_true_eq]
      rw [hsum]
      omega
    · have hl' : lookup key t k = some r := by simpa [lookup, hk] using hl
      have := ih hnd.2 hl'
      simp only [updateWhere, List.map_cons, List.sum_cons, hk, decide_false,
        Bool.false_eq_true, if_false] at this ⊢
      omega

end Table

import CodexOctopus.Table

/-!
# Transactions with row locks

A transaction keeps the new versions of the rows it has updated until it commits;
an updated row is locked, so no other transaction updates it before that. The
transaction itself sees its own versions (`view`), everyone else the committed
table. A commit puts the versions in place, a rollback forgets them.

Nothing here mentions a particular table. What a proof needs is that a row that a
transaction has not locked looks to it as it is (`view_of_not_locks`), what an
update does to the view (`view_write`), and that a commit shows everyone what the
transaction saw (`mem_commit`).
-/

namespace Txn

universe u v

variable {ρ : Type u} {κ : Type v} [DecidableEq κ] (key : ρ → κ)

def locks (ws : List ρ) (k : κ) : Bool := (Table.lookup key ws k).isSome

def view (ws : List ρ) (r : ρ) : ρ := (Table.lookup key ws (key r)).getD r

def read (ws : List ρ) (t : List ρ) (k : κ) : Option ρ := (Table.lookup key t k).map (view key ws)

/-- `UPDATE ... SET f WHERE key = k AND p`: the new versions, or `none` if no row
meets the condition. -/
def update (k : κ) (p : ρ → Bool) (f : ρ → ρ) (ws t : List ρ) : Option (List ρ) :=
  match read key ws t k with
  | none => none
  | some r => if p r then some (f r :: ws) else none

def commit (ws t : List ρ) : List ρ := t.map (view key ws)

variable {key} {ws t : List ρ} {r r' : ρ} {k : κ}

theorem key_view : key (view key ws r) = key r := by
  rw [view]
  rcases hl : Table.lookup key ws (key r) with _ | r'
  · rfl
  · exact Table.key_of_lookup hl

theorem view_of_not_locks (h : locks key ws (key r) = false) : view key ws r = r := by
  rw [locks, Option.isSome_eq_false_iff, Option.isNone_iff_eq_none] at h
  rw [view, h, Option.getD_none]

@[simp] theorem view_nil : view key [] r = r := rfl

theorem view_write : view key (r' :: ws) r = if key r' = key r then r' else view key ws r := by
  by_cases h : key r' = key r <;> simp [view, Table.lookup, h]

theorem locks_write : locks key (r' :: ws) k = (decide (key r' = k) || locks key ws k) := by
  by_cases h : key r' = k <;> simp [locks, Table.lookup, h]

theorem mem_commit : r ∈ commit key ws t ↔ ∃ r₀ ∈ t, view key ws r₀ = r := List.mem_map

theorem unique_commit (h : Table.Unique key t) : Table.Unique key (commit key ws t) := by
  have hkeys : t.map (key ∘ view key ws) = t.map key := List.map_congr_left fun _ _ => key_view
  rw [Table.Unique, commit, List.map_map, hkeys]
  exact h

theorem update_eq_some {p : ρ → Bool} {f : ρ → ρ} {ws' : List ρ}
    (h : update key k p f ws t = some ws') :
    ∃ r ∈ t, key r = k ∧ p (view key ws r) = true ∧ ws' = f (view key ws r) :: ws := by
  rw [update] at h
  split at h
  · cases h
  · next v hv =>
    obtain ⟨r, hr, rfl⟩ := Option.map_eq_some_iff.mp hv
    split at h
    · next hp =>
      exact ⟨r, Table.mem_of_lookup hr, Table.key_of_lookup hr, hp, (Option.some.inj h).symm⟩
    · cases h

theorem update_eq_none (hU : Table.Unique key t) {p : ρ → Bool} {f : ρ → ρ}
    (h : update key k p f ws t = none) (hr : r ∈ t) (hk : key r = k) :
    p (view key ws r) = false := by
  have hl : Table.lookup key t k = some r := hk ▸ hU.lookup_eq hr
  simp only [update, read, hl, Option.map_some] at h
  split at h
  · cases h
  · next hp => simpa using hp

end Txn

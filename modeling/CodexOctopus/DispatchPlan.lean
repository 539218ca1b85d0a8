import CodexOctopus.AutomationSchedule
import Mathlib.Data.List.Dedup
import Mathlib.Data.List.Perm.Subperm

/-!
# The dispatch plan of an automation

`_build_dispatch_plan` and `_pick_dispatch_offsets_seconds` of `app/modules/automations/service.py`:
the accounts of one run start at different seconds of a window, one of them at its beginning.
-/

namespace CodexOctopus.Automations

open List

/-- The answers of a `random.Random`; a number tells calls of one kind apart. -/
structure Rng where
  sample : List ℕ → ℕ → List ℕ
  shuffle : ℕ → List ℕ → List ℕ
  choice : ℕ → List ℕ → ℕ
  sample_subperm : ∀ {population k}, k ≤ population.length → sample population k <+~ population
  length_sample : ∀ {population k}, k ≤ population.length → (sample population k).length = k
  shuffle_perm : ∀ n l, shuffle n l ~ l
  choice_mem : ∀ n {l}, l ≠ [] → choice n l ∈ l

def pickDispatchOffsetsSeconds (rng : Rng) (accountCount : ℕ) (thresholdMinutes : ℤ) : List ℕ :=
  if accountCount = 0 then []
  else if thresholdMinutes ≤ 0 then replicate accountCount 0
  else if accountCount = 1 then [0]
  else
    let available := range' 1 (thresholdMinutes.toNat * 60)
    let requested := accountCount - 1
    if requested ≤ available.length then rng.shuffle 0 (0 :: rng.sample available requested)
    else
      let more := (range (requested - available.length)).map fun n => rng.choice n available
      rng.shuffle 1 (rng.shuffle 0 (0 :: available) ++ more)

/-- `_build_dispatch_plan`; `dict.fromkeys` keeps the first of equal accounts. -/
def buildDispatchPlan (rng : Rng) (dueSlot : ℤ) (accountIds : List String)
    (thresholdMinutes : ℤ) : List (String × ℤ) :=
  let deduped := accountIds.reverse.dedup.reverse
  let offsets := pickDispatchOffsetsSeconds rng deduped.length thresholdMinutes
  deduped.zip (offsets.map fun (seconds : ℕ) => dueSlot + seconds * 1000000)

structure Spread (count window : ℕ) (offsets : List ℕ) : Prop where
  length : offsets.length = count
  le : ∀ o ∈ offsets, o ≤ window
  zero : 0 < count → 0 ∈ offsets
  nodup : count ≤ window + 1 → offsets.Nodup

variable {rng : Rng} {count window : ℕ} {offsets offsets' : List ℕ}

theorem Spread.of_perm (h : Spread count window offsets) (hperm : offsets' ~ offsets) :
    Spread count window offsets' where
  length := hperm.length_eq.trans h.length
  le o ho := h.le o (hperm.mem_iff.mp ho)
  zero hpos := hperm.mem_iff.mpr (h.zero hpos)
  nodup hle := hperm.nodup_iff.mpr (h.nodup hle)

theorem spread_sample (rng : Rng) (hle : count ≤ window) :
    Spread (count + 1) window (0 :: rng.sample (range' 1 window) count) := by
  have hlen : count ≤ (range' 1 window).length := by rwa [length_range']
  have hsub := rng.sample_subperm hlen
  have hrange : ∀ o ∈ rng.sample (range' 1 window) count, 1 ≤ o ∧ o < 1 + window := fun o ho =>
    mem_range'_1.mp (hsub.subset ho)
  refine ⟨?_, ?_, fun _ => mem_cons_self, fun _ => nodup_cons.mpr ⟨fun h0 => ?_, ?_⟩⟩
  · rw [length_cons, rng.length_sample hlen]
  · refine forall_mem_cons.mpr ⟨Nat.zero_le _, fun o ho => ?_⟩
    have := hrange o ho
    omega
  · have := hrange 0 h0
    omega
  · obtain ⟨l, hperm, hsublist⟩ := hsub
    exact hperm.nodup_iff.mp (hsublist.nodup nodup_range')

theorem spread_all (rng : Rng) (hwindow : 0 < window) (hlt : window < count) :
    Spread (count + 1) window (rng.shuffle 0 (0 :: range' 1 window) ++
      (range (count - window)).map fun n => rng.choice n (range' 1 window)) := by
  have hne : range' 1 window ≠ [] := by
    rw [Ne, range'_eq_nil_iff]
    omega
  refine ⟨?_, ?_, fun _ => ?_, fun hle => absurd hle (by omega)⟩
  · rw [length_append, (rng.shuffle_perm _ _).length_eq, length_cons, length_range', length_map,
      length_range]
    omega
  · refine forall_mem_append.mpr ⟨fun o ho => ?_, fun o ho => ?_⟩
    · rw [(rng.shuffle_perm _ _).mem_iff, mem_cons, mem_range'_1] at ho
      omega
    · obtain ⟨n, -, rfl⟩ := mem_map.mp ho
      have := mem_range'_1.mp (rng.choice_mem n hne)
      omega
  · exact mem_append_left _ ((rng.shuffle_perm _ _).mem_iff.mpr mem_cons_self)

theorem spread_pickDispatchOffsetsSeconds (rng : Rng) (count thresholdMinutes : ℕ) :
    Spread count (60 * thresholdMinutes)
      (pickDispatchOffsetsSeconds rng count thresholdMinutes) := by
  unfold pickDispatchOffsetsSeconds
  dsimp only
  rw [Int.toNat_natCast, Nat.mul_comm thresholdMinutes, length_range']
  split_ifs with hcount hthreshold hone hfew
  · exact ⟨hcount.symm, nofun, fun h => absurd h (by omega), fun _ => nodup_nil⟩
  · refine ⟨length_replicate, fun o ho => ?_, fun h => ?_, fun h => ?_⟩
    · rw [eq_of_mem_replicate ho]
      exact Nat.zero_le _
    · exact mem_replicate.mpr ⟨hcount, rfl⟩
    · obtain rfl : count = 1 := by omega
      exact nodup_singleton _
  · exact ⟨hone.symm, by simp, fun _ => mem_cons_self, fun _ => nodup_singleton _⟩
  · obtain ⟨n, rfl⟩ := Nat.exists_eq_succ_of_ne_zero hcount
    exact (spread_sample rng hfew).of_perm (rng.shuffle_perm _ _)
  · obtain ⟨n, rfl⟩ := Nat.exists_eq_succ_of_ne_zero hcount
    exact (spread_all rng (by omega) (by omega)).of_perm (rng.shuffle_perm _ _)

/-- **The dispatch plan spreads fairly**: one entry for each account, at a second of the window, one
at its start, and no two at the same second unless there are more accounts than seconds. -/
theorem dispatch_plan_spreads (rng : Rng) (dueSlot : ℤ) (accountIds : List String) (T : ℕ) :
    let plan := buildDispatchPlan rng dueSlot accountIds T
    (plan.map Prod.fst).Nodup ∧ (∀ id, id ∈ plan.map Prod.fst ↔ id ∈ accountIds) ∧
    (∀ entry ∈ plan, ∃ offset : ℕ, offset ≤ 60 * T ∧ entry.2 = dueSlot + offset * 1000000) ∧
    (accountIds ≠ [] → ∃ entry ∈ plan, entry.2 = dueSlot) ∧
    (accountIds.dedup.length ≤ 60 * T + 1 → (plan.map Prod.snd).Nodup) := by
  intro plan
  set deduped := accountIds.reverse.dedup.reverse with hdeduped
  set offsets := pickDispatchOffsetsSeconds rng deduped.length T
  set times := offsets.map fun (seconds : ℕ) => dueSlot + (seconds : ℤ) * 1000000
  have hplan : plan = deduped.zip times := rfl
  have hspread : Spread deduped.length (60 * T) offsets := spread_pickDispatchOffsetsSeconds ..
  have hlength : deduped.length = times.length := by rw [length_map, hspread.length]
  have hmem : ∀ id, id ∈ deduped ↔ id ∈ accountIds := by simp [deduped]
  have hnodup : deduped.Nodup := nodup_reverse.mpr (nodup_dedup _)
  have hsnd : plan.map Prod.snd = times := by rw [hplan, map_snd_zip hlength.ge]
  refine ⟨?_, ?_, fun entry hentry => ?_, fun hne => ?_, fun hle => ?_⟩
  · rwa [hplan, map_fst_zip hlength.le]
  · rwa [hplan, map_fst_zip hlength.le]
  · obtain ⟨o, ho, htime⟩ := mem_map.mp (hsnd ▸ mem_map_of_mem hentry)
    exact ⟨o, hspread.le o ho, htime.symm⟩
  · obtain ⟨id, hid⟩ := exists_mem_of_ne_nil _ hne
    have hzero := hspread.zero (length_pos_of_mem ((hmem id).mpr hid))
    have htime : dueSlot ∈ plan.map Prod.snd := by
      rw [hsnd]
      exact mem_map.mpr ⟨0, hzero, by simp⟩
    simpa using htime
  · have hcount : deduped.length = accountIds.dedup.length :=
      ((perm_ext_iff_of_nodup hnodup (nodup_dedup _)).mpr fun id => by simp [hmem]).length_eq
    rw [hsnd]
    refine (hspread.nodup (hcount ▸ hle)).map fun a b hab => ?_
    omega

end CodexOctopus.Automations

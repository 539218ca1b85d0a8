import Mathlib.Algebra.Order.Ring.Int
import Mathlib.Order.SuccPred.IntervalSucc
import Mathlib.Data.Int.SuccPred
import Mathlib.Tactic.Ring

/-!
# The slots of an automation

From `app/modules/automations/service.py`: `compute_latest_due_slot_utc`, `compute_next_run_utc` and
`compute_due_slot_for_current_local_day_utc`. Moments are counted in microseconds, the resolution of
`datetime`; the local calendar day of a reading of the local clock is its quotient by the length of
a day.

Two datetimes of one zone are compared by what their clocks show. `slots_adjacent_iff` says for
which moments that is good enough: those at which no slot is on one side of the clock and on the
other side in UTC, so neither inside a fold whose slot was its first pass nor in the hour after a
gap that swallowed one.
-/

namespace CodexOctopus.Automations

open Option

def minute : ℤ := 60000000

def day : ℤ := 1440 * minute

structure Zone where
  utcoffset : ℤ → ℤ
  /-- `astimezone(UTC)` for a reading of the local clock, with `fold=0` -/
  toUtc : ℤ → ℤ
  toUtc_le : ∀ u, toUtc (u + utcoffset u) ≤ u
  /-- a reading that occurs is the one at its moment -/
  reading : ∀ u, toUtc (u + utcoffset u) + utcoffset (toUtc (u + utcoffset u)) = u + utcoffset u
  ordered : ∀ t, toUtc t ≤ toUtc (t + day)

def Zone.localNow (z : Zone) (u : ℤ) : ℤ := u + z.utcoffset u

/-- A parsed schedule, with the days as `datetime.weekday` counts them. -/
structure Schedule where
  hour : ℕ
  minutes : ℕ
  allowedDays : List ℤ
  hour_lt : hour < 24
  minutes_lt : minutes < 60
  someDay : allowedDays ≠ []
  weekdays : ∀ d ∈ allowedDays, 0 ≤ d ∧ d < 7

/-- `datetime.weekday` for the day with this number; day 0 was a Thursday. -/
def weekday (n : ℤ) : ℤ := (n + 3) % 7

namespace Schedule

variable (s : Schedule) (z : Zone)

def candidate (n : ℤ) : ℤ := n * day + (60 * s.hour + s.minutes) * minute

def Allowed (n : ℤ) : Prop := weekday n ∈ s.allowedDays

instance (n : ℤ) : Decidable (s.Allowed n) := inferInstanceAs (Decidable (_ ∈ _))

/-- The loop of both functions: the first allowed day from `n` on, `stride` days at a time. -/
def firstAllowed (stride : ℤ) : ℕ → ℤ → Option ℤ
  | 0, _ => none
  | k + 1, n => if s.Allowed n then some n else firstAllowed stride k (n + stride)

def computeLatestDueSlotUtc (now : ℤ) : Option ℤ :=
  let today := z.localNow now / day
  let start := if s.candidate today > z.localNow now then today - 1 else today
  (s.firstAllowed (-1) 8 start).map fun n => z.toUtc (s.candidate n)

def computeNextRunUtc (now : ℤ) : Option ℤ :=
  let today := z.localNow now / day
  let start := if s.candidate today ≤ z.localNow now then today + 1 else today
  (s.firstAllowed 1 8 start).map fun n => z.toUtc (s.candidate n)

/-- What `run_due_jobs` looks for. -/
def computeDueSlotForCurrentLocalDayUtc (now : ℤ) : Option ℤ :=
  let today := z.localNow now / day
  if ¬ s.Allowed today then none
  else if s.candidate today > z.localNow now then none
  else some (z.toUtc (s.candidate today))

def IsSlot (t : ℤ) : Prop := ∃ n, s.Allowed n ∧ z.toUtc (s.candidate n) = t

variable {s z}

theorem firstAllowed_eq {stride : ℤ} : ∀ {k : ℕ} {n : ℤ}, (∃ i < k, s.Allowed (n + stride * i)) →
    ∃ i : ℕ, s.firstAllowed stride k n = some (n + stride * i) ∧ s.Allowed (n + stride * i) ∧
      ∀ j < i, ¬ s.Allowed (n + stride * j)
  | 0, _, ⟨_, hi, _⟩ => absurd hi (Nat.not_lt_zero _)
  | k + 1, n, ⟨i, hi, ha⟩ => by
    by_cases hn : s.Allowed n
    · exact ⟨0, by simp [firstAllowed, hn], by simpa using hn, fun _ hj => by omega⟩
    · -- the day found is not the first, so it is among those of the shorter loop
      have shift (j : ℕ) : n + stride + stride * j = n + stride * ((j + 1 : ℕ) : ℤ) := by
        push_cast; ring
      obtain _ | i := i
      · exact absurd (by simpa using ha) hn
      obtain ⟨m, hm, hma, hb⟩ := firstAllowed_eq (k := k) (n := n + stride)
        ⟨i, by omega, by rw [shift]; exact ha⟩
      refine ⟨m + 1, by rw [firstAllowed, if_neg hn, hm, shift], by rw [← shift]; exact hma, ?_⟩
      rintro (_ | j) hj
      · simpa using hn
      · rw [← shift]; exact hb j (by omega)

theorem exists_allowed (s : Schedule) (n stride : ℤ) (h : stride = 1 ∨ stride = -1) :
    ∃ i < 8, s.Allowed (n + stride * (i : ℕ)) := by
  obtain ⟨d, ds, hd⟩ := List.exists_cons_of_ne_nil s.someDay
  have hmem : d ∈ s.allowedDays := by simp [hd]
  have hlt := s.weekdays d hmem
  obtain ⟨i, hi, hw⟩ : ∃ i : ℕ, i < 8 ∧ weekday (n + stride * i) = d := by
    unfold weekday
    obtain rfl | rfl := h
    · exact ⟨((d - n - 3) % 7).toNat, by omega, by omega⟩
    · exact ⟨((n + 3 - d) % 7).toNat, by omega, by omega⟩
  exact ⟨i, hi, by unfold Allowed; rwa [hw]⟩

theorem toUtc_mono {m n : ℤ} (h : m ≤ n) : z.toUtc (s.candidate m) ≤ z.toUtc (s.candidate n) := by
  have hmono : Monotone fun n => z.toUtc (s.candidate n) := monotone_int_of_le_succ fun n => by
    have h := z.ordered (s.candidate n)
    rwa [show s.candidate n + day = s.candidate (n + 1) by unfold candidate; ring] at h
  exact hmono h

theorem exists_boundary (s : Schedule) (z : Zone) (now : ℤ) : ∃ b,
    (∀ n, s.candidate n ≤ z.localNow now ↔ n < b) ∧
    (if s.candidate (z.localNow now / day) > z.localNow now
      then z.localNow now / day - 1 else z.localNow now / day) = b - 1 ∧
    (if s.candidate (z.localNow now / day) ≤ z.localNow now
      then z.localNow now / day + 1 else z.localNow now / day) = b := by
  have hh := s.hour_lt
  have hm := s.minutes_lt
  generalize z.localNow now = t
  unfold candidate day minute
  by_cases h : t / (1440 * 60000000) * (1440 * 60000000) + (60 * s.hour + s.minutes) * 60000000 ≤ t
  · refine ⟨t / (1440 * 60000000) + 1, fun n => ?_, by rw [if_neg (by omega)]; omega,
      by rw [if_pos h]⟩
    omega
  · refine ⟨t / (1440 * 60000000), fun n => ?_, by rw [if_pos (by omega)], by rw [if_neg h]⟩
    omega

/-- **The latest slot and the next one surround the moment and are adjacent exactly when the local
clock and UTC agree on which slots have come.** -/
theorem slots_adjacent_iff (s : Schedule) (z : Zone) (now : ℤ) :
    (∃ a b, s.computeLatestDueSlotUtc z now = some a ∧ s.computeNextRunUtc z now = some b ∧
      a ≤ now ∧ now < b ∧ s.IsSlot z a ∧ s.IsSlot z b ∧ ∀ t, s.IsSlot z t → ¬ (a < t ∧ t < b)) ↔
    ∀ n, s.Allowed n → (s.candidate n ≤ z.localNow now ↔ z.toUtc (s.candidate n) ≤ now) := by
  obtain ⟨b, hb, hlast, hnext⟩ := exists_boundary s z now
  obtain ⟨i, hi, hai, hni⟩ := firstAllowed_eq (exists_allowed s (b - 1) (-1) (.inr rfl))
  obtain ⟨j, hj, haj, hnj⟩ := firstAllowed_eq (exists_allowed s b 1 (.inl rfl))
  have hlatest : s.computeLatestDueSlotUtc z now
      = some (z.toUtc (s.candidate (b - 1 + -1 * i))) := by
    simp only [computeLatestDueSlotUtc, hlast, hi, map_some]
  have hnextRun : s.computeNextRunUtc z now = some (z.toUtc (s.candidate (b + 1 * j))) := by
    simp only [computeNextRunUtc, hnext, hj, map_some]
  -- an allowed day is not between the two that are found
  have hbelow (n : ℤ) (hn : s.Allowed n) (hlt : n < b) : n ≤ b - 1 + -1 * i := by
    by_contra hle
    exact hni (b - 1 - n).toNat (by omega) (by convert hn using 2; omega)
  have habove (n : ℤ) (hn : s.Allowed n) (hge : b ≤ n) : b + 1 * j ≤ n := by
    by_contra hle
    exact hnj (n - b).toNat (by omega) (by convert hn using 2; omega)
  simp only [hlatest, hnextRun, some.injEq, hb]
  constructor
  · rintro ⟨_, _, rfl, rfl, hle, hlt, -, -, -⟩ n hn
    constructor
    · exact fun h => (toUtc_mono (hbelow n hn h)).trans hle
    · intro h
      by_contra hge
      have := toUtc_mono (s := s) (z := z) (habove n hn (by omega))
      exact absurd (this.trans h) (by simpa using hlt)
  · intro h
    refine ⟨_, _, rfl, rfl, (h _ hai).1 (by omega), ?_, ⟨_, hai, rfl⟩, ⟨_, haj, rfl⟩, ?_⟩
    · by_contra hlt
      have := (h _ haj).2 (by omega)
      omega
    · rintro _ ⟨n, hn, rfl⟩ ⟨hgt, hlt⟩
      by_cases hlt' : n < b
      · exact absurd (toUtc_mono (s := s) (z := z) (hbelow n hn hlt')) (by simpa using hgt)
      · exact absurd (toUtc_mono (s := s) (z := z) (habove n hn (by omega))) (by simpa using hlt)

/-- **The slot that is run is the latest one, until its local day is over.** -/
theorem due_slot_of_latest (s : Schedule) (z : Zone) (now : ℤ) :
    ∃ n, s.Allowed n ∧ s.candidate n ≤ z.localNow now ∧
      (∀ m, s.Allowed m → s.candidate m ≤ z.localNow now → m ≤ n) ∧
      s.computeLatestDueSlotUtc z now = some (z.toUtc (s.candidate n)) ∧
      s.computeDueSlotForCurrentLocalDayUtc z now =
        if n = z.localNow now / day then s.computeLatestDueSlotUtc z now else none := by
  obtain ⟨b, hb, hlast, hnext⟩ := exists_boundary s z now
  obtain ⟨i, hi, hai, hni⟩ := firstAllowed_eq (exists_allowed s (b - 1) (-1) (.inr rfl))
  simp only [computeLatestDueSlotUtc, computeDueSlotForCurrentLocalDayUtc, hlast, hi, map_some]
  generalize z.localNow now / day = today at *
  generalize hn : b - 1 + -1 * (i : ℤ) = n at *
  have hbelow (m : ℤ) (hm : s.Allowed m) (hlt : m < b) : m ≤ n := by
    by_contra hle
    exact hni (b - 1 - m).toNat (by omega) (by convert hm using 2; omega)
  have hcome : s.candidate n ≤ z.localNow now := (hb n).mpr (by omega)
  refine ⟨n, hai, hcome, fun m hm hle => hbelow m hm ((hb m).mp hle), rfl, ?_⟩
  by_cases htoday : n = today
  · subst htoday
    rw [if_neg (not_not.mpr hai), if_neg (not_lt.mpr hcome), if_pos rfl]
  · rw [if_neg htoday]
    by_cases hallowed : s.Allowed today
    · -- else today would be an allowed day after `n` that has come
      have hlate : s.candidate today > z.localNow now := by
        by_contra hle
        have := hbelow today hallowed ((hb today).mp (not_lt.mp hle))
        split_ifs at hnext <;> omega
      rw [if_neg (not_not.mpr hallowed), if_pos hlate]
    · rw [if_pos hallowed]

/-- A zone whose clock goes back by an hour at moment 0: the first hour of the day comes twice. -/
def fallBack : Zone where
  utcoffset u := if u < 0 then 60 * minute else 0
  toUtc t := if t < 60 * minute then t - 60 * minute else t
  toUtc_le u := by unfold minute; grind
  reading u := by unfold minute; grind
  ordered t := by unfold day minute; grind

def halfPastMidnight : Schedule :=
  ⟨0, 30, [0, 1, 2, 3, 4, 5, 6], by decide, by decide, by decide, by decide⟩

/-- Ten minutes into the second pass, the next run is the one of the first pass. -/
theorem next_run_past : ∃ b, halfPastMidnight.computeNextRunUtc fallBack (10 * minute) = some b ∧
    b < 10 * minute :=
  ⟨-30 * minute, by decide, by decide⟩

end Schedule

end CodexOctopus.Automations

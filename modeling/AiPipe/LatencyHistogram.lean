import Mathlib.Algebra.Order.BigOperators.Group.Finset
import Mathlib.Algebra.BigOperators.Intervals
import Mathlib.Data.Rat.Floor
import Mathlib.Order.Bounds.Basic

/-!
The latency histogram and its percentiles, from `execution_types.hpp`, for fewer than `2 ^ 64`
samples; percentages are rationals where the code has `double`.
-/

namespace AiPipe.LatencyHistogram

def kNumBuckets : Nat := 16

def kBucketBounds : List Nat :=
  [10, 25, 50, 100, 250, 500, 1000, 2500, 5000, 10000, 25000, 50000, 100000, 250000, 500000]

def bucketBound (index : Nat) : Nat := kBucketBounds[index]?.getD 500000

variable (buckets : Nat → Nat)

def totalCount : Nat :=
  (List.range kNumBuckets).foldl (fun total index => total + buckets index) 0

def scan (target : Nat) : List Nat → Nat → Nat
  | [], _ => 500000
  | index :: rest, cumulative =>
    if target ≤ cumulative + buckets index then bucketBound index
    else scan target rest (cumulative + buckets index)

def target (percentile : ℚ) : Nat := ⌊totalCount buckets * percentile / 100⌋₊

def getPercentile (percentile : ℚ) : Nat :=
  scan buckets (target buckets percentile) (List.range kNumBuckets) 0

def latencyPercentiles : List (String × Nat) :=
  [("p50", 50), ("p90", 90), ("p95", 95), ("p99", 99), ("p99.9", 999 / 10)].map
    fun (name, percentile) =>
      (name, if totalCount buckets = 0 then 0 else getPercentile buckets percentile)

def samplesUpTo (index : Nat) : Nat := ∑ bucket ∈ Finset.range (index + 1), buckets bucket

def Covers (percentile : ℚ) (index : Nat) : Prop :=
  percentile * totalCount buckets ≤ 100 * samplesUpTo buckets index

variable {buckets}

theorem totalCount_eq : totalCount buckets = samplesUpTo buckets 15 := by
  simp [totalCount, samplesUpTo, kNumBuckets, Finset.sum_range_succ, List.range_succ]

theorem samplesUpTo_mono : Monotone (samplesUpTo buckets) := fun _ _ below =>
  Finset.sum_le_sum_of_subset (Finset.range_mono (by omega))

theorem bucketBound_lt {first second : Nat} (below : first < second) (early : first < 14)
    (last : second ≤ 15) : bucketBound first < bucketBound second := by
  have all : ∀ second < 16, ∀ first < second, first < 14 →
      bucketBound first < bucketBound second := by decide
  exact all second (by omega) first below early

theorem bucketBound_le {first second : Nat} (below : first ≤ second) (last : second ≤ 15) :
    bucketBound first ≤ bucketBound second := by
  have all : ∀ second < 16, ∀ first ≤ second, bucketBound first ≤ bucketBound second := by decide
  exact all second (by omega) first below

/-- The loop stops at the first bucket that reaches the target. -/
theorem scan_eq {target index : Nat}
    (least : IsLeast {index | target ≤ samplesUpTo buckets index} index) {first count : Nat}
    (low : first ≤ index) (high : index < first + count) :
    scan buckets target (List.range' first count)
      (∑ bucket ∈ Finset.range first, buckets bucket) = bucketBound index := by
  induction count generalizing first with
  | zero => omega
  | succ count ih =>
    rw [List.range'_succ, scan, ← Finset.sum_range_succ]
    by_cases here : index = first
    · rw [if_pos (here ▸ least.1), here]
    · have below : ¬ target ≤ samplesUpTo buckets first := by
        intro reached
        have := least.2 reached
        omega
      rw [samplesUpTo] at below
      rw [if_neg below]
      exact ih (by omega) (by omega)

theorem exists_first {reached : Nat → Prop} (last : reached 15) :
    ∃ index ≤ 15, IsLeast {index | reached index} index := by
  classical
  exact ⟨Nat.find ⟨15, last⟩, Nat.find_min' _ last, Nat.isLeast_find _⟩

variable {percentile : ℚ}

theorem target_le_iff {index : Nat} : target buckets percentile ≤ samplesUpTo buckets index ↔
    percentile * totalCount buckets < 100 * (samplesUpTo buckets index + 1) := by
  rw [target, ← Nat.lt_succ_iff, Nat.floor_lt' (Nat.succ_ne_zero _), div_lt_iff₀ (by norm_num)]
  push_cast
  rw [mul_comm percentile, mul_comm 100]

theorem covers_last (most : percentile ≤ 100) : Covers buckets percentile 15 := by
  rw [Covers, ← totalCount_eq]
  exact mul_le_mul_of_nonneg_right most (Nat.cast_nonneg _)

theorem target_of_covers {index : Nat} (covers : Covers buckets percentile index) :
    target buckets percentile ≤ samplesUpTo buckets index := by
  rw [Covers] at covers
  exact target_le_iff.mpr (by linarith)

variable (buckets) in
theorem getPercentile_eq (most : percentile ≤ 100) :
    ∃ index ≤ 15, IsLeast {index | target buckets percentile ≤ samplesUpTo buckets index} index ∧
      getPercentile buckets percentile = bucketBound index := by
  obtain ⟨index, bound, least⟩ := @exists_first
    (fun index => target buckets percentile ≤ samplesUpTo buckets index)
    (target_of_covers (covers_last most))
  refine ⟨index, bound, least, ?_⟩
  rw [getPercentile, List.range_eq_range']
  exact scan_eq least (Nat.zero_le _) (by simp only [kNumBuckets]; omega)

/-- The value for a percentile is the bound of the first bucket that covers it, and not one
below all samples. -/
structure TrueBound (buckets : Nat → Nat) (percentile : ℚ) : Prop where
  first : ∀ index, IsLeast {index | Covers buckets percentile index} index →
    getPercentile buckets percentile = bucketBound index
  reached : ∃ bucket ≤ 15, 0 < buckets bucket ∧ bucketBound bucket ≤ getPercentile buckets percentile

/-- A larger percentile has no smaller value. -/
theorem getPercentile_mono {percentile' : ℚ} (below : percentile ≤ percentile')
    (most : percentile' ≤ 100) :
    getPercentile buckets percentile ≤ getPercentile buckets percentile' := by
  obtain ⟨first, -, least, value⟩ := getPercentile_eq buckets (below.trans most)
  obtain ⟨second, last, reaches, value'⟩ := getPercentile_eq buckets most
  have easier : target buckets percentile ≤ target buckets percentile' := by
    refine Nat.floor_mono (div_le_div_of_nonneg_right ?_ (by norm_num))
    exact mul_le_mul_of_nonneg_left below (Nat.cast_nonneg _)
  have notAfter : first ≤ second := least.2 (easier.trans reaches.1)
  rw [value, value']
  exact bucketBound_le notAfter last

/-- The bound is true unless the exact rank lies between the samples up to a bucket and one
more; the last two buckets have one bound.  It is monotone in any case. -/
theorem getPercentile_true (samples : 0 < totalCount buckets) (positive : 0 < percentile)
    (most : percentile ≤ 100) :
    (TrueBound buckets percentile ↔ ∀ index < 14,
      ¬ (100 * samplesUpTo buckets index < percentile * totalCount buckets ∧
        percentile * totalCount buckets < 100 * (samplesUpTo buckets index + 1))) ∧
      ∀ percentile' : ℚ, percentile ≤ percentile' → percentile' ≤ 100 →
        getPercentile buckets percentile ≤ getPercentile buckets percentile' := by
  refine ⟨?_, fun _ => getPercentile_mono⟩
  obtain ⟨found, inside, least, value⟩ := getPercentile_eq buckets most
  obtain ⟨first, last, covers⟩ := @exists_first (Covers buckets percentile) (covers_last most)
  have covered : percentile * totalCount buckets ≤ 100 * samplesUpTo buckets first := covers.1
  constructor
  · rintro ⟨exact, -⟩ index early ⟨short, close⟩
    have notAfter : found ≤ index := least.2 (target_le_iff.mpr close)
    have before : index < first := by
      by_contra after
      have more : (samplesUpTo buckets first : ℚ) ≤ samplesUpTo buckets index :=
        Nat.cast_le.mpr (samplesUpTo_mono (Nat.le_of_not_lt after))
      linarith
    have different := bucketBound_lt (lt_of_le_of_lt notAfter before) (by omega) last
    rw [← exact first covers, value] at different
    exact lt_irrefl _ different
  · intro apart
    have notAfter : found ≤ first := least.2 (target_of_covers covered)
    have same : bucketBound found = bucketBound first := by
      rcases notAfter.eq_or_lt with equal | before
      · rw [equal]
      have short : ¬ Covers buckets percentile found := fun early =>
        absurd (covers.2 early) (Nat.not_le_of_lt before)
      have late : ¬ found < 14 := fun early =>
        apart found early ⟨not_le.mp short, target_le_iff.mp least.1⟩
      obtain ⟨rfl, rfl⟩ : found = 14 ∧ first = 15 := by omega
      rfl
    have only (index : Nat) (other : IsLeast {index | Covers buckets percentile index} index) :
        index = first := other.unique covers
    refine ⟨fun index other => by rw [value, same, only index other], ?_⟩
    have some : 0 < samplesUpTo buckets first := by
      have share : 0 < percentile * totalCount buckets := by positivity
      have scaled := lt_of_lt_of_le share covered
      exact_mod_cast (mul_pos_iff_of_pos_left (by norm_num)).mp scaled
    obtain ⟨bucket, member, count⟩ := Finset.sum_pos_iff.mp some
    have early : bucket ≤ first := by simpa using member
    exact ⟨bucket, by omega, count, value ▸ same ▸ bucketBound_le early last⟩

theorem getPercentile_true_halves :
    TrueBound (fun index => if index < 2 then 50 else 0) 50 ∧
      getPercentile (fun index => if index < 2 then 50 else 0) 50 = 10 :=
  ⟨(getPercentile_true (by decide) (by norm_num) (by norm_num)).1.mpr (by decide +kernel),
    by decide +kernel⟩

/-- One sample between 50 and 100 microseconds: every percentile is said to be below 10. -/
theorem getPercentile_below_sample :
    latencyPercentiles (fun index => if index = 3 then 1 else 0) =
        [("p50", 10), ("p90", 10), ("p95", 10), ("p99", 10), ("p99.9", 10)] ∧
      ¬ TrueBound (fun index => if index = 3 then 1 else 0) 50 := by
  refine ⟨by decide +kernel, fun bound => ?_⟩
  obtain ⟨bucket, -, count, low⟩ := bound.reached
  have value : getPercentile (fun index => if index = 3 then 1 else 0) 50 = 10 := by
    decide +kernel
  obtain rfl : bucket = 3 := by
    by_contra other
    simp [other] at count
  exact absurd (low.trans value.le) (by decide)

end AiPipe.LatencyHistogram

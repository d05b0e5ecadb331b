import DagMl.Lib.Binary64
import DagMl.Lib.Binary64.Rounding
import DagMl.Lib.Keyed
import DagMl.Lib.Ranking

/-!
# Percentile ranks

The normalisations of a dataset's scores in exact arithmetic. Scores are
floats; ranks and statistics are numbers of an ordered field.
-/

namespace Binary64

/-- The number a finite float denotes. -/
def exact {K : Type} [Field K] (x : Binary64) : K := (x.units : K) / 2 ^ 1074

theorem exact_le_exact {K : Type} [Field K] [LinearOrder K] [IsStrictOrderedRing K]
    {x y : Binary64} : (x.exact : K) ≤ y.exact ↔ x.key ≤ y.key := by
  have hpos : (0 : K) < 2 ^ 1074 := by positivity
  rw [exact, exact, div_le_div_iff_of_pos_right hpos, Int.cast_le, units_le_units]

theorem exact_zero {K : Type} [Field K] : (zero.exact : K) = 0 := by
  have habs : zero.absUnits = 0 := absUnits_eq_zero.mpr (magnitude_make false (by decide))
  have hunits : zero.units = 0 := by simp [units, habs]
  rw [exact, hunits, Int.cast_zero, zero_div]

theorem exact_nonneg {K : Type} [Field K] [LinearOrder K] [IsStrictOrderedRing K] {x : Binary64}
    (h : x.isFinite = true) (hlt : x.lt zero = false) : (0 : K) ≤ x.exact := by
  have hkey : zero.key ≤ x.key := by
    have hzero : zero.isFinite = true := by decide
    exact not_lt.mp (mt (lt_iff h hzero).mpr (by rw [hlt]; decide))
  rw [← exact_zero]
  exact exact_le_exact.mpr hkey

theorem key_le_of_totalKey_le {x y : Binary64} (h : x.totalKey ≤ y.totalKey) : x.key ≤ y.key := by
  unfold totalKey at h
  unfold key
  split at h <;> split at h <;> simp_all
  omega

theorem eq_eq_decide {x y : Binary64} (hx : x.isNan = false) (hy : y.isNan = false) :
    x.eq y = decide (x.key = y.key) := by
  simp [eq, hx, hy]

theorem lt_eq_true {x y : Binary64} (h : x.lt y = true) : x.key < y.key := by
  simp only [lt, Bool.and_eq_true, decide_eq_true_eq] at h
  exact h.2

theorem magnitude_lt (x : Binary64) : x.magnitude < 2 ^ 63 := Nat.mod_lt _ (by decide)

theorem key_negate (x : Binary64) : x.negate.key = -x.key := by
  unfold negate key
  rw [neg_make _ x.magnitude_lt, magnitude_make _ x.magnitude_lt]
  cases x.neg <;> simp

theorem isNan_negate (x : Binary64) : x.negate.isNan = x.isNan := by
  unfold negate isNan
  rw [magnitude_make _ x.magnitude_lt]

end Binary64

namespace DagMl

open Ranking

section Definitions

variable {K : Type} [Field K] [LinearOrder K]

/-- The loop over the runs of the sorted values, each with the slot it came from. -/
def averagedRanks (values : List Binary64) : List K :=
  let n := values.length
  let order := Keyed.sortBy (fun e => e.1.totalKey) values.zipIdx
  let denom : K := (n - 1 : Nat)
  -- ties are numeric, so both zeros share a run
  let runs := tieRuns (fun next first => next.1.eq first.1) 0 order
  runs.foldl (fun ranks (run, i, j) =>
    let averaged := ((i + j : Nat) : K) / 2 / denom
    writeSlots ranks (run.map fun e => (e.2, averaged))) (List.replicate n 0)

/-- Percentile rank of each value, `1` for the largest; ties are averaged. -/
def percentileRanks (values : List Binary64) : List K :=
  match values with
  | [] => []
  | [_] => [1 / 2]
  | _ => averagedRanks values

/-- Sample z-scores; without variance every value has score `0`. -/
def zScores (sqrt : K → K) (values : List Binary64) : List K :=
  let n := values.length
  if n < 2 then List.replicate n 0
  else
    let mean : K := (values.map Binary64.exact).sum / n
    let variance := (values.map fun v => (v.exact - mean) ^ 2).sum / ((n : K) - 1)
    let sd := sqrt variance
    if sd = 0 then List.replicate n 0 else values.map fun v => (v.exact - mean) / sd

/-- Median, the midpoint of the two middle values of an even list; `none` is NaN. -/
def median (values : List K) : Option K :=
  let sorted := values.insertionSort (· ≤ ·)
  let n := sorted.length
  if n % 2 = 1 then sorted[n / 2]?
  else do
    let lo ← sorted[n / 2 - 1]?
    let hi ← sorted[n / 2]?
    pure (lo + (hi - lo) / 2)

-- ---------------------------------------------------------------------------
-- What a rank is
-- ---------------------------------------------------------------------------

/-- The rank of a value: half the number of values below it plus half the
number at or below it, less one, out of the other values. -/
def percentileRank (values : List Binary64) (v : Binary64) : K :=
  if values.length = 1 then 1 / 2
  else ((below Binary64.key values v + (below Binary64.key values v +
    ties Binary64.key values v - 1) : Nat) : K) / 2 / (values.length - 1 : Nat)

end Definitions

variable {K : Type} [Field K] {values values' : List Binary64} {v w : Binary64}

theorem below_zipIdx (values : List Binary64) (e : Binary64 × Nat) :
    below (fun e => e.1.key) values.zipIdx e = below Binary64.key values e.1 := by
  unfold below
  conv_rhs => rw [← List.zipIdx_map_fst 0 values, List.countP_map]
  rfl

theorem ties_zipIdx (values : List Binary64) (e : Binary64 × Nat) :
    ties (fun e => e.1.key) values.zipIdx e = ties Binary64.key values e.1 := by
  unfold ties
  conv_rhs => rw [← List.zipIdx_map_fst 0 values, List.countP_map]
  rfl

theorem averagedRanks_eq (hlength : values.length ≠ 1) (hnan : ∀ v ∈ values, v.isNan = false) :
    averagedRanks (K := K) values = values.map (percentileRank values) := by
  unfold averagedRanks
  simp only
  have hperm := Keyed.perm_sortBy (fun e : Binary64 × Nat => e.1.totalKey) values.zipIdx
  have hsorted := Keyed.pairwise_sortBy (fun e : Binary64 × Nat => e.1.totalKey) values.zipIdx
  generalize Keyed.sortBy (fun e : Binary64 × Nat => e.1.totalKey) values.zipIdx = order at *
  have hvalue (e : Binary64 × Nat) (he : e ∈ order) : e.1.isNan = false := by
    refine hnan e.1 ?_
    rw [← List.zipIdx_map_fst 0 values]
    exact List.mem_map_of_mem (hperm.mem_iff.mp he)
  have hsorted : order.Pairwise fun e e' => e.1.key ≤ e'.1.key :=
    hsorted.imp fun hle => Binary64.key_le_of_totalKey_le hle
  have htied : ∀ e ∈ order, ∀ e' ∈ order, e'.1.eq e.1 = decide (e'.1.key = e.1.key) :=
    fun e he e' he' => Binary64.eq_eq_decide (hvalue e' he') (hvalue e he)
  have hruns := tieRuns_eq htied hsorted 0
  rw [writeSlots_flatMap]
  refine writeSlots_eq (by simp) ?_
  have hspans : (tieRuns (fun next first => next.1.eq first.1) 0 order).flatMap
      (fun (run, i, j) => run.map fun e => (e.2, ((i + j : Nat) : K) / 2 / (values.length - 1 : Nat))) =
      order.map fun e => (e.2, percentileRank values e.1) := by
    have hmapped := congrArg (List.map fun s : (Binary64 × Nat) × Nat × Nat =>
      (s.1.2, ((s.2.1 + s.2.2 : Nat) : K) / 2 / (values.length - 1 : Nat))) hruns
    rw [List.map_flatMap, List.map_map] at hmapped
    simp only [List.map_map] at hmapped
    refine hmapped.trans (List.map_congr_left fun e he => ?_)
    simp only [Function.comp, span, percentileRank, if_neg hlength, below_perm hperm, ties_perm hperm,
      below_zipIdx, ties_zipIdx, Nat.zero_add]
  rw [hspans]
  exact hperm.map _

/-- The loop over the runs gives each value its rank. -/
theorem percentileRanks_eq (hnan : ∀ v ∈ values, v.isNan = false) :
    percentileRanks (K := K) values = values.map (percentileRank values) := by
  match values with
  | [] => rfl
  | [v] => simp [percentileRanks, percentileRank]
  | v :: w :: rest => exact averagedRanks_eq (by simp) hnan

-- ---------------------------------------------------------------------------
-- Laws of ranks
-- ---------------------------------------------------------------------------

theorem percentileRank_perm (h : values.Perm values') :
    percentileRank (K := K) values = percentileRank values' := by
  funext v
  simp only [percentileRank, h.length_eq, below_perm h, ties_perm h]

theorem percentileRank_congr (h : v.key = w.key) :
    percentileRank (K := K) values v = percentileRank values w := by
  simp only [percentileRank, below_congr h, ties_congr h]

theorem below_negate (values : List Binary64) (v : Binary64) :
    below Binary64.key (values.map Binary64.negate) v.negate = above Binary64.key values v := by
  unfold below above
  rw [List.countP_map]
  congr 1
  funext x
  simp [Binary64.key_negate]

theorem ties_negate (values : List Binary64) (v : Binary64) :
    ties Binary64.key (values.map Binary64.negate) v.negate = ties Binary64.key values v := by
  unfold ties
  rw [List.countP_map]
  congr 1
  funext x
  simp [Binary64.key_negate]

/-- The counts of a value of a list of two or more. -/
theorem exists_counts (hlength : values.length ≠ 1) (hv : v ∈ values) :
    ∃ t n, ties Binary64.key values v = t + 1 ∧ values.length = n + 2 ∧
      n + 1 = below Binary64.key values v + t + above Binary64.key values v := by
  have hpos : 0 < ties Binary64.key values v := ties_pos hv
  have hcount : values.length = below Binary64.key values v + ties Binary64.key values v +
      above Binary64.key values v := length_eq values v
  have hne := List.length_pos_of_mem hv
  exact ⟨ties Binary64.key values v - 1, values.length - 2, by omega, by omega, by omega⟩

section Ordered

variable [LinearOrder K] [IsStrictOrderedRing K]

theorem percentileRank_mono (hv : v ∈ values) (h : v.key < w.key) :
    percentileRank (K := K) values v ≤ percentileRank values w := by
  unfold percentileRank
  split
  · exact le_rfl
  · have hle : below Binary64.key values v + ties Binary64.key values v ≤
        below Binary64.key values w := below_add_ties_le_below h
    have hpos : 0 < ties Binary64.key values v := ties_pos hv
    have hnat : below Binary64.key values v +
        (below Binary64.key values v + ties Binary64.key values v - 1) ≤
        below Binary64.key values w +
        (below Binary64.key values w + ties Binary64.key values w - 1) := by
      omega
    gcongr

theorem percentileRank_negate (hv : v ∈ values) :
    percentileRank (K := K) (values.map Binary64.negate) v.negate =
      1 - percentileRank values v := by
  unfold percentileRank
  rw [List.length_map, below_negate, ties_negate]
  split
  · norm_num
  · rename_i hlength
    obtain ⟨t, n, hties, hn, hcount⟩ := exists_counts hlength hv
    rw [hties, hn]
    have hpos : (0 : K) < n + 1 := by positivity
    have hcount : (n : K) + 1 = below Binary64.key values v + t + above Binary64.key values v := by
      exact_mod_cast hcount
    rw [show n + 2 - 1 = n + 1 from rfl]
    simp only [Nat.add_succ_sub_one]
    push_cast
    rw [eq_sub_iff_add_eq, ← add_div, ← add_div, div_eq_one_iff_eq hpos.ne', hcount]
    ring

theorem percentileRank_bounds (hv : v ∈ values) :
    0 ≤ percentileRank (K := K) values v ∧ percentileRank (K := K) values v ≤ 1 := by
  have hnonneg (values : List Binary64) (v : Binary64) :
      0 ≤ percentileRank (K := K) values v := by
    unfold percentileRank
    split <;> positivity
  have hnegated := hnonneg (values.map Binary64.negate) v.negate
  rw [percentileRank_negate hv] at hnegated
  exact ⟨hnonneg values v, sub_nonneg.mp hnegated⟩

end Ordered

end DagMl

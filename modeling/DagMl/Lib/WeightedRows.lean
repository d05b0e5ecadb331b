import Mathlib

/-!
# Weighted rows

Rows of numbers, read with zero past their end, and their weighted means
column by column. Nothing here depends on the order of the rows.
-/

namespace WeightedRows

variable {K : Type} [Field K]

/-- A row's number in a column. -/
def entry (row : List K) (j : Nat) : K := row.getD j 0

theorem entry_of_length_le {row : List K} {j : Nat} (h : row.length ≤ j) : entry row j = 0 :=
  List.getD_eq_default _ _ h

@[simp] theorem entry_replicate (width j : Nat) : entry (List.replicate width (0 : K)) j = 0 := by
  by_cases h : j < width
  · simp [entry, h]
  · exact entry_of_length_le (by simpa using h)

theorem entry_map {row : List K} {f : K → K} (h : f 0 = 0) (j : Nat) :
    entry (row.map f) j = f (entry row j) := by
  by_cases hj : j < row.length
  · simp [entry, hj]
  · rw [entry_of_length_le (by simpa using hj), entry_of_length_le (by omega), h]

theorem entry_zipWith {f : K → K → K} (hf : f 0 0 = 0) {row row' : List K}
    (hl : row.length = row'.length) (j : Nat) :
    entry (List.zipWith f row row') j = f (entry row j) (entry row' j) := by
  by_cases hj : j < row.length
  · have hj' : j < row'.length := hl ▸ hj
    simp [entry, hj, hj']
  · have hj' : row'.length ≤ j := hl ▸ not_lt.mp hj
    rw [entry_of_length_le (not_lt.mp hj), entry_of_length_le hj', hf]
    exact entry_of_length_le (by simpa [List.length_zipWith] using .inr hj')

theorem ext_entry {row row' : List K} (hl : row.length = row'.length)
    (h : ∀ j, entry row j = entry row' j) : row = row' := by
  refine List.ext_getElem hl fun j hj hj' => ?_
  simpa [entry, hj, hj'] using h j

/-- `for (acc, value) in accs.iter_mut().zip(row) { *acc += f(value) }`. -/
def addRow (f : K → K) : List K → List K → List K
  | [], _ => []
  | acc, [] => acc
  | x :: acc, value :: row => (x + f value) :: addRow f acc row

@[simp] theorem length_addRow (f : K → K) (acc row : List K) :
    (addRow f acc row).length = acc.length := by
  induction acc generalizing row with
  | nil => cases row <;> rfl
  | cons x acc ih =>
    cases row with
    | nil => rfl
    | cons value row => simp [addRow, ih]

theorem entry_addRow {f : K → K} (hf : f 0 = 0) {acc row : List K} (h : row.length ≤ acc.length)
    (j : Nat) : entry (addRow f acc row) j = entry acc j + f (entry row j) := by
  induction acc generalizing row j with
  | nil =>
    have hrow : row = [] := List.length_eq_zero_iff.mp (Nat.le_zero.mp h)
    simp [hrow, addRow, entry, hf]
  | cons x acc ih =>
    cases row with
    | nil => simp [addRow, entry, hf]
    | cons value row =>
      cases j with
      | zero => simp [addRow, entry]
      | succ j =>
        have hle : row.length ≤ acc.length := by simpa using h
        simpa [addRow, entry] using ih hle j

-- ---------------------------------------------------------------------------
-- Means
-- ---------------------------------------------------------------------------

/-- The total weight of weighted rows. -/
def weightSum (rows : List (List K × K)) : K := (rows.map Prod.snd).sum

def weightedSum (rows : List (List K × K)) (j : Nat) : K :=
  (rows.map fun r => entry r.1 j * r.2).sum

def weightedMean (rows : List (List K × K)) (j : Nat) : K := weightedSum rows j / weightSum rows

section

variable {rows rows' : List (List K × K)}

theorem weightSum_append : weightSum (rows ++ rows') = weightSum rows + weightSum rows' := by
  simp [weightSum]

theorem weightedSum_append (j : Nat) :
    weightedSum (rows ++ rows') j = weightedSum rows j + weightedSum rows' j := by
  simp [weightedSum]

theorem weightSum_perm (h : rows.Perm rows') : weightSum rows = weightSum rows' :=
  (h.map _).sum_eq

theorem weightedSum_perm (h : rows.Perm rows') (j : Nat) :
    weightedSum rows j = weightedSum rows' j := (h.map _).sum_eq

theorem weightedMean_perm (h : rows.Perm rows') (j : Nat) :
    weightedMean rows j = weightedMean rows' j := by
  rw [weightedMean, weightedMean, weightSum_perm h, weightedSum_perm h]

end

-- ---------------------------------------------------------------------------
-- Sums
-- ---------------------------------------------------------------------------

/-- A row divided by its sum. -/
def normalized (row : List K) : List K := row.map (· / row.sum)

theorem sum_map_div (row : List K) (c : K) : (row.map (· / c)).sum = row.sum / c := by
  induction row with
  | nil => simp
  | cons x row ih => rw [List.map_cons, List.sum_cons, ih, List.sum_cons, add_div]

/-- The sum of a row column by column. -/
theorem sum_eq_sum_entry {row : List K} {width : Nat} (h : row.length ≤ width) :
    row.sum = ∑ j ∈ Finset.range width, entry row j := by
  induction row generalizing width with
  | nil => simp [entry]
  | cons x row ih =>
    match width with
    | width + 1 =>
      have hle : row.length ≤ width := by simpa using h
      rw [Finset.sum_range_succ', List.sum_cons, ih hle, add_comm]
      simp [entry]

theorem sum_weightedSum (rows : List (List K × K)) {width : Nat}
    (h : ∀ r ∈ rows, r.1.length ≤ width) :
    ∑ j ∈ Finset.range width, weightedSum rows j = (rows.map fun r => r.1.sum * r.2).sum := by
  induction rows with
  | nil => simp [weightedSum]
  | cons r rows ih =>
    rw [List.forall_mem_cons] at h
    have hcons (j : Nat) : weightedSum (r :: rows) j = entry r.1 j * r.2 + weightedSum rows j := by
      simp [weightedSum]
    rw [Finset.sum_congr rfl fun j _ => hcons j, Finset.sum_add_distrib, ih h.2,
      ← Finset.sum_mul, ← sum_eq_sum_entry h.1]
    simp

-- ---------------------------------------------------------------------------
-- Distributions
-- ---------------------------------------------------------------------------

section Ordered

variable [LinearOrder K]

/-- Non-negative numbers that add up to one. -/
structure Distribution (row : List K) : Prop where
  nonneg : ∀ x ∈ row, 0 ≤ x
  sum_eq : row.sum = 1

theorem Distribution.normalized_eq {row : List K} (h : Distribution row) :
    normalized row = row := by
  simp [normalized, h.sum_eq]

theorem entry_nonneg {row : List K} (h : ∀ x ∈ row, 0 ≤ x) (j : Nat) : 0 ≤ entry row j := by
  by_cases hj : j < row.length
  · simpa [entry, hj] using h row[j] (List.getElem_mem hj)
  · exact (entry_of_length_le (not_lt.mp hj)).ge

variable [IsStrictOrderedRing K]

theorem normalized_distribution {row : List K} (hnonneg : ∀ x ∈ row, 0 ≤ x) (hpos : 0 < row.sum) :
    Distribution (normalized row) := by
  constructor
  · intro x hx
    obtain ⟨y, hy, rfl⟩ := List.mem_map.mp hx
    exact div_nonneg (hnonneg y hy) hpos.le
  · rw [normalized, sum_map_div, div_self hpos.ne']

theorem weightedMean_nonneg {rows : List (List K × K)}
    (h : ∀ r ∈ rows, (∀ x ∈ r.1, 0 ≤ x) ∧ 0 ≤ r.2) (j : Nat) : 0 ≤ weightedMean rows j := by
  refine div_nonneg (List.sum_nonneg fun x hx => ?_) (List.sum_nonneg fun x hx => ?_)
  · obtain ⟨r, hr, rfl⟩ := List.mem_map.mp hx
    exact mul_nonneg (entry_nonneg (h r hr).1 j) (h r hr).2
  · obtain ⟨r, hr, rfl⟩ := List.mem_map.mp hx
    exact (h r hr).2

/-- A row that is, column by column, a mean of distributions is a distribution. -/
theorem distribution_of_mean {rows : List (List K × K)} {row : List K}
    (hrows : ∀ r ∈ rows, Distribution r.1 ∧ r.1.length ≤ row.length ∧ 0 ≤ r.2)
    (hweight : 0 < weightSum rows) (h : ∀ j, entry row j = weightedMean rows j) :
    Distribution row := by
  constructor
  · intro x hx
    obtain ⟨j, hj, rfl⟩ := List.getElem_of_mem hx
    have hentry : row[j] = weightedMean rows j := by simpa [entry, hj] using h j
    rw [hentry]
    exact weightedMean_nonneg (fun r hr => ⟨(hrows r hr).1.nonneg, (hrows r hr).2.2⟩) j
  · have hsum : ∑ j ∈ Finset.range row.length, weightedSum rows j = weightSum rows := by
      rw [sum_weightedSum rows fun r hr => (hrows r hr).2.1, weightSum]
      exact congrArg List.sum (List.map_congr_left fun r hr => by rw [(hrows r hr).1.sum_eq, one_mul])
    calc row.sum = ∑ j ∈ Finset.range row.length, entry row j := sum_eq_sum_entry le_rfl
      _ = ∑ j ∈ Finset.range row.length, weightedSum rows j / weightSum rows :=
        Finset.sum_congr rfl fun j _ => h j
      _ = 1 := by rw [← Finset.sum_div, hsum, div_self hweight.ne']

end Ordered

end WeightedRows

import Mathlib

/-!
# A scaled correction

Targets next to the predictions of a correction, and the squared error left when
the correction is added with some scale. The error is a parabola in the scale, with
its vertex at the least-squares coefficient; a scale clamped to an interval that
holds zero never does worse than zero.
-/

namespace LeastSquares

variable {K : Type} [Field K]

/-- The squared error of targets corrected by scaled predictions. -/
def squaredError (rows : List (K × K)) (scale : K) : K :=
  (rows.map fun row => (row.1 - scale * row.2) ^ 2).sum

def cross (rows : List (K × K)) : K := (rows.map fun row => row.1 * row.2).sum

def energy (rows : List (K × K)) : K := (rows.map fun row => row.2 * row.2).sum

/-- The coefficient of the least squared error. -/
def coefficient (rows : List (K × K)) : K := cross rows / energy rows

section

variable {rows rows' : List (K × K)}

theorem squaredError_append (scale : K) :
    squaredError (rows ++ rows') scale = squaredError rows scale + squaredError rows' scale := by
  simp [squaredError]

theorem squaredError_eq (scale : K) : squaredError rows scale =
    squaredError rows 0 - scale * (2 * cross rows - scale * energy rows) := by
  induction rows with
  | nil => simp [squaredError, cross, energy]
  | cons row rows ih =>
    simp only [squaredError, cross, energy, List.map_cons, List.sum_cons] at ih ⊢
    rw [ih]
    ring

end

variable [LinearOrder K] {rows : List (K × K)} {scale : K}

/-- The coefficient, held between zero and one. -/
def clamped (rows : List (K × K)) : K := max 0 (min 1 (coefficient rows))

theorem clamped_nonneg : 0 ≤ clamped rows := le_max_left _ _

variable [IsStrictOrderedRing K]

theorem clamped_le_one : clamped rows ≤ 1 := max_le zero_le_one (min_le_left _ _)

/-- A scale between zero and the coefficient improves on zero. -/
theorem squaredError_le (hscale : 0 ≤ scale) (hle : scale * energy rows ≤ 2 * cross rows) :
    squaredError rows scale ≤ squaredError rows 0 := by
  rw [squaredError_eq scale]
  have hgain : 0 ≤ scale * (2 * cross rows - scale * energy rows) :=
    mul_nonneg hscale (sub_nonneg.mpr hle)
  linarith

/-- Any part of the clamped coefficient improves on zero. -/
theorem squaredError_part_le (henergy : 0 < energy rows) {part : K} (hpart : 0 ≤ part)
    (hle : part ≤ 1) : squaredError rows (part * clamped rows) ≤ squaredError rows 0 := by
  have hscale : 0 ≤ part * clamped rows := mul_nonneg hpart clamped_nonneg
  rcases le_total (coefficient rows) 0 with hneg | hpos
  · have hzero : clamped rows = 0 := max_eq_left ((min_le_right _ _).trans hneg)
    rw [hzero, mul_zero]
  · have hnonneg : 0 ≤ clamped rows := clamped_nonneg
    have hclamped : clamped rows ≤ coefficient rows := max_le hpos (min_le_right _ _)
    have hcross : coefficient rows * energy rows = cross rows := div_mul_cancel₀ _ henergy.ne'
    refine squaredError_le hscale ?_
    calc part * clamped rows * energy rows
        ≤ 1 * coefficient rows * energy rows := by gcongr
      _ = cross rows := by rw [one_mul, hcross]
      _ ≤ 2 * cross rows := by
          have hpositive : 0 ≤ cross rows := hcross ▸ mul_nonneg hpos henergy.le
          linarith

/-- Over the unit interval nothing does better than the clamped coefficient. -/
theorem squaredError_clamped_le (henergy : 0 < energy rows) (hscale : 0 ≤ scale)
    (hle : scale ≤ 1) : squaredError rows (clamped rows) ≤ squaredError rows scale := by
  have hcross : cross rows = coefficient rows * energy rows := (div_mul_cancel₀ _ henergy.ne').symm
  -- the difference is the energy times (scale - clamped) * (scale + clamped - 2 * coefficient)
  have hdiff : squaredError rows scale - squaredError rows (clamped rows) =
      energy rows * ((scale - clamped rows) *
        (scale + clamped rows - 2 * coefficient rows)) := by
    rw [squaredError_eq scale, squaredError_eq (clamped rows), hcross]
    ring
  have hsign : 0 ≤ (scale - clamped rows) * (scale + clamped rows - 2 * coefficient rows) := by
    rcases le_total (coefficient rows) 0 with hneg | hpos
    · have hzero : clamped rows = 0 := max_eq_left ((min_le_right _ _).trans hneg)
      rw [hzero]
      exact mul_nonneg (by linarith) (by linarith)
    · rcases le_total (coefficient rows) 1 with hsmall | hlarge
      · have hinside : clamped rows = coefficient rows := by
          rw [clamped, min_eq_right hsmall, max_eq_right hpos]
        rw [hinside]
        have hsquare : (scale - coefficient rows) *
            (scale + coefficient rows - 2 * coefficient rows) = (scale - coefficient rows) ^ 2 := by
          ring
        rw [hsquare]
        exact sq_nonneg _
      · have hone : clamped rows = 1 := by
          rw [clamped, min_eq_left hlarge, max_eq_right zero_le_one]
        rw [hone]
        exact mul_nonneg_of_nonpos_of_nonpos (by linarith) (by linarith)
  have hnonneg := mul_nonneg henergy.le hsign
  linarith

end LeastSquares

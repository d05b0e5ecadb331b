import Mathlib
import DagMl.Conformal.Quantile
import DagMl.Conformal.Rank

/-!
# Calibration

Split absolute-residual calibration: the radius of a coverage is the score
standing at its finite-sample rank in the sorted column.
-/

namespace DagMl

open Checked Keyed

def quantileRadii (smallSamplePolicy : ConformalSmallSamplePolicy) (sampleCount : Nat)
    (scores : List (List Binary64)) (rank : Nat) : ConformalResult (List ConformalRadius) :=
  if sampleCount < rank then
    match smallSamplePolicy with
    | .error => .error (.smallSampleRank rank sampleCount)
    | .unbounded => .ok (List.replicate scores.length .unbounded)
  else
    collect scores fun column => do
      let score ← need column[rank - 1]? (.panicked "index out of bounds")
      pure (.finite score)

/-- One turn of the loop over coverages. -/
def FloatText.quantileAt (floats : FloatText) (smallSamplePolicy : ConformalSmallSamplePolicy)
    (sampleCount : Nat) (scores : List (List Binary64)) (coverage : Binary64) :
    ConformalResult SplitConformalQuantile := do
  let rank ← floats.finiteSampleConformalRank sampleCount coverage
  let radii ← quantileRadii smallSamplePolicy sampleCount scores rank
  pure { coverage, rank, radii }

def FloatText.splitAbsoluteResidualQuantiles (floats : FloatText)
    (residuals : List (List Binary64)) (coverages : List Binary64)
    (multiTargetPolicy : ConformalMultiTargetPolicy)
    (smallSamplePolicy : ConformalSmallSamplePolicy) :
    ConformalResult (List SplitConformalQuantile) := do
  let targetCount ← validateFiniteMatrix residuals "residuals" true
  validateConformalCoverages coverages
  refuseIf (2 ^ 64 ≤ residuals.length) (.invalidSampleCount (2 ^ 64 - 1))
  refuseIf (FloatText.maxConformalSampleCount < residuals.length)
    (.invalidSampleCount residuals.length)
  collect coverages (floats.quantileAt smallSamplePolicy residuals.length
    (orderedScores multiTargetPolicy targetCount residuals))

variable {floats : FloatText}

/-- The radii at a rank: none is finite past the last row, and up to it they are
the scores standing there. -/
def RadiiAt (sampleCount : Nat) (scores : List (List Binary64)) (rank : Nat)
    (radii : List ConformalRadius) : Prop :=
  if sampleCount < rank then radii = List.replicate scores.length .unbounded
  else List.Forall₂ (fun column radius => ∃ score, column[rank - 1]? = some score ∧
    radius = .finite score) scores radii

theorem quantileAt_ok {scores : List (List Binary64)} {q : SplitConformalQuantile}
    (h : floats.quantileAt small n scores coverage = .ok q) :
    q.coverage = coverage ∧ floats.finiteSampleConformalRank n coverage = .ok q.rank ∧
      RadiiAt n scores q.rank q.radii := by
  simp only [FloatText.quantileAt, bind_ok, pure_ok] at h
  obtain ⟨rank, hrank, radii, hradii, rfl⟩ := h
  refine ⟨rfl, hrank, ?_⟩
  unfold RadiiAt
  unfold quantileRadii at hradii
  split at hradii
  · rename_i hlt
    rw [if_pos hlt]
    cases small with
    | error => cases hradii
    | unbounded =>
      cases hradii
      rfl
  · rename_i hle
    rw [if_neg hle]
    refine (collect_ok.mp hradii).imp fun column radius hstep => ?_
    simp only [bind_ok, need_ok, pure_ok] at hstep
    obtain ⟨score, hscore, rfl⟩ := hstep
    exact ⟨score, hscore, rfl⟩

/-- What calibration establishes before its loop, and of every quantile. -/
structure Calibration (floats : FloatText) (residuals : List (List Binary64))
    (coverages : List Binary64) (policy : ConformalMultiTargetPolicy)
    (quantiles : List SplitConformalQuantile) (targetCount : Nat) : Prop where
  matrix : FiniteMatrix residuals true targetCount
  ordered : validateConformalCoverages coverages = .ok ()
  radii : List.Forall₂ (fun coverage q => q.coverage = coverage ∧
    floats.finiteSampleConformalRank residuals.length coverage = .ok q.rank ∧
    RadiiAt residuals.length (orderedScores policy targetCount residuals) q.rank q.radii)
    coverages quantiles

theorem calibration_of_ok {residuals : List (List Binary64)}
    (h : floats.splitAbsoluteResidualQuantiles residuals coverages policy small = .ok quantiles) :
    ∃ targetCount, Calibration floats residuals coverages policy quantiles targetCount := by
  simp only [FloatText.splitAbsoluteResidualQuantiles, bind_ok, validateFiniteMatrix_ok] at h
  obtain ⟨targetCount, hmatrix, _, hcoverages, _, -, _, -, hcollect⟩ := h
  exact ⟨targetCount, hmatrix, hcoverages, (collect_ok.mp hcollect).imp fun _ _ => quantileAt_ok⟩

namespace Calibration

variable (h : Calibration floats residuals coverages policy quantiles targetCount)
include h

theorem map_coverage : quantiles.map SplitConformalQuantile.coverage = coverages := by
  have hradii := h.radii
  clear h
  induction hradii with
  | nil => rfl
  | cons hq _ ih => rw [List.map_cons, hq.1, ih]

theorem of_mem (hq : q ∈ quantiles) :
    floats.finiteSampleConformalRank residuals.length q.coverage = .ok q.rank ∧
      RadiiAt residuals.length (orderedScores policy targetCount residuals) q.rank q.radii := by
  obtain ⟨coverage, -, rfl, hrank, hradii⟩ := exists_left_of_mem h.radii hq
  exact ⟨hrank, hradii⟩

theorem scoreCount_pos : 0 < scoreCount policy targetCount := by
  cases policy with
  | marginal => exact h.matrix.width_pos
  | jointMax => exact Nat.one_pos

theorem length_orderedScores :
    (orderedScores policy targetCount residuals).length = scoreCount policy targetCount := by
  apply Nat.le_antisymm
  · by_contra hlt
    have hget := List.getElem?_eq_getElem (not_le.mp hlt)
    rw [getElem?_orderedScores h.matrix.rectangular, if_neg (lt_irrefl _)] at hget
    cases hget
  · by_contra hlt
    have hget := List.getElem?_eq_none (le_refl (orderedScores policy targetCount residuals).length)
    rw [getElem?_orderedScores h.matrix.rectangular, if_pos (not_le.mp hlt)] at hget
    cases hget

theorem length_radii (hq : q ∈ quantiles) : q.radii.length = scoreCount policy targetCount := by
  have hradii := (h.of_mem hq).2
  unfold RadiiAt at hradii
  split at hradii
  · rw [hradii, List.length_replicate, h.length_orderedScores]
  · rw [← hradii.length_eq, h.length_orderedScores]

/-- A finite radius stands at its rank in a sorted column of scores. -/
theorem finite_radius (hq : q ∈ quantiles) (hr : q.radii[target]? = some (.finite r)) :
    0 < q.rank ∧ q.rank ≤ residuals.length ∧ ∃ column, Column policy target residuals column ∧
      (orderedScores policy targetCount residuals)[target]? = some column ∧
      column[q.rank - 1]? = some r := by
  obtain ⟨hrank, hradii⟩ := h.of_mem hq
  refine ⟨FloatText.one_le_rank hrank, ?_⟩
  unfold RadiiAt at hradii
  split at hradii
  · rw [hradii] at hr
    cases List.eq_of_mem_replicate (List.mem_of_getElem? hr)
  · rename_i hle
    refine ⟨not_lt.mp hle, ?_⟩
    obtain ⟨htarget, hget⟩ := List.getElem?_eq_some_iff.mp hr
    have hcolumn : target < (orderedScores policy targetCount residuals).length := by
      rwa [hradii.length_eq]
    obtain ⟨score, hscore, heq⟩ := (List.forall₂_iff_get.mp hradii).2 target hcolumn htarget
    have hcolumn := List.getElem?_eq_getElem hcolumn
    refine ⟨_, column_orderedScores h.matrix hcolumn, hcolumn, ?_⟩
    rw [List.get_eq_getElem, hget] at heq
    cases heq
    exact hscore

theorem unbounded_iff (hq : q ∈ quantiles) (hr : r ∈ q.radii) :
    r = .unbounded ↔ q.rank = residuals.length + 1 := by
  obtain ⟨hrank, hradii⟩ := h.of_mem hq
  have hbound := FloatText.rank_le hrank
  unfold RadiiAt at hradii
  split at hradii
  · rename_i hlt
    rw [hradii] at hr
    exact ⟨fun _ => by omega, fun _ => List.eq_of_mem_replicate hr⟩
  · rename_i hle
    obtain ⟨column, -, score, -, rfl⟩ := exists_left_of_mem hradii hr
    exact ⟨fun hu => (nomatch hu), fun heq => by omega⟩

/-- A finite radius is numerically a residual the row is scored by, with as many
rows at or below it as its rank, and fewer below it. -/
theorem radius_statistic (hq : q ∈ quantiles) (hr : q.radii[target]? = some (.finite r)) :
    (∃ row ∈ residuals, ∃ residual ∈ row, ScoredBy policy target row residual ∧
      r.eq residual = true) ∧
    q.rank ≤ residuals.countP (rowMeets policy target (·.le r)) ∧
    residuals.countP (rowMeets policy target (·.lt r)) < q.rank := by
  obtain ⟨hpos, -, column, hcolumn, -, hget⟩ := h.finite_radius hq hr
  obtain ⟨row, hrow, hscore⟩ := hcolumn.score r (List.mem_of_getElem? hget)
  obtain ⟨hlt, rfl⟩ := List.getElem?_eq_some_iff.mp hget
  have hfinite (a : Binary64) (ha : a ∈ column) : a.isFinite = true := by
    obtain ⟨_, _, hs⟩ := hcolumn.score a ha
    exact hs.finite
  have hthis := hfinite _ (List.getElem_mem hlt)
  refine ⟨?_, ?_, ?_⟩
  · obtain ⟨residual, hmem, hscored, hkey⟩ := hscore.observed
    refine ⟨row, hrow, residual, hmem, hscored, ?_⟩
    have hresidual := h.matrix.finite row hrow residual hmem
    simp [Binary64.eq, Binary64.isNan_of_isFinite hthis, Binary64.isNan_of_isFinite hresidual, hkey]
  · have hcount := lt_countP_le_getElem hcolumn.sorted hlt
    rw [← hcolumn.count (·.le column[q.rank - 1]) fun x y hx hy hxy hle => ?_]
    · have hsame : column.countP (·.le column[q.rank - 1]) =
          column.countP (fun a => a.key ≤ column[q.rank - 1].key) := by
        apply List.countP_congr
        intro a ha
        rw [Binary64.le_iff (hfinite a ha) hthis, decide_eq_true_iff]
      omega
    · rw [Binary64.le_iff hy hthis] at hle
      rw [Binary64.le_iff hx hthis]
      exact hxy.trans hle
  · have hcount := countP_lt_getElem_le hcolumn.sorted hlt
    rw [← hcolumn.count (·.lt column[q.rank - 1]) fun x y hx hy hxy hle => ?_]
    · have hsame : column.countP (·.lt column[q.rank - 1]) =
          column.countP (fun a => a.key < column[q.rank - 1].key) := by
        apply List.countP_congr
        intro a ha
        rw [Binary64.lt_iff (hfinite a ha) hthis, decide_eq_true_iff]
      omega
    · rw [Binary64.lt_iff hy hthis] at hle
      rw [Binary64.lt_iff hx hthis]
      exact lt_of_le_of_lt hxy hle

/-- The value of a finite radius is a score. -/
theorem radius_isScore (hq : q ∈ quantiles) (hr : q.radii[target]? = some (.finite r)) :
    ∃ row ∈ residuals, IsScore policy target row r := by
  obtain ⟨-, -, column, hcolumn, -, hget⟩ := h.finite_radius hq hr
  exact hcolumn.score r (List.mem_of_getElem? hget)

/-- Radii do not decrease with the coverage, as printed. -/
theorem nested_of_decimal_le (hq : q ∈ quantiles) (hq' : q' ∈ quantiles)
    (hle : floats.decimalOf q.coverage ≤ floats.decimalOf q'.coverage) : NestedQuantiles q q' := by
  have hrank := FloatText.rank_mono (h.of_mem hq).1 (h.of_mem hq').1 hle
  refine ⟨hrank, List.forall₂_iff_get.mpr ⟨?_, fun target ht ht' => ?_⟩⟩
  · rw [h.length_radii hq, h.length_radii hq']
  have hr := List.getElem?_eq_getElem ht
  have hr' := List.getElem?_eq_getElem ht'
  rw [List.get_eq_getElem, List.get_eq_getElem]
  cases hradius : q.radii[target] with
  | unbounded =>
    have hlarge := (h.unbounded_iff hq (List.getElem_mem ht)).mp hradius
    have hbound := FloatText.rank_le (h.of_mem hq').1
    rw [(h.unbounded_iff hq' (List.getElem_mem ht')).mpr (by omega)]
    rfl
  | finite r =>
    cases hradius' : q'.radii[target] with
    | unbounded => rfl
    | finite r' =>
      rw [hradius] at hr
      rw [hradius'] at hr'
      obtain ⟨-, -, column, hcolumn, hscores, hget⟩ := h.finite_radius hq hr
      obtain ⟨-, -, column', -, hscores', hget'⟩ := h.finite_radius hq' hr'
      rw [hscores] at hscores'
      cases hscores'
      obtain ⟨_, -, hs⟩ := hcolumn.score r (List.mem_of_getElem? hget)
      obtain ⟨_, -, hs'⟩ := hcolumn.score r' (List.mem_of_getElem? hget')
      rw [ConformalRadius.nestedIn, Binary64.le_iff hs.finite hs'.finite]
      obtain ⟨hlt, rfl⟩ := List.getElem?_eq_some_iff.mp hget
      obtain ⟨hlt', rfl⟩ := List.getElem?_eq_some_iff.mp hget'
      rcases Nat.lt_or_eq_of_le (Nat.sub_le_sub_right hrank 1) with hi | hi
      · exact List.pairwise_iff_getElem.mp hcolumn.sorted _ _ hlt hlt' hi
      · simp only [hi, le_refl]

theorem validQuantile (hq : q ∈ quantiles) : ValidQuantile (scoreCount policy targetCount) q where
  rank_pos := FloatText.one_le_rank (h.of_mem hq).1
  shape := h.length_radii hq
  uniform r hr r' hr' := by
    rw [Bool.eq_iff_iff, ConformalRadius.isUnbounded, ConformalRadius.isUnbounded,
      decide_eq_true_iff, decide_eq_true_iff, h.unbounded_iff hq hr, h.unbounded_iff hq hr']
  valid r hr := by
    cases r with
    | unbounded => rfl
    | finite r =>
      obtain ⟨target, ht⟩ := List.getElem?_of_mem hr
      obtain ⟨_, -, hs⟩ := h.radius_isScore hq ht
      have hnonneg : ¬r.lt .zero = true := by
        rw [Binary64.lt_iff hs.finite zero_isFinite, Binary64.key, hs.neg]
        exact not_lt.mpr (Int.natCast_nonneg _)
      simp [ConformalRadius.isValid, hs.finite, hnonneg]

/-- The validator, written apart from calibration, accepts its result. -/
theorem validates : validateQuantiles quantiles targetCount policy = .ok () := by
  have hordered := h.ordered
  rw [← h.map_coverage] at hordered
  rw [validateQuantiles_ok h.scoreCount_pos]
  obtain ⟨hne, hvalid, hincreasing⟩ := validateConformalCoverages_ok.mp hordered
  refine ⟨by simpa using hne, hordered, fun q hq => h.validQuantile hq, ?_⟩
  apply List.Pairwise.isChain
  rw [List.pairwise_map] at hincreasing
  refine hincreasing.imp_of_mem fun {q q'} hq hq' hlt => ?_
  apply h.nested_of_decimal_le hq hq'
  have hfinite (q : SplitConformalQuantile) (hq : q ∈ quantiles) :=
    (hvalid q.coverage (List.mem_map_of_mem hq)).1
  exact (FloatText.decimalOf_lt (hfinite q hq) (hfinite q' hq') hlt).le

end Calibration

theorem finiteMatrix_perm {residuals residuals' : List (List Binary64)}
    (h : FiniteMatrix residuals b width) (hperm : residuals'.Perm residuals) :
    FiniteMatrix residuals' b width where
  nonempty hnil := h.nonempty (List.nil_perm.mp (hnil ▸ hperm))
  width_pos := h.width_pos
  rectangular row hr := h.rectangular row (hperm.mem_iff.mp hr)
  finite row hr := h.finite row (hperm.mem_iff.mp hr)
  nonneg hb row hr := h.nonneg hb row (hperm.mem_iff.mp hr)

/-- The order of the calibration rows is not seen. -/
theorem splitAbsoluteResidualQuantiles_perm {residuals residuals' : List (List Binary64)}
    (hperm : residuals'.Perm residuals)
    (h : floats.splitAbsoluteResidualQuantiles residuals coverages policy small = .ok quantiles) :
    floats.splitAbsoluteResidualQuantiles residuals' coverages policy small = .ok quantiles := by
  simp only [FloatText.splitAbsoluteResidualQuantiles, bind_ok, validateFiniteMatrix_ok] at h ⊢
  obtain ⟨targetCount, hmatrix, hrest⟩ := h
  refine ⟨targetCount, finiteMatrix_perm hmatrix hperm, ?_⟩
  rw [hperm.length_eq, orderedScores_perm hmatrix.rectangular hperm]
  exact hrest

end DagMl

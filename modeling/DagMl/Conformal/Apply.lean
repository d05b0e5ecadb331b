import Mathlib
import DagMl.Conformal.Calibrate

/-!
# Application

Calibrated radii put around point predictions, and the closure of calibration
over it.
-/

namespace DagMl

open Checked

def radiusIndex (policy : ConformalMultiTargetPolicy) (target : Nat) : Nat :=
  match policy with
  | .marginal => target
  | .jointMax => 0

/-- The interval of one cell; `position` is the coverage, row and target of an error. -/
def FloatText.intervalCell (floats : FloatText) (position : Nat × Nat × Nat) (point : Binary64)
    (radius : ConformalRadius) : ConformalResult RegressionIntervalCell :=
  match radius with
  | .unbounded => .ok .unbounded
  | .finite radius => do
    let radius := normalizedZero radius
    let (lower, upper) ← floats.decimalConformalEndpoints point radius
    let closes ← floats.decimalIntervalCloses point radius lower upper
    refuseIf (closes = false) (.unrepresentableInterval position.1 position.2.1 position.2.2)
    pure (.finite lower upper)

def FloatText.applySplitAbsoluteResidual (floats : FloatText)
    (pointPredictions : List (List Binary64)) (quantiles : List SplitConformalQuantile)
    (multiTargetPolicy : ConformalMultiTargetPolicy) :
    ConformalResult (List RegressionConformalInterval) := do
  let targetCount ← validateFiniteMatrix pointPredictions "point predictions" false
  validateQuantiles quantiles targetCount multiTargetPolicy
  collectIdx quantiles fun coverageIndex quantile => do
    let cells ← collectIdx pointPredictions fun rowIndex row =>
      collectIdx row fun target point => do
        let radius ← need quantile.radii[radiusIndex multiTargetPolicy target]?
          (.panicked "index out of bounds")
        floats.intervalCell (coverageIndex, rowIndex, target) point radius
    pure ⟨quantile.coverage, cells⟩

/-- The cell a list of intervals has for a coverage, a row and a target. -/
def cellAt (intervals : List RegressionConformalInterval) (coverage row target : Nat) :
    Option RegressionIntervalCell := do
  let interval ← intervals[coverage]?
  let cells ← interval.cells[row]?
  cells[target]?

namespace RegressionIntervalCell

def holds (cell : RegressionIntervalCell) (point : Binary64) : Bool :=
  match cell with
  | .finite lower upper => lower.le point && point.le upper
  | .unbounded => true

def within (inner outer : RegressionIntervalCell) : Bool :=
  match inner, outer with
  | .finite lower upper, .finite lower' upper' => lower'.le lower && upper.le upper'
  | .unbounded, .finite _ _ => false
  | _, .unbounded => true

end RegressionIntervalCell

variable {floats : FloatText}

theorem intervalCell_finite {position : Nat × Nat × Nat} {point radius : Binary64}
    (h : floats.intervalCell position point (.finite radius) = .ok cell) :
    ∃ lower upper, cell = .finite lower upper ∧
      floats.decimalConformalEndpoints point (normalizedZero radius) = .ok (lower, upper) := by
  simp only [FloatText.intervalCell, bind_ok, pure_ok] at h
  obtain ⟨⟨lower, upper⟩, hendpoints, _, -, _, -, rfl⟩ := h
  exact ⟨lower, upper, rfl, hendpoints⟩

/-- What a cell of an application was made from. -/
theorem cellAt_apply {points : List (List Binary64)}
    (h : floats.applySplitAbsoluteResidual points quantiles policy = .ok intervals)
    (hcell : cellAt intervals i row target = some cell) :
    ∃ q values point radius, quantiles[i]? = some q ∧ points[row]? = some values ∧
      values[target]? = some point ∧ q.radii[radiusIndex policy target]? = some radius ∧
      point.isFinite = true ∧ floats.intervalCell (i, row, target) point radius = .ok cell := by
  simp only [FloatText.applySplitAbsoluteResidual, bind_ok, collectIdx_ok, pure_ok] at h
  obtain ⟨_, hmatrix, _, -, hlength, hquantiles⟩ := h
  rw [validateFiniteMatrix_ok] at hmatrix
  simp only [cellAt, Option.bind_eq_bind, Option.bind_eq_some_iff] at hcell
  obtain ⟨interval, hinterval, cells, hcells, hcell⟩ := hcell
  have hsome {α β : Type} {l : List α} {l' : List β} {j : Nat} {y : β}
      (hl : l.length = l'.length) (hy : l'[j]? = some y) : ∃ x, l[j]? = some x := by
    obtain ⟨hj, -⟩ := List.getElem?_eq_some_iff.mp hy
    exact ⟨_, List.getElem?_eq_getElem (hl ▸ hj)⟩
  obtain ⟨q, hq⟩ := hsome hlength hinterval
  obtain ⟨matrix, ⟨hrows, hmatrixCells⟩, rfl⟩ := hquantiles i q interval hq hinterval
  obtain ⟨values, hvalues⟩ := hsome hrows hcells
  obtain ⟨htargets, hpoints⟩ := hmatrixCells row values cells hvalues hcells
  obtain ⟨point, hpoint⟩ := hsome htargets hcell
  obtain ⟨radius, hradius, hmade⟩ := hpoints target point cell hpoint hcell
  exact ⟨q, values, point, radius, hq, hvalues, hpoint, need_ok.mp hradius,
    hmatrix.finite values (List.mem_of_getElem? hvalues) point (List.mem_of_getElem? hpoint), hmade⟩

/-- A radius with its zero normalized, as the endpoints use it. -/
structure CleanRadius (radius : Binary64) : Prop where
  finite : (normalizedZero radius).isFinite = true
  neg : (normalizedZero radius).neg = false
  key : (normalizedZero radius).key = radius.key

theorem intervalCell_holds {position : Nat × Nat × Nat} {point radius : Binary64}
    (hpoint : point.isFinite = true) (hradius : CleanRadius radius)
    (h : floats.intervalCell position point (.finite radius) = .ok cell) :
    cell.holds point = true := by
  obtain ⟨lower, upper, rfl, hendpoints⟩ := intervalCell_finite h
  obtain ⟨hlower, hupper⟩ := FloatText.decimalConformalEndpoints_rounds hendpoints
  have hnonneg := floats.decimalOf_nonneg hradius.finite hradius.neg
  have hself := floats.rounds_decimalOf hpoint
  rw [RegressionIntervalCell.holds, Bool.and_eq_true, Binary64.le_iff hlower.finite hpoint,
    Binary64.le_iff hpoint hupper.finite]
  constructor
  · exact hlower.mono hself (by linarith)
  · exact hself.mono hupper (by linarith)

theorem intervalCell_within {position position' : Nat × Nat × Nat} {point radius radius' : Binary64}
    (hradius : CleanRadius radius) (hradius' : CleanRadius radius')
    (hle : radius.key ≤ radius'.key)
    (h : floats.intervalCell position point (.finite radius) = .ok cell)
    (h' : floats.intervalCell position' point (.finite radius') = .ok cell') :
    cell.within cell' = true := by
  obtain ⟨lower, upper, rfl, hendpoints⟩ := intervalCell_finite h
  obtain ⟨lower', upper', rfl, hendpoints'⟩ := intervalCell_finite h'
  obtain ⟨hlower, hupper⟩ := FloatText.decimalConformalEndpoints_rounds hendpoints
  obtain ⟨hlower', hupper'⟩ := FloatText.decimalConformalEndpoints_rounds hendpoints'
  have hmono := floats.decimalOf_mono hradius.finite hradius'.finite
    hradius.neg hradius'.neg (by rwa [hradius.key, hradius'.key])
  rw [RegressionIntervalCell.within, Bool.and_eq_true, Binary64.le_iff hlower'.finite hlower.finite,
    Binary64.le_iff hupper.finite hupper'.finite]
  constructor
  · exact hlower'.mono hlower (by linarith)
  · exact hupper.mono hupper' (by linarith)

namespace Calibration

variable (h : Calibration floats residuals coverages policy quantiles targetCount)
include h

theorem cleanRadius {target : Nat} (hq : q ∈ quantiles) (hr : q.radii[target]? = some (.finite r)) :
    CleanRadius r := by
  obtain ⟨_, -, hs⟩ := h.radius_isScore hq hr
  have hnonneg : 0 ≤ r.key := by
    rw [Binary64.key, hs.neg]
    exact Int.natCast_nonneg _
  obtain ⟨hfinite, hneg, hkey⟩ := normalizedZero_spec hs.finite hnonneg
  exact ⟨hfinite, hneg, hkey⟩

theorem decimal_le {i j : Nat} (hi : quantiles[i]? = some q) (hj : quantiles[j]? = some q') (hij : i ≤ j) :
    floats.decimalOf q.coverage ≤ floats.decimalOf q'.coverage := by
  obtain ⟨hlt, rfl⟩ := List.getElem?_eq_some_iff.mp hi
  obtain ⟨hlt', rfl⟩ := List.getElem?_eq_some_iff.mp hj
  rcases Nat.lt_or_eq_of_le hij with hij | rfl
  · have hordered := h.ordered
    rw [← h.map_coverage] at hordered
    obtain ⟨-, hvalid, hincreasing⟩ := validateConformalCoverages_ok.mp hordered
    rw [List.pairwise_map] at hincreasing
    have hkey := List.pairwise_iff_getElem.mp hincreasing i j hlt hlt' hij
    have hfinite (k : Nat) (hk : k < quantiles.length) :=
      (hvalid _ (List.mem_map_of_mem (List.getElem_mem hk))).1
    exact (FloatText.decimalOf_lt (hfinite i hlt) (hfinite j hlt') hkey).le
  · exact le_refl _

theorem cell_holds {points : List (List Binary64)}
    (happly : floats.applySplitAbsoluteResidual points quantiles policy = .ok intervals)
    (hcell : cellAt intervals i row target = some cell) :
    ∃ values point, points[row]? = some values ∧ values[target]? = some point ∧
      cell.holds point = true := by
  obtain ⟨q, values, point, radius, hq, hvalues, hpoint, hradius, hfinite, hmade⟩ :=
    cellAt_apply happly hcell
  refine ⟨values, point, hvalues, hpoint, ?_⟩
  cases radius with
  | unbounded =>
    cases hmade
    rfl
  | finite r => exact intervalCell_holds hfinite (h.cleanRadius (List.mem_of_getElem? hq) hradius) hmade

theorem cell_within {points : List (List Binary64)}
    (happly : floats.applySplitAbsoluteResidual points quantiles policy = .ok intervals)
    (hij : i ≤ j) (hcell : cellAt intervals i row target = some cell)
    (hcell' : cellAt intervals j row target = some cell') : cell.within cell' = true := by
  obtain ⟨q, values, point, radius, hq, hvalues, hpoint, hradius, hfinite, hmade⟩ :=
    cellAt_apply happly hcell
  obtain ⟨q', values', point', radius', hq', hvalues', hpoint', hradius', -, hmade'⟩ :=
    cellAt_apply happly hcell'
  rw [hvalues] at hvalues'
  cases hvalues'
  rw [hpoint] at hpoint'
  cases hpoint'
  have hmem := List.mem_of_getElem? hq
  have hmem' := List.mem_of_getElem? hq'
  have hnested := h.nested_of_decimal_le hmem hmem' (h.decimal_le hq hq' hij)
  have hnested := ((nestedQuantiles_iff (h.validQuantile hmem) (h.validQuantile hmem')).mp hnested).2
    _ radius radius' hradius hradius'
  cases radius with
  | unbounded =>
    cases radius' with
    | unbounded =>
      cases hmade
      cases hmade'
      rfl
    | finite r' => cases hnested
  | finite r =>
    obtain ⟨_, _, rfl, -⟩ := intervalCell_finite hmade
    cases radius' with
    | unbounded =>
      cases hmade'
      rfl
    | finite r' =>
      obtain ⟨_, -, hs⟩ := h.radius_isScore hmem hradius
      obtain ⟨_, -, hs'⟩ := h.radius_isScore hmem' hradius'
      have hle : r.key ≤ r'.key := (Binary64.le_iff hs.finite hs'.finite).mp hnested
      exact intervalCell_within (h.cleanRadius hmem hradius) (h.cleanRadius hmem' hradius') hle
        hmade hmade'

end Calibration

def digitChar (d : Nat) : Char := Char.ofNat ('0'.toNat + d)

theorem digitChar_spec {d : Nat} (h : d < 10) :
    (digitChar d).isDigit = true ∧ digitOf (digitChar d) = d ∧ digitChar d ≠ '.' ∧
      digitChar d ≠ '-' ∧ digitChar d ≠ 'e' ∧ digitChar d ≠ 'E' := by
  revert d
  decide

/-- `n.to_string()`. -/
def digitsText (n : Nat) : List Char :=
  if n = 0 then ['0'] else (Nat.digits 10 n).reverse.map digitChar

theorem digitsText_eq (n : Nat) :
    ∃ ds, digitsText n = ds.map digitChar ∧ (∀ d ∈ ds, d < 10) ∧ digitsValue ds = n := by
  unfold digitsText
  split
  · rename_i hz
    exact ⟨[0], rfl, by simp, hz.symm⟩
  · refine ⟨_, rfl, fun d hd => ?_, ?_⟩
    · exact Nat.digits_lt_base (by decide) (List.mem_reverse.mp hd)
    · rw [digitsValue, List.reverse_reverse, Nat.ofDigits_digits]

theorem readMantissa_digits {ds : List Nat} (h : ∀ d ∈ ds, d < 10) :
    readMantissa false (ds.map digitChar) = some (ds, 0) := by
  induction ds with
  | nil => rfl
  | cons d ds ih =>
    rw [List.forall_mem_cons] at h
    obtain ⟨hdigit, hvalue, hpoint, -⟩ := digitChar_spec h.1
    simp [readMantissa, hdigit, hvalue, hpoint, ih h.2]

/-- A text of digits, with an exponent or without one. -/
theorem splitExponent_digits {ds : List Nat} (h : ∀ d ∈ ds, d < 10) :
    splitExponent (ds.map digitChar) = .ok (ds.map digitChar, 0) ∧
    splitExponent (ds.map digitChar ++ "e-1074".toList) = .ok (ds.map digitChar, -1074) := by
  have hmark : ∀ c ∈ ds.map digitChar, (!(decide (c = 'e') || decide (c = 'E'))) = true := by
    intro c hc
    obtain ⟨d, hd, rfl⟩ := List.mem_map.mp hc
    obtain ⟨-, -, -, -, he, hE⟩ := digitChar_spec (h d hd)
    simp [he, hE]
  have hexponent : parseI32 ['-', '1', '0', '7', '4'] = .ok (-1074) := by decide
  constructor
  · rw [splitExponent, List.takeWhile_eq_self_iff.mpr hmark, List.dropWhile_eq_nil_iff.mpr hmark]
  · rw [splitExponent, List.takeWhile_append_of_pos hmark, List.dropWhile_append_of_pos hmark]
    simp [hexponent, bind, Except.bind, pure, Except.pure]

def half : Binary64 := .ofDecimal false 5 (-1)

def printMagnitude (x : Binary64) : List Char :=
  if x.absUnits % 2 ^ 1074 = 0 then digitsText (x.absUnits / 2 ^ 1074)
  else digitsText (x.absUnits * 5 ^ 1074) ++ "e-1074".toList

/-- Whole numbers and one half as the standard library prints them, and every
other value exactly, over `10^1074`. -/
def printFloat (x : Binary64) : List Char :=
  if x = half then "0.5".toList else (if x.neg then ['-'] else []) ++ printMagnitude x

theorem mul_five_pow_two_pow (n k : Nat) : n * 5 ^ k * 2 ^ k = n * 10 ^ k := by
  rw [Nat.mul_assoc, ← Nat.mul_pow]

/-- The text of a magnitude denotes it. -/
theorem printMagnitude_spec (x : Binary64) :
    ∃ ds e, (printMagnitude x).head? ≠ some '-' ∧ (∀ d ∈ ds, d < 10) ∧
      splitExponent (printMagnitude x) = .ok (ds.map digitChar, e) ∧
      ∃ b, 0 < b ∧ ∀ neg, Binary64.ofDecimal neg (digitsValue ds) e =
        Binary64.ofUnits neg (x.absUnits * b) b := by
  have hhead {ds : List Nat} (hds : ∀ d ∈ ds, d < 10) (rest : List Char)
      (hrest : rest.head? ≠ some '-') : (ds.map digitChar ++ rest).head? ≠ some '-' := by
    cases ds with
    | nil => exact hrest
    | cons d ds => simpa using (digitChar_spec (hds d (by simp))).2.2.2.1
  unfold printMagnitude
  split
  · rename_i hwhole
    obtain ⟨ds, htext, hds, hvalue⟩ := digitsText_eq (x.absUnits / 2 ^ 1074)
    rw [htext]
    refine ⟨ds, 0, by simpa using hhead hds [] (by simp), hds, (splitExponent_digits hds).1,
      1, Nat.one_pos, fun neg => ?_⟩
    show Binary64.ofUnits neg (digitsValue ds * 10 ^ 0 * 2 ^ 1074) 1 = _
    rw [hvalue, Nat.pow_zero, Nat.mul_one, Nat.mul_one,
      Nat.div_mul_cancel (Nat.dvd_of_mod_eq_zero hwhole)]
  · obtain ⟨ds, htext, hds, hvalue⟩ := digitsText_eq (x.absUnits * 5 ^ 1074)
    rw [htext]
    refine ⟨ds, -1074, hhead hds _ (by decide), hds, (splitExponent_digits hds).2,
      10 ^ 1074, Nat.pow_pos (by decide), fun neg => ?_⟩
    rw [← mul_five_pow_two_pow, ← hvalue]
    rfl

theorem readLiteral_signed {text : List Char} (h : text.head? ≠ some '-')
    (hsplit : splitExponent text = .ok (ds.map digitChar, e)) (hds : ∀ d ∈ ds, d < 10) :
    readLiteral ((if b then ['-'] else []) ++ text) = some ⟨b, ds, e⟩ := by
  cases b with
  | false => simp [readLiteral, h, hsplit, readMantissa_digits hds]
  | true => simp [readLiteral, hsplit, readMantissa_digits hds]

def printedText : FloatText where
  text := printFloat
  reads x hx := by
    unfold printFloat
    split
    · rename_i hhalf
      rw [hhalf]
      exact ⟨⟨false, [0, 5], -1⟩, by decide, by decide +kernel⟩
    · obtain ⟨ds, e, hhead, hds, hsplit, b, hb, hvalue⟩ := printMagnitude_spec x
      exact ⟨⟨x.neg, ds, e⟩, readLiteral_signed hhead hsplit hds,
        (hvalue x.neg).trans (Binary64.ofUnits_absUnits hx hb)⟩

end DagMl

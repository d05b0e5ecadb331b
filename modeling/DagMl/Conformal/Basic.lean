import Mathlib
import DagMl.Lib.Binary64
import DagMl.Lib.Checked

/-!
# Split-conformal records

The records of split-conformal calibration, the error type, and the checks on
coverages and matrices that calibration and application share.
-/

namespace DagMl

open Checked

inductive ConformalMultiTargetPolicy
  | marginal
  | jointMax
  deriving DecidableEq

inductive ConformalSmallSamplePolicy
  | error
  | unbounded
  deriving DecidableEq

inductive ConformalRadius
  | finite (value : Binary64)
  | unbounded
  deriving DecidableEq

structure SplitConformalQuantile where
  coverage : Binary64
  rank : Nat
  radii : List ConformalRadius
  deriving DecidableEq

inductive RegressionIntervalCell
  | finite (lower upper : Binary64)
  | unbounded
  deriving DecidableEq

structure RegressionConformalInterval where
  coverage : Binary64
  cells : List (List RegressionIntervalCell)
  deriving DecidableEq

inductive ConformalError
  | emptyCoverages
  | invalidCoverage (index : Nat)
  | nonIncreasingCoverage (index : Nat)
  | invalidSampleCount (sampleCount : Nat)
  | decimalConversion
  | emptyMatrix (matrix : String)
  | emptyMatrixRow (matrix : String) (row : Nat)
  | raggedMatrix (matrix : String) (row expected actual : Nat)
  | nonFiniteMatrixValue (matrix : String) (row target : Nat)
  | negativeResidual (row target : Nat)
  | smallSampleRank (rank sampleCount : Nat)
  | emptyQuantiles
  | zeroQuantileRank (coverageIndex : Nat)
  | decreasingQuantileRank (coverageIndex : Nat)
  | quantileShape (coverageIndex expected actual : Nat)
  | invalidRadius (coverageIndex radiusIndex : Nat)
  | mixedRadiusStatus (coverageIndex : Nat)
  | nonNestedRadius (coverageIndex radiusIndex : Nat)
  | arithmeticOverflow (operation : String)
  | unrepresentableInterval (coverageIndex row target : Nat)
  /-- Not a value of the source's error type: the thread panicked. -/
  | panicked (message : String)
  deriving DecidableEq

abbrev ConformalResult := Except ConformalError

instance [DecidableEq α] : DecidableEq (ConformalResult α)
  | .ok a, .ok b => decidable_of_iff (a = b) (by simp)
  | .error a, .error b => decidable_of_iff (a = b) (by simp)
  | .ok _, .error _ => .isFalse (by simp)
  | .error _, .ok _ => .isFalse (by simp)

def normalizedZero (value : Binary64) : Binary64 := if value.isZero then .zero else value

def checkedFinite (value : Binary64) (operation : String) : ConformalResult Binary64 :=
  if value.isFinite then .ok value else .error (.arithmeticOverflow operation)

theorem checkedFinite_ok : checkedFinite value operation = .ok y ↔ value.isFinite = true ∧ y = value := by
  cases h : value.isFinite <;> simp [checkedFinite, h, @eq_comm _ value]

-- ---------------------------------------------------------------------------
-- Coverages
-- ---------------------------------------------------------------------------

def validateConformalCoverages (coverages : List Binary64) : ConformalResult Unit := do
  refuseIf (coverages = []) .emptyCoverages
  eachIdx coverages fun index coverage => do
    refuseIf (¬(coverage.isFinite && Binary64.zero.lt coverage && coverage.lt (.ofNat 1)))
      (.invalidCoverage index)
    refuseIf (0 < index ∧ coverages[index - 1]?.any (coverage.le ·))
      (.nonIncreasingCoverage index)

/-- Strictly between zero and one. -/
def ValidCoverage (coverage : Binary64) : Prop :=
  coverage.isFinite = true ∧ Binary64.zero.lt coverage = true ∧ coverage.lt (.ofNat 1) = true

theorem zero_isFinite : Binary64.zero.isFinite = true := by decide

theorem one_isFinite : (Binary64.ofNat 1).isFinite = true := by decide +kernel

theorem validCoverage_iff {c : Binary64} :
    ValidCoverage c ↔ c.isFinite = true ∧ 0 < c.key ∧ c.key < (Binary64.ofNat 1).key := by
  refine and_congr_right fun hc => ?_
  rw [Binary64.lt_iff zero_isFinite hc, Binary64.lt_iff hc one_isFinite]
  rfl

theorem validateConformalCoverages_ok {coverages : List Binary64} :
    validateConformalCoverages coverages = .ok u ↔
      coverages ≠ [] ∧ (∀ c ∈ coverages, ValidCoverage c) ∧
        coverages.Pairwise (fun c d => c.key < d.key) := by
  have htrans : IsTrans Binary64 (fun c d => c.key < d.key) := ⟨fun _ _ _ => lt_trans⟩
  have hle {i : Nat} (hvalid : ∀ c ∈ coverages, ValidCoverage c) (hi : i + 1 < coverages.length) :
      ¬(0 < i + 1 ∧ coverages[i + 1 - 1]?.any (coverages[i + 1].le ·) = true) ↔
        coverages[i].key < coverages[i + 1].key := by
    have hprev : coverages[i + 1 - 1]? = some coverages[i] := List.getElem?_eq_getElem (by omega)
    rw [hprev, Option.any_some, Binary64.le_iff (hvalid _ (List.getElem_mem hi)).1
      (hvalid _ (List.getElem_mem _)).1]
    omega
  have hcoverage (c : Binary64) :
      (c.isFinite && Binary64.zero.lt c && c.lt (.ofNat 1)) = true ↔ ValidCoverage c := by
    simp [ValidCoverage, and_assoc]
  simp only [validateConformalCoverages, bind_ok, refuseIf_ok, eachIdx_ok, not_not, hcoverage]
  rw [← List.isChain_iff_pairwise, List.isChain_iff_getElem]
  constructor
  · rintro ⟨_, hne, h⟩
    have hvalid (c : Binary64) (hc : c ∈ coverages) : ValidCoverage c := by
      obtain ⟨i, hi, rfl⟩ := List.getElem_of_mem hc
      obtain ⟨_, hv, -⟩ := h i _ (List.getElem?_eq_getElem hi)
      exact hv
    refine ⟨hne, hvalid, fun i hi => ?_⟩
    obtain ⟨_, -, hlt⟩ := h (i + 1) _ (List.getElem?_eq_getElem hi)
    exact (hle hvalid hi).mp hlt
  · rintro ⟨hne, hvalid, hlt⟩
    refine ⟨(), hne, fun i c hc => ⟨(), hvalid c (List.mem_of_getElem? hc), ?_⟩⟩
    obtain ⟨hi, rfl⟩ := List.getElem?_eq_some_iff.mp hc
    cases i with
    | zero => simp
    | succ i => exact (hle hvalid hi).mpr (hlt i hi)

-- ---------------------------------------------------------------------------
-- Matrices
-- ---------------------------------------------------------------------------

def validateFiniteMatrix (matrix : List (List Binary64)) (name : String) (nonNegative : Bool) :
    ConformalResult Nat :=
  match matrix with
  | [] => .error (.emptyMatrix name)
  | first :: _ => do
    let expected := first.length
    refuseIf (expected = 0) (.emptyMatrixRow name 0)
    eachIdx matrix fun rowIndex row => do
      refuseIf (row.length ≠ expected) (.raggedMatrix name rowIndex expected row.length)
      eachIdx row fun target value => do
        refuseIf (value.isFinite = false) (.nonFiniteMatrixValue name rowIndex target)
        refuseIf (nonNegative && value.lt .zero) (.negativeResidual rowIndex target)
    pure expected

/-- A rectangular matrix of finite values. -/
structure FiniteMatrix (matrix : List (List Binary64)) (nonNegative : Bool) (width : Nat) : Prop where
  nonempty : matrix ≠ []
  width_pos : 0 < width
  rectangular : ∀ row ∈ matrix, row.length = width
  finite : ∀ row ∈ matrix, ∀ value ∈ row, value.isFinite = true
  nonneg : nonNegative = true → ∀ row ∈ matrix, ∀ value ∈ row, 0 ≤ value.key

theorem validateFiniteMatrix_ok {matrix : List (List Binary64)} :
    validateFiniteMatrix matrix name nonNegative = .ok width ↔
      FiniteMatrix matrix nonNegative width := by
  have hvalue (value : Binary64) :
      (value.isFinite = true ∧ ¬(nonNegative && value.lt .zero) = true) ↔
        value.isFinite = true ∧ (nonNegative = true → 0 ≤ value.key) := by
    refine and_congr_right fun hf => ?_
    rw [Bool.and_eq_true, Binary64.lt_iff hf zero_isFinite, not_and, not_lt]
    rfl
  have hidx {α : Type} {l : List α} {P : α → Prop} :
      (∀ (i : Nat) (x : α), l[i]? = some x → P x) ↔ ∀ x ∈ l, P x := by
    constructor
    · intro h x hx
      obtain ⟨i, hi⟩ := List.getElem?_of_mem hx
      exact h i x hi
    · exact fun h i x hx => h x (List.mem_of_getElem? hx)
  cases matrix with
  | nil => exact ⟨fun h => (nomatch h), fun h => (h.nonempty rfl).elim⟩
  | cons first rest =>
    simp only [validateFiniteMatrix, bind_ok, refuseIf_ok, eachIdx_ok, pure_ok, exists_const,
      Bool.not_eq_false, hvalue, hidx, not_not]
    constructor
    · rintro ⟨hpos, hrows, rfl⟩
      exact {
        nonempty := by simp
        width_pos := Nat.pos_of_ne_zero hpos
        rectangular := fun row hr => (hrows row hr).1
        finite := fun row hr value hv => ((hrows row hr).2 value hv).1
        nonneg := fun hn row hr value hv => ((hrows row hr).2 value hv).2 hn }
    · intro h
      have hfirst : first.length = width := h.rectangular first (by simp)
      subst hfirst
      exact ⟨h.width_pos.ne', fun row hr => ⟨h.rectangular row hr, fun value hv =>
        ⟨h.finite row hr value hv, fun hn => h.nonneg hn row hr value hv⟩⟩, rfl⟩

end DagMl

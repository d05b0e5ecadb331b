import Mathlib
import DagMl.Lib.Binary64.Functions
import DagMl.Lib.Collections
import DagMl.Selection.Comparator

/-!
# Metrics

The seven built-in metrics, each computed on one target column at a time.
-/

namespace DagMl

inductive RegressionMetricKind
  | mse
  | rmse
  | mae
  | r2
  | accuracy
  | balancedAccuracy
  | f1
  deriving DecidableEq

namespace RegressionMetricKind

def name : RegressionMetricKind → String
  | .mse => "mse"
  | .rmse => "rmse"
  | .mae => "mae"
  | .r2 => "r2"
  | .accuracy => "accuracy"
  | .balancedAccuracy => "balanced_accuracy"
  | .f1 => "f1"

def fromName (name : String) : Option RegressionMetricKind :=
  match name with
  | "mse" => some .mse
  | "rmse" => some .rmse
  | "mae" => some .mae
  | "r2" => some .r2
  | "accuracy" => some .accuracy
  | "balanced_accuracy" => some .balancedAccuracy
  | "f1" => some .f1
  | _ => none

def objective : RegressionMetricKind → MetricObjective
  | .mse | .rmse | .mae => .minimize
  | .r2 | .accuracy | .balancedAccuracy | .f1 => .maximize

end RegressionMetricKind

/-- `prediction[target_idx]` beside `target[target_idx]`, row by row. -/
def targetColumn (targetIdx : Nat) (predictions targets : List (List Binary64)) :
    List (Binary64 × Binary64) :=
  (predictions.zip targets).map fun row =>
    (row.1.getD targetIdx .zero, row.2.getD targetIdx .zero)

/-- `values.sum::<f64>() / values.len() as f64`. -/
def meanOf (values : List Binary64) : Binary64 :=
  (Binary64.sum values).div (.ofNat values.length)

def squaredError (row : Binary64 × Binary64) : Binary64 :=
  let error := row.1.sub row.2
  error.mul error

def r2ForTarget (column : List (Binary64 × Binary64)) : Binary64 :=
  let mean := meanOf (column.map Prod.snd)
  let ssRes := Binary64.sum (column.map squaredError)
  let ssTot := Binary64.sum (column.map fun row =>
    let centered := row.2.sub mean
    centered.mul centered)
  if ssTot.eq .zero then if ssRes.eq .zero then .ofNat 1 else .zero
  else (Binary64.ofNat 1).sub (ssRes.div ssTot)

def sameLabel (row : Binary64 × Binary64) : Bool := row.1.round.eq row.2.round

/-- Correct and total rows of each true class. -/
def classCounts (column : List (Binary64 × Binary64)) : BTreeMap Int (Nat × Nat) :=
  column.foldl (fun perClass row =>
    let label := row.2.round.toI64
    let entry := perClass[label]?.getD (0, 0)
    perClass.insert label (if sameLabel row then entry.1 + 1 else entry.1, entry.2 + 1)) ∅

def balancedAccuracyForTarget (column : List (Binary64 × Binary64)) : Binary64 :=
  let perClass := (classCounts column).toList
  if perClass = [] then .zero
  else meanOf (perClass.map fun entry => (Binary64.ofNat entry.2.1).div (.ofNat entry.2.2))

/-- True positives, false positives and support of a class. -/
structure LabelCounts where
  truePositive : Nat := 0
  falsePositive : Nat := 0
  support : Nat := 0
  deriving DecidableEq

def countLabel (counts : BTreeMap Int LabelCounts) (row : Binary64 × Binary64) :
    BTreeMap Int LabelCounts :=
  let actual := row.2.round.toI64
  let predicted := row.1.round.toI64
  let entry := counts[actual]?.getD {}
  let counts := counts.insert actual { entry with support := entry.support + 1 }
  if actual = predicted then
    let entry := counts[actual]?.getD {}
    counts.insert actual { entry with truePositive := entry.truePositive + 1 }
  else
    let entry := counts[predicted]?.getD {}
    counts.insert predicted { entry with falsePositive := entry.falsePositive + 1 }

def weightedF1ForTarget (column : List (Binary64 × Binary64)) : Binary64 :=
  let counts := column.foldl countLabel ∅
  let total := Binary64.ofNat column.length
  Binary64.sum (counts.toList.map fun entry =>
    let c := entry.2
    let denominator := 2 * c.truePositive + c.falsePositive + (c.support - c.truePositive)
    if denominator = 0 then .zero
    else ((Binary64.ofNat (2 * c.truePositive)).div (.ofNat denominator)).mul
      ((Binary64.ofNat c.support).div total))

def metricForColumn (metric : RegressionMetricKind) (column : List (Binary64 × Binary64)) :
    Binary64 :=
  match metric with
  | .mse => meanOf (column.map squaredError)
  | .rmse => (meanOf (column.map squaredError)).sqrt
  | .mae => meanOf (column.map fun row => (row.1.sub row.2).abs)
  | .r2 => r2ForTarget column
  | .accuracy => (Binary64.ofNat (column.countP sameLabel)).div (.ofNat column.length)
  | .balancedAccuracy => balancedAccuracyForTarget column
  | .f1 => weightedF1ForTarget column

def computeMetricPerTarget (metric : RegressionMetricKind) (width : Nat)
    (predictions targets : List (List Binary64)) : List Binary64 :=
  (List.range width).map fun targetIdx =>
    metricForColumn metric (targetColumn targetIdx predictions targets)

end DagMl

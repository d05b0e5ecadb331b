import DagMl.Metrics.Provider
import DagMl.Metrics.Report

/-!
# Scoring against targets

Prediction rows are scored against the target rows of their units. With every
cell observed the whole matrices go through the metric providers; a missing cell
sends each target through them on its own, restricted to the units observed for
it, and the coordinator averages the scalars.
-/

namespace DagMl

open Checked

-- ---------------------------------------------------------------------------
-- Blocks
-- ---------------------------------------------------------------------------

/-- `RegressionTargetBlock` with exact numbers, all of them finite. -/
structure ExactTargets (K : Type) where
  level : PredictionLevel
  unitIds : List PredictionUnitId
  values : List (List K)
  /-- `true` marks an observed cell; without masks every cell is observed. -/
  validityMasks : Option (List (List Bool))
  targetNames : List String

namespace ExactTargets

variable {K : Type}

def width (self : ExactTargets K) : Nat := matrixWidth self.values

def validateShape (self : ExactTargets K) : Result Nat := do
  refuseIf (self.unitIds.length ≠ self.values.length) (.oofValidation
    s!"target block has {self.unitIds.length} unit ids but {self.values.length} target rows")
  refuseIf (∃ unitId ∈ self.unitIds, unitId.level ≠ self.level)
    (.oofValidation s!"target block contains units outside level {self.level.debug}")
  refuseIf (self.unitIds.toFinset.card ≠ self.unitIds.length)
    (.oofValidation "target block contains duplicate unit ids")
  refuseIf (self.width = 0) (.oofValidation "target block has empty target rows")
  refuseIf (∃ row ∈ self.values, row.length ≠ self.width)
    (.oofValidation "target block has ragged target rows")
  whenSome self.validityMasks fun masks =>
    refuseIf (masks.length ≠ self.values.length ∨ ∃ row ∈ masks, row.length ≠ self.width)
      (.oofValidation "target validity_masks shape must match target values (sample-major)")
  refuseIf (self.targetNames ≠ [] ∧ self.targetNames.length ≠ self.width) (.oofValidation
    s!"target block has {self.targetNames.length} target names for width {self.width}")
  pure self.width

def hasMissingValues (self : ExactTargets K) : Bool :=
  match self.validityMasks with
  | some masks => masks.any (·.any (!·))
  | none => false

def requireCompleteTargets (self : ExactTargets K) (operation : String) : Result Unit := do
  let _ ← self.validateShape
  refuseIf (self.hasMissingValues = true) (.oofValidation
    s!"masked regression targets are unsupported for {operation}; use sample-level scoring without prediction merges")

end ExactTargets

/-- `AggregatedPredictionBlock` with exact numbers. -/
structure ExactUnitBlock (K : Type) where
  predictionId : Option String
  producerNode : NodeId
  producerPort : Option String
  partition : PredictionPartition
  foldId : Option FoldId
  level : PredictionLevel
  unitIds : List PredictionUnitId
  values : List (List K)
  targetNames : List String

namespace ExactUnitBlock

variable {K : Type}

def width (self : ExactUnitBlock K) : Nat := matrixWidth self.values

def validateShape (self : ExactUnitBlock K) : Result Nat := do
  refuseIf (self.unitIds.length ≠ self.values.length) (.oofValidation
    s!"producer `{self.producerNode}` has {self.unitIds.length} aggregated unit ids but {self.values.length} prediction rows")
  refuseIf (∃ unitId ∈ self.unitIds, unitId.level ≠ self.level) (.oofValidation
    s!"producer `{self.producerNode}` emitted aggregated units outside level {self.level.debug}")
  refuseIf (self.unitIds.toFinset.card ≠ self.unitIds.length)
    (.oofValidation s!"producer `{self.producerNode}` emitted duplicate aggregated unit ids")
  refuseIf (self.width = 0)
    (.oofValidation s!"producer `{self.producerNode}` emitted empty aggregated prediction rows")
  refuseIf (∃ row ∈ self.values, row.length ≠ self.width)
    (.oofValidation s!"producer `{self.producerNode}` emitted ragged aggregated prediction rows")
  refuseIf (self.targetNames ≠ [] ∧ self.targetNames.length ≠ self.width) (.oofValidation
    s!"producer `{self.producerNode}` has {self.targetNames.length} aggregated target names for width {self.width}")
  pure self.width

end ExactUnitBlock

/-- `RegressionMetricReport` with exact numbers. Scoring sets no target domain and no variant. -/
structure ExactReport (K : Type) where
  groupingKey : Option AggregationGroupingKey
  predictionId : Option String
  producerNode : NodeId
  producerPort : Option String
  partition : PredictionPartition
  foldId : Option FoldId
  level : PredictionLevel
  rowCount : Nat
  targetWidth : Nat
  targetNames : List String
  metrics : BTreeMap String K

def ExactReport.validate {K : Type} (self : ExactReport K) : Result Unit := do
  whenSome self.groupingKey fun key => do
    key.validate
    refuseIf (self.level ≠ .group) (.oofValidation "grouping_key requires a Group score report")
  refuseIf (self.rowCount = 0) (.oofValidation "regression metric report has zero rows")
  refuseIf (self.targetWidth = 0) (.oofValidation "regression metric report has zero target width")
  refuseIf (self.targetNames ≠ [] ∧ self.targetNames.length ≠ self.targetWidth) (.oofValidation
    s!"regression metric report has {self.targetNames.length} target names for width {self.targetWidth}")
  refuseIf (self.metrics.isEmpty = true) (.oofValidation "regression metric report has no metrics")
  each self.metrics.toList fun entry => refuseIf (isBlank entry.1 = true)
    (.oofValidation "regression metric report contains an empty metric name")

structure PredictionReportOrigin where
  predictionId : Option String
  producerNode : NodeId
  producerPort : Option String
  partition : PredictionPartition
  foldId : Option FoldId

structure PredictionRows (K : Type) where
  level : PredictionLevel
  unitIds : List PredictionUnitId
  values : List (List K)
  targetNames : List String
  width : Nat
  origin : PredictionReportOrigin

-- ---------------------------------------------------------------------------
-- Reports
-- ---------------------------------------------------------------------------

def targetMetricNames (width : Nat) (targetNames : List String) : List String :=
  if targetNames = [] then (List.range width).map fun idx => s!"target_{idx}" else targetNames

/-- The key of a target's component. -/
def componentKey (metric : RegressionMetricKind) (suffix : String) : String :=
  s!"{metric.name}:{suffix}"

section

variable {K : Type}

def PredictionRows.report (self : PredictionRows K) (targetNames : List String)
    (metrics : BTreeMap String K) : ExactReport K where
  groupingKey := none
  predictionId := self.origin.predictionId
  producerNode := self.origin.producerNode
  producerPort := self.origin.producerPort
  partition := self.origin.partition
  foldId := self.origin.foldId
  level := self.level
  rowCount := self.unitIds.length
  targetWidth := self.width
  targetNames
  metrics

def PredictionRows.scope (self : PredictionRows K) : MetricEvaluationScope where
  producerNode := self.origin.producerNode
  producerPort := self.origin.producerPort
  predictionId := self.origin.predictionId
  variantId := none
  partition := self.origin.partition
  foldId := self.origin.foldId
  level := self.level

def RegressionMetricKind.taskKinds : RegressionMetricKind → LearningTaskKind × PredictionKind
  | .mse | .rmse | .mae | .r2 => (.regression, .regressionPoint)
  | .accuracy | .balancedAccuracy | .f1 => (.multiclassClassification, .classLabel)

/-- The task of a metric on the prediction rows and the target rows beside them. -/
def PredictionRows.task (self : PredictionRows K) (aligned : List (List K × List K))
    (metric : RegressionMetricKind) : MetricEvaluationTask K where
  requestId := s!"metric:{self.origin.producerNode}:{metric.name}"
  metric := builtinMetricSpec metric
  taskKind := metric.taskKinds.1
  predictionKind := metric.taskKinds.2
  scope := self.scope
  unitIds := self.unitIds.map (·.toMetric)
  predictions := aligned.map Prod.fst
  targets := aligned.map Prod.snd
  outputIds := (List.range self.width).map fun index => s!"output:{index}"
  sampleWeights := none
  missingMask := none
  groupIds := none

end

-- ---------------------------------------------------------------------------
-- Complete rows
-- ---------------------------------------------------------------------------

section

variable {K : Type} [Field K] [LinearOrder K] [FloorRing K]

def recordEvaluation (metric : RegressionMetricKind) (suffixes : List String)
    (evaluation : ValidatedMetricEvaluation K) (values : BTreeMap String K) : BTreeMap String K :=
  (evaluation.result.values.zip suffixes).foldl
    (fun values entry => values.insert (componentKey metric entry.2) entry.1.value)
    (values.insert metric.name evaluation.aggregate)

def scoreMetric (sqrt : K → K) (predictions : PredictionRows K) (aligned : List (List K × List K))
    (suffixes : List String) (values : BTreeMap String K) (metric : RegressionMetricKind) :
    Result (BTreeMap String K) := do
  let task := predictions.task aligned metric
  task.validateFields
  let evaluation ← evaluateMetric sqrt task
  pure (recordEvaluation metric suffixes evaluation values)

def scoreCompleteRows (sqrt : K → K) (predictions : PredictionRows K)
    (aligned : List (List K × List K)) (metrics : List RegressionMetricKind)
    (targetNames : List String) : Result (ExactReport K) := do
  let suffixes := targetMetricNames predictions.width targetNames
  let values ← loop (scoreMetric sqrt predictions aligned suffixes) ∅ metrics
  let report := predictions.report targetNames values
  report.validate
  pure report

/-- A prediction row beside the target row of its unit. -/
def alignRow (targetByUnit : BTreeMap PredictionUnitId (List K))
    (prediction : PredictionUnitId × List K) : Result (List K × List K) := do
  let targetRow ← need targetByUnit[prediction.1]?
    (.oofValidation s!"prediction unit `{prediction.1}` is missing from target block")
  pure (prediction.2, targetRow)

/-- `score_regression_rows`, its call of the masked path left open. -/
def scoreRowsUsing (masked : List String → Result (ExactReport K)) (sqrt : K → K)
    (predictions : PredictionRows K) (targets : ExactTargets K)
    (metrics : List RegressionMetricKind) : Result (ExactReport K) := do
  refuseIf (metrics = []) (.oofValidation "no regression metrics requested")
  let _ ← unique (fun metric => .oofValidation
    s!"duplicate regression metric `{metric.name}` requested") metrics
  let targetWidth ← targets.validateShape
  refuseIf (predictions.width ≠ targetWidth) (.oofValidation
    s!"prediction width {predictions.width} does not match target width {targetWidth}")
  refuseIf (predictions.level ≠ targets.level) (.oofValidation
    s!"prediction level {predictions.level.debug} does not match target level {targets.level.debug}")
  refuseIf (predictions.targetNames ≠ [] ∧ targets.targetNames ≠ [] ∧
    predictions.targetNames ≠ targets.targetNames)
    (.oofValidation "prediction target names do not match target block names")
  let targetByUnit := BTreeMap.collect (targets.unitIds.zip targets.values)
  let aligned ← collect (predictions.unitIds.zip predictions.values) (alignRow targetByUnit)
  refuseIf (aligned.length ≠ targetByUnit.size)
    (.oofValidation "target block contains units not present in predictions")
  let targetNames :=
    if predictions.targetNames ≠ [] then predictions.targetNames else targets.targetNames
  if targets.hasMissingValues = true then masked targetNames
  else scoreCompleteRows sqrt predictions aligned metrics targetNames

-- ---------------------------------------------------------------------------
-- Masked rows
-- ---------------------------------------------------------------------------

/-- The masked path scores blocks without masks, which do not come back to it. -/
def scoreUnmaskedRows : (K → K) → PredictionRows K → ExactTargets K → List RegressionMetricKind →
    Result (ExactReport K) :=
  scoreRowsUsing fun _ => .error (.panicked "missing values have a mask")

/-- An observed cell: its unit, the predicted and the true number. -/
abbrev ObservedCell (K : Type) := PredictionUnitId × K × K

/-- One cell of a column, if it is observed; validated rows are long enough. -/
def observedCell (targets : ExactTargets K) (targetRows : BTreeMap PredictionUnitId Nat)
    (masks : List (List Bool)) (column : Nat) (prediction : PredictionUnitId × List K) :
    Result (Option (ObservedCell K)) := do
  let row ← need targetRows[prediction.1]? (.panicked "no entry found for key")
  pure (if (masks.getD row []).getD column false = true then
      some (prediction.1, WeightedRows.entry prediction.2 column,
        WeightedRows.entry (targets.values.getD row []) column)
    else none)

/-- The observed cells of a column, in prediction order. -/
def observedCells (predictions : PredictionRows K) (targets : ExactTargets K)
    (masks : List (List Bool)) (column : Nat) : Result (List (ObservedCell K)) := do
  let targetRows := BTreeMap.collect targets.unitIds.zipIdx
  let cells ← collect (predictions.unitIds.zip predictions.values)
    (observedCell targets targetRows masks column)
  pure cells.reduceOption

def PredictionRows.oneColumn (self : PredictionRows K) (observed : List (ObservedCell K)) :
    PredictionRows K where
  level := self.level
  unitIds := observed.map (·.1)
  values := observed.map fun cell => [cell.2.1]
  targetNames := []
  width := 1
  origin := self.origin

def ExactTargets.oneColumn (level : PredictionLevel) (observed : List (ObservedCell K)) :
    ExactTargets K where
  level
  unitIds := observed.map (·.1)
  values := observed.map fun cell => [cell.2.2]
  validityMasks := none
  targetNames := []

/-- The component of a metric is recorded, and its share of the mean added. -/
def recordColumn (width : Nat) (suffix : String) (report : ExactReport K)
    (values : BTreeMap String K) (metric : RegressionMetricKind) : Result (BTreeMap String K) := do
  let value ← need report.metrics[metric.name]? (.panicked "no entry found for key")
  let values := values.insert (componentKey metric suffix) value
  pure (values.insert metric.name (values[metric.name]?.getD 0 + value / width))

def scoreColumn (sqrt : K → K) (predictions : PredictionRows K) (targets : ExactTargets K)
    (masks : List (List Bool)) (metrics : List RegressionMetricKind) (values : BTreeMap String K)
    (entry : String × Nat) : Result (BTreeMap String K) := do
  let observed ← observedCells predictions targets masks entry.2
  let fold := predictions.origin.foldId.elim "None" fun foldId => s!"Some(FoldId(\"{foldId}\"))"
  refuseIf (observed = []) (.oofValidation
    s!"masked regression target `{entry.1}` has no observed values in scored partition {predictions.origin.partition.debug} fold {fold}")
  let report ← scoreUnmaskedRows sqrt (predictions.oneColumn observed)
    (ExactTargets.oneColumn predictions.level observed) metrics
  loop (recordColumn predictions.width entry.1 report) values metrics

def scoreMaskedRegressionRowsWithGrouping (sqrt : K → K) (predictions : PredictionRows K)
    (targets : ExactTargets K) (metrics : List RegressionMetricKind) (targetNames : List String)
    (independentGroup : Bool) : Result (ExactReport K) := do
  checkIf (predictions.level ≠ .sample ∧ independentGroup = false)
    (targets.requireCompleteTargets "group/target/observation scoring")
  let masks ← need targets.validityMasks (.panicked "missing values have a mask")
  let suffixes := targetMetricNames predictions.width targetNames
  let values ← loop (scoreColumn sqrt predictions targets masks metrics) ∅ suffixes.zipIdx
  let report := predictions.report targetNames values
  report.validate
  pure report

def scoreRegressionRows (sqrt : K → K) (predictions : PredictionRows K) (targets : ExactTargets K)
    (metrics : List RegressionMetricKind) : Result (ExactReport K) :=
  scoreRowsUsing (fun targetNames => scoreMaskedRegressionRowsWithGrouping sqrt predictions targets
    metrics targetNames false) sqrt predictions targets metrics

-- ---------------------------------------------------------------------------
-- Entry points
-- ---------------------------------------------------------------------------

def ExactBlock.predictionRows (self : ExactBlock K) (width : Nat) : PredictionRows K where
  level := .sample
  unitIds := self.sampleIds.map .sample
  values := self.values
  targetNames := self.targetNames
  width
  origin := ⟨self.predictionId, self.producerNode, self.producerPort, self.partition, self.foldId⟩

def scoreRegressionPredictionBlock (sqrt : K → K) (metrics : List RegressionMetricKind)
    (predictions : ExactBlock K) (targets : ExactTargets K) : Result (ExactReport K) := do
  let width ← predictions.validateContent
  scoreRegressionRows sqrt (predictions.predictionRows width) targets metrics

def ExactUnitBlock.predictionRows (self : ExactUnitBlock K) (width : Nat) : PredictionRows K where
  level := self.level
  unitIds := self.unitIds
  values := self.values
  targetNames := self.targetNames
  width
  origin := ⟨self.predictionId, self.producerNode, self.producerPort, self.partition, self.foldId⟩

def scoreRegressionAggregatedBlock (sqrt : K → K) (metrics : List RegressionMetricKind)
    (predictions : ExactUnitBlock K) (targets : ExactTargets K) : Result (ExactReport K) := do
  let width ← predictions.validateShape
  scoreRegressionRows sqrt (predictions.predictionRows width) targets metrics

/-- The masked branch of `score_independent_unit_block`. -/
def scoreMaskedUnitBlock (sqrt : K → K) (metrics : List RegressionMetricKind)
    (predictions : ExactUnitBlock K) (targets : ExactTargets K) : Result (ExactReport K) := do
  let _ ← predictions.validateShape
  let _ ← targets.validateShape
  refuseIf (predictions.unitIds.toFinset ≠ targets.unitIds.toFinset ∨
    predictions.width ≠ targets.width)
    (.oofValidation "independent-unit score identity/width mismatch")
  scoreMaskedRegressionRowsWithGrouping sqrt (predictions.predictionRows predictions.width) targets
    metrics predictions.targetNames true

def scoreUnitBlockRows (sqrt : K → K) (metrics : List RegressionMetricKind)
    (predictions : ExactUnitBlock K) (targets : ExactTargets K) : Result (ExactReport K) :=
  match targets.validityMasks with
  | some _ => scoreMaskedUnitBlock sqrt metrics predictions targets
  | none => scoreRegressionAggregatedBlock sqrt metrics predictions targets

def scoreIndependentUnitBlock (sqrt : K → K) (metrics : List RegressionMetricKind)
    (key : AggregationGroupingKey) (predictions : ExactUnitBlock K) (targets : ExactTargets K) :
    Result (ExactReport K) := do
  key.validate
  refuseIf (predictions.level ≠ .group ∨ targets.level ≠ .group)
    (.oofValidation "independent-unit score requires Group rows")
  let report ← scoreUnitBlockRows sqrt metrics predictions targets
  let report := { report with groupingKey := some key }
  report.validate
  pure report

end

end DagMl

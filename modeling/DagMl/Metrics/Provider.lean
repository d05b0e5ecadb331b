import DagMl.Aggregation.Exact
import DagMl.Metrics.ExactScores
import DagMl.Metrics.Targets
import DagMl.Runtime.Artifact

/-!
# Metric providers

A metric evaluation task is checked, answered by a built-in provider one target
column at a time, and the answer is checked and reduced to one number. Numbers
are those of an ordered field, and `sqrt` stands for the square root. The checks
of the crate's own specs and the fingerprints of a task nobody changes pass
whatever the rows are, so they have no counterpart.
-/

namespace DagMl

open Checked

variable {K : Type} [Field K] [LinearOrder K]

-- ---------------------------------------------------------------------------
-- The kernel
-- ---------------------------------------------------------------------------

/-- `prediction[target_idx]` beside `target[target_idx]`, row by row. -/
abbrev ScoredColumn (K : Type) := List (K × K)

namespace ScoredColumn

def mean (values : List K) : K := values.sum / values.length

def squaredError (row : K × K) : K := (row.1 - row.2) * (row.1 - row.2)

def r2 (column : ScoredColumn K) : K :=
  let mean := mean (column.map Prod.snd)
  let ssRes := (column.map squaredError).sum
  let ssTot := (column.map fun row => (row.2 - mean) * (row.2 - mean)).sum
  if ssTot = 0 then if ssRes = 0 then 1 else 0 else 1 - ssRes / ssTot

section Labels

variable [FloorRing K]

/-- `value.round()`, half away from zero. -/
def label (x : K) : Int := if 0 ≤ x then round x else -round (-x)

def sameLabel (row : K × K) : Bool := label row.1 = label row.2

def countClass (perClass : BTreeMap Int (Nat × Nat)) (row : K × K) : BTreeMap Int (Nat × Nat) :=
  let actual := Exact.toI64 (label row.2)
  let entry := perClass[actual]?.getD (0, 0)
  perClass.insert actual (if sameLabel row then entry.1 + 1 else entry.1, entry.2 + 1)

def balancedAccuracy (column : ScoredColumn K) : K :=
  let perClass := (column.foldl countClass ∅).toList
  if perClass = [] then 0
  else mean (perClass.map fun entry => (entry.2.1 / entry.2.2 : K))

def countLabel (counts : BTreeMap Int LabelCounts) (row : K × K) : BTreeMap Int LabelCounts :=
  let actual := Exact.toI64 (label row.2)
  let predicted := Exact.toI64 (label row.1)
  let entry := counts[actual]?.getD {}
  let counts := counts.insert actual { entry with support := entry.support + 1 }
  if actual = predicted then
    let entry := counts[actual]?.getD {}
    counts.insert actual { entry with truePositive := entry.truePositive + 1 }
  else
    let entry := counts[predicted]?.getD {}
    counts.insert predicted { entry with falsePositive := entry.falsePositive + 1 }

def labelF1 (c : LabelCounts) (total : K) : K :=
  let denominator := 2 * c.truePositive + c.falsePositive + (c.support - c.truePositive)
  if denominator = 0 then 0
  else (2 * c.truePositive : Nat) / denominator * (c.support / total)

def weightedF1 (column : ScoredColumn K) : K :=
  let counts := column.foldl countLabel ∅
  (counts.toList.map fun entry => labelF1 entry.2 (column.length : K)).sum

def score (sqrt : K → K) (metric : RegressionMetricKind) (column : ScoredColumn K) : K :=
  match metric with
  | .mse => mean (column.map squaredError)
  | .rmse => sqrt (mean (column.map squaredError))
  | .mae => mean (column.map fun row => |row.1 - row.2|)
  | .r2 => r2 column
  | .accuracy => (column.countP sameLabel : K) / column.length
  | .balancedAccuracy => balancedAccuracy column
  | .f1 => weightedF1 column

/-- `compute_metric_per_target`. -/
def perTarget (sqrt : K → K) (metric : RegressionMetricKind) (width : Nat)
    (predictions targets : List (List K)) : List K :=
  (List.range width).map fun targetIdx => score sqrt metric
    ((predictions.zip targets).map fun row =>
      (WeightedRows.entry row.1 targetIdx, WeightedRows.entry row.2 targetIdx))

end Labels

end ScoredColumn

-- ---------------------------------------------------------------------------
-- Specs
-- ---------------------------------------------------------------------------

inductive LearningTaskKind
  | regression | binaryClassification | multiclassClassification | multilabelClassification
  deriving DecidableEq

inductive PredictionKind
  | regressionPoint | classLabel | classProbability | decisionScore
  deriving DecidableEq

inductive CriterionInput
  | target | prediction | sampleWeight | missingMask | group
  deriving DecidableEq

inductive MetricCapability
  | decomposable | distributedReduction | supportsMissingMask | supportsSampleWeights
  deriving DecidableEq

inductive MetricDecomposition
  | global | perOutput | perUnit
  deriving DecidableEq

inductive MetricReduction
  | global | mean | sum | weightedMean
  deriving DecidableEq

/-- `{:?}`. -/
def LearningTaskKind.debug : LearningTaskKind → String
  | .regression => "Regression"
  | .binaryClassification => "BinaryClassification"
  | .multiclassClassification => "MulticlassClassification"
  | .multilabelClassification => "MultilabelClassification"

/-- `{:?}`. -/
def PredictionKind.debug : PredictionKind → String
  | .regressionPoint => "RegressionPoint"
  | .classLabel => "ClassLabel"
  | .classProbability => "ClassProbability"
  | .decisionScore => "DecisionScore"

structure MetricSpec where
  metricId : String
  taskKinds : Finset LearningTaskKind
  predictionKinds : Finset PredictionKind
  supportedLevels : Finset PredictionLevel
  decomposition : MetricDecomposition
  reduction : MetricReduction
  requiredInputs : Finset CriterionInput
  capabilities : Finset MetricCapability

def MetricSpec.validateCompatibility (self : MetricSpec) (taskKind : LearningTaskKind)
    (predictionKind : PredictionKind) (level : PredictionLevel) : Result Unit :=
  refuseIf (taskKind ∉ self.taskKinds ∨ predictionKind ∉ self.predictionKinds ∨
    level ∉ self.supportedLevels) (.campaignValidation
    s!"metric `{self.metricId}` is not compatible with task {taskKind.debug}, prediction {predictionKind.debug}, and level {level.debug}")

def RegressionMetricKind.metricId (metric : RegressionMetricKind) : String :=
  s!"dagml.metric.{metric.name}@1"

/-- The catalog entry of a metric. -/
def builtinMetricSpec (metric : RegressionMetricKind) : MetricSpec where
  metricId := metric.metricId
  taskKinds :=
    match metric with
    | .mse | .rmse | .mae | .r2 => {.regression}
    | .accuracy => {.binaryClassification, .multiclassClassification, .multilabelClassification}
    | .balancedAccuracy | .f1 => {.binaryClassification, .multiclassClassification}
  predictionKinds :=
    match metric with
    | .mse | .rmse | .mae | .r2 => {.regressionPoint}
    | .accuracy | .balancedAccuracy | .f1 => {.classLabel}
  supportedLevels := {.observation, .sample, .target, .group}
  decomposition := .perOutput
  reduction := .mean
  requiredInputs := {.target, .prediction}
  capabilities := {.decomposable}

-- ---------------------------------------------------------------------------
-- Tasks
-- ---------------------------------------------------------------------------

def validateToken (label value : String) : Result Unit :=
  refuseIf (value.isEmpty = true ∨ trim value ≠ value ∨ value.toList.any isWhitespace = true ∨
    value.toList.any isControl = true)
    (.campaignValidation s!"{label} must be non-blank canonical text")

inductive MetricUnitId
  | observation (id : ObservationId)
  | sample (id : SampleId)
  | target (id : TargetId)
  | group (id : GroupId)
  deriving DecidableEq

def MetricUnitId.level : MetricUnitId → PredictionLevel
  | .observation _ => .observation
  | .sample _ => .sample
  | .target _ => .target
  | .group _ => .group

/-- `MetricUnitId::from`. -/
def PredictionUnitId.toMetric : PredictionUnitId → MetricUnitId
  | .sample id => .sample id
  | .target id => .target id
  | .group id => .group id

structure MetricEvaluationScope where
  producerNode : NodeId
  producerPort : Option String
  predictionId : Option String
  variantId : Option VariantId
  partition : PredictionPartition
  foldId : Option FoldId
  level : PredictionLevel
  deriving DecidableEq

def MetricEvaluationScope.validate (self : MetricEvaluationScope) : Result Unit := do
  whenSome self.producerPort (validateToken "metric producer_port")
  whenSome self.predictionId (validateToken "metric prediction_id")

structure MetricEvaluationTask (K : Type) where
  requestId : String
  metric : MetricSpec
  taskKind : LearningTaskKind
  predictionKind : PredictionKind
  scope : MetricEvaluationScope
  unitIds : List MetricUnitId
  predictions : List (List K)
  targets : List (List K)
  outputIds : List String
  sampleWeights : Option (List K)
  missingMask : Option (List (List Bool))
  groupIds : Option (List String)

/-- `values.first().map_or(0, Vec::len)`. -/
def matrixWidth {α : Type} (values : List (List α)) : Nat :=
  match values with
  | [] => 0
  | row :: _ => row.length

def validateMatrix {α : Type} (label : String) (values : List (List α)) (expectedRows : Nat) :
    Result Nat := do
  refuseIf (values.length ≠ expectedRows) (.campaignValidation
    s!"{label} has {values.length} rows for {expectedRows} units")
  refuseIf (matrixWidth values = 0 ∨ ∃ row ∈ values, row.length ≠ matrixWidth values)
    (.campaignValidation s!"{label} is empty or ragged")
  pure (matrixWidth values)

namespace MetricEvaluationTask

def validateSampleWeights (self : MetricEvaluationTask K) (rowCount : Nat) : Result Unit :=
  match self.sampleWeights with
  | some weights => do
    refuseIf (.supportsSampleWeights ∉ self.metric.capabilities)
      (.campaignValidation "metric task supplies unsupported sample weights")
    refuseIf (weights.length ≠ rowCount ∨ (∃ weight ∈ weights, weight < 0) ∨ weights.sum ≤ 0)
      (.campaignValidation "metric sample weights are invalid")
  | none =>
    refuseIf (.sampleWeight ∈ self.metric.requiredInputs)
      (.campaignValidation "metric task is missing required sample weights")

def validateMissingMask (self : MetricEvaluationTask K) (rowCount targetWidth : Nat) :
    Result Unit :=
  match self.missingMask with
  | some mask => do
    refuseIf (.supportsMissingMask ∉ self.metric.capabilities)
      (.campaignValidation "metric task supplies unsupported missing mask")
    refuseIf (mask.length ≠ rowCount ∨ ∃ row ∈ mask, row.length ≠ targetWidth)
      (.campaignValidation "metric missing mask shape does not match targets")
  | none =>
    refuseIf (.missingMask ∈ self.metric.requiredInputs)
      (.campaignValidation "metric task is missing required missing mask")

def validateGroupIds (self : MetricEvaluationTask K) (rowCount : Nat) : Result Unit :=
  match self.groupIds with
  | some groupIds => do
    refuseIf (.group ∉ self.metric.requiredInputs)
      (.campaignValidation "metric task supplies undeclared group ids")
    refuseIf (groupIds.length ≠ rowCount)
      (.campaignValidation "metric group_ids length does not match units")
    each groupIds (validateToken "metric group_id")
  | none =>
    refuseIf (.group ∈ self.metric.requiredInputs)
      (.campaignValidation "metric task is missing required group ids")

def validateOptionalInputs (self : MetricEvaluationTask K) (rowCount targetWidth : Nat) :
    Result Unit := do
  self.validateSampleWeights rowCount
  self.validateMissingMask rowCount targetWidth
  self.validateGroupIds rowCount

def validateFields (self : MetricEvaluationTask K) : Result Unit := do
  validateToken "metric request_id" self.requestId
  self.metric.validateCompatibility self.taskKind self.predictionKind self.scope.level
  self.scope.validate
  let rowCount := self.unitIds.length
  refuseIf (rowCount = 0) (.campaignValidation "metric evaluation task has no units")
  refuseIf (∃ unit ∈ self.unitIds, unit.level ≠ self.scope.level)
    (.campaignValidation "metric evaluation unit level does not match scope")
  refuseIf (self.unitIds.toFinset.card ≠ rowCount)
    (.campaignValidation "metric evaluation task contains duplicate unit ids")
  let predictionWidth ← validateMatrix "metric predictions" self.predictions rowCount
  let targetWidth ← validateMatrix "metric targets" self.targets rowCount
  refuseIf (self.outputIds.length ≠ targetWidth ∨ self.outputIds = []) (.campaignValidation
    s!"metric output_ids length {self.outputIds.length} does not match target width {targetWidth}")
  eachUnique id (validateToken "metric output_id")
    (fun outputId => .campaignValidation s!"duplicate metric output_id `{outputId}`") self.outputIds
  refuseIf ((self.predictionKind = .regressionPoint ∨ self.predictionKind = .classLabel) ∧
    predictionWidth ≠ targetWidth) (.campaignValidation
    s!"metric prediction width {predictionWidth} does not match target width {targetWidth}")
  self.validateOptionalInputs rowCount targetWidth

end MetricEvaluationTask

-- ---------------------------------------------------------------------------
-- Results
-- ---------------------------------------------------------------------------

structure MetricEvaluationValue (K : Type) where
  unitId : Option MetricUnitId
  outputId : Option String
  value : K

structure MetricEvaluationResult (K : Type) where
  requestId : String
  semanticId : String
  scope : MetricEvaluationScope
  values : List (MetricEvaluationValue K)

namespace MetricEvaluationResult

def validateCoverage (self : MetricEvaluationResult K) (task : MetricEvaluationTask K) :
    Result Unit :=
  match task.metric.decomposition with
  | .global =>
    refuseIf (self.values.length ≠ 1 ∨
      ∃ value ∈ self.values.head?, value.unitId ≠ none ∨ value.outputId ≠ none)
      (.runtimeValidation "global metric provider result has wrong coverage")
  | .perOutput => do
    refuseIf (self.values.length ≠ task.outputIds.length)
      (.runtimeValidation "per-output metric provider result has wrong coverage")
    each (self.values.zip task.outputIds) fun entry =>
      refuseIf (entry.1.unitId ≠ none ∨ entry.1.outputId ≠ some entry.2)
        (.runtimeValidation "per-output metric provider result has wrong scope/order")
  | .perUnit => do
    refuseIf (self.values.length ≠ task.unitIds.length)
      (.runtimeValidation "per-unit metric provider result has wrong coverage")
    each (self.values.zip task.unitIds) fun entry =>
      refuseIf (entry.1.outputId ≠ none ∨ entry.1.unitId ≠ some entry.2)
        (.runtimeValidation "per-unit metric provider result has wrong scope/order")

def validateAgainst (self : MetricEvaluationResult K) (task : MetricEvaluationTask K) :
    Result Unit := do
  refuseIf (self.requestId ≠ task.requestId ∨ self.semanticId ≠ task.metric.metricId)
    (.runtimeValidation "metric provider identity/fingerprint does not match task")
  refuseIf (self.scope ≠ task.scope)
    (.runtimeValidation "metric provider result scope does not match task")
  refuseIf (self.values = []) (.runtimeValidation "metric provider returned no values")
  self.validateCoverage task

def ofTask (task : MetricEvaluationTask K) (values : List (MetricEvaluationValue K)) :
    MetricEvaluationResult K where
  requestId := task.requestId
  semanticId := task.metric.metricId
  scope := task.scope
  values

def forTask (task : MetricEvaluationTask K) (values : List (MetricEvaluationValue K)) :
    Result (MetricEvaluationResult K) := do
  (ofTask task values).validateAgainst task
  pure (ofTask task values)

def reduce (self : MetricEvaluationResult K) (task : MetricEvaluationTask K) : Result K :=
  let values := self.values.map (·.value)
  match task.metric.reduction with
  | .global => need values.head? (.panicked "index out of bounds")
  | .mean => pure (values.sum / values.length)
  | .sum => pure values.sum
  | .weightedMean => do
    let weights ← need task.sampleWeights
      (.runtimeValidation "weighted metric reduction has no sample weights")
    pure ((List.zipWith (· * ·) values weights).sum / weights.sum)

end MetricEvaluationResult

structure ValidatedMetricEvaluation (K : Type) where
  result : MetricEvaluationResult K
  aggregate : K

variable [FloorRing K]

/-- What a built-in provider answers. -/
def RegressionMetricKind.evaluateValues (self : RegressionMetricKind) (sqrt : K → K)
    (task : MetricEvaluationTask K) : List (MetricEvaluationValue K) :=
  let values := ScoredColumn.perTarget sqrt self task.outputIds.length task.predictions task.targets
  (values.zip task.outputIds).map fun entry => ⟨none, some entry.2, entry.1⟩

def RegressionMetricKind.evaluateValidated (self : RegressionMetricKind) (sqrt : K → K)
    (task : MetricEvaluationTask K) : Result (MetricEvaluationResult K) := do
  refuseIf (task.metric.metricId ≠ self.metricId) (.runtimeValidation
    s!"built-in provider `{self.name}` cannot evaluate `{task.metric.metricId}`")
  MetricEvaluationResult.forTask task (self.evaluateValues sqrt task)

/-- The providers `builtin_metric_registry` holds, each under the id of its metric. -/
def builtinMetricRegistry : List RegressionMetricKind :=
  [.mse, .rmse, .mae, .r2, .accuracy, .balancedAccuracy, .f1]

def evaluateMetric (sqrt : K → K) (task : MetricEvaluationTask K) :
    Result (ValidatedMetricEvaluation K) := do
  task.validateFields
  let provider ← need (builtinMetricRegistry.find? (·.metricId = task.metric.metricId))
    (.runtimeValidation
      s!"local implementation registry has no implementation for `{task.metric.metricId}`")
  let result ← provider.evaluateValidated sqrt task
  result.validateAgainst task
  let aggregate ← result.reduce task
  pure ⟨result, aggregate⟩

-- ---------------------------------------------------------------------------
-- Built-in metrics
-- ---------------------------------------------------------------------------

section

variable {sqrt : K → K} {metric : RegressionMetricKind} {task : MetricEvaluationTask K}

theorem find_builtinMetricRegistry (metric : RegressionMetricKind) :
    builtinMetricRegistry.find? (·.metricId = metric.metricId) = some metric := by
  cases metric <;> decide

@[simp] theorem length_perTarget {width : Nat} {predictions targets : List (List K)} :
    (ScoredColumn.perTarget sqrt metric width predictions targets).length = width := by
  simp [ScoredColumn.perTarget]

/-- The values of an answer are the scores of the columns, in order. -/
theorem map_value_evaluateValues :
    (metric.evaluateValues sqrt task).map (·.value) =
      ScoredColumn.perTarget sqrt metric task.outputIds.length task.predictions task.targets := by
  rw [RegressionMetricKind.evaluateValues, List.map_map]
  exact List.map_fst_zip (by simp)

omit [FloorRing K] in
theorem MetricEvaluationTask.outputIds_ne_nil (h : task.validateFields = .ok u) :
    task.outputIds ≠ [] := by
  simp only [validateFields, bind_ok, refuseIf_ok, not_or] at h
  obtain ⟨_, -, _, -, _, -, _, -, _, -, _, -, _, -, _, -, _, ⟨-, hne⟩, -⟩ := h
  exact hne

theorem validateAgainst_evaluateValues (hspec : task.metric = builtinMetricSpec metric)
    (hne : task.outputIds ≠ []) :
    (MetricEvaluationResult.ofTask task (metric.evaluateValues sqrt task)).validateAgainst task =
      .ok () := by
  have hlength : (metric.evaluateValues sqrt task).length = task.outputIds.length := by
    simp [RegressionMetricKind.evaluateValues]
  have hvalues : metric.evaluateValues sqrt task ≠ [] := by
    rw [← List.length_pos_iff, hlength, List.length_pos_iff]
    exact hne
  have hcoverage : (MetricEvaluationResult.ofTask task
      (metric.evaluateValues sqrt task)).validateCoverage task = .ok () := by
    simp only [MetricEvaluationResult.validateCoverage, hspec, builtinMetricSpec,
      MetricEvaluationResult.ofTask, bind_ok, refuseIf_ok, each_ok, not_or, not_not]
    refine ⟨(), hlength, fun entry hentry => ?_⟩
    obtain ⟨i, hi⟩ := List.getElem?_of_mem hentry
    simp only [RegressionMetricKind.evaluateValues, List.getElem?_zip_eq_some, List.getElem?_map,
      Option.map_eq_some_iff] at hi
    obtain ⟨⟨pair, ⟨-, hpair⟩, hvalue⟩, houtput⟩ := hi
    rw [hpair] at houtput
    rw [← hvalue]
    exact ⟨rfl, houtput⟩
  simp only [MetricEvaluationResult.validateAgainst, bind_ok, refuseIf_ok, not_or, not_not]
  exact ⟨(), ⟨rfl, rfl⟩, (), rfl, (), hvalues, hcoverage⟩

/-- A built-in metric answers every task that is valid. -/
theorem evaluateMetric_ok {evaluation : ValidatedMetricEvaluation K}
    (hspec : task.metric = builtinMetricSpec metric) :
    evaluateMetric sqrt task = .ok evaluation ↔ task.validateFields = .ok () ∧
      evaluation = ⟨.ofTask task (metric.evaluateValues sqrt task), ScoredColumn.mean
        (ScoredColumn.perTarget sqrt metric task.outputIds.length task.predictions task.targets)⟩ := by
  have hid : task.metric.metricId = metric.metricId := by rw [hspec]; rfl
  have hreduce : (MetricEvaluationResult.ofTask task (metric.evaluateValues sqrt task)).reduce task =
      .ok (ScoredColumn.mean (ScoredColumn.perTarget sqrt metric task.outputIds.length
        task.predictions task.targets)) := by
    simp only [MetricEvaluationResult.reduce, hspec, builtinMetricSpec, MetricEvaluationResult.ofTask,
      map_value_evaluateValues]
    rfl
  simp only [evaluateMetric, RegressionMetricKind.evaluateValidated, MetricEvaluationResult.forTask,
    hid, find_builtinMetricRegistry, need_ok, Option.some.injEq, bind_ok, pure_ok, refuseIf_ok,
    not_not]
  constructor
  · rintro ⟨_, hfields, _, rfl, _, ⟨_, -, _, -, rfl⟩, _, -, _, haggregate, rfl⟩
    obtain rfl := Except.ok.inj (hreduce.symm.trans haggregate)
    exact ⟨hfields, rfl⟩
  · rintro ⟨hfields, rfl⟩
    have hvalid : (MetricEvaluationResult.ofTask task
        (metric.evaluateValues sqrt task)).validateAgainst task = .ok () :=
      validateAgainst_evaluateValues hspec (MetricEvaluationTask.outputIds_ne_nil hfields)
    exact ⟨(), hfields, metric, rfl, _, ⟨(), rfl, (), hvalid, rfl⟩, (), hvalid, _, hreduce, rfl⟩

end

end DagMl

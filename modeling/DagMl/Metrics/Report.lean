import DagMl.Metrics.Kernel
import DagMl.Metrics.Targets
import DagMl.Selection.Select

/-!
# Metric reports

The scores of one block, the fitted target domain they may carry, and the
candidate a report becomes in a selection.
-/

namespace DagMl

open Checked

-- ---------------------------------------------------------------------------
-- Target domains
-- ---------------------------------------------------------------------------

/-- The error of the target-domain module. -/
def invalidDomain (message : String) : DagMlError :=
  .runtimeValidation s!"fold-local target domain: {message}"

/-- Sixty-four lower-case hexadecimal digits. -/
def isSha (value : String) : Bool :=
  value.utf8ByteSize = 64 && value.toList.all fun c => c.isDigit || ('a' ≤ c && c ≤ 'f')

/-- The labels are `0.0, 1.0, ...`, two at least. -/
def labelsValid (labels : List Binary64) : Bool :=
  2 ≤ labels.length && labels.zipIdx.all fun entry => entry.1.eq (.ofNat entry.2)

/-- `==` on lists of floats. -/
def labelsEq (labels labels' : List Binary64) : Bool :=
  labels.length = labels'.length && (labels.zip labels').all fun pair => pair.1.eq pair.2

structure TargetDomainPolicy where
  schemaVersion : Nat
  mode : String
  nodeId : NodeId
  recipeFingerprint : String
  classLabels : List Binary64

structure TargetDomain where
  schemaVersion : Nat
  recipeFingerprint : String
  stateJson : String
  stateFingerprint : String
  fitSampleIds : List SampleId
  classLabels : List Binary64

/-- Reading a fitted state: refused unless it is a strict JSON object without
runtime handles, else its SHA-256 in hexadecimal. -/
abbrev StateReader := String → Result String

namespace TargetDomain

variable (readState : StateReader)

def validate (self : TargetDomain) : Result Unit := do
  refuseIf (self.schemaVersion ≠ 1 ∨ isSha self.recipeFingerprint = false ∨
    isSha self.stateFingerprint = false ∨ labelsValid self.classLabels = false ∨
    1048576 < self.stateJson.utf8ByteSize ∨ self.fitSampleIds = [] ∨
    ¬self.fitSampleIds.Pairwise (· < ·)) (invalidDomain "invalid fitted-state contract")
  let fingerprint ← readState self.stateJson
  refuseIf (fingerprint ≠ self.stateFingerprint)
    (invalidDomain "fitted-state fingerprint mismatch")

def validatePolicy (self : TargetDomain) (policy : TargetDomainPolicy) : Result Unit := do
  self.validate readState
  refuseIf (self.recipeFingerprint ≠ policy.recipeFingerprint ∨
    labelsEq self.classLabels policy.classLabels = false)
    (invalidDomain "fitted state differs from signed recipe or class vocabulary")

/-- `==`. -/
def eq (a b : TargetDomain) : Bool :=
  a.schemaVersion = b.schemaVersion && a.recipeFingerprint = b.recipeFingerprint &&
    a.stateJson = b.stateJson && a.stateFingerprint = b.stateFingerprint &&
    a.fitSampleIds = b.fitSampleIds && labelsEq a.classLabels b.classLabels

end TargetDomain

-- ---------------------------------------------------------------------------
-- Reports
-- ---------------------------------------------------------------------------

structure RegressionMetricReport where
  targetDomain : Option TargetDomain := none
  groupingKey : Option AggregationGroupingKey := none
  predictionId : Option String
  producerNode : NodeId
  producerPort : Option String
  variantId : Option VariantId := none
  variantLabel : Option String := none
  partition : PredictionPartition
  foldId : Option FoldId
  level : PredictionLevel
  rowCount : Nat
  targetWidth : Nat
  targetNames : List String
  metrics : BTreeMap String Binary64

/-- The name a partition is serialized under. -/
def PredictionPartition.wireName : PredictionPartition → String
  | .train => "train"
  | .trainPool => "train_pool"
  | .validation => "validation"
  | .test => "test"
  | .final => "final"

def AggregationGroupingKey.toValue (self : AggregationGroupingKey) : JsonValue :=
  .object [("key", .string self.key), ("kind", .string "relation_metadata")]

namespace RegressionMetricReport

def validate (readState : StateReader) (self : RegressionMetricReport) : Result Unit := do
  whenSome self.targetDomain fun domain => do
    domain.validate readState
    refuseIf (self.level ≠ .sample ∨ self.targetWidth ≠ 1)
      (.oofValidation "categorical target domain requires mono-y sample score")
  whenSome self.groupingKey fun key => do
    key.validate
    refuseIf (self.level ≠ .group) (.oofValidation "grouping_key requires a Group score report")
  refuseIf (self.rowCount = 0) (.oofValidation "regression metric report has zero rows")
  refuseIf (self.targetWidth = 0) (.oofValidation "regression metric report has zero target width")
  refuseIf (self.targetNames ≠ [] ∧ self.targetNames.length ≠ self.targetWidth) (.oofValidation
    s!"regression metric report has {self.targetNames.length} target names for width {self.targetWidth}")
  refuseIf (self.metrics.isEmpty = true) (.oofValidation "regression metric report has no metrics")
  each self.metrics.toList fun (name, value) => do
    refuseIf (isBlank name = true)
      (.oofValidation "regression metric report contains an empty metric name")
    refuseIf (value.isFinite = false) (.oofValidation s!"regression metric `{name}` is not finite")

/-- What the candidate of a report keeps of it beside the metrics. -/
def metadata (self : RegressionMetricReport) : BTreeMap String JsonValue :=
  let optional (key : String) (value : Option JsonValue) (metadata : BTreeMap String JsonValue) :=
    match value with
    | some value => metadata.insert key value
    | none => metadata
  let metadata := ((((∅ : BTreeMap String JsonValue).insert "producer_node"
    (.string self.producerNode.value)).insert "partition" (.string self.partition.wireName)).insert
    "metric_level" (.string (predictionLevelName self.level))).insert "row_count"
    (.number (.posInt (.ofNat self.rowCount)))
  let metadata := metadata.insert "target_width" (.number (.posInt (.ofNat self.targetWidth)))
  let metadata := optional "prediction_id" (self.predictionId.map .string) metadata
  let metadata := optional "producer_port" (self.producerPort.map .string) metadata
  let metadata := optional "fold_id" (self.foldId.map fun id => .string id.value) metadata
  let metadata := optional "variant_id" (self.variantId.map fun id => .string id.value) metadata
  let metadata := if self.targetNames = [] then metadata
    else metadata.insert "target_names" (.array (self.targetNames.map .string))
  optional "grouping_key" (self.groupingKey.map (·.toValue)) metadata

def intoCandidateScore (readState : StateReader) (self : RegressionMetricReport)
    (candidateId : String) : Result CandidateScore := do
  self.validate readState
  let score : CandidateScore := { candidateId, metrics := self.metrics, metadata := self.metadata }
  score.validate
  pure score

end RegressionMetricReport

end DagMl

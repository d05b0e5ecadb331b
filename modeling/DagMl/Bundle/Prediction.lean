import DagMl.Aggregation.Sample
import DagMl.Runtime.Artifact
import DagMl.Runtime.ArtifactStore
import DagMl.Runtime.Externals

/-!
# Prediction contracts of a bundle

A bundle names the out-of-fold predictions a refit replay needs, one
requirement for each edge, and describes the cached blocks of each by a
record. A payload is the blocks themselves, sealed by a fingerprint.
-/

namespace DagMl

open Checked

-- ---------------------------------------------------------------------------
-- Serialized blocks
-- ---------------------------------------------------------------------------

def optionValue : Option String → JsonValue
  | none => .null
  | some s => .string s

/-- A float that is not finite is written as `null`. -/
def floatValue (x : Binary64) : JsonValue := if x.isFinite then .number (.float x) else .null

def rowsValue (rows : List (List Binary64)) : JsonValue :=
  .array (rows.map fun row => .array (row.map floatValue))

def namesValue (names : List String) : JsonValue := .array (names.map .string)

def PredictionPartition.name : PredictionPartition → String
  | .train => "train"
  | .trainPool => "train_pool"
  | .validation => "validation"
  | .test => "test"
  | .final => "final"

def PredictionLevel.name : PredictionLevel → String
  | .observation => "observation"
  | .sample => "sample"
  | .target => "target"
  | .group => "group"

def PredictionUnitId.toValue (self : PredictionUnitId) : JsonValue :=
  .record [("level", some (.string self.level.name)), ("id", some (.string self.orderKey.2))]

def PredictionBlock.toValue (self : PredictionBlock) : JsonValue :=
  .record [
    ("prediction_id", some (optionValue self.predictionId)),
    ("producer_node", some (.string self.producerNode.value)),
    ("producer_port", self.producerPort.map .string),
    ("partition", some (.string self.partition.name)),
    ("fold_id", some (optionValue (self.foldId.map Id.value))),
    ("sample_ids", some (namesValue (self.sampleIds.map Id.value))),
    ("values", some (rowsValue self.values)),
    ("target_names", some (namesValue self.targetNames))]

def AggregatedPredictionBlock.toValue (self : AggregatedPredictionBlock) : JsonValue :=
  .record [
    ("prediction_id", some (optionValue self.predictionId)),
    ("producer_node", some (.string self.producerNode.value)),
    ("producer_port", self.producerPort.map .string),
    ("partition", some (.string self.partition.name)),
    ("fold_id", some (optionValue (self.foldId.map Id.value))),
    ("level", some (.string self.level.name)),
    ("unit_ids", some (.array (self.unitIds.map PredictionUnitId.toValue))),
    ("values", some (rowsValue self.values)),
    ("target_names", some (namesValue self.targetNames))]

-- ---------------------------------------------------------------------------
-- Shared checks
-- ---------------------------------------------------------------------------

def validateNonEmpty (label value : String) : Result Unit :=
  refuseIf (isBlank value) (.runtimeValidation s!"{label} is empty")

def validateUniqueIds [DecidableEq α] [ToString α] (label : String) (values : List α) :
    Result Unit := do
  let _ ← unique (fun value => DagMlError.runtimeValidation s!"duplicate {label} `{value}`") values

def samplePredictionUnits (sampleIds : List SampleId) : List PredictionUnitId :=
  sampleIds.map .sample

def validatePredictionUnits (label : String) (expectedLevel : PredictionLevel)
    (unitIds : List PredictionUnitId) : Result Unit := do
  validateUniqueIds label unitIds
  each unitIds fun unitId => refuseIf (unitId.level ≠ expectedLevel) (.runtimeValidation
    s!"{label} `{unitId}` does not match prediction level {expectedLevel.debug}")

/-- The rows of a requirement, a record or one of its blocks are named by
sample ids at sample level and by unit ids above it. `who` opens the messages,
`covers` is the owner's own check of its row count against the ids. -/
def validateLevelUnits (who unitLabel observation : String) (level : PredictionLevel)
    (sampleIds : List SampleId) (unitIds : List PredictionUnitId)
    (covers : List String → Result Unit) : Result Unit :=
  match level with
  | .observation => .error (.runtimeValidation s!"{who} {observation}")
  | .sample => do
    validateUniqueIds "sample id" sampleIds
    covers (sampleIds.map Id.value)
    refuseIf (unitIds ≠ [] ∧ unitIds ≠ samplePredictionUnits sampleIds)
      (.runtimeValidation s!"{who} sample ids do not match unit ids")
  | .target | .group => do
    refuseIf (sampleIds ≠ []) (.runtimeValidation
      s!"{who} uses {level.debug} unit ids but also carries sample ids")
    validatePredictionUnits unitLabel level unitIds
    covers (unitIds.map PredictionUnitId.display)

-- ---------------------------------------------------------------------------
-- Requirements
-- ---------------------------------------------------------------------------

structure BundlePredictionRequirement where
  producerNode : NodeId
  sourcePort : String
  consumerNode : NodeId
  targetPort : String
  partition : PredictionPartition
  predictionLevel : PredictionLevel
  foldIds : List FoldId
  unitIds : List PredictionUnitId
  sampleIds : List SampleId
  predictionWidth : Nat
  targetNames : List String
  deriving DecidableEq

namespace BundlePredictionRequirement

def key (self : BundlePredictionRequirement) : String :=
  bundlePredictionRequirementKey self.producerNode self.sourcePort self.consumerNode
    self.targetPort

/-- `validate_prediction_requirement_units`. -/
def validateUnits (self : BundlePredictionRequirement) : Result Unit :=
  let who := s!"bundle prediction requirement `{self.key}`"
  let ids := if self.predictionLevel = .sample then "sample ids" else "unit ids"
  validateLevelUnits who "bundle prediction requirement unit"
    "cannot replay observation-level caches; aggregate to sample first"
    self.predictionLevel self.sampleIds self.unitIds fun rows =>
      refuseIf rows.isEmpty (.runtimeValidation s!"{who} has no {ids}")

def validate (self : BundlePredictionRequirement) : Result Unit := do
  validateNonEmpty "source_port" self.sourcePort
  validateNonEmpty "target_port" self.targetPort
  refuseIf (self.partition ≠ .validation) (.runtimeValidation
    s!"bundle prediction requirement `{self.key}` must use validation OOF predictions")
  validateUniqueIds "fold id" self.foldIds
  self.validateUnits
  refuseIf (self.predictionWidth = 0) (.runtimeValidation
    s!"bundle prediction requirement `{self.key}` has zero prediction width")
  refuseIf (self.targetNames.length ≠ self.predictionWidth) (.runtimeValidation
    s!"bundle prediction requirement `{self.key}` target name count does not match prediction width")
  each self.targetNames (validateNonEmpty "target_name")

end BundlePredictionRequirement

-- ---------------------------------------------------------------------------
-- Cache records
-- ---------------------------------------------------------------------------

structure BundlePredictionBlockCacheRecord where
  predictionId : Option String
  foldId : Option FoldId
  predictionLevel : PredictionLevel
  rowCount : Nat
  unitIds : List PredictionUnitId
  sampleIds : List SampleId
  contentFingerprint : String
  deriving DecidableEq

namespace BundlePredictionBlockCacheRecord

def validateUnits (self : BundlePredictionBlockCacheRecord) : Result Unit :=
  let ids := if self.predictionLevel = .sample then "sample ids" else "unit ids"
  validateLevelUnits "prediction block cache record" "prediction block cache record unit"
    "cannot use observation-level predictions" self.predictionLevel self.sampleIds self.unitIds
    fun rows => refuseIf (self.rowCount ≠ rows.length) (.runtimeValidation
      s!"prediction block cache record row_count {self.rowCount} does not match {rows.length} {ids}")

def validate (self : BundlePredictionBlockCacheRecord) : Result Unit := do
  whenSome self.predictionId (validateNonEmpty "prediction_id")
  refuseIf (self.rowCount = 0) (.runtimeValidation "prediction block cache record has zero rows")
  self.validateUnits
  validateRuntimeFingerprint "prediction block cache content" self.contentFingerprint

end BundlePredictionBlockCacheRecord

def legacyBundlePredictionCacheFormat : String := "dag-ml-json-prediction-blocks-v1"
def bundlePredictionCacheFormat : String := "dag-ml-json-prediction-blocks-v2"
def legacyPredictionCachePayloadSchemaVersion : Nat := 1
def predictionCachePayloadSchemaVersion : Nat := 2

def supportedPredictionCacheFormat (format : String) : Bool :=
  format = legacyBundlePredictionCacheFormat || format = bundlePredictionCacheFormat

def validatePredictionCacheNamespaceFingerprints (cacheId : String) (fingerprints : List String) :
    Result Unit := do
  let _ ← loop (fun (seen : Finset String) fingerprint => do
    validateRuntimeFingerprint "prediction cache namespace" fingerprint
    refuseIf (fingerprint ∈ seen) (.runtimeValidation
      s!"prediction cache `{cacheId}` has duplicate cache namespace fingerprint `{fingerprint}`")
    pure (insert fingerprint seen)) ∅ fingerprints

structure BundlePredictionCacheRecord where
  requirementKey : String
  cacheId : String
  cacheNamespaceFingerprints : List String
  format : String
  partition : PredictionPartition
  predictionLevel : PredictionLevel
  foldIds : List FoldId
  unitIds : List PredictionUnitId
  sampleIds : List SampleId
  predictionWidth : Nat
  targetNames : List String
  blockCount : Nat
  rowCount : Nat
  contentFingerprint : String
  blocks : List BundlePredictionBlockCacheRecord
  deriving DecidableEq

namespace BundlePredictionCacheRecord

/-- `validate_prediction_cache_record_units`: repeated validation scores a
sample in several folds, so rows may outnumber the ids. -/
def validateUnits (self : BundlePredictionCacheRecord) : Result Unit :=
  let who := s!"prediction cache `{self.cacheId}`"
  let ids := if self.predictionLevel = .sample then "sample ids" else "unit ids"
  validateLevelUnits who "prediction cache unit" "cannot use observation-level predictions"
    self.predictionLevel self.sampleIds self.unitIds fun rows =>
      refuseIf (self.rowCount < rows.length)
        (.runtimeValidation s!"{who} row_count does not match unique {ids}")

/-- `!fold_rows.insert((fold_id, row))` over the rows of one block. -/
def coverFold [DecidableEq ρ] (dup : ρ → DagMlError) (foldId : Option FoldId) (rows : List ρ)
    (covered : Finset (Option FoldId × ρ)) : Result (Finset (Option FoldId × ρ)) :=
  insertUnique (fun row => dup row.2) covered (rows.map fun row => (foldId, row))

/-- What the loop over the block records gathers. -/
structure Gathered where
  rowCount : Nat
  foldSamples : Finset (Option FoldId × SampleId)
  foldUnits : Finset (Option FoldId × PredictionUnitId)

def gatherBlock (self : BundlePredictionCacheRecord) (gathered : Gathered)
    (block : BundlePredictionBlockCacheRecord) : Result Gathered := do
  block.validate
  refuseIf (block.predictionLevel ≠ self.predictionLevel)
    (.runtimeValidation s!"prediction cache `{self.cacheId}` mixes block prediction levels")
  let rowCount := gathered.rowCount + block.rowCount
  match self.predictionLevel with
  | .sample =>
    let foldSamples ← coverFold (fun s => .runtimeValidation
      s!"prediction cache `{self.cacheId}` contains duplicate sample `{s}` in one fold")
      block.foldId block.sampleIds gathered.foldSamples
    pure { gathered with rowCount, foldSamples }
  | .target | .group =>
    let foldUnits ← coverFold (fun unitId => .runtimeValidation
      s!"prediction cache `{self.cacheId}` contains duplicate unit `{unitId}` in one fold")
      block.foldId block.unitIds gathered.foldUnits
    pure { gathered with rowCount, foldUnits }
  | .observation => throw (.panicked "record unit validation rejects observation")

/-- `validate_prediction_cache_record_blocks`. -/
def validateBlocks (self : BundlePredictionCacheRecord) : Result Unit := do
  let gathered ← loop self.gatherBlock ⟨0, ∅, ∅⟩ self.blocks
  refuseIf (self.rowCount = 0 ∨ self.rowCount ≠ gathered.rowCount) (.runtimeValidation
    s!"prediction cache `{self.cacheId}` row_count does not match block records")
  if self.predictionLevel = .sample then
    refuseIf (gathered.foldSamples.image Prod.snd ≠ self.sampleIds.toFinset) (.runtimeValidation
      s!"prediction cache `{self.cacheId}` block samples do not match cache sample ids")
  else
    refuseIf (gathered.foldUnits.image Prod.snd ≠ self.unitIds.toFinset) (.runtimeValidation
      s!"prediction cache `{self.cacheId}` block units do not match cache unit ids")

def validate (self : BundlePredictionCacheRecord) : Result Unit := do
  validateNonEmpty "requirement_key" self.requirementKey
  validateNonEmpty "cache_id" self.cacheId
  validatePredictionCacheNamespaceFingerprints self.cacheId self.cacheNamespaceFingerprints
  validateNonEmpty "format" self.format
  refuseIf (!supportedPredictionCacheFormat self.format) (.runtimeValidation
    s!"prediction cache `{self.cacheId}` uses unsupported format `{self.format}`")
  refuseIf (self.partition ≠ .validation) (.runtimeValidation
    s!"prediction cache `{self.cacheId}` must cache validation OOF predictions")
  validateUniqueIds "fold id" self.foldIds
  self.validateUnits
  refuseIf (self.predictionWidth = 0)
    (.runtimeValidation s!"prediction cache `{self.cacheId}` has zero prediction width")
  refuseIf (self.targetNames.length ≠ self.predictionWidth) (.runtimeValidation
    s!"prediction cache `{self.cacheId}` target name count does not match prediction width")
  each self.targetNames (validateNonEmpty "target_name")
  refuseIf (self.blockCount = 0 ∨ self.blockCount ≠ self.blocks.length) (.runtimeValidation
    s!"prediction cache `{self.cacheId}` block_count does not match block records")
  refuseIf (self.cacheNamespaceFingerprints ≠ [] ∧
      self.cacheNamespaceFingerprints.length ≠ self.blockCount) (.runtimeValidation
    s!"prediction cache `{self.cacheId}` namespace fingerprint count does not match block_count")
  self.validateBlocks
  validateRuntimeFingerprint "prediction cache content" self.contentFingerprint

end BundlePredictionCacheRecord

def validatePredictionCacheMatchesRequirement (cache : BundlePredictionCacheRecord)
    (requirement : BundlePredictionRequirement) : Result Unit :=
  refuseIf (cache.requirementKey ≠ requirement.key ∨ cache.partition ≠ requirement.partition ∨
      cache.predictionLevel ≠ requirement.predictionLevel ∨ cache.foldIds ≠ requirement.foldIds ∨
      cache.unitIds ≠ requirement.unitIds ∨ cache.sampleIds ≠ requirement.sampleIds ∨
      cache.predictionWidth ≠ requirement.predictionWidth ∨
      cache.targetNames ≠ requirement.targetNames) (.runtimeValidation
    s!"prediction cache `{cache.cacheId}` does not match requirement `{requirement.key}`")

end DagMl

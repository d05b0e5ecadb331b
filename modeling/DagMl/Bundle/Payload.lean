import DagMl.Bundle.Prediction

/-!
# Prediction cache payloads

Selecting a requirement's blocks, sealing them, and holding them against the
record of the bundle. Sample blocks and aggregated blocks go through the same
steps; `BlockKind` is what the steps read of either.
-/

namespace DagMl

open Checked

structure BundlePredictionCachePayload where
  requirementKey : String
  cacheId : String
  cacheNamespaceFingerprints : List String
  format : String
  partition : PredictionPartition
  predictionLevel : PredictionLevel
  blockCount : Nat
  rowCount : Nat
  contentFingerprint : String
  blocks : List PredictionBlock
  aggregatedBlocks : List AggregatedPredictionBlock

/-- One kind of cached block; `label` is empty or `aggregated ` in the messages. -/
structure BlockKind (β : Type) where
  label : String
  predictionId : β → Option String
  producerNode : β → NodeId
  producerPort : β → Option String
  partition : β → PredictionPartition
  foldId : β → Option FoldId
  level : β → PredictionLevel
  /-- The level test of a scope; sample blocks carry no level. -/
  inLevel : BundlePredictionRequirement → β → Bool
  sampleIds : β → List SampleId
  unitIds : β → List PredictionUnitId
  rowCount : β → Nat
  targetNames : β → List String
  validateShape : β → Result Nat
  toValue : β → JsonValue

def sampleKind : BlockKind PredictionBlock where
  label := ""
  predictionId := (·.predictionId)
  producerNode := (·.producerNode)
  producerPort := (·.producerPort)
  partition := (·.partition)
  foldId := (·.foldId)
  level := fun _ => .sample
  inLevel := fun _ _ => true
  sampleIds := (·.sampleIds)
  unitIds := fun _ => []
  rowCount := (·.sampleIds.length)
  targetNames := (·.targetNames)
  validateShape := (·.validateShape)
  toValue := (·.toValue)

def aggregatedKind : BlockKind AggregatedPredictionBlock where
  label := "aggregated "
  predictionId := (·.predictionId)
  producerNode := (·.producerNode)
  producerPort := (·.producerPort)
  partition := (·.partition)
  foldId := (·.foldId)
  level := (·.level)
  inLevel := fun requirement block => block.level = requirement.predictionLevel
  sampleIds := fun _ => []
  unitIds := (·.unitIds)
  rowCount := (·.unitIds.length)
  targetNames := (·.targetNames)
  validateShape := (·.validateShape)
  toValue := (·.toValue)

-- ---------------------------------------------------------------------------
-- Validation of a payload
-- ---------------------------------------------------------------------------

namespace BundlePredictionCachePayload

def coverSampleBlock (self : BundlePredictionCachePayload)
    (state : Nat × Finset (Option FoldId × SampleId)) (block : PredictionBlock) :
    Result (Nat × Finset (Option FoldId × SampleId)) := do
  let _ ← block.validateShape
  refuseIf (block.partition ≠ self.partition) (.runtimeValidation
    s!"prediction cache payload `{self.cacheId}` contains a block from partition {block.partition.debug}")
  let covered ← BundlePredictionCacheRecord.coverFold (fun s => .runtimeValidation
    s!"prediction cache payload `{self.cacheId}` contains duplicate sample `{s}` in one fold")
    block.foldId block.sampleIds state.2
  pure (state.1 + block.sampleIds.length, covered)

def coverAggregatedBlock (self : BundlePredictionCachePayload)
    (state : Nat × Finset (Option FoldId × PredictionUnitId)) (block : AggregatedPredictionBlock) :
    Result (Nat × Finset (Option FoldId × PredictionUnitId)) := do
  let _ ← block.validateShape
  refuseIf (block.partition ≠ self.partition) (.runtimeValidation
    s!"prediction cache payload `{self.cacheId}` contains an aggregated block from partition {block.partition.debug}")
  refuseIf (block.level ≠ self.predictionLevel) (.runtimeValidation
    s!"prediction cache payload `{self.cacheId}` contains {block.level.debug} block inside {self.predictionLevel.debug} payload")
  let covered ← BundlePredictionCacheRecord.coverFold (fun unitId => .runtimeValidation
    s!"prediction cache payload `{self.cacheId}` contains duplicate unit `{unitId}` in one fold")
    block.foldId block.unitIds state.2
  pure (state.1 + block.unitIds.length, covered)

/-- `validate_prediction_cache_payload_blocks`: the number of rows. -/
def validateBlocks (self : BundlePredictionCachePayload) : Result Nat :=
  match self.predictionLevel with
  | .observation => .error (.runtimeValidation
      s!"prediction cache payload `{self.cacheId}` cannot use observation-level predictions")
  | .sample => do
    let state ← loop self.coverSampleBlock (0, ∅) self.blocks
    pure state.1
  | .target | .group => do
    let state ← loop self.coverAggregatedBlock (0, ∅) self.aggregatedBlocks
    pure state.1

end BundlePredictionCachePayload

def predictionCacheSchemaVersionForFormat (format owner : String) : Result Nat :=
  if format = legacyBundlePredictionCacheFormat then .ok legacyPredictionCachePayloadSchemaVersion
  else if format = bundlePredictionCacheFormat then .ok predictionCachePayloadSchemaVersion
  else .error (.runtimeValidation s!"{owner} uses unsupported cache format `{format}`")

def validatePredictionBlockPortFamily (producerPort : Option String) (schemaVersion : Nat)
    (owner : String) : Result Unit :=
  if schemaVersion = legacyPredictionCachePayloadSchemaVersion then
    vacant producerPort fun _ => .runtimeValidation s!"{owner} is V1 but carries producer_port"
  else if schemaVersion = predictionCachePayloadSchemaVersion then do
    let port ← need producerPort
      (.runtimeValidation s!"{owner} is V2 and requires producer_port")
    refuseIf (isBlank port) (.runtimeValidation s!"{owner} is V2 but carries an empty producer_port")
  else .ok ()

namespace BundlePredictionCachePayload

variable (externals : Externals) (self : BundlePredictionCachePayload)

/-- `validate_prediction_cache_payload_block_family`. -/
def validateBlockFamily (schemaVersion : Nat) : Result Unit := do
  each self.blocks fun block => validatePredictionBlockPortFamily block.producerPort schemaVersion
    s!"prediction cache payload `{self.cacheId}` block for node `{block.producerNode}`"
  each self.aggregatedBlocks fun block =>
    validatePredictionBlockPortFamily block.producerPort schemaVersion
      s!"prediction cache payload `{self.cacheId}` aggregated block for node `{block.producerNode}`"

/-- The blocks of the payload's own level, and that it carries no others. -/
def expectedBlockCount : Result Nat :=
  if self.predictionLevel = .sample then do
    refuseIf (self.aggregatedBlocks ≠ []) (.runtimeValidation
      s!"prediction cache payload `{self.cacheId}` mixes sample and aggregated blocks")
    pure self.blocks.length
  else do
    refuseIf (self.blocks ≠ []) (.runtimeValidation
      s!"prediction cache payload `{self.cacheId}` mixes aggregated and sample blocks")
    pure self.aggregatedBlocks.length

def actualFingerprint : String :=
  stableJsonFingerprint externals (.array (
    if self.predictionLevel = .sample then self.blocks.map PredictionBlock.toValue
    else self.aggregatedBlocks.map AggregatedPredictionBlock.toValue))

def validate : Result Unit := do
  validateNonEmpty "requirement_key" self.requirementKey
  validateNonEmpty "cache_id" self.cacheId
  validatePredictionCacheNamespaceFingerprints self.cacheId self.cacheNamespaceFingerprints
  validateNonEmpty "format" self.format
  refuseIf (!supportedPredictionCacheFormat self.format) (.runtimeValidation
    s!"prediction cache payload `{self.cacheId}` uses unsupported format `{self.format}`")
  let payloadSchemaVersion ← predictionCacheSchemaVersionForFormat self.format
    s!"prediction cache payload `{self.cacheId}`"
  refuseIf (self.partition ≠ .validation) (.runtimeValidation
    s!"prediction cache payload `{self.cacheId}` must cache validation OOF predictions")
  let expectedBlockCount ← self.expectedBlockCount
  refuseIf (self.blockCount = 0 ∨ self.blockCount ≠ expectedBlockCount) (.runtimeValidation
    s!"prediction cache payload `{self.cacheId}` block_count does not match blocks")
  refuseIf (self.cacheNamespaceFingerprints ≠ [] ∧
      self.cacheNamespaceFingerprints.length ≠ self.blockCount) (.runtimeValidation
    s!"prediction cache payload `{self.cacheId}` namespace fingerprint count does not match block_count")
  let rowCount ← self.validateBlocks
  refuseIf (self.rowCount = 0 ∨ self.rowCount ≠ rowCount) (.runtimeValidation
    s!"prediction cache payload `{self.cacheId}` row_count does not match blocks")
  self.validateBlockFamily payloadSchemaVersion
  validateRuntimeFingerprint "prediction cache payload content" self.contentFingerprint
  refuseIf (self.actualFingerprint externals ≠ self.contentFingerprint) (.runtimeValidation
    s!"prediction cache payload `{self.cacheId}` content fingerprint does not match blocks")

end BundlePredictionCachePayload

-- ---------------------------------------------------------------------------
-- Selecting and describing blocks
-- ---------------------------------------------------------------------------

/-- `Option<String>` compared: `None` first. -/
def optionKey (o : Option String) : WithBot String := o

section

variable {β : Type} (externals : Externals) (kind : BlockKind β)
  (requirement : BundlePredictionRequirement)

/-- Producer, partition, level and fold; the port is matched on its own. -/
def inCohort (block : β) : Bool :=
  kind.producerNode block = requirement.producerNode &&
    kind.partition block = requirement.partition && kind.inLevel requirement block &&
    (kind.foldId block).any (requirement.foldIds.contains ·)

/-- A block without a port belongs to the requirement's port as long as the
cohort names no other. -/
def absentPortIsUnambiguous (blocks : List β) : Bool :=
  ((blocks.filter (inCohort kind requirement)).filterMap kind.producerPort).all
    (· = requirement.sourcePort)

def selects (blocks : List β) (block : β) : Bool :=
  inCohort kind requirement block &&
    (kind.producerPort block = some requirement.sourcePort ||
      (kind.producerPort block).isNone && absentPortIsUnambiguous kind requirement blocks)

def beforeInCache (left right : β) : Prop :=
  toLex (optionKey ((kind.foldId left).map Id.value), optionKey (kind.predictionId left)) ≤
    toLex (optionKey ((kind.foldId right).map Id.value), optionKey (kind.predictionId right))

instance (left right : β) : Decidable (beforeInCache kind left right) := by
  unfold beforeInCache
  infer_instance

def selectBlocks (blocks : List β) : Result (List β) := do
  requirement.validate
  let selected := blocks.filter (selects kind requirement blocks)
  refuseIf selected.isEmpty (.runtimeValidation
    s!"{kind.label}prediction cache requirement `{requirement.key}` has no matching prediction blocks")
  pure (selected.insertionSort (beforeInCache kind))

def blockRecord (block : β) : BundlePredictionBlockCacheRecord where
  predictionId := kind.predictionId block
  foldId := kind.foldId block
  predictionLevel := kind.level block
  rowCount := kind.rowCount block
  unitIds := kind.unitIds block
  sampleIds := kind.sampleIds block
  contentFingerprint := stableJsonFingerprint externals (kind.toValue block)

def BlockKind.normalizedTargets (block : β) (width : Nat) : List String :=
  if (kind.targetNames block).isEmpty then (List.range width).map fun index => s!"p{index}"
  else kind.targetNames block

/-- The width and target names that the blocks seen so far agree on. -/
def agreeOnColumns (columns : Option (Nat × List String)) (block : β) :
    Result (Option (Nat × List String)) := do
  refuseIf (kind.producerNode block ≠ requirement.producerNode ∨
      kind.partition block ≠ requirement.partition ∨ !kind.inLevel requirement block)
    (.runtimeValidation
      s!"{kind.label}prediction cache `{requirement.key}` contains a block outside the requirement scope")
  let width ← kind.validateShape block
  refuseIf (∃ expected ∈ columns, expected.1 ≠ width) (.runtimeValidation
    s!"{kind.label}prediction cache `{requirement.key}` has inconsistent prediction width")
  let names := kind.normalizedTargets block width
  refuseIf (∃ expected ∈ columns, expected.2 ≠ names) (.runtimeValidation
    s!"{kind.label}prediction cache `{requirement.key}` has inconsistent target names")
  pure (some (width, names))

/-- `unitIds` is the requirement's own list for sample blocks. -/
def buildRecordFromSelected (unitIds : List PredictionUnitId) (selected : List β) :
    Result BundlePredictionCacheRecord := do
  requirement.validate
  refuseIf selected.isEmpty (.runtimeValidation
    s!"{kind.label}prediction cache requirement `{requirement.key}` has no matching prediction blocks")
  let columns ← loop (agreeOnColumns kind requirement) none selected
  let record : BundlePredictionCacheRecord := {
    requirementKey := requirement.key
    cacheId := s!"prediction-cache:{requirement.key}"
    cacheNamespaceFingerprints := []
    format := bundlePredictionCacheFormat
    partition := requirement.partition
    predictionLevel := requirement.predictionLevel
    foldIds := ascending (selected.filterMap kind.foldId).toFinset
    unitIds
    sampleIds := ascending (selected.flatMap kind.sampleIds).toFinset
    predictionWidth := (columns.map Prod.fst).getD 0
    targetNames := (columns.map Prod.snd).getD []
    blockCount := selected.length
    rowCount := (selected.map kind.rowCount).sum
    contentFingerprint := stableJsonFingerprint externals (.array (selected.map kind.toValue))
    blocks := selected.map (blockRecord externals kind) }
  validatePredictionCacheMatchesRequirement record requirement
  record.validate
  pure record

end

/-- The aggregated functions refuse a sample requirement first. -/
def refuseSampleLevel (requirement : BundlePredictionRequirement) : Result Unit := do
  requirement.validate
  refuseIf (requirement.predictionLevel = .sample) (.runtimeValidation
    s!"aggregated prediction cache requirement `{requirement.key}` must use target or group level")

def selectPredictionCacheBlocks (requirement : BundlePredictionRequirement)
    (blocks : List PredictionBlock) : Result (List PredictionBlock) :=
  selectBlocks sampleKind requirement blocks

def selectAggregatedPredictionCacheBlocks (requirement : BundlePredictionRequirement)
    (blocks : List AggregatedPredictionBlock) : Result (List AggregatedPredictionBlock) := do
  refuseSampleLevel requirement
  selectBlocks aggregatedKind requirement blocks

section

variable (externals : Externals) (requirement : BundlePredictionRequirement)

def buildPredictionCacheRecord (blocks : List PredictionBlock) :
    Result BundlePredictionCacheRecord := do
  let selected ← selectPredictionCacheBlocks requirement blocks
  buildRecordFromSelected externals sampleKind requirement requirement.unitIds selected

def buildAggregatedPredictionCacheRecord (blocks : List AggregatedPredictionBlock) :
    Result BundlePredictionCacheRecord := do
  let selected ← selectAggregatedPredictionCacheBlocks requirement blocks
  refuseSampleLevel requirement
  buildRecordFromSelected externals aggregatedKind requirement
    (ascending (selected.flatMap (·.unitIds)).toFinset) selected

def validatePredictionCachePayloadMatchesRecord (payload : BundlePredictionCachePayload)
    (cache : BundlePredictionCacheRecord) : Result Unit := do
  payload.validate externals
  cache.validate
  refuseIf (payload.requirementKey ≠ cache.requirementKey ∨ payload.cacheId ≠ cache.cacheId ∨
      payload.cacheNamespaceFingerprints ≠ cache.cacheNamespaceFingerprints ∨
      payload.format ≠ cache.format ∨ payload.partition ≠ cache.partition ∨
      payload.predictionLevel ≠ cache.predictionLevel ∨ payload.blockCount ≠ cache.blockCount ∨
      payload.rowCount ≠ cache.rowCount ∨
      payload.contentFingerprint ≠ cache.contentFingerprint) (.runtimeValidation
    s!"prediction cache payload `{payload.cacheId}` does not match cache record `{cache.cacheId}`")
  let blockRecords :=
    if payload.predictionLevel = .sample then payload.blocks.map (blockRecord externals sampleKind)
    else payload.aggregatedBlocks.map (blockRecord externals aggregatedKind)
  refuseIf (blockRecords ≠ cache.blocks) (.runtimeValidation
    s!"prediction cache payload `{payload.cacheId}` block fingerprints do not match cache record")

/-- The payload of the selected blocks, before its checks. -/
def sealPayload (rowCount : Nat) (content : JsonValue) (blocks : List PredictionBlock)
    (aggregatedBlocks : List AggregatedPredictionBlock) : BundlePredictionCachePayload where
  requirementKey := requirement.key
  cacheId := s!"prediction-cache:{requirement.key}"
  cacheNamespaceFingerprints := []
  format := bundlePredictionCacheFormat
  partition := requirement.partition
  predictionLevel := requirement.predictionLevel
  blockCount := blocks.length + aggregatedBlocks.length
  rowCount
  contentFingerprint := stableJsonFingerprint externals content
  blocks
  aggregatedBlocks

def buildPredictionCachePayload (blocks : List PredictionBlock) :
    Result BundlePredictionCachePayload := do
  let selected ← selectPredictionCacheBlocks requirement blocks
  let payload := sealPayload externals requirement (selected.map (·.sampleIds.length)).sum
    (.array (selected.map PredictionBlock.toValue)) selected []
  payload.validate externals
  let cache ← buildPredictionCacheRecord externals requirement payload.blocks
  validatePredictionCachePayloadMatchesRecord externals payload cache
  pure payload

def buildAggregatedPredictionCachePayload (blocks : List AggregatedPredictionBlock) :
    Result BundlePredictionCachePayload := do
  let selected ← selectAggregatedPredictionCacheBlocks requirement blocks
  let payload := sealPayload externals requirement (selected.map (·.unitIds.length)).sum
    (.array (selected.map AggregatedPredictionBlock.toValue)) [] selected
  payload.validate externals
  let cache ← buildAggregatedPredictionCacheRecord externals requirement payload.aggregatedBlocks
  validatePredictionCachePayloadMatchesRecord externals payload cache
  pure payload

end

end DagMl

import DagMl.Bundle.PayloadSet
import DagMl.Lib.Columns
import DagMl.Lib.Stateful
import DagMl.Runtime.OofInput
import DagMl.Runtime.Paths

/-!
# Prediction cache stores

Three stores of cached predictions behind one interface: payloads kept as they
are, payloads taken apart into columns, and payloads written to a directory.
Each keeps the records of what it materialized.
-/

namespace DagMl

open Checked

-- ---------------------------------------------------------------------------
-- Materialization
-- ---------------------------------------------------------------------------

structure PredictionCacheMaterializationRecord where
  runId : RunId
  bundleId : BundleId
  phase : Phase
  variantId : Option VariantId
  requirementKey : String
  cacheId : String
  cacheNamespaceFingerprints : List String
  handle : HandleRef
  deriving DecidableEq

def validateRuntimeCacheNamespaceFingerprints (cacheId : String) (fingerprints : List String) :
    Result Unit := do
  let _ ← loop (fun (seen : Finset String) fingerprint => do
    validateRuntimeFingerprint "prediction cache namespace" fingerprint
    refuseIf (fingerprint ∈ seen) (.runtimeValidation
      s!"file prediction cache `{cacheId}` has duplicate cache namespace fingerprint `{fingerprint}`")
    pure (insert fingerprint seen)) ∅ fingerprints

namespace PredictionCacheMaterializationRecord

def validate (self : PredictionCacheMaterializationRecord) : Result Unit := do
  validateNonEmpty "prediction cache materialization requirement_key" self.requirementKey
  validateNonEmpty "prediction cache materialization cache_id" self.cacheId
  validateRuntimeCacheNamespaceFingerprints self.cacheId self.cacheNamespaceFingerprints
  refuseIf (self.handle.kind ≠ .prediction) (.runtimeValidation
    s!"prediction cache materialization `{self.cacheId}` produced a non-prediction handle")

def validateAgainstRequest (self : PredictionCacheMaterializationRecord)
    (request : PredictionCacheMaterializationRequest) : Result Unit := do
  self.validate
  request.requirement.validate
  request.cache.validate
  refuseIf (request.cache.cacheNamespaceFingerprints ≠ [] ∧ request.variantId.isNone)
    (.runtimeValidation
      s!"prediction cache materialization for D10-enriched cache `{request.cache.cacheId}` requires variant_id")
  let requirementKey := request.requirement.key
  refuseIf (self.runId ≠ request.runId)
    (.runtimeValidation "prediction cache materialization record run_id does not match request")
  refuseIf (self.bundleId ≠ request.bundleId)
    (.runtimeValidation "prediction cache materialization record bundle_id does not match request")
  refuseIf (self.phase ≠ request.phase)
    (.runtimeValidation "prediction cache materialization record phase does not match request")
  refuseIf (self.variantId ≠ request.variantId)
    (.runtimeValidation "prediction cache materialization record variant_id does not match request")
  refuseIf (self.requirementKey ≠ requirementKey ∨
      self.requirementKey ≠ request.cache.requirementKey) (.runtimeValidation
    s!"prediction cache materialization record requirement `{self.requirementKey}` does not match request `{requirementKey}` / cache `{request.cache.requirementKey}`")
  refuseIf (self.cacheId ≠ request.cache.cacheId)
    (.runtimeValidation "prediction cache materialization record cache_id does not match request")
  refuseIf (self.cacheNamespaceFingerprints ≠ request.cache.cacheNamespaceFingerprints)
    (.runtimeValidation
      s!"prediction cache materialization record for `{self.cacheId}` dropped or changed cache namespace fingerprints")
  refuseIf (self.handle.ownerController ≠ request.producerControllerId) (.runtimeValidation
    s!"prediction cache materialization record for `{self.cacheId}` uses a handle owned by a different controller")

end PredictionCacheMaterializationRecord

def predictionCacheMaterializationRecord (request : PredictionCacheMaterializationRequest)
    (handle : HandleRef) : Result PredictionCacheMaterializationRecord := do
  let record : PredictionCacheMaterializationRecord := {
    runId := request.runId
    bundleId := request.bundleId
    phase := request.phase
    variantId := request.variantId
    requirementKey := request.cache.requirementKey
    cacheId := request.cache.cacheId
    cacheNamespaceFingerprints := request.cache.cacheNamespaceFingerprints
    handle }
  record.validateAgainstRequest request
  pure record

/-- The handle is the first eight bytes of the digest. -/
def predictionCacheMaterializationHandle (externals : Externals)
    (request : PredictionCacheMaterializationRequest) : HandleRef :=
  let content : List JsonValue := [
    .string request.runId.value, .string request.bundleId.value, .string request.phase.asStr,
    optionValue (request.variantId.map Id.value), .string request.cache.requirementKey,
    .string request.cache.cacheId, namesValue request.cache.cacheNamespaceFingerprints,
    .string request.cache.predictionLevel.name, .string request.cache.contentFingerprint]
  let digest := externals.sha256
    (utf8Bytes (String.ofList (JsonValue.render externals.floats (.array content))))
  { handle := UInt64.ofNat ((digest.toList.take 8).foldl (fun n byte => 256 * n + byte.toNat) 0)
    kind := .prediction
    ownerController := request.producerControllerId }

-- ---------------------------------------------------------------------------
-- The interface
-- ---------------------------------------------------------------------------

/-- One call of a `RuntimePredictionCacheStore`. -/
inductive CacheCall
  | loadBlocks (requirementKey : String)
  | loadAggregatedBlocks (requirementKey : String)
  | materialize (request : PredictionCacheMaterializationRequest)

inductive CacheReply
  | blocks (blocks : List PredictionBlock)
  | aggregatedBlocks (blocks : List AggregatedPredictionBlock)
  | handle (handle : HandleRef)
  deriving DecidableEq

/-- `RuntimePredictionCacheStore`, over the state a store keeps. -/
structure CacheMethods (σ : Type) where
  loadBlocks : σ → String → Result (List PredictionBlock)
  loadAggregatedBlocks : σ → String → Result (List AggregatedPredictionBlock)
  materialize : σ → PredictionCacheMaterializationRequest → Result (HandleRef × σ)

def CacheMethods.serve {σ : Type} (methods : CacheMethods σ) :
    CacheCall → Method DagMlError σ CacheReply
  | .loadBlocks requirementKey => Method.reading fun self => do
    let blocks ← methods.loadBlocks self requirementKey
    pure (.blocks blocks)
  | .loadAggregatedBlocks requirementKey => Method.reading fun self => do
    let blocks ← methods.loadAggregatedBlocks self requirementKey
    pure (.aggregatedBlocks blocks)
  | .materialize request => Method.staged fun self => do
    let (handle, store) ← methods.materialize self request
    pure (.handle handle, store)

/-- The checked payload of a request is at hand: its handle is recorded and returned. -/
def recordMaterialization (externals : Externals)
    (request : PredictionCacheMaterializationRequest)
    (records : List PredictionCacheMaterializationRecord) :
    Result (HandleRef × List PredictionCacheMaterializationRecord) := do
  let handle := predictionCacheMaterializationHandle externals request
  let record ← predictionCacheMaterializationRecord request handle
  pure (handle, records ++ [record])

-- ---------------------------------------------------------------------------
-- Payloads as they are
-- ---------------------------------------------------------------------------

structure InMemoryPredictionCacheStore where
  payloads : BTreeMap String BundlePredictionCachePayload
  materializationRecords : List PredictionCacheMaterializationRecord

namespace InMemoryPredictionCacheStore

variable {Sections : Type} (externals : Externals)

def fromPayloads (checks : SectionChecks Sections) (bundle : ExecutionBundle Sections)
    (payloads : BundlePredictionCachePayloadSet) : Result InMemoryPredictionCacheStore := do
  payloads.validateAgainstBundle externals checks bundle
  pure {
    payloads := .collect (payloads.caches.map fun payload => (payload.requirementKey, payload))
    materializationRecords := [] }

variable (self : InMemoryPredictionCacheStore)

def payloadFor (requirementKey : String) : Result BundlePredictionCachePayload :=
  need self.payloads[requirementKey]? (.runtimeValidation
    s!"prediction cache store is missing requirement `{requirementKey}`")

def loadBlocks (requirementKey : String) : Result (List PredictionBlock) := do
  let payload ← self.payloadFor requirementKey
  payload.validate externals
  refuseIf (payload.predictionLevel ≠ .sample) (.runtimeValidation
    s!"prediction cache store requirement `{requirementKey}` contains {payload.predictionLevel.debug} predictions, not sample blocks")
  pure payload.blocks

def loadAggregatedBlocks (requirementKey : String) : Result (List AggregatedPredictionBlock) := do
  let payload ← self.payloadFor requirementKey
  payload.validate externals
  refuseIf (payload.predictionLevel = .sample) (.runtimeValidation
    s!"prediction cache store requirement `{requirementKey}` contains sample predictions, not aggregated blocks")
  pure payload.aggregatedBlocks

def materialize (request : PredictionCacheMaterializationRequest) :
    Result (HandleRef × InMemoryPredictionCacheStore) := do
  request.requirement.validate
  request.cache.validate
  refuseIf (request.requirement.key ≠ request.cache.requirementKey) (.runtimeValidation
    s!"prediction cache materialization request for `{request.requirement.key}` uses cache `{request.cache.cacheId}` with mismatched requirement `{request.cache.requirementKey}`")
  let payload ← self.payloadFor request.cache.requirementKey
  validatePredictionCachePayloadMatchesRecord externals payload request.cache
  let (handle, materializationRecords) ←
    recordMaterialization externals request self.materializationRecords
  pure (handle, { self with materializationRecords })

def methods : CacheMethods InMemoryPredictionCacheStore where
  loadBlocks := loadBlocks externals
  loadAggregatedBlocks := loadAggregatedBlocks externals
  materialize := materialize externals

end InMemoryPredictionCacheStore

-- ---------------------------------------------------------------------------
-- Columns
-- ---------------------------------------------------------------------------

structure ColumnarPredictionCacheBlock where
  predictionId : Option String
  producerNode : NodeId
  producerPort : Option String
  partition : PredictionPartition
  foldId : Option FoldId
  predictionLevel : PredictionLevel
  unitIds : List PredictionUnitId
  sampleIds : List SampleId
  targetNames : List String
  width : Nat
  columns : List (List Binary64)
  deriving DecidableEq

namespace ColumnarPredictionCacheBlock

def fromPredictionBlock (block : PredictionBlock) : Result ColumnarPredictionCacheBlock := do
  let width ← block.validateShape
  pure {
    predictionId := block.predictionId
    producerNode := block.producerNode
    producerPort := block.producerPort
    partition := block.partition
    foldId := block.foldId
    predictionLevel := .sample
    unitIds := []
    sampleIds := block.sampleIds
    targetNames := block.targetNames
    width
    columns := Columns.transposed width block.values }

def fromAggregatedPredictionBlock (block : AggregatedPredictionBlock) :
    Result ColumnarPredictionCacheBlock := do
  let width ← block.validateShape
  refuseIf (block.level = .sample) (.runtimeValidation
    s!"columnar aggregated prediction block for `{block.producerNode}` must use target/group level, got sample")
  pure {
    predictionId := block.predictionId
    producerNode := block.producerNode
    producerPort := block.producerPort
    partition := block.partition
    foldId := block.foldId
    predictionLevel := block.level
    unitIds := block.unitIds
    sampleIds := []
    targetNames := block.targetNames
    width
    columns := Columns.transposed width block.values }

variable (self : ColumnarPredictionCacheBlock)

def rowCount : Nat :=
  match self.predictionLevel with
  | .sample => self.sampleIds.length
  | .target | .group => self.unitIds.length
  | .observation => 0

def valueCount : Nat := (self.columns.map List.length).sum

def validateUnits : Result Unit :=
  match self.predictionLevel with
  | .observation => .error (.runtimeValidation
      s!"columnar prediction block for `{self.producerNode}` cannot store observation-level predictions")
  | .sample => do
    refuseIf self.sampleIds.isEmpty (.runtimeValidation
      s!"columnar sample prediction block for `{self.producerNode}` has no sample ids")
    refuseIf (!self.unitIds.isEmpty) (.runtimeValidation
      s!"columnar sample prediction block for `{self.producerNode}` unexpectedly carries unit ids")
  | .target | .group => do
    refuseIf (!self.sampleIds.isEmpty) (.runtimeValidation
      s!"columnar aggregated prediction block for `{self.producerNode}` unexpectedly carries sample ids")
    refuseIf self.unitIds.isEmpty (.runtimeValidation
      s!"columnar aggregated prediction block for `{self.producerNode}` has no unit ids")
    refuseIf (∃ unitId ∈ self.unitIds, unitId.level ≠ self.predictionLevel) (.runtimeValidation
      s!"columnar aggregated prediction block for `{self.producerNode}` carries unit ids outside {self.predictionLevel.debug}")

def validate : Result Unit := do
  self.validateUnits
  refuseIf (self.width = 0) (.runtimeValidation
    s!"columnar prediction block for `{self.producerNode}` has zero width")
  refuseIf (self.columns.length ≠ self.width) (.runtimeValidation
    s!"columnar prediction block for `{self.producerNode}` has {self.columns.length} column(s), expected {self.width}")
  each self.columns.zipIdx fun (column, index) =>
    refuseIf (column.length ≠ self.rowCount) (.runtimeValidation
      s!"columnar prediction block for `{self.producerNode}` column {index} has {column.length} value(s), expected {self.rowCount}")
  refuseIf (self.targetNames ≠ [] ∧ self.targetNames.length ≠ self.width) (.runtimeValidation
    s!"columnar prediction block for `{self.producerNode}` has {self.targetNames.length} target names for width {self.width}")

def values : Result (List (List Binary64)) :=
  collect (List.range self.rowCount) fun index =>
    need (Columns.rowAt self.columns index) (.panicked "index out of bounds")

def toPredictionBlock : Result PredictionBlock := do
  self.validate
  refuseIf (self.predictionLevel ≠ .sample) (.runtimeValidation
    s!"columnar prediction block for `{self.producerNode}` contains {self.predictionLevel.debug} predictions, not sample predictions")
  let values ← self.values
  let block : PredictionBlock := {
    predictionId := self.predictionId
    producerNode := self.producerNode
    producerPort := self.producerPort
    partition := self.partition
    foldId := self.foldId
    sampleIds := self.sampleIds
    values
    targetNames := self.targetNames }
  let _ ← block.validateShape
  pure block

def toAggregatedPredictionBlock : Result AggregatedPredictionBlock := do
  self.validate
  refuseIf (self.predictionLevel = .sample) (.runtimeValidation
    s!"columnar prediction block for `{self.producerNode}` contains sample predictions, not aggregated predictions")
  let values ← self.values
  let block : AggregatedPredictionBlock := {
    predictionId := self.predictionId
    producerNode := self.producerNode
    producerPort := self.producerPort
    partition := self.partition
    foldId := self.foldId
    level := self.predictionLevel
    unitIds := self.unitIds
    values
    targetNames := self.targetNames }
  let _ ← block.validateShape
  pure block

end ColumnarPredictionCacheBlock

structure ColumnarPredictionCacheEntry where
  cache : BundlePredictionCacheRecord
  blocks : List ColumnarPredictionCacheBlock

namespace ColumnarPredictionCacheEntry

/-- One turn of the loop over the blocks, with the rows and values counted so far. -/
def countBlock (self : ColumnarPredictionCacheEntry) (counted : Nat × Nat)
    (block : ColumnarPredictionCacheBlock) : Result (Nat × Nat) := do
  block.validate
  refuseIf (block.predictionLevel ≠ self.cache.predictionLevel) (.runtimeValidation
    s!"columnar prediction cache `{self.cache.cacheId}` contains a {block.predictionLevel.debug} block, expected {self.cache.predictionLevel.debug}")
  refuseIf (block.partition ≠ self.cache.partition) (.runtimeValidation
    s!"columnar prediction cache `{self.cache.cacheId}` contains a block from partition {block.partition.debug}")
  pure (counted.1 + block.rowCount, counted.2 + block.valueCount)

/-- `checked_mul` is the product as long as it fits into 64 bits. -/
def validate (self : ColumnarPredictionCacheEntry) : Result Unit := do
  self.cache.validate
  refuseIf (self.blocks.length ≠ self.cache.blockCount) (.runtimeValidation
    s!"columnar prediction cache `{self.cache.cacheId}` has {self.blocks.length} block(s), expected {self.cache.blockCount}")
  let (rowCount, valueCount) ← loop self.countBlock (0, 0) self.blocks
  refuseIf (rowCount ≠ self.cache.rowCount) (.runtimeValidation
    s!"columnar prediction cache `{self.cache.cacheId}` has {rowCount} row(s), expected {self.cache.rowCount}")
  let expectedValues := self.cache.rowCount * self.cache.predictionWidth
  refuseIf (2 ^ 64 ≤ expectedValues) (.runtimeValidation
    s!"columnar prediction cache `{self.cache.cacheId}` value count overflow")
  refuseIf (valueCount ≠ expectedValues) (.runtimeValidation
    s!"columnar prediction cache `{self.cache.cacheId}` has {valueCount} value(s), expected {expectedValues}")

def columnarBlocks (payload : BundlePredictionCachePayload) :
    Result (List ColumnarPredictionCacheBlock) :=
  match payload.predictionLevel with
  | .sample => collect payload.blocks ColumnarPredictionCacheBlock.fromPredictionBlock
  | .target | .group =>
    collect payload.aggregatedBlocks ColumnarPredictionCacheBlock.fromAggregatedPredictionBlock
  | .observation => .error (.runtimeValidation
      s!"columnar prediction cache payload `{payload.cacheId}` cannot use observation-level predictions")

variable (externals : Externals)

def fromPayload (payload : BundlePredictionCachePayload) (cache : BundlePredictionCacheRecord) :
    Result ColumnarPredictionCacheEntry := do
  validatePredictionCachePayloadMatchesRecord externals payload cache
  let blocks ← columnarBlocks payload
  let entry : ColumnarPredictionCacheEntry := ⟨cache, blocks⟩
  entry.validate
  pure entry

variable (self : ColumnarPredictionCacheEntry)

def toBlocks : Result (List PredictionBlock) := do
  self.validate
  collect self.blocks ColumnarPredictionCacheBlock.toPredictionBlock

def toAggregatedBlocks : Result (List AggregatedPredictionBlock) := do
  self.validate
  collect self.blocks ColumnarPredictionCacheBlock.toAggregatedPredictionBlock

/-- The blocks of either level, the other list left empty. -/
def restoredBlocks : Result (List PredictionBlock × List AggregatedPredictionBlock) :=
  match self.cache.predictionLevel with
  | .sample => do
    let blocks ← self.toBlocks
    pure (blocks, [])
  | .target | .group => do
    let aggregatedBlocks ← self.toAggregatedBlocks
    pure ([], aggregatedBlocks)
  | .observation => .error (.runtimeValidation
      s!"columnar prediction cache `{self.cache.cacheId}` cannot materialize observation-level predictions")

/-- The payload under the record, with the given blocks. -/
def payloadOf (cache : BundlePredictionCacheRecord) (blocks : List PredictionBlock)
    (aggregatedBlocks : List AggregatedPredictionBlock) : BundlePredictionCachePayload where
  requirementKey := cache.requirementKey
  cacheId := cache.cacheId
  cacheNamespaceFingerprints := cache.cacheNamespaceFingerprints
  format := cache.format
  partition := cache.partition
  predictionLevel := cache.predictionLevel
  blockCount := cache.blockCount
  rowCount := cache.rowCount
  contentFingerprint := cache.contentFingerprint
  blocks
  aggregatedBlocks

def validateAgainstCacheRecord (cache : BundlePredictionCacheRecord) : Result Unit := do
  refuseIf (self.cache ≠ cache) (.runtimeValidation
    s!"columnar prediction cache materialization request for `{cache.requirementKey}` does not match bundle cache record")
  let (blocks, aggregatedBlocks) ← self.restoredBlocks
  validatePredictionCachePayloadMatchesRecord externals
    (payloadOf self.cache blocks aggregatedBlocks) cache

end ColumnarPredictionCacheEntry

structure ColumnarPredictionCacheStore where
  entries : BTreeMap String ColumnarPredictionCacheEntry
  materializationRecords : List PredictionCacheMaterializationRecord

namespace ColumnarPredictionCacheStore

variable {Sections : Type} (externals : Externals)

def insertPayload (recordsByRequirement : BTreeMap String BundlePredictionCacheRecord)
    (entries : BTreeMap String ColumnarPredictionCacheEntry)
    (payload : BundlePredictionCachePayload) :
    Result (BTreeMap String ColumnarPredictionCacheEntry) := do
  let cache ← need recordsByRequirement[payload.requirementKey]? (.runtimeValidation
    s!"columnar prediction cache payload `{payload.cacheId}` references unknown requirement `{payload.requirementKey}`")
  let entry ← ColumnarPredictionCacheEntry.fromPayload externals payload cache
  pure (entries.insert payload.requirementKey entry)

def fromPayloads (checks : SectionChecks Sections) (bundle : ExecutionBundle Sections)
    (payloads : BundlePredictionCachePayloadSet) : Result ColumnarPredictionCacheStore := do
  payloads.validateAgainstBundle externals checks bundle
  let recordsByRequirement := BTreeMap.collect
    (bundle.predictionCaches.map fun cache => (cache.requirementKey, cache))
  let entries ← loop (insertPayload externals recordsByRequirement) ∅ payloads.caches
  pure ⟨entries, []⟩

variable (self : ColumnarPredictionCacheStore)

def entryFor (requirementKey : String) : Result ColumnarPredictionCacheEntry :=
  need self.entries[requirementKey]? (.runtimeValidation
    s!"columnar prediction cache store is missing requirement `{requirementKey}`")

def loadBlocks (requirementKey : String) : Result (List PredictionBlock) := do
  let entry ← self.entryFor requirementKey
  refuseIf (entry.cache.predictionLevel ≠ .sample) (.runtimeValidation
    s!"columnar prediction cache store requirement `{requirementKey}` contains {entry.cache.predictionLevel.debug} predictions, not sample blocks")
  entry.validateAgainstCacheRecord externals entry.cache
  entry.toBlocks

def loadAggregatedBlocks (requirementKey : String) : Result (List AggregatedPredictionBlock) := do
  let entry ← self.entryFor requirementKey
  refuseIf (entry.cache.predictionLevel = .sample) (.runtimeValidation
    s!"columnar prediction cache store requirement `{requirementKey}` contains sample predictions, not aggregated blocks")
  entry.validateAgainstCacheRecord externals entry.cache
  entry.toAggregatedBlocks

def materialize (request : PredictionCacheMaterializationRequest) :
    Result (HandleRef × ColumnarPredictionCacheStore) := do
  request.requirement.validate
  request.cache.validate
  let requirementKey := request.requirement.key
  refuseIf (requirementKey ≠ request.cache.requirementKey) (.runtimeValidation
    s!"columnar prediction cache materialization request for `{requirementKey}` uses cache `{request.cache.cacheId}` with mismatched requirement `{request.cache.requirementKey}`")
  let entry ← self.entryFor requirementKey
  entry.validateAgainstCacheRecord externals request.cache
  let (handle, materializationRecords) ←
    recordMaterialization externals request self.materializationRecords
  pure (handle, { self with materializationRecords })

def methods : CacheMethods ColumnarPredictionCacheStore where
  loadBlocks := loadBlocks externals
  loadAggregatedBlocks := loadAggregatedBlocks externals
  materialize := materialize externals

end ColumnarPredictionCacheStore

end DagMl

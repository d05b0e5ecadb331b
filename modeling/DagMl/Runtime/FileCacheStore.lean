import DagMl.Runtime.CacheShelf

/-!
# Prediction caches in a directory

Each payload is written to a file named after its fingerprint, beside a
manifest that `openAt` holds against the bundle. What was written is read back
as long as the directory keeps it.
-/

namespace DagMl

open Checked

structure FilePredictionCacheEntry where
  requirementKey : String
  cacheId : String
  cacheNamespaceFingerprints : List String
  fileName : String
  predictionLevel : PredictionLevel
  unitIds : List PredictionUnitId
  blockCount : Nat
  rowCount : Nat
  contentFingerprint : String

/-- Sixteen digits of the fingerprint stand in the name. -/
def predictionCachePayloadFileName (externals : Externals)
    (payload : BundlePredictionCachePayload) : String :=
  let fingerprint := stableJsonFingerprint externals (.array [
    .string payload.requirementKey, .string payload.cacheId,
    namesValue payload.cacheNamespaceFingerprints, .string payload.predictionLevel.name,
    .string payload.contentFingerprint, .number (.posInt (.ofNat payload.blockCount)),
    .number (.posInt (.ofNat payload.rowCount))])
  s!"prediction-cache-{String.ofList (fingerprint.toList.take 16)}.json"

namespace FilePredictionCacheEntry

variable (self : FilePredictionCacheEntry)

def validate : Result Unit := do
  validateNonEmpty "requirement_key" self.requirementKey
  validateNonEmpty "cache_id" self.cacheId
  validateRuntimeCacheNamespaceFingerprints self.cacheId self.cacheNamespaceFingerprints
  validateNonEmpty "file_name" self.fileName
  validatePredictionCacheFileName self.fileName
  refuseIf (self.blockCount = 0)
    (.runtimeValidation s!"file prediction cache `{self.cacheId}` has zero block_count")
  refuseIf (self.rowCount = 0)
    (.runtimeValidation s!"file prediction cache `{self.cacheId}` has zero row_count")
  refuseIf (self.predictionLevel ≠ .sample ∧ self.unitIds.isEmpty)
    (.runtimeValidation s!"file prediction cache `{self.cacheId}` has no aggregated unit ids")
  refuseIf (∃ unitId ∈ self.unitIds, unitId.level ≠ self.predictionLevel) (.runtimeValidation
    s!"file prediction cache `{self.cacheId}` has unit ids outside {self.predictionLevel.debug}")
  validateRuntimeFingerprint "prediction cache content" self.contentFingerprint

def fromPayload (externals : Externals) (payload : BundlePredictionCachePayload) :
    FilePredictionCacheEntry where
  requirementKey := payload.requirementKey
  cacheId := payload.cacheId
  cacheNamespaceFingerprints := payload.cacheNamespaceFingerprints
  fileName := predictionCachePayloadFileName externals payload
  predictionLevel := payload.predictionLevel
  unitIds := payload.aggregatedBlocks.flatMap (·.unitIds)
  blockCount := payload.blockCount
  rowCount := payload.rowCount
  contentFingerprint := payload.contentFingerprint

def matchesRecord (record : BundlePredictionCacheRecord) : Bool :=
  self.requirementKey = record.requirementKey && self.cacheId = record.cacheId &&
    self.cacheNamespaceFingerprints = record.cacheNamespaceFingerprints &&
    self.predictionLevel = record.predictionLevel && self.unitIds = record.unitIds &&
    self.blockCount = record.blockCount && self.rowCount = record.rowCount &&
    self.contentFingerprint = record.contentFingerprint

end FilePredictionCacheEntry

def filePredictionCacheStoreSchemaVersion : Nat := 1
def filePredictionCacheManifestFile : String := "prediction_cache_manifest.json"

structure FilePredictionCacheManifest where
  bundleId : BundleId
  schemaVersion : Nat
  caches : List FilePredictionCacheEntry

namespace FilePredictionCacheManifest

/-- What the loop over the entries has seen. -/
structure Seen where
  requirementKeys : Finset String
  cacheIds : Finset String
  fileNames : Finset String

def checkEntry (self : FilePredictionCacheManifest) (seen : Seen)
    (entry : FilePredictionCacheEntry) : Result Seen := do
  entry.validate
  refuseIf (entry.requirementKey ∈ seen.requirementKeys) (.runtimeValidation
    s!"file prediction cache manifest for bundle `{self.bundleId}` has duplicate requirement `{entry.requirementKey}`")
  refuseIf (entry.cacheId ∈ seen.cacheIds) (.runtimeValidation
    s!"file prediction cache manifest for bundle `{self.bundleId}` has duplicate cache id `{entry.cacheId}`")
  refuseIf (entry.fileName ∈ seen.fileNames) (.runtimeValidation
    s!"file prediction cache manifest for bundle `{self.bundleId}` has duplicate file `{entry.fileName}`")
  pure {
    requirementKeys := insert entry.requirementKey seen.requirementKeys
    cacheIds := insert entry.cacheId seen.cacheIds
    fileNames := insert entry.fileName seen.fileNames }

variable {Sections : Type} (self : FilePredictionCacheManifest)

def validate : Result Unit := do
  refuseIf (self.schemaVersion ≠ filePredictionCacheStoreSchemaVersion) (.runtimeValidation
    s!"file prediction cache manifest for bundle `{self.bundleId}` uses unsupported schema_version {self.schemaVersion}, expected {filePredictionCacheStoreSchemaVersion}")
  let _ ← loop self.checkEntry ⟨∅, ∅, ∅⟩ self.caches

def validateAgainstBundle (checks : SectionChecks Sections) (bundle : ExecutionBundle Sections) :
    Result Unit := do
  self.validate
  bundle.validate checks
  refuseIf (self.bundleId ≠ bundle.bundleId) (.runtimeValidation
    s!"file prediction cache manifest bundle `{self.bundleId}` does not match bundle `{bundle.bundleId}`")
  refuseIf (self.caches.length ≠ bundle.predictionCaches.length) (.runtimeValidation
    s!"file prediction cache manifest for bundle `{self.bundleId}` has {self.caches.length} cache(s) for {bundle.predictionCaches.length} bundle cache record(s)")
  let entriesByRequirement := BTreeMap.collect
    (self.caches.map fun entry => (entry.requirementKey, entry))
  each bundle.predictionCaches fun record => do
    let entry ← need entriesByRequirement[record.requirementKey]? (.runtimeValidation
      s!"file prediction cache manifest for bundle `{self.bundleId}` is missing requirement `{record.requirementKey}`")
    refuseIf (!entry.matchesRecord record) (.runtimeValidation
      s!"file prediction cache manifest entry `{entry.cacheId}` does not match bundle cache record")

end FilePredictionCacheManifest

-- ---------------------------------------------------------------------------
-- The directory
-- ---------------------------------------------------------------------------

/-- A directory of the host, and the serializer of the files in it. `read`
resolves the path first and refuses one that leaves the directory. -/
structure CacheDirectory (D Text : Type) where
  createDirAll : D → Result D
  write : D → String → Text → Result D
  read : D → String → Result Text
  encodePayload : BundlePredictionCachePayload → Result Text
  decodePayload : Text → Result BundlePredictionCachePayload
  encodeManifest : FilePredictionCacheManifest → Result Text
  decodeManifest : Text → Result FilePredictionCacheManifest

/-- JSON has no number that is not finite. -/
def BundlePredictionCachePayload.Finite (self : BundlePredictionCachePayload) : Prop :=
  ∀ block ∈ self.blocks, ∀ row ∈ block.values, ∀ v ∈ row, v.isFinite = true

/-- A file holds what was last written to it, and what was serialized is parsed again. -/
structure CacheDirectory.Keeps {D Text : Type} (directory : CacheDirectory D Text) : Prop where
  read_written : ∀ d name text d', directory.write d name text = .ok d' →
    directory.read d' name = .ok text
  read_other : ∀ d name text d', directory.write d name text = .ok d' → ∀ other ≠ name,
    directory.read d' other = directory.read d other
  payload : ∀ payload text, payload.Finite → directory.encodePayload payload = .ok text →
    directory.decodePayload text = .ok payload
  manifest : ∀ manifest text, directory.encodeManifest manifest = .ok text →
    directory.decodeManifest text = .ok manifest

structure FilePredictionCacheStore (D : Type) where
  root : D
  manifest : FilePredictionCacheManifest
  recordsByRequirement : BTreeMap String BundlePredictionCacheRecord
  materializationRecords : List PredictionCacheMaterializationRecord

namespace FilePredictionCacheStore

variable {Sections D Text : Type} (externals : Externals) (directory : CacheDirectory D Text)

def writePayload (recordsByRequirement : BTreeMap String BundlePredictionCacheRecord)
    (written : D × List FilePredictionCacheEntry) (payload : BundlePredictionCachePayload) :
    Result (D × List FilePredictionCacheEntry) := do
  let record ← need recordsByRequirement[payload.requirementKey]? (.runtimeValidation
    s!"prediction cache payload `{payload.cacheId}` references unknown requirement `{payload.requirementKey}`")
  validatePredictionCachePayloadMatchesRecord externals payload record
  let entry := FilePredictionCacheEntry.fromPayload externals payload
  let text ← directory.encodePayload payload
  let root ← directory.write written.1 entry.fileName text
  pure (root, written.2 ++ [entry])

def writePayloadSet (root : D) (checks : SectionChecks Sections)
    (bundle : ExecutionBundle Sections) (payloads : BundlePredictionCachePayloadSet) :
    Result (FilePredictionCacheManifest × D) := do
  payloads.validateAgainstBundle externals checks bundle
  let root ← directory.createDirAll root
  let recordsByRequirement := BTreeMap.collect
    (bundle.predictionCaches.map fun record => (record.requirementKey, record))
  let (root, entries) ← loop (writePayload externals directory recordsByRequirement) (root, [])
    payloads.caches
  let manifest : FilePredictionCacheManifest := {
    bundleId := bundle.bundleId
    schemaVersion := filePredictionCacheStoreSchemaVersion
    caches := Keyed.sortBy (·.requirementKey) entries }
  manifest.validateAgainstBundle checks bundle
  let text ← directory.encodeManifest manifest
  let root ← directory.write root filePredictionCacheManifestFile text
  pure (manifest, root)

/-- `contained_prediction_cache_path` and the read behind it. -/
def readContained (root : D) (name : String) : Result Text := do
  validatePredictionCacheFileName name
  directory.read root name

/-- `open`. -/
def openAt (root : D) (checks : SectionChecks Sections) (bundle : ExecutionBundle Sections) :
    Result (FilePredictionCacheStore D) := do
  bundle.validate checks
  let text ← readContained directory root filePredictionCacheManifestFile
  let manifest ← directory.decodeManifest text
  manifest.validateAgainstBundle checks bundle
  pure {
    root
    manifest
    recordsByRequirement :=
      .collect (bundle.predictionCaches.map fun record => (record.requirementKey, record))
    materializationRecords := [] }

variable (self : FilePredictionCacheStore D)

def payloadForRequirement (requirementKey : String) : Result BundlePredictionCachePayload := do
  let entry ← need (self.manifest.caches.find? (·.requirementKey = requirementKey))
    (.runtimeValidation
      s!"file prediction cache store is missing requirement `{requirementKey}`")
  let record ← need self.recordsByRequirement[requirementKey]? (.runtimeValidation
    s!"file prediction cache store has no bundle record for requirement `{requirementKey}`")
  let text ← readContained directory self.root entry.fileName
  let payload ← directory.decodePayload text
  validatePredictionCachePayloadMatchesRecord externals payload record
  pure payload

def loadBlocks (requirementKey : String) : Result (List PredictionBlock) := do
  let payload ← self.payloadForRequirement externals directory requirementKey
  refuseIf (payload.predictionLevel ≠ .sample) (.runtimeValidation
    s!"file prediction cache store requirement `{requirementKey}` contains {payload.predictionLevel.debug} predictions, not sample blocks")
  pure payload.blocks

def loadAggregatedBlocks (requirementKey : String) : Result (List AggregatedPredictionBlock) := do
  let payload ← self.payloadForRequirement externals directory requirementKey
  refuseIf (payload.predictionLevel = .sample) (.runtimeValidation
    s!"file prediction cache store requirement `{requirementKey}` contains sample predictions, not aggregated blocks")
  pure payload.aggregatedBlocks

def materialize (request : PredictionCacheMaterializationRequest) :
    Result (HandleRef × FilePredictionCacheStore D) := do
  request.requirement.validate
  request.cache.validate
  let requirementKey := request.requirement.key
  let record ← need self.recordsByRequirement[requirementKey]? (.runtimeValidation
    s!"file prediction cache store is missing requirement `{requirementKey}`")
  refuseIf (record ≠ request.cache) (.runtimeValidation
    s!"file prediction cache materialization request for `{requirementKey}` does not match bundle cache record")
  let payload ← self.payloadForRequirement externals directory requirementKey
  validatePredictionCachePayloadMatchesRecord externals payload record
  let (handle, materializationRecords) ←
    recordMaterialization externals request self.materializationRecords
  pure (handle, { self with materializationRecords })

def methods : CacheMethods (FilePredictionCacheStore D) where
  loadBlocks := loadBlocks externals directory
  loadAggregatedBlocks := loadAggregatedBlocks externals directory
  materialize := materialize externals directory

end FilePredictionCacheStore

end DagMl

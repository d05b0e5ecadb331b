import DagMl.Runtime.Oof

/-!
# Replaying prediction caches

A refit replay has no cross-validation behind it: `preloadReplayPredictionCacheStore`
fills the prediction store from the caches that the bundle describes.
-/

namespace DagMl

open Checked

structure ReplayPredictionCacheContract where
  requirement : BundlePredictionRequirement
  cache : BundlePredictionCacheRecord

structure PredictionCacheMaterializationRequest where
  runId : RunId
  bundleId : BundleId
  phase : Phase
  variantId : Option VariantId
  requirement : BundlePredictionRequirement
  cache : BundlePredictionCacheRecord
  producerControllerId : ControllerId

/-- The host's store of cached blocks. -/
structure RuntimePredictionCacheStore where
  loadBlocks : String → Result (List PredictionBlock)
  loadAggregatedBlocks : String → Result (List AggregatedPredictionBlock)
  materialize : PredictionCacheMaterializationRequest → Result HandleRef

/-- The entry of one cache record in the map of contracts. -/
def pairContract (requirements : BTreeMap String BundlePredictionRequirement)
    (cache : BundlePredictionCacheRecord) : Result (String × ReplayPredictionCacheContract) := do
  let requirement ← need requirements[cache.requirementKey]? (.runtimeValidation
    s!"prediction cache `{cache.cacheId}` references unknown prediction requirement `{cache.requirementKey}`")
  pure (cache.requirementKey, ⟨requirement, cache⟩)

section

variable {Sections : Type} (checks : SectionChecks Sections) (bundle : ExecutionBundle Sections)

def replayPredictionCacheContracts : Result (BTreeMap String ReplayPredictionCacheContract) := do
  bundle.validate checks
  let requirements := BTreeMap.collect (bundle.predictionRequirements.map fun r => (r.key, r))
  let contracts ← collect bundle.predictionCaches (pairContract requirements)
  pure (BTreeMap.collect contracts)

variable (externals : Externals) (cacheStore : RuntimePredictionCacheStore)

/-- The sample-level payload of a contract, checked against its record. -/
def loadPayload (contract : ReplayPredictionCacheContract) :
    Result BundlePredictionCachePayload := do
  let blocks ← cacheStore.loadBlocks contract.cache.requirementKey
  refuseIf (∃ block ∈ blocks, block.producerNode ≠ contract.requirement.producerNode ∨
      block.partition ≠ contract.requirement.partition) (.runtimeValidation
    s!"prediction cache store returned blocks outside requirement `{contract.cache.requirementKey}`")
  let payload ← buildPredictionCachePayload externals contract.requirement blocks
  let payload := { payload with
    cacheNamespaceFingerprints := contract.cache.cacheNamespaceFingerprints }
  validatePredictionCachePayloadMatchesRecord externals payload contract.cache
  pure payload

def checkAggregatedPayload (contract : ReplayPredictionCacheContract) : Result Unit := do
  let blocks ← cacheStore.loadAggregatedBlocks contract.cache.requirementKey
  refuseIf (∃ block ∈ blocks, block.producerNode ≠ contract.requirement.producerNode ∨
      block.partition ≠ contract.requirement.partition ∨
      block.level ≠ contract.requirement.predictionLevel) (.runtimeValidation
    s!"prediction cache store returned aggregated blocks outside requirement `{contract.cache.requirementKey}`")
  let payload ← buildAggregatedPredictionCachePayload externals contract.requirement blocks
  let payload := { payload with
    cacheNamespaceFingerprints := contract.cache.cacheNamespaceFingerprints }
  validatePredictionCachePayloadMatchesRecord externals payload contract.cache

/-- Sample-level blocks are appended; aggregated ones are only checked. -/
def preloadContract (store : InMemoryPredictionStore) (contract : ReplayPredictionCacheContract) :
    Result InMemoryPredictionStore :=
  if contract.requirement.predictionLevel = .sample then do
    let payload ← loadPayload externals cacheStore contract
    loop InMemoryPredictionStore.append store payload.blocks
  else do
    checkAggregatedPayload externals cacheStore contract
    pure store

def preloadReplayPredictionCacheStore
    (predictionCacheStore : Option RuntimePredictionCacheStore) (ctx : RunContext) :
    Result RunContext :=
  if bundle.predictionRequirements.isEmpty then .ok ctx
  else do
    let cacheStore ← need predictionCacheStore (.runtimeValidation
      s!"bundle `{bundle.bundleId}` cannot preload OOF prediction caches without a prediction cache store")
    refuseIf (ctx.predictionStore.blocks ≠ []) (.runtimeValidation
      s!"bundle `{bundle.bundleId}` cannot preload OOF prediction caches into a non-empty prediction store")
    let contracts ← replayPredictionCacheContracts checks bundle
    let predictionStore ← loop (preloadContract externals cacheStore) ctx.predictionStore
      (contracts.toList.map Prod.snd)
    pure { ctx with predictionStore }

end

end DagMl

import DagMl.Runtime.ReplayCache

/-!
# The feature matrix of an out-of-fold edge

`collectOofPredictionInput` joins the checked blocks of an edge into one row
for each sample.
-/

namespace DagMl

open Checked

-- ---------------------------------------------------------------------------
-- Joining blocks
-- ---------------------------------------------------------------------------

/-- The rows seen for each sample, and the columns the blocks agree on. -/
structure JoinedRows where
  rows : BTreeMap SampleId (List (List Binary64))
  columns : Option (Nat × List String)

/-- The mean of several rows; a single row is taken as it is. -/
def averagePredictionRows (rows : List (List Binary64)) (width : Nat) : List Binary64 :=
  match rows with
  | [row] => row
  | rows =>
    let total := rows.foldl (List.zipWith Binary64.add) (List.replicate width .zero)
    total.map (·.div (.ofNat rows.length))

section

variable (edge : EdgeSpec)

def pushRow (allowCrossFoldDuplicates : Bool) (rows : BTreeMap SampleId (List (List Binary64)))
    (entry : SampleId × List Binary64) : Result (BTreeMap SampleId (List (List Binary64))) := do
  refuseIf (!allowCrossFoldDuplicates ∧ rows.getD entry.1 [] ≠ []) (.oofValidation
    s!"{edge.label} has duplicate OOF prediction for sample `{entry.1}`")
  pure (rows.pushEntry entry.1 entry.2)

def joinOofBlock (allowCrossFoldDuplicates : Bool) (joined : JoinedRows) (block : PredictionBlock) :
    Result JoinedRows := do
  let width ← block.validateContent
  let rows ← loop (pushRow edge allowCrossFoldDuplicates) joined.rows block.rows
  let names := sampleKind.normalizedTargets block width
  refuseIf (∃ expected ∈ joined.columns, expected.1 ≠ width)
    (.oofValidation s!"{edge.label} OOF prediction width is not stable across folds")
  refuseIf (∃ expected ∈ joined.columns, expected.2 ≠ names)
    (.oofValidation s!"{edge.label} OOF target names are not stable across folds")
  pure ⟨rows, some (width, names)⟩

def predictionInputSpec (scope : PhaseScope) (blocks : List PredictionBlock)
    (allowCrossFoldDuplicates : Bool) : Result PredictionInputSpec := do
  let joined ← loop (joinOofBlock edge allowCrossFoldDuplicates) ⟨∅, none⟩ blocks
  let width := (joined.columns.map Prod.fst).getD 0
  let sampleIds := joined.rows.toList.map Prod.fst
  pure {
    producerNode := edge.source.nodeId
    sourcePort := edge.source.portName
    targetPort := edge.target.portName
    partition := .validation
    predictionLevel := .sample
    foldId := scope.foldId
    foldIds := ascending (blocks.filterMap (·.foldId)).toFinset
    unitIds := sampleIds.map .sample
    sampleIds
    values := joined.rows.toList.map fun entry => averagePredictionRows entry.2 width
    featureValidityMasks := none
    sourcePresence := none
    predictionWidth := width
    targetNames := (joined.columns.map Prod.snd).getD [] }

-- ---------------------------------------------------------------------------
-- Aggregated inputs
-- ---------------------------------------------------------------------------

def uniqueAggregatedOofBlock (level : PredictionLevel) (units : Finset PredictionUnitId)
    (block : AggregatedPredictionBlock) : Result (Finset PredictionUnitId) := do
  let _ ← block.validateShape
  refuseIf (block.partition ≠ .validation)
    (.oofValidation s!"{edge.label} selected non-validation aggregated predictions")
  refuseIf (block.level ≠ level) (.oofValidation
    s!"{edge.label} selected {block.level.debug} aggregated predictions, expected {level.debug}")
  insertUnique (fun unitId => .oofValidation
    s!"{edge.label} has duplicate aggregated OOF prediction for unit `{unitId}`") units block.unitIds

def collectUniqueAggregatedOofUnits (level : PredictionLevel)
    (blocks : List AggregatedPredictionBlock) : Result (Finset PredictionUnitId) :=
  loop (uniqueAggregatedOofBlock edge level) ∅ blocks

def stableAggregatedColumns (columns : Option (Nat × List String))
    (block : AggregatedPredictionBlock) : Result (Option (Nat × List String)) := do
  let width ← block.validateShape
  let names := aggregatedKind.normalizedTargets block width
  refuseIf (∃ expected ∈ columns, expected.1 ≠ width)
    (.oofValidation s!"{edge.label} aggregated OOF prediction width is not stable across folds")
  refuseIf (∃ expected ∈ columns, expected.2 ≠ names)
    (.oofValidation s!"{edge.label} aggregated OOF target names are not stable across folds")
  pure (some (width, names))

/-- Unit-level rows cross as an opaque handle. -/
def aggregatedPredictionInputSpec (scope : PhaseScope) (level : PredictionLevel)
    (blocks : List AggregatedPredictionBlock) : Result PredictionInputSpec := do
  let units ← collectUniqueAggregatedOofUnits edge level blocks
  let columns ← loop (stableAggregatedColumns edge) none blocks
  pure {
    producerNode := edge.source.nodeId
    sourcePort := edge.source.portName
    targetPort := edge.target.portName
    partition := .validation
    predictionLevel := level
    foldId := scope.foldId
    foldIds := ascending (blocks.filterMap (·.foldId)).toFinset
    unitIds := ascending units
    sampleIds := []
    values := []
    featureValidityMasks := none
    sourcePresence := none
    predictionWidth := (columns.map Prod.fst).getD 0
    targetNames := (columns.map Prod.snd).getD [] }

end

def predictionInputSpecFromRequirement (requirement : BundlePredictionRequirement)
    (scope : PhaseScope) : Result PredictionInputSpec := do
  requirement.validate
  pure {
    producerNode := requirement.producerNode
    sourcePort := requirement.sourcePort
    targetPort := requirement.targetPort
    partition := requirement.partition
    predictionLevel := requirement.predictionLevel
    foldId := scope.foldId
    foldIds := requirement.foldIds
    unitIds := requirement.unitIds
    sampleIds := requirement.sampleIds
    values := []
    featureValidityMasks := none
    sourcePresence := none
    predictionWidth := requirement.predictionWidth
    targetNames := requirement.targetNames }

-- ---------------------------------------------------------------------------
-- Handles
-- ---------------------------------------------------------------------------

structure PhaseScopeResources where
  foldSetOverride : Option FoldSet
  replayBundleId : Option BundleId
  predictionCacheContracts : Option (BTreeMap String ReplayPredictionCacheContract)
  predictionCacheStore : Option RuntimePredictionCacheStore

/-- The serialized name. -/
def Phase.asStr : Phase → String
  | .compile => "COMPILE"
  | .plan => "PLAN"
  | .fitCv => "FIT_CV"
  | .select => "SELECT"
  | .refit => "REFIT"
  | .predict => "PREDICT"
  | .explain => "EXPLAIN"

def EdgeSpec.requirementKey (self : EdgeSpec) : String :=
  bundlePredictionRequirementKey self.source.nodeId self.source.portName self.target.nodeId
    self.target.portName

def PhaseScopeResources.contractForEdge (self : PhaseScopeResources) (edge : EdgeSpec) :
    Option ReplayPredictionCacheContract :=
  self.predictionCacheContracts.bind (·[edge.requirementKey]?)

section

variable (externals : Externals) (plan : ExecutionPlan) (edge : EdgeSpec) (ctx : RunContext)
  (scope : PhaseScope) (resources : PhaseScopeResources)

/-- The first sixteen hexadecimal digits of the digest, as a number. -/
def deterministicOofHandle : UInt64 :=
  let content : List JsonValue := [
    .string plan.id, .string ctx.runId.value, .string edge.source.nodeId.value,
    .string edge.source.portName, .string edge.target.nodeId.value,
    .string edge.target.portName, .string scope.phase.asStr,
    optionValue (scope.variantId.map Id.value), optionValue (scope.foldId.map Id.value)]
  let digest := externals.sha256
    (utf8Bytes (String.ofList (JsonValue.render externals.floats (.array content))))
  UInt64.ofNat ((digest.toList.take 8).foldl (fun n byte => 256 * n + byte.toNat) 0)

def materializeFromReplay (store : RuntimePredictionCacheStore) (bundleId : BundleId)
    (contracts : BTreeMap String ReplayPredictionCacheContract)
    (producerControllerId : ControllerId) : Result HandleRef := do
  let key := edge.requirementKey
  let contract ← need contracts[key]? (.runtimeValidation
    s!"replay prediction cache store cannot materialize missing requirement `{key}`")
  let handle ← store.materialize {
    runId := ctx.runId, bundleId, phase := scope.phase, variantId := scope.variantId
    requirement := contract.requirement, cache := contract.cache, producerControllerId }
  refuseIf (handle.kind ≠ .prediction) (.runtimeValidation
    s!"prediction cache store materialized requirement `{key}` as {handle.kind.debug}")
  refuseIf (handle.ownerController ≠ producerControllerId) (.runtimeValidation
    s!"prediction cache store materialized requirement `{key}` for controller `{handle.ownerController}`, expected `{producerControllerId}`")
  pure handle

def materializeOofPredictionHandle (producerControllerId : ControllerId) : Result HandleRef :=
  match scope.phase, resources.predictionCacheStore, resources.replayBundleId,
    resources.predictionCacheContracts with
  | .refit, some store, some bundleId, some contracts =>
    materializeFromReplay edge ctx scope store bundleId contracts producerControllerId
  | _, _, _, _ => .ok ⟨deterministicOofHandle externals plan edge ctx scope, .prediction,
      producerControllerId⟩

-- ---------------------------------------------------------------------------
-- The collector
-- ---------------------------------------------------------------------------

structure CollectedPredictionInput where
  handle : HandleRef
  spec : PredictionInputSpec

def oofPredictionLevelForSource (sourcePlan : NodePlan) : PredictionLevel :=
  (sourcePlan.shapePlan.map (·.aggregationPolicy.aggregationLevel)).getD .sample

/-- The blocks of a sample-level edge; `none` skips the refit. -/
def sampleOofBlocks : Result (Option (List PredictionBlock)) :=
  match scope.phase with
  | .fitCv => do
    let blocks ← validateFitCvOofEdge externals plan edge ctx scope resources.foldSetOverride
    pure (some blocks)
  | .refit => validateRefitOofEdge externals plan edge ctx
  | _ => .ok (some [])

/-- `available_oof_input`. -/
def availableOofInput (blocks : List PredictionBlock) (folds : FoldSet)
    (requested : List SampleId) : Result (Option PredictionInputSpec) := do
  match ← predictionAvailability externals plan with
  | none => pure none
  | some signed =>
    let source ← availabilitySource plan edge.source.nodeId
    let source ← need source (.oofValidation "availability OOF edge has an unbound producer")
    refuseIf (∃ block ∈ blocks, block.producerNode ≠ edge.source.nodeId ∨
        block.producerPort ≠ some edge.source.portName)
      (.oofValidation "availability OOF producer or port differs from its signed edge")
    validateAvailableOofBlocks signed source folds blocks
    let input ← predictionInputSpec edge scope blocks (folds.partitionMode = .resampled)
    let presence ← signed.presence source requested
    let input ← expandAvailablePredictionInput externals.floats signed source input requested
      presence
    -- A fold without present samples takes part through its mask alone.
    pure (some { input with foldIds := (folds.folds.map (·.foldId)).insertionSort (· ≤ ·) })

/-- The folds and samples an availability contract is expanded over. -/
def availabilityFolds : Result (FoldSet × List SampleId) :=
  if scope.phase = .fitCv then do
    let folds ← activeFoldSet plan edge resources.foldSetOverride
    let foldId ← need scope.foldId (.panicked "FIT_CV validation checked the fold")
    let folds := folds.only foldId
    let fold ← need folds.folds.head? (.panicked "index out of bounds")
    pure (folds, fold.validationSampleIds)
  else do
    let nested ← plan.nestedStackingCampaignPlanForNode externals edge.target.nodeId
    let folds ← refitPool plan edge nested
    pure (folds, folds.sampleIds)

def availabilityInput (blocks : List PredictionBlock) : Result (Option PredictionInputSpec) := do
  if scope.phase ≠ .fitCv ∧ scope.phase ≠ .refit then pure none
  else match ← predictionAvailability externals plan with
  | none => pure none
  | some _ =>
    let (folds, requested) ← availabilityFolds externals plan edge scope resources
    availableOofInput externals plan edge scope blocks folds requested

def collectSampleInput (sourcePlan : NodePlan) : Result (Option CollectedPredictionInput) := do
  match ← sampleOofBlocks externals plan edge ctx scope resources with
  | none => pure none
  | some blocks =>
    let available ← availabilityInput externals plan edge scope resources blocks
    let handle ← materializeOofPredictionHandle externals plan edge ctx scope resources
      sourcePlan.controllerId
    match available with
    | some spec => pure (some ⟨handle, spec⟩)
    | none =>
      let spec ← predictionInputSpec edge scope blocks
        (scope.phase = .refit && planOofPartitionMode plan = .resampled)
      pure (some ⟨handle, spec⟩)

/-- A replayed requirement above sample level is answered from its contract. -/
def collectReplayedInput (contract : ReplayPredictionCacheContract) (sourcePlan : NodePlan) :
    Result (Option CollectedPredictionInput) := do
  let handle ← materializeOofPredictionHandle externals plan edge ctx scope resources
    sourcePlan.controllerId
  let spec ← predictionInputSpecFromRequirement contract.requirement scope
  pure (some ⟨handle, spec⟩)

/-- `aggregatedOofEdge` are the checked blocks of a source that predicts targets
or groups: what `validate_fit_cv_aggregated_oof_edge` and
`validate_refit_aggregated_oof_edge` return. -/
def aggregatedOofBlocks
    (aggregatedOofEdge : PredictionLevel → Result (List AggregatedPredictionBlock))
    (level : PredictionLevel) : Result (List AggregatedPredictionBlock) :=
  if scope.phase = .fitCv ∨ scope.phase = .refit then aggregatedOofEdge level else .ok []

def collectAggregatedInput
    (aggregatedOofEdge : PredictionLevel → Result (List AggregatedPredictionBlock))
    (level : PredictionLevel) (sourcePlan : NodePlan) :
    Result (Option CollectedPredictionInput) := do
  let blocks ← aggregatedOofBlocks scope aggregatedOofEdge level
  let handle ← materializeOofPredictionHandle externals plan edge ctx scope resources
    sourcePlan.controllerId
  let spec ← aggregatedPredictionInputSpec edge scope level blocks
  pure (some ⟨handle, spec⟩)

/-- The contract that replaces the store's blocks, in a refit replay. -/
def replayedAbove : Option ReplayPredictionCacheContract :=
  if scope.phase = .refit then
    (resources.contractForEdge edge).filter (·.requirement.predictionLevel ≠ .sample)
  else none

def collectOofPredictionInput
    (aggregatedOofEdge : PredictionLevel → Result (List AggregatedPredictionBlock)) :
    Result (Option CollectedPredictionInput) := do
  validateOofSourcePortProvenance plan edge
  let sourcePlan ← need plan.nodePlans[edge.source.nodeId]?
    (.panicked "edge source has a node plan")
  match replayedAbove edge scope resources with
  | some contract =>
    collectReplayedInput externals plan edge ctx scope resources contract sourcePlan
  | none =>
    let level := oofPredictionLevelForSource sourcePlan
    if level ≠ .sample then
      collectAggregatedInput externals plan edge ctx scope resources aggregatedOofEdge level
        sourcePlan
    else collectSampleInput externals plan edge ctx scope resources sourcePlan

end

end DagMl

import DagMl.Bundle.Basic
import DagMl.Oof.Coverage
import DagMl.Runtime.Availability
import DagMl.Runtime.Classification
import DagMl.Runtime.Context
import DagMl.Runtime.Stacking

/-!
# Out-of-fold inputs

What a task receives along an edge that requires out-of-fold predictions: the
blocks of the edge's own port, in the folds of the scope, checked against the
fold set and joined into one feature matrix.
-/

namespace DagMl

open Checked

-- ---------------------------------------------------------------------------
-- Ports
-- ---------------------------------------------------------------------------

/-- The names of the node's prediction outputs, sorted. -/
def NodeSpec.predictionPorts (self : NodeSpec) : List String :=
  ((self.ports.outputs.filter (·.kind = .prediction)).map (·.name)).insertionSort (· ≤ ·)

/-- `{:?}` of a list of names that need no escape. -/
def debugNames (names : List String) : String :=
  "[" ++ ", ".intercalate (names.map fun name => "\"" ++ name ++ "\"") ++ "]"

section

variable (plan : ExecutionPlan) (edge : EdgeSpec)

def validateOofSourcePortProvenance : Result Unit := do
  let source ← need (plan.findNode edge.source.nodeId) (.runtimeValidation
    s!"OOF edge source node `{edge.source.nodeId}` is absent from the execution graph")
  refuseIf (edge.source.portName ∉ source.predictionPorts) (.oofValidation
    s!"OOF edge source `{edge.source.nodeId}.{edge.source.portName}` is not a declared Prediction output; declared prediction ports are {debugNames source.predictionPorts}")

def legacyAbsentPortMatchesSinglePredictionOutput (blockKind : String) : Result Bool := do
  let source ← need (plan.findNode edge.source.nodeId) (.oofValidation
    s!"OOF edge source node `{edge.source.nodeId}` is absent from the execution graph")
  match source.predictionPorts with
  | [port] => pure (port = edge.source.portName)
  | ports => throw (.oofValidation
      s!"cannot bind legacy {blockKind} without producer_port to `{edge.source.nodeId}.{edge.source.portName}`: producer `{edge.source.nodeId}` exposes {ports.length} Prediction output ports {debugNames ports}; multi-output producers must store producer_port explicitly")

def producerPortMatchesEdgeSourcePort (producerNode : NodeId) (producerPort : Option String)
    (blockKind : String) : Result Bool :=
  match producerPort with
  | some port => do
    refuseIf (isBlank port)
      (.oofValidation s!"{blockKind} from `{producerNode}` has blank producer_port")
    pure (port = edge.source.portName)
  | none => legacyAbsentPortMatchesSinglePredictionOutput plan edge blockKind

def predictionBlockMatchesEdgeSourcePort (block : PredictionBlock) : Result Bool :=
  producerPortMatchesEdgeSourcePort plan edge block.producerNode block.producerPort
    "prediction block"

/-- One block of the filter: kept with its classifier checks, dropped, or refused. -/
def keepForEdge (externals : Externals) (block : PredictionBlock) :
    Result (Option PredictionBlock) := do
  if ← predictionBlockMatchesEdgeSourcePort plan edge block then do
    validateMethodsClassificationBlock externals plan block
    pure (some block)
  else pure none

def filterPredictionBlocksForEdgeSourcePort (externals : Externals)
    (blocks : List PredictionBlock) : Result (List PredictionBlock) := do
  let kept ← collect blocks (keepForEdge plan edge externals)
  pure kept.reduceOption

end

-- ---------------------------------------------------------------------------
-- Fold sets and coverage
-- ---------------------------------------------------------------------------

section

variable (plan : ExecutionPlan) (edge : EdgeSpec)

/-- Without a fold set the mode is the default one. -/
def planOofPartitionMode : FoldPartitionMode :=
  (plan.foldSet.map (·.partitionMode)).getD .partition

def requiredFoldSetForOof : Result FoldSet :=
  need plan.foldSet (.runtimeValidation
    s!"{edge.label} requires fold-aligned OOF predictions but the plan has no fold set")

/-- The fold set of a FIT_CV scope: a nested scope overrides the plan's. -/
def activeFoldSet (foldSetOverride : Option FoldSet) : Result FoldSet :=
  match foldSetOverride with
  | some folds => .ok folds
  | none => requiredFoldSetForOof plan edge

def missingOofEdgeError (foldId : Option FoldId) : DagMlError :=
  let scope := (foldId.map fun foldId => s!" for fold `{foldId}`").getD ""
  .oofValidation
    s!"{edge.label} requires OOF validation predictions from `{edge.source.nodeId}`{scope}"

def uniqueOofBlock (samples : Finset SampleId) (block : PredictionBlock) :
    Result (Finset SampleId) := do
  refuseIf (block.partition ≠ .validation)
    (.oofValidation s!"{edge.label} selected non-validation predictions")
  insertUnique (fun s => .oofValidation
    s!"{edge.label} has duplicate OOF prediction for sample `{s}`") samples block.sampleIds

def collectUniqueOofSamples (blocks : List PredictionBlock) : Result (Finset SampleId) :=
  loop (uniqueOofBlock edge) ∅ blocks

def validateOofBlocksMatchFold (foldSet : FoldSet) (foldId : FoldId)
    (blocks : List PredictionBlock) : Result Unit := do
  let fold ← need (foldSet.folds.find? (·.foldId = foldId))
    (.oofValidation s!"{edge.label} references unknown fold `{foldId}`")
  let actual ← collectUniqueOofSamples edge blocks
  refuseIf (actual ≠ fold.validationSampleIds.toFinset) (.oofValidation
    s!"{edge.label} OOF predictions do not match validation samples for fold `{foldId}`")

def stackingMissingPredictionPolicyMetadataKey : String := "stacking_missing_prediction_policy"

/-- The one policy there is. -/
inductive StackingMissingPredictionPolicy
  | completeInnerOofNoImputation
  deriving DecidableEq

namespace StackingMissingPredictionPolicy

/-- A unit variant: its name, or an object that maps its name to `null`. -/
def fromValue : JsonValue → Option StackingMissingPredictionPolicy
  | .string "complete_inner_oof_no_imputation" => some .completeInnerOofNoImputation
  | .object [("complete_inner_oof_no_imputation", .null)] => some .completeInnerOofNoImputation
  | _ => none

/-- The decoder's own words at the end of the message are left out. -/
def fromMetadata (metadata : BTreeMap String JsonValue) :
    Result (Option StackingMissingPredictionPolicy) :=
  match metadata[stackingMissingPredictionPolicyMetadataKey]? with
  | none => .ok none
  | some value => do
    let policy ← need (fromValue value)
      (.oofValidation s!"`{stackingMissingPredictionPolicyMetadataKey}` is invalid")
    pure (some policy)

def validateCompleteInput (_self : StackingMissingPredictionPolicy) (producerNode : NodeId)
    (blocks : List PredictionBlock) (requested : List SampleId) : Result Unit := do
  each blocks fun block => do
    let _ ← block.validateContent
  let covered := (blocks.flatMap (·.sampleIds)).toFinset
  let missing := (requested.toFinset \ covered).card
  let unexpected := (covered \ requested.toFinset).card
  refuseIf (covered ≠ requested.toFinset) (.oofValidation
    s!"stacking source `{producerNode}` requires complete finite inner OOF input; missing-row imputation is unavailable ({missing} missing, {unexpected} unexpected)")

end StackingMissingPredictionPolicy

def validateDeclaredStackingMissingPolicy (blocks : List PredictionBlock)
    (requested : List SampleId) : Result Unit := do
  let node ← need (plan.findNode edge.target.nodeId)
    (.runtimeValidation s!"OOF edge targets unknown node `{edge.target.nodeId}`")
  let policy ← StackingMissingPredictionPolicy.fromMetadata node.metadata
  whenSome policy fun policy => policy.validateCompleteInput edge.source.nodeId blocks requested

/-- The invalid contract's own message is left out. -/
def stackingOofRefitContractForEdge : Result StackingOofRefitContract := do
  let node ← need (plan.findNode edge.target.nodeId)
    (.runtimeValidation s!"{edge.label} targets unknown node `{edge.target.nodeId}`")
  (StackingOofRefitContract.fromMetadata node.metadata).mapError fun _ =>
    .runtimeValidation s!"node `{node.id}` carries invalid stacking OOF refit contract"

end

-- ---------------------------------------------------------------------------
-- The two checked edges
-- ---------------------------------------------------------------------------

structure PhaseScope where
  phase : Phase
  variantId : Option VariantId
  foldId : Option FoldId

variable (externals : Externals) (plan : ExecutionPlan) (edge : EdgeSpec)

/-- `folds.retain(|fold| &fold.fold_id == fold_id)`. -/
def FoldSet.only (self : FoldSet) (foldId : FoldId) : FoldSet :=
  { self with folds := self.folds.filter (·.foldId = foldId) }

def validateFitCvOofEdge (ctx : RunContext) (scope : PhaseScope)
    (foldSetOverride : Option FoldSet) : Result (List PredictionBlock) := do
  let foldId ← need scope.foldId
    (.runtimeValidation s!"{edge.label} requires OOF predictions but FIT_CV has no fold scope")
  let found := ctx.predictionStore.find (some edge.source.nodeId) (some .validation) (some foldId)
  let blocks ← filterPredictionBlocksForEdgeSourcePort plan edge externals found
  let foldSet ← activeFoldSet plan edge foldSetOverride
  let fold ← need (foldSet.folds.find? (·.foldId = foldId))
    (.oofValidation s!"unknown stacking OOF fold `{foldId}`")
  match ← predictionAvailability externals plan with
  | some signed =>
    let source ← availabilitySource plan edge.source.nodeId
    let source ← need source
      (.oofValidation "availability edge lacks its signed producer source")
    validateAvailableOofBlocks signed source (foldSet.only foldId) blocks
    pure blocks
  | none =>
    refuseIf blocks.isEmpty (missingOofEdgeError edge (some foldId))
    validateDeclaredStackingMissingPolicy plan edge blocks fold.validationSampleIds
    validateOofBlocksMatchFold edge foldSet foldId blocks
    pure blocks

/-- The first meta, level by level, whose bases include the node. -/
def nestedOwner (nodeId : NodeId) : List NodeId → Result (Option NestedStackingCampaignPlan)
  | [] => .ok none
  | candidate :: rest => do
    if !(← plan.isNestedStackingMetaNode candidate) then nestedOwner nodeId rest
    else
      let campaign ← plan.nestedStackingCampaignPlanForNode externals candidate
      let campaign ← need campaign (.panicked "validated nested meta node")
      if nodeId ∈ campaign.baseNodeIds then pure (some campaign) else nestedOwner nodeId rest

/-- The nested campaign whose refit the edge feeds, directly or through its
prediction-feature join. -/
def nestedForEdge : Result (Option NestedStackingCampaignPlan) := do
  if ← plan.isNestedStackingMetaNode edge.target.nodeId then
    plan.nestedStackingCampaignPlanForNode externals edge.target.nodeId
  else if plan.graphPlan.graph.nodes.any fun node =>
      node.id = edge.target.nodeId && ExecutionPlan.isPredictionFeatureJoin node then do
    let levels ← plan.nodeParallelLevelsForPhase .fitCv
    nestedOwner externals plan edge.target.nodeId levels.flatten
  else pure none

/-- The fold set a refit reads its evidence in: the declared pool, else the
plan's own. -/
def refitPool (nested : Option NestedStackingCampaignPlan) : Result FoldSet :=
  match nested.bind (·.refitFoldSet) with
  | some folds => .ok folds
  | none => requiredFoldSetForOof plan edge

/-- Only a nested campaign drops the folds outside its pool. -/
def inRefitPool (nested : Option NestedStackingCampaignPlan) (foldSet : FoldSet)
    (block : PredictionBlock) : Bool :=
  nested.isNone || block.foldId.any fun foldId => foldSet.folds.any (·.foldId = foldId)

/-- The refit pool of the edge and the blocks that the edge reads in it. -/
def refitEvidence (store : InMemoryPredictionStore) : Result (FoldSet × List PredictionBlock) := do
  let found := store.find (some edge.source.nodeId) (some .validation) none
  let nested ← nestedForEdge externals plan edge
  let foldSet ← refitPool plan edge nested
  let blocks ← filterPredictionBlocksForEdgeSourcePort plan edge externals
    (found.filter (inRefitPool nested foldSet))
  pure (foldSet, blocks)

def validateRefitOofEdge (ctx : RunContext) : Result (Option (List PredictionBlock)) := do
  let contract ← stackingOofRefitContractForEdge plan edge
  let (foldSet, blocks) ← refitEvidence externals plan edge ctx.predictionStore
  match ← predictionAvailability externals plan with
  | some signed =>
    let source ← availabilitySource plan edge.source.nodeId
    let source ← need source
      (.oofValidation "availability REFIT edge lacks its signed source")
    validateAvailableOofBlocks signed source foldSet blocks
    pure (some blocks)
  | none =>
    validateDeclaredStackingMissingPolicy plan edge blocks foldSet.sampleIds
    refuseIf (blocks = [] ∧ contract.policy = .requireFullCoverage) (missingOofEdgeError edge none)
    match ← validateStackingOofRefitContract edge.source.nodeId blocks foldSet contract with
    | .refitAllowed _ => pure (some blocks)
    | .skipRefit _ => pure none

end DagMl

import DagMl.Generation.Variant
import DagMl.Runtime.Externals
import DagMl.Plan

/-!
# Nested stacking campaigns

A meta node that opts into nested execution trains on inner out-of-fold rows
of each outer fold, and refits on a pool of its own when it declares one.
`nestedStackingCampaignPlanForNode` describes those scopes before any data is
materialized.
-/

namespace DagMl

open Checked

def nestedStackingExecutionMetadataKey : String := "stacking_oof_execution"
def nestedStackingExecutionV1 : String := "nested_oof_v1"
def stackingRefitOofMetadataKey : String := "stacking_refit_oof"
def stackingRefitPartitionedInnerV1 : String := "partitioned_inner_v1"
def residualTargetExecutionMetadataKey : String := "residual_target_execution"
def residualTargetExecutionV1 : String := "nested_oof_v1"

inductive NestedMetaKind
  | stacking
  | residual
  deriving DecidableEq

/-- `{:?}`. -/
def NestedMetaKind.debug : NestedMetaKind → String
  | .stacking => "Stacking"
  | .residual => "Residual"

structure NestedStackingOuterScope where
  outerFoldId : FoldId
  inner : NestedFoldSet

structure NestedStackingCampaignPlan where
  metaNodeId : NodeId
  kind : NestedMetaKind
  innerCv : NestedCvSpec
  /-- What has to run for the base predictions; the meta node is not in it. -/
  baseNodeIds : Finset NodeId
  metaDataNodeIds : Finset NodeId
  outerScopes : List NestedStackingOuterScope
  /-- The folds of the meta refit, when it declares a pool of its own. -/
  refitFoldSet : Option FoldSet

structure PredictionFeatureJoinPlan where
  joinNodeId : NodeId
  sourceNodeIds : Finset NodeId
  downstreamNodeIds : Finset NodeId

structure CapacityRequirements where
  base : List (NodeId × Nat)
  source : List (NodeId × Nat)
  learner : List (NodeId × Nat)
  autoGate : Bool
  predictionJoin : Bool

namespace ExecutionPlan

variable (plan : ExecutionPlan)

def edges : List EdgeSpec := plan.graphPlan.graph.edges

-- ---------------------------------------------------------------------------
-- Dependencies
-- ---------------------------------------------------------------------------

/-- `closure.insert(source)`, and a push when the node is new. -/
def visitSource (state : Finset NodeId × List NodeId) (edge : EdgeSpec) :
    Finset NodeId × List NodeId :=
  if edge.source.nodeId ∈ state.1 then state
  else (insert edge.source.nodeId state.1, edge.source.nodeId :: state.2)

/-- The head of `pending` is the end of the source's vector. An edge pushes at
most once, so the fuel of `dependencyClosure` is never used up. -/
def closureLoop : Nat → Finset NodeId → List NodeId → Finset NodeId
  | fuel + 1, closure, nodeId :: pending =>
    let (closure, pending) :=
      (plan.edges.filter (·.target.nodeId = nodeId)).foldl visitSource (closure, pending)
    closureLoop fuel closure pending
  | _, closure, _ => closure

def dependencyClosure (seeds : Finset NodeId) : Finset NodeId :=
  plan.closureLoop (plan.edges.length + seeds.card) seeds (ascending seeds).reverse

-- ---------------------------------------------------------------------------
-- Which nodes opt in
-- ---------------------------------------------------------------------------

def isNestedStackingMetaNode (nodeId : NodeId) : Result Bool := do
  let node ← need (plan.findNode nodeId) (.runtimeValidation
    s!"nested stacking node `{nodeId}` is absent from the execution graph")
  let stacking := node.metadata[nestedStackingExecutionMetadataKey]?
  let residual := node.metadata[residualTargetExecutionMetadataKey]?
  refuseIf (stacking.isSome ∧ residual.isSome) (.runtimeValidation
    s!"node `{nodeId}` cannot declare both nested stacking and residual targets")
  let (key, expected) := if stacking.isSome
    then (nestedStackingExecutionMetadataKey, nestedStackingExecutionV1)
    else (residualTargetExecutionMetadataKey, residualTargetExecutionV1)
  match stacking.or residual with
  | none => pure false
  | some value =>
    let value ← need value.asStr
      (.runtimeValidation s!"node `{node.id}` has non-string `{key}` metadata")
    refuseIf (value ≠ expected)
      (.runtimeValidation s!"node `{node.id}` declares unsupported `{key}` value `{value}`")
    pure true

def isPredictionFeatureJoin (node : NodeSpec) : Bool :=
  node.kind = .predictionJoin &&
    (node.metadata["prediction_feature_execution"]?.bind JsonValue.asStr) = some "native_oof_v1"

def predictionFeatureJoinPlan (baseNodeIds : Finset NodeId) :
    Result (Option PredictionFeatureJoinPlan) := do
  let joins := plan.graphPlan.graph.nodes.filter fun node =>
    node.id ∈ baseNodeIds && isPredictionFeatureJoin node
  match joins with
  | [] => pure none
  | [join] =>
    let sources := ((plan.edges.filter fun edge =>
      edge.target.nodeId = join.id && edge.contract.requiresOof).map (·.source.nodeId)).toFinset
    refuseIf (sources = ∅) (.runtimeValidation
      s!"prediction feature join `{join.id}` needs OOF source models")
    let sourceNodeIds := plan.dependencyClosure sources
    refuseIf (join.id ∈ sourceNodeIds)
      (.runtimeValidation s!"prediction feature join `{join.id}` depends on itself")
    let downstreamNodeIds := (baseNodeIds \ sourceNodeIds).erase join.id
    refuseIf (downstreamNodeIds = ∅ ∨ !plan.edges.any fun edge =>
        edge.source.nodeId = join.id && edge.contract.kind = .data &&
          edge.target.nodeId ∈ downstreamNodeIds)
      (.runtimeValidation
        s!"prediction feature join `{join.id}` must feed a downstream base model through Data")
    pure (some ⟨join.id, sourceNodeIds, downstreamNodeIds⟩)
  | _ => throw (.runtimeValidation
      "nested prediction-feature execution currently requires one join node")

-- ---------------------------------------------------------------------------
-- Fit capacity
-- ---------------------------------------------------------------------------

def declaredFitCapacity (nodeIds : Finset NodeId) : Result (List (NodeId × Nat)) := do
  let requirements ← collect (ascending nodeIds) fun nodeId => do
    let node ← need (plan.findNode nodeId) (.panicked "validated graph node")
    let hint := node.metadata["fit_capacity"]?.bind (JsonValue.get "min_fit_samples")
    let minimum := (hint.bind JsonValue.asU64).filter (0 < ·)
    if node.kind ≠ .model then pure none
    else do
      let minimum ← need minimum (.runtimeValidation
        s!"capacity KFold requires model `{nodeId}` metadata.fit_capacity.min_fit_samples >= 1")
      pure (some (nodeId, minimum))
  pure requirements.reduceOption

end ExecutionPlan

def checkFitCapacity (requirements : List (NodeId × Nat)) (fitRows : Nat) (scope : String) :
    Result Unit :=
  each requirements fun (nodeId, minimum) =>
    refuseIf (fitRows < minimum) (.runtimeValidation
      s!"capacity KFold model `{nodeId}` has {fitRows} fit samples in `{scope}`; requires at least {minimum}")

section

variable (sha256 : Digest)

def checkPredictionJoinCapacity (policy : NestedCvSpec) (parentSet : FoldSet)
    (parent : FoldAssignment) (requirements : CapacityRequirements) : Result Unit :=
  checkIf requirements.predictionJoin do
    checkFitCapacity requirements.source parent.trainSampleIds.length "prediction source parent"
    let sourceOof ← parentSet.nestedFoldSet sha256 policy parent
    each sourceOof.innerFoldSet.folds fun sourceFold =>
      checkFitCapacity requirements.source sourceFold.trainSampleIds.length "prediction source OOF"

/-- The folds an automatic gate opens inside one residual fold. -/
def checkAutoGateCapacity (policy : NestedCvSpec) (residualOof : NestedFoldSet)
    (residualFold : FoldAssignment) (requirements : CapacityRequirements) : Result Unit :=
  checkIf requirements.autoGate do
    checkFitCapacity requirements.learner residualFold.trainSampleIds.length
      "automatic-gate learner"
    let gateOof ← residualOof.innerFoldSet.nestedFoldSet sha256 policy residualFold
    each gateOof.innerFoldSet.folds fun gateFold => do
      checkFitCapacity requirements.base gateFold.trainSampleIds.length "automatic-gate base OOF"
      checkPredictionJoinCapacity sha256 policy gateOof.innerFoldSet gateFold requirements

def checkCapacityScopes (policy : NestedCvSpec) (parentSet : FoldSet) (parent : FoldAssignment)
    (requirements : CapacityRequirements) : Result Unit := do
  checkFitCapacity requirements.base parent.trainSampleIds.length "outer base"
  checkFitCapacity requirements.learner parent.trainSampleIds.length "outer learner"
  checkPredictionJoinCapacity sha256 policy parentSet parent requirements
  let residualOof ← parentSet.nestedFoldSet sha256 policy parent
  each residualOof.innerFoldSet.folds fun residualFold => do
    checkFitCapacity requirements.base residualFold.trainSampleIds.length "residual base OOF"
    checkPredictionJoinCapacity sha256 policy residualOof.innerFoldSet residualFold requirements
    checkAutoGateCapacity sha256 policy residualOof residualFold requirements

def checkCapacitySplits (policy : NestedCvSpec) (foldSet : FoldSet)
    (requirements : CapacityRequirements) : Result Unit := do
  each foldSet.folds fun outer => checkCapacityScopes sha256 policy foldSet outer requirements
  let foldId ← Id.new "capacity.refit"
  checkCapacityScopes sha256 policy foldSet ⟨foldId, foldSet.sampleIds, [], ∅⟩ requirements

/-- The smallest feasible split count. The last refusal, which the source puts
at the end of the message, is left out. -/
def resolveCapacityKfold (requested : CapacityKFoldSpec) (foldSet : FoldSet)
    (requirements : CapacityRequirements) : Result NestedCvSpec := do
  refuseIf (!foldSet.sampleGroups.isEmpty) (.runtimeValidation
    "capacity KFold does not support grouped samples; declare a group-aware inner CV policy")
  let fitRows := foldSet.folds.map (·.trainSampleIds.length) ++ [foldSet.sampleIds.length]
  let maxSplits := min (fitRows.min?.getD 0) requested.maxSplits
  let policy (splits : Nat) : NestedCvSpec := .kFold ⟨splits, requested.shuffle, requested.seed⟩
  let splits := List.range' requested.minSplits (maxSplits + 1 - requested.minSplits)
  let feasible := splits.find? fun splits =>
    (checkCapacitySplits sha256 (policy splits) foldSet requirements).isOk
  let splits ← need feasible (.runtimeValidation
    s!"capacity KFold found no feasible split count in {requested.minSplits}..={requested.maxSplits}")
  pure (policy splits)

end

-- ---------------------------------------------------------------------------
-- The campaign of one meta node
-- ---------------------------------------------------------------------------

/-- `fold::resolve_inner_cv`. -/
def resolveInnerCv (nodeInnerCv campaignInnerCv : Option NestedCvSpec) : Option NestedCvSpec :=
  nodeInnerCv.or campaignInnerCv

namespace ExecutionPlan

variable (externals : Externals) (plan : ExecutionPlan)

def resolveInnerSpec (metaNode : NodeSpec) (kind : NestedMetaKind) (baseNodeIds : Finset NodeId)
    (foldSet : FoldSet) (requested : NestedCvSpec) : Result NestedCvSpec :=
  match requested with
  | .capacityKFold spec => do
    refuseIf (kind ≠ .residual)
      (.runtimeValidation "capacity KFold currently supports residual meta nodes only")
    each (ascending baseNodeIds) fun nodeId => do
      let nested ← plan.isNestedStackingMetaNode nodeId
      refuseIf nested
        (.runtimeValidation "capacity KFold does not yet support dependent meta nodes")
    let join ← plan.predictionFeatureJoinPlan baseNodeIds
    let baseNodes := (join.map (·.downstreamNodeIds)).getD baseNodeIds
    let sourceNodes := (join.map (·.sourceNodeIds)).getD ∅
    let base ← plan.declaredFitCapacity baseNodes
    let source ← plan.declaredFitCapacity sourceNodes
    let learner ← plan.declaredFitCapacity {metaNode.id}
    resolveCapacityKfold externals.sha256 spec foldSet {
      base, source, learner
      autoGate := (metaNode.metadata["residual_gate"]?.bind JsonValue.asStr) = some "auto"
      predictionJoin := join.isSome }
  | fixed => .ok fixed

/-- The name of the fold that spans the whole training pool; a recursive scope
takes a name of its own. -/
def refitRootFoldId (foldSet : FoldSet) : String :=
  let declared := plan.campaign.splitInvocation.bind (·.foldSet)
  if declared.any (·.id = foldSet.id) ∧
      !foldSet.folds.any fun fold => "stacking.refit".isPrefixOf fold.foldId.value
  then "stacking.refit"
  else
    let fingerprint :=
      toHex (externals.sha256 (JsonValue.toVec externals.floats (.string foldSet.id))).toList
    s!"stacking.refit:{String.ofList (fingerprint.toList.take 12)}"

def refitFoldSetFor (metaNode : NodeSpec) (foldSet : FoldSet) (innerSpec : NestedCvSpec)
    (outerScopes : List NestedStackingOuterScope) : Result (Option FoldSet) :=
  match metaNode.metadata[stackingRefitOofMetadataKey]? with
  | none => .ok none
  | some value =>
    if value.asStr = some stackingRefitPartitionedInnerV1 then do
      let foldId ← Id.new (plan.refitRootFoldId externals foldSet)
      let refit ← innerSpec.buildInnerFoldSet externals.sha256
        ⟨foldId, foldSet.sampleIds, [], ∅⟩ foldSet.sampleGroups
      let refit : FoldSet := { refit with targetMissingSampleIds := foldSet.targetMissingSampleIds }
      let occupied : List FoldId := outerScopes.flatMap fun outer =>
        outer.outerFoldId :: outer.inner.innerFoldSet.folds.map (·.foldId)
      refuseIf (∃ fold ∈ refit.folds, fold.foldId ∈ occupied) (.runtimeValidation
        "stacking REFIT OOF fold identity collides with an evaluation fold")
      pure (some refit)
    else .error (.runtimeValidation
      s!"unsupported `{stackingRefitOofMetadataKey}` metadata: {String.ofList (JsonValue.render externals.floats value)}")

/-- The checks that stand before any fold is built; what they leave is the kind
of the meta node and its two dependency closures. -/
def nestedMetaInputs (metaNode : NodeSpec) :
    Result (NestedMetaKind × Finset NodeId × Finset NodeId) := do
  let metaNodeId := metaNode.id
  let kind : NestedMetaKind :=
    if residualTargetExecutionMetadataKey ∈ metaNode.metadata then .residual else .stacking
  let metaPlan ← need plan.nodePlans[metaNodeId]? (.runtimeValidation
    s!"nested stacking meta node `{metaNodeId}` has no execution plan")
  refuseIf (.fitCv ∉ metaPlan.supportedPhases) (.runtimeValidation
    s!"nested stacking meta node `{metaNodeId}` does not support FIT_CV")
  let incoming := plan.edges.filter (·.target.nodeId = metaNodeId)
  let oofSources := ((incoming.filter (·.contract.requiresOof)).map (·.source.nodeId)).toFinset
  let count := if kind = .stacking then "at least one" else "exactly one"
  refuseIf (kind = .stacking ∧ oofSources = ∅ ∨ kind = .residual ∧ oofSources.card ≠ 1)
    (.runtimeValidation
      s!"nested {kind.debug} meta node `{metaNodeId}` requires {count} OOF base producer(s)")
  refuseIf (incoming.any fun edge =>
      !edge.contract.requiresOof && (kind = .stacking || edge.contract.kind ≠ .data))
    (.runtimeValidation
      s!"nested {kind.debug} meta node `{metaNodeId}` has an unsupported non-OOF graph input")
  let baseNodeIds := plan.dependencyClosure oofSources
  refuseIf (metaNodeId ∈ baseNodeIds) (.runtimeValidation
    s!"nested stacking meta node `{metaNodeId}` is in its base dependency closure")
  let dataSources := ((incoming.filter fun edge =>
    edge.contract.kind = .data && !edge.contract.requiresOof).map (·.source.nodeId)).toFinset
  let metaDataNodeIds := if kind = .residual then plan.dependencyClosure dataSources else ∅
  refuseIf (metaNodeId ∈ metaDataNodeIds) (.runtimeValidation
    s!"residual learner `{metaNodeId}` is in its own data dependency closure")
  pure (kind, baseNodeIds, metaDataNodeIds)

def nestedStackingCampaignPlanForNode (metaNodeId : NodeId) :
    Result (Option NestedStackingCampaignPlan) := do
  if !(← plan.isNestedStackingMetaNode metaNodeId) then pure none
  else
    let metaNode ← need (plan.findNode metaNodeId) (.panicked "validated meta node")
    let (kind, baseNodeIds, metaDataNodeIds) ← plan.nestedMetaInputs metaNode
    let foldSet ← need plan.foldSet
      (.runtimeValidation "nested stacking requires an attested outer fold set")
    let nodeInnerCv := plan.nodePlans[metaNodeId]?.bind (·.innerCv)
    let requested ← need (resolveInnerCv nodeInnerCv plan.campaign.innerCv) (.runtimeValidation
      s!"nested stacking meta node `{metaNodeId}` has no inner_cv policy")
    let innerSpec ← plan.resolveInnerSpec externals metaNode kind baseNodeIds foldSet requested
    let outerScopes ← collect foldSet.folds fun outer => do
      let inner ← foldSet.nestedFoldSet externals.sha256 innerSpec outer
      pure (NestedStackingOuterScope.mk outer.foldId inner)
    refuseIf outerScopes.isEmpty
      (.runtimeValidation "nested stacking requires at least one outer fold")
    let refitFoldSet ← plan.refitFoldSetFor externals metaNode foldSet innerSpec outerScopes
    refuseIf (kind = .residual ∧ refitFoldSet.isNone) (.runtimeValidation
      s!"residual learner `{metaNodeId}` requires partitioned inner OOF preparation for REFIT")
    pure (some {
      metaNodeId, kind, innerCv := innerSpec, baseNodeIds, metaDataNodeIds, outerScopes
      refitFoldSet })

/-- The plans of the metas that no other meta depends on. -/
def nestedStackingCampaignPlans : Result (List NestedStackingCampaignPlan) := do
  let requested ← collect plan.graphPlan.graph.nodes fun node => do
    let nested ← plan.isNestedStackingMetaNode node.id
    pure (if nested then some node.id else none)
  let requested := requested.reduceOption
  let terminal := requested.filter fun candidate =>
    !requested.any fun other =>
      other ≠ candidate && candidate ∈ plan.dependencyClosure {other}
  collect terminal fun nodeId => do
    let campaign ← plan.nestedStackingCampaignPlanForNode externals nodeId
    need campaign (.panicked "terminal is a validated meta node")

end ExecutionPlan

end DagMl

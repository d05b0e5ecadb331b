import DagMl.Bundle.DataRequirement
import DagMl.Runtime.CacheStores

/-!
# What a training run persists of its OOF predictions

The requirements that the blocks of a run fulfil, and the records and payloads
of the caches that keep those blocks for a refit or a replay.
-/

namespace DagMl

open Checked

namespace ExecutionPlan

variable (plan : ExecutionPlan)

/-- `producer_port_matches_graph_output`. -/
def producerPortMatchesGraphOutput (nodeId : NodeId) (portName : String)
    (producerPort : Option String) : Bool :=
  match producerPort with
  | some port => port = portName
  | none => (plan.findNode nodeId).any (·.predictionPorts = [portName])

def isResidualFusionTarget (nodeId : NodeId) : Bool :=
  plan.graphPlan.graph.nodes.any fun node => node.id = nodeId &&
    (node.metadata["residual_fusion_for"]?.bind JsonValue.asStr).isSome

def isPredictionFeatureTarget (nodeId : NodeId) : Bool :=
  plan.graphPlan.graph.nodes.any fun node => node.id = nodeId && isPredictionFeatureJoin node

/-- Consumers with nested runs keep the rows of the outer folds and no others. -/
def reportFoldIds (target : NodeId) : Result (Option (List FoldId)) := do
  let nested ← plan.isNestedStackingMetaNode target
  if nested || plan.isResidualFusionTarget target || plan.isPredictionFeatureTarget target then do
    let foldSet ← need plan.foldSet
      (.runtimeValidation "nested stacking requires an attested outer fold set")
    pure (some (foldSet.folds.map (·.foldId)))
  else pure none

end ExecutionPlan

-- ---------------------------------------------------------------------------
-- Requirements
-- ---------------------------------------------------------------------------

/-- `merge_oof_shape`: the width and the target names that the blocks agree on. -/
def mergeOofShape (producer : NodeId) (expected : Option (Nat × List String)) (width : Nat)
    (names : List String) : Result (Option (Nat × List String)) := do
  refuseIf (∃ shape ∈ expected, shape.1 ≠ width) (.runtimeValidation
    s!"OOF requirement for `{producer}` has inconsistent prediction width")
  let names := if names.isEmpty then (List.range width).map fun index => s!"p{index}" else names
  refuseIf (∃ shape ∈ expected, shape.2 ≠ names) (.runtimeValidation
    s!"OOF requirement for `{producer}` has inconsistent target names")
  pure (some (width, names))

section

variable {β : Type} (plan : ExecutionPlan) (kind : BlockKind β) (edge : EdgeSpec)
  (level : PredictionLevel) (report : Option (List FoldId))

/-- The validation blocks of the edge's source. -/
def isEvidence (block : β) : Bool :=
  kind.producerNode block = edge.source.nodeId &&
    plan.producerPortMatchesGraphOutput edge.source.nodeId edge.source.portName
      (kind.producerPort block) &&
    kind.partition block = .validation && kind.level block = level &&
    report.all fun foldIds => (kind.foldId block).any (foldIds.contains ·)

def gatherShape (expected : Option (Nat × List String)) (block : β) :
    Result (Option (Nat × List String)) := do
  let width ← kind.validateShape block
  mergeOofShape edge.source.nodeId expected width (kind.targetNames block)

/-- One level's branch: `word` names the level in its message. -/
def requirementFrom (word : String) (blocks : List β) : Result BundlePredictionRequirement := do
  let selected := blocks.filter (isEvidence plan kind edge level report)
  refuseIf selected.isEmpty (.runtimeValidation
    s!"OOF requirement `{edge.source.nodeId}` -> `{edge.target.nodeId}` has no validation {word} blocks")
  let shape ← loop (gatherShape kind edge) none selected
  let requirement : BundlePredictionRequirement := {
    producerNode := edge.source.nodeId
    sourcePort := edge.source.portName
    consumerNode := edge.target.nodeId
    targetPort := edge.target.portName
    partition := .validation
    predictionLevel := level
    foldIds := ascending (selected.filterMap kind.foldId).toFinset
    unitIds := ascending (selected.flatMap kind.unitIds).toFinset
    sampleIds := ascending (selected.flatMap kind.sampleIds).toFinset
    predictionWidth := (shape.map Prod.fst).getD 0
    targetNames := (shape.map Prod.snd).getD [] }
  requirement.validate
  pure requirement

end

section

variable (plan : ExecutionPlan) (blocks : List PredictionBlock)
  (aggregatedBlocks : List AggregatedPredictionBlock)

/-- `aggregation_level` of the source's shape plan, `Sample` without one. -/
def NodePlan.oofLevel (self : NodePlan) : PredictionLevel :=
  (self.shapePlan.map (·.aggregationPolicy.aggregationLevel)).getD .sample

/-- One turn of the loop over the OOF edges. -/
def oofRequirement (edge : EdgeSpec) : Result BundlePredictionRequirement := do
  let report ← plan.reportFoldIds edge.target.nodeId
  let sourcePlan ← need plan.nodePlans[edge.source.nodeId]? (.runtimeValidation
    s!"OOF edge source `{edge.source.nodeId}` has no node plan")
  match sourcePlan.oofLevel with
  | .sample => requirementFrom plan sampleKind edge .sample report "sample" blocks
  | .target => requirementFrom plan aggregatedKind edge .target report "Target" aggregatedBlocks
  | .group => requirementFrom plan aggregatedKind edge .group report "Group" aggregatedBlocks
  | .observation => throw (.runtimeValidation
      s!"OOF requirement `{edge.source.nodeId}` -> `{edge.target.nodeId}` cannot persist observation-level predictions; aggregate before refit")

def buildOofPredictionRequirements : Result (List BundlePredictionRequirement) := do
  let requirements ← collect plan.oofEdges (oofRequirement plan blocks aggregatedBlocks)
  pure (Keyed.sortBy BundlePredictionRequirement.key requirements)

end

-- ---------------------------------------------------------------------------
-- Caches
-- ---------------------------------------------------------------------------

section

variable (externals : Externals) (blocks : List PredictionBlock)
  (aggregatedBlocks : List AggregatedPredictionBlock)
  (requirements : List BundlePredictionRequirement)

def observationCache (requirement : BundlePredictionRequirement) : DagMlError :=
  .runtimeValidation
    s!"prediction cache requirement `{requirement.key}` cannot use observation-level predictions"

/-- The record of one requirement. -/
def oofPredictionCacheRecord (requirement : BundlePredictionRequirement) :
    Result BundlePredictionCacheRecord :=
  match requirement.predictionLevel with
  | .sample => buildPredictionCacheRecord externals requirement blocks
  | .target | .group => buildAggregatedPredictionCacheRecord externals requirement aggregatedBlocks
  | .observation => .error (observationCache requirement)

def buildOofPredictionCacheRecords : Result (List BundlePredictionCacheRecord) :=
  collect requirements (oofPredictionCacheRecord externals blocks aggregatedBlocks)

/-- The payload of one requirement. -/
def oofPredictionCachePayload (requirement : BundlePredictionRequirement) :
    Result BundlePredictionCachePayload :=
  match requirement.predictionLevel with
  | .sample => buildPredictionCachePayload externals requirement blocks
  | .target | .group => buildAggregatedPredictionCachePayload externals requirement aggregatedBlocks
  | .observation => .error (observationCache requirement)

def buildOofPredictionCachePayloads : Result (List BundlePredictionCachePayload) :=
  collect requirements (oofPredictionCachePayload externals blocks aggregatedBlocks)

end

section

-- what the namespaces of a record's blocks are derived from is left open
variable (externals : Externals)
  (namespaceFingerprints : BundlePredictionRequirement → BundlePredictionCacheRecord →
    Result (List String))
  (requirements : List BundlePredictionRequirement)

/-- One turn of the loop over the records, with the records done and the
payloads so far. -/
def attachNamespaces
    (state : List BundlePredictionCacheRecord × List BundlePredictionCachePayload)
    (record : BundlePredictionCacheRecord) :
    Result (List BundlePredictionCacheRecord × List BundlePredictionCachePayload) := do
  let requirement ← need
    (BTreeMap.collect (requirements.map fun r => (r.key, r)))[record.requirementKey]?
    (.runtimeValidation
      s!"prediction cache `{record.cacheId}` references unknown OOF requirement `{record.requirementKey}`")
  let fingerprints ← namespaceFingerprints requirement record
  let record := { record with cacheNamespaceFingerprints := fingerprints }
  let payload ← need (state.2.find? (·.requirementKey = record.requirementKey))
    (.runtimeValidation
      s!"prediction cache `{record.cacheId}` has no portable payload for requirement `{record.requirementKey}`")
  let payload := { payload with cacheNamespaceFingerprints := fingerprints }
  validatePredictionCachePayloadMatchesRecord externals payload record
  let index := state.2.findIdx (·.requirementKey = record.requirementKey)
  pure (state.1 ++ [record], state.2.set index payload)

def attachOofPredictionCacheNamespaces (records : List BundlePredictionCacheRecord)
    (payloads : List BundlePredictionCachePayload) :
    Result (List BundlePredictionCacheRecord × List BundlePredictionCachePayload) :=
  loop (attachNamespaces externals namespaceFingerprints requirements) ([], payloads) records

end

section

variable (externals : Externals)
  (namespaceFingerprints : BundlePredictionRequirement → BundlePredictionCacheRecord →
    Result (List String))
  (plan : ExecutionPlan) (blocks : List PredictionBlock)
  (aggregatedBlocks : List AggregatedPredictionBlock)

/-- What `execute_training` keeps of the selected run when it retains its caches. -/
def retainOofCaches : Result (List BundlePredictionRequirement ×
    List BundlePredictionCacheRecord × List BundlePredictionCachePayload) := do
  let requirements ← buildOofPredictionRequirements plan blocks aggregatedBlocks
  let records ← buildOofPredictionCacheRecords externals blocks aggregatedBlocks requirements
  let payloads ← buildOofPredictionCachePayloads externals blocks aggregatedBlocks requirements
  let caches ← attachOofPredictionCacheNamespaces externals namespaceFingerprints requirements
    records payloads
  pure (requirements, caches)

end

/-- A store as the replay sees it. -/
def InMemoryPredictionCacheStore.runtimeStore (externals : Externals)
    (self : InMemoryPredictionCacheStore) : RuntimePredictionCacheStore where
  loadBlocks := self.loadBlocks externals
  loadAggregatedBlocks := self.loadAggregatedBlocks externals
  materialize request := (self.materialize externals request).map Prod.fst

end DagMl

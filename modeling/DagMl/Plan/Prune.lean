import DagMl.Generation.Variant
import DagMl.Lib.Worklist
import DagMl.Plan

/-!
# Pruning a union plan

An operator generator compiles to one plan that holds every choice. SELECT
replays a single one: `prunePlanToActive` keeps its nodes and what they share
with the others upstream, and rebuilds all that was derived from the graph.
-/

namespace DagMl

open Checked

-- ---------------------------------------------------------------------------
-- Neighbours
-- ---------------------------------------------------------------------------

namespace GraphSpec

/-- Each neighbour once, ascending. -/
def upstreamNodes (self : GraphSpec) (nodeId : NodeId) : List NodeId :=
  ascending ((self.edges.filter (·.target.nodeId = nodeId)).map (·.source.nodeId)).toFinset

def downstreamNodes (self : GraphSpec) (nodeId : NodeId) : List NodeId :=
  ascending ((self.edges.filter (·.source.nodeId = nodeId)).map (·.target.nodeId)).toFinset

/-- The worklist over `upstreamNodes`, from the last active node on. Every node
is pushed once at most after the active ones, so the fuel suffices. -/
def ancestors (self : GraphSpec) (activeNodes : Finset NodeId) : Finset NodeId :=
  Worklist.above self.upstreamNodes (activeNodes.card + self.edges.length) ∅
    (ascending activeNodes).reverse

end GraphSpec

-- ---------------------------------------------------------------------------
-- The plan
-- ---------------------------------------------------------------------------

structure CompiledGraphPlan extends GraphPlan where
  topologicalOrder : List NodeId

def CompiledGraphPlan.fromGraph (graph : GraphSpec) : Result CompiledGraphPlan := do
  let topologicalOrder ← graph.topologicalOrder
  let storedLevels ← graph.parallelLevels
  pure { graph, storedLevels, topologicalOrder }

/-- A node plan with both lists of neighbours. -/
structure CompiledNodePlan extends NodePlan where
  outputNodes : List NodeId

structure CompiledPlan where
  id : String
  graphPlan : CompiledGraphPlan
  campaign : CampaignSpec
  nodePlans : BTreeMap NodeId CompiledNodePlan
  controllerManifests : BTreeMap ControllerId JsonValue
  variants : List VariantPlan
  foldSet : Option FoldSet
  graphFingerprint : String
  campaignFingerprint : String
  controllerFingerprint : String

section

-- `graphFingerprint` is the digest of a graph's JSON. `contracts` stands for the
-- checks of `validate` that read the campaign, the controllers, the bindings
-- and the identity of a variant.
variable (graphFingerprint : GraphSpec → String) (contracts : CompiledPlan → Result Unit)

namespace CompiledPlan

def validateNodePlan (self : CompiledPlan) (entry : NodeId × CompiledNodePlan) : Result Unit := do
  let graph := self.graphPlan.graph
  let graphNode ← need (graph.nodes.find? (·.id = entry.1))
    (.panicked "node_plans keys equal graph node ids")
  refuseIf (entry.2.kind ≠ graphNode.kind)
    (.planning s!"node plan `{entry.1}` kind does not match graph node kind")
  refuseIf (entry.2.inputNodes ≠ graph.upstreamNodes entry.1 ∨
      entry.2.outputNodes ≠ graph.downstreamNodes entry.1)
    (.planning s!"node plan `{entry.1}` input/output adjacency does not match the graph")

def validateLevels (self : CompiledPlan) : Result Unit :=
  if self.graphPlan.storedLevels.isEmpty then .ok ()
  else do
    let levels ← self.graphPlan.graph.parallelLevels
    refuseIf (self.graphPlan.storedLevels ≠ levels)
      (.planning "graph plan parallel levels do not match graph")

def validateVariants (self : CompiledPlan) : Result Unit := do
  refuseIf (self.variants = []) (.planning "execution plan has no variants")
  eachUnique (·.variantId) (·.validate)
    (fun variant => .planning s!"execution plan repeats variant `{variant.variantId}`") self.variants

def validate (self : CompiledPlan) : Result Unit := do
  self.graphPlan.graph.validate
  self.validateLevels
  refuseIf (graphFingerprint self.graphPlan.graph ≠ self.graphFingerprint)
    (.planning "execution plan graph_fingerprint does not match the embedded graph")
  each self.nodePlans.toList fun entry => refuseIf (entry.1 ≠ entry.2.nodeId)
    (.planning s!"node plan keyed `{entry.1}` declares node_id `{entry.2.nodeId}`")
  refuseIf (self.nodePlans.keys.toFinset ≠ self.graphPlan.graph.nodeIds)
    (.planning "execution plan node_plans do not exactly cover the graph node-id set")
  let order ← self.graphPlan.graph.topologicalOrder
  refuseIf (self.graphPlan.topologicalOrder ≠ order)
    (.planning "execution plan topological_order does not match the graph")
  each self.nodePlans.toList self.validateNodePlan
  contracts self
  self.validateVariants

end CompiledPlan

-- ---------------------------------------------------------------------------
-- Pruning
-- ---------------------------------------------------------------------------

def EdgeSpec.inputPort (self : EdgeSpec) : NodeId ×ₗ String :=
  toLex (self.target.nodeId, self.target.portName)

/-- The sources counted for each input port are kept as a list. -/
def validateActiveInputs (plan : CompiledPlan) (unionGraph : GraphSpec) : Result Unit :=
  let prunedGraph := plan.graphPlan.graph
  let unionPortSources := BTreeMap.groupBy EdgeSpec.inputPort
    (unionGraph.edges.filter (·.target.nodeId ∈ prunedGraph.nodeIds))
  let prunedPortSources := BTreeMap.groupBy EdgeSpec.inputPort prunedGraph.edges
  each unionPortSources.toList fun entry => do
    let port := ofLex entry.1
    let prunedCount := (prunedPortSources[entry.1]?.getD []).length
    refuseIf (1 ≤ entry.2.length ∧ prunedCount = 0) (.planning
      s!"operator-SELECT prune left node `{port.1}` required input port `{port.2}` with zero surviving sources (dangling): its producer was pruned away")
    refuseIf (1 < prunedCount) (.planning
      s!"operator-SELECT prune left node `{port.1}` input port `{port.2}` fed by {prunedCount} surviving sources (ambiguous)")

def GraphSpec.induced (self : GraphSpec) (keep : Finset NodeId) : GraphSpec :=
  { self with
    nodes := self.nodes.filter (·.id ∈ keep)
    edges := self.edges.filter fun edge =>
      edge.source.nodeId ∈ keep ∧ edge.target.nodeId ∈ keep }

/-- A kept node plan between its neighbours in the pruned graph. -/
def CompiledNodePlan.within (self : CompiledNodePlan) (graph : GraphSpec) (nodeId : NodeId) :
    CompiledNodePlan :=
  { self with
    inputNodes := graph.upstreamNodes nodeId
    outputNodes := graph.downstreamNodes nodeId }

def keptNodes (graph : GraphSpec) (activeNodes allChoiceNodes : Finset NodeId) : Finset NodeId :=
  let sharedPrefix := (graph.ancestors activeNodes).filter (· ∉ allChoiceNodes)
  sharedPrefix ∪ activeNodes

def prunePlanToActive (plan : CompiledPlan) (activeNodes allChoiceNodes : Finset NodeId)
    (variant : VariantPlan) : Result CompiledPlan := do
  plan.validate graphFingerprint contracts
  variant.validate
  each (ascending activeNodes) fun nodeId => refuseIf (nodeId ∉ plan.nodePlans) (.planning
    s!"operator-SELECT prune: active node `{nodeId}` is not in the union plan")
  refuseIf (activeNodes = ∅) (.planning "operator-SELECT prune: active node set is empty")
  let graph := plan.graphPlan.graph
  let keep := keptNodes graph activeNodes allChoiceNodes
  let graphPlan ← CompiledGraphPlan.fromGraph (graph.induced keep)
  let nodePlans := BTreeMap.collect ((plan.nodePlans.toList.filter (·.1 ∈ keep)).map fun entry =>
    (entry.1, entry.2.within graphPlan.graph entry.1))
  let pruned := { plan with
    graphPlan, nodePlans, variants := [variant]
    graphFingerprint := graphFingerprint graphPlan.graph }
  pruned.validate graphFingerprint contracts
  validateActiveInputs pruned graph
  pure pruned

end

end DagMl

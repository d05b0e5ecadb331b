import DagMl.Fold.Nested
import DagMl.Graph.Order
import DagMl.Json
import DagMl.Policy

/-!
# Execution plans

Phases and the parts of a compiled plan that the runtime reads.
-/

namespace DagMl

inductive Phase
  | compile
  | plan
  | fitCv
  | select
  | refit
  | predict
  | explain
  deriving DecidableEq

/-- `{:?}`. -/
def Phase.debug : Phase → String
  | .compile => "Compile"
  | .plan => "Plan"
  | .fitCv => "FitCv"
  | .select => "Select"
  | .refit => "Refit"
  | .predict => "Predict"
  | .explain => "Explain"

theorem Phase.debug_injective : Function.Injective Phase.debug := by
  intro p q h
  cases p <;> cases q <;> first | rfl | exact absurd h (by decide)

/-- What a binding passes on to the data requirement of its input. -/
structure DataBinding where
  nodeId : NodeId
  inputName : String
  schemaFingerprint : String
  planFingerprint : String
  relationFingerprint : Option String
  outputRepresentation : String
  featureSetId : Option String
  deriving DecidableEq

/-- A loss a node trains under; `document` is the rest of the reference, read
by nothing but its fingerprint. -/
structure TrainingLossRoleReference where
  phases : List Phase
  document : JsonValue

structure DataModelShapePlan where
  aggregationPolicy : AggregationPolicy

structure NodePlan where
  nodeId : NodeId
  kind : NodeKind
  controllerId : ControllerId
  controllerVersion : String
  supportedPhases : Finset Phase
  trainingLosses : List TrainingLossRoleReference
  inputNodes : List NodeId
  shapePlan : Option DataModelShapePlan
  dataBindings : List DataBinding
  /-- Overrides the campaign's policy. -/
  innerCv : Option NestedCvSpec
  paramsFingerprint : String

structure SplitInvocation where
  foldSet : Option FoldSet

structure CampaignSpec where
  splitInvocation : Option SplitInvocation
  innerCv : Option NestedCvSpec

structure GraphPlan where
  graph : GraphSpec
  /-- The field `parallel_levels`; empty where it was not stored. -/
  storedLevels : List (List NodeId)

def GraphPlan.parallelLevels (self : GraphPlan) : Result (List (List NodeId)) :=
  if self.storedLevels.isEmpty then self.graph.parallelLevels else .ok self.storedLevels

structure ExecutionPlan where
  id : String
  graphPlan : GraphPlan
  campaign : CampaignSpec
  nodePlans : BTreeMap NodeId NodePlan
  foldSet : Option FoldSet

namespace ExecutionPlan

/-- `graph.nodes.iter().find(|node| node.id == node_id)`. -/
def findNode (self : ExecutionPlan) (nodeId : NodeId) : Option NodeSpec :=
  self.graphPlan.graph.nodes.find? (·.id = nodeId)

def nodeParallelLevelsForPhase (self : ExecutionPlan) (phase : Phase) :
    Result (List (List NodeId)) := do
  let levels ← self.graphPlan.parallelLevels
  pure ((levels.map fun level => level.filter fun nodeId =>
    self.nodePlans[nodeId]?.any (phase ∈ ·.supportedPhases)).filter (!·.isEmpty))

end ExecutionPlan

end DagMl

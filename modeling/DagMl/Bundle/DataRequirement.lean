import Mathlib
import DagMl.Bundle.AgainstPlan

/-!
# Data requirements of a bundle

A plan's data bindings become the data requirements of its bundles. A bundle is
held against an index of them by `node.input` key, and a REFIT replay looks its
out-of-fold requirements up by key as well.
-/

namespace DagMl

open Checked

-- ---------------------------------------------------------------------------
-- One requirement
-- ---------------------------------------------------------------------------

/-- `document` is the rest of the manifest, read by nothing but its own check. -/
structure RepresentationReplayManifest where
  relationFingerprint : Option String
  document : JsonValue

structure BundleDataRequirement where
  nodeId : NodeId
  inputName : String
  schemaFingerprint : String
  planFingerprint : String
  relationFingerprint : Option String
  outputRepresentation : String
  featureSetId : Option String
  representationReplayManifest : Option RepresentationReplayManifest
  representationCompatibility : Option JsonValue

/-- The checks of the documents a requirement can carry. -/
structure RepresentationChecks where
  replayManifest : RepresentationReplayManifest → Result Unit
  compatibility : JsonValue → Result Unit

def DataBinding.requirementKey (self : DataBinding) : String :=
  dataBindingRequirementKey self.nodeId self.inputName

namespace BundleDataRequirement

def key (self : BundleDataRequirement) : String :=
  dataBindingRequirementKey self.nodeId self.inputName

def matchesPlanRequirement (self expected : BundleDataRequirement) : Bool :=
  self.nodeId = expected.nodeId
    && self.inputName = expected.inputName
    && self.schemaFingerprint = expected.schemaFingerprint
    && self.planFingerprint = expected.planFingerprint
    && self.relationFingerprint = expected.relationFingerprint
    && self.outputRepresentation = expected.outputRepresentation
    && self.featureSetId = expected.featureSetId

def validate (checks : RepresentationChecks) (self : BundleDataRequirement) : Result Unit := do
  refuseIf (isBlank self.inputName) (.campaignValidation
    s!"bundle data requirement for `{self.nodeId}` has empty input_name")
  validateRuntimeFingerprint "schema" self.schemaFingerprint
  validateRuntimeFingerprint "plan" self.planFingerprint
  whenSome self.relationFingerprint (validateRuntimeFingerprint "relation")
  whenSome self.representationReplayManifest fun replayManifest => do
    checks.replayManifest replayManifest
    refuseIf (self.relationFingerprint.isSome ∧ replayManifest.relationFingerprint.isSome ∧
        self.relationFingerprint ≠ replayManifest.relationFingerprint) (.campaignValidation
      s!"bundle data requirement `{self.key}` relation_fingerprint does not match representation replay manifest")
  whenSome self.representationCompatibility checks.compatibility
  refuseIf (isBlank self.outputRepresentation) (.campaignValidation
    s!"bundle data requirement `{self.key}` has empty output representation")
  whenSome self.featureSetId fun featureSetId =>
    refuseIf (isBlank featureSetId) (.campaignValidation
      s!"bundle data requirement `{self.key}` has empty feature_set_id")

/-- The requirement of a binding that stands in the plan of `nodeId`. -/
def ofBinding (nodeId : NodeId) (binding : DataBinding) : BundleDataRequirement where
  nodeId
  inputName := binding.inputName
  schemaFingerprint := binding.schemaFingerprint
  planFingerprint := binding.planFingerprint
  relationFingerprint := binding.relationFingerprint
  outputRepresentation := binding.outputRepresentation
  featureSetId := binding.featureSetId
  representationReplayManifest := none
  representationCompatibility := none

end BundleDataRequirement

-- ---------------------------------------------------------------------------
-- The plan
-- ---------------------------------------------------------------------------

/-- The data bindings of every node plan. -/
def ExecutionPlan.dataBindings (self : ExecutionPlan) : List DataBinding :=
  self.nodePlans.toList.flatMap fun entry => entry.2.dataBindings

/-- The edges that ask for out-of-fold predictions. -/
def ExecutionPlan.oofEdges (self : ExecutionPlan) : List EdgeSpec :=
  self.graphPlan.graph.edges.filter (·.contract.requiresOof)

/-- The other checks of `ExecutionPlan::validate` between those of the graph and of
the fold set, in the places they stand. -/
structure NodePlanChecks where
  opening : ExecutionPlan → Result Unit
  coverage : ExecutionPlan → Result Unit
  node : ExecutionPlan → NodePlan → Result Unit
  binding : DataBinding → Result Unit
  nodeClosing : ExecutionPlan → NodePlan → Result Unit
  closing : ExecutionPlan → Result Unit

/-- Every node plan stands under its own id and binds data for its own node. -/
def ExecutionPlan.validateNodePlans (checks : NodePlanChecks) (self : ExecutionPlan) :
    Result Unit := do
  checks.opening self
  each self.nodePlans.toList fun (nodeId, plan) =>
    refuseIf (nodeId ≠ plan.nodeId) (.planning
      s!"node plan keyed `{nodeId}` declares node_id `{plan.nodeId}`")
  checks.coverage self
  each self.nodePlans.toList fun (nodeId, plan) => do
    checks.node self plan
    each plan.dataBindings fun binding => do
      refuseIf (binding.nodeId ≠ nodeId) (.planning
        s!"node plan `{nodeId}` contains data binding for `{binding.nodeId}`")
      checks.binding binding
    checks.nodeClosing self plan
  checks.closing self

def collectDataRequirements (checks : RepresentationChecks) (plan : ExecutionPlan) :
    Result (List BundleDataRequirement) := do
  let requirements := plan.nodePlans.toList.flatMap fun entry =>
    entry.2.dataBindings.map (.ofBinding entry.2.nodeId)
  let requirements := Keyed.sortBy BundleDataRequirement.key requirements
  each requirements (·.validate checks)
  pure requirements

-- ---------------------------------------------------------------------------
-- The bundle
-- ---------------------------------------------------------------------------

/-- The sections of a bundle, with its data requirements told apart. -/
structure DataSections (Rest : Type) where
  dataRequirements : List BundleDataRequirement
  rest : Rest

/-- Every check that reads no data requirement: those of the documents, of the other
sections, of the plan, and what a bundle is held against before and after its data
requirements. -/
structure ReplayChecks (Rest : Type) where
  representation : RepresentationChecks
  sections : SectionChecks (DataSections Rest)
  nodePlans : NodePlanChecks
  planClosing : ExecutionPlan → Result Unit
  opening : ExecutionBundle (DataSections Rest) → ExecutionPlan → Result Unit
  artifacts : ExecutionBundle (DataSections Rest) → ExecutionPlan → Result Unit

namespace ExecutionBundle

variable {Rest : Type}

def checkDataRequirement (checks : RepresentationChecks)
    (self : ExecutionBundle (DataSections Rest)) (dataKeys : BTreeMap String BundleDataRequirement)
    (requirement : BundleDataRequirement) : Result (BTreeMap String BundleDataRequirement) := do
  requirement.validate checks
  refuseIf (requirement.key ∈ dataKeys) (.runtimeValidation
    s!"bundle `{self.bundleId}` has duplicate data requirement `{requirement.key}`")
  pure (dataKeys.insert requirement.key requirement)

/-- The checks of `ExecutionBundle::validate`; the data requirements stand right
before the prediction requirements. -/
def sectionChecks (checks : ReplayChecks Rest) : SectionChecks (DataSections Rest) where
  opening := checks.sections.opening
  middle self := do
    checks.sections.middle self
    let _ ← loop (self.checkDataRequirement checks.representation) ∅ self.sections.dataRequirements
  closing := checks.sections.closing

def validateDataRequirementsAgainstPlan (checks : RepresentationChecks)
    (self : ExecutionBundle (DataSections Rest)) (plan : ExecutionPlan) : Result Unit := do
  let expectedRequirements ← collectDataRequirements checks plan
  let expectedByKey := BTreeMap.collect (expectedRequirements.map fun requirement =>
    (requirement.key, requirement))
  refuseIf (self.sections.dataRequirements.length ≠ expectedByKey.size) (.runtimeValidation
    s!"bundle `{self.bundleId}` data requirement count does not match execution plan")
  each self.sections.dataRequirements fun requirement => do
    let expected ← need expectedByKey[requirement.key]? (.runtimeValidation
      s!"bundle `{self.bundleId}` data requirement `{requirement.key}` does not exist in execution plan")
    refuseIf (requirement.matchesPlanRequirement expected = false) (.runtimeValidation
      s!"bundle `{self.bundleId}` data requirement `{requirement.key}` does not match execution plan")

/-- Forward replay of fitted predictors needs no training cache. REFIT does. -/
def validateRefitOofRequirements (self : ExecutionBundle (DataSections Rest))
    (plan : ExecutionPlan) : Result Unit :=
  each plan.oofEdges fun edge =>
    refuseIf (self.predictionRequirements.all fun requirement =>
      requirement.key ≠ edge.requirementKey) (.runtimeValidation
        s!"REFIT bundle is missing OOF requirement `{edge.requirementKey}`")

/-- What `execute_bundle_replay` holds a bundle against before it replays it. -/
def validateForReplay (checks : ReplayChecks Rest) (self : ExecutionBundle (DataSections Rest))
    (plan : ExecutionPlan) (phase : Phase) : Result Unit := do
  self.validateAgainstPlan plan (sectionChecks checks)
    ⟨ExecutionPlan.validateNodePlans checks.nodePlans, checks.planClosing⟩ fun self plan => do
      checks.opening self plan
      self.validateDataRequirementsAgainstPlan checks.representation plan
      checks.artifacts self plan
  checkIf (phase = .refit) (self.validateRefitOofRequirements plan)

end ExecutionBundle

end DagMl

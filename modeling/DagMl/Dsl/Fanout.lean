import DagMl.Dsl.Namespace
import DagMl.Plan
import DagMl.Relation.Basic

/-!
# Data-aware branch fan-out

A branch step marked `auto_separate` holds one template branch. Given the
relations of the data it becomes an explicit branch step with one copy of the
template for each value that occurs.
-/

namespace DagMl

open Checked PipelineDslStep

-- ---------------------------------------------------------------------------
-- Envelope
-- ---------------------------------------------------------------------------

/-- `Cohort` is the predict cohort, which the fan-out does not read. -/
structure ExternalDataPlanEnvelope (Cohort : Type) where
  schemaVersion : Nat := 1
  schemaFingerprint : String
  planFingerprint : String
  relationFingerprint : Option String := none
  dataContentFingerprint : Option String := none
  targetContentFingerprint : Option String := none
  coordinatorRelations : Option SampleRelationSet := none
  predictCohort : Option Cohort := none
  /-- What a record's metadata holds the JSON library can build. -/
  metadataValid : ∀ relations ∈ coordinatorRelations, ∀ record ∈ relations.records,
    ∀ (key : String) value, record.metadata[key]? = some value → value.Valid

def validateFingerprint (label value : String) : Result Unit :=
  refuseIf (¬(value.utf8ByteSize = 64 ∧
      value.toList.all fun c => c.isDigit || ('a' ≤ c && c ≤ 'f')))
    (.campaignValidation s!"{label} fingerprint must be a 64-character hex digest")

/-- `checkCohort` is the cohort's own check, with the relations it is held
against when it is an external test. -/
def ExternalDataPlanEnvelope.validate {Cohort : Type}
    (checkCohort : Cohort → Option SampleRelationSet → Result Unit)
    (self : ExternalDataPlanEnvelope Cohort) : Result Unit := do
  refuseIf (self.schemaVersion ≠ 1 ∧ self.schemaVersion ≠ 2) (.campaignValidation
    s!"external data-plan envelope uses unsupported schema_version {self.schemaVersion}")
  refuseIf (self.schemaVersion = 1 ∧ self.predictCohort.isSome) (.campaignValidation
    "external data-plan envelope V1 cannot carry predict_cohort")
  refuseIf (self.schemaVersion = 2 ∧ self.predictCohort.isNone) (.campaignValidation
    "external data-plan envelope V2 requires predict_cohort")
  validateFingerprint "schema" self.schemaFingerprint
  validateFingerprint "plan" self.planFingerprint
  whenSome self.relationFingerprint fun fingerprint => do
    validateFingerprint "relation" fingerprint
    refuseIf self.coordinatorRelations.isNone
      (.campaignValidation "relation_fingerprint requires coordinator_relations")
  whenSome self.dataContentFingerprint (validateFingerprint "data content")
  whenSome self.targetContentFingerprint (validateFingerprint "target content")
  whenSome self.coordinatorRelations fun relations => relations.validate
  whenSome self.predictCohort fun cohort => checkCohort cohort self.coordinatorRelations

-- ---------------------------------------------------------------------------
-- Spec
-- ---------------------------------------------------------------------------

structure PipelineDslGenerationParamOverride where
  nodeId : NodeId
  params : BTreeMap String JsonDocument := ∅

structure PipelineDslGenerationChoice where
  label : String
  value : Option JsonDocument := none
  paramOverrides : List PipelineDslGenerationParamOverride := []
  activeSubsequence : Option String := none

structure PipelineDslGenerationDimension where
  name : String
  choices : List PipelineDslGenerationChoice := []

structure PipelineDslSpec where
  generationDimensions : List PipelineDslGenerationDimension := []
  dataBindings : List DataBinding := []
  steps : List PipelineDslStep
  metadata : BTreeMap String JsonValue := ∅

-- ---------------------------------------------------------------------------
-- Discovery
-- ---------------------------------------------------------------------------

/-- A branch step that is a template: marked, over metadata or tags, with one
branch that has no selector. -/
def isAutoSeparationBranch (step : PipelineDslBranchStep PipelineDslStep) : Bool :=
  ((step.metadata["auto_separate"]?.bind fun marker => marker.value.asBool).getD false) &&
    (step.mode = .byMetadata || step.mode = .byTag || step.mode = .separation) &&
      match step.branches with
      | [template] => template.selector.isNone
      | _ => false

/-- The branch that an auto-separation step copies. -/
def autoTemplate (step : PipelineDslBranchStep PipelineDslStep) :
    Option (PipelineDslBranch PipelineDslStep) :=
  if isAutoSeparationBranch step then step.branches.head? else none

def selectorMetadataKey : JsonValue → Option String
  | .string text => some text
  | value => ["metadata_key", "column", "key", "by_metadata"].findSome? fun key =>
    (value.get key).bind JsonValue.asStr

def PipelineDslBranchMode.debugName : PipelineDslBranchMode → String
  | .duplication => "Duplication"
  | .separation => "Separation"
  | .bySource => "BySource"
  | .byMetadata => "ByMetadata"
  | .byTag => "ByTag"
  | .byFilter => "ByFilter"

/-- The two criteria a fan-out resolves to. -/
inductive PartitionCriterion
  | byMetadata (key : String)
  | byTag

def PartitionCriterion.metadataKey : PartitionCriterion → Option String
  | .byMetadata key => some key
  | .byTag => none

def resolveCriterion (step : PipelineDslBranchStep PipelineDslStep)
    (template : PipelineDslBranch PipelineDslStep) : Result PartitionCriterion :=
  let metadataKey := (step.selector.bind selectorMetadataKey).or
    (template.selector.bind selectorMetadataKey)
  match step.mode, metadataKey with
  | .byMetadata, some key => .ok (.byMetadata key)
  | .byMetadata, none => .error (.graphValidation
    s!"data-aware by_metadata fan-out of branch `{template.id}` requires a metadata key on the branch step or template selector")
  | .byTag, _ => .ok .byTag
  | .separation, some key => .ok (.byMetadata key)
  | .separation, none => .ok .byTag
  | mode, _ => .error (.graphValidation
    s!"data-aware fan-out of branch `{template.id}` does not support mode {mode.debugName}")

section

variable (floats : FloatWriter)

/-- `value.to_string()`. -/
def JsonValue.text (value : JsonValue) : String := String.ofList (value.render floats)

def sortDedupJsonValues (values : List JsonValue) : List JsonValue :=
  Keyed.sortDedup (JsonValue.text floats) values

def PartitionCriterion.values (criterion : PartitionCriterion) (relations : SampleRelationSet) :
    List JsonValue :=
  match criterion with
  | .byMetadata key =>
    sortDedupJsonValues floats (relations.records.filterMap fun record => record.metadata[key]?)
  | .byTag => (Keyed.sortDedup id (relations.records.flatMap (·.tags))).map .string

def discoverPartitionValues (step : PipelineDslBranchStep PipelineDslStep)
    (template : PipelineDslBranch PipelineDslStep) (relations : SampleRelationSet) :
    Result (PartitionCriterion × List JsonValue) := do
  let criterion ← resolveCriterion step template
  pure (criterion, criterion.values floats relations)

def branchSelectorForValue (criterion : PartitionCriterion) (value : JsonValue) : JsonValue :=
  match criterion with
  | .byMetadata key => .object [("metadata", .object [(key, value)])]
  | .byTag => .object [("tags", .array [value])]

def fanoutValueSuffix (value : JsonValue) : String :=
  let rendered := value.asStr.getD (value.text floats)
  let sanitized := trimUnderscores
    (rendered.toList.map fun c => if c.isAlphanum || c = '_' then c else '_')
  if sanitized = [] then "empty" else String.ofList sanitized

end

-- ---------------------------------------------------------------------------
-- Templates
-- ---------------------------------------------------------------------------

/-- The step kinds a template may not hold. -/
def unsupportedKind : PipelineDslStep → Option String
  | .merge _ => some "merge"
  | .mergeModel _ => some "merge_model"
  | .concatTransform _ => some "concat_transform"
  | _ => none

def refuseUnsupported (templateId : String) (step : PipelineDslStep) : Result Unit :=
  vacant (unsupportedKind step) fun kind => .graphValidation
    s!"data-aware fan-out of branch `{templateId}` does not support a `{kind}` step inside the auto-separation template (its node-id cross-references cannot be safely cloned per partition in this slice)"

mutual

/-- The tails of generators are not looked into. -/
def rejectUnsupportedStep (templateId : String) : PipelineDslStep → Result Unit
  | .sequential ⟨_, _, steps⟩ => rejectUnsupportedTemplateConstructs templateId steps
  | .branch ⟨_, _, _, branches⟩ => rejectUnsupportedBranches templateId branches
  | .generator ⟨_, _, branches, stages, _, _, _, _, _, _, _, _⟩ => do
    rejectUnsupportedBranches templateId branches
    rejectUnsupportedStages templateId stages
  | step => refuseUnsupported templateId step

def rejectUnsupportedTemplateConstructs (templateId : String) :
    List PipelineDslStep → Result Unit
  | [] => .ok ()
  | step :: steps => do
    rejectUnsupportedStep templateId step
    rejectUnsupportedTemplateConstructs templateId steps

def rejectUnsupportedBranches (templateId : String) :
    List (PipelineDslBranch PipelineDslStep) → Result Unit
  | [] => .ok ()
  | ⟨_, _, _, steps⟩ :: branches => do
    rejectUnsupportedTemplateConstructs templateId steps
    rejectUnsupportedBranches templateId branches

def rejectUnsupportedStages (templateId : String) :
    List (PipelineDslGeneratorStage PipelineDslStep) → Result Unit
  | [] => .ok ()
  | ⟨_, _, _, branches⟩ :: stages => do
    rejectUnsupportedBranches templateId branches
    rejectUnsupportedStages templateId stages

end

abbrev NodeIdRewriteMap := BTreeMap NodeId (List NodeId)

def recordRewrite (idMap : NodeIdRewriteMap) (oldId newId : NodeId) : NodeIdRewriteMap :=
  BTreeMap.pushEntry idMap oldId newId

def cloneName (id : NodeId) (suffix : String) : String := s!"{id.value}__{suffix}"

def suffixAndRecord (suffix : String) (idMap : NodeIdRewriteMap) (_emits : Bool) (id : NodeId) :
    Result (NodeIdRewriteMap × NodeId) := do
  let newId ← Id.new (cloneName id suffix)
  pure (recordRewrite idMap id newId, newId)

/-- The operators of a concat branch are not visited, tails are. -/
def cloneScope : RewriteScope := ⟨false, true⟩

def rewriteBranchStepIds (suffix : String) (idMap : NodeIdRewriteMap)
    (steps : List PipelineDslStep) : Result (NodeIdRewriteMap × List PipelineDslStep) :=
  rewriteStepIds cloneScope (suffixAndRecord suffix) idMap steps

-- ---------------------------------------------------------------------------
-- Expansion
-- ---------------------------------------------------------------------------

structure DataAwareFanoutRecord where
  branchStepId : String
  mode : PipelineDslBranchMode
  metadataKey : Option String
  values : List JsonValue

/-- What the expansion of the steps threads. -/
structure FanoutState where
  fanouts : List DataAwareFanoutRecord := []
  idMap : NodeIdRewriteMap := ∅

section

variable (floats : FloatWriter)

/-- One turn of the loop over the discovered values. -/
def cloneTemplate (template : PipelineDslBranch PipelineDslStep) (criterion : PartitionCriterion)
    (progress : Finset String × NodeIdRewriteMap) (value : JsonValue) :
    Result ((Finset String × NodeIdRewriteMap) × PipelineDslBranch PipelineDslStep) := do
  let suffix := fanoutValueSuffix floats value
  let id := s!"{template.id}__{suffix}"
  refuseIf (id ∈ progress.1) (.graphValidation
    s!"data-aware fan-out of branch `{template.id}` produced duplicate branch id `{id}` (distinct partition values render to the same id)")
  let steps ← rewriteBranchStepIds suffix progress.2 template.steps
  pure ((insert id progress.1, steps.1), { template with
    id
    selector := some (branchSelectorForValue criterion value)
    steps := steps.2 })

def expandAutoSeparationBranch {Cohort : Type} (envelope : ExternalDataPlanEnvelope Cohort)
    (state : FanoutState) (step : PipelineDslBranchStep PipelineDslStep)
    (template : PipelineDslBranch PipelineDslStep) :
    Result (FanoutState × PipelineDslBranchStep PipelineDslStep) := do
  rejectUnsupportedTemplateConstructs template.id template.steps
  let relations ← need envelope.coordinatorRelations (.graphValidation
    s!"data-aware fan-out of branch `{template.id}` requires coordinator relations in the envelope")
  let discovered ← discoverPartitionValues floats step template relations
  refuseIf (discovered.2 = []) (.graphValidation
    s!"data-aware fan-out of branch `{template.id}` discovered no partition values in the relations")
  let branches ← thread (cloneTemplate floats template discovered.1) (∅, state.idMap) discovered.2
  let fanout : DataAwareFanoutRecord := {
    branchStepId := template.id
    mode := step.mode
    metadataKey := discovered.1.metadataKey
    values := discovered.2 }
  pure ({ fanouts := state.fanouts ++ [fanout], idMap := branches.1.2 }, { step with
    metadata := step.metadata.erase "auto_separate"
    branches := branches.2 })

mutual

/-- Sequences and the branches of explicit branch steps are looked into. -/
def fanOutStep {Cohort : Type} (envelope : ExternalDataPlanEnvelope Cohort) (state : FanoutState) :
    PipelineDslStep → Result (FanoutState × PipelineDslStep)
  | .branch ⟨mode, selector, metadata, branches⟩ =>
    match autoTemplate ⟨mode, selector, metadata, branches⟩ with
    | some template => do
      let step ← expandAutoSeparationBranch floats envelope state
        ⟨mode, selector, metadata, branches⟩ template
      pure (step.1, .branch step.2)
    | none => do
      let branches ← fanOutBranches envelope state branches
      pure (branches.1, .branch ⟨mode, selector, metadata, branches.2⟩)
  | .sequential ⟨id, metadata, steps⟩ => do
    let steps ← fanOutSteps envelope state steps
    pure (steps.1, .sequential ⟨id, metadata, steps.2⟩)
  | step => .ok (state, step)

def fanOutSteps {Cohort : Type} (envelope : ExternalDataPlanEnvelope Cohort)
    (state : FanoutState) : List PipelineDslStep → Result (FanoutState × List PipelineDslStep)
  | [] => .ok (state, [])
  | step :: steps => do
    let step ← fanOutStep envelope state step
    let steps ← fanOutSteps envelope step.1 steps
    pure (steps.1, step.2 :: steps.2)

def fanOutBranches {Cohort : Type} (envelope : ExternalDataPlanEnvelope Cohort)
    (state : FanoutState) : List (PipelineDslBranch PipelineDslStep) →
      Result (FanoutState × List (PipelineDslBranch PipelineDslStep))
  | [] => .ok (state, [])
  | ⟨id, selector, metadata, steps⟩ :: branches => do
    let steps ← fanOutSteps envelope state steps
    let branches ← fanOutBranches envelope steps.1 branches
    pure (branches.1, ⟨id, selector, metadata, steps.2⟩ :: branches.2)

end

end

-- ---------------------------------------------------------------------------
-- References
-- ---------------------------------------------------------------------------

/-- The clones of a node, or the node itself. -/
def cloneIds (idMap : NodeIdRewriteMap) (id : NodeId) : List NodeId := idMap[id]?.getD [id]

def rewriteTopLevelDataBindings (bindings : List DataBinding) (idMap : NodeIdRewriteMap) :
    List DataBinding :=
  bindings.flatMap fun binding => (cloneIds idMap binding.nodeId).map fun nodeId =>
    { binding with nodeId }

/-- An override for every clone of its node; the flag says that it was cloned. -/
def targetOverrides (idMap : NodeIdRewriteMap) (overrideSpec : PipelineDslGenerationParamOverride) :
    List (Bool × PipelineDslGenerationParamOverride) :=
  (cloneIds idMap overrideSpec.nodeId).map fun nodeId =>
    (idMap[overrideSpec.nodeId]?.isSome, { overrideSpec with nodeId })

def targetKind (cloned : Bool) : String := if cloned then "cloned node" else "node"

def rewriteChoiceOverrides (dimension : PipelineDslGenerationDimension)
    (idMap : NodeIdRewriteMap) (choice : PipelineDslGenerationChoice) :
    Result PipelineDslGenerationChoice := do
  let rewritten := choice.paramOverrides.flatMap (targetOverrides idMap)
  let _ ← eachUnique (·.2.nodeId) (fun _ => .ok ()) (fun target => .graphValidation
    s!"data-aware fan-out generation choice `{choice.label}` in dimension `{dimension.name}` targets {targetKind target.1} `{target.2.nodeId}` more than once")
    rewritten
  pure { choice with paramOverrides := rewritten.map Prod.snd }

def rewriteGenerationOverridesForFannedNodes (dimensions : List PipelineDslGenerationDimension)
    (idMap : NodeIdRewriteMap) : Result (List PipelineDslGenerationDimension) :=
  collect dimensions fun dimension => do
    let choices ← collect dimension.choices (rewriteChoiceOverrides dimension idMap)
    pure { dimension with choices }

-- ---------------------------------------------------------------------------
-- Fan-out
-- ---------------------------------------------------------------------------

def PipelineDslBranchMode.toValue : PipelineDslBranchMode → JsonValue
  | .duplication => .string "duplication"
  | .separation => .string "separation"
  | .bySource => .string "by_source"
  | .byMetadata => .string "by_metadata"
  | .byTag => .string "by_tag"
  | .byFilter => .string "by_filter"

def DataAwareFanoutRecord.toValue (self : DataAwareFanoutRecord) : JsonValue :=
  JsonValue.record [
    ("branch_step_id", some (.string self.branchStepId)),
    ("metadata_key", self.metadataKey.map .string),
    ("mode", some self.mode.toValue),
    ("values", some (.array self.values))]

def fanoutMetadata {Cohort : Type} (externals : Externals)
    (envelope : ExternalDataPlanEnvelope Cohort) (fanouts : List DataAwareFanoutRecord) :
    JsonValue :=
  let branches := JsonValue.array (fanouts.map (·.toValue))
  let relationFingerprint := (envelope.relationFingerprint.map JsonValue.string).getD .null
  let canonical := JsonValue.object [
    ("branches", branches),
    ("relation_fingerprint", relationFingerprint)]
  .object [
    ("branches", branches),
    ("fingerprint", .string (stableJsonFingerprint externals canonical)),
    ("relation_fingerprint", relationFingerprint)]

def fanOutDataAwareBranches {Cohort : Type} (externals : Externals)
    (checkCohort : Cohort → Option SampleRelationSet → Result Unit) (spec : PipelineDslSpec)
    (envelope : ExternalDataPlanEnvelope Cohort) : Result PipelineDslSpec := do
  envelope.validate checkCohort
  let fanned ← fanOutSteps externals.floats envelope {} spec.steps
  if fanned.1.fanouts = [] then pure { spec with steps := fanned.2 }
  else
    let generationDimensions ←
      rewriteGenerationOverridesForFannedNodes spec.generationDimensions fanned.1.idMap
    pure {
      generationDimensions
      dataBindings := rewriteTopLevelDataBindings spec.dataBindings fanned.1.idMap
      steps := fanned.2
      metadata := spec.metadata.insert "dsl_data_aware_fanout"
        (fanoutMetadata externals envelope fanned.1.fanouts) }

end DagMl

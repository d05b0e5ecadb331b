import DagMl.Dsl.Generator

/-!
# Pipeline steps

The step tree of the pipeline DSL. `slots` lists the places that hold a node
id and `mergeRefs` those that refer to one, each with where it stands.
-/

namespace DagMl

/-- The step kinds that hold one operator. -/
inductive OperatorKind
  | transform | yTransform | tag | exclude | filter | sampleFilter | augmentation
  | featureAugmentation | sampleAugmentation | dataGeneration | model | tuner | chart
  deriving DecidableEq

/-- `settings` holds the other fields as they are written, by field name. -/
structure PipelineDslOperatorStep where
  id : NodeId
  operator : JsonDocument := nullDocument
  params : BTreeMap String JsonDocument := ∅
  metadata : BTreeMap String JsonDocument := ∅
  settings : BTreeMap String JsonDocument := ∅

structure PipelineDslConcatBranch where
  id : String
  steps : List PipelineDslOperatorStep

structure PipelineDslConcatTransformStep where
  id : NodeId
  branches : List PipelineDslConcatBranch
  metadata : BTreeMap String JsonDocument := ∅
  settings : BTreeMap String JsonDocument := ∅

structure PipelineDslMergeSelector where
  inputName : Option String := none
  branch : Option String := none
  model : Option NodeId := none
  select : Option JsonDocument := none
  metric : Option String := none
  aggregate : Option String := none
  metadata : BTreeMap String JsonDocument := ∅

inductive PipelineDslMergeOutput
  | features | predictions | sources
  deriving DecidableEq

structure PipelineDslMergeStep where
  id : NodeId
  mergeMode : String := "predictions_plus_original"
  outputAs : PipelineDslMergeOutput := .features
  includeOriginalData : Bool := true
  onMissing : Option String := none
  selectors : List PipelineDslMergeSelector := []
  metadata : BTreeMap String JsonDocument := ∅
  settings : BTreeMap String JsonDocument := ∅

structure PipelineDslMergeModelStep where
  id : NodeId
  operator : JsonDocument := nullDocument
  sources : List NodeId := []
  sourcePorts : BTreeMap NodeId String := ∅
  params : BTreeMap String JsonDocument := ∅
  metadata : BTreeMap String JsonDocument := ∅
  selectors : List PipelineDslMergeSelector := []
  includeOriginalData : Bool := true
  mergeMode : String := "predictions_plus_original"
  settings : BTreeMap String JsonDocument := ∅

inductive PipelineDslBranchMode
  | duplication | separation | bySource | byMetadata | byTag | byFilter
  deriving DecidableEq

structure PipelineDslBranchStep (Step : Type) where
  mode : PipelineDslBranchMode := .duplication
  selector : Option JsonValue := none
  metadata : BTreeMap String JsonDocument := ∅
  branches : List (PipelineDslBranch Step)

structure PipelineDslSequenceStep (Step : Type) where
  id : Option NodeId := none
  metadata : BTreeMap String JsonDocument := ∅
  steps : List Step

/-- The thirteen operator kinds share one constructor. -/
inductive PipelineDslStep
  | operator (kind : OperatorKind) (step : PipelineDslOperatorStep)
  | concatTransform (step : PipelineDslConcatTransformStep)
  | branch (step : PipelineDslBranchStep PipelineDslStep)
  | generator (step : PipelineDslGeneratorStep PipelineDslStep)
  | sequential (step : PipelineDslSequenceStep PipelineDslStep)
  | merge (step : PipelineDslMergeStep)
  | mergeModel (step : PipelineDslMergeModelStep)

namespace PipelineDslStep

-- ---------------------------------------------------------------------------
-- Node ids
-- ---------------------------------------------------------------------------

/-- A field that holds a node id: whether the compiler emits a node under it,
and whether it stands in a concat branch or in a nested generator's tail. -/
structure Slot where
  id : NodeId
  emits : Bool
  inConcat : Bool
  inTail : Bool

mutual

/-- The id fields of a step, in the order of a traversal. -/
def slots (inTail : Bool) : PipelineDslStep → List Slot
  | .operator _ step => [⟨step.id, true, false, inTail⟩]
  | .concatTransform step => ⟨step.id, true, false, inTail⟩ :: step.branches.flatMap fun branch =>
    branch.steps.map fun operator => ⟨operator.id, true, true, inTail⟩
  | .branch ⟨_, _, _, branches⟩ => branchSlots inTail branches
  | .generator ⟨id, _, branches, stages, _, _, _, _, _, _, tail, _⟩ =>
    ⟨id, false, false, inTail⟩ ::
      (branchSlots inTail branches ++ (stageSlots inTail stages ++ stepSlots true tail))
  | .sequential ⟨id, _, steps⟩ =>
    (id.toList.map fun id => ⟨id, false, false, inTail⟩) ++ stepSlots inTail steps
  | .merge step => [⟨step.id, true, false, inTail⟩]
  | .mergeModel step => [⟨step.id, true, false, inTail⟩]

def stepSlots (inTail : Bool) : List PipelineDslStep → List Slot
  | [] => []
  | step :: steps => slots inTail step ++ stepSlots inTail steps

def branchSlots (inTail : Bool) : List (PipelineDslBranch PipelineDslStep) → List Slot
  | [] => []
  | ⟨_, _, _, steps⟩ :: branches => stepSlots inTail steps ++ branchSlots inTail branches

def stageSlots (inTail : Bool) : List (PipelineDslGeneratorStage PipelineDslStep) → List Slot
  | [] => []
  | ⟨_, _, _, branches⟩ :: stages => branchSlots inTail branches ++ stageSlots inTail stages

end

-- ---------------------------------------------------------------------------
-- References
-- ---------------------------------------------------------------------------

/-- The node ids a merge refers to. -/
structure MergeRefs where
  selectors : List (Option NodeId)
  sources : List NodeId
  sourcePorts : BTreeMap NodeId String
  inTail : Bool

mutual

/-- The references of the merges of a step, in the order of a traversal. -/
def mergeRefs (inTail : Bool) : PipelineDslStep → List MergeRefs
  | .operator _ _ => []
  | .concatTransform _ => []
  | .branch ⟨_, _, _, branches⟩ => branchMergeRefs inTail branches
  | .generator ⟨_, _, branches, stages, _, _, _, _, _, _, tail, _⟩ =>
    branchMergeRefs inTail branches ++ (stageMergeRefs inTail stages ++ stepMergeRefs true tail)
  | .sequential ⟨_, _, steps⟩ => stepMergeRefs inTail steps
  | .merge step => [⟨step.selectors.map (·.model), [], ∅, inTail⟩]
  | .mergeModel step => [⟨step.selectors.map (·.model), step.sources, step.sourcePorts, inTail⟩]

def stepMergeRefs (inTail : Bool) : List PipelineDslStep → List MergeRefs
  | [] => []
  | step :: steps => mergeRefs inTail step ++ stepMergeRefs inTail steps

def branchMergeRefs (inTail : Bool) : List (PipelineDslBranch PipelineDslStep) → List MergeRefs
  | [] => []
  | ⟨_, _, _, steps⟩ :: branches => stepMergeRefs inTail steps ++ branchMergeRefs inTail branches

def stageMergeRefs (inTail : Bool) :
    List (PipelineDslGeneratorStage PipelineDslStep) → List MergeRefs
  | [] => []
  | ⟨_, _, _, branches⟩ :: stages =>
    branchMergeRefs inTail branches ++ stageMergeRefs inTail stages

end

end PipelineDslStep

end DagMl

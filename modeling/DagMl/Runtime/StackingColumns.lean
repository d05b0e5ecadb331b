import DagMl.Lib.Entries
import DagMl.Dsl.Step
import DagMl.Runtime.ProducerSelection
import DagMl.Runtime.Task

/-!
# The columns of a stacking node

The prediction inputs of a stacking node are keyed by the port they come from
and a suffix that says what they are for: fitting, or one of the predictions
made later. Its selectors keep some of the inputs under each suffix, or replace
those of a branch by one aggregate.
-/

namespace DagMl

open Checked Entries

abbrev PredictionInputs := BTreeMap String PredictionInputSpec

/-- The output port a prediction input comes from. -/
abbrev PredictionSource := NodeId × String

def PredictionInputSpec.source (self : PredictionInputSpec) : PredictionSource :=
  (self.producerNode, self.sourcePort)

/-- The key of a source under a suffix. -/
def PredictionSource.key (source : PredictionSource) (suffix : String) : String :=
  s!"{source.1}.{source.2}{suffix}"

def stackingSuffixes : List String := ["", ":outer", ":refit", ":predict", ":test"]

/-- `text.strip_prefix(lead)`. -/
def stripLead (lead text : String) : Option String :=
  if lead.toList <+: text.toList then some (String.ofList (text.toList.drop lead.toList.length))
  else none

/-- The reducers of the predictions of one branch, in floating point. -/
structure BranchReducers where
  reduceProbaMeanWithinBranch : List PredictionBlock → NodeId → Result PredictionBlock
  reduceMeanWithinBranch :
    List PredictionBlock → Option (List Binary64) → NodeId → Result PredictionBlock

/-- What is read to choose among producers: the scores, and where they count. -/
structure CandidateScores where
  scores : List RegressionMetricReport
  folds : Option (List FoldId)
  variant : Option VariantId

section

variable (plan : ExecutionPlan) (nodePlan : NodePlan) (candidates : CandidateScores)

-- ---------------------------------------------------------------------------
-- The inputs a selector keeps
-- ---------------------------------------------------------------------------

/-- `name.rsplit('.').next()`. -/
def lastSegment (name : String) : String :=
  String.ofList (name.toList.reverse.takeWhile (· ≠ '.')).reverse

/-- The class named by the operator of a producer. -/
def operatorClass (producer : NodeId) : Result String := do
  let node ← need (plan.findNode producer) (.runtimeValidation
    s!"stacking diverse fold selection lacks producer `{producer}`")
  let name := node.operator.bind fun operator =>
    ((operator.get "class").bind JsonValue.asStr).or operator.asStr
  need ((name.map lastSegment).filter (· ≠ "")) (.runtimeValidation
    s!"stacking diverse fold selection needs operator class for `{producer}`")

/-- The classes of the producers, where the choice asks for them. -/
def producerClasses (select : JsonValue) (producers : List NodeId) :
    Result (BTreeMap NodeId String) :=
  if (select.get "diverse_fold_candidates").isSome then do
    let classes ← collect producers fun producer => do
      let producerClass ← operatorClass plan producer
      pure (producer, producerClass)
    pure (.collect classes)
  else .ok ∅

/-- The producers a selector chooses among those it is offered. -/
def chosenProducers (selector : PipelineDslMergeSelector) (select : JsonDocument)
    (producers : List NodeId) : Result (List NodeId) := do
  let classes ← producerClasses plan select.value producers
  let request : StackingProducerSelectionRequest := {
    producerNodes := producers, select := select.value, metric := selector.metric.getD "rmse"
    reports := candidates.scores, foldIds := candidates.folds.getD []
    variantId := candidates.variant, producerClasses := classes }
  request.selectedProducerNodes

def selectStackingInputs (selector : PipelineDslMergeSelector)
    (inputs : List (String × PredictionInputSpec)) :
    Result (List (String × PredictionInputSpec)) :=
  match selector.select with
  | none => .ok inputs
  | some select => do
    let selected ← chosenProducers plan candidates selector select
      (inputs.map (·.2.producerNode))
    pure (selected.filterMap fun producer => inputs.find? (·.2.producerNode = producer))

-- ---------------------------------------------------------------------------
-- Aggregates
-- ---------------------------------------------------------------------------

def PredictionInputSpec.toBlock (self : PredictionInputSpec) : PredictionBlock where
  predictionId := none
  producerNode := self.producerNode
  producerPort := some self.sourcePort
  partition := self.partition
  foldId := self.foldId
  sampleIds := self.sampleIds
  values := self.values
  targetNames := self.targetNames

/-- `1e-10`. -/
def weightOffset : Binary64 := .ofDecimal false 1 (-10)

/-- The weight of a model by the mean of its validation scores. -/
def stackingModelWeight (metric : String) (block : PredictionBlock) : Binary64 :=
  let matching := (candidates.scores.filter fun report =>
    report.producerNode = block.producerNode && report.producerPort = block.producerPort &&
      report.partition = .validation && report.level = .sample &&
      report.foldId.any (fun fold => candidates.folds.all (fold ∈ ·)) &&
      candidates.variant.all (fun variant => report.variantId = some variant)).filterMap
    fun report => report.metrics[metric]?.filter Binary64.isFinite
  let score := (Binary64.sum matching).div (.ofNat matching.length)
  let higherBetter := (RegressionMetricKind.fromName metric).any (·.objective = .maximize)
  if matching = [] || !score.isFinite then .zero
  else if higherBetter then score.max .zero
  else if Binary64.zero.le score then (Binary64.ofNat 1).div (score.add weightOffset)
  else .zero

def stackingModelWeights (metric : String) (blocks : List PredictionBlock) :
    Option (List Binary64) :=
  let weights := blocks.map (stackingModelWeight candidates metric)
  if weights.any (Binary64.zero.lt ·) then some weights else none

variable (reducers : BranchReducers)

def reduceBranch (aggregate : String) (selector : PipelineDslMergeSelector)
    (blocks : List PredictionBlock) (virtualProducer : NodeId) : Result PredictionBlock :=
  match aggregate with
  | "proba_mean" => reducers.reduceProbaMeanWithinBranch blocks virtualProducer
  | "mean" => reducers.reduceMeanWithinBranch blocks none virtualProducer
  | "weighted_mean" => reducers.reduceMeanWithinBranch blocks
      (stackingModelWeights candidates (selector.metric.getD "rmse") blocks) virtualProducer
  | _ => throw (.runtimeValidation "unsupported stacking aggregation")

/-- The input that stands for a branch; what is not reduced is the first model's. -/
def aggregatedSpec (first : PredictionInputSpec) (virtualProducer : NodeId) (branch : String)
    (block : PredictionBlock) : PredictionInputSpec :=
  { first with
    producerNode := virtualProducer
    sourcePort := "oof"
    targetPort := s!"{branch}_oof"
    sampleIds := block.sampleIds
    values := block.values
    predictionWidth := (block.values.head?.map List.length).getD 0
    targetNames := block.targetNames
    unitIds := block.sampleIds.map .sample }

-- ---------------------------------------------------------------------------
-- One selector
-- ---------------------------------------------------------------------------

/-- A suffix, and an input the selector matches under it. -/
abbrev MatchedInput := String × (String × PredictionInputSpec)

/-- The branch a node was compiled in. -/
def NodeSpec.dslBranch (self : NodeSpec) : Option String :=
  self.metadata["dsl_branch"]?.bind JsonValue.asStr

/-- Whether a selector reads the outputs of a node. -/
def PipelineDslMergeSelector.reads (self : PipelineDslMergeSelector) (source : NodeSpec)
    (producer : NodeId) : Bool :=
  self.branch.all (source.dslBranch = some ·) && self.model.all (· = producer)

/-- The suffix of an input the selector reads, with the input. -/
def matchInput (selector : PipelineDslMergeSelector) (entry : String × PredictionInputSpec) :
    Result (Option MatchedInput) := do
  let spec := entry.2
  let source ← need (plan.findNode spec.producerNode) (.runtimeValidation
    s!"stacking input `{entry.1}` names missing producer `{spec.producerNode}`")
  if selector.reads source spec.producerNode then
    let lead := spec.source.key ""
    let suffix ← need (stripLead lead entry.1) (.runtimeValidation
      s!"stacking input `{entry.1}` does not match its producer `{lead}`")
    refuseIf (suffix ∉ stackingSuffixes) (.runtimeValidation
      s!"stacking input `{entry.1}` has unsupported suffix `{suffix}`")
    pure (some (suffix, entry))
  else pure none

/-- The inputs a selector matches, in key order. -/
def matchInputs (selector : PipelineDslMergeSelector) (inputs : PredictionInputs) :
    Result (List MatchedInput) := do
  let found ← collect inputs.toList (matchInput plan selector)
  pure found.reduceOption

/-- The branch of a selector, as it is named in errors and outputs. -/
def branchName (selector : PipelineDslMergeSelector) : String := selector.branch.getD "selected"

def virtualProducer (selector : PipelineDslMergeSelector) : Result NodeId :=
  Id.new s!"{nodePlan.nodeId}.branch.{branchName selector}"

/-- The chosen inputs of one suffix, or their aggregate, are entered. -/
def reduceSuffix (selector : PipelineDslMergeSelector) (virtualProducer : NodeId)
    (expectedModels : Nat) (reduced : PredictionInputs)
    (group : String × List MatchedInput) : Result PredictionInputs := do
  let branch := branchName selector
  let inputs := group.2.map Prod.snd
  refuseIf (inputs.length ≠ expectedModels) (.oofValidation
    s!"stacking branch `{branch}` has incomplete `{group.1}` prediction coverage across models")
  let first ← need inputs.head? (.panicked "index out of bounds")
  refuseIf (∃ input ∈ inputs, input.2.foldIds ≠ first.2.foldIds) (.oofValidation
    s!"stacking branch `{branch}` models differ in OOF fold identities")
  let chosen ← selectStackingInputs plan candidates selector inputs
  match selector.aggregate with
  | none => loop (fun reduced entry => enter reduced entry.1 entry.2 (.runtimeValidation
      s!"stacking selector duplicates input `{entry.1}`")) reduced chosen
  | some aggregate => do
    let block ← reduceBranch candidates reducers aggregate selector (chosen.map (·.2.toBlock))
      virtualProducer
    let spec := aggregatedSpec first.2 virtualProducer branch block
    let key := spec.source.key group.1
    enter reduced key spec
      (.runtimeValidation s!"stacking aggregation produced duplicate input `{key}`")

def reduceSelector (inputs reduced : PredictionInputs) (selector : PipelineDslMergeSelector) :
    Result PredictionInputs := do
  let found ← matchInputs plan selector inputs
  let bySuffix := BTreeMap.groupBy Prod.fst found
  refuseIf (bySuffix.isEmpty = true) (.runtimeValidation
    s!"stacking node `{nodePlan.nodeId}` has no predictions for selector")
  let expectedModels := ((bySuffix.toList.map (·.2.length)).max?).getD 0
  let producer ← virtualProducer nodePlan selector
  loop (reduceSuffix plan candidates reducers selector producer expectedModels) reduced
    bySuffix.toList

-- ---------------------------------------------------------------------------
-- The node
-- ---------------------------------------------------------------------------

variable (readSelectors : JsonValue → Except String (List PipelineDslMergeSelector))

/-- The selectors of a compiled stacking node; other nodes have none. -/
def stackingSelectors : Result (List PipelineDslMergeSelector) := do
  let node ← need (plan.findNode nodePlan.nodeId) (.panicked "validated node plan")
  if node.kind = .model ∧ node.metadata.contains "merge_mode" = true then
    match node.metadata["selectors"]? with
    | none => pure []
    | some value => match readSelectors value with
      | .ok selectors => pure selectors
      | .error detail => throw (.runtimeValidation
          s!"stacking node `{nodePlan.nodeId}` has invalid selectors: {detail}")
  else pure []

/-- Without selectors the inputs stay as they are. -/
def applyStackingPredictionAggregations (inputs : PredictionInputs) : Result PredictionInputs := do
  let selectors ← stackingSelectors plan nodePlan readSelectors
  if selectors.isEmpty then pure inputs
  else loop (reduceSelector plan nodePlan candidates reducers inputs) ∅ selectors

end

end DagMl

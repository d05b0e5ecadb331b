import DagMl.Dsl.Fanout

/-!
# Minimal operator aliases

A step that names no more than its operator is lowered with a kind guessed from
its syntax. The controller registry knows the kind of the operators its
selectors match, and the pass gives those steps the registry's kind.
-/

namespace DagMl

open Checked

-- ---------------------------------------------------------------------------
-- Operator selectors
-- ---------------------------------------------------------------------------

structure OperatorSelector where
  aliases : Finset String := ∅
  classes : Finset String := ∅
  classPrefixes : Finset String := ∅
  functions : Finset String := ∅
  refs : Finset String := ∅
  types : Finset String := ∅

structure ControllerManifest where
  controllerId : ControllerId
  operatorKind : NodeKind
  operatorSelectors : List OperatorSelector

structure ControllerRegistry where
  manifests : BTreeMap ControllerId ControllerManifest

/-- `text.trim().to_ascii_lowercase()`. -/
def normalized (text : String) : List Char :=
  (((text.toList.dropWhile isWhitespace).reverse.dropWhile isWhitespace).reverse).map Char.toLower

def normalizedEq (left right : String) : Bool := normalized left = normalized right

def normalizedStartsWith (value lead : String) : Bool := (normalized lead).isPrefixOf (normalized value)

/-- `value.rsplit(['.', ':']).next()`. -/
def shortName (value : String) : String :=
  String.ofList (value.toList.reverse.takeWhile fun c => c ≠ '.' && c ≠ ':').reverse

/-- A name and, where it has one, its last segment. -/
def pushAliasCandidates (value : String) : List String :=
  if shortName value = value then [value] else [value, shortName value]

structure OperatorDescriptor where
  className : Option String := none
  function : Option String := none
  reference : Option String := none
  operatorType : Option String := none
  aliasCandidates : List String := []

def OperatorDescriptor.fromValue (value : JsonValue) : OperatorDescriptor :=
  match value with
  | .string reference => { reference := some reference, aliasCandidates := pushAliasCandidates reference }
  | .object _ =>
    let field (key : String) : Option String := (value.get key).bind JsonValue.asStr
    let className := field "class"
    let function := field "function"
    let reference := field "ref"
    let operatorType := field "type"
    { className, function, reference, operatorType
      aliasCandidates := [operatorType, reference, className, function].reduceOption.flatMap
        pushAliasCandidates }
  | _ => {}

def selectorMatchesExact (values : Finset String) (candidate : String) : Bool :=
  decide (∃ value ∈ values, normalizedEq value candidate = true)

def selectorMatchesOperator (selector : OperatorSelector) (operator : JsonValue) : Bool :=
  let descriptor := OperatorDescriptor.fromValue operator
  descriptor.aliasCandidates.any (selectorMatchesExact selector.aliases) ||
    descriptor.className.any (selectorMatchesExact selector.classes) ||
    descriptor.className.any (fun name =>
      decide (∃ lead ∈ selector.classPrefixes, normalizedStartsWith name lead = true)) ||
    descriptor.function.any (selectorMatchesExact selector.functions) ||
    descriptor.reference.any (selectorMatchesExact selector.refs) ||
    descriptor.operatorType.any (selectorMatchesExact selector.types)

-- ---------------------------------------------------------------------------
-- Node kinds
-- ---------------------------------------------------------------------------

namespace NodeKind

/-- `{:?}`. -/
def debug : NodeKind → String
  | .transform => "Transform"
  | .yTransform => "YTransform"
  | .split => "Split"
  | .model => "Model"
  | .fork => "Fork"
  | .map => "Map"
  | .featureJoin => "FeatureJoin"
  | .predictionJoin => "PredictionJoin"
  | .mixedJoin => "MixedJoin"
  | .sourceJoin => "SourceJoin"
  | .tag => "Tag"
  | .exclude => "Exclude"
  | .augmentation => "Augmentation"
  | .adapter => "Adapter"
  | .aggregator => "Aggregator"
  | .generator => "Generator"
  | .restructure => "Restructure"
  | .tuner => "Tuner"
  | .subgraph => "Subgraph"
  | .chart => "Chart"

/-- The name a kind is serialized under. -/
def wireName : NodeKind → String
  | .transform => "transform"
  | .yTransform => "y_transform"
  | .split => "split"
  | .model => "model"
  | .fork => "fork"
  | .map => "map"
  | .featureJoin => "feature_join"
  | .predictionJoin => "prediction_join"
  | .mixedJoin => "mixed_join"
  | .sourceJoin => "source_join"
  | .tag => "tag"
  | .exclude => "exclude"
  | .augmentation => "augmentation"
  | .adapter => "adapter"
  | .aggregator => "aggregator"
  | .generator => "generator"
  | .restructure => "restructure"
  | .tuner => "tuner"
  | .subgraph => "subgraph"
  | .chart => "chart"

end NodeKind

section

variable (floats : FloatWriter)

def operatorLabel (operator : JsonValue) : String :=
  match operator with
  | .string value => value
  | .object _ => (["type", "ref", "class", "function"].findSome? fun key =>
      (operator.get key).bind JsonValue.asStr).getD (operator.text floats)
  | _ => operator.text floats

def ControllerRegistry.inferOperatorKind (self : ControllerRegistry) (operator : JsonValue) :
    Result (Option NodeKind) :=
  let matching := self.manifests.values.filter fun manifest =>
    manifest.operatorSelectors.any (selectorMatchesOperator · operator)
  match matching with
  | [] => pure none
  | first :: _ =>
    match matching.find? (·.operatorKind ≠ first.operatorKind) with
    | some conflicting => throw (.planning
        s!"minimal operator alias `{operatorLabel floats operator}` matches controllers with different node kinds ({first.operatorKind.debug} and {conflicting.operatorKind.debug}); use explicit DSL syntax")
    | none => pure (some first.operatorKind)

end

-- ---------------------------------------------------------------------------
-- One operator step
-- ---------------------------------------------------------------------------

/-- The kind of node a step is compiled to. -/
def OperatorKind.nodeKind : OperatorKind → NodeKind
  | .transform => .transform
  | .yTransform => .yTransform
  | .tag => .tag
  | .exclude => .exclude
  | .filter => .exclude
  | .sampleFilter => .exclude
  | .augmentation => .augmentation
  | .featureAugmentation => .augmentation
  | .sampleAugmentation => .augmentation
  | .dataGeneration => .generator
  | .model => .model
  | .tuner => .tuner
  | .chart => .chart

def unsupportedAliasKind (kind : NodeKind) : DagMlError := .graphValidation
  s!"minimal operator alias matched unsupported node kind {kind.debug}; use explicit DSL syntax"

def operatorPipelineStepForNodeKind (kind : NodeKind) (step : PipelineDslOperatorStep) :
    Result PipelineDslStep :=
  match kind with
  | .transform => pure (.operator .transform step)
  | .yTransform => pure (.operator .yTransform step)
  | .tag => pure (.operator .tag step)
  | .exclude => pure (.operator .exclude step)
  | .augmentation => pure (.operator .augmentation step)
  | .generator => pure (.operator .dataGeneration step)
  | .model => pure (.operator .model step)
  | .tuner => pure (.operator .tuner step)
  | .chart => pure (.operator .chart step)
  | unsupported => throw (unsupportedAliasKind unsupported)

def compatKeywordForNodeKind (kind : NodeKind) : Result String :=
  match kind with
  | .transform => pure "preprocessing"
  | .yTransform => pure "y_processing"
  | .tag => pure "tag"
  | .exclude => pure "exclude"
  | .augmentation => pure "augmentation"
  | .generator => pure "data_generation"
  | .model => pure "model"
  | .tuner => pure "tuner"
  | .chart => pure "chart"
  | unsupported => throw (unsupportedAliasKind unsupported)

def isMinimalOperatorAlias (step : PipelineDslOperatorStep) : Bool :=
  (step.metadata["dsl_minimal_operator_alias"]?.bind (·.value.asBool)).getD false

/-- A string value. -/
def stringDocument (text : String) : JsonDocument := ⟨.string text, trivial⟩

/-- The keyword the step was first lowered under is kept. -/
def keepOriginalKeyword (metadata : BTreeMap String JsonDocument) : BTreeMap String JsonDocument :=
  match metadata["dsl_compat_keyword"]? with
  | some keyword =>
    if "dsl_compat_original_keyword" ∈ metadata then metadata
    else metadata.insert "dsl_compat_original_keyword" keyword
  | none => metadata

def annotateRegistryInferredOperatorStep (step : PipelineDslOperatorStep) (inferredKind : NodeKind) :
    Result PipelineDslOperatorStep := do
  let keyword ← compatKeywordForNodeKind inferredKind
  let metadata := (keepOriginalKeyword step.metadata).insert "dsl_compat_keyword"
    (stringDocument keyword)
  pure { step with
    metadata := metadata.insert "dsl_registry_inferred_kind" (stringDocument inferredKind.wireName) }

section

variable (floats : FloatWriter) (registry : ControllerRegistry)

def resolveOperatorStepMinimalAlias (currentKind : OperatorKind) (step : PipelineDslOperatorStep) :
    Result (Option PipelineDslStep) :=
  if isMinimalOperatorAlias step then do
    let inferred ← registry.inferOperatorKind floats step.operator.value
    match inferred with
    | none => pure none
    | some inferredKind =>
      if inferredKind = currentKind.nodeKind then pure none
      else do
        let resolved ← annotateRegistryInferredOperatorStep step inferredKind
        let resolved ← operatorPipelineStepForNodeKind inferredKind resolved
        pure (some resolved)
  else pure none

-- ---------------------------------------------------------------------------
-- The pass
-- ---------------------------------------------------------------------------

mutual

/-- A generator's branches and stages are visited, its tail is not. -/
def resolveStepMinimalAliases : PipelineDslStep → Result PipelineDslStep
  | .operator kind step => do
    let resolved ← resolveOperatorStepMinimalAlias floats registry kind step
    pure (resolved.getD (.operator kind step))
  | .branch ⟨mode, selector, metadata, branches⟩ => do
    let branches ← resolveBranchMinimalAliases branches
    pure (.branch ⟨mode, selector, metadata, branches⟩)
  | .generator ⟨id, mode, branches, stages, pick, arrange, thenPick, thenArrange, count,
      constraints, tail, metadata⟩ => do
    let branches ← resolveBranchMinimalAliases branches
    let stages ← resolveStageMinimalAliases stages
    pure (.generator ⟨id, mode, branches, stages, pick, arrange, thenPick, thenArrange, count,
      constraints, tail, metadata⟩)
  | .sequential ⟨id, metadata, steps⟩ => do
    let steps ← resolveStepsMinimalAliases steps
    pure (.sequential ⟨id, metadata, steps⟩)
  | .concatTransform step => pure (.concatTransform step)
  | .merge step => pure (.merge step)
  | .mergeModel step => pure (.mergeModel step)

def resolveStepsMinimalAliases : List PipelineDslStep → Result (List PipelineDslStep)
  | [] => pure []
  | step :: steps => do
    let step ← resolveStepMinimalAliases step
    let steps ← resolveStepsMinimalAliases steps
    pure (step :: steps)

def resolveBranchMinimalAliases : List (PipelineDslBranch PipelineDslStep) →
    Result (List (PipelineDslBranch PipelineDslStep))
  | [] => pure []
  | ⟨id, selector, metadata, steps⟩ :: branches => do
    let steps ← resolveStepsMinimalAliases steps
    let branches ← resolveBranchMinimalAliases branches
    pure (⟨id, selector, metadata, steps⟩ :: branches)

def resolveStageMinimalAliases : List (PipelineDslGeneratorStage PipelineDslStep) →
    Result (List (PipelineDslGeneratorStage PipelineDslStep))
  | [] => pure []
  | ⟨id, selector, metadata, branches⟩ :: stages => do
    let branches ← resolveBranchMinimalAliases branches
    let stages ← resolveStageMinimalAliases stages
    pure (⟨id, selector, metadata, branches⟩ :: stages)

end

end

end DagMl

import DagMl.Runtime.FoldSelection
import DagMl.Runtime.Externals

/-!
# Which producers a stacking node reads

A selector keeps all producers in its scope, some by name, or the best by their
validation scores. The request sees the producers as a list; whatever it reads
besides, reports, folds and classes, is the same for every list.
-/

namespace DagMl

open Checked

namespace JsonValue

/-- `as_array()`. -/
def asArray : JsonValue → Option (List JsonValue)
  | .array items => some items
  | _ => none

end JsonValue

structure StackingProducerSelectionRequest where
  producerNodes : List NodeId
  select : JsonValue
  metric : String
  reports : List RegressionMetricReport
  foldIds : List FoldId
  variantId : Option VariantId
  producerClasses : BTreeMap NodeId String

/-- A validation score of a producer on a fold, with the place of its report. -/
structure FoldCandidate where
  index : Nat
  producer : NodeId
  score : Binary64

namespace FoldCandidate

/-- The key candidates are sorted by: the score, then the place. -/
def rankKey (ascending : Bool) (self : FoldCandidate) : Int ×ₗ Nat :=
  toLex (if ascending then self.score.totalKey else -self.score.totalKey, self.index)

end FoldCandidate

/-- The elements in the order of their first occurrence. -/
def firstOccurrences [DecidableEq α] (l : List α) : List α :=
  l.foldl (fun seen x => if x ∈ seen then seen else seen ++ [x]) []

namespace StackingProducerSelectionRequest

variable (self : StackingProducerSelectionRequest)

/-- A sample-level validation report of the variant on a fold in scope. -/
def inScope (report : RegressionMetricReport) : Bool :=
  report.partition = .validation && report.level = .sample &&
    report.foldId.any (fun fold => self.foldIds = [] || fold ∈ self.foldIds) &&
    self.variantId.all fun variant => report.variantId = some variant

-- ---------------------------------------------------------------------------
-- Ranking by mean score
-- ---------------------------------------------------------------------------

/-- The finite scores of a producer. -/
def scoresOf (producer : NodeId) : List Binary64 :=
  (self.reports.filter fun report => report.producerNode = producer && self.inScope report).filterMap
    fun report => report.metrics[self.metric]?.filter Binary64.isFinite

def meanScore (producer : NodeId) : Option Binary64 :=
  match self.scoresOf producer with
  | [] => none
  | first :: rest => some ((first.add (Binary64.sum rest)).div (.ofNat (rest.length + 1)))

def higherBetter : Bool :=
  (RegressionMetricKind.fromName self.metric).any (·.objective = .maximize) ||
    self.metric = "f1" || self.metric = "auc"

def rankedNodes (limit : Nat) : Result (List NodeId) := do
  refuseIf (limit = 0 ∨ self.producerNodes.length < limit ∨ isBlank self.metric = true)
    (.runtimeValidation "stacking selection needs a valid top_k and metric")
  let ranked := self.producerNodes.zipIdx.filterMap fun entry =>
    (self.meanScore entry.1).map fun score => (FoldCandidate.mk entry.2 entry.1 score)
  if ranked = [] then pure (self.producerNodes.take limit)
  else pure (((Keyed.sortBy (·.rankKey (!self.higherBetter)) ranked).take limit).map (·.producer))

-- ---------------------------------------------------------------------------
-- The best fold candidates
-- ---------------------------------------------------------------------------

/-- `filter(|value| *value > 0)`. -/
def positive (value : Option JsonValue) : Option Nat := (value.bind JsonValue.asU64).filter (0 < ·)

/-- Whether a configuration ranks low scores first. -/
def ascending (kind : RegressionMetricKind) (config : JsonValue) : Bool :=
  ((config.get "ascending").bind JsonValue.asBool).getD (kind.objective ≠ .maximize)

def foldCandidates : List FoldCandidate :=
  self.reports.zipIdx.filterMap fun entry =>
    let report := entry.1
    if self.inScope report && report.producerNode ∈ self.producerNodes then
      (report.metrics[self.metric]?.filter Binary64.isFinite).map
        (FoldCandidate.mk entry.2 report.producerNode)
    else none

def selectedFoldCandidateNodes : Result (List NodeId) := do
  let limit ← need (positive (self.select.get "fold_candidates_top_k"))
    (.runtimeValidation "stacking fold_candidates_top_k must be a positive integer")
  let kind ← need (RegressionMetricKind.fromName self.metric) (.runtimeValidation
    s!"stacking fold candidate selection has unsupported metric `{self.metric}`")
  refuseIf (self.foldCandidates = []) (.runtimeValidation
    s!"stacking fold candidate selection has no validation `{self.metric}` scores in its fold scope")
  let ranked := Keyed.sortBy (·.rankKey (ascending kind self.select)) self.foldCandidates
  pure (firstOccurrences ((ranked.take limit).map (·.producer)))

/-- The preferred classes that have candidates, then the others in their order. -/
def classOrder (preferred : List JsonValue) (classes : List String) : List String :=
  let named := (preferred.filterMap JsonValue.asStr).filter (· ∈ classes)
  named ++ classes.filter (· ∉ named)

def selectedDiverseCandidateNodes (config : JsonValue) : Result (List NodeId) := do
  let maxPerClass ← need (positive (config.get "max_per_class")) (.runtimeValidation
    "stacking diverse_fold_candidates needs a positive max_per_class")
  let kind ← need (RegressionMetricKind.fromName self.metric) (.runtimeValidation
    s!"stacking diverse fold selection has unsupported metric `{self.metric}`")
  let classified ← collect self.foldCandidates fun candidate => do
    let producerClass ← need self.producerClasses[candidate.producer]? (.runtimeValidation
      s!"stacking diverse fold selection lacks class for producer `{candidate.producer}`")
    pure (producerClass, candidate)
  let classes := BTreeMap.groupBy Prod.fst classified
  refuseIf (classes.isEmpty = true) (.runtimeValidation
    s!"stacking diverse fold selection has no validation `{self.metric}` scores in its fold scope")
  let preferred ← need ((config.get "preferred_classes").bind JsonValue.asArray)
    (.runtimeValidation "stacking diverse fold selection needs preferred_classes strings")
  let selected := (classOrder preferred classes.keys).flatMap fun producerClass =>
    let candidates := ((classes[producerClass]?).getD []).map Prod.snd
    ((Keyed.sortBy (·.rankKey (ascending kind config)) candidates).take maxPerClass).map (·.producer)
  pure (self.producerNodes.filter (· ∈ selected))

-- ---------------------------------------------------------------------------
-- The request
-- ---------------------------------------------------------------------------

def selectedModels (models : JsonValue) : Result (List NodeId) := do
  let models ← need models.asArray (.runtimeValidation
    "stacking models must be a non-empty array of producer node ids")
  let selected ← collect models fun value =>
    need (value.asStr.bind fun id => (Id.new id).toOption) (.runtimeValidation
      "stacking models must contain valid producer node ids")
  refuseIf (selected = [] ∨ selected.toFinset.card ≠ selected.length ∨
    ∃ node ∈ selected, node ∉ self.producerNodes) (.runtimeValidation
    "stacking models must be distinct producers in the selection scope")
  pure selected

def selectedProducerNodes : Result (List NodeId) := do
  refuseIf (self.producerNodes = [] ∨
    self.producerNodes.toFinset.card ≠ self.producerNodes.length)
    (.runtimeValidation "stacking selection needs distinct producer nodes")
  if (self.select.get "fold_candidates_top_k").isSome then self.selectedFoldCandidateNodes
  else match self.select.get "diverse_fold_candidates" with
  | some config => self.selectedDiverseCandidateNodes config
  | none => match self.select with
    | .string "all" => pure self.producerNodes
    | .string "best" => self.rankedNodes 1
    | .object [("models", models)] => self.selectedModels models
    | .object [(key, value)] => do
      let limit ← need (if key = "top_k" then value.asU64 else none)
        (.runtimeValidation "stacking top_k must be a positive integer")
      self.rankedNodes limit
    | _ => throw (.runtimeValidation
        "stacking select must be all, best or an object with top_k or models")

end StackingProducerSelectionRequest

end DagMl

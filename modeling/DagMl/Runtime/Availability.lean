import DagMl.Runtime.Externals
import DagMl.Runtime.Task

/-!
# Prediction availability

A graph may sign which samples each source was observed on. Out-of-fold
evidence then covers the present samples only, and the features of an absent
one are zero placeholders under a mask.
-/

namespace DagMl

open Checked

def predictionAvailability (externals : Externals) (plan : ExecutionPlan) :
    Result (Option PredictionAvailability) :=
  match plan.graphPlan.graph.metadata["prediction_availability"]? with
  | none => .ok none
  | some value => do
    let signed ← (externals.decodeAvailability value).mapError fun error =>
      .runtimeValidation s!"invalid signed prediction availability: {error}"
    pure (some signed)

def availabilitySource (plan : ExecutionPlan) (nodeId : NodeId) : Result (Option String) := do
  let node ← need (plan.findNode nodeId)
    (.runtimeValidation "availability references an unknown node")
  match node.metadata["prediction_availability_source"]? with
  | none => pure none
  | some value =>
    let name ← need (value.asStr.filter (!isBlank ·))
      (.runtimeValidation "prediction availability source must be nonempty text")
    pure (some name)

namespace PredictionAvailability

/-- A repeated sample keeps its last position. -/
def positions (self : PredictionAvailability) : BTreeMap SampleId Nat :=
  .collect self.sampleIds.zipIdx

def presence (self : PredictionAvailability) (source : String) (samples : List SampleId) :
    Result (List Bool) := do
  let mask ← need self.sourcePresence[source]?
    (.runtimeValidation s!"undeclared prediction availability source `{source}`")
  collect samples fun s => do
    let index ← need self.positions[s]?
      (.runtimeValidation s!"availability has no signed training sample `{s}`")
    need mask[index]? (.panicked "index out of bounds")

def predictionNames (floats : FloatWriter) (self : PredictionAvailability) (port : String) :
    Result (List String) :=
  if port = "proba" ∨ port = "probabilities" then do
    let labels ← need self.classLabels
      (.oofValidation "probability input lacks signed classes")
    -- A label that is not finite prints as `null`.
    pure (labels.map fun label =>
      if label.isFinite then .ofList (renderNumber floats (.float label)) else "null")
  else .ok self.targetNames

end PredictionAvailability

/-- The samples a presence mask marks. -/
def presentSamples (samples : List SampleId) (presence : List Bool) : List SampleId :=
  (samples.zip presence).filterMap fun (s, present) => if present then some s else none

/-- One block of the loop of `validateAvailableOofBlocks`. -/
def gatherAvailableBlock (foldSet : FoldSet) (byFold : BTreeMap FoldId (Finset SampleId))
    (block : PredictionBlock) : Result (BTreeMap FoldId (Finset SampleId)) := do
  let _ ← block.validateContent
  refuseIf (block.partition ≠ .validation)
    (.oofValidation "availability OOF accepts validation predictions only")
  let foldId ← need (block.foldId.filter (· ∈ foldSet.foldsById))
    (.oofValidation "availability OOF has an absent or foreign fold")
  let seen ← loop (fun (seen : Finset SampleId) s => do
    refuseIf (s ∈ seen)
      (.oofValidation "availability OOF repeats a producer/sample within a fold")
    pure (insert s seen)) (byFold.getD foldId ∅) block.sampleIds
  pure (byFold.insert foldId seen)

def validateAvailableOofBlocks (signed : PredictionAvailability) (source : String)
    (foldSet : FoldSet) (blocks : List PredictionBlock) : Result Unit := do
  let byFold ← loop (gatherAvailableBlock foldSet) ∅ blocks
  each foldSet.folds fun fold => do
    let presence ← signed.presence source fold.validationSampleIds
    refuseIf (byFold.getD fold.foldId ∅ ≠
        (presentSamples fold.validationSampleIds presence).toFinset)
      (.oofValidation s!"availability OOF for source `{source}` does not exactly cover present validation IDs in fold `{fold.foldId}`")

/-- The feature row of each requested sample: its own, or zeros where it is absent. -/
def expandedRow (rows : BTreeMap SampleId (List Binary64)) (width : Nat) (s : SampleId)
    (present : Bool) : Result (List Binary64) :=
  if present then need rows[s]? (.panicked "exact presence checked")
  else .ok (List.replicate width .zero)

def expandAvailablePredictionInput (floats : FloatWriter) (signed : PredictionAvailability)
    (source : String) (input : PredictionInputSpec) (requested : List SampleId)
    (presence : List Bool) : Result PredictionInputSpec := do
  refuseIf (input.values.length ≠ input.sampleIds.length ∨ requested.length ≠ presence.length ∨
      ¬requested.Nodup)
    (.oofValidation "availability feature universe is not unique and aligned")
  let names ← signed.predictionNames floats input.sourcePort
  let width := names.length
  let byId := BTreeMap.collect (input.sampleIds.zip input.values)
  refuseIf (byId.size ≠ input.sampleIds.length ∨
      byId.keys.toFinset ≠ (presentSamples requested presence).toFinset ∨
      (input.values.any fun row => row.length ≠ width || row.any (!·.isFinite)) ∨
      input.targetNames ≠ [] ∧ input.targetNames ≠ names)
    (.oofValidation s!"authentic OOF rows for source `{source}` do not exactly match signed presence, width or columns")
  refuseIf ((input.sourcePort = "proba" ∨ input.sourcePort = "probabilities") ∧
      input.values.any fun row =>
        row.any (fun value => !(Binary64.zero.le value && value.le (.ofNat 1))) ||
          (Binary64.ofDecimal false 1 (-8)).lt ((Binary64.sum row).sub (.ofNat 1)).abs)
    (.oofValidation "present probability features are not authentic distributions")
  let values ← collect (requested.zip presence) fun (s, present) =>
    expandedRow byId width s present
  let input := { input with
    values
    sampleIds := requested
    unitIds := requested.map .sample
    predictionWidth := width
    targetNames := names
    featureValidityMasks := some (presence.map fun present => List.replicate width present)
    sourcePresence := some presence }
  input.validateFeatureAvailability
  pure input

end DagMl

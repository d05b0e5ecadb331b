import DagMl.Lib.Entries
import DagMl.Plan.Prune
import DagMl.Runtime.StackingInputs

/-!
# The input handles of a node

`collectInputHandles` gathers what a node task receives into one map: the
handles forwarded from upstream, the data edges, the out-of-fold and off-fold
predictions of its stacking edges and the views of its data bindings.
-/

namespace DagMl

open Checked Entries

-- ---------------------------------------------------------------------------
-- Keys
-- ---------------------------------------------------------------------------

/-- `format!("{upstream}.{port}")`. -/
def PortRef.key (self : PortRef) : String := s!"{self.nodeId}.{self.portName}"

def dataViewKey (inputName : String) : String := s!"data:{inputName}"

def validationDataViewKey (inputName : String) : String := s!"{inputName}:validation"

-- ---------------------------------------------------------------------------
-- What is collected
-- ---------------------------------------------------------------------------

structure CollectedInputs (View : Type) where
  handles : BTreeMap String HandleRef
  dataViews : BTreeMap String View
  predictionInputs : BTreeMap String PredictionInputSpec
  skipNode : Bool

/-- The views the data provider makes for one binding. -/
structure BoundViews (View : Type) where
  primary : View × HandleRef
  test : Option (View × HandleRef)
  validation : Option (View × HandleRef)

/-- Where the inputs come from. `bindViews` makes all the views of a binding
before the first one is entered, so that a refusal of the provider comes before
one of a taken key; `checkRelations` are the checks in front of the bindings. -/
structure InputCollectors (View : Type) where
  /-- `collect_oof_prediction_input`. -/
  oof : EdgeSpec → Result (Option CollectedPredictionInput)
  /-- `collect_available_off_fold_prediction_input`. -/
  offFold : EdgeSpec → Result (Option CollectedPredictionInput)
  hasProvider : Bool
  checkRelations : Result Unit
  bindViews : DataBinding → Result (BoundViews View)

section

variable {View : Type} (plan : ExecutionPlan) (nodePlan : NodePlan)
  (outputHandles : BTreeMap NodeId (BTreeMap String HandleRef))
  (outputDataViews : BTreeMap NodeId (BTreeMap String View)) (phase : Phase)
  (collectors : InputCollectors View)

-- ---------------------------------------------------------------------------
-- Forwarded handles
-- ---------------------------------------------------------------------------

def incomingTrainingOofEdges : Result (List EdgeSpec) :=
  if phase = .fitCv ∨ phase = .refit then incomingOofEdges plan nodePlan else .ok []

/-- In PREDICT the raw prediction ports are hidden too. -/
def maskedOofEdges (trainingOofEdges : List EdgeSpec) : Result (List EdgeSpec) :=
  if phase = .predict then incomingOofEdges plan nodePlan else .ok trainingOofEdges

def edgesInto : List EdgeSpec := plan.edges.filter (·.target.nodeId = nodePlan.nodeId)

def outputHandle (port : PortRef) : Option HandleRef :=
  outputHandles[port.nodeId]?.bind (·[port.portName]?)

/-- The declared ports of the input nodes that are not masked, with their handles. -/
def forwardedHandles (masked : List EdgeSpec) : List (PortRef × HandleRef) :=
  nodePlan.inputNodes.flatMap fun upstream =>
    (outputHandles.getD upstream ∅).toList.filterMap fun entry =>
      let port : PortRef := ⟨upstream, entry.1⟩
      if port ∈ (edgesInto plan nodePlan).map (·.source) ∧ port ∉ masked.map (·.source) then
        some (port, entry.2)
      else none

-- ---------------------------------------------------------------------------
-- Data edges
-- ---------------------------------------------------------------------------

def dataEdges : List EdgeSpec :=
  (edgesInto plan nodePlan).filter fun edge =>
    edge.contract.kind = .data ∧ edge.contract.requiresOof = false

/-- Enters a view that may be there. -/
def enterView (views : BTreeMap String View) (key : String) (view : Option View)
    (taken : DagMlError) : Result (BTreeMap String View) :=
  match view with
  | none => .ok views
  | some view => enter views key view taken

def addEdgeViews (edge : EdgeSpec) (key : String) (views : BTreeMap String View) :
    Result (BTreeMap String View) :=
  match outputDataViews[edge.source.nodeId]? with
  | none => .ok views
  | some sourceViews => do
    let views ← enterView views key sourceViews[edge.source.portName]? (.runtimeValidation
      s!"node `{nodePlan.nodeId}` received duplicate data edge view `{key}`")
    let validationKey := s!"{key}:validation"
    enterView views validationKey sourceViews[validationDataViewKey edge.source.portName]?
      (.runtimeValidation
        s!"node `{nodePlan.nodeId}` received duplicate data edge validation view `{validationKey}`")

/-- The handle a data edge brings in; a bound input is left to its binding. -/
def dataEdgeHandle (edge : EdgeSpec) : Option HandleRef :=
  if edge.target.portName ∈ nodePlan.dataBindings.map (·.inputName) then none
  else outputHandle outputHandles edge.source

def addDataEdge (inputs : CollectedInputs View) (edge : EdgeSpec) :
    Result (CollectedInputs View) :=
  match dataEdgeHandle nodePlan outputHandles edge with
  | none => .ok inputs
  | some handle => do
    let key := dataViewKey edge.target.portName
    let handles ← enter inputs.handles key handle (.runtimeValidation
      s!"node `{nodePlan.nodeId}` received duplicate data edge input `{key}`")
    let dataViews ← addEdgeViews nodePlan outputDataViews edge key inputs.dataViews
    pure { inputs with handles, dataViews }

-- ---------------------------------------------------------------------------
-- Predictions
-- ---------------------------------------------------------------------------

def addPredictionInput (key : String) (input : CollectedPredictionInput)
    (takenHandle takenSpec : DagMlError) (inputs : CollectedInputs View) :
    Result (CollectedInputs View) := do
  let handles ← enter inputs.handles key input.handle takenHandle
  let predictionInputs ← enter inputs.predictionInputs key input.spec takenSpec
  pure { inputs with handles, predictionInputs }

/-- An edge without evidence skips the node. -/
def addTrainingInputs : List EdgeSpec → CollectedInputs View → Result (Option (CollectedInputs View))
  | [], inputs => .ok (some inputs)
  | edge :: edges, inputs => do
    match ← collectors.oof edge with
    | none => pure none
    | some input =>
      let inputs ← addPredictionInput edge.baseKey input
        (.runtimeValidation
          s!"node `{nodePlan.nodeId}` received duplicate OOF prediction input `{edge.baseKey}`")
        (.runtimeValidation
          s!"node `{nodePlan.nodeId}` received duplicate OOF prediction spec `{edge.baseKey}`")
        inputs
      addTrainingInputs edges inputs

/-- A held-out input stands beside the training input, under a suffix. -/
def addHeldOutInput (suffix : String) (takenHandle takenSpec : String → DagMlError)
    (inputs : CollectedInputs View) (edge : EdgeSpec) : Result (CollectedInputs View) := do
  match ← collectors.offFold edge with
  | none => pure inputs
  | some input =>
    let key := s!"{edge.baseKey}{suffix}"
    addPredictionInput key input (takenHandle key) (takenSpec key) inputs

def cvTestCapture : Bool :=
  phase = .fitCv && plan.graphPlan.graph.nodes.any fun node =>
    node.id = nodePlan.nodeId &&
      match node.metadata["stacking_fold_test_capture"]? with
      | some (.bool true) => true
      | _ => false

def addFoldTestInputs (inputs : CollectedInputs View) : Result (CollectedInputs View) :=
  if cvTestCapture plan nodePlan phase then do
    let edges ← incomingOofEdges plan nodePlan
    let taken (key : String) : DagMlError := .runtimeValidation
      s!"node `{nodePlan.nodeId}` received duplicate CV fold Test input `{key}`"
    loop (addHeldOutInput collectors ":test" taken taken) inputs edges
  else .ok inputs

/-- `scope.phase.as_str().to_ascii_lowercase()`, in the two phases that have one. -/
def offFoldSuffix : Option String :=
  match phase with
  | .refit => some ":refit"
  | .predict => some ":predict"
  | _ => none

def addOffFoldInputs (inputs : CollectedInputs View) : Result (CollectedInputs View) :=
  match offFoldSuffix phase with
  | none => .ok inputs
  | some suffix => do
    let edges ← incomingOofEdges plan nodePlan
    loop (addHeldOutInput collectors suffix
      (fun key => .runtimeValidation
        s!"node `{nodePlan.nodeId}` received duplicate off-fold prediction input `{key}`")
      (fun key => .runtimeValidation
        s!"node `{nodePlan.nodeId}` received duplicate off-fold prediction spec `{key}`"))
      inputs edges

-- ---------------------------------------------------------------------------
-- Data bindings
-- ---------------------------------------------------------------------------

def addView (key : String) (entry : View × HandleRef) (takenView takenInput : DagMlError)
    (inputs : CollectedInputs View) : Result (CollectedInputs View) := do
  let dataViews ← enter inputs.dataViews key entry.1 takenView
  let handles ← enter inputs.handles key entry.2 takenInput
  pure { inputs with handles, dataViews }

/-- The test companion replaces what stands under its key. -/
def placeTestView (key : String) (entry : Option (View × HandleRef))
    (inputs : CollectedInputs View) : CollectedInputs View :=
  match entry with
  | none => inputs
  | some entry =>
    { inputs with
      dataViews := inputs.dataViews.insert key entry.1
      handles := inputs.handles.insert key entry.2 }

def addValidationView (key : String) (entry : Option (View × HandleRef))
    (inputs : CollectedInputs View) : Result (CollectedInputs View) :=
  match entry with
  | none => .ok inputs
  | some entry => addView key entry
      (.runtimeValidation
        s!"node `{nodePlan.nodeId}` received duplicate validation data view `{key}`")
      (.runtimeValidation
        s!"node `{nodePlan.nodeId}` received duplicate validation data input `{key}`") inputs

def addBinding (inputs : CollectedInputs View) (binding : DataBinding) :
    Result (CollectedInputs View) := do
  let views ← collectors.bindViews binding
  let key := dataViewKey binding.inputName
  let inputs ← addView key views.primary
    (.runtimeValidation s!"node `{nodePlan.nodeId}` received duplicate data view `{key}`")
    (.runtimeValidation s!"node `{nodePlan.nodeId}` received duplicate data input `{key}`") inputs
  addValidationView nodePlan s!"{key}:validation" views.validation
    (placeTestView s!"{key}:test" views.test inputs)

def addBindings (inputs : CollectedInputs View) : Result (CollectedInputs View) := do
  refuseIf (!nodePlan.dataBindings.isEmpty ∧ collectors.hasProvider = false) (.runtimeValidation
    s!"node `{nodePlan.nodeId}` requires {nodePlan.dataBindings.length} data binding(s) but no runtime data provider is registered")
  if collectors.hasProvider then do
    collectors.checkRelations
    loop (addBinding nodePlan collectors) inputs nodePlan.dataBindings
  else pure inputs

-- ---------------------------------------------------------------------------
-- The collection
-- ---------------------------------------------------------------------------

def forwardedInputs (masked : List EdgeSpec) : CollectedInputs View where
  handles := (forwardedHandles plan nodePlan outputHandles masked).foldl
    (fun handles entry => handles.insert entry.1.key entry.2) ∅
  dataViews := ∅
  predictionInputs := ∅
  skipNode := false

def collectInputHandles : Result (CollectedInputs View) := do
  let trainingOofEdges ← incomingTrainingOofEdges plan nodePlan phase
  let masked ← maskedOofEdges plan nodePlan phase trainingOofEdges
  let inputs ← loop (addDataEdge nodePlan outputHandles outputDataViews)
    (forwardedInputs plan nodePlan outputHandles masked) (dataEdges plan nodePlan)
  match ← addTrainingInputs nodePlan collectors trainingOofEdges inputs with
  | none => pure ⟨∅, ∅, ∅, true⟩
  | some inputs => do
    let inputs ← addFoldTestInputs plan nodePlan phase collectors inputs
    let inputs ← addOffFoldInputs plan nodePlan phase collectors inputs
    addBindings nodePlan collectors inputs

end

end DagMl

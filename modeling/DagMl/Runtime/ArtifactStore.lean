import DagMl.Lib.Stateful
import DagMl.Metrics.Targets
import DagMl.Runtime.Artifact
import DagMl.Runtime.Context
import DagMl.Runtime.Task

/-!
# The in-memory artifact store

Two maps under the same artifact ids: the handle an artifact is served under,
and the refit record it came from. `register` checks everything before it
writes to either, and a capture works on a copy it commits at its end, so the
maps agree after every call of every run.
-/

namespace DagMl

open Checked

-- ---------------------------------------------------------------------------
-- Tasks and results
-- ---------------------------------------------------------------------------

structure NodeTask where
  nodePlan : NodePlan
  phase : Phase
  predictionInputs : BTreeMap String PredictionInputSpec

structure NodeResult where
  nodeId : NodeId
  predictions : List PredictionBlock
  artifacts : List ArtifactRef
  artifactHandles : BTreeMap ArtifactId HandleRef
  regressionTargets : List RegressionTargetBlock
  lineage : LineageRecord

structure ArtifactMaterializationRequest where
  runId : RunId
  bundleId : BundleId
  nodeId : NodeId
  phase : Phase
  variantId : Option VariantId
  controllerId : ControllerId
  artifact : ArtifactRef
  paramsFingerprint : String
  trainingLossFingerprint : Option String

def dataBindingRequirementKey (nodeId : NodeId) (inputName : String) : String :=
  s!"{nodeId}.{inputName}"

def bundlePredictionRequirementKey (producerNode : NodeId) (sourcePort : String)
    (consumerNode : NodeId) (targetPort : String) : String :=
  s!"{producerNode}.{sourcePort}->{consumerNode}.{targetPort}"

namespace NodePlan

def trainingLossesForPhase (self : NodePlan) (phase : Phase) : List TrainingLossRoleReference :=
  self.trainingLosses.filter fun role => role.phases.contains phase

/-- `fingerprint` stands for `stable_json_fingerprint`. -/
def trainingLossFingerprint (fingerprint : List TrainingLossRoleReference → Result String)
    (self : NodePlan) (phase : Phase) : Result (Option String) :=
  match self.trainingLossesForPhase phase with
  | [] => .ok none
  | roles => (fingerprint roles).map some

end NodePlan

-- ---------------------------------------------------------------------------
-- The store
-- ---------------------------------------------------------------------------

structure InMemoryArtifactStore where
  records : BTreeMap ArtifactId ArtifactHandleRecord
  refitEntries : BTreeMap ArtifactId RefitArtifactRecord

namespace InMemoryArtifactStore

variable (fingerprinting : Fingerprinting)
variable (lossFingerprint : List TrainingLossRoleReference → Result String)

def new : InMemoryArtifactStore := ⟨∅, ∅⟩

def handleRecord (artifact : RefitArtifactRecord) (handle : HandleRef) : ArtifactHandleRecord where
  handle
  nodeId := artifact.nodeId
  controllerId := artifact.controllerId
  artifact := artifact.artifact
  paramsFingerprint := artifact.paramsFingerprint
  trainingLossFingerprint := artifact.trainingLossFingerprint

/-- The store `register` leaves when it succeeds. -/
def registered (self : InMemoryArtifactStore) (artifact : RefitArtifactRecord)
    (handle : HandleRef) : Result InMemoryArtifactStore := do
  artifact.validate fingerprinting
  let record := handleRecord artifact handle
  record.validate fingerprinting
  refuseIf (record.artifact.id ∈ self.records ∨ record.artifact.id ∈ self.refitEntries)
    (.runtimeValidation s!"duplicate artifact handle for `{artifact.artifact.id}`")
  pure {
    records := self.records.insert record.artifact.id record
    refitEntries := self.refitEntries.insert artifact.artifact.id artifact }

/-- Both inserts stand after the last check. -/
def register (artifact : RefitArtifactRecord) (handle : HandleRef) :
    Method DagMlError InMemoryArtifactStore Unit :=
  Method.staged fun self => do
    let store ← self.registered fingerprinting artifact handle
    pure ((), store)

/-- The keys of the graph's out-of-fold edges into the task's node. -/
def portablePredictionKeys (plan : ExecutionPlan) (task : NodeTask) : List String :=
  (plan.graphPlan.graph.edges.filter fun edge =>
    edge.contract.requiresOof && edge.target.nodeId = task.nodePlan.nodeId).map fun edge =>
      bundlePredictionRequirementKey edge.source.nodeId edge.source.portName edge.target.nodeId
        edge.target.portName

/-- The replay requirements of a captured artifact: its Validation inputs that
are edges of the graph. -/
def predictionRequirementKeys (plan : ExecutionPlan) (task : NodeTask) : List String :=
  let inputs := task.predictionInputs.toList.map Prod.snd
  (inputs.filter fun spec => spec.partition = .validation).filterMap fun spec =>
    let key := bundlePredictionRequirementKey spec.producerNode spec.sourcePort
      task.nodePlan.nodeId spec.targetPort
    if (portablePredictionKeys plan task).contains key then some key else none

/-- One turn of the loop over the emitted artifacts, on the staged copy. -/
def captureArtifact (plan : ExecutionPlan) (task : NodeTask) (result : NodeResult)
    (state : InMemoryArtifactStore × List RefitArtifactRecord) (artifact : ArtifactRef) :
    Result (InMemoryArtifactStore × List RefitArtifactRecord) := do
  let handle ← need result.artifactHandles[artifact.id]? (.runtimeValidation
    s!"node `{task.nodePlan.nodeId}` emitted artifact `{artifact.id}` without artifact handle")
  let trainingLossFingerprint ← task.nodePlan.trainingLossFingerprint lossFingerprint .refit
  let record : RefitArtifactRecord := {
    nodeId := task.nodePlan.nodeId
    controllerId := task.nodePlan.controllerId
    artifact
    paramsFingerprint := task.nodePlan.paramsFingerprint
    trainingLossFingerprint
    dataRequirementKeys := task.nodePlan.dataBindings.map fun binding =>
      dataBindingRequirementKey binding.nodeId binding.inputName
    predictionRequirementKeys := predictionRequirementKeys plan task }
  let store ← state.1.registered fingerprinting record handle
  pure (store, state.2 ++ [record])

def captureRefitArtifacts (plan : ExecutionPlan) (task : NodeTask) (result : NodeResult) :
    Method DagMlError InMemoryArtifactStore (List RefitArtifactRecord) :=
  Method.staged fun self => do
    refuseIf (task.phase ≠ .refit) (.runtimeValidation
      s!"cannot capture refit artifacts from phase {task.phase.debug}")
    let state ← loop (captureArtifact fingerprinting lossFingerprint plan task result) (self, [])
      result.artifacts
    pure (state.2, state.1)

def get (self : InMemoryArtifactStore) (id : ArtifactId) : Option ArtifactHandleRecord :=
  self.records[id]?

def len (self : InMemoryArtifactStore) : Nat := self.records.size

def isEmpty (self : InMemoryArtifactStore) : Bool := self.records.isEmpty

def refitArtifacts (self : InMemoryArtifactStore) : List RefitArtifactRecord :=
  self.refitEntries.toList.map Prod.snd

def materialize (self : InMemoryArtifactStore) (request : ArtifactMaterializationRequest) :
    Result HandleRef := do
  let record ← need self.records[request.artifact.id]? (.runtimeValidation
    s!"artifact store is missing refit artifact `{request.artifact.id}` for bundle `{request.bundleId}`")
  refuseIf (record.nodeId ≠ request.nodeId) (.runtimeValidation
    s!"artifact `{request.artifact.id}` is registered for node `{record.nodeId}` but requested for `{request.nodeId}`")
  refuseIf (record.controllerId ≠ request.controllerId) (.runtimeValidation
    s!"artifact `{request.artifact.id}` is registered for controller `{record.controllerId}` but requested for `{request.controllerId}`")
  refuseIf (record.artifact ≠ request.artifact) (.runtimeValidation
    s!"artifact `{request.artifact.id}` metadata does not match bundle record")
  refuseIf (record.paramsFingerprint ≠ request.paramsFingerprint) (.runtimeValidation
    s!"artifact `{request.artifact.id}` params fingerprint does not match bundle record")
  refuseIf (record.trainingLossFingerprint ≠ request.trainingLossFingerprint) (.runtimeValidation
    s!"artifact `{request.artifact.id}` training loss fingerprint does not match bundle record")
  record.validate fingerprinting
  pure record.handle

-- ---------------------------------------------------------------------------
-- The two maps agree
-- ---------------------------------------------------------------------------

/-- What the two maps have in common. -/
structure Consistent (store : InMemoryArtifactStore) : Prop where
  same_keys : ∀ id, id ∈ store.records ↔ id ∈ store.refitEntries
  same_reference : ∀ (id : ArtifactId) record entry, store.records[id]? = some record →
    store.refitEntries[id]? = some entry → entry.artifact = record.artifact
  keyed : ∀ (id : ArtifactId) record, store.records[id]? = some record → record.artifact.id = id

theorem consistent_new : new.Consistent where
  same_keys := by simp [new]
  same_reference := by simp [new]
  keyed := by simp [new]

theorem registered_ok {self : InMemoryArtifactStore} :
    self.registered fingerprinting artifact handle = .ok store ↔
      artifact.validate fingerprinting = .ok () ∧
        (handleRecord artifact handle).validate fingerprinting = .ok () ∧
        artifact.artifact.id ∉ self.records ∧ artifact.artifact.id ∉ self.refitEntries ∧
        store = { records := self.records.insert artifact.artifact.id (handleRecord artifact handle)
                  refitEntries := self.refitEntries.insert artifact.artifact.id artifact } := by
  simp only [registered, bind_ok, refuseIf_ok, pure_ok, not_or]
  constructor
  · rintro ⟨_, ha, _, hr, _, ⟨h₁, h₂⟩, rfl⟩
    exact ⟨ha, hr, h₁, h₂, rfl⟩
  · rintro ⟨ha, hr, h₁, h₂, rfl⟩
    exact ⟨(), ha, (), hr, (), ⟨h₁, h₂⟩, rfl⟩

theorem Consistent.registered {self : InMemoryArtifactStore} (h : self.Consistent)
    (hr : self.registered fingerprinting artifact handle = .ok store) : store.Consistent := by
  obtain ⟨-, -, -, -, rfl⟩ := (registered_ok fingerprinting).mp hr
  constructor
  · intro id
    simp only [Std.ExtTreeMap.mem_insert, h.same_keys]
  · intro id record entry hrec hent
    rw [BTreeMap.getElem?_insert] at hrec hent
    split at hrec
    · cases hrec
      rename_i hid
      rw [if_pos hid] at hent
      cases hent
      rfl
    · rename_i hid
      rw [if_neg hid] at hent
      exact h.same_reference id record entry hrec hent
  · intro id record hrec
    rw [BTreeMap.getElem?_insert] at hrec
    split at hrec
    · rename_i hid
      cases hrec
      exact hid
    · exact h.keyed id record hrec

theorem Consistent.capture {self : InMemoryArtifactStore} (h : self.Consistent)
    (hl : loop (captureArtifact fingerprinting lossFingerprint plan task result) (self, [])
      artifacts = .ok state) : state.1.Consistent := by
  refine loop_invariant (fun _ s => s.1.Consistent) h ?_ hl
  intro done artifact s s' hs hstep
  simp only [captureArtifact, bind_ok, pure_ok] at hstep
  obtain ⟨handle, -, loss, -, store, hstore, rfl⟩ := hstep
  exact hs.registered fingerprinting hstore

-- ---------------------------------------------------------------------------
-- Runs
-- ---------------------------------------------------------------------------

inductive Call
  | register (artifact : RefitArtifactRecord) (handle : HandleRef)
  | captureRefitArtifacts (plan : ExecutionPlan) (task : NodeTask) (result : NodeResult)
  | get (id : ArtifactId)
  | len
  | isEmpty
  | refitArtifacts
  | materialize (request : ArtifactMaterializationRequest)

inductive Answer
  | registered
  | captured (records : List RefitArtifactRecord)
  | found (record : Option ArtifactHandleRecord)
  | size (n : Nat)
  | emptiness (b : Bool)
  | listed (records : List RefitArtifactRecord)
  | handle (handle : HandleRef)

/-- What an answer is built from, under the call's own constructor. -/
def answer (wrap : α → Answer) (m : Method DagMlError InMemoryArtifactStore α) :
    Method DagMlError InMemoryArtifactStore Answer := fun self =>
  let outcome := m self
  (outcome.1.map wrap, outcome.2)

def step : Call → Method DagMlError InMemoryArtifactStore Answer
  | .register artifact handle =>
    answer (fun _ => .registered) (register fingerprinting artifact handle)
  | .captureRefitArtifacts plan task result =>
    answer .captured (captureRefitArtifacts fingerprinting lossFingerprint plan task result)
  | .get id => answer .found (Method.reading fun self => .ok (self.get id))
  | .len => answer .size (Method.reading fun self => .ok self.len)
  | .isEmpty => answer .emptiness (Method.reading fun self => .ok self.isEmpty)
  | .refitArtifacts => answer .listed (Method.reading fun self => .ok self.refitArtifacts)
  | .materialize request =>
    answer .handle (Method.reading fun self => self.materialize fingerprinting request)

theorem answer_atomicAt {wrap : α → Answer} {m : Method DagMlError InMemoryArtifactStore α}
    {self : InMemoryArtifactStore} (h : m.AtomicAt self) : (answer wrap m).AtomicAt self := by
  intro e s' hs
  have hr : (m self).1.map wrap = .error e := congrArg Prod.fst hs
  have hs : (m self).2 = s' := congrArg Prod.snd hs
  cases hm : (m self).1 with
  | ok a => rw [hm] at hr; cases hr
  | error e' => exact h e' s' (Prod.ext hm hs)

theorem step_atomicAt (call : Call) (self : InMemoryArtifactStore) :
    (step fingerprinting lossFingerprint call).AtomicAt self := by
  cases call with
  | register artifact handle => exact answer_atomicAt (Method.staged_atomicAt _ _)
  | captureRefitArtifacts plan task result => exact answer_atomicAt (Method.staged_atomicAt _ _)
  | get id => exact answer_atomicAt (Method.reading_atomicAt _ _)
  | len => exact answer_atomicAt (Method.reading_atomicAt _ _)
  | isEmpty => exact answer_atomicAt (Method.reading_atomicAt _ _)
  | refitArtifacts => exact answer_atomicAt (Method.reading_atomicAt _ _)
  | materialize request => exact answer_atomicAt (Method.reading_atomicAt _ _)

theorem step_consistent (self : InMemoryArtifactStore) (call : Call) (h : self.Consistent) :
    (step fingerprinting lossFingerprint call self).2.Consistent := by
  cases call with
  | register artifact handle =>
    change (register fingerprinting artifact handle self).2.Consistent
    refine Method.staged_keeps h fun _ store hs => ?_
    obtain ⟨store', hstore, hs⟩ := bind_ok.mp hs
    cases pure_ok.mp hs
    exact h.registered fingerprinting hstore
  | captureRefitArtifacts plan task result =>
    change (captureRefitArtifacts fingerprinting lossFingerprint plan task result self).2.Consistent
    refine Method.staged_keeps h fun _ store hs => ?_
    obtain ⟨_, -, hs⟩ := bind_ok.mp hs
    obtain ⟨state, hstate, hs⟩ := bind_ok.mp hs
    cases pure_ok.mp hs
    exact h.capture fingerprinting lossFingerprint hstate
  | get id => exact h
  | len => exact h
  | isEmpty => exact h
  | refitArtifacts => exact h
  | materialize request => exact h

end InMemoryArtifactStore

end DagMl

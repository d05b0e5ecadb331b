import DagMl.Lib.Stateful
import DagMl.Runtime.TrainingInput

/-!
# The inputs of a nested meta node

While a nested meta node runs, each of its out-of-fold inputs is moved to an
`:outer` key and an input over the inner folds takes its place. The exchange
writes as it goes; what a failure leaves is part of the model.
-/

namespace DagMl

open Checked

/-- The evidence of one outer fold, available while its meta node runs. -/
structure NestedStackingInput where
  metaNodeId : NodeId
  inner : NestedFoldSet
  parentFoldSet : FoldSet

/-- The two input maps of a node task. -/
structure TaskInputs where
  handles : BTreeMap String HandleRef
  predictionInputs : BTreeMap String PredictionInputSpec

namespace TaskInputs

/-- `prediction_inputs.remove(key).ok_or_else(error)`. -/
def takeInput (key : String) (error : DagMlError) :
    Method DagMlError TaskInputs PredictionInputSpec := fun self =>
  match self.predictionInputs[key]? with
  | some input => (.ok input, { self with predictionInputs := self.predictionInputs.erase key })
  | none => (.error error, self)

/-- `handles.remove(key).ok_or_else(error)`. -/
def takeHandle (key : String) (error : DagMlError) : Method DagMlError TaskInputs HandleRef :=
  fun self =>
    match self.handles[key]? with
    | some handle => (.ok handle, { self with handles := self.handles.erase key })
    | none => (.error error, self)

/-- `handles.insert(..).is_some() || prediction_inputs.insert(..).is_some()`: a key
taken in the first map keeps the second one from being written. -/
def place (key : String) (handle : HandleRef) (input : PredictionInputSpec)
    (error : DagMlError) : Method DagMlError TaskInputs Unit := fun self =>
  let handles := self.handles.insert key handle
  if key ∈ self.handles then (.error error, { self with handles })
  else
    let predictionInputs := self.predictionInputs.insert key input
    (refuseIf (key ∈ self.predictionInputs) error, { handles, predictionInputs })

end TaskInputs

def EdgeSpec.baseKey (self : EdgeSpec) : String := s!"{self.source.nodeId}.{self.source.portName}"

def EdgeSpec.outerKey (self : EdgeSpec) : String := s!"{self.baseKey}:outer"

/-- `{:?}`. -/
def debugFoldId : Option FoldId → String
  | none => "None"
  | some foldId => s!"Some(FoldId(\"{foldId}\"))"

/-- The edges a node reads out of fold. -/
def oofEdgesInto (plan : ExecutionPlan) (nodePlan : NodePlan) : List EdgeSpec :=
  plan.edges.filter fun edge =>
    edge.target.nodeId = nodePlan.nodeId && edge.contract.requiresOof

def incomingOofEdges (plan : ExecutionPlan) (nodePlan : NodePlan) : Result (List EdgeSpec) :=
  collect (oofEdgesInto plan nodePlan) fun edge => do
    refuseIf (edge.contract.kind ≠ .prediction)
      (.runtimeValidation s!"{edge.label} requires OOF but is not a prediction edge")
    pure edge

section

variable (externals : Externals) (plan : ExecutionPlan) (nodePlan : NodePlan) (ctx : RunContext)
  (scope : PhaseScope) (nested : NestedStackingInput)

/-- The checks in front of the first exchange: the outer fold and the edges. -/
def nestedStackingScope : Result (FoldAssignment × List EdgeSpec) := do
  let parentId := nested.inner.parentOuterFoldId
  refuseIf (scope.foldId ≠ some parentId) (.runtimeValidation
    s!"nested stacking meta node `{nodePlan.nodeId}` received outer fold {debugFoldId scope.foldId}, expected `{parentId}`")
  let outer ← need (nested.parentFoldSet.folds.find? (·.foldId = parentId)) (.runtimeValidation
    s!"nested stacking parent fold `{parentId}` is absent from the plan")
  nested.inner.validateForOuter outer
  let edges ← incomingOofEdges plan nodePlan
  pure (outer, edges)

/-- The ids of the inner folds, ascending. -/
def NestedStackingInput.innerFoldIds : List FoldId :=
  ascending (nested.inner.innerFoldSet.folds.map (·.foldId)).toFinset

/-- The validation blocks of the edge's source port in the inner folds. -/
def innerOofBlocks (edge : EdgeSpec) : Result (List PredictionBlock) :=
  let found := ctx.predictionStore.find (some edge.source.nodeId) (some .validation) none
  filterPredictionBlocksForEdgeSourcePort plan edge externals
    (found.filter fun block => block.foldId.any (· ∈ nested.innerFoldIds))

/-- Without a signed availability the blocks are joined as they are. -/
def innerOofInput (outer : FoldAssignment) (edge : EdgeSpec) (blocks : List PredictionBlock) :
    Result PredictionInputSpec := do
  match ← availableOofInput externals plan edge scope blocks nested.inner.innerFoldSet
    outer.trainSampleIds with
  | some input => pure input
  | none =>
    refuseIf (blocks = []) (.oofValidation
      s!"nested stacking meta node `{nodePlan.nodeId}` has no inner OOF evidence for `{edge.source.nodeId}`.{edge.source.portName}")
    predictionInputSpec edge scope blocks false

/-- The first sixteen hexadecimal digits of the digest, as a number. -/
def nestedStackingHandle (edge : EdgeSpec) : UInt64 :=
  let content : List JsonValue := [
    .string "nested-stacking-inner-oof-v1", .string plan.id, .string ctx.runId.value,
    .string edge.source.nodeId.value, .string edge.source.portName,
    .string edge.target.nodeId.value, .string edge.target.portName,
    .string nested.inner.parentOuterFoldId.value, .string nested.inner.innerFoldSet.id,
    optionValue (scope.variantId.map Id.value)]
  let digest := externals.sha256
    (utf8Bytes (String.ofList (JsonValue.render externals.floats (.array content))))
  UInt64.ofNat ((digest.toList.take 8).foldl (fun n byte => 256 * n + byte.toNat) 0)

/-- What takes the place of an outer input. -/
def innerReplacement (outer : FoldAssignment) (edge : EdgeSpec) :
    Result (HandleRef × PredictionInputSpec) := do
  let blocks ← innerOofBlocks externals plan ctx nested edge
  let input ← innerOofInput externals plan nodePlan scope nested outer edge blocks
  refuseIf (input.sampleIds.toFinset ≠ outer.trainSampleIds.toFinset) (.oofValidation
    s!"nested stacking inner OOF for `{edge.source.nodeId}.{edge.source.portName}` does not exactly cover outer-train samples of fold `{nested.inner.parentOuterFoldId}`")
  refuseIf (input.foldIds ≠ nested.innerFoldIds) (.oofValidation
    s!"nested stacking inner OOF for `{edge.source.nodeId}.{edge.source.portName}` does not contain exactly one block for every inner fold")
  let sourcePlan ← need plan.nodePlans[edge.source.nodeId]?
    (.panicked "execution plan validates edge sources")
  pure (⟨nestedStackingHandle externals plan ctx scope nested edge, .prediction,
    sourcePlan.controllerId⟩, input)

/-- One turn of the loop over the edges. -/
def exchangeInput (outer : FoldAssignment) (edge : EdgeSpec) :
    Method DagMlError TaskInputs Unit :=
  let taken := TaskInputs.takeInput edge.baseKey (.oofValidation
    s!"nested stacking meta node `{nodePlan.nodeId}` has no outer OOF input `{edge.baseKey}`")
  taken.bind fun outerInput =>
  let taken := TaskInputs.takeHandle edge.baseKey (.runtimeValidation
    s!"nested stacking meta node `{nodePlan.nodeId}` has no outer OOF handle `{edge.baseKey}`")
  taken.bind fun outerHandle =>
  let parked := TaskInputs.place edge.outerKey outerHandle outerInput (.runtimeValidation
    s!"nested stacking meta node `{nodePlan.nodeId}` received duplicate outer OOF key `{edge.outerKey}`")
  parked.bind fun _ =>
  let inner := Method.lift (innerReplacement externals plan nodePlan ctx scope nested outer edge)
  inner.bind fun (handle, input) =>
  TaskInputs.place edge.baseKey handle input (.runtimeValidation
    s!"nested stacking meta node `{nodePlan.nodeId}` received duplicate inner OOF key `{edge.baseKey}`")

def replaceNestedStackingFitCvInputs : Method DagMlError TaskInputs Unit :=
  if scope.phase ≠ .fitCv ∨ nodePlan.nodeId ≠ nested.metaNodeId then .lift (.ok ())
  else
    (Method.lift (nestedStackingScope plan nodePlan scope nested)).bind fun (outer, edges) =>
    Method.each (exchangeInput externals plan nodePlan ctx scope nested outer) edges

end

-- ---------------------------------------------------------------------------
-- Keys
-- ---------------------------------------------------------------------------

namespace EdgeSpec

variable {edge other : EdgeSpec}

theorem outerKey_inj : edge.outerKey = other.outerKey ↔ edge.baseKey = other.baseKey :=
  String.append_left_inj ":outer"

theorem length_outerKey : edge.outerKey.length = edge.baseKey.length + 6 := by
  have houter : edge.outerKey = edge.baseKey ++ ":outer" := rfl
  rw [houter, String.length_append]
  rfl

theorem baseKey_ne_outerKey : edge.baseKey ≠ edge.outerKey := by
  intro h
  have hlength := congrArg String.length h
  rw [length_outerKey] at hlength
  omega

theorem outerKey_ne_of_parked (h : other.baseKey = edge.outerKey) :
    other.outerKey ≠ edge.baseKey := by
  intro h'
  have hlength := congrArg String.length h
  have hlength' := congrArg String.length h'
  rw [length_outerKey] at hlength hlength'
  omega

end EdgeSpec

-- ---------------------------------------------------------------------------
-- One exchange
-- ---------------------------------------------------------------------------

namespace TaskInputs

/-- What the two maps hold under a key. -/
def entry (self : TaskInputs) (key : String) : Option HandleRef × Option PredictionInputSpec :=
  (self.handles[key]?, self.predictionInputs[key]?)

/-- The entry of a key that both maps hold. -/
def full (input : HandleRef × PredictionInputSpec) :
    Option HandleRef × Option PredictionInputSpec := (some input.1, some input.2)

theorem ext_entry {s t : TaskInputs} (h : ∀ k, s.entry k = t.entry k) : s = t := by
  obtain ⟨handles, inputs⟩ := s
  obtain ⟨handles', inputs'⟩ := t
  rw [mk.injEq]
  exact ⟨BTreeMap.ext fun k => (Prod.mk.inj (h k)).1, BTreeMap.ext fun k => (Prod.mk.inj (h k)).2⟩

/-- The state with the old entry of an edge parked and a new one in its place. -/
def exchanged (self : TaskInputs) (edge : EdgeSpec) (old new : HandleRef × PredictionInputSpec) :
    TaskInputs where
  handles := ((self.handles.erase edge.baseKey).insert edge.outerKey old.1).insert edge.baseKey new.1
  predictionInputs :=
    ((self.predictionInputs.erase edge.baseKey).insert edge.outerKey old.2).insert edge.baseKey new.2

/-- The state that a taken `:outer` handle leaves. -/
def halfExchanged (self : TaskInputs) (edge : EdgeSpec) (handle : HandleRef) : TaskInputs where
  handles := (self.handles.erase edge.baseKey).insert edge.outerKey handle
  predictionInputs := self.predictionInputs.erase edge.baseKey

theorem getElem?_erase {V : Type} {m : BTreeMap String V} {k a : String} :
    (m.erase k)[a]? = if k = a then none else m[a]? := by
  rw [Std.ExtTreeMap.getElem?_erase]
  simp [Std.LawfulEqCmp.compare_eq_iff_eq]

theorem mem_erase {V : Type} {m : BTreeMap String V} {k a : String} :
    a ∈ m.erase k ↔ k ≠ a ∧ a ∈ m := by
  simp [Std.ExtTreeMap.mem_erase]

theorem mem_insert {V : Type} {m : BTreeMap String V} {k a : String} {v : V} :
    a ∈ m.insert k v ↔ k = a ∨ a ∈ m := by
  simp [Std.ExtTreeMap.mem_insert]

theorem entry_exchanged {s : TaskInputs} {edge : EdgeSpec} :
    (s.exchanged edge old new).entry k = if edge.baseKey = k then full new
      else if edge.outerKey = k then full old else s.entry k := by
  simp only [entry, exchanged, BTreeMap.getElem?_insert, getElem?_erase]
  split_ifs <;> rfl

theorem entry_eq_full {s : TaskInputs} : s.entry k = full old ↔
    s.handles[k]? = some old.1 ∧ s.predictionInputs[k]? = some old.2 := Prod.mk_inj

theorem entry_eq_none {s : TaskInputs} : s.entry k = (none, none) ↔
    s.handles[k]? = none ∧ s.predictionInputs[k]? = none := Prod.mk_inj

variable {s t : TaskInputs} {error : DagMlError}

theorem takeInput_ok : takeInput key error s = (.ok input, t) ↔
    s.predictionInputs[key]? = some input ∧
      t = { s with predictionInputs := s.predictionInputs.erase key } := by
  unfold takeInput
  cases s.predictionInputs[key]? with
  | none => simp
  | some found => simp [eq_comm]

theorem takeInput_error : takeInput key error s = (.error e, t) ↔
    s.predictionInputs[key]? = none ∧ e = error ∧ t = s := by
  unfold takeInput
  cases s.predictionInputs[key]? with
  | none => simp [eq_comm]
  | some found => simp

theorem takeHandle_ok : takeHandle key error s = (.ok handle, t) ↔
    s.handles[key]? = some handle ∧ t = { s with handles := s.handles.erase key } := by
  unfold takeHandle
  cases s.handles[key]? with
  | none => simp
  | some found => simp [eq_comm]

theorem takeHandle_error : takeHandle key error s = (.error e, t) ↔
    s.handles[key]? = none ∧ e = error ∧ t = s := by
  unfold takeHandle
  cases s.handles[key]? with
  | none => simp [eq_comm]
  | some found => simp

theorem place_ok : place key handle input error s = (.ok u, t) ↔ s.entry key = (none, none) ∧
    t = ⟨s.handles.insert key handle, s.predictionInputs.insert key input⟩ := by
  have habsent {V : Type} {m : BTreeMap String V} : m[key]? = none ↔ key ∉ m := by simp
  rw [entry_eq_none, habsent, habsent]
  unfold place
  by_cases hhandle : key ∈ s.handles
  · simp [hhandle]
  · by_cases hinput : key ∈ s.predictionInputs
    · simp [hhandle, hinput, refuseIf]
    · simp [hhandle, hinput, refuseIf, eq_comm]

theorem place_error : place key handle input error s = (.error e, t) ↔ e = error ∧
    (key ∈ s.handles ∧ t = { s with handles := s.handles.insert key handle } ∨
      key ∉ s.handles ∧ key ∈ s.predictionInputs ∧
        t = ⟨s.handles.insert key handle, s.predictionInputs.insert key input⟩) := by
  unfold place
  by_cases hhandle : key ∈ s.handles
  · simp [hhandle, eq_comm]
  · by_cases hinput : key ∈ s.predictionInputs
    · simp [hhandle, hinput, refuseIf, eq_comm]
    · simp [hhandle, hinput, refuseIf]

end TaskInputs

open TaskInputs

section

variable {externals : Externals} {plan : ExecutionPlan} {nodePlan : NodePlan} {ctx : RunContext}
  {scope : PhaseScope} {nested : NestedStackingInput} {outer : FoldAssignment} {edge : EdgeSpec}
  {edges : List EdgeSpec} {s t : TaskInputs}

/-- A successful turn finds both entries, a free `:outer` key and a replacement. -/
theorem exchangeInput_ok :
    exchangeInput externals plan nodePlan ctx scope nested outer edge s = (.ok u, t) ↔
      ∃ old new, s.entry edge.baseKey = full old ∧ s.entry edge.outerKey = (none, none) ∧
        innerReplacement externals plan nodePlan ctx scope nested outer edge = .ok new ∧
        t = s.exchanged edge old new := by
  have hne := edge.baseKey_ne_outerKey
  simp only [exchangeInput, Method.bind_ok, Method.lift_ok, takeInput_ok, takeHandle_ok, place_ok]
  constructor
  · rintro ⟨input, _, ⟨hinput, rfl⟩, handle, _, ⟨hhandle, rfl⟩, _, _, ⟨hfree, rfl⟩, new, _,
      ⟨hnew, rfl⟩, -, rfl⟩
    refine ⟨(handle, input), new, entry_eq_full.mpr ⟨hhandle, hinput⟩, ?_, hnew, rfl⟩
    simpa only [entry, getElem?_erase, if_neg hne] using hfree
  · rintro ⟨old, new, hfull, hfree, hnew, rfl⟩
    obtain ⟨hhandle, hinput⟩ := entry_eq_full.mp hfull
    refine ⟨old.2, _, ⟨hinput, rfl⟩, old.1, _, ⟨hhandle, rfl⟩, (), _, ⟨?_, rfl⟩, new, _, ⟨hnew, rfl⟩,
      ?_, rfl⟩
    · simpa only [entry, getElem?_erase, if_neg hne] using hfree
    · simp only [entry, BTreeMap.getElem?_insert, getElem?_erase, if_neg hne.symm, if_pos]

/-- What a turn leaves that fails after it has taken the input of its edge. -/
structure LeftBehind (edge : EdgeSpec) (s t : TaskInputs) : Prop where
  taken : edge.baseKey ∉ t.predictionInputs
  kept : ∀ k ≠ edge.baseKey, k ∈ s.predictionInputs → k ∈ t.predictionInputs
  parked : ∀ handle, s.handles[edge.baseKey]? = some handle → edge.outerKey ∈ t.handles ∧
    (edge.outerKey ∈ s.handles → t = s.halfExchanged edge handle)

theorem LeftBehind.of_erased (h : t.predictionInputs = s.predictionInputs.erase edge.baseKey)
    (hparked : ∀ handle, s.handles[edge.baseKey]? = some handle → edge.outerKey ∈ t.handles ∧
      (edge.outerKey ∈ s.handles → t = s.halfExchanged edge handle)) : LeftBehind edge s t where
  taken := by simp [h]
  kept k hk hmem := h ▸ mem_erase.mpr ⟨hk.symm, hmem⟩
  parked := hparked

theorem LeftBehind.of_parked
    (h : t.predictionInputs = (s.predictionInputs.erase edge.baseKey).insert edge.outerKey input)
    (hhandles : edge.outerKey ∈ t.handles) (hfree : edge.outerKey ∉ s.handles) :
    LeftBehind edge s t where
  taken := by simp [h, edge.baseKey_ne_outerKey.symm]
  kept k hk hmem := h ▸ mem_insert.mpr (.inr (mem_erase.mpr ⟨hk.symm, hmem⟩))
  parked _ _ := ⟨hhandles, fun hmem => absurd hmem hfree⟩

theorem exchangeInput_error
    (h : exchangeInput externals plan nodePlan ctx scope nested outer edge s = (.error e, t)) :
    edge.baseKey ∉ s.predictionInputs ∧ t = s ∨
      edge.baseKey ∈ s.predictionInputs ∧ LeftBehind edge s t := by
  have hne := edge.baseKey_ne_outerKey
  simp only [exchangeInput, Method.bind_error, Method.lift_ok, Method.lift_error, takeInput_ok,
    takeInput_error, takeHandle_ok, takeHandle_error, place_ok, place_error] at h
  rcases h with ⟨hnone, -, rfl⟩ | ⟨input, _, ⟨hinput, rfl⟩, h⟩
  · exact .inl ⟨by simpa using hnone, rfl⟩
  refine .inr ⟨BTreeMap.mem_iff.mpr ⟨input, hinput⟩, ?_⟩
  rcases h with ⟨hnone, -, rfl⟩ | ⟨handle, _, ⟨hhandle, rfl⟩, h⟩
  · refine .of_erased rfl fun handle hhandle => ?_
    rw [hnone] at hhandle
    cases hhandle
  rcases h with ⟨-, ⟨-, rfl⟩ | ⟨hfree, -, rfl⟩⟩ | ⟨_, _, ⟨hfree, rfl⟩, h⟩
  · refine .of_erased rfl fun other hother => ?_
    obtain rfl := Option.some.inj (hhandle.symm.trans hother)
    exact ⟨mem_insert.mpr (.inl rfl), fun _ => rfl⟩
  · refine .of_parked rfl (mem_insert.mpr (.inl rfl)) fun hmem => hfree ?_
    exact mem_erase.mpr ⟨hne, hmem⟩
  · have hfree : edge.outerKey ∉ s.handles := by
      intro hmem
      obtain ⟨found, hfound⟩ := BTreeMap.mem_iff.mp hmem
      have hnone := (entry_eq_none.mp hfree).1
      rw [getElem?_erase, if_neg hne, hfound] at hnone
      cases hnone
    rcases h with ⟨-, rfl⟩ | ⟨new, _, ⟨-, rfl⟩, -, h⟩
    · exact .of_parked rfl (mem_insert.mpr (.inl rfl)) hfree
    · -- the key of the edge has just been taken from both maps
      simp [hne.symm] at h

/-- A turn whose `:outer` handle is taken fails, and leaves the half of it. -/
theorem exchangeInput_of_taken (hfull : s.entry edge.baseKey = full old)
    (htaken : edge.outerKey ∈ s.handles) :
    ∃ e, exchangeInput externals plan nodePlan ctx scope nested outer edge s =
      (.error e, s.halfExchanged edge old.1) := by
  obtain ⟨hhandle, hinput⟩ := entry_eq_full.mp hfull
  have htaken : edge.outerKey ∈ s.handles.erase edge.baseKey :=
    mem_erase.mpr ⟨edge.baseKey_ne_outerKey, htaken⟩
  simp only [exchangeInput, Method.bind, takeInput, hinput, takeHandle, hhandle, place, htaken, if_true]
  exact ⟨_, rfl⟩

-- ---------------------------------------------------------------------------
-- The loop
-- ---------------------------------------------------------------------------

/-- What a successful loop has found, and what its state still holds. -/
structure Ran (externals : Externals) (plan : ExecutionPlan) (nodePlan : NodePlan)
    (ctx : RunContext) (scope : PhaseScope) (nested : NestedStackingInput)
    (outer : FoldAssignment) (edges : List EdgeSpec) (s t : TaskInputs) : Prop where
  keys_nodup : (edges.map (·.baseKey)).Nodup
  free : ∀ edge ∈ edges, s.entry edge.outerKey = (none, none)
  replaced : ∀ edge ∈ edges, ∃ new,
    innerReplacement externals plan nodePlan ctx scope nested outer edge = .ok new
  parked : ∀ edge ∈ edges, edge.outerKey ∈ t.predictionInputs
  keeps : ∀ k, (k ∈ s.predictionInputs → k ∈ t.predictionInputs) ∧ (k ∈ s.handles → k ∈ t.handles)

theorem keeps_exchanged (edge : EdgeSpec) (old new : HandleRef × PredictionInputSpec) (k : String) :
    (k ∈ s.predictionInputs → k ∈ (s.exchanged edge old new).predictionInputs) ∧
      (k ∈ s.handles → k ∈ (s.exchanged edge old new).handles) := by
  simp only [exchanged, mem_insert, mem_erase]
  by_cases hk : edge.baseKey = k
  · simp [hk]
  · exact ⟨fun h => .inr (.inr ⟨hk, h⟩), fun h => .inr (.inr ⟨hk, h⟩)⟩

theorem exchangeInputs_ran
    (h : Method.each (exchangeInput externals plan nodePlan ctx scope nested outer) edges s =
      (.ok (), t)) : Ran externals plan nodePlan ctx scope nested outer edges s t := by
  induction edges generalizing s with
  | nil =>
    cases h
    exact ⟨.nil, by simp, by simp, by simp, fun _ => ⟨fun h => h, fun h => h⟩⟩
  | cons edge rest ih =>
    obtain ⟨s', hedge, hrest⟩ := Method.each_cons_ok.mp h
    obtain ⟨old, new, hfull, hfree, hnew, rfl⟩ := exchangeInput_ok.mp hedge
    have hran := ih hrest
    have hother (other : EdgeSpec) (hmem : other ∈ rest) : edge.baseKey ≠ other.baseKey ∧
        s.entry other.outerKey = (none, none) := by
      have hentry := hran.free other hmem
      rw [entry_exchanged] at hentry
      split_ifs at hentry with hbase houter
      · cases hentry
      · cases hentry
      · exact ⟨fun heq => houter (EdgeSpec.outerKey_inj.mpr heq), hentry⟩
    constructor
    · rw [List.map_cons, List.nodup_cons, List.mem_map]
      refine ⟨?_, hran.keys_nodup⟩
      rintro ⟨other, hmem, heq⟩
      exact (hother other hmem).1 heq.symm
    · exact List.forall_mem_cons.mpr ⟨hfree, fun other hmem => (hother other hmem).2⟩
    · exact List.forall_mem_cons.mpr ⟨⟨new, hnew⟩, hran.replaced⟩
    · refine List.forall_mem_cons.mpr ⟨(hran.keeps edge.outerKey).1 ?_, hran.parked⟩
      exact mem_insert.mpr (.inr (mem_insert.mpr (.inl rfl)))
    · intro k
      have hstep := keeps_exchanged (s := s) edge old new k
      exact ⟨fun hk => (hran.keeps k).1 (hstep.1 hk), fun hk => (hran.keeps k).2 (hstep.2 hk)⟩

/-- The entries an exchange of several edges leaves. -/
structure Exchanges (externals : Externals) (plan : ExecutionPlan) (nodePlan : NodePlan)
    (ctx : RunContext) (scope : PhaseScope) (nested : NestedStackingInput)
    (outer : FoldAssignment) (edges : List EdgeSpec) (s t : TaskInputs) : Prop where
  entries : ∀ edge ∈ edges, ∃ old new, s.entry edge.baseKey = full old ∧
    innerReplacement externals plan nodePlan ctx scope nested outer edge = .ok new ∧
    t.entry edge.outerKey = full old ∧ t.entry edge.baseKey = full new
  others : ∀ k, (∀ edge ∈ edges, edge.baseKey ≠ k ∧ edge.outerKey ≠ k) → t.entry k = s.entry k

theorem exists_exchanges (hnodup : (edges.map (·.baseKey)).Nodup)
    (hfull : ∀ edge ∈ edges, ∃ old, s.entry edge.baseKey = full old)
    (hfree : ∀ edge ∈ edges, s.entry edge.outerKey = (none, none))
    (hnew : ∀ edge ∈ edges, ∃ new,
      innerReplacement externals plan nodePlan ctx scope nested outer edge = .ok new) :
    ∃ t, Method.each (exchangeInput externals plan nodePlan ctx scope nested outer) edges s =
        (.ok (), t) ∧ Exchanges externals plan nodePlan ctx scope nested outer edges s t := by
  induction edges generalizing s with
  | nil => exact ⟨s, rfl, by simp, fun _ _ => rfl⟩
  | cons edge rest ih =>
    rw [List.map_cons, List.nodup_cons] at hnodup
    rw [List.forall_mem_cons] at hfull hfree hnew
    obtain ⟨⟨old, hold⟩, hfull⟩ := hfull
    obtain ⟨⟨new, hnew⟩, hnews⟩ := hnew
    -- the keys of the rest are none of the two keys of the edge
    have hbase (other : EdgeSpec) (hmem : other ∈ rest) : edge.baseKey ≠ other.baseKey :=
      fun heq => hnodup.1 (heq ▸ List.mem_map_of_mem hmem)
    have hpark (other : EdgeSpec) (hmem : other ∈ rest) : edge.outerKey ≠ other.baseKey := by
      intro heq
      obtain ⟨old', hold'⟩ := hfull other hmem
      rw [← heq, hfree.1] at hold'
      cases hold'
    have hpark' (other : EdgeSpec) (hmem : other ∈ rest) : edge.baseKey ≠ other.outerKey := by
      intro heq
      have hnone := hfree.2 other hmem
      rw [← heq, hold] at hnone
      cases hnone
    have houter (other : EdgeSpec) (hmem : other ∈ rest) : edge.outerKey ≠ other.outerKey :=
      fun heq => hbase other hmem (EdgeSpec.outerKey_inj.mp heq)
    have hentry (other : EdgeSpec) (hmem : other ∈ rest) :
        (s.exchanged edge old new).entry other.baseKey = s.entry other.baseKey ∧
          (s.exchanged edge old new).entry other.outerKey = s.entry other.outerKey := by
      rw [entry_exchanged, entry_exchanged, if_neg (hbase other hmem), if_neg (hpark other hmem),
        if_neg (hpark' other hmem), if_neg (houter other hmem)]
      exact ⟨rfl, rfl⟩
    obtain ⟨t, ht, hex⟩ := ih (s := s.exchanged edge old new) hnodup.2
      (fun other hmem => (hentry other hmem).1 ▸ hfull other hmem)
      (fun other hmem => (hentry other hmem).2 ▸ hfree.2 other hmem) hnews
    refine ⟨t, Method.each_cons_ok.mpr ⟨_, exchangeInput_ok.mpr ⟨old, new, hold, hfree.1, hnew, rfl⟩,
      ht⟩, List.forall_mem_cons.mpr ⟨⟨old, new, hold, hnew, ?_, ?_⟩, ?_⟩, ?_⟩
    · rw [hex.others _ fun other hmem => ⟨(hpark other hmem).symm, (houter other hmem).symm⟩,
        entry_exchanged, if_neg edge.baseKey_ne_outerKey, if_pos rfl]
    · rw [hex.others _ fun other hmem => ⟨(hbase other hmem).symm, (hpark' other hmem).symm⟩,
        entry_exchanged, if_pos rfl]
    · intro other hmem
      obtain ⟨old', new', hold', hrest⟩ := hex.entries other hmem
      exact ⟨old', new', (hentry other hmem).1 ▸ hold', hrest⟩
    · intro k hk
      rw [List.forall_mem_cons] at hk
      rw [hex.others k hk.2, entry_exchanged, if_neg hk.1.1, if_neg hk.1.2]

-- ---------------------------------------------------------------------------
-- Failures that leave nothing
-- ---------------------------------------------------------------------------

theorem get_halfExchanged {handle : HandleRef} :
    (s.halfExchanged edge handle).handles[k]? = (if edge.outerKey = k then some handle
      else if edge.baseKey = k then none else s.handles[k]?) ∧
    (s.halfExchanged edge handle).predictionInputs[k]? =
      if edge.baseKey = k then none else s.predictionInputs[k]? := by
  simp only [halfExchanged, BTreeMap.getElem?_insert, getElem?_erase, and_self]

/-- The first edge has no outer input. -/
def FirstMissing (edges : List EdgeSpec) (s : TaskInputs) : Prop :=
  ∃ edge rest, edges = edge :: rest ∧ edge.baseKey ∉ s.predictionInputs

/-- The second edge reads the `:outer` key of the first, its own is taken, and
the maps already hold what the two turns write. -/
def Coincides (externals : Externals) (plan : ExecutionPlan) (nodePlan : NodePlan)
    (ctx : RunContext) (scope : PhaseScope) (nested : NestedStackingInput)
    (outer : FoldAssignment) (edges : List EdgeSpec) (s : TaskInputs) : Prop :=
  ∃ first second rest new, edges = first :: second :: rest ∧ second.baseKey = first.outerKey ∧
    innerReplacement externals plan nodePlan ctx scope nested outer first = .ok new ∧
    s.entry first.baseKey = full new ∧ s.entry first.outerKey = (none, none) ∧
    s.handles[second.outerKey]? = some new.1

theorem firstMissing_keeps (h : FirstMissing edges s) :
    ∃ e, Method.each (exchangeInput externals plan nodePlan ctx scope nested outer) edges s =
      (.error e, s) := by
  obtain ⟨edge, rest, rfl, hmissing⟩ := h
  have hnone : s.predictionInputs[edge.baseKey]? = none := by simpa using hmissing
  have hfail : ∃ e, exchangeInput externals plan nodePlan ctx scope nested outer edge s =
      (.error e, s) := by
    simp only [exchangeInput, Method.bind, takeInput, hnone]
    exact ⟨_, rfl⟩
  obtain ⟨e, hfail⟩ := hfail
  exact ⟨e, Method.each_error.mpr ⟨[], edge, rest, s, rfl, rfl, hfail⟩⟩

theorem coincides_keeps
    (h : Coincides externals plan nodePlan ctx scope nested outer edges s) :
    ∃ e, Method.each (exchangeInput externals plan nodePlan ctx scope nested outer) edges s =
      (.error e, s) := by
  obtain ⟨first, second, rest, new, rfl, hkey, hnew, hfull, hfree, htaken⟩ := h
  have hfirst := (exchangeInput_ok (u := ())).mpr ⟨new, new, hfull, hfree, hnew, rfl⟩
  have hbase : (s.exchanged first new new).entry second.baseKey = full new := by
    rw [entry_exchanged, hkey, if_neg first.baseKey_ne_outerKey, if_pos rfl]
  have hkept := (keeps_exchanged (s := s) first new new second.outerKey).2
    (BTreeMap.mem_iff.mpr ⟨_, htaken⟩)
  have hsecond : ∃ e, exchangeInput externals plan nodePlan ctx scope nested outer second
      (s.exchanged first new new) = (.error e, _) := exchangeInput_of_taken hbase hkept
  obtain ⟨e, hsecond⟩ := hsecond
  have hback : (s.exchanged first new new).halfExchanged second new.1 = s := by
    obtain ⟨hhandle, hinput⟩ := entry_eq_full.mp hfull
    obtain ⟨hfreeHandle, hfreeInput⟩ := entry_eq_none.mp hfree
    refine ext_entry fun k => Prod.ext ?_ ?_
    · refine get_halfExchanged.1.trans ?_
      simp only [hkey, exchanged, BTreeMap.getElem?_insert, getElem?_erase]
      split_ifs with houter hparked hfirst
      · exact houter ▸ htaken.symm
      · exact hparked ▸ hfreeHandle.symm
      · exact hfirst ▸ hhandle.symm
      · rfl
    · refine get_halfExchanged.2.trans ?_
      simp only [hkey, exchanged, BTreeMap.getElem?_insert, getElem?_erase]
      split_ifs with hparked hfirst
      · exact hparked ▸ hfreeInput.symm
      · exact hfirst ▸ hinput.symm
      · rfl
  refine ⟨e, Method.each_error.mpr ⟨[first], second, rest, _, rfl, ?_, hback ▸ hsecond⟩⟩
  exact Method.each_cons_ok.mpr ⟨_, hfirst, rfl⟩

theorem unchanged_cases
    (h : Method.each (exchangeInput externals plan nodePlan ctx scope nested outer) edges s =
      (.error e, s)) : FirstMissing edges s ∨
        Coincides externals plan nodePlan ctx scope nested outer edges s := by
  obtain ⟨before, edge, rest, s', rfl, hbefore, hedge⟩ := Method.each_error.mp h
  have hran := exchangeInputs_ran hbefore
  -- the failed turn has taken whatever the turns before it parked
  have hparked (first : EdgeSpec) (hmem : first ∈ before) :
      first.outerKey = edge.baseKey ∧ LeftBehind edge s' s := by
    have habsent : first.outerKey ∉ s.predictionInputs := by
      simpa using (entry_eq_none.mp (hran.free first hmem)).2
    rcases exchangeInput_error hedge with ⟨-, rfl⟩ | ⟨-, hleft⟩
    · exact absurd (hran.parked first hmem) habsent
    · by_contra hne
      have hkey : first.outerKey ≠ edge.baseKey := fun heq => hne ⟨heq, hleft⟩
      exact habsent (hleft.kept _ hkey (hran.parked first hmem))
  cases before with
  | nil =>
    cases hbefore
    rcases exchangeInput_error hedge with ⟨hmissing, -⟩ | ⟨hmem, hleft⟩
    · exact .inl ⟨edge, rest, rfl, hmissing⟩
    · exact absurd hmem hleft.taken
  | cons first more =>
    right
    obtain ⟨hkey, hleft⟩ := hparked first List.mem_cons_self
    cases more with
    | cons second more =>
      have hsecond := (hparked second (by simp)).1
      have hsame := EdgeSpec.outerKey_inj.mp (hkey.trans hsecond.symm)
      have hnodup := hran.keys_nodup
      simp [hsame] at hnodup
    | nil =>
      obtain ⟨_, hfirst, hnil⟩ := Method.each_cons_ok.mp hbefore
      cases hnil
      obtain ⟨old, new, hfull, hfree, hnew, rfl⟩ := exchangeInput_ok.mp hfirst
      have hbase : (s.exchanged first old new).entry edge.baseKey = full old := by
        rw [entry_exchanged, ← hkey, if_neg first.baseKey_ne_outerKey, if_pos rfl]
      obtain ⟨htaken, hback⟩ := hleft.parked old.1 (entry_eq_full.mp hbase).1
      have hback := hback ((hran.keeps edge.outerKey).2 htaken)
      have houter := EdgeSpec.outerKey_ne_of_parked hkey.symm
      have hold : s.entry first.baseKey = full new := by
        rw [hback]
        refine Prod.ext (get_halfExchanged.1.trans ?_) (get_halfExchanged.2.trans ?_)
        · rw [if_neg houter, ← hkey, if_neg first.baseKey_ne_outerKey.symm]
          exact (entry_eq_full.mp (entry_exchanged.trans (if_pos rfl))).1
        · rw [← hkey, if_neg first.baseKey_ne_outerKey.symm]
          exact (entry_eq_full.mp (entry_exchanged.trans (if_pos rfl))).2
      obtain rfl : old = new := by
        have hsame := hfull.symm.trans hold
        obtain ⟨hhandle, hinput⟩ := Prod.mk.inj hsame
        exact Prod.ext (Option.some.inj hhandle) (Option.some.inj hinput)
      refine ⟨first, edge, rest, old, rfl, hkey.symm, hnew, hfull, hfree, ?_⟩
      rw [hback]
      exact get_halfExchanged.1.trans (if_pos rfl)

-- ---------------------------------------------------------------------------
-- When the exchange is all or nothing
-- ---------------------------------------------------------------------------

/-- The inner out-of-fold blocks of an edge. -/
def nestedEvidence (plan : ExecutionPlan) (ctx : RunContext) (nested : NestedStackingInput)
    (edge : EdgeSpec) : List PredictionBlock :=
  edgeEvidence plan edge nested.inner.innerFoldSet.folds ctx.predictionStore

theorem mem_innerFoldIds : foldId ∈ nested.innerFoldIds ↔
    ∃ fold ∈ nested.inner.innerFoldSet.folds, fold.foldId = foldId := by
  simp [NestedStackingInput.innerFoldIds]

theorem innerOofBlocks_ok (h : innerOofBlocks externals plan ctx nested edge = .ok blocks) :
    blocks = nestedEvidence plan ctx nested edge := by
  rw [filterPredictionBlocksForEdgeSourcePort_ok h]
  simp only [nestedEvidence, edgeEvidence, InMemoryPredictionStore.find, List.filter_filter]
  refine List.filter_congr fun block _ => ?_
  have hnames : (block.foldId.any (· ∈ nested.innerFoldIds)) = true ↔
      NamesFold nested.inner.innerFoldSet.folds block := by
    simp only [Option.any_eq_true, decide_eq_true_eq, mem_innerFoldIds, NamesFold]
    constructor
    · rintro ⟨foldId, hblock, fold, hfold, rfl⟩
      exact ⟨fold, hfold, hblock⟩
    · rintro ⟨fold, hfold, hblock⟩
      exact ⟨fold.foldId, hblock, fold, hfold, rfl⟩
  have hfeeds : decide (FeedsEdge plan edge nested.inner.innerFoldSet.folds block) = true ↔
      FeedsEdge plan edge nested.inner.innerFoldSet.folds block := decide_eq_true_iff
  rw [Bool.eq_iff_iff, Bool.and_eq_true, Bool.and_eq_true, hnames, hfeeds]
  simp only [InMemoryPredictionStore.requests, FeedsEdge, Bool.and_eq_true, decide_eq_true_eq,
    Option.map_none]
  tauto

/-- The inner evidence of an edge passes the checks of the source and covers the
outer training samples and the inner folds, no sample twice. -/
structure InnerEvidence (externals : Externals) (plan : ExecutionPlan) (nodePlan : NodePlan)
    (ctx : RunContext) (scope : PhaseScope) (nested : NestedStackingInput)
    (outer : FoldAssignment) (edge : EdgeSpec) : Prop where
  accepted : ∃ blocks input, innerOofBlocks externals plan ctx nested edge = .ok blocks ∧
    innerOofInput externals plan nodePlan scope nested outer edge blocks = .ok input ∧
    input.sampleIds.toFinset = outer.trainSampleIds.toFinset ∧ input.foldIds = nested.innerFoldIds
  planned : edge.source.nodeId ∈ plan.nodePlans
  single : ∀ s ∈ outer.trainSampleIds,
    (evidenceRows (nestedEvidence plan ctx nested edge) s).length ≤ 1

theorem innerReplacement_trains
    (h : innerReplacement externals plan nodePlan ctx scope nested outer edge = .ok new) :
    InnerTraining (nestedEvidence plan ctx nested edge) outer.trainSampleIds new.2 ↔
      InnerEvidence externals plan nodePlan ctx scope nested outer edge := by
  simp only [innerReplacement, bind_ok, pure_ok, refuseIf_ok, need_ok, not_not] at h
  obtain ⟨blocks, hblocks, input, hinput, _, hcovers, _, hfolds, sourcePlan, hplan, rfl⟩ := h
  obtain rfl := innerOofBlocks_ok hblocks
  constructor
  · intro htrains
    exact ⟨⟨_, input, hblocks, hinput, hcovers, hfolds⟩, BTreeMap.mem_iff.mpr ⟨_, hplan⟩,
      fun s hs => htrains.length_le hs⟩
  · intro hevidence
    simp only [innerOofInput, bind_ok] at hinput
    obtain ⟨_ | available, havailable, hinput⟩ := hinput
    · simp only [bind_ok] at hinput
      obtain ⟨_, -, hinput⟩ := hinput
      exact .of_joined hinput hcovers
    · cases hinput
      exact .of_available havailable hcovers hevidence.single

theorem InnerEvidence.exists_replacement
    (h : InnerEvidence externals plan nodePlan ctx scope nested outer edge) :
    ∃ new, innerReplacement externals plan nodePlan ctx scope nested outer edge = .ok new := by
  obtain ⟨blocks, input, hblocks, hinput, hcovers, hfolds⟩ := h.accepted
  obtain ⟨sourcePlan, hplan⟩ := BTreeMap.mem_iff.mp h.planned
  simp only [innerReplacement, bind_ok, pure_ok, refuseIf_ok, need_ok, not_not]
  exact ⟨_, blocks, hblocks, input, hinput, (), hcovers, (), hfolds, sourcePlan, hplan, rfl⟩

/-- Every edge finds both its entries and free `:outer` keys, and has its inner evidence. -/
structure Exchangeable (externals : Externals) (plan : ExecutionPlan) (nodePlan : NodePlan)
    (ctx : RunContext) (scope : PhaseScope) (nested : NestedStackingInput)
    (outer : FoldAssignment) (edges : List EdgeSpec) (s : TaskInputs) : Prop where
  keys_nodup : (edges.map (·.baseKey)).Nodup
  found : ∀ edge ∈ edges, edge.baseKey ∈ s.handles ∧ edge.baseKey ∈ s.predictionInputs
  free : ∀ edge ∈ edges, edge.outerKey ∉ s.handles ∧ edge.outerKey ∉ s.predictionInputs
  evidence : ∀ edge ∈ edges, InnerEvidence externals plan nodePlan ctx scope nested outer edge

/-- Every input is kept under its `:outer` key and its place taken by inner
out-of-fold rows, one for each outer training sample. -/
def Replaced (plan : ExecutionPlan) (ctx : RunContext) (nested : NestedStackingInput)
    (outer : FoldAssignment) (edges : List EdgeSpec) (s t : TaskInputs) : Prop :=
  ∀ edge ∈ edges, ∃ old new, s.entry edge.baseKey = full old ∧ t.entry edge.outerKey = full old ∧
    t.entry edge.baseKey = full new ∧
    InnerTraining (nestedEvidence plan ctx nested edge) outer.trainSampleIds new.2

theorem full_inj {a b : HandleRef × PredictionInputSpec} : full a = full b ↔ a = b := by
  simp [full, Prod.ext_iff]

theorem entry_of_mem (h : k ∈ s.handles ∧ k ∈ s.predictionInputs) : ∃ old, s.entry k = full old := by
  obtain ⟨handle, hhandle⟩ := BTreeMap.mem_iff.mp h.1
  obtain ⟨input, hinput⟩ := BTreeMap.mem_iff.mp h.2
  exact ⟨(handle, input), entry_eq_full.mpr ⟨hhandle, hinput⟩⟩

theorem entry_of_not_mem : s.entry k = (none, none) ↔ k ∉ s.handles ∧ k ∉ s.predictionInputs := by
  simp [entry_eq_none]

theorem exchangeable_of_replaced
    (h : Method.each (exchangeInput externals plan nodePlan ctx scope nested outer) edges s =
      (.ok (), t)) (hreplaced : Replaced plan ctx nested outer edges s t) :
    Exchangeable externals plan nodePlan ctx scope nested outer edges s := by
  have hran := exchangeInputs_ran h
  have hfound (edge : EdgeSpec) (hmem : edge ∈ edges) : ∃ old, s.entry edge.baseKey = full old := by
    obtain ⟨old, -, hold, -⟩ := hreplaced edge hmem
    exact ⟨old, hold⟩
  obtain ⟨t', ht', hex⟩ := exists_exchanges hran.keys_nodup hfound hran.free hran.replaced
  cases h.symm.trans ht'
  refine ⟨hran.keys_nodup, fun edge hmem => ?_, fun edge hmem =>
    entry_of_not_mem.mp (hran.free edge hmem), fun edge hmem => ?_⟩
  · obtain ⟨old, hold⟩ := hfound edge hmem
    obtain ⟨hhandle, hinput⟩ := entry_eq_full.mp hold
    exact ⟨BTreeMap.mem_iff.mpr ⟨_, hhandle⟩, BTreeMap.mem_iff.mpr ⟨_, hinput⟩⟩
  · obtain ⟨-, new, -, -, hnew, htrains⟩ := hreplaced edge hmem
    obtain ⟨-, new', -, hinner, -, hnew'⟩ := hex.entries edge hmem
    obtain rfl := full_inj.mp (hnew.symm.trans hnew')
    exact (innerReplacement_trains hinner).mp htrains

theorem Exchangeable.exists_replaced
    (h : Exchangeable externals plan nodePlan ctx scope nested outer edges s) :
    ∃ t, Method.each (exchangeInput externals plan nodePlan ctx scope nested outer) edges s =
      (.ok (), t) ∧ Replaced plan ctx nested outer edges s t := by
  obtain ⟨t, ht, hex⟩ := exists_exchanges h.keys_nodup
    (fun edge hmem => entry_of_mem (h.found edge hmem))
    (fun edge hmem => entry_of_not_mem.mpr (h.free edge hmem))
    (fun edge hmem => (h.evidence edge hmem).exists_replacement)
  refine ⟨t, ht, fun edge hmem => ?_⟩
  obtain ⟨old, new, hold, hinner, hparked, hnew⟩ := hex.entries edge hmem
  exact ⟨old, new, hold, hparked, hnew, (innerReplacement_trains hinner).mpr (h.evidence edge hmem)⟩

-- ---------------------------------------------------------------------------
-- The exchange
-- ---------------------------------------------------------------------------

/-- The task is the meta node's own, in cross-validation. -/
def Addressed (nodePlan : NodePlan) (scope : PhaseScope) (nested : NestedStackingInput) : Prop :=
  scope.phase = .fitCv ∧ nodePlan.nodeId = nested.metaNodeId

/-- The outer fold and the edges pass the checks in front of the loop. -/
structure Accepted (plan : ExecutionPlan) (nodePlan : NodePlan) (scope : PhaseScope)
    (nested : NestedStackingInput) (outer : FoldAssignment) : Prop where
  inFold : scope.foldId = some nested.inner.parentOuterFoldId
  parent : nested.parentFoldSet.folds.find? (·.foldId = nested.inner.parentOuterFoldId) = some outer
  within : nested.inner.validateForOuter outer = .ok ()
  kinds : ∀ edge ∈ oofEdgesInto plan nodePlan, edge.contract.kind = .prediction

theorem incomingOofEdges_ok : incomingOofEdges plan nodePlan = .ok edges ↔
    (∀ edge ∈ oofEdgesInto plan nodePlan, edge.contract.kind = .prediction) ∧
      edges = oofEdgesInto plan nodePlan := by
  simp only [incomingOofEdges, collect_ok, bind_ok, refuseIf_ok, pure_ok, not_not]
  constructor
  · intro h
    refine ⟨fun edge hmem => ?_, ?_⟩
    · obtain ⟨other, -, -, hkind, -⟩ := exists_right_of_mem h hmem
      exact hkind
    · refine List.forall₂_eq_eq_eq ▸ (h.imp ?_).flip
      rintro edge other ⟨-, -, rfl⟩
      rfl
  · rintro ⟨hkinds, rfl⟩
    exact List.forall₂_same.mpr fun edge hmem => ⟨(), hkinds edge hmem, rfl⟩

theorem nestedStackingScope_ok :
    nestedStackingScope plan nodePlan scope nested = .ok (outer, edges) ↔
      Accepted plan nodePlan scope nested outer ∧ edges = oofEdgesInto plan nodePlan := by
  simp only [nestedStackingScope, bind_ok, refuseIf_ok, need_ok, incomingOofEdges_ok, pure_ok,
    not_not, Prod.mk.injEq]
  constructor
  · rintro ⟨_, hinFold, _, hparent, _, hwithin, _, ⟨hkinds, rfl⟩, rfl, rfl⟩
    exact ⟨⟨hinFold, hparent, hwithin, hkinds⟩, rfl⟩
  · rintro ⟨haccepted, rfl⟩
    exact ⟨(), haccepted.inFold, outer, haccepted.parent, (), haccepted.within, _,
      ⟨haccepted.kinds, rfl⟩, rfl, rfl⟩

/-- A success replaces the inputs of the meta node's own task and leaves those of
any other task; a failure leaves both maps as they were. -/
def ReplacesOrKeeps (plan : ExecutionPlan) (nodePlan : NodePlan) (ctx : RunContext)
    (scope : PhaseScope) (nested : NestedStackingInput) (s : TaskInputs) :
    Result Unit × TaskInputs → Prop
  | (.error _, t) => t = s
  | (.ok _, t) =>
    Addressed nodePlan scope nested ∧ (∃ outer,
        nested.parentFoldSet.folds.find? (·.foldId = nested.inner.parentOuterFoldId) = some outer ∧
        Replaced plan ctx nested outer (oofEdgesInto plan nodePlan) s t) ∨
      ¬Addressed nodePlan scope nested ∧ t = s

/-- The loop never starts, fails before it writes, undoes its own writes, or is
given all that it needs. -/
def ExchangesWhole (externals : Externals) (plan : ExecutionPlan) (nodePlan : NodePlan)
    (ctx : RunContext) (scope : PhaseScope) (nested : NestedStackingInput) (s : TaskInputs) : Prop :=
  Addressed nodePlan scope nested → ∀ outer, Accepted plan nodePlan scope nested outer →
    let edges := oofEdgesInto plan nodePlan
    FirstMissing edges s ∨
      Coincides externals plan nodePlan ctx scope nested outer edges s ∨
      Exchangeable externals plan nodePlan ctx scope nested outer edges s

theorem replaceNestedStackingFitCvInputs_unaddressed (h : ¬Addressed nodePlan scope nested) :
    replaceNestedStackingFitCvInputs externals plan nodePlan ctx scope nested s = (.ok (), s) := by
  unfold Addressed at h
  unfold replaceNestedStackingFitCvInputs
  rw [if_pos (by tauto)]
  rfl

theorem replaceNestedStackingFitCvInputs_refused (haddressed : Addressed nodePlan scope nested)
    (h : ¬∃ outer, Accepted plan nodePlan scope nested outer) :
    ∃ e, replaceNestedStackingFitCvInputs externals plan nodePlan ctx scope nested s =
      (.error e, s) := by
  obtain ⟨hphase, hnode⟩ := haddressed
  unfold replaceNestedStackingFitCvInputs
  rw [if_neg (by tauto)]
  cases hscope : nestedStackingScope plan nodePlan scope nested with
  | error e => exact ⟨e, rfl⟩
  | ok found =>
    obtain ⟨outer, edges⟩ := found
    exact absurd ⟨outer, (nestedStackingScope_ok.mp hscope).1⟩ h

theorem replaceNestedStackingFitCvInputs_accepted (haddressed : Addressed nodePlan scope nested)
    (h : Accepted plan nodePlan scope nested outer) :
    replaceNestedStackingFitCvInputs externals plan nodePlan ctx scope nested s =
      Method.each (exchangeInput externals plan nodePlan ctx scope nested outer)
        (oofEdgesInto plan nodePlan) s := by
  obtain ⟨hphase, hnode⟩ := haddressed
  unfold replaceNestedStackingFitCvInputs
  rw [if_neg (by tauto), nestedStackingScope_ok.mpr ⟨h, rfl⟩]
  rfl

end

/-- The exchange is all or nothing exactly when it never starts, its first input is
missing, its second turn restores what the first took, or nothing is missing. -/
theorem replaceNestedStackingFitCvInputs_whole_iff (externals : Externals) (plan : ExecutionPlan)
    (nodePlan : NodePlan) (ctx : RunContext) (scope : PhaseScope) (nested : NestedStackingInput)
    (s : TaskInputs) :
    ReplacesOrKeeps plan nodePlan ctx scope nested s
        (replaceNestedStackingFitCvInputs externals plan nodePlan ctx scope nested s) ↔
      ExchangesWhole externals plan nodePlan ctx scope nested s := by
  by_cases haddressed : Addressed nodePlan scope nested
  swap
  · rw [replaceNestedStackingFitCvInputs_unaddressed haddressed]
    exact ⟨fun _ h => absurd h haddressed, fun _ => .inr ⟨haddressed, rfl⟩⟩
  by_cases haccepted : ∃ outer, Accepted plan nodePlan scope nested outer
  swap
  · have hfails : ∃ e, replaceNestedStackingFitCvInputs externals plan nodePlan ctx scope nested s =
      (.error e, s) := replaceNestedStackingFitCvInputs_refused haddressed haccepted
    obtain ⟨e, hfails⟩ := hfails
    rw [hfails]
    exact ⟨fun _ _ outer h => absurd ⟨outer, h⟩ haccepted, fun _ => rfl⟩
  obtain ⟨outer, haccepted⟩ := haccepted
  have honly (other : FoldAssignment) (h : Accepted plan nodePlan scope nested other) :
      other = outer := Option.some.inj (h.parent.symm.trans haccepted.parent)
  rw [replaceNestedStackingFitCvInputs_accepted haddressed haccepted]
  constructor
  · intro h _ other hother
    obtain rfl := honly other hother
    rcases hrun : Method.each (exchangeInput externals plan nodePlan ctx scope nested other)
      (oofEdgesInto plan nodePlan) s with ⟨_ | u, t⟩
    · rw [hrun] at h
      cases h
      exact (unchanged_cases hrun).imp id .inl
    · rw [hrun] at h
      obtain ⟨-, found, hfound, hreplaced⟩ | ⟨hnot, -⟩ := h
      · obtain rfl := Option.some.inj (hfound.symm.trans hother.parent)
        exact .inr (.inr (exchangeable_of_replaced hrun hreplaced))
      · exact absurd haddressed hnot
  · intro h
    rcases h haddressed outer haccepted with hmissing | hcoincides | hexchangeable
    · obtain ⟨e, hrun⟩ := firstMissing_keeps hmissing
      rw [hrun]
      rfl
    · obtain ⟨e, hrun⟩ := coincides_keeps hcoincides
      rw [hrun]
      rfl
    · obtain ⟨t, hrun, hreplaced⟩ := hexchangeable.exists_replaced
      rw [hrun]
      exact .inl ⟨haddressed, outer, haccepted.parent, hreplaced⟩

-- ---------------------------------------------------------------------------
-- A half-done exchange
-- ---------------------------------------------------------------------------

/-- An outer fold over three samples, and the inner folds of its training part. -/
def sharedNested : NestedStackingInput :=
  let first : SampleId := ⟨"shared:1", by decide⟩
  let second : SampleId := ⟨"shared:2", by decide⟩
  let third : SampleId := ⟨"shared:3", by decide⟩
  let folds (id : String) (sampleIds : List SampleId) (folds : List FoldAssignment) : FoldSet :=
    { id, sampleIds, folds, sampleGroups := ∅, partitionMode := .partition
      trainExclusion := .relations, targetMissingSampleIds := [] }
  { metaNodeId := stackEdge.target.nodeId
    inner := ⟨⟨"fold:shared", by decide⟩, folds "folds:shared.inner" [first, second]
      [⟨⟨"fold:shared.inner.0", by decide⟩, [second], [first], ∅⟩,
        ⟨⟨"fold:shared.inner.1", by decide⟩, [first], [second], ∅⟩]⟩
    parentFoldSet := folds "folds:shared" [first, second, third]
      [⟨⟨"fold:shared", by decide⟩, [first, second], [third], ∅⟩,
        ⟨⟨"fold:shared:rest", by decide⟩, [third], [first, second], ∅⟩] }

/-- The outer input of the meta node: the held-out row of the fold. -/
def sharedInputs : TaskInputs :=
  let input : PredictionInputSpec := {
    producerNode := singleBlock.producerNode, sourcePort := "oof", targetPort := "oof"
    partition := .validation, predictionLevel := .sample
    foldId := some sharedNested.inner.parentOuterFoldId
    foldIds := [sharedNested.inner.parentOuterFoldId], unitIds := []
    sampleIds := [⟨"shared:3", by decide⟩], values := [[.zero]], featureValidityMasks := none
    sourcePresence := none, predictionWidth := 1, targetNames := [] }
  { handles := .collect [(stackEdge.baseKey, ⟨1, .prediction, ⟨"controller:shared", by decide⟩⟩)]
    predictionInputs := .collect [(stackEdge.baseKey, input)] }

def sharedPlan : ExecutionPlan :=
  let contract := { stackEdge.contract with requiresOof := true, requiresFoldAlignment := true }
  { stackPlan with
    foldSet := some sharedNested.parentFoldSet
    graphPlan.graph.edges := [{ stackEdge with contract }] }

/-- The exchange of the meta node, before a base model has predicted an inner fold. -/
def sharedExchange : Result Unit × TaskInputs :=
  replaceNestedStackingFitCvInputs stackExternals sharedPlan
    (sharedPlan.nodePlans[sharedNested.metaNodeId]?.get (by decide +kernel))
    (RunContext.new stackContext.runId none)
    ⟨.fitCv, none, some sharedNested.inner.parentOuterFoldId⟩ sharedNested sharedInputs

/-- It fails with the outer input moved away. -/
theorem replaceNestedStackingFitCvInputs_moves_input :
    ¬∀ externals plan nodePlan ctx scope nested s,
      ReplacesOrKeeps plan nodePlan ctx scope nested s
        (replaceNestedStackingFitCvInputs externals plan nodePlan ctx scope nested s) := by
  intro h
  have hfails : sharedExchange.1.isOk = false := by decide +kernel
  have hmoved : stackEdge.baseKey ∉ sharedExchange.2.predictionInputs := by decide +kernel
  have hkeeps := h stackExternals sharedPlan
    (sharedPlan.nodePlans[sharedNested.metaNodeId]?.get (by decide +kernel))
    (RunContext.new stackContext.runId none)
    ⟨.fitCv, none, some sharedNested.inner.parentOuterFoldId⟩ sharedNested sharedInputs
  change ReplacesOrKeeps _ _ _ _ _ _ sharedExchange at hkeeps
  rcases hrun : sharedExchange with ⟨_ | u, t⟩
  · rw [hrun] at hkeeps hmoved
    obtain rfl : t = sharedInputs := hkeeps
    have hheld : stackEdge.baseKey ∈ sharedInputs.predictionInputs := by decide +kernel
    exact hmoved hheld
  · rw [hrun] at hfails
    cases hfails

end DagMl

import DagMl.Relation.Lookup
import DagMl.Runtime.OofEvidence

/-!
# Out-of-fold edges above sample level

The blocks of a source that predicts targets or groups, checked against the
folds through the units their samples belong to, and the refit input built
from them.
-/

namespace DagMl

open Checked

structure InMemoryAggregatedPredictionStore where
  blocks : List AggregatedPredictionBlock

def InMemoryAggregatedPredictionStore.find (self : InMemoryAggregatedPredictionStore)
    (producerNode : Option NodeId) (phasePartition : Option PredictionPartition)
    (foldId : Option FoldId) (predictionLevel : Option PredictionLevel) :
    List AggregatedPredictionBlock :=
  self.blocks.filter fun block =>
    producerNode.all (block.producerNode = ·) && phasePartition.all (block.partition = ·) &&
      foldId.all (block.foldId = some ·) && predictionLevel.all (block.level = ·)

section

variable (edge : EdgeSpec) (relations : SampleRelationSet) (level : PredictionLevel)

-- ---------------------------------------------------------------------------
-- The units of samples
-- ---------------------------------------------------------------------------

def predictionUnitForSample (s : SampleId) : Result PredictionUnitId :=
  match level with
  | .sample => .ok (.sample s)
  | .target => do
    let target ← need (relations.targetForSample s) (.oofValidation
      s!"{edge.label} needs target-level OOF predictions but sample `{s}` has no target relation")
    pure (.target target)
  | .group => do
    let group ← need (relations.groupForSample s) (.oofValidation
      s!"{edge.label} needs group-level OOF predictions but sample `{s}` has no group relation")
    pure (.group group)
  | .observation => .error (.oofValidation
      s!"{edge.label} cannot consume observation-level OOF predictions from sample folds")

def expectedPredictionUnitsForSamples (samples : List SampleId) :
    Result (Finset PredictionUnitId) := do
  let units ← collect samples (predictionUnitForSample edge relations level)
  pure units.toFinset

-- ---------------------------------------------------------------------------
-- Coverage
-- ---------------------------------------------------------------------------

def validateAggregatedFoldUnitSafety (fold : FoldAssignment) : Result Unit := do
  let trainUnits ← expectedPredictionUnitsForSamples edge relations level fold.trainSampleIds
  let validationUnits ←
    expectedPredictionUnitsForSamples edge relations level fold.validationSampleIds
  match ascending (trainUnits ∩ validationUnits) with
  | [] => pure ()
  | unitId :: _ => throw (.oofValidation
      s!"{edge.label} fold `{fold.foldId}` has {level.debug} unit `{unitId}` in both train and validation partitions")

/-- A block goes to the other blocks of its fold. -/
def pushFoldBlock (folds : BTreeMap FoldId FoldAssignment)
    (blocksByFold : BTreeMap FoldId (List AggregatedPredictionBlock))
    (block : AggregatedPredictionBlock) :
    Result (BTreeMap FoldId (List AggregatedPredictionBlock)) := do
  let foldId ← need block.foldId
    (.oofValidation s!"{edge.label} has aggregated OOF predictions without a fold id")
  refuseIf (foldId ∉ folds) (.oofValidation s!"{edge.label} references unknown fold `{foldId}`")
  pure (blocksByFold.pushEntry foldId block)

/-- A unit validated in several folds is a duplicate only where folds partition the samples. -/
def coverUnit (mode : FoldPartitionMode) (allUnits : Finset PredictionUnitId)
    (unitId : PredictionUnitId) : Result (Finset PredictionUnitId) := do
  refuseIf (unitId ∈ allUnits ∧ mode = .partition) (.oofValidation
    s!"{edge.label} has duplicate aggregated OOF prediction for unit `{unitId}`")
  pure (insert unitId allUnits)

/-- One fold: its blocks predict exactly the units of its validation samples. -/
def coverFold (folds : BTreeMap FoldId FoldAssignment) (mode : FoldPartitionMode)
    (allUnits : Finset PredictionUnitId) (entry : FoldId × List AggregatedPredictionBlock) :
    Result (Finset PredictionUnitId) := do
  let fold ← need folds[entry.1]? (.panicked "fold id was validated above")
  validateAggregatedFoldUnitSafety edge relations level fold
  let foldUnits ← collectUniqueAggregatedOofUnits edge level entry.2
  let expected ←
    expectedPredictionUnitsForSamples edge relations level fold.validationSampleIds
  refuseIf (foldUnits ≠ expected) (.oofValidation
    s!"{edge.label} aggregated OOF predictions do not match {level.debug} validation units for fold `{entry.1}`")
  loop (coverUnit edge mode) allUnits (ascending foldUnits)

def validateAggregatedOofBlocksCoverFoldSet (foldSet : FoldSet)
    (blocks : List AggregatedPredictionBlock) : Result Unit := do
  let folds := foldSet.foldsById
  let blocksByFold ← loop (pushFoldBlock edge folds) ∅ blocks
  each folds.keys fun foldId => refuseIf (foldId ∉ blocksByFold) (.oofValidation
    s!"{edge.label} is missing aggregated OOF predictions for fold `{foldId}`")
  let allUnits ← loop (coverFold edge relations level folds foldSet.partitionMode) ∅
    blocksByFold.toList
  let expectedAll ← expectedPredictionUnitsForSamples edge relations level foldSet.sampleIds
  refuseIf (allUnits ≠ expectedAll) (.oofValidation
    s!"{edge.label} aggregated OOF predictions do not cover the refit {level.debug} unit universe")

def validateAggregatedBlocksBasic (blocks : List AggregatedPredictionBlock) : Result Unit :=
  each blocks fun block => do
    let _ ← block.validateShape
    refuseIf (block.partition ≠ .validation)
      (.oofValidation s!"{edge.label} selected non-validation aggregated predictions")
    refuseIf (block.level ≠ level) (.oofValidation
      s!"{edge.label} selected {block.level.debug} aggregated predictions, expected {level.debug}")

end

-- ---------------------------------------------------------------------------
-- The refit edge
-- ---------------------------------------------------------------------------

section

variable (plan : ExecutionPlan) (edge : EdgeSpec) (store : InMemoryAggregatedPredictionStore)

/-- One block of the filter: kept, dropped, or refused. -/
def keepAggregatedForEdge (block : AggregatedPredictionBlock) :
    Result (Option AggregatedPredictionBlock) := do
  if ← producerPortMatchesEdgeSourcePort plan edge block.producerNode block.producerPort
      "aggregated prediction block" then pure (some block)
  else pure none

def filterAggregatedPredictionBlocksForEdgeSourcePort (blocks : List AggregatedPredictionBlock) :
    Result (List AggregatedPredictionBlock) := do
  let kept ← collect blocks (keepAggregatedForEdge plan edge)
  pure kept.reduceOption

/-- The blocks of the edge in the store. -/
def refitAggregatedBlocks (level : PredictionLevel) : Result (List AggregatedPredictionBlock) :=
  filterAggregatedPredictionBlocksForEdgeSourcePort plan edge
    (store.find (some edge.source.nodeId) (some .validation) none (some level))

/-- `relationsForEdge` are the coordinator's relations for the edge. -/
def validateRefitAggregatedOofEdge (relationsForEdge : Result SampleRelationSet)
    (level : PredictionLevel) : Result (List AggregatedPredictionBlock) := do
  let blocks ← refitAggregatedBlocks plan edge store level
  refuseIf (blocks = []) (missingOofEdgeError edge none)
  validateAggregatedBlocksBasic edge level blocks
  let foldSet ← requiredFoldSetForOof plan edge
  let relations ← relationsForEdge
  validateAggregatedOofBlocksCoverFoldSet edge relations level foldSet blocks
  pure blocks

end

-- ---------------------------------------------------------------------------
-- Blocks of an edge
-- ---------------------------------------------------------------------------

/-- What every check of the edge asks of a block. -/
structure OnEdge (level : PredictionLevel) (block : AggregatedPredictionBlock) : Prop where
  shape : ∃ width, block.validateShape = .ok width
  partition : block.partition = .validation
  level : block.level = level

/-- The width of a block and the names of its columns. -/
def AggregatedPredictionBlock.columns (self : AggregatedPredictionBlock) : Nat × List String :=
  (self.width, aggregatedKind.normalizedTargets self self.width)

section

variable {edge : EdgeSpec} {level : PredictionLevel} {blocks : List AggregatedPredictionBlock}

theorem AggregatedPredictionBlock.validateShape_ok {block : AggregatedPredictionBlock} {width : Nat}
    (h : block.validateShape = .ok width) : width = block.width ∧ block.unitIds.Nodup := by
  simp only [validateShape, bind_ok, refuseIf_ok, pure_ok, not_not] at h
  obtain ⟨_, -, _, -, _, hunits, _, -, _, -, _, -, _, -, rfl⟩ := h
  exact ⟨rfl, card_toFinset_eq_length.mp hunits⟩

theorem collectUniqueAggregatedOofUnits_ok {units : Finset PredictionUnitId} :
    collectUniqueAggregatedOofUnits edge level blocks = .ok units ↔
      (∀ block ∈ blocks, OnEdge level block) ∧ (blocks.flatMap (·.unitIds)).Nodup ∧
        units = (blocks.flatMap (·.unitIds)).toFinset := by
  have step (n : Nat) (seen : Finset PredictionUnitId) (block : AggregatedPredictionBlock)
      (s : Finset PredictionUnitId) :
      uniqueAggregatedOofBlock edge level seen block = .ok s ↔ OnEdge level block ∧
        block.unitIds.Nodup ∧ (∀ y ∈ block.unitIds, y ∉ seen) ∧ s = seen ∪ block.unitIds.toFinset := by
    simp only [uniqueAggregatedOofBlock, bind_ok, refuseIf_ok, insertUnique_ok, not_not]
    constructor
    · rintro ⟨width, hshape, _, hpartition, _, hlevel, hunits⟩
      exact ⟨⟨⟨width, hshape⟩, hpartition, hlevel⟩, hunits⟩
    · rintro ⟨⟨⟨width, hshape⟩, hpartition, hlevel⟩, hunits⟩
      exact ⟨width, hshape, (), hpartition, (), hlevel, hunits⟩
  have hloop := @loop_gather _ _ _ _ _ units _ (fun _ seen => seen) _ (fun _ => 0) _ blocks 0 ∅ step
  simpa [collectUniqueAggregatedOofUnits] using hloop

theorem stableAggregatedColumns_loop :
    (∃ columns, loop (stableAggregatedColumns edge) none blocks = .ok columns) ↔
      (∀ block ∈ blocks, ∃ width, block.validateShape = .ok width) ∧
        ∀ a ∈ blocks, ∀ b ∈ blocks, a.columns = b.columns := by
  refine loop_sameKey_ok fun columns block s => ?_
  simp only [stableAggregatedColumns, bind_ok, refuseIf_ok, pure_ok, not_exists, not_and, not_not]
  constructor
  · rintro ⟨width, hshape, _, hwidth, _, hnames, rfl⟩
    obtain ⟨rfl, -⟩ := AggregatedPredictionBlock.validateShape_ok hshape
    exact ⟨⟨_, hshape⟩, fun k hk => Prod.ext (hwidth k hk) (hnames k hk), rfl⟩
  · rintro ⟨⟨width, hshape⟩, hsame, rfl⟩
    obtain ⟨rfl, -⟩ := AggregatedPredictionBlock.validateShape_ok hshape
    exact ⟨_, hshape, (), fun k hk => congrArg Prod.fst (hsame k hk), (),
      fun k hk => congrArg Prod.snd (hsame k hk), rfl⟩

/-- The refit input is built from blocks on the edge unless two rows share a unit or two blocks
differ in their columns. -/
theorem aggregatedPredictionInputSpec_ok {scope : PhaseScope} :
    (∃ spec, aggregatedPredictionInputSpec edge scope level blocks = .ok spec) ↔
      (∀ block ∈ blocks, OnEdge level block) ∧ (blocks.flatMap (·.unitIds)).Nodup ∧
        ∀ a ∈ blocks, ∀ b ∈ blocks, a.columns = b.columns := by
  simp only [aggregatedPredictionInputSpec, bind_ok, pure_ok, collectUniqueAggregatedOofUnits_ok]
  constructor
  · rintro ⟨spec, units, ⟨hblocks, hnodup, -⟩, columns, hcolumns, -⟩
    exact ⟨hblocks, hnodup, (stableAggregatedColumns_loop.mp ⟨columns, hcolumns⟩).2⟩
  · rintro ⟨hblocks, hnodup, hsame⟩
    obtain ⟨columns, hcolumns⟩ := stableAggregatedColumns_loop.mpr
      ⟨fun block hblock => (hblocks block hblock).shape, hsame⟩
    exact ⟨_, _, ⟨hblocks, hnodup, rfl⟩, columns, hcolumns, rfl⟩

theorem aggregatedPredictionInputSpec_unitIds {scope : PhaseScope} {spec : PredictionInputSpec}
    (h : aggregatedPredictionInputSpec edge scope level blocks = .ok spec) :
    spec.unitIds = ascending (blocks.flatMap (·.unitIds)).toFinset := by
  simp only [aggregatedPredictionInputSpec, bind_ok, pure_ok, collectUniqueAggregatedOofUnits_ok] at h
  obtain ⟨units, ⟨-, -, rfl⟩, _, -, rfl⟩ := h
  rfl

-- ---------------------------------------------------------------------------
-- What coverage establishes
-- ---------------------------------------------------------------------------

theorem pushFoldBlock_loop {folds : BTreeMap FoldId FoldAssignment}
    {blocksByFold : BTreeMap FoldId (List AggregatedPredictionBlock)}
    (h : loop (pushFoldBlock edge folds) ∅ blocks = .ok blocksByFold) :
    ∀ block, block ∈ blocks ↔ ∃ entry ∈ blocksByFold.toList, block ∈ entry.2 := by
  refine loop_invariant (fun done (byFold : BTreeMap FoldId (List AggregatedPredictionBlock)) =>
    ∀ block, block ∈ done ↔ ∃ entry ∈ byFold.toList, block ∈ entry.2) (by simp) ?_ h
  intro done block byFold byFold' ih hstep other
  simp only [pushFoldBlock, bind_ok, need_ok, refuseIf_ok, pure_ok] at hstep
  obtain ⟨foldId, -, _, -, rfl⟩ := hstep
  rw [List.mem_append, ih other, List.mem_singleton]
  simp only [Prod.exists, BTreeMap.mem_toList, BTreeMap.pushEntry, BTreeMap.getElem?_insert]
  constructor
  · rintro (⟨k, l, hget, hother⟩ | rfl)
    · by_cases hk : foldId = k
      · subst hk
        exact ⟨foldId, _, if_pos rfl, List.mem_append_left _ (by simpa [hget] using hother)⟩
      · exact ⟨k, l, by rw [if_neg hk]; exact hget, hother⟩
    · exact ⟨foldId, _, if_pos rfl, List.mem_append_right _ List.mem_cons_self⟩
  · rintro ⟨k, l, hget, hother⟩
    by_cases hk : foldId = k
    · subst hk
      rw [if_pos rfl, Option.some_inj] at hget
      subst hget
      rcases List.mem_append.mp hother with hother | hother
      · cases hbefore : byFold[foldId]? with
        | none => simp [hbefore] at hother
        | some before => exact .inl ⟨foldId, before, hbefore, by simpa [hbefore] using hother⟩
      · exact .inr (List.mem_singleton.mp hother)
    · rw [if_neg hk] at hget
      exact .inl ⟨k, l, hget, hother⟩

theorem coverUnit_loop {units allUnits : Finset PredictionUnitId} {unitIds : List PredictionUnitId} :
    loop (coverUnit edge .resampled) allUnits unitIds = .ok units ↔
      units = allUnits ∪ unitIds.toFinset := by
  induction unitIds generalizing allUnits with
  | nil => simp [eq_comm]
  | cons unitId unitIds ih =>
    simp only [loop_cons, coverUnit, bind_ok, refuseIf_ok, pure_ok, ih]
    simp [Finset.insert_union, Finset.union_insert]

variable {relations : SampleRelationSet}

theorem toFinset_ascending (units : Finset PredictionUnitId) :
    (ascending units).toFinset = units := by
  ext unitId
  rw [List.mem_toFinset, mem_ascending]

theorem coverFold_ok {folds : BTreeMap FoldId FoldAssignment} {allUnits units : Finset PredictionUnitId}
    {entry : FoldId × List AggregatedPredictionBlock}
    (h : coverFold edge relations level folds .resampled allUnits entry = .ok units) :
    (∀ block ∈ entry.2, OnEdge level block) ∧
      units = allUnits ∪ (entry.2.flatMap (·.unitIds)).toFinset := by
  simp only [coverFold, bind_ok, refuseIf_ok, collectUniqueAggregatedOofUnits_ok,
    coverUnit_loop] at h
  obtain ⟨_, -, _, -, foldUnits, ⟨hblocks, -, rfl⟩, _, -, _, -, rfl⟩ := h
  exact ⟨hblocks, by rw [toFinset_ascending]⟩

/-- In a resampled fold set accepted blocks are on the edge and predict exactly the units of the
samples, some of them perhaps more than once. -/
theorem cover_resampled {foldSet : FoldSet} (hmode : foldSet.partitionMode = .resampled)
    (h : validateAggregatedOofBlocksCoverFoldSet edge relations level foldSet blocks = .ok u) :
    (∀ block ∈ blocks, OnEdge level block) ∧
      expectedPredictionUnitsForSamples edge relations level foldSet.sampleIds =
        .ok (blocks.flatMap (·.unitIds)).toFinset := by
  simp only [validateAggregatedOofBlocksCoverFoldSet, bind_ok, refuseIf_ok, hmode, not_not] at h
  obtain ⟨byFold, hpush, _, -, allUnits, hcover, expectedAll, hexpected, hall⟩ := h
  have hmem := pushFoldBlock_loop hpush
  obtain ⟨hon, hunits⟩ := loop_invariant
    (fun done (all : Finset PredictionUnitId) =>
      (∀ entry ∈ done, ∀ block ∈ entry.2, OnEdge level block) ∧
        all = (done.flatMap fun entry => entry.2.flatMap (·.unitIds)).toFinset)
    (by simp) (fun done entry all all' ih hstep => by
      obtain ⟨hentry, rfl⟩ := coverFold_ok hstep
      refine ⟨fun e he => ?_, by simp [ih.2]⟩
      rcases List.mem_append.mp he with he | he
      · exact ih.1 e he
      · rw [List.mem_singleton.mp he]
        exact hentry) hcover
  refine ⟨fun block hblock => ?_, ?_⟩
  · obtain ⟨entry, hentry, hin⟩ := (hmem block).mp hblock
    exact hon entry hentry block hin
  · rw [hexpected, ← hall, hunits]
    congr 1
    ext unitId
    simp only [List.mem_toFinset, List.mem_flatMap, hmem]
    constructor
    · rintro ⟨entry, hentry, block, hin, hunit⟩
      exact ⟨block, ⟨entry, hentry, hin⟩, hunit⟩
    · rintro ⟨block, ⟨entry, hentry, hin⟩, hunit⟩
      exact ⟨entry, hentry, block, hin, hunit⟩

end

-- ---------------------------------------------------------------------------
-- The refit input
-- ---------------------------------------------------------------------------

section

variable (externals : Externals) (plan : ExecutionPlan) (edge : EdgeSpec) (ctx : RunContext)
  (scope : PhaseScope) (resources : PhaseScopeResources)
  (store : InMemoryAggregatedPredictionStore)

/-- A REFIT edge above sample level that nothing else stops: its source port, node plan and handle
are in order, and its blocks pass the coverage check of a resampled fold set. -/
structure ReachesInput (sourcePlan : NodePlan) (folds : FoldSet) (relations : SampleRelationSet)
    (blocks : List AggregatedPredictionBlock) : Prop where
  phase : scope.phase = .refit
  provenance : validateOofSourcePortProvenance plan edge = .ok ()
  planned : plan.nodePlans[edge.source.nodeId]? = some sourcePlan
  above : oofPredictionLevelForSource sourcePlan ≠ .sample
  fresh : replayedAbove edge scope resources = none
  handle : ∃ handle, materializeOofPredictionHandle externals plan edge ctx scope resources
    sourcePlan.controllerId = .ok handle
  foldSet : plan.foldSet = some folds
  resampled : folds.partitionMode = .resampled
  found : refitAggregatedBlocks plan edge store (oofPredictionLevelForSource sourcePlan) = .ok blocks
  covered : validateAggregatedOofBlocksCoverFoldSet edge relations
    (oofPredictionLevelForSource sourcePlan) folds blocks = .ok ()

variable {externals plan edge ctx scope resources store}
variable {sourcePlan : NodePlan} {folds : FoldSet} {relations : SampleRelationSet}
  {blocks : List AggregatedPredictionBlock}

theorem validateRefitAggregatedOofEdge_iff
    (h : ReachesInput externals plan edge ctx scope resources store sourcePlan folds relations blocks)
    {checked : List AggregatedPredictionBlock} :
    validateRefitAggregatedOofEdge plan edge store (.ok relations)
        (oofPredictionLevelForSource sourcePlan) = .ok checked ↔
      blocks ≠ [] ∧ checked = blocks := by
  have hbasic : validateAggregatedBlocksBasic edge (oofPredictionLevelForSource sourcePlan) blocks =
      .ok () := by
    refine each_ok.mpr fun block hblock => ?_
    obtain ⟨⟨width, hshape⟩, hpartition, hlevel⟩ := (cover_resampled h.resampled h.covered).1 block hblock
    simp only [bind_ok, refuseIf_ok, not_not]
    exact ⟨width, hshape, (), hpartition, hlevel⟩
  simp only [validateRefitAggregatedOofEdge, bind_ok, refuseIf_ok, requiredFoldSetForOof_ok, pure_ok]
  constructor
  · rintro ⟨_, hfound, _, hne, _, -, _, -, _, -, _, -, rfl⟩
    obtain rfl := Except.ok.inj (hfound.symm.trans h.found)
    exact ⟨hne, rfl⟩
  · rintro ⟨hne, rfl⟩
    exact ⟨checked, h.found, (), hne, (), hbasic, folds, h.foldSet, relations, rfl, (), h.covered, rfl⟩

/-- In REFIT the collector builds the input of the edge from the checked blocks. -/
theorem collectOofPredictionInput_refit
    (h : ReachesInput externals plan edge ctx scope resources store sourcePlan folds relations blocks)
    {input : CollectedPredictionInput} :
    collectOofPredictionInput externals plan edge ctx scope resources
        (validateRefitAggregatedOofEdge plan edge store (.ok relations)) = .ok (some input) ↔
      blocks ≠ [] ∧ aggregatedPredictionInputSpec edge scope
          (oofPredictionLevelForSource sourcePlan) blocks = .ok input.spec ∧
        materializeOofPredictionHandle externals plan edge ctx scope resources
          sourcePlan.controllerId = .ok input.handle := by
  have hcollect : collectOofPredictionInput externals plan edge ctx scope resources
      (validateRefitAggregatedOofEdge plan edge store (.ok relations)) =
      collectAggregatedInput externals plan edge ctx scope resources
        (validateRefitAggregatedOofEdge plan edge store (.ok relations))
        (oofPredictionLevelForSource sourcePlan) sourcePlan := by
    rw [collectOofPredictionInput, h.provenance, h.planned, h.fresh]
    exact if_pos h.above
  simp only [hcollect, collectAggregatedInput, aggregatedOofBlocks, h.phase, or_true, if_true,
    bind_ok, validateRefitAggregatedOofEdge_iff h, pure_ok]
  constructor
  · rintro ⟨_, ⟨hne, rfl⟩, handle, hhandle, spec, hspec, hinput⟩
    cases hinput
    exact ⟨hne, hspec, hhandle⟩
  · rintro ⟨hne, hspec, hhandle⟩
    exact ⟨blocks, ⟨hne, rfl⟩, _, hhandle, _, hspec, rfl⟩

/-- After the coverage check of a resampled fold set the refit input is built, with every expected
unit once, exactly when no two rows share a unit and all blocks have the same columns. -/
theorem refit_input_iff
    (h : ReachesInput externals plan edge ctx scope resources store sourcePlan folds relations blocks) :
    (∃ input expected,
      collectOofPredictionInput externals plan edge ctx scope resources
        (validateRefitAggregatedOofEdge plan edge store (.ok relations)) = .ok (some input) ∧
      expectedPredictionUnitsForSamples edge relations (oofPredictionLevelForSource sourcePlan)
        folds.sampleIds = .ok expected ∧
      input.spec.unitIds.Nodup ∧ input.spec.unitIds.toFinset = expected) ↔
    blocks ≠ [] ∧ (blocks.flatMap (·.unitIds)).Nodup ∧
      ∀ a ∈ blocks, ∀ b ∈ blocks, a.columns = b.columns := by
  obtain ⟨hon, hexpected⟩ := cover_resampled h.resampled h.covered
  simp only [collectOofPredictionInput_refit h, hexpected]
  constructor
  · rintro ⟨input, _, ⟨hne, hspec, -⟩, -⟩
    exact ⟨hne, (aggregatedPredictionInputSpec_ok.mp ⟨_, hspec⟩).2⟩
  · rintro ⟨hne, hunique⟩
    obtain ⟨spec, hspec⟩ := aggregatedPredictionInputSpec_ok.mpr ⟨hon, hunique⟩
    obtain ⟨handle, hhandle⟩ := h.handle
    refine ⟨⟨handle, spec⟩, _, ⟨hne, hspec, hhandle⟩, rfl, ?_, ?_⟩
    · rw [aggregatedPredictionInputSpec_unitIds hspec]
      exact nodup_ascending _
    · rw [aggregatedPredictionInputSpec_unitIds hspec, toFinset_ascending]

end

-- ---------------------------------------------------------------------------
-- Two folds and a repeated one
-- ---------------------------------------------------------------------------

def unitSample (i : Fin 2) : SampleId :=
  match i with
  | 0 => ⟨"unit:first", by decide⟩
  | 1 => ⟨"unit:second", by decide⟩

def unitTarget (i : Fin 2) : TargetId :=
  match i with
  | 0 => ⟨"target:first", by decide⟩
  | 1 => ⟨"target:second", by decide⟩

/-- Validates one of the two samples and trains on the other. -/
def unitFold (foldId : FoldId) (i : Fin 2) : FoldAssignment :=
  { foldId, trainSampleIds := [unitSample (1 - i)], validationSampleIds := [unitSample i] }

def unitBlock (foldId : FoldId) (i : Fin 2) : AggregatedPredictionBlock where
  predictionId := none
  producerNode := singleBlock.producerNode
  producerPort := some "oof"
  partition := .validation
  foldId := some foldId
  level := .target
  unitIds := [.target (unitTarget i)]
  values := [[.zero]]
  targetNames := []

def unitRelations : SampleRelationSet where
  records := [
    { SampleRelation.new ⟨"obs:first", by decide⟩ (unitSample 0) with targetId := some (unitTarget 0) },
    { SampleRelation.new ⟨"obs:second", by decide⟩ (unitSample 1) with targetId := some (unitTarget 1) }]

def unitSource : NodePlan where
  nodeId := singleBlock.producerNode
  kind := .model
  controllerId := ⟨"controller:unit", by decide⟩
  controllerVersion := "1"
  supportedPhases := {.fitCv, .refit}
  trainingLosses := []
  inputNodes := []
  shapePlan := some ⟨{
    groupingKey := none, aggregationLevel := .target, method := .mean, weights := .none
    customController := none, storeRawPredictions := false, storeAggregatedPredictions := true }⟩
  dataBindings := []
  innerCv := none
  paramsFingerprint := ""

def unitFoldSet (folds : List FoldAssignment) : FoldSet where
  id := "folds:unit"
  sampleIds := [unitSample 0, unitSample 1]
  folds := folds
  sampleGroups := ∅
  partitionMode := .resampled
  trainExclusion := .relations
  targetMissingSampleIds := []

def unitPlan (folds : List FoldAssignment) : ExecutionPlan :=
  { stackPlan with
    nodePlans := .collect [(singleBlock.producerNode, unitSource)]
    foldSet := some (unitFoldSet folds) }

def twoFolds : List FoldAssignment :=
  [unitFold ⟨"fold:unit1", by decide⟩ 0, unitFold ⟨"fold:unit2", by decide⟩ 1]

def twoBlocks : List AggregatedPredictionBlock :=
  [unitBlock ⟨"fold:unit1", by decide⟩ 0, unitBlock ⟨"fold:unit2", by decide⟩ 1]

theorem unit_reachesInput {folds : List FoldAssignment} {blocks : List AggregatedPredictionBlock}
    (hfound : refitAggregatedBlocks (unitPlan folds) stackEdge ⟨blocks⟩ .target = .ok blocks)
    (hcovered : validateAggregatedOofBlocksCoverFoldSet stackEdge unitRelations .target
      (unitFoldSet folds) blocks = .ok ()) :
    ReachesInput stackExternals (unitPlan folds) stackEdge stackContext (stackScope .refit)
      ⟨none, none, none, none⟩ ⟨blocks⟩ unitSource (unitFoldSet folds) unitRelations blocks where
  phase := rfl
  provenance := by rfl
  planned := by rfl
  above := by decide
  fresh := rfl
  handle := ⟨_, rfl⟩
  foldSet := rfl
  resampled := rfl
  found := hfound
  covered := hcovered

theorem refit_input_iff_two :
    ∃ input expected,
      collectOofPredictionInput stackExternals (unitPlan twoFolds) stackEdge stackContext
          (stackScope .refit) ⟨none, none, none, none⟩ (validateRefitAggregatedOofEdge
            (unitPlan twoFolds) stackEdge ⟨twoBlocks⟩ (.ok unitRelations)) = .ok (some input) ∧
        expectedPredictionUnitsForSamples stackEdge unitRelations .target
          [unitSample 0, unitSample 1] = .ok expected ∧
        input.spec.unitIds.Nodup ∧ input.spec.unitIds.toFinset = expected :=
  (refit_input_iff (unit_reachesInput (by decide +kernel) (by decide +kernel))).mpr
    ⟨by decide, by decide +kernel, by decide +kernel⟩

/-- A third fold that validates the first sample again. -/
def repeatedFold : FoldId := ⟨"fold:unit3", by decide⟩

theorem repeated_unit_refused :
    let folds := twoFolds ++ [unitFold repeatedFold 0]
    let blocks := twoBlocks ++ [unitBlock repeatedFold 0]
    validateAggregatedOofBlocksCoverFoldSet stackEdge unitRelations .target (unitFoldSet folds)
        blocks = .ok () ∧
      ∀ input, collectOofPredictionInput stackExternals (unitPlan folds) stackEdge stackContext
        (stackScope .refit) ⟨none, none, none, none⟩ (validateRefitAggregatedOofEdge
          (unitPlan folds) stackEdge ⟨blocks⟩ (.ok unitRelations)) ≠ .ok (some input) := by
  have hcovered : validateAggregatedOofBlocksCoverFoldSet stackEdge unitRelations .target
      (unitFoldSet (twoFolds ++ [unitFold repeatedFold 0]))
      (twoBlocks ++ [unitBlock repeatedFold 0]) = .ok () := by decide +kernel
  refine ⟨hcovered, fun input hinput => ?_⟩
  have hreaches := unit_reachesInput (by decide +kernel) hcovered
  obtain ⟨-, hspec, -⟩ := (collectOofPredictionInput_refit hreaches).mp hinput
  exact absurd (aggregatedPredictionInputSpec_ok.mp ⟨_, hspec⟩).2.1 (by decide +kernel)

end DagMl

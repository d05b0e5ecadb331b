import Mathlib
import DagMl.Bundle.Basic
import DagMl.Bundle.Builders
import DagMl.Plan
import DagMl.Runtime.OofInput

/-!
# A bundle against its plan

`ExecutionBundle.validateAgainstPlan` holds every prediction requirement
against an edge of the plan and its cache against the folds. The inputs of a
concat merge cover only a part of the folds each, so they are checked as a
group.
-/

namespace DagMl

open Checked

-- ---------------------------------------------------------------------------
-- The plan
-- ---------------------------------------------------------------------------

/-- The checks of a plan that no prediction requirement relies on: `middle` stands
after the graph's, `closing` after those of the fold set. -/
structure PlanChecks where
  middle : ExecutionPlan → Result Unit
  closing : ExecutionPlan → Result Unit

namespace ExecutionPlan

def validate (checks : PlanChecks) (self : ExecutionPlan) : Result Unit := do
  self.graphPlan.graph.validate
  checks.middle self
  whenSome self.foldSet FoldSet.validate
  checks.closing self

/-- A `PredictionJoin` whose metadata asks for the `concat` mode. -/
def isConcatMergeConsumer (self : ExecutionPlan) (consumerNode : NodeId) : Bool :=
  match self.nodePlans[consumerNode]? with
  | none => false
  | some nodePlan =>
    nodePlan.kind = .predictionJoin &&
      (((self.findNode consumerNode).bind (·.metadata["merge_mode"]?)).bind JsonValue.asStr) =
        some "concat"

end ExecutionPlan

/-- Every sample that a fold validates; in `partition` mode the whole set. -/
def expectedOofSampleIds (foldSet : FoldSet) : Finset SampleId :=
  match foldSet.partitionMode with
  | .resampled => (foldSet.folds.flatMap (·.validationSampleIds)).toFinset
  | .partition => foldSet.sampleIds.toFinset

-- ---------------------------------------------------------------------------
-- One requirement
-- ---------------------------------------------------------------------------

namespace ExecutionBundle

variable {Sections : Type} (self : ExecutionBundle Sections) (plan : ExecutionPlan)
  (requirement : BundlePredictionRequirement) (cache : BundlePredictionCacheRecord)

/-- `if !covered.insert(row) && mode == Partition { return Err(dup(row)) }`. -/
def coverRow {ρ : Type} [DecidableEq ρ] (dup : ρ → DagMlError) (mode : FoldPartitionMode)
    (covered : Finset ρ) (row : ρ) : Result (Finset ρ) :=
  if row ∈ covered ∧ mode = .partition then .error (dup row) else .ok (insert row covered)

/-- The fold of a block record, which has to name one of the set. -/
def foldOfBlock (folds : BTreeMap FoldId FoldAssignment) (block : BundlePredictionBlockCacheRecord) :
    Result FoldAssignment := do
  let foldId ← need block.foldId (.runtimeValidation
    s!"bundle `{self.bundleId}` prediction cache `{cache.cacheId}` has an OOF block without a fold id")
  need folds[foldId]? (.runtimeValidation
    s!"bundle `{self.bundleId}` prediction cache `{cache.cacheId}` references unknown fold `{foldId}`")

/-- One turn of the loop over the block records: the folds and the samples covered. -/
def coverCacheBlock (foldSet : FoldSet) (covered : Finset FoldId × Finset SampleId)
    (block : BundlePredictionBlockCacheRecord) : Result (Finset FoldId × Finset SampleId) := do
  let fold ← self.foldOfBlock cache foldSet.foldsById block
  refuseIf (block.sampleIds.toFinset ≠ fold.validationSampleIds.toFinset) (.runtimeValidation
    s!"bundle `{self.bundleId}` prediction cache `{cache.cacheId}` block for fold `{fold.foldId}` does not match validation samples for requirement `{requirement.key}`")
  let samples ← loop (coverRow (fun s => .runtimeValidation
    s!"bundle `{self.bundleId}` prediction cache `{cache.cacheId}` has duplicate OOF sample `{s}`")
    foldSet.partitionMode) covered.2 (ascending block.sampleIds.toFinset)
  pure (insert fold.foldId covered.1, samples)

def validatePredictionCacheBlocksMatchFoldSet (foldSet : FoldSet) : Result Unit := do
  let covered ← loop (self.coverCacheBlock requirement cache foldSet) (∅, ∅) cache.blocks
  refuseIf (covered.1 ≠ (foldSet.folds.map (·.foldId)).toFinset) (.runtimeValidation
    s!"bundle `{self.bundleId}` prediction cache `{cache.cacheId}` does not cover all folds for requirement `{requirement.key}`")
  refuseIf (covered.2 ≠ expectedOofSampleIds foldSet) (.runtimeValidation
    s!"bundle `{self.bundleId}` prediction cache `{cache.cacheId}` does not cover the full OOF sample universe for requirement `{requirement.key}`")

def coverAggregatedCacheBlock (partitionMode : FoldPartitionMode)
    (covered : Finset FoldId × Finset PredictionUnitId) (block : BundlePredictionBlockCacheRecord) :
    Result (Finset FoldId × Finset PredictionUnitId) := do
  refuseIf (block.predictionLevel ≠ requirement.predictionLevel) (.runtimeValidation
    s!"bundle `{self.bundleId}` prediction cache `{cache.cacheId}` block level does not match requirement `{requirement.key}`")
  let units ← loop (coverRow (fun unitId => .runtimeValidation
    s!"bundle `{self.bundleId}` prediction cache `{cache.cacheId}` has duplicate aggregated unit `{unitId}`")
    partitionMode) covered.2 block.unitIds
  pure (covered.1 ∪ block.foldId.toFinset, units)

def validateAggregatedPredictionCacheBlocksMatchRequirement (partitionMode : FoldPartitionMode) :
    Result Unit := do
  let covered ← loop (self.coverAggregatedCacheBlock requirement cache partitionMode) (∅, ∅)
    cache.blocks
  refuseIf (covered.1 ≠ requirement.foldIds.toFinset) (.runtimeValidation
    s!"bundle `{self.bundleId}` prediction cache `{cache.cacheId}` does not cover all folds for aggregated requirement `{requirement.key}`")
  refuseIf (covered.2 ≠ requirement.unitIds.toFinset) (.runtimeValidation
    s!"bundle `{self.bundleId}` prediction cache `{cache.cacheId}` does not cover all units for aggregated requirement `{requirement.key}`")

/-- One block record of one input of a concat merge. -/
def checkBranchBlock (foldSet : FoldSet) (block : BundlePredictionBlockCacheRecord) :
    Result Unit := do
  let fold ← self.foldOfBlock cache foldSet.foldsById block
  refuseIf (block.sampleIds.toFinset.card ≠ block.sampleIds.length) (.runtimeValidation
    s!"bundle `{self.bundleId}` prediction cache `{cache.cacheId}` block for fold `{fold.foldId}` has a duplicate sample for requirement `{requirement.key}`")
  refuseIf (¬block.sampleIds.toFinset ⊆ fold.validationSampleIds.toFinset) (.runtimeValidation
    s!"bundle `{self.bundleId}` prediction cache `{cache.cacheId}` block for fold `{fold.foldId}` covers samples outside the fold validation set for requirement `{requirement.key}`")

end ExecutionBundle

/-- `plan.fold_set`, or the error of the owner that needs it. -/
def ExecutionPlan.requireFoldSet (self : ExecutionPlan) (owner : String) : Result FoldSet :=
  need self.foldSet (.runtimeValidation
    s!"{owner} needs fold alignment but plan `{self.id}` has no fold set")

namespace ExecutionBundle

variable {Sections : Type} (self : ExecutionBundle Sections) (plan : ExecutionPlan)
  (requirement : BundlePredictionRequirement)

/-- An input of a concat merge stays within the folds and their samples. -/
def validateConcatMergeBranchInputRequirement (cache : Option BundlePredictionCacheRecord) :
    Result Unit := do
  let foldSet ← plan.requireFoldSet
    s!"bundle `{self.bundleId}` prediction requirement `{requirement.key}`"
  refuseIf (¬requirement.foldIds.toFinset ⊆ (foldSet.folds.map (·.foldId)).toFinset)
    (.runtimeValidation
      s!"bundle `{self.bundleId}` concat-merge prediction requirement `{requirement.key}` has fold ids outside the plan fold set")
  refuseIf (requirement.predictionLevel ≠ .sample) (.runtimeValidation
    s!"bundle `{self.bundleId}` concat-merge prediction requirement `{requirement.key}` must be sample-level (got {requirement.predictionLevel.debug})")
  refuseIf (¬requirement.sampleIds.toFinset ⊆ expectedOofSampleIds foldSet) (.runtimeValidation
    s!"bundle `{self.bundleId}` concat-merge prediction requirement `{requirement.key}` covers samples outside the plan fold set")
  whenSome cache fun cache =>
    each cache.blocks (self.checkBranchBlock requirement cache foldSet)

/-- The requirement of an ordinary consumer, against the whole fold set. -/
def validateFullFoldRequirement (cache : Option BundlePredictionCacheRecord) : Result Unit := do
  let foldSet ← plan.requireFoldSet
    s!"bundle `{self.bundleId}` prediction requirement `{requirement.key}`"
  refuseIf (requirement.foldIds.toFinset ≠ (foldSet.folds.map (·.foldId)).toFinset)
    (.runtimeValidation
      s!"bundle `{self.bundleId}` prediction requirement `{requirement.key}` fold ids do not match plan fold set")
  if requirement.predictionLevel ≠ .sample then
    whenSome cache fun cache => self.validateAggregatedPredictionCacheBlocksMatchRequirement
      requirement cache foldSet.partitionMode
  else do
    refuseIf (requirement.sampleIds.toFinset ≠ expectedOofSampleIds foldSet) (.runtimeValidation
      s!"bundle `{self.bundleId}` prediction requirement `{requirement.key}` sample ids do not match plan fold set")
    whenSome cache fun cache =>
      self.validatePredictionCacheBlocksMatchFoldSet requirement cache foldSet

/-- Requirements of edges that need no fold alignment are not checked. -/
def validatePredictionRequirementAgainstPlan (edge : EdgeSpec)
    (cache : Option BundlePredictionCacheRecord) : Result Unit :=
  if !edge.contract.requiresFoldAlignment then .ok ()
  else if plan.isConcatMergeConsumer requirement.consumerNode then
    self.validateConcatMergeBranchInputRequirement plan requirement cache
  else self.validateFullFoldRequirement plan requirement cache

-- ---------------------------------------------------------------------------
-- The inputs of one concat merge
-- ---------------------------------------------------------------------------

/-- The keys of the edges that a concat merge has to be supplied through. -/
def expectedKeys (consumerNode : NodeId) : Finset String :=
  ((plan.graphPlan.graph.edges.filter fun edge => edge.target.nodeId = consumerNode &&
    edge.contract.requiresOof && edge.contract.requiresFoldAlignment).map
    (·.requirementKey)).toFinset

/-- The samples that the blocks of the group cover in each fold so far. -/
def coverGroupBlock (consumerNode : NodeId) (covered : BTreeMap FoldId (Finset SampleId))
    (block : BundlePredictionBlockCacheRecord) : Result (BTreeMap FoldId (Finset SampleId)) :=
  match block.foldId with
  | none => .ok covered
  | some foldId => do
    let samples ← insertUnique (fun s => .runtimeValidation
      s!"bundle `{self.bundleId}` concat-merge node `{consumerNode}` has overlapping branch predictions in fold `{foldId}`: sample `{s}` is covered by more than one partition")
      (covered.getD foldId ∅) block.sampleIds
    pure (covered.insert foldId samples)

def checkGroupFold (consumerNode : NodeId) (covered : BTreeMap FoldId (Finset SampleId))
    (fold : FoldAssignment) : Result (BTreeMap FoldId (Finset SampleId)) := do
  refuseIf (covered.getD fold.foldId ∅ ≠ fold.validationSampleIds.toFinset) (.runtimeValidation
    s!"bundle `{self.bundleId}` concat-merge node `{consumerNode}` branch inputs do not cover fold `{fold.foldId}` validation set (each sample exactly once)")
  pure (covered.erase fold.foldId)

/-- The caches of a group, each fold's validation samples exactly once. -/
def validateGroupCaches (consumerNode : NodeId) (foldSet : FoldSet)
    (caches : List BundlePredictionCacheRecord) : Result Unit := do
  let covered ← loop (self.coverGroupBlock consumerNode) ∅ (caches.flatMap (·.blocks))
  let _ ← loop (self.checkGroupFold consumerNode) covered foldSet.folds

def validateConcatMergeRequirementGroup (consumerNode : NodeId)
    (requirements : List BundlePredictionRequirement)
    (caches : BTreeMap String BundlePredictionCacheRecord) : Result Unit := do
  let foldSet ← plan.requireFoldSet s!"bundle `{self.bundleId}` concat-merge node `{consumerNode}`"
  let expectedKeys := expectedKeys plan consumerNode
  let suppliedKeys := (requirements.map (·.key)).toFinset
  let missing := ", ".intercalate (ascending (expectedKeys \ suppliedKeys))
  let extra := ", ".intercalate (ascending (suppliedKeys \ expectedKeys))
  refuseIf (suppliedKeys ≠ expectedKeys) (.runtimeValidation
    s!"bundle `{self.bundleId}` concat-merge node `{consumerNode}` branch inputs do not match the plan's incoming OOF edges (missing: [{missing}]; extra: [{extra}])")
  let coveredUniverse ← insertUnique (fun s => .runtimeValidation
    s!"bundle `{self.bundleId}` concat-merge node `{consumerNode}` received overlapping branch predictions: sample `{s}` is covered by more than one partition")
    ∅ (requirements.flatMap (·.sampleIds))
  refuseIf (coveredUniverse ≠ expectedOofSampleIds foldSet) (.runtimeValidation
    s!"bundle `{self.bundleId}` concat-merge node `{consumerNode}` branch inputs do not cover the full fold set sample universe (each sample exactly once)")
  let cached := requirements.filterMap fun requirement => caches[requirement.key]?
  refuseIf (cached.length ≠ 0 ∧ cached.length ≠ requirements.length) (.runtimeValidation
    s!"bundle `{self.bundleId}` concat-merge node `{consumerNode}` has partial prediction-cache coverage ({cached.length} of {requirements.length} branch inputs cached): all branch inputs must carry a per-fold OOF cache or none")
  checkIf (cached.length = requirements.length) (self.validateGroupCaches consumerNode foldSet cached)

-- ---------------------------------------------------------------------------
-- The whole bundle
-- ---------------------------------------------------------------------------

/-- The OOF edge of a requirement. -/
def findOofEdge (requirement : BundlePredictionRequirement) : Option EdgeSpec :=
  plan.graphPlan.graph.edges.find? fun edge =>
    edge.source.nodeId = requirement.producerNode && edge.source.portName = requirement.sourcePort &&
      edge.target.nodeId = requirement.consumerNode &&
      edge.target.portName = requirement.targetPort && edge.contract.requiresOof

def checkRequirementAgainstPlan (requirement : BundlePredictionRequirement) : Result Unit := do
  let edge ← need (findOofEdge plan requirement) (.runtimeValidation
    s!"bundle `{self.bundleId}` prediction requirement `{requirement.key}` does not match an OOF edge in the plan")
  self.validatePredictionRequirementAgainstPlan plan requirement edge
    (self.predictionCaches.find? (·.requirementKey = requirement.key))

/-- `opening` is everything a bundle is held against before its prediction
requirements: fingerprints, the selected variant, selections, HPO states, data
requirements and refit artifacts. -/
def validateAgainstPlan (checks : SectionChecks Sections) (planChecks : PlanChecks)
    (opening : ExecutionBundle Sections → ExecutionPlan → Result Unit) : Result Unit := do
  self.validate checks
  plan.validate planChecks
  refuseIf (self.planId ≠ plan.id) (.runtimeValidation
    s!"bundle `{self.bundleId}` plan_id `{self.planId}` does not match plan `{plan.id}`")
  opening self plan
  each self.predictionRequirements (self.checkRequirementAgainstPlan plan)
  let cacheByKey := BTreeMap.collect (self.predictionCaches.map fun cache =>
    (cache.requirementKey, cache))
  let groups := BTreeMap.groupBy (·.consumerNode) (self.predictionRequirements.filter fun r =>
    plan.isConcatMergeConsumer r.consumerNode)
  each groups.toList fun group =>
    self.validateConcatMergeRequirementGroup plan group.1 group.2 cacheByKey

-- ---------------------------------------------------------------------------
-- Requirements and edges
-- ---------------------------------------------------------------------------

end ExecutionBundle

/-- The requirement of an edge. -/
def BundlePredictionRequirement.OnEdge (self : BundlePredictionRequirement) (edge : EdgeSpec) :
    Prop :=
  edge.source = ⟨self.producerNode, self.sourcePort⟩ ∧
    edge.target = ⟨self.consumerNode, self.targetPort⟩

/-- An edge that asks for out-of-fold predictions, fold by fold. -/
def EdgeSpec.FoldAligned (edge : EdgeSpec) : Prop :=
  edge.contract.requiresOof = true ∧ edge.contract.requiresFoldAlignment = true

/-- The fold and sample of every cached row. -/
def BundlePredictionCacheRecord.foldSamples (self : BundlePredictionCacheRecord) :
    List (Option FoldId × SampleId) :=
  self.blocks.flatMap (·.foldSamples)

/-- The rows are the validation samples of the folds, each once. -/
def OutOfFoldOnce (foldSet : FoldSet) (rows : List (Option FoldId × SampleId)) : Prop :=
  rows.Nodup ∧ ∀ foldId s, (foldId, s) ∈ rows ↔
    ∃ fold ∈ foldSet.folds, foldId = some fold.foldId ∧ s ∈ fold.validationSampleIds

namespace ExecutionBundle

variable {Sections : Type} {bundle : ExecutionBundle Sections} {plan : ExecutionPlan}
  {r : BundlePredictionRequirement} {cache : BundlePredictionCacheRecord} {foldSet : FoldSet}

theorem findOofEdge_ok (h : findOofEdge plan r = some edge) :
    edge ∈ plan.graphPlan.graph.edges ∧ r.OnEdge edge ∧ edge.contract.requiresOof = true := by
  have hedge := List.find?_some h
  simp only [Bool.and_eq_true, decide_eq_true_eq] at hedge
  obtain ⟨⟨⟨⟨hnode, hport⟩, htarget⟩, htargetPort⟩, hoof⟩ := hedge
  refine ⟨List.mem_of_find?_eq_some h, ⟨?_, ?_⟩, hoof⟩
  · rw [← hnode, ← hport]
  · rw [← htarget, ← htargetPort]

/-- The edges of an accepted graph differ in their ends. -/
theorem edge_unique (hgraph : plan.graphPlan.graph.Wellformed) (h₁ : r.OnEdge e₁)
    (h₂ : r.OnEdge e₂) (hmem₁ : e₁ ∈ plan.graphPlan.graph.edges)
    (hmem₂ : e₂ ∈ plan.graphPlan.graph.edges) : e₁ = e₂ := by
  have hn : (plan.graphPlan.graph.edges.map fun e => (e.source, e.target)).Nodup := by
    rw [List.Nodup, List.pairwise_map]
    exact hgraph.edges_compatible.imp fun h => h.key
  refine List.inj_on_of_nodup_map hn hmem₁ hmem₂ ?_
  rw [h₁.1, h₁.2, h₂.1, h₂.2]

theorem requirementKey_of_onEdge (h : r.OnEdge edge) : edge.requirementKey = r.key := by
  rw [EdgeSpec.requirementKey, h.1, h.2]
  rfl

theorem foldOfBlock_ok (hv : foldSet.Valid) :
    bundle.foldOfBlock cache foldSet.foldsById block = .ok fold ↔
      fold ∈ foldSet.folds ∧ block.foldId = some fold.foldId := by
  simp only [foldOfBlock, bind_ok, need_ok, hv.foldsById_get]
  constructor
  · rintro ⟨_, hblock, hfold, rfl⟩
    exact ⟨hfold, hblock⟩
  · rintro ⟨hfold, hblock⟩
    exact ⟨_, hblock, hfold, rfl⟩

-- ---------------------------------------------------------------------------
-- A cache of the whole fold set
-- ---------------------------------------------------------------------------

/-- A block of a fold lists the fold's validation samples. -/
def FillsItsFold (foldSet : FoldSet) (block : BundlePredictionBlockCacheRecord) : Prop :=
  ∃ fold ∈ foldSet.folds, block.foldId = some fold.foldId ∧
    block.sampleIds.toFinset = fold.validationSampleIds.toFinset

theorem coverCacheBlock_ok (hv : foldSet.Valid)
    (h : bundle.coverCacheBlock r cache foldSet covered block = .ok covered') :
    ∃ fold ∈ foldSet.folds, block.foldId = some fold.foldId ∧
      block.sampleIds.toFinset = fold.validationSampleIds.toFinset ∧
      covered'.1 = insert fold.foldId covered.1 := by
  simp only [coverCacheBlock, bind_ok, foldOfBlock_ok hv, refuseIf_ok, not_not, pure_ok] at h
  obtain ⟨fold, ⟨hfold, hblock⟩, _, hsamples, _, -, rfl⟩ := h
  exact ⟨fold, hfold, hblock, hsamples, rfl⟩

/-- Every block fills its fold, and every fold has a block. -/
theorem validatePredictionCacheBlocksMatchFoldSet_ok (hv : foldSet.Valid)
    (h : bundle.validatePredictionCacheBlocksMatchFoldSet r cache foldSet = .ok u) :
    (∀ block ∈ cache.blocks, FillsItsFold foldSet block) ∧
      ∀ fold ∈ foldSet.folds, ∃ block ∈ cache.blocks, block.foldId = some fold.foldId := by
  simp only [validatePredictionCacheBlocksMatchFoldSet, bind_ok, refuseIf_ok, not_not] at h
  obtain ⟨covered, hloop, _, hfolds, -⟩ := h
  constructor
  · refine loop_forall (fun _ block _ hstep => ?_) hloop
    obtain ⟨fold, hfold, hblock, hsamples, -⟩ := coverCacheBlock_ok hv hstep
    exact ⟨fold, hfold, hblock, hsamples⟩
  · intro fold hfold
    have hcovered := loop_invariant (fun done (covered : Finset FoldId × Finset SampleId) =>
      ∀ foldId ∈ covered.1, ∃ block ∈ done, block.foldId = some foldId) (by simp) ?_ hloop
    · refine hcovered fold.foldId ?_
      rw [hfolds, List.mem_toFinset]
      exact List.mem_map_of_mem hfold
    · intro done block covered covered' hdone hstep foldId hmem
      obtain ⟨fold, -, hblock, -, hinsert⟩ := coverCacheBlock_ok hv hstep
      rw [hinsert, Finset.mem_insert] at hmem
      rcases hmem with rfl | hmem
      · exact ⟨block, by simp, hblock⟩
      · obtain ⟨other, hother, hfoldId⟩ := hdone foldId hmem
        exact ⟨other, by simp [hother], hfoldId⟩

theorem mem_foldSamples {cache : BundlePredictionCacheRecord} :
    (foldId, s) ∈ cache.foldSamples ↔
      ∃ block ∈ cache.blocks, block.foldId = foldId ∧ s ∈ block.sampleIds := by
  simp only [BundlePredictionCacheRecord.foldSamples, BundlePredictionBlockCacheRecord.foldSamples,
    List.mem_flatMap, List.mem_map, Prod.mk.injEq]
  constructor
  · rintro ⟨block, hblock, _, hs, hfold, rfl⟩
    exact ⟨block, hblock, hfold, hs⟩
  · rintro ⟨block, hblock, hfold, hs⟩
    exact ⟨block, hblock, s, hs, hfold, rfl⟩

theorem outOfFoldOnce_of_fills (hnodup : cache.foldSamples.Nodup)
    (hfills : ∀ block ∈ cache.blocks, FillsItsFold foldSet block)
    (hall : ∀ fold ∈ foldSet.folds, ∃ block ∈ cache.blocks, block.foldId = some fold.foldId)
    (hv : foldSet.Valid) : OutOfFoldOnce foldSet cache.foldSamples := by
  refine ⟨hnodup, fun foldId s => ?_⟩
  rw [mem_foldSamples]
  constructor
  · rintro ⟨block, hblock, rfl, hs⟩
    obtain ⟨fold, hfold, hid, hsamples⟩ := hfills block hblock
    refine ⟨fold, hfold, hid, ?_⟩
    rwa [← List.mem_toFinset, ← hsamples, List.mem_toFinset]
  · rintro ⟨fold, hfold, rfl, hs⟩
    obtain ⟨block, hblock, hid⟩ := hall fold hfold
    obtain ⟨other, hother, hotherId, hsamples⟩ := hfills block hblock
    have hsame : fold = other := by
      refine List.inj_on_of_nodup_map hv.foldIds_nodup hfold hother ?_
      exact Option.some.inj (hid.symm.trans hotherId)
    subst hsame
    refine ⟨block, hblock, hid, ?_⟩
    rwa [← List.mem_toFinset, hsamples, List.mem_toFinset]

-- ---------------------------------------------------------------------------
-- The inputs of a concat merge
-- ---------------------------------------------------------------------------

theorem getD_insert {m : BTreeMap FoldId (Finset SampleId)} :
    (m.insert f samples).getD g ∅ = if f = g then samples else m.getD g ∅ := by
  rw [Std.ExtTreeMap.getD_insert]
  simp only [Std.LawfulEqCmp.compare_eq_iff_eq]

theorem getD_erase {m : BTreeMap FoldId (Finset SampleId)} :
    (m.erase f).getD g ∅ = if f = g then ∅ else m.getD g ∅ := by
  rw [Std.ExtTreeMap.getD_erase]
  simp only [Std.LawfulEqCmp.compare_eq_iff_eq]

/-- With every block in a fold, the map holds the rows of the blocks by fold,
and no row comes twice. -/
theorem coverGroupBlock_loop {blocks : List BundlePredictionBlockCacheRecord}
    (hnamed : ∀ block ∈ blocks, block.foldId ≠ none)
    (h : loop (bundle.coverGroupBlock consumerNode) ∅ blocks = .ok covered) :
    (blocks.flatMap (·.foldSamples)).Nodup ∧ ∀ foldId s,
      s ∈ covered.getD foldId ∅ ↔ (some foldId, s) ∈ blocks.flatMap (·.foldSamples) := by
  revert hnamed
  refine loop_invariant (fun done (covered : BTreeMap FoldId (Finset SampleId)) =>
    (∀ block ∈ done, block.foldId ≠ none) → (done.flatMap (·.foldSamples)).Nodup ∧ ∀ foldId s,
      s ∈ covered.getD foldId ∅ ↔ (some foldId, s) ∈ done.flatMap (·.foldSamples)) (by simp) ?_ h
  intro done block covered covered' hdone hstep hnamed
  rw [List.forall_mem_append] at hnamed
  obtain ⟨hnodup, htracks⟩ := hdone hnamed.1
  obtain ⟨foldId, hfold⟩ := Option.ne_none_iff_exists'.mp (hnamed.2 block (by simp))
  simp only [coverGroupBlock, hfold, bind_ok, insertUnique_ok, pure_ok] at hstep
  obtain ⟨_, ⟨hblock, hfresh, rfl⟩, rfl⟩ := hstep
  have hrows : block.foldSamples = block.sampleIds.map (some foldId, ·) := by
    rw [BundlePredictionBlockCacheRecord.foldSamples, hfold]
  simp only [List.flatMap_append, List.flatMap_cons, List.flatMap_nil, List.append_nil, hrows]
  constructor
  · rw [List.nodup_append']
    refine ⟨hnodup, hblock.map (Prod.mk_right_injective _), ?_⟩
    rintro ⟨_, s⟩ hs hs'
    simp only [List.mem_map, Prod.mk.injEq] at hs'
    obtain ⟨_, hmem, rfl, rfl⟩ := hs'
    exact hfresh _ hmem ((htracks foldId _).mpr hs)
  · intro other s
    rw [getD_insert]
    by_cases hother : foldId = other
    · subst hother
      simp [htracks]
    · simp [htracks, hother]

theorem checkGroupFold_loop {folds : List FoldAssignment}
    {covered : BTreeMap FoldId (Finset SampleId)} (hn : (folds.map (·.foldId)).Nodup)
    (h : loop (bundle.checkGroupFold consumerNode) covered folds = .ok covered') :
    ∀ fold ∈ folds, covered.getD fold.foldId ∅ = fold.validationSampleIds.toFinset := by
  induction folds generalizing covered with
  | nil => simp
  | cons fold rest ih =>
    obtain ⟨_, hfold, hrest⟩ := loop_cons.mp h
    simp only [checkGroupFold, bind_ok, refuseIf_ok, not_not, pure_ok] at hfold
    obtain ⟨_, hfold, rfl⟩ := hfold
    rw [List.map_cons, List.nodup_cons] at hn
    rw [List.forall_mem_cons]
    refine ⟨hfold, fun other hother => ?_⟩
    have hne : fold.foldId ≠ other.foldId := fun he =>
      hn.1 (he ▸ List.mem_map_of_mem hother)
    have hrest := ih hn.2 hrest other hother
    rwa [getD_erase, if_neg hne] at hrest

/-- The caches of a group whose blocks all stand in a fold of the set. -/
theorem validateGroupCaches_ok {caches : List BundlePredictionCacheRecord} (hv : foldSet.Valid)
    (hinFold : ∀ cache ∈ caches, ∀ block ∈ cache.blocks, ∃ fold ∈ foldSet.folds,
      block.foldId = some fold.foldId)
    (h : bundle.validateGroupCaches consumerNode foldSet caches = .ok u) :
    OutOfFoldOnce foldSet (caches.flatMap (·.foldSamples)) := by
  simp only [validateGroupCaches, bind_ok] at h
  obtain ⟨covered, hcover, _, hfolds, -⟩ := h
  have hrows : caches.flatMap (·.foldSamples) =
      (caches.flatMap (·.blocks)).flatMap (·.foldSamples) := by
    rw [List.flatMap_assoc]
    rfl
  have hnamed (block : BundlePredictionBlockCacheRecord) (hblock : block ∈ caches.flatMap (·.blocks)) :
      ∃ fold ∈ foldSet.folds, block.foldId = some fold.foldId := by
    obtain ⟨cache, hcache, hblock⟩ := List.mem_flatMap.mp hblock
    exact hinFold cache hcache block hblock
  obtain ⟨hnodup, htracks⟩ := coverGroupBlock_loop (fun block hblock hnone => by
    obtain ⟨fold, -, hfold⟩ := hnamed block hblock
    rw [hnone] at hfold
    cases hfold) hcover
  have hfolds := checkGroupFold_loop hv.foldIds_nodup hfolds
  rw [hrows]
  refine ⟨hnodup, fun foldId s => ?_⟩
  constructor
  · intro hmem
    obtain ⟨block, hblock, hin⟩ := List.mem_flatMap.mp hmem
    obtain ⟨fold, hfold, hid⟩ := hnamed block hblock
    have hfoldId : foldId = some fold.foldId := by
      obtain ⟨_, -, heq⟩ := List.mem_map.mp hin
      rw [← hid, ← (Prod.mk.inj heq).1]
    subst hfoldId
    refine ⟨fold, hfold, rfl, ?_⟩
    rwa [← List.mem_toFinset, ← hfolds fold hfold, htracks]
  · rintro ⟨fold, hfold, rfl, hs⟩
    rwa [← htracks, hfolds fold hfold, List.mem_toFinset]

-- ---------------------------------------------------------------------------
-- An accepted bundle
-- ---------------------------------------------------------------------------

/-- The cache record of a requirement. -/
def cacheOf (bundle : ExecutionBundle Sections) (r : BundlePredictionRequirement) :
    Option BundlePredictionCacheRecord :=
  bundle.predictionCaches.find? (·.requirementKey = r.key)

/-- The requirements of one consumer. -/
def inputsOf (bundle : ExecutionBundle Sections) (consumerNode : NodeId) :
    List BundlePredictionRequirement :=
  bundle.predictionRequirements.filter (·.consumerNode = consumerNode)

/-- The out-of-fold edges into a node have requirement keys of their own. -/
def KeysDiffer (plan : ExecutionPlan) (consumerNode : NodeId) : Prop :=
  ∀ e₁ ∈ plan.graphPlan.graph.edges, ∀ e₂ ∈ plan.graphPlan.graph.edges,
    e₁.target.nodeId = consumerNode → e₂.target.nodeId = consumerNode →
    e₁.contract.requiresOof = true → e₂.contract.requiresOof = true →
    e₁.requirementKey = e₂.requirementKey → e₁ = e₂

/-- What `validateAgainstPlan` has checked of the requirements and caches. -/
structure Accepted (bundle : ExecutionBundle Sections) (plan : ExecutionPlan) : Prop where
  contracts : bundle.Contracts
  graph : plan.graphPlan.graph.Wellformed
  folds : ∀ foldSet, plan.foldSet = some foldSet → foldSet.Valid
  requirements : ∀ r ∈ bundle.predictionRequirements,
    bundle.checkRequirementAgainstPlan plan r = .ok ()
  groups : ∀ r ∈ bundle.predictionRequirements, plan.isConcatMergeConsumer r.consumerNode = true →
    bundle.validateConcatMergeRequirementGroup plan r.consumerNode (bundle.inputsOf r.consumerNode)
      (.collect (bundle.predictionCaches.map fun cache => (cache.requirementKey, cache))) = .ok ()

theorem validateAgainstPlan_accepted {checks : SectionChecks Sections} {planChecks : PlanChecks}
    {opening : ExecutionBundle Sections → ExecutionPlan → Result Unit}
    (h : bundle.validateAgainstPlan plan checks planChecks opening = .ok u) :
    bundle.Accepted plan := by
  simp only [validateAgainstPlan, bind_ok, each_ok] at h
  obtain ⟨_, hbundle, _, hplan, _, -, _, -, _, hrequirements, hgroups⟩ := h
  simp only [ExecutionPlan.validate, bind_ok, whenSome_ok] at hplan
  obtain ⟨_, hgraph, _, -, _, hfolds, -⟩ := hplan
  constructor
  case contracts => exact validate_contracts hbundle
  case graph => exact (GraphSpec.validate_ok.mp hgraph).1
  case folds => exact fun foldSet hfoldSet => FoldSet.validate_ok.mp (hfolds foldSet hfoldSet)
  case requirements => exact hrequirements
  case groups =>
    intro r hr hconcat
    refine hgroups (r.consumerNode, bundle.inputsOf r.consumerNode) ?_
    have hinputs : (bundle.predictionRequirements.filter fun r =>
        plan.isConcatMergeConsumer r.consumerNode).filter (·.consumerNode = r.consumerNode) =
          bundle.inputsOf r.consumerNode := by
      rw [List.filter_filter, inputsOf]
      refine List.filter_congr fun other _ => ?_
      by_cases hother : other.consumerNode = r.consumerNode
      · simp [hother, hconcat]
      · simp [hother]
    rw [BTreeMap.mem_toList, BTreeMap.getElem?_groupBy, hinputs, if_neg]
    exact List.ne_nil_of_mem (List.mem_filter.mpr ⟨hr, by simp⟩)

theorem cacheOf_ok (h : bundle.Contracts) (hr : r ∈ bundle.predictionRequirements)
    (hcache : bundle.cacheOf r = some cache) :
    cache.Valid ∧ cache.predictionLevel = r.predictionLevel := by
  have hmem := List.mem_of_find?_eq_some hcache
  have hkey : cache.requirementKey = r.key := by simpa using List.find?_some hcache
  obtain ⟨other, hother, hmatch⟩ := h.matched cache hmem
  simp only [validatePredictionCacheMatchesRequirement, refuseIf_ok, not_or, not_not] at hmatch
  obtain ⟨hotherKey, -, hlevel, -⟩ := hmatch
  have hsame : other = r :=
    List.inj_on_of_nodup_map h.keys_nodup hother hr (hotherKey.symm.trans hkey)
  exact ⟨BundlePredictionCacheRecord.validate_ok.mp (h.records cache hmem), hsame ▸ hlevel⟩

theorem cacheByKey_get (h : bundle.Contracts) :
    (BTreeMap.collect (bundle.predictionCaches.map fun cache =>
      (cache.requirementKey, cache)))[r.key]? = bundle.cacheOf r :=
  (BTreeMap.indexOf_collect h.cacheKeys_nodup).getElem?_eq_find?

namespace Accepted

/-- A requirement of an ordinary consumer. -/
theorem outOfFold (h : bundle.Accepted plan) (hr : r ∈ bundle.predictionRequirements)
    (hcache : bundle.cacheOf r = some cache) (hlevel : r.predictionLevel = .sample)
    (hconsumer : plan.isConcatMergeConsumer r.consumerNode = false)
    (hmem : edge ∈ plan.graphPlan.graph.edges) (hedge : r.OnEdge edge) (haligned : edge.FoldAligned) :
    ∃ foldSet, plan.foldSet = some foldSet ∧ OutOfFoldOnce foldSet cache.foldSamples := by
  have hcheck := h.requirements r hr
  simp only [checkRequirementAgainstPlan, bind_ok, need_ok] at hcheck
  obtain ⟨found, hfound, hcheck⟩ := hcheck
  obtain ⟨hfoundMem, hfoundEdge, -⟩ := findOofEdge_ok hfound
  have hsame := edge_unique h.graph hfoundEdge hedge hfoundMem hmem
  subst hsame
  rw [validatePredictionRequirementAgainstPlan, if_neg (by simp [haligned.2]),
    if_neg (by simp [hconsumer])] at hcheck
  have hcache' : bundle.predictionCaches.find? (·.requirementKey = r.key) = some cache := hcache
  simp only [validateFullFoldRequirement, bind_ok, ExecutionPlan.requireFoldSet, need_ok, hlevel,
    ne_eq, not_true_eq_false, if_false, hcache', whenSome] at hcheck
  obtain ⟨foldSet, hfoldSet, _, -, _, -, hblocks⟩ := hcheck
  have hv := h.folds foldSet hfoldSet
  obtain ⟨hfills, hall⟩ := validatePredictionCacheBlocksMatchFoldSet_ok hv hblocks
  obtain ⟨hvalid, hcacheLevel⟩ := cacheOf_ok h.contracts hr hcache
  have hnodup := hvalid.covers.samples_nodup (hcacheLevel.trans hlevel)
  exact ⟨foldSet, hfoldSet, outOfFoldOnce_of_fills hnodup hfills hall hv⟩

/-- With keys of their own, every input of a concat merge is on a fold-aligned
edge, and every such edge has its input. -/
theorem input_edges (h : bundle.Accepted plan) (hr : r ∈ bundle.predictionRequirements)
    (hconsumer : plan.isConcatMergeConsumer r.consumerNode = true)
    (hkeys : KeysDiffer plan r.consumerNode) :
    (∀ r' ∈ bundle.inputsOf r.consumerNode, ∃ edge ∈ plan.graphPlan.graph.edges,
      findOofEdge plan r' = some edge ∧ r'.OnEdge edge ∧ edge.FoldAligned) ∧
    ∀ edge ∈ plan.graphPlan.graph.edges, edge.target.nodeId = r.consumerNode → edge.FoldAligned →
      ∃ r' ∈ bundle.inputsOf r.consumerNode, r'.OnEdge edge := by
  have hgroup := h.groups r hr hconsumer
  simp only [validateConcatMergeRequirementGroup, bind_ok, refuseIf_ok, not_not] at hgroup
  obtain ⟨_, -, _, hsupplied, -⟩ := hgroup
  have hfound (r' : BundlePredictionRequirement) (hr' : r' ∈ bundle.inputsOf r.consumerNode) :
      ∃ edge ∈ plan.graphPlan.graph.edges, findOofEdge plan r' = some edge ∧ r'.OnEdge edge ∧
        edge.contract.requiresOof = true ∧ edge.target.nodeId = r.consumerNode := by
    obtain ⟨hmem, hconsumerNode⟩ := List.mem_filter.mp hr'
    have hcheck := h.requirements r' hmem
    simp only [checkRequirementAgainstPlan, bind_ok, need_ok] at hcheck
    obtain ⟨edge, hedge, -⟩ := hcheck
    obtain ⟨hedgeMem, hon, hoof⟩ := findOofEdge_ok hedge
    refine ⟨edge, hedgeMem, hedge, hon, hoof, ?_⟩
    rw [hon.2]
    simpa using hconsumerNode
  have hexpected (key : String) : key ∈ expectedKeys plan r.consumerNode ↔
      ∃ edge ∈ plan.graphPlan.graph.edges, edge.target.nodeId = r.consumerNode ∧
        edge.FoldAligned ∧ edge.requirementKey = key := by
    simp only [expectedKeys, List.mem_toFinset, List.mem_map, List.mem_filter, Bool.and_eq_true,
      decide_eq_true_eq, EdgeSpec.FoldAligned]
    constructor
    · rintro ⟨edge, ⟨hmem, ⟨htarget, hoof⟩, haligned⟩, rfl⟩
      exact ⟨edge, hmem, htarget, ⟨hoof, haligned⟩, rfl⟩
    · rintro ⟨edge, hmem, htarget, ⟨hoof, haligned⟩, rfl⟩
      exact ⟨edge, ⟨hmem, ⟨htarget, hoof⟩, haligned⟩, rfl⟩
  constructor
  · intro r' hr'
    obtain ⟨edge, hmem, hedge, hon, hoof, htarget⟩ := hfound r' hr'
    have hkey : r'.key ∈ expectedKeys plan r.consumerNode := by
      rw [← hsupplied, List.mem_toFinset]
      exact List.mem_map_of_mem hr'
    obtain ⟨other, hother, hotherTarget, haligned, hotherKey⟩ := (hexpected _).mp hkey
    have hsame : other = edge := hkeys other hother edge hmem hotherTarget htarget haligned.1 hoof
      (hotherKey.trans (requirementKey_of_onEdge hon).symm)
    exact ⟨edge, hmem, hedge, hon, hsame ▸ haligned⟩
  · intro edge hmem htarget haligned
    have hkey : edge.requirementKey ∈ expectedKeys plan r.consumerNode :=
      (hexpected _).mpr ⟨edge, hmem, htarget, haligned, rfl⟩
    rw [← hsupplied, List.mem_toFinset, List.mem_map] at hkey
    obtain ⟨r', hr', hsameKey⟩ := hkey
    obtain ⟨other, hother, -, hon, hoof, hotherTarget⟩ := hfound r' hr'
    have hsame : edge = other := hkeys edge hmem other hother htarget hotherTarget haligned.1 hoof
      (hsameKey.symm.trans (requirementKey_of_onEdge hon).symm)
    exact ⟨r', hr', hsame ▸ hon⟩

/-- The blocks of an input's cache stand in folds of the plan. -/
theorem input_inFold (h : bundle.Accepted plan) (hr : r ∈ bundle.predictionRequirements)
    (hconsumer : plan.isConcatMergeConsumer r.consumerNode = true)
    (hfound : findOofEdge plan r = some edge) (haligned : edge.FoldAligned)
    (hcache : bundle.cacheOf r = some cache) (hfoldSet : plan.foldSet = some foldSet) :
    ∀ block ∈ cache.blocks, ∃ fold ∈ foldSet.folds, block.foldId = some fold.foldId := by
  have hcheck := h.requirements r hr
  have hcache' : bundle.predictionCaches.find? (·.requirementKey = r.key) = some cache := hcache
  simp only [checkRequirementAgainstPlan, hfound, need, bind_ok, Except.ok.injEq,
    exists_eq_left', hcache'] at hcheck
  rw [validatePredictionRequirementAgainstPlan, if_neg (by simp [haligned.2]),
    if_pos hconsumer] at hcheck
  simp only [validateConcatMergeBranchInputRequirement, bind_ok, ExecutionPlan.requireFoldSet,
    need_ok, hfoldSet, Option.some.injEq, exists_eq_left', whenSome, each_ok] at hcheck
  obtain ⟨_, -, _, -, _, -, hblocks⟩ := hcheck
  intro block hblock
  have hbranch := hblocks block hblock
  simp only [checkBranchBlock, bind_ok, foldOfBlock_ok (h.folds foldSet hfoldSet)] at hbranch
  obtain ⟨fold, ⟨hfold, hid⟩, -⟩ := hbranch
  exact ⟨fold, hfold, hid⟩

/-- The inputs of a concat merge, taken together. -/
theorem group_outOfFold (h : bundle.Accepted plan) (hr : r ∈ bundle.predictionRequirements)
    (hcache : bundle.cacheOf r = some cache)
    (hconsumer : plan.isConcatMergeConsumer r.consumerNode = true)
    (hkeys : KeysDiffer plan r.consumerNode) :
    ∃ foldSet, plan.foldSet = some foldSet ∧
      (∀ r' ∈ bundle.inputsOf r.consumerNode, (bundle.cacheOf r').isSome = true) ∧
      OutOfFoldOnce foldSet
        (((bundle.inputsOf r.consumerNode).filterMap bundle.cacheOf).flatMap (·.foldSamples)) := by
  have hgroup := h.groups r hr hconsumer
  simp only [validateConcatMergeRequirementGroup, bind_ok, refuseIf_ok, checkIf_ok,
    ExecutionPlan.requireFoldSet, need_ok, cacheByKey_get h.contracts] at hgroup
  obtain ⟨foldSet, hfoldSet, _, -, _, -, _, -, _, hcached, hcaches⟩ := hgroup
  have hinputs : r ∈ bundle.inputsOf r.consumerNode := List.mem_filter.mpr ⟨hr, by simp⟩
  have hne : ((bundle.inputsOf r.consumerNode).filterMap bundle.cacheOf).length ≠ 0 := by
    rw [Ne, List.length_eq_zero_iff]
    exact List.ne_nil_of_mem (List.mem_filterMap.mpr ⟨r, hinputs, hcache⟩)
  have hall : ((bundle.inputsOf r.consumerNode).filterMap bundle.cacheOf).length =
      (bundle.inputsOf r.consumerNode).length := by
    by_contra hpartial
    exact hcached ⟨hne, hpartial⟩
  refine ⟨foldSet, hfoldSet, List.filterMap_length_eq_length.mp hall, ?_⟩
  refine validateGroupCaches_ok (h.folds foldSet hfoldSet) ?_ (hcaches hall)
  intro other hother
  obtain ⟨r', hr', hcache'⟩ := List.mem_filterMap.mp hother
  obtain ⟨hmem', hconsumer'⟩ := List.mem_filter.mp hr'
  have hsame : r'.consumerNode = r.consumerNode := by simpa using hconsumer'
  obtain ⟨edge, -, hfound, -, haligned⟩ := (h.input_edges hr hconsumer hkeys).1 r' hr'
  exact h.input_inFold hmem' (hsame ▸ hconsumer) hfound haligned hcache' hfoldSet

end Accepted

end ExecutionBundle

def mergeFold : FoldId := ⟨"fold:merged", by decide⟩
def mergeSample : SampleId := ⟨"merged:1", by decide⟩
def mergeNode : NodeId := ⟨"merge:concat", by decide⟩
def branchNode : NodeId := ⟨"branch:a.b", by decide⟩
def branchTwin : NodeId := ⟨"branch:a", by decide⟩
def branchLoose : NodeId := ⟨"branch:loose", by decide⟩

def mergeFolds : FoldSet where
  id := "merged"
  sampleIds := [mergeSample]
  folds := [⟨mergeFold, [], [mergeSample], ∅⟩]
  sampleGroups := ∅
  partitionMode := .partition
  trainExclusion := .relations
  targetMissingSampleIds := []

def mergeEdge (source : PortRef) (portName : String) (aligned : Bool) : EdgeSpec where
  source
  target := ⟨mergeNode, portName⟩
  contract := { EdgeContract.new .prediction none with
    requiresOof := true
    requiresFoldAlignment := aligned }

def branchEdge : EdgeSpec := mergeEdge ⟨branchNode, "c"⟩ "x" true

/-- Another fold-aligned edge, with the requirement key of the first. -/
def twinEdge : EdgeSpec := mergeEdge ⟨branchTwin, "b.c"⟩ "x" true

/-- An edge that asks for out-of-fold predictions only. -/
def looseEdge : EdgeSpec := mergeEdge ⟨branchLoose, "oof"⟩ "y" false

def mergeNodePlan (nodeId : NodeId) (kind : NodeKind) (inputNodes : List NodeId) : NodePlan where
  nodeId
  kind
  controllerId := ⟨"controller:merged", by decide⟩
  controllerVersion := "1"
  supportedPhases := {.fitCv}
  trainingLosses := []
  inputNodes
  shapePlan := none
  dataBindings := []
  innerCv := none
  paramsFingerprint := ""

def mergePlan (edges : List EdgeSpec) : ExecutionPlan :=
  let port (name : String) : PortSpec := ⟨name, .prediction, none, .many, none, none, none⟩
  { id := "plan:merged"
    graphPlan := {
      graph := {
        id := "graph:merged"
        interface := ⟨[], []⟩
        nodes := [
          ⟨branchNode, .model, none, ⟨[], [port "c"]⟩, ∅⟩,
          ⟨branchTwin, .model, none, ⟨[], [port "b.c"]⟩, ∅⟩,
          ⟨branchLoose, .model, none, ⟨[], [port "oof"]⟩, ∅⟩,
          ⟨mergeNode, .predictionJoin, none, ⟨[port "x", port "y"], []⟩,
            .collect [("merge_mode", .string "concat")]⟩]
        edges
        searchSpaceFingerprint := none
        metadata := ∅ }
      storedLevels := [] }
    campaign := ⟨some ⟨some mergeFolds⟩, none⟩
    nodePlans := .collect [
      (branchNode, mergeNodePlan branchNode .model []),
      (branchTwin, mergeNodePlan branchTwin .model []),
      (branchLoose, mergeNodePlan branchLoose .model []),
      (mergeNode, mergeNodePlan mergeNode .predictionJoin
        (ascending (edges.map (·.source.nodeId)).toFinset))]
    foldSet := some mergeFolds }

def branchRequirement : BundlePredictionRequirement where
  producerNode := branchNode
  sourcePort := "c"
  consumerNode := mergeNode
  targetPort := "x"
  partition := .validation
  predictionLevel := .sample
  foldIds := [mergeFold]
  unitIds := []
  sampleIds := [mergeSample]
  predictionWidth := 1
  targetNames := ["p0"]

def branchBlock : PredictionBlock where
  predictionId := none
  producerNode := branchNode
  producerPort := some "c"
  partition := .validation
  foldId := some mergeFold
  sampleIds := [mergeSample]
  values := [[.zero]]
  targetNames := []

def mergeBundle : ExecutionBundle Unit where
  bundleId := ⟨"bundle:merged", by decide⟩
  schemaVersion := 2
  planId := "plan:merged"
  graphFingerprint := stableJsonFingerprint tiedExternals .null
  campaignFingerprint := stableJsonFingerprint tiedExternals .null
  controllerFingerprint := stableJsonFingerprint tiedExternals .null
  selectedVariantId := none
  predictionRequirements := [branchRequirement]
  predictionCaches := [sealRecord tiedExternals sampleKind branchRequirement [branchBlock]]
  sections := ()

def acceptSections : SectionChecks Unit := ⟨fun _ => .ok (), fun _ => .ok (), fun _ => .ok ()⟩

def acceptPlan : PlanChecks := ⟨fun _ => .ok (), fun _ => .ok ()⟩

/-- Of the three edges into the merge only the first is supplied. -/
theorem mergeBundle_accepted :
    mergeBundle.validateAgainstPlan (mergePlan [branchEdge, twinEdge, looseEdge]) acceptSections
      acceptPlan (fun _ _ => .ok ()) = .ok () := by
  decide +kernel

end DagMl

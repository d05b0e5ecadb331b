import DagMl.Lib.Index
import DagMl.Runtime.OofInput

/-!
# Out-of-fold evidence

What the rows of a stacking input are made of. `edgeEvidence` says which blocks
of the store an edge may read in a list of folds; `OutOfFold` says that an input
holds the rows of exactly these blocks.
-/

namespace DagMl

open Checked BTreeMap

-- ---------------------------------------------------------------------------
-- The blocks of an edge
-- ---------------------------------------------------------------------------

/-- A block without a port belongs to its producer's only prediction output. -/
def OnSourcePort (plan : ExecutionPlan) (edge : EdgeSpec) (producerPort : Option String) : Prop :=
  producerPort = some edge.source.portName ∨ producerPort = none ∧
    (plan.findNode edge.source.nodeId).map (·.predictionPorts) = some [edge.source.portName]

instance (plan : ExecutionPlan) (edge : EdgeSpec) (producerPort : Option String) :
    Decidable (OnSourcePort plan edge producerPort) :=
  inferInstanceAs (Decidable (_ ∨ _ ∧ _))

def NamesFold (folds : List FoldAssignment) (block : PredictionBlock) : Prop :=
  ∃ fold ∈ folds, block.foldId = some fold.foldId

instance (folds : List FoldAssignment) (block : PredictionBlock) :
    Decidable (NamesFold folds block) :=
  inferInstanceAs (Decidable (∃ fold ∈ folds, _))

/-- A validation block of the edge's producer and source port, in one of the folds. -/
def FeedsEdge (plan : ExecutionPlan) (edge : EdgeSpec) (folds : List FoldAssignment)
    (block : PredictionBlock) : Prop :=
  block.producerNode = edge.source.nodeId ∧ block.partition = .validation ∧
    OnSourcePort plan edge block.producerPort ∧ NamesFold folds block

instance (plan : ExecutionPlan) (edge : EdgeSpec) (folds : List FoldAssignment)
    (block : PredictionBlock) : Decidable (FeedsEdge plan edge folds block) :=
  inferInstanceAs (Decidable (_ ∧ _ ∧ _ ∧ _))

def edgeEvidence (plan : ExecutionPlan) (edge : EdgeSpec) (folds : List FoldAssignment)
    (store : InMemoryPredictionStore) : List PredictionBlock :=
  store.blocks.filter (FeedsEdge plan edge folds ·)

/-- The rows that a list of blocks holds for a sample. -/
def evidenceRows (blocks : List PredictionBlock) (s : SampleId) : List (List Binary64) :=
  bucket (blocks.flatMap (·.rows)) s

-- ---------------------------------------------------------------------------
-- Ports
-- ---------------------------------------------------------------------------

theorem producerPortMatchesEdgeSourcePort_ok {plan : ExecutionPlan} {edge : EdgeSpec}
    (h : producerPortMatchesEdgeSourcePort plan edge producer port kind = .ok same) :
    same = true ↔ OnSourcePort plan edge port := by
  unfold producerPortMatchesEdgeSourcePort at h
  cases port with
  | some port =>
    simp only [bind_ok, refuseIf_ok, pure_ok] at h
    obtain ⟨_, -, rfl⟩ := h
    simp [OnSourcePort]
  | none =>
    simp only [legacyAbsentPortMatchesSinglePredictionOutput, bind_ok, need_ok] at h
    obtain ⟨source, hsource, h⟩ := h
    split at h
    · rename_i port hport
      obtain rfl := pure_ok.mp h
      simp [OnSourcePort, hsource, hport]
    · cases h

theorem keepForEdge_ok {plan : ExecutionPlan} {edge : EdgeSpec} {externals : Externals}
    (h : keepForEdge plan edge externals block = .ok kept) :
    kept = if OnSourcePort plan edge block.producerPort then some block else none := by
  simp only [keepForEdge, predictionBlockMatchesEdgeSourcePort, bind_ok] at h
  obtain ⟨same, hsame, h⟩ := h
  have hport := producerPortMatchesEdgeSourcePort_ok hsame
  cases same with
  | true =>
    rw [if_pos (hport.mp rfl)]
    simp only [if_true, bind_ok, pure_ok] at h
    obtain ⟨_, -, rfl⟩ := h
    rfl
  | false =>
    rw [if_neg fun hon => Bool.false_ne_true (hport.mpr hon)]
    exact (pure_ok.mp h).symm

/-- The port filter is a filter. -/
theorem filterPredictionBlocksForEdgeSourcePort_ok {plan : ExecutionPlan} {edge : EdgeSpec}
    {externals : Externals}
    (h : filterPredictionBlocksForEdgeSourcePort plan edge externals blocks = .ok kept) :
    kept = blocks.filter (OnSourcePort plan edge ·.producerPort) := by
  simp only [filterPredictionBlocksForEdgeSourcePort, bind_ok, pure_ok] at h
  obtain ⟨options, hcollect, rfl⟩ := h
  induction collect_ok.mp hcollect with
  | nil => rfl
  | @cons block option blocks options hblock hrest ih =>
    obtain rfl := keepForEdge_ok hblock
    have ih := ih (collect_ok.mpr hrest)
    by_cases hon : OnSourcePort plan edge block.producerPort
    · simp [List.reduceOption_cons_of_some, hon, ih]
    · simp [List.reduceOption_cons_of_none, hon, ih]

-- ---------------------------------------------------------------------------
-- The blocks of a scope
-- ---------------------------------------------------------------------------

/-- The folds a scope reads its evidence in and the samples it asks for: the
current fold of a FIT_CV scope, the whole declared pool of a REFIT. -/
inductive ScopeFolds (externals : Externals) (plan : ExecutionPlan) (edge : EdgeSpec)
    (scope : PhaseScope) (foldSetOverride : Option FoldSet) :
    List FoldAssignment → List SampleId → Prop
  | currentFold {foldSet : FoldSet} {fold : FoldAssignment} (phase : scope.phase = .fitCv)
      (active : foldSetOverride.or plan.foldSet = some foldSet)
      (current : foldSet.folds.find? (some ·.foldId = scope.foldId) = some fold) :
      ScopeFolds externals plan edge scope foldSetOverride [fold] fold.validationSampleIds
  | refitPool {nested : Option NestedStackingCampaignPlan} {foldSet : FoldSet}
      (phase : scope.phase = .refit) (campaign : nestedForEdge externals plan edge = .ok nested)
      (pool : (nested.bind (·.refitFoldSet)).or plan.foldSet = some foldSet) :
      ScopeFolds externals plan edge scope foldSetOverride foldSet.folds foldSet.sampleIds

/-- What the checks in front of a join establish about the blocks they pass. -/
structure ScopeBlocks (folds : List FoldAssignment) (samples : List SampleId)
    (blocks : List PredictionBlock) : Prop where
  covered : (blocks.flatMap (·.sampleIds)).toFinset = samples.toFinset
  validated : ∀ block ∈ blocks, ∃ fold ∈ folds, block.foldId = some fold.foldId ∧
    block.sampleIds.toFinset ⊆ fold.validationSampleIds.toFinset

section

variable {externals : Externals} {plan : ExecutionPlan} {edge : EdgeSpec}

theorem mem_find {store : InMemoryPredictionStore} :
    block ∈ store.find (some producer) (some partition) foldId ↔ block ∈ store.blocks ∧
      block.producerNode = producer ∧ block.partition = partition ∧
      ∀ id, foldId = some id → block.foldId = some id := by
  cases foldId <;>
    simp [InMemoryPredictionStore.find, InMemoryPredictionStore.requests, and_assoc]

theorem collectUniqueOofSamples_ok (h : collectUniqueOofSamples edge blocks = .ok actual) :
    actual = (blocks.flatMap (·.sampleIds)).toFinset := by
  refine loop_invariant (fun done actual => actual = (done.flatMap (·.sampleIds)).toFinset)
    rfl ?_ h
  rintro done block actual actual' rfl hblock
  simp only [uniqueOofBlock, bind_ok, insertUnique_ok] at hblock
  obtain ⟨_, -, -, -, rfl⟩ := hblock
  simp

theorem requiredFoldSetForOof_ok :
    requiredFoldSetForOof plan edge = .ok foldSet ↔ plan.foldSet = some foldSet := by
  simp [requiredFoldSetForOof, need_ok]

theorem activeFoldSet_ok {foldSetOverride : Option FoldSet} :
    activeFoldSet plan edge foldSetOverride = .ok foldSet ↔
      foldSetOverride.or plan.foldSet = some foldSet := by
  cases foldSetOverride with
  | some folds => simp [activeFoldSet]
  | none => simp [activeFoldSet, requiredFoldSetForOof_ok]

theorem refitPool_ok {nested : Option NestedStackingCampaignPlan} :
    refitPool plan edge nested = .ok foldSet ↔
      (nested.bind (·.refitFoldSet)).or plan.foldSet = some foldSet := by
  unfold refitPool
  cases nested.bind (·.refitFoldSet) with
  | some folds => simp
  | none => simp [requiredFoldSetForOof_ok]

/-- In FIT_CV an edge passes the whole evidence of the current fold. -/
theorem validateFitCvOofEdge_ok {scope : PhaseScope} (hphase : scope.phase = .fitCv)
    (hsigned : predictionAvailability externals plan = .ok none)
    (h : validateFitCvOofEdge externals plan edge ctx scope foldSetOverride = .ok blocks) :
    ∃ folds samples, ScopeFolds externals plan edge scope foldSetOverride folds samples ∧
      blocks = edgeEvidence plan edge folds ctx.predictionStore ∧
      ScopeBlocks folds samples blocks := by
  simp only [validateFitCvOofEdge, hsigned, bind_ok, need_ok, activeFoldSet_ok] at h
  obtain ⟨foldId, hfoldId, kept, hkept, foldSet, hactive, fold, hfold, _, hnone, h⟩ := h
  cases hnone
  simp only [validateOofBlocksMatchFold, bind_ok, need_ok, refuseIf_ok, pure_ok, not_not] at h
  obtain ⟨_, -, _, -, _, ⟨_, hfold', actual, hactual, hmatch⟩, rfl⟩ := h
  obtain rfl := Option.some.inj (hfold.symm.trans hfold')
  obtain rfl := filterPredictionBlocksForEdgeSourcePort_ok hkept
  have hid : fold.foldId = foldId := by simpa using List.find?_some hfold
  have hcurrent : foldSet.folds.find? (some ·.foldId = scope.foldId) = some fold := by
    simpa [hfoldId] using hfold
  refine ⟨[fold], fold.validationSampleIds, .currentFold hphase hactive hcurrent, ?_, ?_, ?_⟩
  · simp only [edgeEvidence, InMemoryPredictionStore.find, List.filter_filter]
    refine List.filter_congr fun block _ => ?_
    rw [Bool.eq_iff_iff]
    simp only [InMemoryPredictionStore.requests, FeedsEdge, NamesFold, Option.map_some, hid,
      Bool.and_eq_true, decide_eq_true_eq, List.mem_singleton, exists_eq_left]
    tauto
  · rw [← collectUniqueOofSamples_ok hactual, hmatch]
  · intro block hblock
    have hmem := List.mem_of_mem_filter hblock
    refine ⟨fold, List.mem_singleton_self fold, ?_, ?_⟩
    · rw [hid]
      exact (mem_find.mp hmem).2.2.2 foldId rfl
    · rw [← hmatch, collectUniqueOofSamples_ok hactual]
      intro s hs
      rw [List.mem_toFinset] at hs ⊢
      exact List.mem_flatMap.mpr ⟨block, hblock, hs⟩

/-- A REFIT that is allowed passes the whole evidence of its pool. -/
theorem validateRefitOofEdge_ok {scope : PhaseScope} (hphase : scope.phase = .refit)
    (hsigned : predictionAvailability externals plan = .ok none)
    (h : validateRefitOofEdge externals plan edge ctx = .ok (some blocks)) :
    ∃ folds samples, ScopeFolds externals plan edge scope foldSetOverride folds samples ∧
      blocks = edgeEvidence plan edge folds ctx.predictionStore ∧
      ScopeBlocks folds samples blocks := by
  simp only [validateRefitOofEdge, refitEvidence, hsigned, bind_ok, refitPool_ok, pure_ok] at h
  obtain ⟨contract, -, pool, ⟨nested, hnested, foldSet, hpool, kept, hkept, rfl⟩, _, hnone, h⟩ := h
  cases hnone
  simp only [bind_ok] at h
  obtain ⟨_, -, _, -, decision, hdecision, h⟩ := h
  cases decision with
  | skipRefit d => cases h
  | refitAllowed d =>
    cases h
    obtain ⟨-, hfills, hcovered⟩ := refitAllowed_ok hdecision
    obtain ⟨-, -, hcovered⟩ := validateProducerOofCoverage_ok.mp hcovered
    have hvalidation : validationSamples blocks = blocks.flatMap (·.sampleIds) := by
      rw [validationSamples, List.filter_eq_self.mpr]
      exact fun block hblock => by simpa using (hfills block hblock).validation
    refine ⟨foldSet.folds, foldSet.sampleIds, .refitPool hphase hnested hpool, ?_, ?_, ?_⟩
    · have hnamed : blocks.filter (NamesFold foldSet.folds ·) = blocks := by
        refine List.filter_eq_self.mpr fun block hblock => ?_
        obtain ⟨fold, hfold, hid, -⟩ := (hfills block hblock).fold
        exact decide_eq_true ⟨fold, hfold, hid⟩
      rw [← hnamed, filterPredictionBlocksForEdgeSourcePort_ok hkept]
      simp only [edgeEvidence, InMemoryPredictionStore.find, List.filter_filter]
      refine List.filter_congr fun block _ => ?_
      rw [Bool.eq_iff_iff]
      simp only [InMemoryPredictionStore.requests, Option.map_none, Bool.and_eq_true,
        decide_eq_true_eq]
      unfold FeedsEdge
      have hpool (h : NamesFold foldSet.folds block) : inRefitPool nested foldSet block := by
        obtain ⟨fold, hfold, hid⟩ := h
        simpa [inRefitPool, hid] using .inr ⟨fold, hfold, rfl⟩
      tauto
    · rw [← hvalidation, hcovered _ rfl]
    · intro block hblock
      obtain ⟨fold, hfold, hid, hsamples⟩ := (hfills block hblock).fold
      exact ⟨fold, hfold, hid, hsamples.subset⟩

-- ---------------------------------------------------------------------------
-- The rows of a join
-- ---------------------------------------------------------------------------

theorem pushRow_loop {allow : Bool} {entries : List (SampleId × List Binary64)}
    (h : loop (pushRow edge allow) ∅ entries = .ok rows) :
    GroupsOf entries rows ∧ (allow = false → (entries.map Prod.fst).Nodup) := by
  refine loop_invariant (fun done rows => GroupsOf done rows ∧
    (allow = false → (done.map Prod.fst).Nodup)) ⟨.empty, fun _ => .nil⟩ ?_ h
  rintro done entry rows rows' ⟨hgroups, hnodup⟩ hentry
  simp only [pushRow, bind_ok, refuseIf_ok, pure_ok, hgroups.getD] at hentry
  obtain ⟨_, hnew, rfl⟩ := hentry
  refine ⟨hgroups.push, fun hallow => ?_⟩
  rw [List.map_append, List.map_singleton, ← List.concat_eq_append, List.nodup_concat]
  refine ⟨fun hmem => hnew ⟨by simp [hallow], bucket_ne_nil.mpr hmem⟩, hnodup hallow⟩

/-- What a join has taken in: the rows of its blocks, of one width. -/
structure JoinedOof (edge : EdgeSpec) (allow : Bool) (blocks : List PredictionBlock)
    (joined : JoinedRows) : Prop where
  content : ∀ block ∈ blocks, block.Content
  rows : loop (pushRow edge allow) ∅ (blocks.flatMap (·.rows)) = .ok joined.rows
  width : ∀ block ∈ blocks, joined.columns.map Prod.fst = some block.width

theorem joinOofBlock_loop {allow : Bool}
    (h : loop (joinOofBlock edge allow) ⟨∅, none⟩ blocks = .ok joined) :
    JoinedOof edge allow blocks joined := by
  refine loop_invariant (JoinedOof edge allow · ·) ⟨by simp, rfl, by simp⟩ ?_ h
  rintro done block joined joined' hdone hblock
  simp only [joinOofBlock, bind_ok, PredictionBlock.validateContent_ok, refuseIf_ok, pure_ok,
    not_exists, not_and, not_not] at hblock
  obtain ⟨_, ⟨hcontent, rfl⟩, rows, hrows, _, hwidth, _, -, rfl⟩ := hblock
  constructor
  · rintro other hother
    rcases List.mem_append.mp hother with hother | hother
    · exact hdone.content other hother
    · exact List.mem_singleton.mp hother ▸ hcontent
  · rw [List.flatMap_append, loop_append]
    exact ⟨joined.rows, hdone.rows, by simpa using hrows⟩
  · intro other hother
    rcases List.mem_append.mp hother with hother | hother
    · have hcolumns := hdone.width other hother
      obtain ⟨columns, hcolumn, hother⟩ := Option.map_eq_some_iff.mp hcolumns
      simp [← hother, hwidth columns hcolumn]
    · simp [List.mem_singleton.mp hother]

/-- Every row of an input is made of the rows its sample has in the blocks. -/
structure RowsOf (blocks : List PredictionBlock) (spec : PredictionInputSpec) : Prop where
  content : ∀ block ∈ blocks, block.Content ∧ block.width = spec.predictionWidth
  nodup : spec.sampleIds.Nodup
  covers : spec.sampleIds.toFinset = (blocks.flatMap (·.sampleIds)).toFinset
  rows : List.Forall₂ (fun s row => evidenceRows blocks s ≠ [] ∧
    row = averagePredictionRows (evidenceRows blocks s) spec.predictionWidth)
    spec.sampleIds spec.values

theorem map_fst_flatMap_rows {blocks : List PredictionBlock} (h : ∀ block ∈ blocks, block.Content) :
    (blocks.flatMap (·.rows)).map Prod.fst = blocks.flatMap (·.sampleIds) := by
  rw [List.map_flatMap]
  exact List.flatMap_congr fun block hblock => (h block hblock).map_fst_rows

theorem predictionInputSpec_ok {allow : Bool}
    (h : predictionInputSpec edge scope blocks allow = .ok spec) :
    RowsOf blocks spec ∧ (allow = false → (blocks.flatMap (·.sampleIds)).Nodup) := by
  simp only [predictionInputSpec, bind_ok, pure_ok] at h
  obtain ⟨joined, hjoined, rfl⟩ := h
  have hjoined := joinOofBlock_loop hjoined
  obtain ⟨hgroups, hnodup⟩ := pushRow_loop hjoined.rows
  rw [map_fst_flatMap_rows hjoined.content] at hnodup
  refine ⟨⟨fun block hblock => ⟨hjoined.content block hblock, ?_⟩, nodup_keys_toList _, ?_, ?_⟩,
    hnodup⟩
  · simp [hjoined.width block hblock]
  · ext s
    have hkey : s ∈ blocks.flatMap (·.sampleIds) ↔ bucket (blocks.flatMap (·.rows)) s ≠ [] := by
      rw [bucket_ne_nil, map_fst_flatMap_rows hjoined.content]
    simp only [List.mem_toFinset, hkey, List.mem_map, Prod.exists, exists_and_right,
      exists_eq_right, mem_toList, hgroups s]
  · rw [List.forall₂_map_left_iff, List.forall₂_map_right_iff, List.forall₂_same]
    rintro ⟨s, rows⟩ hrows
    obtain ⟨hne, rfl⟩ := (hgroups s rows).mp (mem_toList.mp hrows)
    exact ⟨hne, rfl⟩

theorem RowsOf.single (h : RowsOf blocks spec) (hnodup : (blocks.flatMap (·.sampleIds)).Nodup) :
    List.Forall₂ (fun s row => evidenceRows blocks s = [row]) spec.sampleIds spec.values := by
  refine h.rows.imp fun s row ⟨hne, hrow⟩ => ?_
  rw [← map_fst_flatMap_rows fun block hblock => (h.content block hblock).1] at hnodup
  obtain ⟨only, honly⟩ := bucket_of_nodup hnodup (bucket_ne_nil.mp hne)
  rw [hrow, evidenceRows, honly, averagePredictionRows]

end

-- ---------------------------------------------------------------------------
-- The collected input
-- ---------------------------------------------------------------------------

/-- An input with one row for each of the samples, every row made of the rows
that the blocks hold for its sample, in folds that validate it. -/
structure OutOfFold (folds : List FoldAssignment) (samples : List SampleId) (resampled : Prop)
    (blocks : List PredictionBlock) (spec : PredictionInputSpec) : Prop extends
    RowsOf blocks spec where
  exact : spec.sampleIds.toFinset = samples.toFinset
  validated : ∀ block ∈ blocks, ∃ fold ∈ folds, block.foldId = some fold.foldId ∧
    block.sampleIds.toFinset ⊆ fold.validationSampleIds.toFinset
  /-- Only a resampled refit averages. -/
  single : ¬resampled → List.Forall₂ (fun s row => evidenceRows blocks s = [row])
    spec.sampleIds spec.values

section

variable {externals : Externals} {plan : ExecutionPlan} {edge : EdgeSpec} {scope : PhaseScope}
  {resources : PhaseScopeResources}

theorem collectReplayedInput_level
    (hcontract : replayedAbove edge scope resources = some contract)
    (h : collectReplayedInput externals plan edge ctx scope resources contract sourcePlan =
      .ok (some input)) : input.spec.predictionLevel ≠ .sample := by
  simp only [collectReplayedInput, predictionInputSpecFromRequirement, bind_ok, pure_ok] at h
  obtain ⟨handle, -, spec, ⟨_, -, rfl⟩, h⟩ := h
  cases h
  unfold replayedAbove at hcontract
  split at hcontract
  · simpa using (Option.filter_eq_some_iff.mp hcontract).2
  · cases hcontract

theorem collectAggregatedInput_level
    (h : collectAggregatedInput externals plan edge ctx scope resources aggregatedOofEdge level
      sourcePlan = .ok (some input)) : input.spec.predictionLevel = level := by
  simp only [collectAggregatedInput, aggregatedPredictionInputSpec, bind_ok, pure_ok] at h
  obtain ⟨_, -, _, -, spec, ⟨_, -, _, -, rfl⟩, h⟩ := h
  cases h
  rfl

/-- A collected sample input is the join of the blocks its edge passed. -/
theorem collectSampleInput_ok (hsigned : predictionAvailability externals plan = .ok none)
    (h : collectSampleInput externals plan edge ctx scope resources sourcePlan =
      .ok (some input)) :
    ∃ blocks, sampleOofBlocks externals plan edge ctx scope resources = .ok (some blocks) ∧
      predictionInputSpec edge scope blocks
        (scope.phase = .refit && planOofPartitionMode plan = .resampled) = .ok input.spec := by
  simp only [collectSampleInput, bind_ok] at h
  obtain ⟨found, hfound, h⟩ := h
  cases found with
  | none => cases h
  | some blocks =>
    refine ⟨blocks, hfound, ?_⟩
    simp only [bind_ok, availabilityInput, hsigned] at h
    obtain ⟨available, havailable, handle, -, h⟩ := h
    obtain rfl : available = none := by
      split at havailable
      · exact (pure_ok.mp havailable).symm
      · obtain ⟨_, hnone, havailable⟩ := bind_ok.mp havailable
        cases hnone
        exact (pure_ok.mp havailable).symm
    simp only [bind_ok, pure_ok] at h
    obtain ⟨spec, hspec, h⟩ := h
    cases h
    exact hspec

/-- The blocks of a sample-level edge are the evidence of its scope. -/
theorem sampleOofBlocks_ok (hphase : scope.phase = .fitCv ∨ scope.phase = .refit)
    (hsigned : predictionAvailability externals plan = .ok none)
    (h : sampleOofBlocks externals plan edge ctx scope resources = .ok (some blocks)) :
    ∃ folds samples, ScopeFolds externals plan edge scope resources.foldSetOverride folds samples ∧
      blocks = edgeEvidence plan edge folds ctx.predictionStore ∧
      ScopeBlocks folds samples blocks := by
  unfold sampleOofBlocks at h
  rcases hphase with hphase | hphase
  · simp only [hphase, bind_ok, pure_ok] at h
    obtain ⟨_, h, hblocks⟩ := h
    cases hblocks
    exact validateFitCvOofEdge_ok hphase hsigned h
  · simp only [hphase] at h
    exact validateRefitOofEdge_ok hphase hsigned h

end

/-- A base model that feeds one meta-model. -/
def stackPlan : ExecutionPlan :=
  let port : PortSpec := ⟨"oof", .prediction, none, .one, none, none, none⟩
  let base : NodeId := singleBlock.producerNode
  let stack : NodeId := ⟨"model:stack", by decide⟩
  let nodePlan (nodeId : NodeId) : NodePlan := {
    nodeId, kind := .model, controllerId := ⟨"controller:stack", by decide⟩
    controllerVersion := "1", supportedPhases := {.fitCv, .refit}, trainingLosses := []
    inputNodes := [], shapePlan := none, dataBindings := [], innerCv := none
    paramsFingerprint := "" }
  { id := "plan:stack"
    graphPlan.graph := {
      id := "graph:stack", interface := ⟨[], []⟩
      nodes := [⟨base, .model, none, ⟨[], [port]⟩, ∅⟩, ⟨stack, .model, none, ⟨[port], []⟩, ∅⟩]
      edges := [⟨⟨base, "oof"⟩, ⟨stack, "oof"⟩, .new .prediction none⟩]
      searchSpaceFingerprint := none, metadata := ∅ }
    graphPlan.storedLevels := []
    campaign := ⟨none, none⟩
    nodePlans := .collect [(base, nodePlan base), (stack, nodePlan stack)]
    foldSet := some singleFoldSet }

def stackEdge : EdgeSpec :=
  ⟨⟨singleBlock.producerNode, "oof"⟩, ⟨⟨"model:stack", by decide⟩, "oof"⟩, .new .prediction none⟩

def stackContext : RunContext :=
  { RunContext.new ⟨"run:stack", by decide⟩ none with predictionStore := ⟨[singleBlock]⟩ }

def stackExternals : Externals where
  sha256 _ := .replicate 32 0
  floats := .ofBits
  decodeClassVocabulary _ := .error ""
  decodeAvailability _ := .error ""

def stackScope (phase : Phase) : PhaseScope := ⟨phase, none, singleBlock.foldId⟩

end DagMl

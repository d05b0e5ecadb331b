import Mathlib
import DagMl.Fold.Basic
import DagMl.Oof.Block

/-!
# Joining predictions into features

`validateOofCampaign` turns a campaign's prediction blocks into one feature
matrix. Four gates stand before the join; `Joined` is the invariant of the
join's loop over the blocks.
-/

namespace DagMl

open Checked

structure PredictionJoinPolicy where
  nodeId : NodeId
  allowTrainPredictionsAsFeatures : Bool
  includePartitions : List PredictionPartition

structure OofCampaign where
  foldSet : FoldSet
  joinPolicy : PredictionJoinPolicy
  requestedSampleOrder : List SampleId
  predictionBlocks : List PredictionBlock

structure OofMatrix where
  sampleIds : List SampleId
  columns : List String
  values : List (List Binary64)
  deriving DecidableEq

structure ProducerPredictions where
  width : Nat
  targetNames : List String
  bySample : BTreeMap SampleId (List Binary64)

-- ---------------------------------------------------------------------------
-- The gates
-- ---------------------------------------------------------------------------

def ensureRequiredSamples (requiredSamples : List SampleId) : Result Unit := do
  refuseIf (requiredSamples = []) (.oofValidation "required sample set is empty")
  refuseIf (requiredSamples.toFinset.card ≠ requiredSamples.length)
    (.oofValidation "required sample set contains duplicates")

def validateRequestedSamplesMatchFoldSet (requestedSampleOrder : List SampleId)
    (foldSet : FoldSet) : Result Unit := do
  ensureRequiredSamples requestedSampleOrder
  refuseIf (requestedSampleOrder.toFinset ≠ foldSet.sampleIds.toFinset)
    (.oofValidation "requested sample order does not match fold-set sample universe")

def assertExactPartitionSamples (block : PredictionBlock) (foldId : FoldId)
    (expectedSamples : List SampleId) (partitionName : String) : Result Unit := do
  let actual ← unique block.duplicateSample block.sampleIds
  refuseIf (actual ≠ expectedSamples.toFinset) (.oofValidation
    s!"producer `{block.producerNode}` fold `{foldId}` {partitionName} predictions do not match fold {partitionName} samples")

def validateBlockAgainstFolds (foldSet : FoldSet) (block : PredictionBlock) : Result Unit := do
  let _ ← block.validateContent
  match block.foldId with
  | none =>
    match block.partition with
    | .train | .trainPool | .validation => .error (.oofValidation
        s!"producer `{block.producerNode}` emitted {block.partition.debug} predictions without fold_id")
    | .test | .final => .ok ()
  | some foldId => do
    let fold ← need foldSet.foldsById[foldId]? (.oofValidation
      s!"producer `{block.producerNode}` references unknown fold `{foldId}`")
    match block.partition with
    | .train => assertExactPartitionSamples block foldId fold.trainSampleIds "train"
    | .trainPool =>
      refuseIf (∃ s ∈ block.sampleIds, s ∉ fold.trainSampleIds ++ fold.validationSampleIds)
        (.oofValidation
          s!"producer `{block.producerNode}` emitted train-pool predictions outside fold `{foldId}` training population")
    | .validation =>
      assertExactPartitionSamples block foldId fold.validationSampleIds "validation"
    | .test | .final => .ok ()

def validatePredictionBlocksAgainstFolds (foldSet : FoldSet) (blocks : List PredictionBlock) :
    Result Unit := do
  foldSet.validate
  each blocks (validateBlockAgainstFolds foldSet)

def validatePredictionBlocksAreOof (policy : PredictionJoinPolicy)
    (blocks : List PredictionBlock) : Result Unit :=
  if policy.allowTrainPredictionsAsFeatures then .ok ()
  else
    let violators := (blocks.filter (·.partition ≠ .validation)).map fun block =>
      { producerNode := toString block.producerNode
        partition := block.partition.debug.toLower
        foldId := block.foldId.map toString : OofLeakageViolation }
    refuseIf (violators ≠ []) (.oofLeakage {
      nodeId := toString policy.nodeId, violators
      allowTrainPredictionsAsFeatures := policy.allowTrainPredictionsAsFeatures
      remediation := "Use only OOF validation predictions as training features, or explicitly set allow_train_predictions_as_features=true for an unsafe run." })

-- ---------------------------------------------------------------------------
-- The join
-- ---------------------------------------------------------------------------

def effectivePartitions (policy : PredictionJoinPolicy) : List PredictionPartition :=
  if policy.includePartitions = [] then [.validation] else policy.includePartitions

def normalizedTargets (block : PredictionBlock) (width : Nat) : List String :=
  if block.targetNames = [] then (List.range width).map (s!"p{·}") else block.targetNames

def insertRow (producerNode : NodeId) (required : List SampleId)
    (bySample : BTreeMap SampleId (List Binary64)) (entry : SampleId × List Binary64) :
    Result (BTreeMap SampleId (List Binary64)) := do
  refuseIf (entry.1 ∉ required) (.oofValidation
    s!"producer `{producerNode}` emitted unexpected sample `{entry.1}`")
  refuseIf (entry.1 ∈ bySample) (.oofValidation
    s!"producer `{producerNode}` emitted duplicate OOF prediction for sample `{entry.1}`")
  pure (bySample.insert entry.1 entry.2)

def joinBlock (included : List PredictionPartition) (required : List SampleId)
    (producers : BTreeMap NodeId ProducerPredictions) (block : PredictionBlock) :
    Result (BTreeMap NodeId ProducerPredictions) :=
  if block.partition ∉ included then .ok producers
  else do
    let width ← block.validateContent
    let targetNames := normalizedTargets block width
    let producer := (producers[block.producerNode]?).getD ⟨width, targetNames, ∅⟩
    refuseIf (producer.width ≠ width) (.oofValidation
      s!"producer `{block.producerNode}` changed prediction width from {producer.width} to {width}")
    refuseIf (producer.targetNames ≠ targetNames) (.oofValidation
      s!"producer `{block.producerNode}` changed target names across folds")
    let bySample ← loop (insertRow block.producerNode required) producer.bySample block.rows
    pure (producers.insert block.producerNode { producer with bySample })

def joinOofCampaignFeatures (policy : PredictionJoinPolicy) (blocks : List PredictionBlock)
    (requiredSamples : List SampleId) : Result OofMatrix := do
  validatePredictionBlocksAreOof policy blocks
  ensureRequiredSamples requiredSamples
  let producers ← loop (joinBlock (effectivePartitions policy) requiredSamples) ∅ blocks
  refuseIf producers.isEmpty
    (.oofValidation "no prediction blocks were selected for OOF join")
  each producers.toList fun (producerNode, producer) =>
    each requiredSamples fun s => refuseIf (s ∉ producer.bySample) (.oofValidation
      s!"producer `{producerNode}` is missing required sample `{s}`")
  let columns := producers.toList.flatMap fun (producerNode, producer) =>
    producer.targetNames.map fun target => s!"{producerNode}__{target}"
  let values ← collect requiredSamples fun s => do
    let segments ← collect producers.toList fun (_, producer) =>
      need producer.bySample[s]? (.panicked "required sample was checked")
    pure segments.flatten
  pure { sampleIds := requiredSamples, columns, values }

def validateOofCampaign (campaign : OofCampaign) : Result OofMatrix := do
  campaign.foldSet.validate
  validateRequestedSamplesMatchFoldSet campaign.requestedSampleOrder campaign.foldSet
  validatePredictionBlocksAgainstFolds campaign.foldSet campaign.predictionBlocks
  joinOofCampaignFeatures campaign.joinPolicy campaign.predictionBlocks
    campaign.requestedSampleOrder

-- ---------------------------------------------------------------------------
-- What the gates establish
-- ---------------------------------------------------------------------------

/-- A block with the samples its fold validates. -/
def OnValidationFold (foldSet : FoldSet) (block : PredictionBlock) : Prop :=
  ∃ fold ∈ foldSet.folds, block.foldId = some fold.foldId ∧
    ∀ s, s ∈ block.sampleIds ↔ s ∈ fold.validationSampleIds

theorem validateBlockAgainstFolds_ok (hv : foldSet.Valid)
    (h : validateBlockAgainstFolds foldSet block = .ok u) :
    block.Content ∧ (block.partition = .validation → OnValidationFold foldSet block) := by
  simp only [validateBlockAgainstFolds, bind_ok, PredictionBlock.validateContent_ok] at h
  obtain ⟨_, ⟨hc, -⟩, h⟩ := h
  refine ⟨hc, fun hp => ?_⟩
  rw [hp] at h
  cases hf : block.foldId with
  | none => simp [hf] at h
  | some foldId =>
    simp only [hf, bind_ok, need_ok, hv.foldsById_get, assertExactPartitionSamples, unique_ok,
      refuseIf_ok, not_not] at h
    obtain ⟨fold, ⟨hm, rfl⟩, _, ⟨-, rfl⟩, hs⟩ := h
    exact ⟨fold, hm, hf, fun s => by simpa using Finset.ext_iff.mp hs s⟩

theorem validatePredictionBlocksAgainstFolds_ok
    (h : validatePredictionBlocksAgainstFolds foldSet blocks = .ok u) :
    ∀ b ∈ blocks, b.Content ∧ (b.partition = .validation → OnValidationFold foldSet b) := by
  simp only [validatePredictionBlocksAgainstFolds, bind_ok, FoldSet.validate_ok, each_ok] at h
  obtain ⟨_, hv, h⟩ := h
  exact fun b hb => validateBlockAgainstFolds_ok hv (h b hb)

theorem validatePredictionBlocksAreOof_ok :
    validatePredictionBlocksAreOof policy blocks = .ok u ↔
      (policy.allowTrainPredictionsAsFeatures = false → ∀ b ∈ blocks, b.partition = .validation) := by
  unfold validatePredictionBlocksAreOof
  split
  · simp_all
  · simp_all [refuseIf_ok]

-- ---------------------------------------------------------------------------
-- What the join establishes
-- ---------------------------------------------------------------------------

/-- The rows one producer's selected blocks hold, in block order. -/
def producerRows (included : List PredictionPartition) (producerNode : NodeId)
    (blocks : List PredictionBlock) : List (SampleId × List Binary64) :=
  (blocks.filter fun b => b.producerNode = producerNode ∧ b.partition ∈ included).flatMap (·.rows)

theorem producerRows_concat :
    producerRows included p (done ++ [b]) = producerRows included p done ++
      if b.producerNode = p ∧ b.partition ∈ included then b.rows else [] := by
  unfold producerRows
  rw [List.filter_append, List.flatMap_append]
  congr 1
  by_cases h : b.producerNode = p ∧ b.partition ∈ included <;> simp [h]

theorem insertRow_ok {bySample : BTreeMap SampleId (List Binary64)}
    (h : insertRow producerNode required bySample e = .ok bySample') :
    e.1 ∉ bySample ∧
      ∀ s row, bySample'[s]? = some row ↔ bySample[s]? = some row ∨ (s, row) = e := by
  simp only [insertRow, bind_ok, refuseIf_ok, pure_ok] at h
  obtain ⟨_, -, _, hnew, rfl⟩ := h
  refine ⟨hnew, fun s row => ?_⟩
  rw [BTreeMap.getElem?_insert]
  split
  · rename_i hs
    have hnone : bySample[s]? = none := by simpa [hs] using hnew
    simp [hnone, hs, Prod.ext_iff, eq_comm]
  · rename_i hs
    simp [Prod.ext_iff, Ne.symm hs]

theorem insertRow_loop {bySample : BTreeMap SampleId (List Binary64)}
    (h : loop (insertRow producerNode required) bySample rows = .ok bySample') :
    (rows.map Prod.fst).Nodup ∧ (∀ e ∈ rows, e.1 ∉ bySample) ∧
      ∀ s row, bySample'[s]? = some row ↔ bySample[s]? = some row ∨ (s, row) ∈ rows := by
  induction rows generalizing bySample with
  | nil =>
    cases h
    simp
  | cons e es ih =>
    obtain ⟨_, hstep, h⟩ := loop_cons.mp h
    obtain ⟨hnew, hget⟩ := insertRow_ok hstep
    obtain ⟨hn, hfresh, hgets⟩ := ih h
    rw [List.map_cons, List.nodup_cons, List.forall_mem_cons]
    refine ⟨⟨fun hm => ?_, hn⟩, ⟨hnew, fun x hx hm => ?_⟩, fun s row => ?_⟩
    · obtain ⟨x, hx, hxe⟩ := List.mem_map.mp hm
      exact hfresh x hx (BTreeMap.mem_iff.mpr ⟨e.2, (hget _ _).mpr (.inr (by simp [hxe]))⟩)
    · obtain ⟨v, hv⟩ := BTreeMap.mem_iff.mp hm
      exact hfresh x hx (BTreeMap.mem_iff.mpr ⟨v, (hget _ _).mpr (.inl hv)⟩)
    · rw [hgets, hget, List.mem_cons, or_assoc]

theorem length_normalizedTargets {block : PredictionBlock} (h : block.Shape) :
    (normalizedTargets block block.width).length = block.width := by
  unfold normalizedTargets
  split
  · simp
  · rename_i hne
    exact h.targets.resolve_left hne

/-- One producer's entry, against the rows its selected blocks hold. -/
structure Collected (rows : List (SampleId × List Binary64)) (q : ProducerPredictions) :
    Prop where
  nodup : (rows.map Prod.fst).Nodup
  entries : ∀ s row, q.bySample[s]? = some row ↔ (s, row) ∈ rows
  targets : q.targetNames.length = q.width
  width : ∀ e ∈ rows, e.2.length = q.width

/-- A fresh entry takes the block's own width and targets. -/
theorem Collected.start {block : PredictionBlock} (h : block.Shape) :
    Collected [] ⟨block.width, normalizedTargets block block.width, ∅⟩ where
  nodup := List.nodup_nil
  entries := by simp
  targets := length_normalizedTargets h
  width := by simp

theorem Collected.append {q : ProducerPredictions} {block : PredictionBlock}
    (h : Collected rows q) (hs : block.Shape) (hw : q.width = block.width)
    (hloop : loop (insertRow producerNode required) q.bySample block.rows = .ok bySample) :
    Collected (rows ++ block.rows) { q with bySample } := by
  obtain ⟨hn, hfresh, hget⟩ := insertRow_loop hloop
  refine ⟨?_, fun s row => ?_, h.targets, fun e he => ?_⟩
  · rw [List.map_append, List.nodup_append']
    refine ⟨h.nodup, hn, fun s hs hs' => ?_⟩
    obtain ⟨e, he, rfl⟩ := List.mem_map.mp hs
    obtain ⟨e', he', hee⟩ := List.mem_map.mp hs'
    refine hfresh e' he' (BTreeMap.mem_iff.mpr ⟨e.2, ?_⟩)
    rw [hee]
    exact (h.entries _ _).mpr he
  · rw [hget, h.entries, List.mem_append]
  · rcases List.mem_append.mp he with he | he
    · exact h.width e he
    · exact (hs.length_row he).trans hw.symm

/-- The producers collected from the blocks already visited. -/
structure Joined (included : List PredictionPartition) (done : List PredictionBlock)
    (producers : BTreeMap NodeId ProducerPredictions) : Prop where
  selected : ∀ p, p ∈ producers ↔ ∃ b ∈ done, b.producerNode = p ∧ b.partition ∈ included
  collected : ∀ p q, producers[p]? = some q → Collected (producerRows included p done) q

theorem Joined.start : Joined included [] ∅ :=
  ⟨by simp, by simp⟩

theorem Joined.rows_nil (h : Joined included done producers) (hp : producers[p]? = none) :
    producerRows included p done = [] := by
  have hno : ¬∃ b ∈ done, b.producerNode = p ∧ b.partition ∈ included := by
    rw [← h.selected, BTreeMap.mem_iff]
    simp [hp]
  have hnil : done.filter (fun b => b.producerNode = p ∧ b.partition ∈ included) = [] := by
    rw [List.filter_eq_nil_iff]
    exact fun b hb hsel => hno ⟨b, hb, by simpa using hsel⟩
  rw [producerRows, hnil, List.flatMap_nil]

theorem joinBlock_ok (hj : Joined included done producers)
    (h : joinBlock included required producers b = .ok producers') :
    Joined included (done ++ [b]) producers' := by
  unfold joinBlock at h
  split at h
  · rename_i hex
    cases h
    refine ⟨fun p => ?_, fun p q hq => ?_⟩
    · rw [hj.selected]
      simp [or_and_right, exists_or, hex]
    · rw [producerRows_concat]
      simpa [hex] using hj.collected p q hq
  · rename_i hin
    rw [not_not] at hin
    simp only [bind_ok, PredictionBlock.validateContent_ok, refuseIf_ok, not_not, pure_ok] at h
    obtain ⟨_, ⟨hc, rfl⟩, _, hw, _, ht, bySample, hloop, rfl⟩ := h
    refine ⟨fun p => ?_, fun p q hq => ?_⟩
    · simp only [Std.ExtTreeMap.mem_insert, Std.LawfulEqCmp.compare_eq_iff_eq, hj.selected]
      simp [or_and_right, exists_or, hin, or_comm]
    · rw [BTreeMap.getElem?_insert] at hq
      rw [producerRows_concat]
      split at hq
      · rename_i hp
        subst hp
        cases hq
        rw [if_pos ⟨rfl, hin⟩]
        refine Collected.append ?_ hc.toShape hw hloop
        cases hprev : producers[b.producerNode]? with
        | none =>
          rw [hj.rows_nil hprev]
          exact Collected.start hc.toShape
        | some q => exact hj.collected _ q hprev
      · rename_i hp
        simpa [hp] using hj.collected p q hq

theorem joinBlock_loop (h : loop (joinBlock included required) ∅ blocks = .ok producers) :
    Joined included blocks producers :=
  loop_invariant _ Joined.start (fun _ _ _ _ hj hstep => joinBlock_ok hj hstep) h

-- ---------------------------------------------------------------------------
-- Every feature is held out
-- ---------------------------------------------------------------------------

/-- Row `j` of block `i` is a validation prediction of the sample. -/
def RowAt (blocks : List PredictionBlock) (p : NodeId) (s : SampleId) (i j : Nat)
    (block : PredictionBlock) (row : List Binary64) : Prop :=
  blocks[i]? = some block ∧ block.producerNode = p ∧ block.partition = .validation ∧
    block.rows[j]? = some (s, row)

/-- The fold validates the sample and neither the sample nor its group trains. -/
structure HeldOutIn (foldSet : FoldSet) (fold : FoldAssignment) (s : SampleId) : Prop where
  mem : fold ∈ foldSet.folds
  validation : s ∈ fold.validationSampleIds
  train : s ∉ fold.trainSampleIds
  group : foldSet.sampleGroups.isEmpty = false → ∃ g, foldSet.sampleGroups[s]? = some g ∧
    ∀ t ∈ fold.trainSampleIds, foldSet.sampleGroups[t]? ≠ some g

/-- The segment is the one validation row the producer's blocks hold for the
sample, from a fold that holds the sample out. -/
def HeldOutRow (campaign : OofCampaign) (p : NodeId) (s : SampleId)
    (segment : List Binary64) : Prop :=
  ∃ i j block fold, RowAt campaign.predictionBlocks p s i j block segment ∧
    HeldOutIn campaign.foldSet fold s ∧ block.foldId = some fold.foldId ∧
    ∀ i' j' block' row, RowAt campaign.predictionBlocks p s i' j' block' row → i' = i ∧ j' = j

/-- The column names of a layout: its producers, each with its targets. -/
def columnsOf (layout : List (NodeId × List String)) : List String :=
  layout.flatMap fun (p, targets) => targets.map fun target => s!"{p}__{target}"

theorem FoldSet.Valid.heldOutIn (hv : foldSet.Valid) (hm : fold ∈ foldSet.folds)
    (hs : s ∈ fold.validationSampleIds) : HeldOutIn foldSet fold s := by
  have hf := hv.folds_valid fold hm
  refine ⟨hm, hs, hf.disjoint s hs, fun hne => ?_⟩
  have hg := (hv.groups_known.resolve_left (by simp [hne]) s).mpr (hf.validation_known s hs)
  obtain ⟨g, hg⟩ := BTreeMap.mem_iff.mp hg
  exact ⟨g, hg, hf.boundary s hs g hg⟩

/-- A collected row comes from one place, and that place is held out. -/
theorem Collected.heldOutRow {q : ProducerPredictions} (hv : campaign.foldSet.Valid)
    (hb : ∀ b ∈ campaign.predictionBlocks,
      b.Content ∧ (b.partition = .validation → OnValidationFold campaign.foldSet b))
    (hval : ∀ b ∈ campaign.predictionBlocks, b.partition = .validation)
    (hc : Collected (producerRows included p campaign.predictionBlocks) q)
    (hrow : q.bySample[s]? = some row) (hin : .validation ∈ included) :
    HeldOutRow campaign p s row := by
  have hmem := (hc.entries s row).mp hrow
  obtain ⟨b, hsel, hr⟩ := List.mem_flatMap.mp hmem
  obtain ⟨hbm, hbp⟩ := List.mem_filter.mp hsel
  simp only [decide_eq_true_eq] at hbp
  obtain ⟨i, hi⟩ := List.mem_iff_getElem?.mp hbm
  obtain ⟨j, hj⟩ := List.mem_iff_getElem?.mp hr
  obtain ⟨hcontent, hfold⟩ := hb b hbm
  obtain ⟨fold, hfm, hid, hsame⟩ := hfold (hval b hbm)
  have hs : s ∈ fold.validationSampleIds := (hsame s).mp (hcontent.toShape.mem_rows.mpr ⟨row, hr⟩)
  refine ⟨i, j, b, fold, ⟨hi, hbp.1, hval b hbm, hj⟩, hv.heldOutIn hfm hs, hid, ?_⟩
  rintro i' j' b' row' ⟨hi', hp', hv', hj'⟩
  have hn := hc.nodup
  rw [producerRows, List.map_flatMap] at hn
  exact flatMap_filter_position hn hi' (by simp [hp', hv', hin])
    (by rw [List.getElem?_map, hj']; rfl) hi (by simp [hbp]) (by rw [List.getElem?_map, hj]; rfl)

theorem joinOofCampaignFeatures_ok
    (h : joinOofCampaignFeatures policy blocks required = .ok m) :
    validatePredictionBlocksAreOof policy blocks = .ok () ∧
      ∃ producers, Joined (effectivePartitions policy) blocks producers ∧
        producers.isEmpty = false ∧ m.sampleIds = required ∧
        m.columns = columnsOf (producers.toList.map fun e => (e.1, e.2.targetNames)) ∧
        List.Forall₂ (fun s row => ∃ segments, row = segments.flatten ∧
          List.Forall₂ (fun e segment => e.2.bySample[s]? = some segment) producers.toList segments)
          required m.values := by
  simp only [joinOofCampaignFeatures, bind_ok, refuseIf_ok, collect_ok, need_ok, pure_ok,
    Bool.not_eq_true] at h
  obtain ⟨_, hoof, _, -, producers, hloop, _, hne, _, -, values, hvalues, rfl⟩ := h
  refine ⟨hoof, producers, joinBlock_loop hloop, hne, rfl, ?_, hvalues.imp ?_⟩
  · simp [columnsOf, List.flatMap_map]
  · rintro s row ⟨segments, hseg, rfl⟩
    exact ⟨segments, rfl, hseg⟩

/-- In an accepted campaign that admits only out-of-fold features, every row
is cut into one segment for each producer, and each segment is the one
held-out prediction that producer made for the sample. -/
theorem validateOofCampaign_heldOut (h : validateOofCampaign campaign = .ok m)
    (hpolicy : campaign.joinPolicy.allowTrainPredictionsAsFeatures = false) :
    m.sampleIds = campaign.requestedSampleOrder ∧
    ∃ layout : List (NodeId × List String),
      layout.Pairwise (·.1 < ·.1) ∧
      (∀ p, p ∈ layout.map Prod.fst ↔ ∃ b ∈ campaign.predictionBlocks, b.producerNode = p) ∧
      m.columns = columnsOf layout ∧
      List.Forall₂ (fun s row => ∃ segments, row = segments.flatten ∧
        List.Forall₂ (fun column segment => segment.length = column.2.length ∧
          HeldOutRow campaign column.1 s segment) layout segments) m.sampleIds m.values := by
  simp only [validateOofCampaign, bind_ok, FoldSet.validate_ok] at h
  obtain ⟨_, hv, _, -, _, hagainst, hjoin⟩ := h
  have hb := validatePredictionBlocksAgainstFolds_ok hagainst
  obtain ⟨hoof, producers, hj, hne, hids, hcols, hvalues⟩ := joinOofCampaignFeatures_ok hjoin
  have hval := validatePredictionBlocksAreOof_ok.mp hoof hpolicy
  have hget (e : NodeId × ProducerPredictions) (he : e ∈ producers.toList) :
      producers[e.1]? = some e.2 := BTreeMap.mem_toList.mp he
  -- Some block was selected, so validation is among the joined partitions.
  have hin : .validation ∈ effectivePartitions campaign.joinPolicy := by
    obtain ⟨e, he⟩ := List.exists_mem_of_ne_nil producers.toList (by
      rw [ne_eq, Std.ExtTreeMap.toList_eq_nil_iff, ← Std.ExtTreeMap.isEmpty_iff]
      simp [hne])
    obtain ⟨b, hbm, -, hsel⟩ := (hj.selected e.1).mp (BTreeMap.mem_iff.mpr ⟨_, hget e he⟩)
    exact hval b hbm ▸ hsel
  refine ⟨hids, producers.toList.map fun e => (e.1, e.2.targetNames), ?_, fun p => ?_, hcols, ?_⟩
  · rw [List.pairwise_map]
    exact Std.ExtTreeMap.ordered_keys_toList.imp compare_lt_iff_lt.mp
  · rw [List.map_map, show Prod.fst ∘ (fun e : NodeId × ProducerPredictions =>
      (e.1, e.2.targetNames)) = Prod.fst from rfl, Std.ExtTreeMap.map_fst_toList_eq_keys,
      Std.ExtTreeMap.mem_keys, hj.selected]
    exact exists_congr fun b => and_congr_right fun hbm =>
      and_iff_left (hval b hbm ▸ hin)
  · rw [hids]
    refine hvalues.imp ?_
    rintro s row ⟨segments, rfl, hsegments⟩
    refine ⟨segments, rfl, ?_⟩
    rw [List.forall₂_map_left_iff]
    refine ((List.forall₂_and_left _ _).mpr ⟨hget, hsegments⟩).imp ?_
    rintro e segment ⟨he, hsegment⟩
    have hc := hj.collected _ _ he
    refine ⟨?_, hc.heldOutRow hv hb hval hsegment hin⟩
    exact (hc.width _ ((hc.entries _ _).mp hsegment)).trans hc.targets.symm

/-- Two folds, each holding one sample out. -/
def twoFoldCampaign : OofCampaign where
  foldSet := {
    id := "folds"
    sampleIds := [⟨"x1", by decide⟩, ⟨"x2", by decide⟩]
    folds := [
      ⟨⟨"cv0", by decide⟩, [⟨"x2", by decide⟩], [⟨"x1", by decide⟩], ∅⟩,
      ⟨⟨"cv1", by decide⟩, [⟨"x1", by decide⟩], [⟨"x2", by decide⟩], ∅⟩]
    sampleGroups := ∅
    partitionMode := .partition
    trainExclusion := .relations
    targetMissingSampleIds := [] }
  joinPolicy := ⟨⟨"meta", by decide⟩, false, []⟩
  requestedSampleOrder := [⟨"x2", by decide⟩, ⟨"x1", by decide⟩]
  predictionBlocks := [
    { predictionId := none, producerNode := ⟨"model:x", by decide⟩, producerPort := none
      partition := .validation, foldId := some ⟨"cv0", by decide⟩
      sampleIds := [⟨"x1", by decide⟩], values := [[.zero]], targetNames := ["y"] },
    { predictionId := none, producerNode := ⟨"model:x", by decide⟩, producerPort := none
      partition := .validation, foldId := some ⟨"cv1", by decide⟩
      sampleIds := [⟨"x2", by decide⟩], values := [[.negZero]], targetNames := ["y"] }]

theorem validateOofCampaign_heldOut_twoFold :
    ∃ layout : List (NodeId × List String),
      layout.Pairwise (·.1 < ·.1) ∧
      (∀ p, p ∈ layout.map Prod.fst ↔
        ∃ b ∈ twoFoldCampaign.predictionBlocks, b.producerNode = p) ∧
      ["model:x__y"] = columnsOf layout ∧
      List.Forall₂ (fun s row => ∃ segments, row = segments.flatten ∧
        List.Forall₂ (fun column segment => segment.length = column.2.length ∧
          HeldOutRow twoFoldCampaign column.1 s segment) layout segments)
        twoFoldCampaign.requestedSampleOrder [[.negZero], [.zero]] := by
  have h : validateOofCampaign twoFoldCampaign = .ok ⟨twoFoldCampaign.requestedSampleOrder,
      ["model:x__y"], [[.negZero], [.zero]]⟩ := by decide
  exact (validateOofCampaign_heldOut h rfl).2

end DagMl

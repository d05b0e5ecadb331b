import Mathlib
import DagMl.Aggregation.Accumulator
import DagMl.Oof.Block
import DagMl.Policy
import DagMl.Relation.Lookup

/-!
# Aggregating sample predictions by unit

`aggregateSamplePredictionsByUnit` sends each sample to the target or group
its relations name. `orderFree_iff` says when the result, and the lookups
under it, are functions of the set of records.
-/

namespace DagMl

open Checked

inductive PredictionUnitId
  | sample (id : SampleId)
  | target (id : TargetId)
  | group (id : GroupId)
  deriving DecidableEq

namespace PredictionUnitId

def level : PredictionUnitId → PredictionLevel
  | .sample _ => .sample
  | .target _ => .target
  | .group _ => .group

/-- `Display`. -/
def display : PredictionUnitId → String
  | .sample id => s!"sample:{id}"
  | .target id => s!"target:{id}"
  | .group id => s!"group:{id}"

instance : ToString PredictionUnitId := ⟨display⟩

/-- The derived order: variants first, then ids. -/
def orderKey : PredictionUnitId → Nat ×ₗ String
  | .sample id => toLex (0, id.value)
  | .target id => toLex (1, id.value)
  | .group id => toLex (2, id.value)

theorem orderKey_injective : Function.Injective orderKey := by
  intro a b h
  cases a <;> cases b <;> simp [orderKey] at h ⊢ <;> exact Id.value_inj.mp h

instance : LinearOrder PredictionUnitId := LinearOrder.lift' orderKey orderKey_injective

end PredictionUnitId

structure AggregatedPredictionBlock where
  predictionId : Option String
  producerNode : NodeId
  producerPort : Option String
  partition : PredictionPartition
  foldId : Option FoldId
  level : PredictionLevel
  unitIds : List PredictionUnitId
  values : List (List Binary64)
  targetNames : List String
  deriving DecidableEq

def AggregatedPredictionBlock.width (self : AggregatedPredictionBlock) : Nat :=
  match self.values with
  | [] => 0
  | row :: _ => row.length

def AggregatedPredictionBlock.validateShape (self : AggregatedPredictionBlock) : Result Nat := do
  refuseIf (self.unitIds.length ≠ self.values.length) (.oofValidation
    s!"producer `{self.producerNode}` has {self.unitIds.length} aggregated unit ids but {self.values.length} prediction rows")
  refuseIf (∃ unitId ∈ self.unitIds, unitId.level ≠ self.level) (.oofValidation
    s!"producer `{self.producerNode}` emitted aggregated units outside level {self.level.debug}")
  refuseIf (self.unitIds.toFinset.card ≠ self.unitIds.length)
    (.oofValidation s!"producer `{self.producerNode}` emitted duplicate aggregated unit ids")
  refuseIf (self.width = 0)
    (.oofValidation s!"producer `{self.producerNode}` emitted empty aggregated prediction rows")
  refuseIf (∃ row ∈ self.values, row.length ≠ self.width)
    (.oofValidation s!"producer `{self.producerNode}` emitted ragged aggregated prediction rows")
  refuseIf (∃ row ∈ self.values, ∃ v ∈ row, v.isFinite = false) (.oofValidation
    s!"producer `{self.producerNode}` emitted non-finite aggregated prediction values")
  refuseIf (self.targetNames ≠ [] ∧ self.targetNames.length ≠ self.width) (.oofValidation
    s!"producer `{self.producerNode}` has {self.targetNames.length} aggregated target names for width {self.width}")
  pure self.width

-- ---------------------------------------------------------------------------
-- The unit of a sample
-- ---------------------------------------------------------------------------

/-- Relation membership, indexed once for one grouping key. -/
structure AggregationGroupIndex where
  key : String
  recordsBySample : BTreeMap SampleId (List SampleRelation)

def AggregationGroupingKey.index (self : AggregationGroupingKey)
    (relations : SampleRelationSet) : Result AggregationGroupIndex := do
  self.validate
  pure ⟨self.key, BTreeMap.groupBy (·.sampleId) relations.records⟩

/-- One turn of the loop over a sample's records. -/
def independentUnit (key : String) (s : SampleId) (found : Option String)
    (record : SampleRelation) : Result (Option String) := do
  let value := (record.metadata[key]?.bind JsonValue.asStr).filter fun value => !isBlank value
  let value ← need value (.oofValidation s!"sample `{s}` has no independent unit metadata")
  refuseIf (∃ previous ∈ found, previous ≠ value)
    (.oofValidation s!"sample `{s}` has conflicting independent units")
  pure (some value)

def AggregationGroupIndex.groupForSample (self : AggregationGroupIndex) (s : SampleId) :
    Result GroupId := do
  let records ← need self.recordsBySample[s]?
    (.oofValidation s!"sample `{s}` has no attested relation")
  let found ← loop (independentUnit self.key s) none records
  let unit ← need found (.panicked "indexed sample has at least one relation")
  Id.new unit

def unitForSample (relations : SampleRelationSet) (level : PredictionLevel) (s : SampleId)
    (groupingIndex : Option AggregationGroupIndex) : Result PredictionUnitId :=
  match level with
  | .sample => .ok (.sample s)
  | .target => do
    let target ← need (relations.targetForSample s)
      (.oofValidation s!"sample `{s}` is missing target id for target aggregation")
    pure (.target target)
  | .group =>
    match groupingIndex with
    | some index => do
      let group ← index.groupForSample s
      pure (.group group)
    | none => do
      let group ← need (relations.groupForSample s)
        (.oofValidation s!"sample `{s}` is missing group id for group aggregation")
      pure (.group group)
  | .observation => .error (.oofValidation
      "sample prediction aggregation cannot output observation-level predictions")

def sampleWeight (relations : SampleRelationSet) (policy : AggregationPolicy) (s : SampleId) :
    Result Binary64 :=
  if policy.method ≠ .weightedMean then .ok (.ofNat 1)
  else match policy.weights with
    | .repetitionCount => do
      let count := relations.observationCountForSample s
      refuseIf (count = 0) (.oofValidation
        s!"sample `{s}` has no observation relations for repetition_count weights")
      pure (.ofNat count)
    | .controllerEmitted | .quality => .error (.oofValidation
        s!"sample-level {policy.weights.debug} weights are not present in PredictionBlock")
    | .none => .error (.oofValidation
        "weighted_mean aggregation requires an explicit weights policy")

-- ---------------------------------------------------------------------------
-- The aggregation
-- ---------------------------------------------------------------------------

abbrev Accumulators := BTreeMap PredictionUnitId SampleAccumulator

/-- One turn of the loop over the block's rows. -/
def accumulate (relations : SampleRelationSet) (policy : AggregationPolicy)
    (requested : List PredictionUnitId) (groupingIndex : Option AggregationGroupIndex)
    (accumulators : Accumulators) (entry : SampleId × List Binary64) : Result Accumulators := do
  let unitId ← unitForSample relations policy.aggregationLevel entry.1 groupingIndex
  refuseIf (unitId ∉ requested) (.oofValidation
    s!"sample prediction `{entry.1}` maps to unexpected aggregation unit `{unitId}`")
  let weight ← sampleWeight relations policy entry.1
  let accumulator ← need accumulators[unitId]?
    (.panicked "requested aggregation unit accumulator exists")
  pure (accumulators.insert unitId (accumulator.push entry.2 weight))

def reduceUnit (policy : AggregationPolicy) (accumulators : Accumulators)
    (unitId : PredictionUnitId) : Result (List Binary64) := do
  let accumulator ← need accumulators[unitId]?
    (.panicked "requested aggregation unit accumulator exists")
  refuseIf (accumulator.count = 0)
    (.oofValidation s!"aggregation unit `{unitId}` has no sample predictions to aggregate")
  match policy.method with
  | .mean => pure accumulator.mean
  | .weightedMean => accumulator.weightedMean unitId.display
  | .median => pure accumulator.median
  | .vote => pure accumulator.vote
  | .robustMean => pure (accumulator.robustMean defaultRobustTrimFraction)
  | .excludeOutliers => accumulator.hotellingT2ExcludeMean defaultHotellingT2Threshold
  | .none =>
    if accumulator.count = 1 then
      need accumulator.firstRow (.panicked "single prediction accumulator stores first row")
    else .error (.oofValidation
      s!"aggregation unit `{unitId}` has {accumulator.count} sample predictions but aggregation method is none")
  | .customController => .error (.oofValidation
      "aggregation method CustomController is delegated to an aggregation controller")

/-- The suffix a level adds to the prediction id. -/
def levelSuffix : PredictionLevel → String
  | .target => "target_agg"
  | .group => "group_agg"
  | .sample | .observation => "sample_agg"

/-- The rows of the requested samples, of a block that holds no other. -/
def selectSampleRows (block : PredictionBlock) (requestedUnitOrder : List PredictionUnitId) :
    Result AggregatedPredictionBlock := do
  let bySample := BTreeMap.collect block.rows
  let values ← collect requestedUnitOrder fun
    | .sample s => need bySample[s]? (.oofValidation
        s!"sample prediction block for `{block.producerNode}` is missing requested sample `{s}`")
    | _ => .error (.panicked "requested unit level already validated")
  refuseIf (bySample.size ≠ requestedUnitOrder.length) (.oofValidation
    s!"sample prediction block for `{block.producerNode}` contains samples outside requested sample order")
  pure {
    predictionId := block.predictionId, producerNode := block.producerNode
    producerPort := block.producerPort, partition := block.partition, foldId := block.foldId
    level := .sample, unitIds := requestedUnitOrder, values, targetNames := block.targetNames }

def groupingIndexFor (relations : SampleRelationSet) (policy : AggregationPolicy) :
    Result (Option AggregationGroupIndex) :=
  match policy.groupingKey, policy.aggregationLevel with
  | some key, .group => some <$> key.index relations
  | _, _ => pure none

/-- The loop over the block's rows. -/
def accumulateRows (relations : SampleRelationSet) (policy : AggregationPolicy)
    (requested : List PredictionUnitId) (accumulators : Accumulators)
    (rows : List (SampleId × List Binary64)) : Result Accumulators := do
  let groupingIndex ← groupingIndexFor relations policy
  loop (accumulate relations policy requested groupingIndex) accumulators rows

/-- The rows of the block, reduced unit by unit. -/
def reduceByUnit (block : PredictionBlock) (width : Nat) (relations : SampleRelationSet)
    (policy : AggregationPolicy) (requestedUnitOrder : List PredictionUnitId) :
    Result AggregatedPredictionBlock := do
  refuseIf (policy.method = .weightedMean ∧
      (policy.weights = .controllerEmitted ∨ policy.weights = .quality)) (.oofValidation
    s!"sample-to-{policy.aggregationLevel.debug} weighted_mean cannot use {policy.weights.debug} weights without sample-level weights")
  let storeRows := policy.method ∈ [.median, .vote, .robustMean, .excludeOutliers]
  let accumulators := BTreeMap.tabulate requestedUnitOrder fun _ => .new width storeRows
  let accumulators ← accumulateRows relations policy requestedUnitOrder accumulators block.rows
  let values ← collect requestedUnitOrder (reduceUnit policy accumulators)
  pure {
    predictionId := block.predictionId.map fun id => s!"{id}:{levelSuffix policy.aggregationLevel}"
    producerNode := block.producerNode, producerPort := block.producerPort
    partition := block.partition, foldId := block.foldId, level := policy.aggregationLevel
    unitIds := requestedUnitOrder, values, targetNames := block.targetNames }

def aggregateSamplePredictionsByUnit (block : PredictionBlock) (relations : SampleRelationSet)
    (policy : AggregationPolicy) (requestedUnitOrder : List PredictionUnitId) :
    Result AggregatedPredictionBlock := do
  let width ← block.validateContent
  relations.validate
  policy.validate
  refuseIf (requestedUnitOrder = [])
    (.oofValidation "aggregation requested_unit_order is empty")
  refuseIf (policy.aggregationLevel = .observation) (.oofValidation
    "sample prediction aggregation cannot output observation-level predictions")
  refuseIf (∃ unitId ∈ requestedUnitOrder, unitId.level ≠ policy.aggregationLevel) (.oofValidation
    s!"aggregation requested units do not match level {policy.aggregationLevel.debug}")
  refuseIf (requestedUnitOrder.toFinset.card ≠ requestedUnitOrder.length)
    (.oofValidation "aggregation requested_unit_order contains duplicates")
  let aggregated ←
    if policy.aggregationLevel = .sample then selectSampleRows block requestedUnitOrder
    else reduceByUnit block width relations policy requestedUnitOrder
  let _ ← aggregated.validateShape
  pure aggregated

-- ---------------------------------------------------------------------------
-- Order of the records
-- ---------------------------------------------------------------------------

/-- The independent unit a record names. -/
def unitValue (key : String) (record : SampleRelation) : Option String :=
  (record.metadata[key]?.bind JsonValue.asStr).filter fun value => !isBlank value

theorem independentUnit_ok : independentUnit key s found r = .ok found' ↔
    ∃ v, unitValue key r = some v ∧ (∀ p ∈ found, p = v) ∧ found' = some v := by
  simp only [independentUnit, bind_ok, need_ok, refuseIf_ok, pure_ok, unitValue, not_exists,
    not_and, not_not, exists_const]
  exact exists_congr fun v => and_congr_right fun _ => and_congr_right fun _ => eq_comm

/-- The loop over the records of a sample succeeds when all of them name one
unit, which is its result. -/
theorem independentUnit_loop (h : records ≠ []) :
    loop (independentUnit key s) found records = .ok found' ↔
      ∃ v, (∀ r ∈ records, unitValue key r = some v) ∧ (∀ p ∈ found, p = v) ∧ found' = some v := by
  induction records generalizing found with
  | nil => exact absurd rfl h
  | cons r rs ih =>
    rw [loop_cons]
    constructor
    · rintro ⟨_, hstep, hrest⟩
      obtain ⟨v, hv, hp, rfl⟩ := independentUnit_ok.mp hstep
      refine ⟨v, ?_, hp, ?_⟩
      all_goals by_cases hrs : rs = []
      · simp [hrs, hv]
      · obtain ⟨w, hw, hvw, -⟩ := (ih hrs).mp hrest
        rw [List.forall_mem_cons]
        exact ⟨hv, (hvw v rfl).symm ▸ hw⟩
      · simpa [hrs, eq_comm] using hrest
      · obtain ⟨w, -, hvw, hf⟩ := (ih hrs).mp hrest
        rw [hf, hvw v rfl]
    · rintro ⟨v, hv, hp, rfl⟩
      rw [List.forall_mem_cons] at hv
      refine ⟨some v, independentUnit_ok.mpr ⟨v, hv.1, hp, rfl⟩, ?_⟩
      by_cases hrs : rs = []
      · simp [hrs]
      · exact (ih hrs).mpr ⟨v, hv.2, by simp, rfl⟩

variable {relations other : SampleRelationSet}

theorem groupForSample_agree (key : String) (s : SampleId)
    (hp : other.records.Perm relations.records) :
    Agree ((AggregationGroupIndex.mk key (BTreeMap.groupBy (·.sampleId) other.records)).groupForSample s)
      ((AggregationGroupIndex.mk key
        (BTreeMap.groupBy (·.sampleId) relations.records)).groupForSample s) := by
  have hfilter := hp.filter (·.sampleId = s)
  rw [agree_iff]
  intro g
  simp only [AggregationGroupIndex.groupForSample, bind_ok, need_ok, BTreeMap.getElem?_groupBy]
  by_cases hnil : relations.records.filter (·.sampleId = s) = []
  · have hnil' : other.records.filter (·.sampleId = s) = [] := (hnil ▸ hfilter).eq_nil
    simp [hnil, hnil']
  · have hnil' : other.records.filter (·.sampleId = s) ≠ [] := by
      intro h
      exact hnil (h ▸ hfilter).nil_eq.symm
    simp only [hnil, hnil', if_false, Option.some.injEq, exists_eq_left', independentUnit_loop hnil,
      independentUnit_loop hnil', hfilter.mem_iff]

theorem sampleWeight_perm (policy : AggregationPolicy) (s : SampleId)
    (hp : other.records.Perm relations.records) :
    sampleWeight other policy s = sampleWeight relations policy s := by
  simp only [sampleWeight, SampleRelationSet.observationCountForSample_perm hp]

/-- All records of a sample name a target or none does, and so for groups. -/
structure SampleRelationSet.Uniform (relations : SampleRelationSet) : Prop where
  target : relations.UniformIn (·.targetId)
  group : relations.UniformIn (·.groupId)

/-- The lookups of a set, and the aggregation over them, do not depend on the
order of its records. -/
structure OrderFree (relations : SampleRelationSet) : Prop where
  target : ∀ s, relations.targetForSample s = relations.sampleTargets[s]?
  group : ∀ s, relations.groupForSample s = relations.sampleGroups[s]?
  perm : ∀ other : SampleRelationSet, other.records.Perm relations.records →
    (∀ s, other.targetForSample s = relations.targetForSample s) ∧
    (∀ s, other.groupForSample s = relations.groupForSample s) ∧
    other.sampleTargets = relations.sampleTargets ∧
    other.sampleGroups = relations.sampleGroups ∧
    ∀ block policy requestedUnitOrder,
      Agree (aggregateSamplePredictionsByUnit block other policy requestedUnitOrder)
        (aggregateSamplePredictionsByUnit block relations policy requestedUnitOrder)

/-- Two sets of the same records whose first-record lookups agree. -/
structure SameLookups (other relations : SampleRelationSet) : Prop where
  perm : other.records.Perm relations.records
  target : ∀ s, other.targetForSample s = relations.targetForSample s
  group : ∀ s, other.groupForSample s = relations.groupForSample s

theorem SampleRelationSet.Uniform.sameLookups (hv : relations.Valid) (hu : relations.Uniform)
    (hp : other.records.Perm relations.records) : SameLookups other relations := by
  have hv' : other.Valid := hv.perm hp.symm
  refine ⟨hp, fun s => ?_, fun s => ?_⟩
  · rw [targetForSample, targetForSample, firstNamed_eq_collected hv.consistent_target hu.target,
      firstNamed_eq_collected hv'.consistent_target (hu.target.perm hp),
      collected_perm hv.consistent_target hp]
  · rw [groupForSample, groupForSample, firstNamed_eq_collected hv.consistent_group hu.group,
      firstNamed_eq_collected hv'.consistent_group (hu.group.perm hp),
      collected_perm hv.consistent_group hp]

theorem SameLookups.unitForSample_agree (h : SameLookups other relations)
    (level : PredictionLevel) (s : SampleId) (key : Option String) :
    Agree
      (unitForSample other level s
        (key.map fun k => ⟨k, BTreeMap.groupBy (·.sampleId) other.records⟩))
      (unitForSample relations level s
        (key.map fun k => ⟨k, BTreeMap.groupBy (·.sampleId) relations.records⟩)) := by
  cases level with
  | observation => exact Agree.rfl
  | sample => exact Agree.rfl
  | target =>
    simp only [unitForSample, h.target]
    exact Agree.rfl
  | group =>
    cases key with
    | none =>
      simp only [unitForSample, h.group, Option.map_none]
      exact Agree.rfl
    | some k => exact (groupForSample_agree k s h.perm).bind fun _ _ => Agree.rfl

theorem SameLookups.accumulate_agree (h : SameLookups other relations) (key : Option String)
    (accumulators : Accumulators) (entry : SampleId × List Binary64) :
    Agree
      (accumulate other policy requested
        (key.map fun k => ⟨k, BTreeMap.groupBy (·.sampleId) other.records⟩) accumulators entry)
      (accumulate relations policy requested
        (key.map fun k => ⟨k, BTreeMap.groupBy (·.sampleId) relations.records⟩)
        accumulators entry) := by
  refine (h.unitForSample_agree policy.aggregationLevel entry.1 key).bind fun unitId _ => ?_
  rw [sampleWeight_perm policy entry.1 h.perm]
  exact Agree.rfl

/-- The grouping key alone decides whether there is an index. -/
theorem groupingIndexFor_cases (policy : AggregationPolicy) :
    (∃ e, ∀ relations, groupingIndexFor relations policy = .error e) ∨
      ∃ key : Option String, ∀ relations, groupingIndexFor relations policy =
        .ok (key.map fun k => ⟨k, BTreeMap.groupBy (·.sampleId) relations.records⟩) := by
  unfold groupingIndexFor
  split
  · rename_i key _ _
    cases hkey : key.validate with
    | error e =>
      left
      refine ⟨e, fun relations => ?_⟩
      simp only [AggregationGroupingKey.index, hkey]
      rfl
    | ok u =>
      right
      refine ⟨some key.key, fun relations => ?_⟩
      simp only [AggregationGroupingKey.index, hkey]
      rfl
  · exact .inr ⟨none, fun _ => rfl⟩

theorem SameLookups.accumulateRows_agree (h : SameLookups other relations) :
    Agree (accumulateRows other policy requested accumulators rows)
      (accumulateRows relations policy requested accumulators rows) := by
  rw [agree_iff]
  intro final
  simp only [accumulateRows, bind_ok]
  rcases groupingIndexFor_cases policy with ⟨e, he⟩ | ⟨key, hkey⟩
  · simp [he]
  · simp only [hkey, Except.ok.injEq, exists_eq_left']
    exact agree_iff.mp
      (loop_agree fun accumulators entry _ => h.accumulate_agree key accumulators entry) final

theorem SameLookups.reduceByUnit_agree (h : SameLookups other relations) :
    Agree (reduceByUnit block width other policy requestedUnitOrder)
      (reduceByUnit block width relations policy requestedUnitOrder) := by
  unfold reduceByUnit
  exact Agree.rfl.bind fun _ _ => h.accumulateRows_agree.bind fun _ _ => Agree.rfl

theorem SameLookups.aggregate_agree (hv : relations.Valid) (h : SameLookups other relations) :
    Agree (aggregateSamplePredictionsByUnit block other policy requestedUnitOrder)
      (aggregateSamplePredictionsByUnit block relations policy requestedUnitOrder) := by
  have hvalidate : other.validate = .ok () := SampleRelationSet.validate_ok.mpr (hv.perm h.perm.symm)
  have hvalidate' : relations.validate = .ok () := SampleRelationSet.validate_ok.mpr hv
  unfold aggregateSamplePredictionsByUnit
  rw [hvalidate, hvalidate']
  refine Agree.rfl.bind fun width _ => Agree.rfl.bind fun _ _ => Agree.rfl.bind fun _ _ =>
    Agree.rfl.bind fun _ _ => Agree.rfl.bind fun _ _ => Agree.rfl.bind fun _ _ =>
    Agree.rfl.bind fun _ _ => ?_
  split
  · exact Agree.rfl
  · exact h.reduceByUnit_agree.bind fun _ _ => Agree.rfl

/-- A valid set is order-free exactly when its records are uniform. -/
theorem orderFree_iff (hv : relations.Valid) : OrderFree relations ↔ relations.Uniform := by
  constructor
  · intro h
    exact ⟨SampleRelationSet.uniformIn_of_perm fun other hp => (h.perm other hp).1,
      SampleRelationSet.uniformIn_of_perm fun other hp => (h.perm other hp).2.1⟩
  · intro hu
    refine ⟨fun s => SampleRelationSet.firstNamed_eq_collected hv.consistent_target hu.target,
      fun s => SampleRelationSet.firstNamed_eq_collected hv.consistent_group hu.group, fun other hp => ?_⟩
    have hl := hu.sameLookups hv hp
    exact ⟨hl.target, hl.group, SampleRelationSet.collected_perm hv.consistent_target hp,
      SampleRelationSet.collected_perm hv.consistent_group hp,
      fun block policy order => hl.aggregate_agree hv⟩

/-- One sample with two records, of which only the second names its target. -/
def mixedRelations : SampleRelationSet where
  records := [
    SampleRelation.new ⟨"obs:1", by decide⟩ ⟨"sample1", by decide⟩,
    { SampleRelation.new ⟨"obs:2", by decide⟩ ⟨"sample1", by decide⟩ with
      targetId := some ⟨"t1", by decide⟩ }]

/-- The two lookups disagree on the mixed sample. -/
theorem mixed_target_disagrees :
    mixedRelations.Valid ∧ mixedRelations.targetForSample ⟨"sample1", by decide⟩ = none ∧
      mixedRelations.sampleTargets[(⟨"sample1", by decide⟩ : SampleId)]? = some ⟨"t1", by decide⟩ ∧
      ¬OrderFree mixedRelations := by
  have hfirst : mixedRelations.targetForSample ⟨"sample1", by decide⟩ = none := by decide
  have hall : mixedRelations.sampleTargets[(⟨"sample1", by decide⟩ : SampleId)]? =
      some ⟨"t1", by decide⟩ := by decide
  have haccepted : mixedRelations.validate = .ok () := by decide
  refine ⟨SampleRelationSet.validate_ok.mp haccepted, hfirst, hall, fun h => ?_⟩
  have hsame := h.target ⟨"sample1", by decide⟩
  rw [hfirst, hall] at hsame
  cases hsame

/-- A set of one record is order-free. -/
theorem orderFree_iff_single :
    OrderFree ⟨[SampleRelation.new ⟨"obs:1", by decide⟩ ⟨"sample1", by decide⟩]⟩ := by
  have haccepted : SampleRelationSet.validate
      ⟨[SampleRelation.new ⟨"obs:1", by decide⟩ ⟨"sample1", by decide⟩]⟩ = .ok () := by decide
  refine (orderFree_iff (SampleRelationSet.validate_ok.mp haccepted)).mpr ⟨?_, ?_⟩ <;> intro r hr r' hr' _ h
  all_goals
    rw [List.mem_singleton] at hr hr'
    rw [hr', ← hr]
    exact h

end DagMl

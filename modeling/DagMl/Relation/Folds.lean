import Mathlib
import DagMl.Fold.Basic
import DagMl.Policy
import DagMl.Relation.Lookup

/-!
# Relations against folds

`validateAgainstFoldSet` keeps an augmented sample on the side of its origin.
A record whose sample or origin is not in a fold says nothing about that
fold, so what is kept together is the family linked inside the fold.
-/

namespace DagMl

open Checked

inductive FoldPartition
  | train
  | validation
  deriving DecidableEq

/-- `{:?}`. -/
def FoldPartition.debug : FoldPartition → String
  | .train => "Train"
  | .validation => "Validation"

namespace SampleRelationSet

/-- Where each member of the fold stands. -/
def partitionsOf (fold : FoldAssignment) : BTreeMap SampleId FoldPartition :=
  BTreeMap.collect (fold.trainSampleIds.map (·, .train) ++
    fold.validationSampleIds.map (·, .validation))

/-- One turn of the loop over the records. -/
def validateMembership (foldSet : FoldSet) (policy : LeakageUnitPolicy)
    (record : SampleRelation) : Result Unit := do
  let known := foldSet.sampleIds ++ foldSet.targetMissingSampleIds
  refuseIf (record.sampleId ∉ known) (.campaignValidation
    s!"relation `{record.observationId}` references sample `{record.sampleId}` outside fold set")
  whenSome record.originSampleId fun origin =>
    refuseIf (origin ∉ known) (.campaignValidation
      s!"relation `{record.observationId}` references origin sample `{origin}` outside fold set")
  refuseIf (policy.forbidOriginCrossFold ∧ record.isAugmented ∧ record.originSampleId = none ∧
      allowSampleAugmentationWithoutOrigin ∉ policy.unsafeFlags)
    (.campaignValidation s!"augmented relation `{record.observationId}` requires origin_sample_id")
  refuseIf (policy.requireGroupIds ∧ record.groupId = none)
    (.campaignValidation s!"relation `{record.observationId}` is missing required group id")

def validateFoldSetGroupsMatchRelations (foldSet : FoldSet)
    (sampleToGroup : BTreeMap SampleId GroupId) : Result Unit :=
  each foldSet.sampleGroups.toList fun (s, foldGroup) =>
    whenSome sampleToGroup[s]? fun relationGroup =>
      refuseIf (relationGroup ≠ foldGroup) (.campaignValidation
        s!"sample `{s}` has group `{relationGroup}` in relations but `{foldGroup}` in fold set")

def validateOriginPartition (fold : FoldAssignment) (record : SampleRelation) : Result Unit :=
  whenSome record.originSampleId fun origin =>
    match (partitionsOf fold)[record.sampleId]?, (partitionsOf fold)[origin]? with
    | some samplePartition, some originPartition =>
      refuseIf (samplePartition ≠ originPartition) (.campaignValidation
        s!"fold `{fold.foldId}` leaks origin sample `{origin}` into {samplePartition.debug} sample `{record.sampleId}`")
    -- An end outside the fold: the record is skipped.
    | _, _ => .ok ()

def validateUnitPartitions [LinearOrder U] [ToString U] (foldId label : String)
    (partitions : BTreeMap SampleId FoldPartition) (sampleUnits : BTreeMap SampleId U) :
    Result Unit := do
  let _ ← loop (fun (unitPartitions : BTreeMap U FoldPartition) (s, partition) => do
    let unit ← need sampleUnits[s]?
      (.campaignValidation s!"fold `{foldId}` sample `{s}` is missing {label} id")
    whenSome unitPartitions[unit]? fun previous => refuseIf (previous ≠ partition)
      (.campaignValidation s!"fold `{foldId}` leaks {label} `{unit}` across train/validation")
    pure (unitPartitions.insert unit partition)) ∅ partitions.toList
  pure ()

/-- One turn of the loop over the folds. -/
def validateFold (self : SampleRelationSet) (policy : LeakageUnitPolicy)
    (fold : FoldAssignment) : Result Unit := do
  checkIf policy.forbidOriginCrossFold (each self.records (validateOriginPartition fold))
  match policy.splitUnit with
  | .physicalSample | .observation | .sample => pure ()
  | .target =>
    validateUnitPartitions fold.foldId.value "target" (partitionsOf fold) self.sampleTargets
  | .group =>
    validateUnitPartitions fold.foldId.value "group" (partitionsOf fold) self.sampleGroups

def validateAgainstFoldSet (self : SampleRelationSet) (foldSet : FoldSet)
    (policy : LeakageUnitPolicy) : Result Unit := do
  self.validate
  foldSet.validate
  policy.validate
  each self.records (validateMembership foldSet policy)
  validateFoldSetGroupsMatchRelations foldSet self.sampleGroups
  each foldSet.folds (self.validateFold policy)

-- ---------------------------------------------------------------------------
-- Families inside a fold
-- ---------------------------------------------------------------------------

/-- A record names `b` as the origin of `a`. -/
def HasOrigin (relations : SampleRelationSet) (a b : SampleId) : Prop :=
  ∃ r ∈ relations.records, r.sampleId = a ∧ r.originSampleId = some b

/-- Linked by origin references, in either direction and through any sample. -/
def Family (relations : SampleRelationSet) : SampleId → SampleId → Prop :=
  Relation.EqvGen relations.HasOrigin

/-- The sample is in the fold's train or validation list. -/
def Member (fold : FoldAssignment) (s : SampleId) : Prop :=
  s ∈ fold.trainSampleIds ∨ s ∈ fold.validationSampleIds

/-- Linked by origin references between members of the fold only. -/
def FamilyIn (relations : SampleRelationSet) (fold : FoldAssignment) : SampleId → SampleId → Prop :=
  Relation.EqvGen fun a b => relations.HasOrigin a b ∧ Member fold a ∧ Member fold b

/-- The members of one side. -/
def side (fold : FoldAssignment) : FoldPartition → List SampleId
  | .train => fold.trainSampleIds
  | .validation => fold.validationSampleIds

variable {foldSet : FoldSet}

theorem partitionsOf_get (hf : foldSet.ValidFold fold) :
    (partitionsOf fold)[s]? = some partition ↔ s ∈ side fold partition := by
  have mem_iff (s : SampleId) (partition : FoldPartition) :
      (s, partition) ∈ fold.trainSampleIds.map (·, FoldPartition.train) ++
          fold.validationSampleIds.map (·, FoldPartition.validation) ↔
        s ∈ side fold partition := by
    cases partition <;> simp [side]
  rw [partitionsOf, BTreeMap.getElem?_collect, mem_iff]
  intro s a b ha hb
  rw [mem_iff] at ha hb
  cases a <;> cases b
  case train.train | validation.validation => rfl
  case train.validation => exact absurd ha (hf.disjoint s hb)
  case validation.train => exact absurd hb (hf.disjoint s ha)

theorem Member.partition (hf : foldSet.ValidFold fold) (h : Member fold s) :
    ∃ partition, (partitionsOf fold)[s]? = some partition := by
  rcases h with h | h
  · exact ⟨.train, (partitionsOf_get hf).mpr h⟩
  · exact ⟨.validation, (partitionsOf_get hf).mpr h⟩

/-- One origin reference inside the fold joins members of one side. -/
theorem validateOriginPartition_ok (hf : foldSet.ValidFold fold)
    (h : validateOriginPartition fold r = .ok u) (ho : r.originSampleId = some origin)
    (hr : Member fold r.sampleId) (horigin : Member fold origin) :
    (partitionsOf fold)[r.sampleId]? = (partitionsOf fold)[origin]? := by
  obtain ⟨p, hp⟩ := hr.partition hf
  obtain ⟨q, hq⟩ := horigin.partition hf
  simp only [validateOriginPartition, whenSome_ok] at h
  have hpq := h origin ho
  simp only [hp, hq, refuseIf_ok, not_not] at hpq
  rw [hp, hq, hpq]

theorem validateAgainstFoldSet_ok {relations : SampleRelationSet}
    (h : relations.validateAgainstFoldSet foldSet policy = .ok u) :
    foldSet.Valid ∧ ∀ fold ∈ foldSet.folds, policy.forbidOriginCrossFold = true →
      ∀ r ∈ relations.records, validateOriginPartition fold r = .ok () := by
  simp only [validateAgainstFoldSet, bind_ok, FoldSet.validate_ok, each_ok] at h
  obtain ⟨_, -, _, hv, _, -, _, -, _, -, hfolds⟩ := h
  refine ⟨hv, fun fold hm hp => ?_⟩
  have hfold := hfolds fold hm
  simp only [validateFold, bind_ok, checkIf_ok, each_ok] at hfold
  obtain ⟨_, horigin, -⟩ := hfold
  exact horigin hp

/-- Members of one family inside the fold are on one side: by induction on
the chain of origin references. -/
theorem FamilyIn.partition_eq {relations : SampleRelationSet} (hf : foldSet.ValidFold fold)
    (h : ∀ r ∈ relations.records, validateOriginPartition fold r = .ok ())
    (hfam : relations.FamilyIn fold a b) :
    (partitionsOf fold)[a]? = (partitionsOf fold)[b]? := by
  induction hfam with
  | rel a b hab =>
    obtain ⟨⟨r, hr, rfl, ho⟩, ha, hb⟩ := hab
    exact validateOriginPartition_ok hf (h r hr) ho ha hb
  | refl a => rfl
  | symm a b _ ih => exact ih.symm
  | trans a b c _ _ ihab ihbc => exact ihab.trans ihbc

/-- In every fold of an accepted set, samples linked through members of the
fold are on one side. -/
theorem validateAgainstFoldSet_family {relations : SampleRelationSet}
    (h : relations.validateAgainstFoldSet foldSet policy = .ok ())
    (hp : policy.forbidOriginCrossFold = true) (hm : fold ∈ foldSet.folds)
    (ha : a ∈ fold.trainSampleIds) (hb : b ∈ fold.validationSampleIds) :
    ¬relations.FamilyIn fold a b := by
  intro hfam
  obtain ⟨hv, horigin⟩ := validateAgainstFoldSet_ok h
  have hf := hv.folds_valid fold hm
  have htrain : (partitionsOf fold)[a]? = some .train := (partitionsOf_get hf).mpr ha
  have hvalidation : (partitionsOf fold)[b]? = some .validation := (partitionsOf_get hf).mpr hb
  have heq := hfam.partition_eq hf (horigin fold hm hp)
  rw [htrain, hvalidation] at heq
  cases heq

/-- `b` is an augmented copy of `a` under an origin `m` without a target. -/
def siblingRelations : SampleRelationSet where
  records := [
    { SampleRelation.new ⟨"obs:a", by decide⟩ ⟨"a", by decide⟩ with
      originSampleId := some ⟨"m", by decide⟩, isAugmented := true },
    { SampleRelation.new ⟨"obs:b", by decide⟩ ⟨"b", by decide⟩ with
      originSampleId := some ⟨"m", by decide⟩, isAugmented := true }]

def siblingFold : FoldAssignment where
  foldId := ⟨"f0", by decide⟩
  trainSampleIds := [⟨"a", by decide⟩]
  validationSampleIds := [⟨"b", by decide⟩]

def siblingFoldSet : FoldSet where
  id := "folds"
  sampleIds := [⟨"a", by decide⟩, ⟨"b", by decide⟩]
  folds := [siblingFold, ⟨⟨"f1", by decide⟩, [⟨"b", by decide⟩], [⟨"a", by decide⟩], ∅⟩]
  sampleGroups := ∅
  partitionMode := .partition
  trainExclusion := .relations
  targetMissingSampleIds := [⟨"m", by decide⟩]

/-- Siblings whose shared origin is target-missing are split by an accepted set. -/
theorem sibling_split_accepted :
    siblingRelations.validateAgainstFoldSet siblingFoldSet .default = .ok () ∧
      LeakageUnitPolicy.default.forbidOriginCrossFold = true ∧
      siblingFold ∈ siblingFoldSet.folds ∧
      ⟨"a", by decide⟩ ∈ siblingFold.trainSampleIds ∧
      ⟨"b", by decide⟩ ∈ siblingFold.validationSampleIds ∧
      siblingRelations.Family ⟨"a", by decide⟩ ⟨"b", by decide⟩ := by
  refine ⟨by decide, rfl, .head _, by decide, by decide, ?_⟩
  refine .trans _ ⟨"m", by decide⟩ _ (.rel _ _ ?_) (.symm _ _ (.rel _ _ ?_))
  · exact ⟨_, .head _, rfl, rfl⟩
  · exact ⟨_, .tail _ (.head _), rfl, rfl⟩

/-- The same set keeps `a` and `b` out of one family of the fold. -/
theorem validateAgainstFoldSet_family_sibling :
    ¬siblingRelations.FamilyIn siblingFold ⟨"a", by decide⟩ ⟨"b", by decide⟩ := by
  have h : siblingRelations.validateAgainstFoldSet siblingFoldSet .default = .ok () := by decide
  exact validateAgainstFoldSet_family h rfl (.head _) (by decide) (by decide)

end SampleRelationSet

end DagMl

import DagMl.Fold.Splitters

/-!
# Nested folds

The inner fold set of one outer fold is built from that fold's training
samples. `buildNestedFoldSet_ok` reads off a success; `build_agree` compares
two runs whose group and label maps agree on the training samples.
-/

namespace DagMl

open Checked

structure StratifiedNestedCvSpec where
  splitter : StratifiedKFoldSpec
  strata : BTreeMap SampleId String

structure CapacityKFoldSpec where
  minSplits : Nat
  maxSplits : Nat
  shuffle : Bool
  seed : Option UInt64

inductive NestedCvSpec
  | kFold (spec : KFoldSpec)
  /-- Resolved to `kFold` before folds are built. -/
  | capacityKFold (spec : CapacityKFoldSpec)
  | groupKFold (spec : GroupKFoldSpec)
  | stratifiedKFold (spec : StratifiedNestedCvSpec)

structure NestedFoldSet where
  parentOuterFoldId : FoldId
  innerFoldSet : FoldSet

def validateInnerFoldSetWithinOuter (inner : FoldSet) (outer : FoldAssignment) :
    Result Unit := do
  inner.validate
  let ensureTrain (s : SampleId) : Result Unit :=
    refuseIf (s ∉ outer.trainSampleIds) (.oofValidation
      s!"nested CV leakage: inner-CV sample `{s}` for outer fold `{outer.foldId}` is not an outer training sample")
  each inner.sampleIds ensureTrain
  each inner.folds fun fold =>
    each (fold.trainSampleIds ++ fold.validationSampleIds) ensureTrain

def NestedFoldSet.validateForOuter (self : NestedFoldSet) (outer : FoldAssignment) :
    Result Unit := do
  refuseIf (self.parentOuterFoldId ≠ outer.foldId) (.oofValidation
    s!"nested CV parent fold `{self.parentOuterFoldId}` does not match outer fold `{outer.foldId}`")
  validateInnerFoldSetWithinOuter self.innerFoldSet outer

namespace NestedCvSpec

variable (sha256 : Digest)

/-- The fold set of the spec's splitter, before its folds are renamed. -/
def splitInner (self : NestedCvSpec) (outer : FoldAssignment)
    (outerGroups : BTreeMap SampleId GroupId) : Result FoldSet :=
  let innerId := s!"{outer.foldId}.inner"
  match self with
  | .kFold spec => spec.split sha256 innerId outer.trainSampleIds
  | .capacityKFold _ => .error (.oofValidation
      "capacity KFold must be resolved against graph fit-capacity hints before building folds")
  | .groupKFold spec =>
    spec.split innerId (outerGroups.restrict (· ∈ outer.trainSampleIds))
  | .stratifiedKFold spec =>
    spec.splitter.split sha256 innerId outer.trainSampleIds
      (spec.strata.restrict (· ∈ outer.trainSampleIds))

/-- `matches!(self, Self::GroupKFold(_))`. -/
def isGroupKFold : NestedCvSpec → Bool
  | .groupKFold _ => true
  | _ => false

def buildNestedFoldSet (self : NestedCvSpec) (outer : FoldAssignment)
    (outerGroups : BTreeMap SampleId GroupId) : Result NestedFoldSet := do
  refuseIf (!outerGroups.isEmpty ∧ !self.isGroupKFold)
    (.oofValidation "grouped samples require a group-aware inner CV policy")
  let inner ← self.splitInner sha256 outer outerGroups
  -- Local fold names would collide across outer folds.
  let folds ← collect inner.folds fun fold => do
    let foldId ← Id.new s!"{outer.foldId}.inner.{fold.foldId}"
    pure { fold with foldId }
  let nested : NestedFoldSet := ⟨outer.foldId, { inner with folds }⟩
  nested.validateForOuter outer
  pure nested

def buildInnerFoldSet (self : NestedCvSpec) (outer : FoldAssignment)
    (outerGroups : BTreeMap SampleId GroupId) : Result FoldSet := do
  let nested ← self.buildNestedFoldSet sha256 outer outerGroups
  pure nested.innerFoldSet

end NestedCvSpec

def FoldSet.nestedFoldSet (sha256 : Digest) (self : FoldSet) (spec : NestedCvSpec)
    (outer : FoldAssignment) : Result NestedFoldSet := do
  let nested ← spec.buildNestedFoldSet sha256 outer self.sampleGroups
  let inner := { nested.innerFoldSet with
    trainExclusion := self.trainExclusion
    targetMissingSampleIds := self.targetMissingSampleIds }
  inner.validate
  pure { nested with innerFoldSet := inner }

-- ---------------------------------------------------------------------------
-- What a nested fold set satisfies
-- ---------------------------------------------------------------------------

/-- The inner folds partition the outer training samples, and neither they
nor their groups meet anything else. -/
structure NestedIn (outer : FoldAssignment) (outerGroups : BTreeMap SampleId GroupId)
    (nested : NestedFoldSet) : Prop where
  valid : nested.innerFoldSet.Valid
  parent : nested.parentOuterFoldId = outer.foldId
  samples_train : ∀ s ∈ nested.innerFoldSet.sampleIds, s ∈ outer.trainSampleIds
  folds_train : ∀ fold ∈ nested.innerFoldSet.folds,
    ∀ s ∈ fold.trainSampleIds ++ fold.validationSampleIds, s ∈ outer.trainSampleIds
  disjoint : ∀ fold ∈ nested.innerFoldSet.folds,
    ∀ s ∈ fold.validationSampleIds, s ∉ fold.trainSampleIds
  boundary : ∀ fold ∈ nested.innerFoldSet.folds, FoldSet.GroupBoundary outerGroups fold
  validated_once : ∀ s ∈ outer.trainSampleIds,
    ∃! fold, fold ∈ nested.innerFoldSet.folds ∧ s ∈ fold.validationSampleIds

theorem validateInnerFoldSetWithinOuter_ok {inner : FoldSet} :
    validateInnerFoldSetWithinOuter inner outer = .ok u ↔
      inner.Valid ∧ (∀ s ∈ inner.sampleIds, s ∈ outer.trainSampleIds) ∧
        ∀ fold ∈ inner.folds, ∀ s ∈ fold.trainSampleIds ++ fold.validationSampleIds,
          s ∈ outer.trainSampleIds := by
  simp only [validateInnerFoldSetWithinOuter, bind_ok, FoldSet.validate_ok, each_ok, refuseIf_ok,
    not_not]
  constructor
  · rintro ⟨_, hv, _, hs, hf⟩
    exact ⟨hv, hs, hf⟩
  · rintro ⟨hv, hs, hf⟩
    exact ⟨(), hv, (), hs, hf⟩

/-- The map of a fold set that has `outer`: empty, or knowing its samples. -/
def GroupsFor (outer : FoldAssignment) (groups : BTreeMap SampleId GroupId) : Prop :=
  groups.isEmpty ∨ ∀ s ∈ outer.trainSampleIds, s ∈ groups

theorem FoldSet.Valid.groupsFor {foldSet : FoldSet} (hv : foldSet.Valid)
    (hm : outer ∈ foldSet.folds) : GroupsFor outer foldSet.sampleGroups :=
  hv.groups_known.imp_right fun h s hs => (h s).mpr ((hv.folds_valid outer hm).train_known s hs)

/-- The training part of a group map. -/
abbrev trainGroups (outer : FoldAssignment) (outerGroups : BTreeMap SampleId GroupId) :
    BTreeMap SampleId GroupId :=
  outerGroups.restrict (· ∈ outer.trainSampleIds)

theorem getElem?_trainGroups {outerGroups : BTreeMap SampleId GroupId} :
    (trainGroups outer outerGroups)[s]? =
      if s ∈ outer.trainSampleIds then outerGroups[s]? else none := by
  rw [trainGroups, BTreeMap.getElem?_restrict]
  simp

theorem NestedCvSpec.splitInner_ok {self : NestedCvSpec} {inner : FoldSet}
    {outerGroups : BTreeMap SampleId GroupId}
    (hg : GroupsFor outer outerGroups)
    (hguard : outerGroups.isEmpty ∨ self.isGroupKFold)
    (h : self.splitInner sha256 outer outerGroups = .ok inner) :
    SplitOf outer.trainSampleIds (trainGroups outer outerGroups) inner := by
  have hempty (he : outerGroups.isEmpty) : trainGroups outer outerGroups = ∅ := by
    rw [Std.ExtTreeMap.isEmpty_iff.mp he]
    exact BTreeMap.ext fun s => by rw [getElem?_trainGroups]; simp
  cases self with
  | kFold spec =>
    rw [hempty (by simpa [isGroupKFold] using hguard)]
    exact KFoldSpec.split_ok sha256 h
  | capacityKFold spec => cases h
  | stratifiedKFold spec =>
    rw [hempty (by simpa [isGroupKFold] using hguard)]
    exact StratifiedKFoldSpec.split_ok sha256 h
  | groupKFold spec =>
    have hs : SplitOf (trainGroups outer outerGroups).keys (trainGroups outer outerGroups) inner :=
      GroupKFoldSpec.split_ok h
    rcases hg with he | hg
    · -- Without groups the splitter has no sample to place.
      obtain ⟨s, hm⟩ := List.exists_mem_of_ne_nil _ hs.valid.samples_ne
      rw [hs.samples_iff, Std.ExtTreeMap.mem_keys, BTreeMap.mem_iff, hempty he] at hm
      simp at hm
    · refine ⟨hs.valid, fun s => ?_, hs.groups_eq, hs.mode_eq⟩
      rw [hs.samples_iff, Std.ExtTreeMap.mem_keys, BTreeMap.mem_iff, getElem?_trainGroups]
      split
      · rename_i hm
        simpa [hm] using BTreeMap.mem_iff.mp (hg s hm)
      · rename_i hm
        simp [hm]

theorem NestedCvSpec.buildNestedFoldSet_ok {self : NestedCvSpec}
    {outerGroups : BTreeMap SampleId GroupId}
    (hg : GroupsFor outer outerGroups)
    (h : self.buildNestedFoldSet sha256 outer outerGroups = .ok nested) :
    NestedIn outer outerGroups nested := by
  simp only [buildNestedFoldSet, NestedFoldSet.validateForOuter, bind_ok, refuseIf_ok, collect_ok,
    pure_ok, validateInnerFoldSetWithinOuter_ok] at h
  obtain ⟨_, hguard, inner, hinner, folds, -, _, ⟨_, -, hv, hs, hf⟩, rfl⟩ := h
  have hsplit := splitInner_ok hg (by simpa [or_iff_not_imp_left] using hguard) hinner
  refine ⟨hv, rfl, hs, hf, fun fold hm => (hv.folds_valid fold hm).disjoint, ?_, fun s hs => ?_⟩
  · intro fold hm s hsv g hsg t ht
    have hb := (hv.folds_valid fold hm).boundary s hsv g
    simp only [hsplit.groups_eq, getElem?_trainGroups] at hb
    have hst := hf fold hm s (List.mem_append_right _ hsv)
    have htt := hf fold hm t (List.mem_append_left _ ht)
    simpa [htt] using hb (by simpa [hst] using hsg) t ht
  · exact hv.validated_once hsplit.mode_eq ((hsplit.samples_iff s).mpr hs)

-- ---------------------------------------------------------------------------
-- Nothing outside the training samples is read
-- ---------------------------------------------------------------------------

/-- One spec, up to the labels of samples outside the list. -/
def NestedCvSpec.AgreeOn (samples : List SampleId) : NestedCvSpec → NestedCvSpec → Prop
  | .stratifiedKFold a, .stratifiedKFold b =>
    a.splitter = b.splitter ∧ ∀ s ∈ samples, a.strata[s]? = b.strata[s]?
  | a, b => a = b

theorem restrict_train_congr {outer : FoldAssignment} {m₁ m₂ : BTreeMap SampleId V}
    (h : ∀ s ∈ outer.trainSampleIds, m₁[s]? = m₂[s]?) :
    m₁.restrict (· ∈ outer.trainSampleIds) = m₂.restrict (· ∈ outer.trainSampleIds) := by
  refine BTreeMap.ext fun s => ?_
  rw [BTreeMap.getElem?_restrict, BTreeMap.getElem?_restrict]
  by_cases hs : s ∈ outer.trainSampleIds <;> simp [hs, h]

theorem NestedCvSpec.splitInner_congr {spec₁ spec₂ : NestedCvSpec}
    {groups₁ groups₂ : BTreeMap SampleId GroupId}
    (hspec : spec₁.AgreeOn outer.trainSampleIds spec₂)
    (hgroups : ∀ s ∈ outer.trainSampleIds, groups₁[s]? = groups₂[s]?) :
    spec₁.splitInner sha256 outer groups₁ = spec₂.splitInner sha256 outer groups₂ := by
  cases spec₁ <;> cases spec₂ <;> simp only [AgreeOn, reduceCtorEq] at hspec
  case kFold.kFold => rw [hspec]; rfl
  case capacityKFold.capacityKFold => rfl
  case groupKFold.groupKFold =>
    cases hspec
    simp only [splitInner, restrict_train_congr hgroups]
  case stratifiedKFold.stratifiedKFold =>
    simp only [splitInner, hspec.1, restrict_train_congr hspec.2]

theorem NestedCvSpec.AgreeOn.isGroupKFold {spec₁ spec₂ : NestedCvSpec}
    (h : spec₁.AgreeOn samples spec₂) : spec₁.isGroupKFold = spec₂.isGroupKFold := by
  cases spec₁ <;> cases spec₂ <;> simp_all [AgreeOn, NestedCvSpec.isGroupKFold]

/-- A fold without training samples has no nested folds. -/
theorem NestedIn.train_ne (h : NestedIn outer groups nested) : outer.trainSampleIds ≠ [] := by
  obtain ⟨s, hs⟩ := List.exists_mem_of_ne_nil _ h.valid.samples_ne
  exact List.ne_nil_of_mem (h.samples_train s hs)

theorem GroupsFor.isEmpty_eq {groups₁ groups₂ : BTreeMap SampleId GroupId}
    (h₁ : GroupsFor outer groups₁) (h₂ : GroupsFor outer groups₂) (hs : s ∈ outer.trainSampleIds)
    (h : groups₁[s]? = groups₂[s]?) : groups₁.isEmpty = groups₂.isEmpty := by
  have mem_iff {groups : BTreeMap SampleId GroupId} (hg : GroupsFor outer groups) :
      groups.isEmpty = false ↔ ∃ g, groups[s]? = some g := by
    rw [← BTreeMap.mem_iff]
    constructor
    · intro hne
      exact hg.resolve_left (by simp [hne]) s hs
    · intro hm
      rw [Bool.eq_false_iff, ne_eq, Std.ExtTreeMap.isEmpty_iff]
      rintro rfl
      simp at hm
  rw [Bool.eq_iff_iff, ← not_iff_not, Bool.not_eq_true, Bool.not_eq_true, mem_iff h₁, mem_iff h₂, h]

theorem NestedCvSpec.build_agree {spec₁ spec₂ : NestedCvSpec}
    {groups₁ groups₂ : BTreeMap SampleId GroupId}
    (h₁ : GroupsFor outer groups₁) (h₂ : GroupsFor outer groups₂)
    (hspec : spec₁.AgreeOn outer.trainSampleIds spec₂)
    (hgroups : ∀ s ∈ outer.trainSampleIds, groups₁[s]? = groups₂[s]?) :
    Agree (spec₁.buildNestedFoldSet sha256 outer groups₁)
      (spec₂.buildNestedFoldSet sha256 outer groups₂) := by
  by_cases ht : outer.trainSampleIds = []
  · rw [agree_iff]
    intro nested
    constructor <;> intro h
    · exact absurd ht (buildNestedFoldSet_ok h₁ h).train_ne
    · exact absurd ht (buildNestedFoldSet_ok h₂ h).train_ne
  · obtain ⟨s, hs⟩ := List.exists_mem_of_ne_nil _ ht
    have hempty := h₁.isEmpty_eq h₂ hs (hgroups s hs)
    simp only [buildNestedFoldSet, splitInner_congr hspec hgroups, hspec.isGroupKFold, hempty,
      Agree.rfl]

/-- Two outer fold sets that differ in their groups only, and two specs that
differ in their labels only, both outside the training samples of a fold,
give that fold one nested fold set, and a sound one. -/
theorem nested_noninterference (sha256 : Digest) (foldSet : FoldSet)
    (groups₁ groups₂ : BTreeMap SampleId GroupId) (spec₁ spec₂ : NestedCvSpec)
    (hv₁ : { foldSet with sampleGroups := groups₁ }.Valid)
    (hv₂ : { foldSet with sampleGroups := groups₂ }.Valid)
    (hm : outer ∈ foldSet.folds)
    (hspec : spec₁.AgreeOn outer.trainSampleIds spec₂)
    (hgroups : ∀ s ∈ outer.trainSampleIds, groups₁[s]? = groups₂[s]?) :
    Agree (spec₁.buildNestedFoldSet sha256 outer groups₁)
        (spec₂.buildNestedFoldSet sha256 outer groups₂) ∧
      Agree (spec₁.buildInnerFoldSet sha256 outer groups₁)
        (spec₂.buildInnerFoldSet sha256 outer groups₂) ∧
      Agree ({ foldSet with sampleGroups := groups₁ }.nestedFoldSet sha256 spec₁ outer)
        ({ foldSet with sampleGroups := groups₂ }.nestedFoldSet sha256 spec₂ outer) ∧
      (∀ nested, spec₁.buildNestedFoldSet sha256 outer groups₁ = .ok nested →
        NestedIn outer groups₁ nested) ∧
      ∀ nested, { foldSet with sampleGroups := groups₁ }.nestedFoldSet sha256 spec₁ outer =
        .ok nested → NestedIn outer groups₁ nested := by
  have h₁ := hv₁.groupsFor hm
  have h₂ := hv₂.groupsFor hm
  have hagree : Agree (spec₁.buildNestedFoldSet sha256 outer groups₁)
      (spec₂.buildNestedFoldSet sha256 outer groups₂) :=
    NestedCvSpec.build_agree h₁ h₂ hspec hgroups
  refine ⟨hagree, hagree.bind fun _ _ => Agree.rfl, hagree.bind fun _ _ => Agree.rfl,
    fun _ => NestedCvSpec.buildNestedFoldSet_ok h₁, ?_⟩
  intro nested h
  simp only [FoldSet.nestedFoldSet, bind_ok, FoldSet.validate_ok, pure_ok] at h
  obtain ⟨built, hb, _, hv, rfl⟩ := h
  exact { NestedCvSpec.buildNestedFoldSet_ok h₁ hb with valid := hv }

/-- One fold that trains on two samples and holds a third one out. -/
def heldOutFold : FoldAssignment where
  foldId := ⟨"outer0", by decide⟩
  trainSampleIds := [⟨"a1", by decide⟩, ⟨"a2", by decide⟩]
  validationSampleIds := [⟨"a3", by decide⟩]

def heldOutFoldSet : FoldSet where
  id := "folds"
  sampleIds := [⟨"a1", by decide⟩, ⟨"a2", by decide⟩, ⟨"a3", by decide⟩]
  folds := [heldOutFold]
  sampleGroups := ∅
  partitionMode := .resampled
  trainExclusion := .relations
  targetMissingSampleIds := []

/-- Groups that depend on the held-out sample in `g`. -/
def heldOutGroups (g : GroupId) : BTreeMap SampleId GroupId :=
  BTreeMap.collect [(⟨"a1", by decide⟩, ⟨"g1", by decide⟩), (⟨"a2", by decide⟩, ⟨"g2", by decide⟩),
    (⟨"a3", by decide⟩, g)]

theorem nested_noninterference_heldOut :
    ((NestedCvSpec.groupKFold ⟨2⟩).buildNestedFoldSet (fun _ => .replicate 32 0) heldOutFold
      (heldOutGroups ⟨"g3", by decide⟩)).toBool = true ∧
    Agree ((NestedCvSpec.groupKFold ⟨2⟩).buildNestedFoldSet (fun _ => .replicate 32 0) heldOutFold
        (heldOutGroups ⟨"g3", by decide⟩))
      ((NestedCvSpec.groupKFold ⟨2⟩).buildNestedFoldSet (fun _ => .replicate 32 0) heldOutFold
        (heldOutGroups ⟨"g4", by decide⟩)) := by
  refine ⟨by decide, ?_⟩
  exact (nested_noninterference _ heldOutFoldSet (heldOutGroups ⟨"g3", by decide⟩)
    (heldOutGroups ⟨"g4", by decide⟩) (.groupKFold ⟨2⟩) (.groupKFold ⟨2⟩) (by decide) (by decide)
    (.head _) rfl (by decide)).1

end DagMl

import DagMl.Fold.Basic

/-!
# Excluding target-missing samples

`excludeTargetMissing` narrows a fold set to the samples that have a target.
On valid fold sets it is an action of sets: excluding two sets one after the
other is excluding their union.
-/

namespace DagMl

open Checked

def FoldAssignment.narrow (fold : FoldAssignment) (removed : Finset SampleId) : FoldAssignment :=
  { fold with
    trainSampleIds := fold.trainSampleIds.filter (· ∉ removed)
    validationSampleIds := fold.validationSampleIds.filter (· ∉ removed) }

namespace FoldSet

/-- The refusal of a fold that loses all of its validation or training samples. -/
def refuseEmptied (narrowed : FoldSet) (removed : Finset SampleId) (fold : FoldAssignment) :
    Result Unit := do
  let kept := fold.narrow removed
  refuseIf (kept.validationSampleIds = []) (narrowed.targetMissingError .emptyValidationFold
    (some fold.foldId.value) removed
    "fold has no validation sample once target-missing samples are excluded")
  refuseIf (fold.trainSampleIds ≠ [] ∧ kept.trainSampleIds = [])
    (narrowed.targetMissingError .emptyTrainFold (some fold.foldId.value) removed
      "fold has no training sample once target-missing samples are excluded")

/-- The fold set without `removed`, which becomes part of its target-missing samples. -/
def narrow (self : FoldSet) (removed : Finset SampleId) : FoldSet :=
  { self with
    sampleIds := self.sampleIds.filter (· ∉ removed)
    sampleGroups := self.sampleGroups.restrict (· ∉ removed)
    targetMissingSampleIds := ascending (self.targetMissingSampleIds.toFinset ∪ removed)
    folds := self.folds.map (·.narrow removed) }

def excludeTargetMissing (self : FoldSet) (targetMissing : Finset SampleId) : Result FoldSet := do
  self.validate
  let unknown := targetMissing.filter fun s => s ∉ self.sampleIds ∧ s ∉ self.targetMissingSampleIds
  refuseIf (unknown ≠ ∅) (self.targetMissingError .unknownSample none unknown
    "declared target-missing samples are not part of the fold set")
  let removed := targetMissing.filter (· ∈ self.sampleIds)
  if removed = ∅ then pure self
  else do
    let narrowed := self.narrow removed
    refuseIf (narrowed.sampleIds = []) (narrowed.targetMissingError .noObservedTargets none removed
      "every fold set sample is target-missing")
    each self.folds (narrowed.refuseEmptied removed)
    narrowed.validate
    pure narrowed

-- ---------------------------------------------------------------------------
-- What an exclusion asks and does
-- ---------------------------------------------------------------------------

/-- Every excluded sample is known, and none of the lists that had samples loses all of them. -/
structure Excludable (foldSet : FoldSet) (excluded : Finset SampleId) : Prop where
  known : ∀ s ∈ excluded, s ∈ foldSet.sampleIds ∨ s ∈ foldSet.targetMissingSampleIds
  sample_left : ∃ s ∈ foldSet.sampleIds, s ∉ excluded
  validation_left : ∀ fold ∈ foldSet.folds, ∃ s ∈ fold.validationSampleIds, s ∉ excluded
  train_left : ∀ fold ∈ foldSet.folds,
    fold.trainSampleIds = [] ∨ ∃ s ∈ fold.trainSampleIds, s ∉ excluded

/-- The samples of the fold set that an exclusion takes out. -/
def removedBy (foldSet : FoldSet) (excluded : Finset SampleId) : Finset SampleId :=
  excluded.filter (· ∈ foldSet.sampleIds)

def without (foldSet : FoldSet) (excluded : Finset SampleId) : FoldSet :=
  if foldSet.removedBy excluded = ∅ then foldSet else foldSet.narrow (foldSet.removedBy excluded)

variable {foldSet : FoldSet} {excluded : Finset SampleId}

@[simp] theorem mem_removedBy :
    s ∈ foldSet.removedBy excluded ↔ s ∈ excluded ∧ s ∈ foldSet.sampleIds := Finset.mem_filter

theorem filter_ne_nil {l : List SampleId} {removed : Finset SampleId} :
    l.filter (· ∉ removed) ≠ [] ↔ ∃ s ∈ l, s ∉ removed := by
  simp [List.filter_eq_nil_iff]

/-- In a list of known samples the removed ones are the excluded ones. -/
theorem not_mem_removedBy (hs : s ∈ foldSet.sampleIds) :
    s ∉ foldSet.removedBy excluded ↔ s ∉ excluded := by
  simp [hs]

theorem ValidFold.narrow {fold : FoldAssignment} {removed : Finset SampleId}
    (h : foldSet.ValidFold fold) (hleft : ∃ s ∈ fold.validationSampleIds, s ∉ removed) :
    (foldSet.narrow removed).ValidFold (fold.narrow removed) where
  train_nodup := h.train_nodup.filter _
  validation_nodup := h.validation_nodup.filter _
  validation_ne := filter_ne_nil.mpr hleft
  train_known s hs := by
    rw [FoldAssignment.narrow, List.mem_filter] at hs
    exact List.mem_filter.mpr ⟨h.train_known s hs.1, hs.2⟩
  validation_known s hs := by
    rw [FoldAssignment.narrow, List.mem_filter] at hs
    exact List.mem_filter.mpr ⟨h.validation_known s hs.1, hs.2⟩
  disjoint s hs ht :=
    h.disjoint s (List.mem_filter.mp hs).1 (List.mem_filter.mp ht).1
  boundary s hs g hg t ht htg := by
    simp only [FoldSet.narrow, BTreeMap.getElem?_restrict] at hg htg
    split at hg
    · split at htg
      · exact h.boundary s (List.mem_filter.mp hs).1 g hg t (List.mem_filter.mp ht).1 htg
      · cases htg
    · cases hg

/-- The closing validation never refuses. -/
theorem Valid.narrow {removed : Finset SampleId} (h : foldSet.Valid)
    (hsample : ∃ s ∈ foldSet.sampleIds, s ∉ removed)
    (hvalidation : ∀ fold ∈ foldSet.folds, ∃ s ∈ fold.validationSampleIds, s ∉ removed) :
    (foldSet.narrow removed).Valid where
  id_ne := h.id_ne
  samples_ne := filter_ne_nil.mpr hsample
  folds_ne := by simpa [FoldSet.narrow] using h.folds_ne
  samples_nodup := h.samples_nodup.filter _
  groups_known := by
    rcases h.groups_known with hempty | hknown
    · left
      rw [Std.ExtTreeMap.isEmpty_iff] at hempty
      rw [FoldSet.narrow, Std.ExtTreeMap.isEmpty_iff]
      apply BTreeMap.ext
      intro s
      simp [BTreeMap.getElem?_restrict, hempty]
    · right
      intro s
      have hs := hknown s
      rw [BTreeMap.mem_iff] at hs ⊢
      simp only [FoldSet.narrow, BTreeMap.getElem?_restrict, List.mem_filter, ← hs]
      by_cases hr : s ∈ removed <;> simp [hr]
  missing_nodup := nodup_ascending _
  missing_outside s hs hmem := by
    simp only [FoldSet.narrow, mem_ascending, Finset.mem_union, List.mem_toFinset,
      List.mem_filter, decide_eq_true_eq] at hs hmem
    rcases hs with hs | hs
    · exact h.missing_outside s hs hmem.1
    · exact hmem.2 hs
  foldIds_nodup := by
    simpa [FoldSet.narrow, Function.comp_def, FoldAssignment.narrow] using h.foldIds_nodup
  folds_valid fold hfold := by
    obtain ⟨original, hmem, rfl⟩ := List.mem_map.mp hfold
    exact (h.folds_valid original hmem).narrow (hvalidation original hmem)
  complete hm s hs := by
    simp only [FoldSet.narrow, List.mem_filter, decide_eq_true_eq] at hs
    have hvalidated : validated (foldSet.narrow removed).folds =
        (validated foldSet.folds).filter (· ∉ removed) := by
      simp [validated, FoldSet.narrow, FoldAssignment.narrow, List.flatMap_map,
        List.filter_flatMap]
    rw [hvalidated, List.count_filter (by simpa using hs.2)]
    exact h.complete hm s hs.1

theorem refuseEmptied_ok {narrowed : FoldSet} {fold : FoldAssignment} :
    narrowed.refuseEmptied (foldSet.removedBy excluded) fold = .ok u ↔
      (∃ s ∈ fold.validationSampleIds, s ∉ foldSet.removedBy excluded) ∧
        (fold.trainSampleIds = [] ∨
          ∃ s ∈ fold.trainSampleIds, s ∉ foldSet.removedBy excluded) := by
  simp only [refuseEmptied, bind_ok, refuseIf_ok, exists_const, not_and]
  refine and_congr filter_ne_nil ?_
  rw [or_iff_not_imp_left]
  exact imp_congr_right fun _ => filter_ne_nil

/-- Excluding samples of a valid set succeeds exactly when it is allowed. -/
theorem excludeTargetMissing_ok (h : foldSet.Valid) :
    foldSet.excludeTargetMissing excluded = .ok result ↔
      foldSet.Excludable excluded ∧ result = foldSet.without excluded := by
  have hleft {l : List SampleId} (hl : ∀ s ∈ l, s ∈ foldSet.sampleIds) :
      (∃ s ∈ l, s ∉ foldSet.removedBy excluded) ↔ ∃ s ∈ l, s ∉ excluded := by
    constructor
    · rintro ⟨s, hs, hn⟩
      exact ⟨s, hs, (not_mem_removedBy (hl s hs)).mp hn⟩
    · rintro ⟨s, hs, hn⟩
      exact ⟨s, hs, (not_mem_removedBy (hl s hs)).mpr hn⟩
  have hvalidate : foldSet.validate = .ok () := validate_ok.mpr h
  have hfold (fold : FoldAssignment) (hf : fold ∈ foldSet.folds) := h.folds_valid fold hf
  have hknown : excluded.filter
      (fun s => s ∉ foldSet.sampleIds ∧ s ∉ foldSet.targetMissingSampleIds) = ∅ ↔
        ∀ s ∈ excluded, s ∈ foldSet.sampleIds ∨ s ∈ foldSet.targetMissingSampleIds := by
    rw [Finset.filter_eq_empty_iff]
    exact forall₂_congr fun s _ => by rw [not_and, not_not, or_iff_not_imp_left]
  simp only [excludeTargetMissing, bind_ok, refuseIf_ok, not_not, hvalidate, hknown]
  rw [← removedBy]
  unfold without
  split
  · rename_i hempty
    -- nothing is removed, and no list of a valid set needs a check
    have hnone (s : SampleId) (hs : s ∈ foldSet.sampleIds) : s ∉ excluded := by
      rw [← not_mem_removedBy hs, hempty]
      simp
    simp only [pure_ok]
    constructor
    · rintro ⟨_, -, _, hk, rfl⟩
      refine ⟨⟨hk, ?_, fun fold hf => ?_, fun fold hf => ?_⟩, rfl⟩
      · obtain ⟨s, hs⟩ := List.exists_mem_of_ne_nil _ h.samples_ne
        exact ⟨s, hs, hnone s hs⟩
      · obtain ⟨s, hs⟩ := List.exists_mem_of_ne_nil _ (hfold fold hf).validation_ne
        exact ⟨s, hs, hnone s ((hfold fold hf).validation_known s hs)⟩
      · rw [or_iff_not_imp_left]
        intro hne
        obtain ⟨s, hs⟩ := List.exists_mem_of_ne_nil _ hne
        exact ⟨s, hs, hnone s ((hfold fold hf).train_known s hs)⟩
    · rintro ⟨hallowed, rfl⟩
      exact ⟨(), trivial, (), hallowed.known, rfl⟩
  · simp only [bind_ok, refuseIf_ok, each_ok, refuseEmptied_ok, pure_ok]
    constructor
    · rintro ⟨_, -, _, hk, _, hne, _, hfolds, _, -, rfl⟩
      refine ⟨⟨hk, ?_, fun fold hf => ?_, fun fold hf => ?_⟩, rfl⟩
      · exact (hleft fun s hs => hs).mp (filter_ne_nil.mp hne)
      · exact (hleft (hfold fold hf).validation_known).mp (hfolds fold hf).1
      · exact (hfolds fold hf).2.imp_right (hleft (hfold fold hf).train_known).mp
    · rintro ⟨hallowed, rfl⟩
      have hsample := (hleft fun s hs => hs).mpr hallowed.sample_left
      have hvalidation (fold : FoldAssignment) (hf : fold ∈ foldSet.folds) :=
        (hleft (hfold fold hf).validation_known).mpr (hallowed.validation_left fold hf)
      refine ⟨(), trivial, (), hallowed.known, (), filter_ne_nil.mpr hsample, (), fun fold hf => ?_,
        (), validate_ok.mpr (h.narrow hsample hvalidation), rfl⟩
      exact ⟨hvalidation fold hf,
        (hallowed.train_left fold hf).imp_right (hleft (hfold fold hf).train_known).mpr⟩

-- ---------------------------------------------------------------------------
-- Excluding twice
-- ---------------------------------------------------------------------------

theorem mem_sampleIds_without :
    s ∈ (foldSet.without excluded).sampleIds ↔ s ∈ foldSet.sampleIds ∧ s ∉ excluded := by
  unfold without
  split
  · rename_i hempty
    refine ⟨fun hs => ⟨hs, ?_⟩, fun h => h.1⟩
    rw [← not_mem_removedBy hs, hempty]
    simp
  · rw [narrow, List.mem_filter, decide_eq_true_eq]
    exact and_congr_right fun hs => not_mem_removedBy hs

theorem mem_targetMissing_without :
    s ∈ (foldSet.without excluded).targetMissingSampleIds ↔
      s ∈ foldSet.targetMissingSampleIds ∨ s ∈ foldSet.removedBy excluded := by
  unfold without
  split
  · rename_i hempty
    simp [hempty]
  · simp [narrow]

theorem without_valid (h : foldSet.Valid) (hallowed : foldSet.Excludable excluded) :
    (foldSet.without excluded).Valid := by
  have hok := (excludeTargetMissing_ok h).mpr ⟨hallowed, rfl⟩
  unfold without at hok ⊢
  split
  · exact h
  · rename_i hne
    rw [if_neg hne] at hok
    simp only [excludeTargetMissing, bind_ok] at hok
    obtain ⟨_, -, _, -, hok⟩ := hok
    rw [← removedBy, if_neg hne] at hok
    simp only [bind_ok] at hok
    obtain ⟨_, -, _, -, _, hvalid, -⟩ := hok
    exact validate_ok.mp hvalid

theorem removedBy_without {B : Finset SampleId} :
    (foldSet.without excluded).removedBy B =
      foldSet.removedBy (excluded ∪ B) \ foldSet.removedBy excluded := by
  ext s
  simp only [mem_removedBy, mem_sampleIds_without, Finset.mem_sdiff, Finset.mem_union]
  constructor
  · rintro ⟨hB, hs, hA⟩
    exact ⟨⟨.inr hB, hs⟩, fun h => hA h.1⟩
  · rintro ⟨⟨hAB, hs⟩, hA⟩
    have hnot : s ∉ excluded := fun h => hA ⟨h, hs⟩
    exact ⟨hAB.resolve_left hnot, hs, hnot⟩

theorem narrow_narrow {R R' : Finset SampleId} :
    (foldSet.narrow R).narrow R' = foldSet.narrow (R ∪ R') := by
  have hfilter (l : List SampleId) :
      (l.filter (· ∉ R)).filter (· ∉ R') = l.filter (· ∉ R ∪ R') := by
    rw [List.filter_filter]
    apply List.filter_congr
    intro s _
    by_cases h : s ∈ R <;> by_cases h' : s ∈ R' <;> simp [h, h']
  have hgroups : (foldSet.sampleGroups.restrict (· ∉ R)).restrict (· ∉ R') =
      foldSet.sampleGroups.restrict (· ∉ R ∪ R') := by
    apply BTreeMap.ext
    intro s
    simp only [BTreeMap.getElem?_restrict]
    by_cases h : s ∈ R <;> by_cases h' : s ∈ R' <;> simp [h, h']
  simp only [narrow, hfilter, hgroups, toFinset_ascending, Finset.union_assoc, List.map_map]
  congr 1
  apply List.map_congr_left
  intro fold _
  simp only [Function.comp, FoldAssignment.narrow, hfilter]

theorem without_without {B : Finset SampleId} :
    (foldSet.without excluded).without B = foldSet.without (excluded ∪ B) := by
  have hsub : foldSet.removedBy excluded ⊆ foldSet.removedBy (excluded ∪ B) := by
    intro s hs
    rw [mem_removedBy] at hs ⊢
    exact ⟨Finset.mem_union_left _ hs.1, hs.2⟩
  conv_lhs => rw [without, removedBy_without]
  by_cases hA : foldSet.removedBy excluded = ∅
  · have hwithout : foldSet.without excluded = foldSet := if_pos hA
    rw [hwithout, hA, Finset.sdiff_empty]
    rfl
  · have hwithout : foldSet.without excluded = foldSet.narrow (foldSet.removedBy excluded) := if_neg hA
    have hunion : foldSet.removedBy (excluded ∪ B) ≠ ∅ := by
      rintro h
      rw [h] at hsub
      exact hA (Finset.subset_empty.mp hsub)
    rw [hwithout, narrow_narrow, Finset.union_sdiff_of_subset hsub]
    conv_rhs => rw [without, if_neg hunion]
    split
    · rename_i hnew
      rw [Finset.sdiff_eq_empty_iff_subset] at hnew
      rw [Finset.Subset.antisymm hsub hnew]
    · rfl

/-- The folds of an exclusion, whether or not it removed anything. -/
theorem mem_folds_without (h : foldSet.Valid) :
    fold ∈ (foldSet.without excluded).folds ↔
      ∃ original ∈ foldSet.folds, original.narrow excluded = fold := by
  have hnarrow (original : FoldAssignment) (ho : original ∈ foldSet.folds) :
      original.narrow (foldSet.removedBy excluded) = original.narrow excluded := by
    have hf := h.folds_valid original ho
    have hfilter {l : List SampleId} (hl : ∀ s ∈ l, s ∈ foldSet.sampleIds) :
        l.filter (· ∉ foldSet.removedBy excluded) = l.filter (· ∉ excluded) := by
      apply List.filter_congr
      intro s hs
      rw [decide_eq_decide]
      exact not_mem_removedBy (hl s hs)
    simp only [FoldAssignment.narrow, hfilter hf.train_known, hfilter hf.validation_known]
  have hself (original : FoldAssignment) : original.narrow ∅ = original := by
    simp [FoldAssignment.narrow]
  unfold without
  split
  · rename_i hempty
    constructor
    · intro hf
      exact ⟨fold, hf, by rw [← hnarrow fold hf, hempty, hself]⟩
    · rintro ⟨original, ho, rfl⟩
      rwa [← hnarrow original ho, hempty, hself]
  · rw [narrow, List.mem_map]
    constructor
    · rintro ⟨original, ho, rfl⟩
      exact ⟨original, ho, (hnarrow original ho).symm⟩
    · rintro ⟨original, ho, rfl⟩
      exact ⟨original, ho, hnarrow original ho⟩

/-- The union may be excluded when one set may be, and then the other. -/
theorem excludable_union (h : foldSet.Valid) {A B : Finset SampleId} :
    foldSet.Excludable (A ∪ B) ↔
      foldSet.Excludable A ∧ (foldSet.without A).Excludable B := by
  have hleft {l : List SampleId} :
      (∃ s ∈ l, s ∉ A ∪ B) ↔ ∃ s ∈ l.filter (· ∉ A), s ∉ B := by
    simp only [List.mem_filter, decide_eq_true_eq, Finset.mem_union, not_or, and_assoc]
  have hfewer {l : List SampleId} (hl : ∃ s ∈ l, s ∉ A ∪ B) : ∃ s ∈ l, s ∉ A := by
    obtain ⟨s, hs, hn⟩ := hl
    exact ⟨s, hs, fun hA => hn (Finset.mem_union_left B hA)⟩
  constructor
  · intro hu
    refine ⟨⟨fun s hs => hu.known s (Finset.mem_union_left B hs), hfewer hu.sample_left,
      fun fold hf => hfewer (hu.validation_left fold hf),
      fun fold hf => (hu.train_left fold hf).imp_right hfewer⟩, ?_, ?_, ?_, ?_⟩
    · intro s hs
      rw [mem_sampleIds_without, mem_targetMissing_without, mem_removedBy]
      by_cases hA : s ∈ A
      · rcases hu.known s (Finset.mem_union_left B hA) with hk | hk
        · exact .inr (.inr ⟨hA, hk⟩)
        · exact .inr (.inl hk)
      · rcases hu.known s (Finset.mem_union_right A hs) with hk | hk
        · exact .inl ⟨hk, hA⟩
        · exact .inr (.inl hk)
    · obtain ⟨s, hs, hn⟩ := hleft.mp hu.sample_left
      rw [List.mem_filter, decide_eq_true_eq] at hs
      exact ⟨s, mem_sampleIds_without.mpr hs, hn⟩
    · intro fold hf
      obtain ⟨original, ho, rfl⟩ := (mem_folds_without h).mp hf
      exact hleft.mp (hu.validation_left original ho)
    · intro fold hf
      obtain ⟨original, ho, rfl⟩ := (mem_folds_without h).mp hf
      rcases hu.train_left original ho with hnil | hl
      · left
        simp [FoldAssignment.narrow, hnil]
      · exact .inr (hleft.mp hl)
  · rintro ⟨hA, hB⟩
    have hfold (original : FoldAssignment) (ho : original ∈ foldSet.folds) :
        original.narrow A ∈ (foldSet.without A).folds :=
      (mem_folds_without h).mpr ⟨original, ho, rfl⟩
    refine ⟨fun s hs => ?_, ?_, fun fold hf => ?_, fun fold hf => ?_⟩
    · rcases Finset.mem_union.mp hs with hs | hs
      · exact hA.known s hs
      · rcases hB.known s hs with hk | hk
        · exact .inl (mem_sampleIds_without.mp hk).1
        · rcases mem_targetMissing_without.mp hk with hk | hk
          · exact .inr hk
          · exact .inl (mem_removedBy.mp hk).2
    · obtain ⟨s, hs, hn⟩ := hB.sample_left
      obtain ⟨hs, hnA⟩ := mem_sampleIds_without.mp hs
      exact ⟨s, hs, by simp [hnA, hn]⟩
    · exact hleft.mpr (hB.validation_left _ (hfold fold hf))
    · rcases hA.train_left fold hf with hnil | ⟨s, hs, hn⟩
      · exact .inl hnil
      · rcases hB.train_left _ (hfold fold hf) with hnil | hl
        · exact absurd hnil (filter_ne_nil.mpr ⟨s, hs, hn⟩)
        · exact .inr (hleft.mpr hl)

-- ---------------------------------------------------------------------------
-- Refusals
-- ---------------------------------------------------------------------------

/-- The structured refusals of an exclusion. -/
def exclusionRefusals : List TargetMissingRefusal :=
  [.unknownSample, .noObservedTargets, .emptyValidationFold, .emptyTrainFold]

theorem excludeTargetMissing_error (h : foldSet.Valid)
    (herror : foldSet.excludeTargetMissing excluded = .error e) :
    ∃ report, e = .targetMissing report ∧ report.reason ∈ exclusionRefusals := by
  have hvalidate : foldSet.validate = .ok () := validate_ok.mpr h
  simp only [excludeTargetMissing, bind_error, hvalidate, refuseIf_error, refuseIf_ok] at herror
  rw [← removedBy] at herror
  rcases herror with herror | ⟨_, -, ⟨-, rfl⟩ | ⟨_, -, herror⟩⟩
  · cases herror
  · exact ⟨_, rfl, by simp [exclusionRefusals]⟩
  split at herror
  · cases herror
  simp only [bind_error, refuseIf_error, refuseIf_ok, each_ok, refuseEmptied_ok] at herror
  rcases herror with ⟨-, rfl⟩ | ⟨_, hsample, herror | ⟨_, hfolds, herror | ⟨_, -, herror⟩⟩⟩
  · exact ⟨_, rfl, by simp [exclusionRefusals]⟩
  · obtain ⟨fold, -, hfold⟩ := exists_of_each_error herror
    simp only [refuseEmptied, bind_error, refuseIf_error] at hfold
    rcases hfold with ⟨-, rfl⟩ | ⟨_, -, -, rfl⟩
    · exact ⟨_, rfl, by simp [exclusionRefusals]⟩
    · exact ⟨_, rfl, by simp [exclusionRefusals]⟩
  · have hvalid := h.narrow (filter_ne_nil.mp hsample) fun fold hf => (hfolds fold hf).1
    have hok : (foldSet.narrow (foldSet.removedBy excluded)).validate = .ok () :=
      validate_ok.mpr hvalid
    rw [hok] at herror
    cases herror
  · cases herror

/-- Excluding target-missing samples is an action of sets: a success is a valid
fold set that no excluded sample occurs in, excluding again changes nothing,
and two exclusions are the exclusion of the union. The closing validation never
refuses, so that every refusal is a structured one. -/
theorem excludeTargetMissing_action (h : foldSet.Valid) (A B : Finset SampleId) :
    (∀ result, foldSet.excludeTargetMissing A = .ok result →
      result.Valid ∧
      (∀ s ∈ A, ∀ fold ∈ result.folds,
        s ∉ fold.trainSampleIds ∧ s ∉ fold.validationSampleIds) ∧
      result.excludeTargetMissing A = .ok result) ∧
    (∀ result, (foldSet.excludeTargetMissing A >>= fun first => first.excludeTargetMissing B) =
        .ok result ↔ foldSet.excludeTargetMissing (A ∪ B) = .ok result) ∧
    ∀ e, foldSet.excludeTargetMissing A = .error e →
      ∃ report, e = .targetMissing report ∧ report.reason ∈ exclusionRefusals := by
  have hcompose (result : FoldSet) :
      (foldSet.excludeTargetMissing A >>= fun first => first.excludeTargetMissing B) =
        .ok result ↔ foldSet.excludeTargetMissing (A ∪ B) = .ok result := by
    simp only [bind_ok, excludeTargetMissing_ok h]
    constructor
    · rintro ⟨first, ⟨hA, rfl⟩, hsecond⟩
      obtain ⟨hB, rfl⟩ := (excludeTargetMissing_ok (without_valid h hA)).mp hsecond
      exact ⟨(excludable_union h).mpr ⟨hA, hB⟩, without_without⟩
    · rintro ⟨hunion, rfl⟩
      obtain ⟨hA, hB⟩ := (excludable_union h).mp hunion
      exact ⟨_, ⟨hA, rfl⟩, (excludeTargetMissing_ok (without_valid h hA)).mpr
        ⟨hB, without_without.symm⟩⟩
  refine ⟨fun result hresult => ?_, hcompose, fun e => excludeTargetMissing_error h⟩
  obtain ⟨hA, rfl⟩ := (excludeTargetMissing_ok h).mp hresult
  have hvalid := without_valid h hA
  refine ⟨hvalid, fun s hs fold hfold => ?_, ?_⟩
  · have hf := hvalid.folds_valid fold hfold
    constructor
    · exact fun ht => (mem_sampleIds_without.mp (hf.train_known s ht)).2 hs
    · exact fun hv => (mem_sampleIds_without.mp (hf.validation_known s hv)).2 hs
  · rw [excludeTargetMissing_ok hvalid, without_without, Finset.union_self]
    have hself := (excludable_union h).mp (by rwa [Finset.union_self] : foldSet.Excludable (A ∪ A))
    exact ⟨hself.2, rfl⟩

/-- Three samples, each validated by one of two folds or trained on by both. -/
def narrowable : FoldSet where
  id := "narrowable"
  sampleIds := [⟨"kept:1", by decide⟩, ⟨"kept:2", by decide⟩, ⟨"gone:1", by decide⟩]
  folds := [{
    foldId := ⟨"narrow:0", by decide⟩
    trainSampleIds := [⟨"kept:1", by decide⟩, ⟨"gone:1", by decide⟩]
    validationSampleIds := [⟨"kept:2", by decide⟩] }]
  sampleGroups := ∅
  partitionMode := .resampled
  trainExclusion := .relations
  targetMissingSampleIds := []

theorem excludeTargetMissing_action_narrowable :
    (narrowable.excludeTargetMissing {⟨"gone:1", by decide⟩}).toBool = true ∧
    ∀ e, narrowable.excludeTargetMissing {⟨"gone:1", by decide⟩} = .error e →
      ∃ report, e = .targetMissing report ∧ report.reason ∈ exclusionRefusals :=
  ⟨by decide, (excludeTargetMissing_action (by decide : narrowable.Valid) _ ∅).2.2⟩

/-- The refusals the exclusion gives besides that of an exclusion of every sample. -/
def partialRefusals : List TargetMissingRefusal :=
  [.unknownSample, .emptyValidationFold, .emptyTrainFold]

/-- The reason of a structured refusal. -/
def refusalOf : Result FoldSet → Option TargetMissingRefusal
  | .error (.targetMissing report) => some report.reason
  | _ => none

/-- Excluding every sample is refused for a reason of its own. -/
theorem excludeTargetMissing_every_sample :
    ¬ ∀ (foldSet : FoldSet) (excluded : Finset SampleId), foldSet.Valid →
      ∀ e, foldSet.excludeTargetMissing excluded = .error e →
        ∃ report, e = .targetMissing report ∧ report.reason ∈ partialRefusals := by
  intro h
  have hreason : refusalOf (narrowable.excludeTargetMissing narrowable.sampleIds.toFinset) =
      some .noObservedTargets := by decide
  cases hrun : narrowable.excludeTargetMissing narrowable.sampleIds.toFinset with
  | ok result =>
    rw [hrun] at hreason
    cases hreason
  | error e =>
    obtain ⟨report, rfl, hmem⟩ := h narrowable narrowable.sampleIds.toFinset (by decide) e hrun
    rw [hrun, refusalOf, Option.some.injEq] at hreason
    rw [hreason] at hmem
    simp [partialRefusals] at hmem

end FoldSet

end DagMl

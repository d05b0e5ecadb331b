import DagMl.Fold.Splitters

/-!
# Splitting the observed samples

Each splitter also takes the samples whose target is missing. They are left
out of the universe before it is split, and declared on the fold set.
-/

namespace DagMl

open Checked

/-- The candidates that have a target; a unit is what a fold cannot be split below. -/
def observedUniverse [DecidableEq U] (foldSetId : String) (candidates : Finset SampleId)
    (targetMissing : Finset SampleId) (nSplits : Nat) (unitOf : SampleId → U) :
    Result (List SampleId) := do
  let unknown := targetMissing \ candidates
  let missingCount := targetMissing.card
  refuseIf (unknown ≠ ∅) (targetMissingRefusal foldSetId .unknownSample none unknown
    (missingCount, (candidates \ targetMissing).card)
    "declared target-missing samples are not split candidates")
  let observed := ascending (candidates \ targetMissing)
  refuseIf (observed = []) (targetMissingRefusal foldSetId .noObservedTargets none targetMissing
    (missingCount, 0) "every split candidate is target-missing")
  let units := (observed.map unitOf).toFinset
  refuseIf (targetMissing ≠ ∅ ∧ units.card < nSplits)
    (targetMissingRefusal foldSetId .insufficientObservedTargets none targetMissing
      (missingCount, observed.length)
      s!"{units.card} target-observed split unit(s) cannot fill n_splits={nSplits} folds")
  pure observed

def declareTargetMissing (foldSet : FoldSet) (targetMissing : Finset SampleId) :
    Result FoldSet := do
  let declared := { foldSet with targetMissingSampleIds := ascending targetMissing }
  declared.validate
  pure declared

def KFoldSpec.splitWithTargetMissing (sha256 : Digest) (self : KFoldSpec) (id : String)
    (samples : List SampleId) (targetMissing : Finset SampleId) : Result FoldSet := do
  let candidates ← uniqueSamples "KFold samples" samples
  let observed ← observedUniverse id candidates targetMissing self.nSplits fun s => s
  let foldSet ← self.split sha256 id observed
  declareTargetMissing foldSet targetMissing

def StratifiedKFoldSpec.splitWithTargetMissing (sha256 : Digest) (self : StratifiedKFoldSpec)
    (id : String) (samples : List SampleId) (strata : BTreeMap SampleId String)
    (targetMissing : Finset SampleId) : Result FoldSet := do
  let candidates ← uniqueSamples "StratifiedKFold samples" samples
  let observed ← observedUniverse id candidates targetMissing self.nSplits fun s => s
  let foldSet ← self.split sha256 id observed strata
  declareTargetMissing foldSet targetMissing

/-- Every candidate is a key of the map, so its unit is its group. -/
def GroupKFoldSpec.splitWithTargetMissing (self : GroupKFoldSpec) (id : String)
    (sampleGroups : BTreeMap SampleId GroupId) (targetMissing : Finset SampleId) :
    Result FoldSet := do
  let observed ← observedUniverse id sampleGroups.keys.toFinset targetMissing self.nSplits
    (sampleGroups[·]?)
  let observedGroups := sampleGroups.restrict (· ∈ observed)
  let foldSet ← self.split id observedGroups
  declareTargetMissing foldSet targetMissing

-- ---------------------------------------------------------------------------
-- What is split
-- ---------------------------------------------------------------------------

/-- A fold set over the candidates that have a target, with the others declared. -/
structure ObservedSplit (candidates : SampleId → Prop) (targetMissing : Finset SampleId)
    (groups : BTreeMap SampleId GroupId) (foldSet : FoldSet) : Prop where
  valid : foldSet.Valid
  samples_iff : ∀ s, s ∈ foldSet.sampleIds ↔ candidates s ∧ s ∉ targetMissing
  missing_known : ∀ s ∈ targetMissing, candidates s
  missing_eq : foldSet.targetMissingSampleIds = ascending targetMissing
  groups_eq : ∀ s, foldSet.sampleGroups[s]? = if s ∈ targetMissing then none else groups[s]?
  mode_eq : foldSet.partitionMode = .partition
  ascending : foldSet.sampleIds.Pairwise (· < ·)

section

variable [DecidableEq U] {unitOf : SampleId → U} {candidates targetMissing : Finset SampleId}

theorem observedUniverse_ok (h : observedUniverse foldSetId candidates targetMissing nSplits
    unitOf = .ok observed) : targetMissing ⊆ candidates ∧
      observed = ascending (candidates \ targetMissing) := by
  simp only [observedUniverse, bind_ok, refuseIf_ok, pure_ok, not_not] at h
  obtain ⟨_, hunknown, _, -, _, -, rfl⟩ := h
  exact ⟨Finset.sdiff_eq_empty_iff_subset.mp hunknown, rfl⟩

end

theorem declareTargetMissing_ok {foldSet declared : FoldSet} {targetMissing : Finset SampleId} :
    declareTargetMissing foldSet targetMissing = .ok declared ↔
      declared = { foldSet with targetMissingSampleIds := ascending targetMissing } ∧
        declared.Valid := by
  simp only [declareTargetMissing, bind_ok, FoldSet.validate_ok, pure_ok]
  constructor
  · rintro ⟨_, hv, rfl⟩
    exact ⟨rfl, hv⟩
  · rintro ⟨rfl, hv⟩
    exact ⟨(), hv, rfl⟩

/-- The samples of a fold set are listed in order once they are sorted. -/
theorem FoldSet.Valid.ascending_of_sorted {foldSet : FoldSet} (hv : foldSet.Valid)
    (h : foldSet.sampleIds.Pairwise (· ≤ ·)) : foldSet.sampleIds.Pairwise (· < ·) :=
  (h.and hv.samples_nodup).imp fun ⟨hle, hne⟩ => lt_of_le_of_ne hle hne

theorem orderedSamples_sorted (sha256 : Digest) (samples : List SampleId) :
    (orderedSamples sha256 samples false 0).Pairwise (· ≤ ·) := by
  simpa [orderedSamples] using List.pairwise_insertionSort (· ≤ ·) samples

theorem KFoldSpec.split_sorted {self : KFoldSpec}
    (h : self.split sha256 foldSetId samples = .ok foldSet) : foldSet.sampleIds.Pairwise (· ≤ ·) := by
  simp only [split, bind_ok, pure_ok] at h
  obtain ⟨_, -, _, -, _, -, folds, -, _, -, rfl⟩ := h
  exact orderedSamples_sorted sha256 samples

theorem StratifiedKFoldSpec.split_sorted {self : StratifiedKFoldSpec}
    (h : self.split sha256 foldSetId samples strata = .ok foldSet) :
    foldSet.sampleIds.Pairwise (· ≤ ·) := by
  simp only [split, bind_ok, pure_ok] at h
  obtain ⟨_, -, _, -, _, -, _, -, folds, -, _, -, rfl⟩ := h
  exact orderedSamples_sorted sha256 samples

theorem GroupKFoldSpec.split_sorted {self : GroupKFoldSpec} {groups : BTreeMap SampleId GroupId}
    (h : self.split foldSetId groups = .ok foldSet) : foldSet.sampleIds.Pairwise (· ≤ ·) := by
  simp only [split, bind_ok, pure_ok] at h
  obtain ⟨_, -, _, -, _, -, _, -, folds, -, _, -, rfl⟩ := h
  exact List.pairwise_insertionSort (· ≤ ·) _

/-- A split of the observed samples, declared, is an observed split. -/
theorem SplitOf.declared {samples : List SampleId} {groups observedGroups : BTreeMap SampleId GroupId}
    {foldSet declared : FoldSet} {targetMissing : Finset SampleId} {candidates : SampleId → Prop}
    (hsplit : SplitOf samples observedGroups foldSet)
    (hsorted : foldSet.sampleIds.Pairwise (· ≤ ·))
    (h : declareTargetMissing foldSet targetMissing = .ok declared)
    (hsamples : ∀ s, s ∈ samples ↔ candidates s ∧ s ∉ targetMissing)
    (hmissing : ∀ s ∈ targetMissing, candidates s)
    (hgroups : ∀ s, observedGroups[s]? = if s ∈ targetMissing then none else groups[s]?) :
    ObservedSplit candidates targetMissing groups declared := by
  obtain ⟨rfl, hv⟩ := declareTargetMissing_ok.mp h
  exact {
    valid := hv
    samples_iff := fun s => (hsplit.samples_iff s).trans (hsamples s)
    missing_known := hmissing
    missing_eq := rfl
    groups_eq := fun s => by rw [← hgroups s, ← hsplit.groups_eq]
    mode_eq := hsplit.mode_eq
    ascending := hv.ascending_of_sorted hsorted }

theorem KFoldSpec.splitWithTargetMissing_ok {self : KFoldSpec} {targetMissing : Finset SampleId}
    (h : self.splitWithTargetMissing sha256 foldSetId samples targetMissing = .ok foldSet) :
    ObservedSplit (· ∈ samples) targetMissing ∅ foldSet := by
  simp only [splitWithTargetMissing, bind_ok, FoldSet.uniqueSamples_ok] at h
  obtain ⟨_, ⟨-, rfl⟩, observed, hobserved, split, hsplit, hdeclared⟩ := h
  obtain ⟨hsub, rfl⟩ := observedUniverse_ok hobserved
  refine (split_ok sha256 hsplit).declared (split_sorted hsplit) hdeclared ?_ ?_ ?_
  · simp
  · exact fun s hs => List.mem_toFinset.mp (hsub hs)
  · simp

theorem StratifiedKFoldSpec.splitWithTargetMissing_ok {self : StratifiedKFoldSpec}
    {targetMissing : Finset SampleId}
    (h : self.splitWithTargetMissing sha256 foldSetId samples strata targetMissing = .ok foldSet) :
    ObservedSplit (· ∈ samples) targetMissing ∅ foldSet := by
  simp only [splitWithTargetMissing, bind_ok, FoldSet.uniqueSamples_ok] at h
  obtain ⟨_, ⟨-, rfl⟩, observed, hobserved, split, hsplit, hdeclared⟩ := h
  obtain ⟨hsub, rfl⟩ := observedUniverse_ok hobserved
  refine (split_ok sha256 hsplit).declared (split_sorted hsplit) hdeclared ?_ ?_ ?_
  · simp
  · exact fun s hs => List.mem_toFinset.mp (hsub hs)
  · simp

theorem GroupKFoldSpec.splitWithTargetMissing_ok {self : GroupKFoldSpec}
    {groups : BTreeMap SampleId GroupId} {targetMissing : Finset SampleId}
    (h : self.splitWithTargetMissing foldSetId groups targetMissing = .ok foldSet) :
    ObservedSplit (· ∈ groups) targetMissing groups foldSet := by
  simp only [splitWithTargetMissing, bind_ok] at h
  obtain ⟨observed, hobserved, split, hsplit, hdeclared⟩ := h
  obtain ⟨hsub, rfl⟩ := observedUniverse_ok hobserved
  have hmem (s : SampleId) :
      s ∈ ascending (groups.keys.toFinset \ targetMissing) ↔ s ∈ groups ∧ s ∉ targetMissing := by
    simp
  refine (split_ok hsplit).declared (split_sorted hsplit) hdeclared ?_ ?_ ?_
  · intro s
    rw [Std.ExtTreeMap.mem_keys, BTreeMap.mem_iff, BTreeMap.getElem?_restrict]
    by_cases hs : s ∈ groups
    · by_cases hm : s ∈ targetMissing
      · simp [hm]
      · simp [hs, hm]
    · simp [hs]
  · intro s hs
    simpa using hsub hs
  · intro s
    rw [BTreeMap.getElem?_restrict]
    by_cases hs : s ∈ groups
    · by_cases hm : s ∈ targetMissing <;> simp [hs, hm]
    · have hnone : groups[s]? = none := by
        rw [BTreeMap.mem_iff, not_exists] at hs
        exact Option.eq_none_iff_forall_ne_some.mpr hs
      simp [hnone]

end DagMl

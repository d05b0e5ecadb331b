import DagMl.Fold.Nested
import DagMl.Lib.Framing

/-!
# The ids of nested folds

An inner fold is named after its outer fold and its position. The names tell
inner folds apart, whatever the outer ids are; an inner fold and an outer one
share a name exactly when an outer id already has the form of an inner one.
-/

namespace DagMl

open Checked

/-- The name of the `i`-th inner fold of an outer fold. -/
def innerName (outer : FoldId) (i : Nat) : String := s!"{outer}.inner.fold{i}"

theorem toList_innerName :
    (innerName outer i).toList = (outer.value ++ ".inner.fol").toList ++ 'd' :: Nat.toDigits 10 i := by
  have hname : innerName outer i = outer.value ++ ".inner.fold" ++ toString i := rfl
  simp [hname]

/-- The last character of a name that is no digit ends the outer id. -/
theorem innerName_inj : innerName outer i = innerName outer' j ↔ outer = outer' ∧ i = j := by
  constructor
  · intro h
    have hchars := congrArg String.toList h
    rw [toList_innerName, toList_innerName] at hchars
    have hdigit (n : Nat) (c : Char) (hc : c ∈ Nat.toDigits 10 n) : ¬c.isDigit = false := by
      rw [Nat.isDigit_of_mem_toDigits (by decide) (by decide) hc]
      decide
    obtain ⟨houter, -, hi⟩ := (Framing.cut_inj_last (fun c : Char => c.isDigit = false)
      (hdigit i) (hdigit j) (by decide) (by decide)).mp hchars
    constructor
    · apply Id.value_injective
      exact (String.append_left_inj _).mp (String.toList_inj.mp houter)
    · rw [← Nat.ofDigitChars_ten_toDigits (n := i), hi, Nat.ofDigitChars_ten_toDigits]
  · rintro ⟨rfl, rfl⟩
    rfl

-- ---------------------------------------------------------------------------
-- The names a split gives
-- ---------------------------------------------------------------------------

/-- The names a splitter gives its folds. -/
def localNames (n : Nat) : List String := (List.range n).map fun i => s!"fold{i}"

theorem KFoldSpec.split_names {self : KFoldSpec}
    (h : self.split sha256 foldSetId samples = .ok foldSet) :
    foldSet.folds.map (·.foldId.value) = localNames self.nSplits := by
  simp only [split, bind_ok, FoldSet.validate_ok, pure_ok] at h
  obtain ⟨_, -, _, -, _, -, folds, hfolds, _, -, rfl⟩ := h
  refine map_of_collect hfolds fun i fold hfold => ?_
  simp only [bind_ok, pure_ok, Id.new_ok] at hfold
  obtain ⟨foldId, hid, rfl⟩ := hfold
  exact hid

theorem StratifiedKFoldSpec.split_names {self : StratifiedKFoldSpec}
    (h : self.split sha256 foldSetId samples strata = .ok foldSet) :
    foldSet.folds.map (·.foldId.value) = localNames self.nSplits := by
  simp only [split, bind_ok, FoldSet.validate_ok, pure_ok] at h
  obtain ⟨_, -, _, -, _, -, _, -, folds, hfolds, _, -, rfl⟩ := h
  refine map_of_collect hfolds fun i fold hfold => ?_
  simp only [bind_ok, pure_ok, Id.new_ok] at hfold
  obtain ⟨foldId, hid, rfl⟩ := hfold
  exact hid

theorem GroupKFoldSpec.split_names {self : GroupKFoldSpec} {groups : BTreeMap SampleId GroupId}
    (h : self.split foldSetId groups = .ok foldSet) :
    foldSet.folds.map (·.foldId.value) = localNames self.nSplits := by
  simp only [split, bind_ok, FoldSet.validate_ok, pure_ok] at h
  obtain ⟨_, -, _, -, _, -, parts, hparts, folds, hfolds, _, -, rfl⟩ := h
  -- placing a group keeps the number of parts
  have hlength : parts.length = self.nSplits := by
    refine loop_invariant (fun _ parts => parts.length = self.nSplits) (by simp) ?_ hparts
    intro done entry parts parts' hlength hstep
    simp only [bind_ok, pure_ok] at hstep
    obtain ⟨i, -, rfl⟩ := hstep
    rwa [List.length_modify]
  have hnames : (partitionOf foldSetId (groups.keys.insertionSort (· ≤ ·)) folds groups).folds.map
      (·.foldId.value) = parts.zipIdx.map fun e => s!"fold{e.2}" := by
    refine map_of_collect hfolds fun e fold hfold => ?_
    simp only [bind_ok, pure_ok, Id.new_ok] at hfold
    obtain ⟨foldId, hid, rfl⟩ := hfold
    exact hid
  have hpositions : parts.zipIdx.map Prod.snd = List.range self.nSplits := by
    rw [List.zipIdx_map_snd, ← List.range_eq_range', hlength]
  rw [hnames, localNames, ← hpositions, List.map_map]
  rfl

namespace NestedCvSpec

/-- How many folds the spec's splitter builds. -/
def nSplits : NestedCvSpec → Nat
  | .kFold spec => spec.nSplits
  | .capacityKFold _ => 0
  | .groupKFold spec => spec.nSplits
  | .stratifiedKFold spec => spec.splitter.nSplits

theorem splitInner_names {self : NestedCvSpec} {inner : FoldSet}
    (h : self.splitInner sha256 outer groups = .ok inner) :
    inner.folds.map (·.foldId.value) = localNames self.nSplits := by
  cases self with
  | kFold spec => exact KFoldSpec.split_names h
  | capacityKFold spec => cases h
  | groupKFold spec => exact GroupKFoldSpec.split_names h
  | stratifiedKFold spec => exact StratifiedKFoldSpec.split_names h

theorem buildNestedFoldSet_names {self : NestedCvSpec} {nested : NestedFoldSet}
    (h : self.buildNestedFoldSet sha256 outer groups = .ok nested) :
    nested.innerFoldSet.folds.map (·.foldId.value) =
      (List.range self.nSplits).map (innerName outer.foldId) := by
  simp only [buildNestedFoldSet, bind_ok, pure_ok] at h
  obtain ⟨_, -, inner, hinner, folds, hfolds, _, -, rfl⟩ := h
  have hnames : folds.map (·.foldId.value) =
      inner.folds.map fun fold => s!"{outer.foldId}.inner.{fold.foldId}" := by
    refine map_of_collect hfolds fun fold renamed hrename => ?_
    simp only [bind_ok, pure_ok, Id.new_ok] at hrename
    obtain ⟨foldId, hid, rfl⟩ := hrename
    exact hid
  calc folds.map (·.foldId.value)
      = (inner.folds.map (·.foldId.value)).map fun name => s!"{outer.foldId}.inner.{name}" := by
        rw [hnames, List.map_map]
        rfl
    _ = (List.range self.nSplits).map (innerName outer.foldId) := by
        rw [splitInner_names hinner, localNames, List.map_map]
        refine List.map_congr_left fun i _ => ?_
        simp only [Function.comp_apply, innerName, String.append_assoc, toString]
        rfl

end NestedCvSpec

-- ---------------------------------------------------------------------------
-- The ids of a nested run
-- ---------------------------------------------------------------------------

namespace FoldSet

/-- The ids of the inner folds of an outer fold, none where they cannot be built. -/
def innerFoldIds (sha256 : Digest) (self : FoldSet) (spec : NestedCvSpec)
    (outer : FoldAssignment) : List FoldId :=
  match spec.buildNestedFoldSet sha256 outer self.sampleGroups with
  | .ok nested => nested.innerFoldSet.folds.map (·.foldId)
  | .error _ => []

/-- The ids of every fold of a nested run, the outer folds first. -/
def nestedRunIds (sha256 : Digest) (self : FoldSet) (spec : NestedCvSpec) : List FoldId :=
  self.folds.map (·.foldId) ++ self.folds.flatMap (self.innerFoldIds sha256 spec)

/-- No outer fold bears the name of an inner fold. -/
def NoInnerName (self : FoldSet) (spec : NestedCvSpec) : Prop :=
  ∀ outer ∈ self.folds, ∀ parent ∈ self.folds, ∀ i < spec.nSplits,
    outer.foldId.value ≠ innerName parent.foldId i

variable {sha256 : Digest} {foldSet : FoldSet} {spec : NestedCvSpec} {outer : FoldAssignment}

theorem innerFoldIds_eq (sha256 : Digest) (foldSet : FoldSet) (spec : NestedCvSpec)
    (outer : FoldAssignment) :
    foldSet.innerFoldIds sha256 spec outer = [] ∨
      (foldSet.innerFoldIds sha256 spec outer).map (·.value) =
        (List.range spec.nSplits).map (innerName outer.foldId) := by
  unfold innerFoldIds
  split
  · rename_i nested h
    right
    rw [List.map_map]
    exact NestedCvSpec.buildNestedFoldSet_names h
  · exact .inl rfl

theorem exists_of_mem_innerFoldIds (h : foldId ∈ foldSet.innerFoldIds sha256 spec outer) :
    ∃ i < spec.nSplits, foldId.value = innerName outer.foldId i := by
  rcases innerFoldIds_eq sha256 foldSet spec outer with hnil | hnames
  · simp [hnil] at h
  · have hmem := List.mem_map_of_mem (f := fun foldId : FoldId => foldId.value) h
    rw [hnames, List.mem_map] at hmem
    obtain ⟨i, hi, hname⟩ := hmem
    exact ⟨i, List.mem_range.mp hi, hname.symm⟩

theorem nodup_innerFoldIds : (foldSet.innerFoldIds sha256 spec outer).Nodup := by
  rcases innerFoldIds_eq sha256 foldSet spec outer with hnil | hnames
  · simp [hnil]
  · apply List.Nodup.of_map (·.value)
    rw [hnames]
    refine List.nodup_range.map ?_
    intro i j h
    exact (innerName_inj.mp h).2

/-- Inner folds never share an id, of one outer fold or of two. -/
theorem nodup_flatMap_innerFoldIds (h : foldSet.Valid) :
    (foldSet.folds.flatMap (foldSet.innerFoldIds sha256 spec)).Nodup := by
  rw [List.nodup_flatMap]
  refine ⟨fun outer _ => nodup_innerFoldIds, ?_⟩
  refine (List.pairwise_map.mp h.foldIds_nodup).imp fun hne => ?_
  intro foldId hleft hright
  obtain ⟨i, -, hi⟩ := exists_of_mem_innerFoldIds hleft
  obtain ⟨j, -, hj⟩ := exists_of_mem_innerFoldIds hright
  exact hne (innerName_inj.mp (hi.symm.trans hj)).1

/-- Two outer folds, the second one named like the first inner fold of the first. -/
def lookalike (second : FoldId) : FoldSet where
  id := "lookalike"
  sampleIds := [⟨"look:1", by decide⟩, ⟨"look:2", by decide⟩, ⟨"look:3", by decide⟩]
  folds := [{
    foldId := ⟨"host", by decide⟩
    trainSampleIds := [⟨"look:1", by decide⟩, ⟨"look:2", by decide⟩]
    validationSampleIds := [⟨"look:3", by decide⟩] }, {
    foldId := second
    trainSampleIds := [⟨"look:2", by decide⟩, ⟨"look:3", by decide⟩]
    validationSampleIds := [⟨"look:1", by decide⟩] }]
  sampleGroups := ∅
  partitionMode := .resampled
  trainExclusion := .relations
  targetMissingSampleIds := []

end FoldSet

end DagMl

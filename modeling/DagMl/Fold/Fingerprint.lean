import Mathlib
import DagMl.Fold.Basic
import DagMl.Json.Text

/-!
# Fold set fingerprints

The value a fold set is fingerprinted through: sorted lists, skipped defaults,
and no empty maps. Its bytes are equal for two valid fold sets exactly when one
is the other reordered.
-/

namespace DagMl

open Checked Keyed JsonValue

-- ---------------------------------------------------------------------------
-- Serialization
-- ---------------------------------------------------------------------------

def idsValue (ids : List SampleId) : JsonValue := .array (ids.map fun id => .string id.value)

/-- A map, its keys written as strings. -/
def mapValue [LinearOrder K] (key : K → String) (value : V → JsonValue) (m : BTreeMap K V) :
    JsonValue :=
  .object (m.toList.map fun e => (key e.1, value e.2))

def groupsValue (groups : BTreeMap SampleId GroupId) : JsonValue :=
  mapValue Id.value (fun group => .string group.value) groups

def metadataValue (metadata : BTreeMap String JsonDocument) : JsonValue :=
  mapValue id JsonDocument.value metadata

def FoldAssignment.toValue (self : FoldAssignment) : JsonValue :=
  record [
    ("fold_id", some (.string self.foldId.value)),
    ("train_sample_ids", some (idsValue self.trainSampleIds)),
    ("validation_sample_ids", some (idsValue self.validationSampleIds)),
    ("metadata", some (metadataValue self.metadata))]

def FoldPartitionMode.toValue : FoldPartitionMode → JsonValue
  | .partition => .string "partition"
  | .resampled => .string "resampled"

def FoldTrainExclusion.toValue : FoldTrainExclusion → JsonValue
  | .relations => .string "relations"
  | .foldLocal => .string "fold_local"

namespace FoldSet

/-- `serde_json::to_value(self)`. -/
def toValue (self : FoldSet) : JsonValue :=
  record [
    ("id", some (.string self.id)),
    ("sample_ids", some (idsValue self.sampleIds)),
    ("folds", some (.array (self.folds.map FoldAssignment.toValue))),
    ("sample_groups", some (groupsValue self.sampleGroups)),
    ("partition_mode",
      if self.partitionMode = .partition then none else some self.partitionMode.toValue),
    ("train_exclusion",
      if self.trainExclusion = .relations then none else some self.trainExclusion.toValue),
    ("target_missing_sample_ids",
      if self.targetMissingSampleIds = [] then none
      else some (idsValue self.targetMissingSampleIds))]

end FoldSet

def isEmptyObject : JsonValue → Bool
  | .object [] => true
  | _ => false

/-- `object.remove(key)` when an empty object is stored there. -/
def removeIfEmpty (key : String) (entries : List (String × JsonValue)) :
    List (String × JsonValue) :=
  if (entries.lookup key).any isEmptyObject then entries.filter (·.1 ≠ key) else entries

def removeEmptyFoldMetadata : JsonValue → JsonValue
  | .object entries => .object (removeIfEmpty "metadata" entries)
  | fold => fold

def removeEmptyFoldsMetadata : JsonValue → JsonValue
  | .array folds => .array (folds.map removeEmptyFoldMetadata)
  | folds => folds

def removeEmptyFoldSetMaps : JsonValue → JsonValue
  | .object entries =>
    .object ((removeIfEmpty "sample_groups" entries).map fun e =>
      if e.1 = "folds" then (e.1, removeEmptyFoldsMetadata e.2) else e)
  | value => value

-- ---------------------------------------------------------------------------
-- The fingerprint
-- ---------------------------------------------------------------------------

namespace FoldSet

def sorted (ids : List SampleId) : List SampleId := ids.insertionSort (· ≤ ·)

def canonicalFold (fold : FoldAssignment) : FoldAssignment :=
  { fold with
    trainSampleIds := sorted fold.trainSampleIds
    validationSampleIds := sorted fold.validationSampleIds }

/-- The fold set with every list sorted. -/
def canonical (self : FoldSet) : FoldSet :=
  { self with
    sampleIds := sorted self.sampleIds
    targetMissingSampleIds := sorted self.targetMissingSampleIds
    folds := (sortBy FoldAssignment.foldId self.folds).map canonicalFold }

/-- What `fold_set_fingerprint` hashes. -/
def fingerprintPreimage (floats : FloatWriter) (self : FoldSet) : Result (List UInt8) := do
  self.validate
  let value := removeEmptyFoldSetMaps self.canonical.toValue
  pure (toVec floats value.sortAllObjects)

end FoldSet

-- ---------------------------------------------------------------------------
-- The value without empty maps
-- ---------------------------------------------------------------------------

@[simp] theorem isEmptyObject_mapValue [LinearOrder K] {key : K → String} {value : V → JsonValue}
    {m : BTreeMap K V} : isEmptyObject (mapValue key value m) = m.isEmpty := by
  rw [mapValue, ← Std.ExtTreeMap.isEmpty_toList]
  cases m.toList with
  | nil => rfl
  | cons e es => rfl

theorem removeEmptyFoldMetadata_toValue (fold : FoldAssignment) :
    removeEmptyFoldMetadata fold.toValue = record [
      ("fold_id", some (.string fold.foldId.value)),
      ("train_sample_ids", some (idsValue fold.trainSampleIds)),
      ("validation_sample_ids", some (idsValue fold.validationSampleIds)),
      ("metadata", if fold.metadata.isEmpty then none else some (metadataValue fold.metadata))] := by
  cases h : fold.metadata.isEmpty <;>
    simp [FoldAssignment.toValue, record, removeEmptyFoldMetadata, removeIfEmpty, List.lookup_cons,
      metadataValue, h]

namespace FoldSet

theorem removeEmptyFoldSetMaps_toValue (foldSet : FoldSet) :
    removeEmptyFoldSetMaps foldSet.toValue = record [
      ("id", some (.string foldSet.id)),
      ("sample_ids", some (idsValue foldSet.sampleIds)),
      ("folds", some (.array (foldSet.folds.map fun f => removeEmptyFoldMetadata f.toValue))),
      ("sample_groups",
        if foldSet.sampleGroups.isEmpty then none else some (groupsValue foldSet.sampleGroups)),
      ("partition_mode",
        if foldSet.partitionMode = .partition then none else some foldSet.partitionMode.toValue),
      ("train_exclusion",
        if foldSet.trainExclusion = .relations then none else some foldSet.trainExclusion.toValue),
      ("target_missing_sample_ids",
        if foldSet.targetMissingSampleIds = [] then none
        else some (idsValue foldSet.targetMissingSampleIds))] := by
  have hfolds : removeEmptyFoldsMetadata (.array (foldSet.folds.map FoldAssignment.toValue)) =
      .array (foldSet.folds.map fun f => removeEmptyFoldMetadata f.toValue) := by
    simp [removeEmptyFoldsMetadata]
  cases hg : foldSet.sampleGroups.isEmpty <;> by_cases hp : foldSet.partitionMode = .partition <;>
    by_cases ht : foldSet.trainExclusion = .relations <;>
    by_cases hm : foldSet.targetMissingSampleIds = [] <;>
    simp [toValue, record, removeEmptyFoldSetMaps, removeIfEmpty, List.lookup_cons, groupsValue,
      hfolds, hg, hp, ht, hm]

end FoldSet

-- ---------------------------------------------------------------------------
-- Fields
-- ---------------------------------------------------------------------------

theorem same_idsValue {ids ids' : List SampleId} :
    Same (idsValue ids) (idsValue ids') ↔ ids = ids' := by
  rw [idsValue, idsValue, Same, sameItems_iff, List.forall₂_map_left_iff, List.forall₂_map_right_iff]
  simp only [Same, string.injEq, Id.value_inj]
  constructor
  · intro h
    rw [← List.forall₂_eq_eq_eq]
    exact h.imp fun _ _ => Eq.symm
  · rintro rfl
    exact List.forall₂_same.mpr fun _ _ => rfl

theorem idsValue_valid (ids : List SampleId) : (idsValue ids).Valid := by
  rw [idsValue, Valid, validItems_iff, List.forall_mem_map]
  exact fun _ _ => trivial

section MapValue

variable {V : Type} [LinearOrder K] {key : K → String} {value : V → JsonValue}
  {m m' : BTreeMap K V}

theorem nodup_mapValue (hkey : Function.Injective key) (m : BTreeMap K V) :
    ((m.toList.map fun e => (key e.1, value e.2)).map Prod.fst).Nodup := by
  have hkeys := (BTreeMap.nodup_keys_toList m).map hkey
  rw [List.map_map] at hkeys ⊢
  exact hkeys

theorem lookup_mapValue (hkey : Function.Injective key) (k : K) :
    (m.toList.map fun e => (key e.1, value e.2)).lookup (key k) = m[k]?.map value := by
  apply Option.ext
  intro v
  rw [lookup_eq_some (nodup_mapValue hkey m), List.mem_map]
  simp only [Prod.mk.injEq, BTreeMap.mem_toList, Option.map_eq_some_iff]
  constructor
  · rintro ⟨e, he, hk, rfl⟩
    rw [hkey hk] at he
    exact ⟨e.2, he, rfl⟩
  · rintro ⟨w, hw, rfl⟩
    exact ⟨(k, w), hw, rfl, rfl⟩

theorem same_mapValue (hkey : Function.Injective key) :
    Same (mapValue key value m) (mapValue key value m') ↔
      ∀ k : K, Option.Rel (fun v w => Same (value v) (value w)) m[k]? m'[k]? := by
  have hrel (a b : Option V) : Option.Rel Same (a.map value) (b.map value) ↔
      Option.Rel (fun v w => Same (value v) (value w)) a b := by
    cases a <;> cases b <;> simp
  rw [mapValue, mapValue, same_object_iff (nodup_mapValue hkey m) (nodup_mapValue hkey m')]
  simp only [← hrel, ← lookup_mapValue hkey]
  constructor
  · exact fun h k => h (key k)
  · intro h t
    by_cases ht : ∃ k, key k = t
    · obtain ⟨k, rfl⟩ := ht
      exact h k
    · -- no entry of either map is written under `t`
      have hnone (m : BTreeMap K V) :
          (m.toList.map fun e => (key e.1, value e.2)).lookup t = none := by
        rw [← Option.not_isSome_iff_eq_none, lookup_isSome]
        simp only [List.map_map, List.mem_map, Function.comp]
        exact fun ⟨e, _, he⟩ => ht ⟨e.1, he⟩
      rw [hnone, hnone]
      exact .none

theorem mapValue_valid (hkey : Function.Injective key) (h : ∀ v, (value v).Valid) :
    (mapValue key value m).Valid := by
  rw [mapValue, Valid, validEntries_iff, List.forall_mem_map]
  exact ⟨nodup_mapValue hkey m, fun e _ => h e.2⟩

end MapValue

theorem same_groupsValue {groups groups' : BTreeMap SampleId GroupId} :
    Same (groupsValue groups) (groupsValue groups') ↔ groups = groups' := by
  have hrel (a b : Option GroupId) :
      Option.Rel (fun v w : GroupId => Same (.string v.value) (.string w.value)) a b ↔ a = b := by
    cases a <;> cases b <;> simp [Same, Id.value_inj, eq_comm]
  rw [groupsValue, groupsValue, same_mapValue Id.value_injective]
  simp only [hrel]
  exact ⟨BTreeMap.ext, fun h k => by rw [h]⟩

-- ---------------------------------------------------------------------------
-- Reordering
-- ---------------------------------------------------------------------------

/-- One fold with its lists in another order. Metadata values are compared as
values, numbers by representation. -/
structure FoldAssignment.Reordered (a b : FoldAssignment) : Prop where
  foldId : a.foldId = b.foldId
  train : a.trainSampleIds.Perm b.trainSampleIds
  validation : a.validationSampleIds.Perm b.validationSampleIds
  metadata : ∀ key : String,
    Option.Rel (fun d e : JsonDocument => Same d.value e.value) a.metadata[key]? b.metadata[key]?

theorem FoldAssignment.Reordered.refl (fold : FoldAssignment) : fold.Reordered fold where
  foldId := rfl
  train := .refl _
  validation := .refl _
  metadata key := by
    cases fold.metadata[key]? with
    | none => exact .none
    | some d => exact .some ((sortAllObjects_eq_iff d.valid d.valid).mp rfl)

/-- One fold set with its lists in another order. -/
structure FoldSet.Reordered (a b : FoldSet) : Prop where
  id : a.id = b.id
  samples : a.sampleIds.Perm b.sampleIds
  folds : ∃ folds, folds.Perm b.folds ∧ List.Forall₂ FoldAssignment.Reordered a.folds folds
  groups : a.sampleGroups = b.sampleGroups
  partitionMode : a.partitionMode = b.partitionMode
  trainExclusion : a.trainExclusion = b.trainExclusion
  targetMissing : a.targetMissingSampleIds.Perm b.targetMissingSampleIds

-- ---------------------------------------------------------------------------
-- Exactness
-- ---------------------------------------------------------------------------

/-- One fold of the canonical value. -/
abbrev foldValue (fold : FoldAssignment) : JsonValue :=
  removeEmptyFoldMetadata (FoldSet.canonicalFold fold).toValue

theorem same_sorted {ids ids' : List SampleId} :
    Same (idsValue (FoldSet.sorted ids)) (idsValue (FoldSet.sorted ids')) ↔ ids.Perm ids' := by
  rw [same_idsValue, FoldSet.sorted, FoldSet.sorted, sort_eq_iff]

/-- An empty map is skipped, which its value tells. -/
theorem rel_skip_empty {V : Type} [LinearOrder K] {key : K → String} {value : V → JsonValue}
    {m m' : BTreeMap K V} (hkey : Function.Injective key) :
    Option.Rel Same (if m.isEmpty then none else some (mapValue key value m))
        (if m'.isEmpty then none else some (mapValue key value m')) ↔
      ∀ k : K, Option.Rel (fun v w => Same (value v) (value w)) m[k]? m'[k]? := by
  rw [← same_mapValue hkey]
  apply rel_skip
  · intro h h'
    rw [Std.ExtTreeMap.isEmpty_iff] at h h'
    rw [h, h', same_mapValue hkey]
    simp
  · intro h
    have hlength : m.toList.length = m'.toList.length := by
      simpa [mapValue, Same] using h.1
    rw [← Std.ExtTreeMap.isEmpty_toList, ← Std.ExtTreeMap.isEmpty_toList, List.isEmpty_iff_length_eq_zero,
      List.isEmpty_iff_length_eq_zero, hlength]

theorem same_foldValue {a b : FoldAssignment} :
    Same (foldValue a) (foldValue b) ↔ a.Reordered b := by
  rw [foldValue, foldValue, removeEmptyFoldMetadata_toValue, removeEmptyFoldMetadata_toValue]
  refine (same_record_iff (by simp) (by simp)).trans ?_
  simp only [List.forall₂_cons, List.forall₂_nil_left_iff, Option.rel_some_some, and_true,
    FoldSet.canonicalFold, same_sorted, Same, string.injEq, Id.value_inj]
  constructor
  · rintro ⟨hid, htrain, hvalidation, hmetadata⟩
    exact ⟨hid.symm, htrain, hvalidation, (rel_skip_empty Function.injective_id).mp hmetadata⟩
  · intro h
    exact ⟨h.foldId.symm, h.train, h.validation,
      (rel_skip_empty Function.injective_id).mpr h.metadata⟩

theorem same_foldsValue {folds folds' : List FoldAssignment} (hn : (folds'.map (·.foldId)).Nodup) :
    Same (.array ((sortBy FoldAssignment.foldId folds).map foldValue))
        (.array ((sortBy FoldAssignment.foldId folds').map foldValue)) ↔
      ∃ m, m.Perm folds' ∧ List.Forall₂ FoldAssignment.Reordered folds m := by
  rw [Same, sameItems_iff, List.forall₂_map_left_iff, List.forall₂_map_right_iff]
  simp only [same_foldValue]
  exact forall₂_sortBy_iff (fun _ _ h => h.foldId) hn

namespace FoldSet

/-- The value the fingerprint serializes. -/
abbrev value (foldSet : FoldSet) : JsonValue := removeEmptyFoldSetMaps foldSet.canonical.toValue

theorem same_partitionMode {mode mode' : FoldPartitionMode} :
    Option.Rel Same (if mode = .partition then none else some mode.toValue)
      (if mode' = .partition then none else some mode'.toValue) ↔ mode = mode' := by
  cases mode <;> cases mode' <;> simp [FoldPartitionMode.toValue, Same]

theorem same_trainExclusion {mode mode' : FoldTrainExclusion} :
    Option.Rel Same (if mode = .relations then none else some mode.toValue)
      (if mode' = .relations then none else some mode'.toValue) ↔ mode = mode' := by
  cases mode <;> cases mode' <;> simp [FoldTrainExclusion.toValue, Same]

theorem same_targetMissing {ids ids' : List SampleId} :
    Option.Rel Same (if sorted ids = [] then none else some (idsValue (sorted ids)))
      (if sorted ids' = [] then none else some (idsValue (sorted ids'))) ↔ ids.Perm ids' := by
  rw [← same_sorted]
  apply rel_skip
  · intro h h'
    rw [h, h', same_idsValue]
  · intro h
    rw [same_idsValue.mp h]

theorem same_value {a b : FoldSet} (hb : b.Valid) : Same a.value b.value ↔ a.Reordered b := by
  rw [value, value, removeEmptyFoldSetMaps_toValue, removeEmptyFoldSetMaps_toValue]
  refine (same_record_iff (by simp) (by simp)).trans ?_
  simp only [List.forall₂_cons, List.forall₂_nil_left_iff, Option.rel_some_some, and_true,
    canonical, List.map_map, same_sorted]
  have hfolds := @same_foldsValue a.folds _ hb.foldIds_nodup
  constructor
  · rintro ⟨hid, hsamples, hf, hgroups, hmode, hexclusion, hmissing⟩
    exact {
      id := (string.inj hid).symm
      samples := hsamples
      folds := hfolds.mp hf
      groups := same_groupsValue.mp ((same_mapValue Id.value_injective).mpr
        ((rel_skip_empty Id.value_injective).mp hgroups))
      partitionMode := same_partitionMode.mp hmode
      trainExclusion := same_trainExclusion.mp hexclusion
      targetMissing := same_targetMissing.mp hmissing }
  · intro h
    have hgroups := (same_mapValue Id.value_injective).mp (same_groupsValue.mpr h.groups)
    exact ⟨congrArg string h.id.symm, h.samples, hfolds.mpr h.folds,
      (rel_skip_empty Id.value_injective).mpr hgroups, same_partitionMode.mpr h.partitionMode,
      same_trainExclusion.mpr h.trainExclusion, same_targetMissing.mpr h.targetMissing⟩

theorem foldValue_valid (fold : FoldAssignment) : (foldValue fold).Valid := by
  rw [foldValue, removeEmptyFoldMetadata_toValue]
  refine record_valid (by simp) ?_
  have hmetadata : (metadataValue fold.metadata).Valid :=
    mapValue_valid Function.injective_id JsonDocument.valid
  have hids := idsValue_valid
  simp only [List.forall_mem_cons, List.not_mem_nil, false_imp_iff, implies_true, and_true,
    Option.mem_some_iff, forall_eq']
  exact ⟨trivial, hids _, hids _, valid_of_skip hmetadata⟩

theorem value_valid (foldSet : FoldSet) : foldSet.value.Valid := by
  rw [value, removeEmptyFoldSetMaps_toValue]
  refine record_valid (by simp) ?_
  have hids := idsValue_valid
  have hgroups : (groupsValue foldSet.sampleGroups).Valid :=
    mapValue_valid Id.value_injective fun _ => trivial
  have hfolds : (JsonValue.array (foldSet.canonical.folds.map fun f =>
      removeEmptyFoldMetadata f.toValue)).Valid := by
    rw [canonical, List.map_map, JsonValue.Valid, validItems_iff, List.forall_mem_map]
    exact fun fold _ => foldValue_valid fold
  simp only [List.forall_mem_cons, List.not_mem_nil, false_imp_iff, implies_true, and_true,
    Option.mem_some_iff, forall_eq']
  refine ⟨trivial, hids _, hfolds, valid_of_skip hgroups, valid_of_skip ?_, valid_of_skip ?_,
    valid_of_skip (hids _)⟩
  · cases foldSet.canonical.partitionMode <;> trivial
  · cases foldSet.canonical.trainExclusion <;> trivial

/-- Two valid fold sets have one preimage when one is the other reordered. -/
theorem fingerprintPreimage_eq_iff (floats : FloatWriter) (a b : FoldSet)
    (ha : a.validate = .ok ()) (hb : b.validate = .ok ()) :
    ∃ p q, a.fingerprintPreimage floats = .ok p ∧ b.fingerprintPreimage floats = .ok q ∧
      (p = q ↔ a.Reordered b) ∧
      (p = q → a.partitionMode = b.partitionMode ∧ a.sampleGroups = b.sampleGroups ∧
        (a.folds.map (·.foldId)).Perm (b.folds.map (·.foldId)) ∧
        a.targetMissingSampleIds.Perm b.targetMissingSampleIds) := by
  have hread (c : FoldSet) (hc : c.validate = .ok ()) :
      c.fingerprintPreimage floats = .ok (toVec floats c.value) := by
    simp [fingerprintPreimage, hc, toVec_sortAllObjects]
  have hiff : toVec floats a.value = toVec floats b.value ↔ a.Reordered b := by
    rw [toVec_eq_iff (value_valid a) (value_valid b), same_value (validate_ok.mp hb)]
  refine ⟨_, _, hread a ha, hread b hb, hiff, fun h => ?_⟩
  have hreordered := hiff.mp h
  obtain ⟨folds, hperm, hfolds⟩ := hreordered.folds
  have hids : a.folds.map (·.foldId) = folds.map (·.foldId) := by
    rw [← List.forall₂_eq_eq_eq, List.forall₂_map_left_iff, List.forall₂_map_right_iff]
    exact hfolds.imp fun _ _ h => h.foldId
  exact ⟨hreordered.partitionMode, hreordered.groups, hids ▸ hperm.map _, hreordered.targetMissing⟩

/-- Two samples validated one after the other, and the same set read backwards. -/
def leftToRight : FoldSet where
  id := "cv.partition"
  sampleIds := [⟨"fp1", by decide⟩, ⟨"fp2", by decide⟩]
  folds := [
    ⟨⟨"kf0", by decide⟩, [⟨"fp2", by decide⟩], [⟨"fp1", by decide⟩], ∅⟩,
    ⟨⟨"kf1", by decide⟩, [⟨"fp1", by decide⟩], [⟨"fp2", by decide⟩], ∅⟩]
  sampleGroups := ∅
  partitionMode := .partition
  trainExclusion := .relations
  targetMissingSampleIds := []

def rightToLeft : FoldSet :=
  { leftToRight with
    sampleIds := leftToRight.sampleIds.reverse
    folds := leftToRight.folds.reverse }

theorem fingerprintPreimage_rightToLeft :
    leftToRight.Reordered rightToLeft ∧
    ∃ p q, leftToRight.fingerprintPreimage .ofBits = .ok p ∧
      rightToLeft.fingerprintPreimage .ofBits = .ok q ∧ p = q := by
  have hreordered : leftToRight.Reordered rightToLeft := {
    id := rfl
    samples := (List.reverse_perm _).symm
    folds := ⟨leftToRight.folds, (List.reverse_perm _).symm,
      List.forall₂_same.mpr fun fold _ => .refl fold⟩
    groups := rfl
    partitionMode := rfl
    trainExclusion := rfl
    targetMissing := .refl _ }
  obtain ⟨p, q, hp, hq, hiff, -⟩ := fingerprintPreimage_eq_iff .ofBits leftToRight rightToLeft
    (by decide) (by decide)
  exact ⟨hreordered, p, q, hp, hq, hiff.mpr hreordered⟩

end FoldSet

end DagMl

import Mathlib
import DagMl.Fold.Basic

/-!
# Splitters

K-fold, stratified K-fold and group K-fold. Each one builds a fold set and
passes it through `FoldSet.validate`, so what later modules need of a splitter
is only which samples, groups and mode its fold set has: `SplitOf`.
-/

namespace DagMl

open Checked

-- ---------------------------------------------------------------------------
-- Seeds
-- ---------------------------------------------------------------------------

/-- The digest function the seed derivation is built on. -/
abbrev Digest := List UInt8 → Vector UInt8 32

def utf8Bytes (s : String) : List UInt8 := s.toUTF8.toList

/-- `n.to_le_bytes()`. -/
def toLeBytes (n : UInt64) : List UInt8 :=
  (List.range 8).map fun i => UInt8.ofNat (n.toNat / 2 ^ (8 * i))

/-- `u64::from_le_bytes(bytes)`. -/
def ofLeBytes (bytes : List UInt8) : UInt64 :=
  UInt64.ofNat (bytes.foldr (fun b n => b.toNat + 256 * n) 0)

structure SeedContext where
  rootSeed : UInt64
  path : List String

namespace SeedContext

def root (rootSeed : UInt64) : SeedContext := ⟨rootSeed, []⟩

def child (self : SeedContext) (label : String) : SeedContext :=
  { self with path := self.path ++ [label] }

def deriveU64 (sha256 : Digest) (self : SeedContext) (label : String) : UInt64 :=
  let digest := sha256 (toLeBytes self.rootSeed ++
    self.path.flatMap (fun part => 0 :: utf8Bytes part) ++ [0xff] ++ utf8Bytes label)
  ofLeBytes (digest.toList.take 8)

end SeedContext

-- ---------------------------------------------------------------------------
-- The splitters
-- ---------------------------------------------------------------------------

variable (sha256 : Digest)

def orderedSamples (samples : List SampleId) (shuffle : Bool) (seed : UInt64) : List SampleId :=
  let ordered := samples.insertionSort (· ≤ ·)
  if shuffle then
    let context := (SeedContext.root seed).child "kfold"
    let key (s : SampleId) := context.deriveU64 sha256 s.value
    ordered.insertionSort fun left right =>
      key left < key right ∨ key left = key right ∧ left ≤ right
  else ordered

structure KFoldSpec where
  nSplits : Nat
  shuffle : Bool
  seed : Option UInt64

structure StratifiedKFoldSpec where
  nSplits : Nat
  shuffle : Bool
  seed : Option UInt64

structure GroupKFoldSpec where
  nSplits : Nat

/-- A fold set of `Partition` mode over `samples`, as every splitter builds it. -/
def partitionOf (id : String) (sampleIds : List SampleId) (folds : List FoldAssignment)
    (sampleGroups : BTreeMap SampleId GroupId) : FoldSet :=
  { id, sampleIds, folds, sampleGroups, partitionMode := .partition
    trainExclusion := .relations, targetMissingSampleIds := [] }

def KFoldSpec.split (self : KFoldSpec) (id : String) (samples : List SampleId) :
    Result FoldSet := do
  refuseIf (self.nSplits < 2) (.oofValidation "KFold requires at least two splits")
  let unique ← uniqueSamples "KFold samples" samples
  refuseIf (unique.card < self.nSplits) (.oofValidation
    s!"KFold n_splits={self.nSplits} exceeds sample count {unique.card}")
  let ordered := orderedSamples sha256 samples self.shuffle (self.seed.getD 0)
  let folds ← collect (List.range self.nSplits) fun foldIdx => do
    let validation := ordered.zipIdx.filterMap fun (s, idx) =>
      if idx % self.nSplits = foldIdx then some s else none
    let train := ordered.filter (· ∉ validation)
    let foldId ← Id.new s!"fold{foldIdx}"
    pure (FoldAssignment.mk foldId train validation ∅)
  let foldSet := partitionOf id (orderedSamples sha256 samples false 0) folds ∅
  foldSet.validate
  pure foldSet

def StratifiedKFoldSpec.split (self : StratifiedKFoldSpec) (id : String)
    (samples : List SampleId) (strata : BTreeMap SampleId String) : Result FoldSet := do
  refuseIf (self.nSplits < 2) (.oofValidation "StratifiedKFold requires at least two splits")
  let unique ← uniqueSamples "StratifiedKFold samples" samples
  refuseIf (unique.card < self.nSplits) (.oofValidation
    s!"StratifiedKFold n_splits={self.nSplits} exceeds sample count {unique.card}")
  let ordered := orderedSamples sha256 samples self.shuffle (self.seed.getD 0)
  let byLabel ← loop (fun (byLabel : BTreeMap String (List SampleId)) s => do
    let label ← need strata[s]?
      (.oofValidation s!"StratifiedKFold: sample `{s}` has no stratum label")
    pure (byLabel.pushEntry label s)) ∅ ordered
  -- Round robin over the samples listed class by class.
  let foldOf := BTreeMap.collect (byLabel.values.flatten.zipIdx.map fun (s, position) =>
    (s, position % self.nSplits))
  let folds ← collect (List.range self.nSplits) fun foldIdx => do
    let validation := ordered.filter fun s => foldOf[s]? = some foldIdx
    let train := ordered.filter fun s => foldOf[s]? ≠ some foldIdx
    let foldId ← Id.new s!"fold{foldIdx}"
    pure (FoldAssignment.mk foldId train validation ∅)
  let foldSet := partitionOf id (orderedSamples sha256 samples false 0) folds ∅
  foldSet.validate
  pure foldSet

/-- The index of the shortest list, the first one among equals. -/
def shortest (parts : List (List SampleId)) : Option Nat :=
  (parts.zipIdx.map fun (part, idx) => toLex (part.length, idx)).min?.map fun p => (ofLex p).2

def GroupKFoldSpec.split (self : GroupKFoldSpec) (id : String)
    (sampleGroups : BTreeMap SampleId GroupId) : Result FoldSet := do
  refuseIf (self.nSplits < 2) (.oofValidation "GroupKFold requires at least two splits")
  refuseIf sampleGroups.isEmpty (.oofValidation "GroupKFold requires sample groups")
  let groups := sampleGroups.toList.foldl
    (fun (groups : BTreeMap GroupId (List SampleId)) (s, group) => groups.pushEntry group s) ∅
  refuseIf (groups.size < self.nSplits) (.oofValidation
    s!"GroupKFold n_splits={self.nSplits} exceeds group count {groups.size}")
  -- Largest group first; group ids break ties.
  let grouped := groups.toList.insertionSort fun left right =>
    right.2.length < left.2.length ∨ right.2.length = left.2.length ∧ left.1 ≤ right.1
  let foldValidation ← loop (fun (parts : List (List SampleId)) (entry : GroupId × _) => do
    let foldIdx ← need (shortest parts) (.panicked "at least one fold")
    pure (parts.modify foldIdx (· ++ entry.2.insertionSort (· ≤ ·))))
    (List.replicate self.nSplits []) grouped
  let sampleIds := sampleGroups.keys.insertionSort (· ≤ ·)
  let folds ← collect foldValidation.zipIdx fun (validation, foldIdx) => do
    let validation := validation.insertionSort (· ≤ ·)
    let train := sampleIds.filter (· ∉ validation)
    let foldId ← Id.new s!"fold{foldIdx}"
    pure (FoldAssignment.mk foldId train validation ∅)
  let foldSet := partitionOf id sampleIds folds sampleGroups
  foldSet.validate
  pure foldSet

-- ---------------------------------------------------------------------------
-- What a split fold set is
-- ---------------------------------------------------------------------------

structure SplitOf (samples : List SampleId) (groups : BTreeMap SampleId GroupId)
    (foldSet : FoldSet) : Prop where
  valid : foldSet.Valid
  samples_iff : ∀ s, s ∈ foldSet.sampleIds ↔ s ∈ samples
  groups_eq : foldSet.sampleGroups = groups
  mode_eq : foldSet.partitionMode = .partition

theorem mem_orderedSamples : s ∈ orderedSamples sha256 samples shuffle seed ↔ s ∈ samples := by
  unfold orderedSamples
  cases shuffle <;> simp

theorem KFoldSpec.split_ok {self : KFoldSpec}
    (h : self.split sha256 foldSetId samples = .ok foldSet) : SplitOf samples ∅ foldSet := by
  simp only [split, bind_ok, FoldSet.validate_ok, pure_ok] at h
  obtain ⟨_, -, _, -, _, -, folds, -, _, hv, rfl⟩ := h
  exact ⟨hv, fun s => by simp [partitionOf, mem_orderedSamples], rfl, rfl⟩

theorem StratifiedKFoldSpec.split_ok {self : StratifiedKFoldSpec}
    (h : self.split sha256 foldSetId samples strata = .ok foldSet) : SplitOf samples ∅ foldSet := by
  simp only [split, bind_ok, FoldSet.validate_ok, pure_ok] at h
  obtain ⟨_, -, _, -, _, -, _, -, folds, -, _, hv, rfl⟩ := h
  exact ⟨hv, fun s => by simp [partitionOf, mem_orderedSamples], rfl, rfl⟩

theorem GroupKFoldSpec.split_ok {self : GroupKFoldSpec} {groups : BTreeMap SampleId GroupId}
    (h : self.split foldSetId groups = .ok foldSet) : SplitOf groups.keys groups foldSet := by
  simp only [split, bind_ok, FoldSet.validate_ok, pure_ok] at h
  obtain ⟨_, -, _, -, _, -, _, -, folds, -, _, hv, rfl⟩ := h
  exact ⟨hv, fun s => by simp [partitionOf], rfl, rfl⟩

end DagMl

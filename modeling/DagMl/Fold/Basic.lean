import Mathlib
import DagMl.Ids
import DagMl.Json
import DagMl.Lib.Checked
import DagMl.Lib.Collections

/-!
# Fold sets

`FoldSet.validate` and the rule it decides. `validate_ok` is the only lemma
later modules use about it: a fold set is accepted exactly when it is `Valid`.
-/

namespace DagMl

open Checked

structure FoldAssignment where
  foldId : FoldId
  trainSampleIds : List SampleId
  validationSampleIds : List SampleId
  metadata : BTreeMap String JsonDocument := ∅

/-- How validation membership is distributed across a fold set. -/
inductive FoldPartitionMode
  | partition
  | resampled
  deriving DecidableEq

/-- Which authority narrows each fold's training cohort. -/
inductive FoldTrainExclusion
  | relations
  | foldLocal
  deriving DecidableEq

structure FoldSet where
  id : String
  sampleIds : List SampleId
  folds : List FoldAssignment
  sampleGroups : BTreeMap SampleId GroupId
  partitionMode : FoldPartitionMode
  trainExclusion : FoldTrainExclusion
  targetMissingSampleIds : List SampleId

-- ---------------------------------------------------------------------------
-- Validation
-- ---------------------------------------------------------------------------

def uniqueSamples (label : String) (samples : List SampleId) : Result (Finset SampleId) :=
  unique (fun s => .oofValidation s!"{label} contains duplicate sample `{s}`") samples

def targetMissingRefusal (foldSetId : String) (reason : TargetMissingRefusal)
    (foldId : Option String) (sampleIds : Finset SampleId) (counts : Nat × Nat)
    (detail : String) : DagMlError :=
  let detail := match foldId with
    | some foldId => s!"fold set `{foldSetId}` fold `{foldId}`: {detail}"
    | none => s!"fold set `{foldSetId}`: {detail}"
  .targetMissing {
    reason, foldSetId := some foldSetId, foldId, targetMissingCount := counts.1
    observedCount := counts.2, sampleIds := (ascending sampleIds).map toString, detail }

namespace FoldSet

def targetMissingError (self : FoldSet) (reason : TargetMissingRefusal)
    (foldId : Option String) (sampleIds : Finset SampleId) (detail : String) : DagMlError :=
  let declared := self.targetMissingSampleIds.toFinset ∪ sampleIds
  let observedCount := (self.sampleIds.filter (· ∉ declared)).length
  targetMissingRefusal self.id reason foldId sampleIds (declared.card, observedCount) detail

def validateSampleGroups (self : FoldSet) (cvUniverse : Finset SampleId) : Result Unit :=
  if self.sampleGroups.isEmpty then .ok ()
  else do
    each self.sampleGroups.keys fun s =>
      refuseIf (s ∉ cvUniverse)
        (.oofValidation s!"sample group map references unknown sample `{s}`")
    each self.sampleIds fun s =>
      refuseIf (s ∉ self.sampleGroups)
        (.oofValidation s!"sample `{s}` is missing from non-empty group map")

/-- The groups of a set of samples. -/
def groupsOf (groups : BTreeMap SampleId GroupId) (samples : List SampleId) : List GroupId :=
  samples.filterMap (groups[·]?)

def validateGroupBoundary (self : FoldSet) (fold : FoldAssignment) : Result Unit :=
  if self.sampleGroups.isEmpty then .ok ()
  else each fold.validationSampleIds fun s =>
    match self.sampleGroups[s]? with
    | none => .ok ()
    | some group =>
      refuseIf (group ∈ groupsOf self.sampleGroups fold.trainSampleIds)
        (.oofValidation s!"fold `{fold.foldId}` leaks group `{group}` across train/validation")

/-- `*counts.get_mut(s).expect(..) += 1`. -/
def countValidation (counts : BTreeMap SampleId Nat) (s : SampleId) :
    Result (BTreeMap SampleId Nat) :=
  match counts[s]? with
  | some n => .ok (counts.insert s (n + 1))
  | none => .error (.panicked "validation sample is in universe")

/-- What the loop over the folds threads: fold ids seen, and how often each
sample was validated. -/
abbrev Progress := Finset FoldId × BTreeMap SampleId Nat

/-- One turn of the loop over the folds. -/
def validateFold (self : FoldSet) (cvUniverse : Finset SampleId) (progress : Progress)
    (fold : FoldAssignment) : Result Progress := do
  refuseIf (fold.foldId ∈ progress.1) (.oofValidation s!"duplicate fold id `{fold.foldId}`")
  let train ← uniqueSamples s!"fold `{fold.foldId}` train_sample_ids" fold.trainSampleIds
  let validation ←
    uniqueSamples s!"fold `{fold.foldId}` validation_sample_ids" fold.validationSampleIds
  refuseIf (validation = ∅)
    (.oofValidation s!"fold `{fold.foldId}` has no validation samples")
  each (ascending (train ∪ validation)) fun s =>
    refuseIf (s ∉ cvUniverse)
      (.oofValidation s!"fold `{fold.foldId}` references unknown sample `{s}`")
  each (ascending (train ∩ validation)) fun s =>
    .error (.oofValidation
      s!"fold `{fold.foldId}` has train/validation overlap at sample `{s}`")
  let counts ← loop countValidation progress.2 (ascending validation)
  self.validateGroupBoundary fold
  pure (insert fold.foldId progress.1, counts)

def validateCompleteness (self : FoldSet) (counts : BTreeMap SampleId Nat) : Result Unit :=
  match self.partitionMode with
  | .resampled => .ok ()
  | .partition => each counts.toList fun (s, count) =>
    refuseIf (count ≠ 1) (.oofValidation
      s!"sample `{s}` appears in validation {count} time(s), expected exactly once")

def validate (self : FoldSet) : Result Unit := do
  refuseIf (isBlank self.id) (.oofValidation "fold set id is empty")
  refuseIf (self.sampleIds = []) (.oofValidation "fold set contains no samples")
  refuseIf (self.folds = []) (.oofValidation "fold set contains no folds")
  let cvUniverse ← uniqueSamples "fold set sample_ids" self.sampleIds
  self.validateSampleGroups cvUniverse
  let targetMissing ←
    uniqueSamples "fold set target_missing_sample_ids" self.targetMissingSampleIds
  let inUniverse := targetMissing.filter (· ∈ cvUniverse)
  refuseIf (inUniverse ≠ ∅) (self.targetMissingError .inCvUniverse none inUniverse
    "target-missing samples must not be part of the fold set sample_ids")
  let counts := BTreeMap.tabulate self.sampleIds fun _ => 0
  let (_, counts) ← loop (self.validateFold cvUniverse) (∅, counts) self.folds
  self.validateCompleteness counts

-- ---------------------------------------------------------------------------
-- The rule
-- ---------------------------------------------------------------------------

/-- No validation sample of the fold shares a group with a training sample. -/
def GroupBoundary (groups : BTreeMap SampleId GroupId) (fold : FoldAssignment) : Prop :=
  ∀ s ∈ fold.validationSampleIds, ∀ g, groups[s]? = some g →
    ∀ t ∈ fold.trainSampleIds, groups[t]? ≠ some g

/-- What one fold of a valid set satisfies. -/
structure ValidFold (foldSet : FoldSet) (fold : FoldAssignment) : Prop where
  train_nodup : fold.trainSampleIds.Nodup
  validation_nodup : fold.validationSampleIds.Nodup
  validation_ne : fold.validationSampleIds ≠ []
  train_known : ∀ s ∈ fold.trainSampleIds, s ∈ foldSet.sampleIds
  validation_known : ∀ s ∈ fold.validationSampleIds, s ∈ foldSet.sampleIds
  disjoint : ∀ s ∈ fold.validationSampleIds, s ∉ fold.trainSampleIds
  boundary : GroupBoundary foldSet.sampleGroups fold

/-- Every sample of the set, as often as it is validated. -/
def validated (folds : List FoldAssignment) : List SampleId :=
  folds.flatMap (·.validationSampleIds)

structure Valid (foldSet : FoldSet) : Prop where
  id_ne : isBlank foldSet.id = false
  samples_ne : foldSet.sampleIds ≠ []
  folds_ne : foldSet.folds ≠ []
  samples_nodup : foldSet.sampleIds.Nodup
  groups_known : foldSet.sampleGroups.isEmpty ∨ ∀ s, s ∈ foldSet.sampleGroups ↔ s ∈ foldSet.sampleIds
  missing_nodup : foldSet.targetMissingSampleIds.Nodup
  missing_outside : ∀ s ∈ foldSet.targetMissingSampleIds, s ∉ foldSet.sampleIds
  foldIds_nodup : (foldSet.folds.map (·.foldId)).Nodup
  folds_valid : ∀ fold ∈ foldSet.folds, foldSet.ValidFold fold
  complete : foldSet.partitionMode = .partition →
    ∀ s ∈ foldSet.sampleIds, (validated foldSet.folds).count s = 1

theorem uniqueSamples_ok {s : Finset SampleId} :
    uniqueSamples label l = .ok s ↔ l.Nodup ∧ s = l.toFinset := unique_ok

theorem validateSampleGroups_ok {self : FoldSet} :
    self.validateSampleGroups self.sampleIds.toFinset = .ok u ↔
      self.sampleGroups.isEmpty ∨ ∀ s, s ∈ self.sampleGroups ↔ s ∈ self.sampleIds := by
  unfold validateSampleGroups
  split
  · simp_all
  · rename_i hne
    simp only [bind_ok, each_ok, refuseIf_ok, hne, Bool.false_eq_true, false_or]
    simp only [Std.ExtTreeMap.mem_keys, List.mem_toFinset, not_not]
    constructor
    · rintro ⟨_, h₁, h₂⟩ s
      exact ⟨h₁ s, h₂ s⟩
    · intro h
      exact ⟨(), fun s => (h s).mp, fun s => (h s).mpr⟩

theorem validateGroupBoundary_ok {self : FoldSet} :
    self.validateGroupBoundary fold = .ok u ↔ GroupBoundary self.sampleGroups fold := by
  unfold validateGroupBoundary GroupBoundary
  split
  · rename_i h
    rw [Std.ExtTreeMap.isEmpty_iff] at h
    simp [h]
  · rw [each_ok]
    refine forall₂_congr fun s _ => ?_
    cases hs : self.sampleGroups[s]? with
    | none => simp
    | some g =>
      simp only [refuseIf_ok, groupsOf, List.mem_filterMap, Option.some.injEq]
      constructor
      · rintro h _ rfl t ht htg
        exact h ⟨t, ht, htg⟩
      · rintro h ⟨t, ht, htg⟩
        exact h g rfl t ht htg

theorem countValidation_ok {counts : BTreeMap SampleId Nat} :
    countValidation counts s = .ok counts' ↔
      s ∈ counts ∧ ∀ t, counts'[t]? = counts[t]?.map (· + if s = t then 1 else 0) := by
  unfold countValidation
  cases hs : counts[s]? with
  | none => simp [BTreeMap.mem_iff, hs]
  | some n =>
    have hget (t : SampleId) : (counts.insert s (n + 1))[t]? =
        counts[t]?.map (· + if s = t then 1 else 0) := by
      rw [BTreeMap.getElem?_insert]
      split
      · rename_i h
        simp [← h, hs]
      · simp
    simp only [Except.ok.injEq, BTreeMap.mem_iff, hs, Option.some.injEq, exists_eq', true_and,
      ← hget]
    exact ⟨fun h => by simp [h], fun h => (BTreeMap.ext h).symm⟩

theorem countValidation_loop {counts : BTreeMap SampleId Nat} :
    loop countValidation counts l = .ok counts' ↔
      (∀ s ∈ l, s ∈ counts) ∧ ∀ s, counts'[s]? = counts[s]?.map (· + l.count s) := by
  induction l generalizing counts with
  | nil =>
    simp only [loop_nil, Except.ok.injEq, List.count_nil, Nat.add_zero]
    constructor
    · rintro rfl
      simp
    · rintro ⟨-, h⟩
      exact (BTreeMap.ext fun s => by simpa using h s).symm
  | cons x xs ih =>
    simp only [loop_cons, ih, List.forall_mem_cons]
    have hmem {c₁ : BTreeMap SampleId Nat}
        (h : ∀ t, c₁[t]? = counts[t]?.map (· + if x = t then 1 else 0)) (t : SampleId) :
        t ∈ c₁ ↔ t ∈ counts := by
      simp [BTreeMap.mem_iff, h]
    have hcount {c₁ : BTreeMap SampleId Nat}
        (h : ∀ t, c₁[t]? = counts[t]?.map (· + if x = t then 1 else 0)) (t : SampleId) :
        c₁[t]?.map (· + xs.count t) = counts[t]?.map (· + (x :: xs).count t) := by
      rw [h, Option.map_map]
      congr 1
      funext n
      simp only [Function.comp, List.count_cons, beq_iff_eq]
      omega
    constructor
    · rintro ⟨c₁, hstep, hxs, h⟩
      obtain ⟨hx, h₁⟩ := countValidation_ok.mp hstep
      exact ⟨⟨hx, fun s hs => (hmem h₁ s).mp (hxs s hs)⟩, fun s => (h s).trans (hcount h₁ s)⟩
    · rintro ⟨⟨hx, hxs⟩, h⟩
      obtain ⟨n, hn⟩ := BTreeMap.mem_iff.mp hx
      have hstep : countValidation counts x = .ok (counts.insert x (n + 1)) := by
        simp [countValidation, hn]
      obtain ⟨-, h₁⟩ := countValidation_ok.mp hstep
      exact ⟨_, hstep, fun s hs => (hmem h₁ s).mpr (hxs s hs),
        fun s => (h s).trans (hcount h₁ s).symm⟩

variable {foldSet : FoldSet}

/-- The loop state that accounts for the folds already visited. -/
structure Tally (foldSet : FoldSet) (done : List FoldAssignment) (progress : Progress) : Prop where
  ids : progress.1 = (done.map (·.foldId)).toFinset
  counts : ∀ s, progress.2[s]? =
    if s ∈ foldSet.sampleIds then some ((validated done).count s) else none

theorem Tally.mem (h : Tally foldSet done progress) : s ∈ progress.2 ↔ s ∈ foldSet.sampleIds := by
  rw [BTreeMap.mem_iff, h.counts]
  split <;> simp_all

theorem Tally.start (foldSet : FoldSet) :
    foldSet.Tally [] (∅, BTreeMap.tabulate foldSet.sampleIds fun _ => 0) where
  ids := rfl
  counts _ := BTreeMap.getElem?_tabulate

theorem Tally.exists (foldSet : FoldSet) (done : List FoldAssignment) :
    ∃ progress, foldSet.Tally done progress :=
  ⟨(_, BTreeMap.tabulate foldSet.sampleIds ((validated done).count ·)), rfl,
    fun _ => BTreeMap.getElem?_tabulate⟩

theorem Tally.unique (h₁ : Tally foldSet done p) (h₂ : Tally foldSet done q) : p = q := by
  refine Prod.ext (h₁.ids.trans h₂.ids.symm) (BTreeMap.ext fun s => ?_)
  rw [h₁.counts, h₂.counts]

/-- One turn accepts exactly the folds the rule allows, and counts them. -/
theorem validateFold_ok (ht : foldSet.Tally done progress) :
    foldSet.validateFold foldSet.sampleIds.toFinset progress fold = .ok progress' ↔
      fold.foldId ∉ done.map (·.foldId) ∧ foldSet.ValidFold fold ∧
        foldSet.Tally (done ++ [fold]) progress' := by
  simp only [validateFold, bind_ok, refuseIf_ok, uniqueSamples_ok, each_ok, mem_ascending,
    countValidation_loop, validateGroupBoundary_ok, pure_ok, error_ok, ht.ids, List.mem_toFinset]
  have htally {counts : BTreeMap SampleId Nat} (hv : fold.validationSampleIds.Nodup) :
      foldSet.Tally (done ++ [fold])
          (insert fold.foldId (done.map (·.foldId)).toFinset, counts) ↔
        ∀ s, counts[s]? = progress.2[s]?.map
          (· + (ascending fold.validationSampleIds.toFinset).count s) := by
    have hids : insert fold.foldId (done.map (·.foldId)).toFinset =
        ((done ++ [fold]).map (·.foldId)).toFinset := by
      ext; simp
    have hget (s : SampleId) : progress.2[s]?.map
        (· + (ascending fold.validationSampleIds.toFinset).count s) =
          if s ∈ foldSet.sampleIds then some ((validated (done ++ [fold])).count s) else none := by
      rw [ht.counts, count_ascending_toFinset hv]
      split <;> simp [validated]
    simp only [hget]
    exact ⟨fun h => h.counts, fun h => ⟨hids, h⟩⟩
  constructor
  · rintro ⟨_, hid, _, ⟨htn, rfl⟩, _, ⟨hvn, rfl⟩, _, hne, _, hknown, _, hdisj, counts,
      ⟨-, hc⟩, _, hb, rfl⟩
    refine ⟨hid, ⟨htn, hvn, ?_, ?_, ?_, ?_, hb⟩, (htally hvn).mpr hc⟩
    · rintro h
      simp [h] at hne
    · exact fun s hs => not_not.mp (hknown s (by simp [hs]))
    · exact fun s hs => not_not.mp (hknown s (by simp [hs]))
    · exact fun s hv ht => hdisj s (by simp [hv, ht])
  · rintro ⟨hid, hf, htally'⟩
    have hp : (insert fold.foldId (done.map (·.foldId)).toFinset, progress'.2) = progress' := by
      refine Prod.ext ?_ rfl
      rw [htally'.ids]
      ext; simp
    refine ⟨(), hid, _, ⟨hf.train_nodup, rfl⟩, _, ⟨hf.validation_nodup, rfl⟩, (), ?_, (), ?_, (),
      ?_, progress'.2, ⟨?_, (htally hf.validation_nodup).mp (hp ▸ htally')⟩, (), hf.boundary, hp⟩
    · simpa using hf.validation_ne
    · intro s hs
      rcases Finset.mem_union.mp hs with hs | hs
      · simpa using hf.train_known s (by simpa using hs)
      · simpa using hf.validation_known s (by simpa using hs)
    · intro s hs
      obtain ⟨h₁, h₂⟩ := Finset.mem_inter.mp hs
      exact hf.disjoint s (by simpa using h₂) (by simpa using h₁)
    · exact fun s hs => ht.mem.mpr (hf.validation_known s (by simpa using hs))

theorem validateFolds_ok (ht : foldSet.Tally done progress) (hd : (done.map (·.foldId)).Nodup) :
    loop (foldSet.validateFold foldSet.sampleIds.toFinset) progress rest = .ok progress' ↔
      ((done ++ rest).map (·.foldId)).Nodup ∧ (∀ fold ∈ rest, foldSet.ValidFold fold) ∧
        foldSet.Tally (done ++ rest) progress' := by
  induction rest generalizing done progress with
  | nil =>
    simp only [loop_nil, Except.ok.injEq, List.append_nil, hd, true_and, List.not_mem_nil]
    exact ⟨fun h => ⟨nofun, h ▸ ht⟩, fun ⟨_, h⟩ => ht.unique h⟩
  | cons fold rest ih =>
    rw [loop_cons, List.forall_mem_cons, List.append_cons]
    have hnodup : ((done ++ [fold]).map (·.foldId)).Nodup ↔ fold.foldId ∉ done.map (·.foldId) := by
      rw [List.map_append, List.map_singleton, ← List.concat_eq_append, List.nodup_concat]
      exact and_iff_left hd
    constructor
    · rintro ⟨p, hstep, hrest⟩
      obtain ⟨hid, hf, htally⟩ := (validateFold_ok ht).mp hstep
      obtain ⟨hn, hfs, h⟩ := (ih htally (hnodup.mpr hid)).mp hrest
      exact ⟨hn, ⟨hf, hfs⟩, h⟩
    · rintro ⟨hn, ⟨hf, hfs⟩, h⟩
      obtain ⟨p, htally⟩ := Tally.exists foldSet (done ++ [fold])
      have hn' : ((done ++ [fold]).map (·.foldId)).Nodup := by
        rw [List.map_append] at hn
        exact hn.of_append_left
      exact ⟨p, (validateFold_ok ht).mpr ⟨hnodup.mp hn', hf, htally⟩,
        (ih htally hn').mpr ⟨hn, hfs, h⟩⟩

theorem validateCompleteness_ok (ht : foldSet.Tally foldSet.folds progress) :
    foldSet.validateCompleteness progress.2 = .ok u ↔
      (foldSet.partitionMode = .partition →
        ∀ s ∈ foldSet.sampleIds, (validated foldSet.folds).count s = 1) := by
  unfold validateCompleteness
  cases foldSet.partitionMode with
  | resampled => simp
  | partition =>
    simp only [each_ok, refuseIf_ok, Prod.forall, BTreeMap.mem_toList, ht.counts, not_not,
      forall_const]
    constructor
    · exact fun h s hs => h s _ (if_pos hs)
    · intro h s n hn
      split at hn <;> simp_all

theorem validate_ok {self : FoldSet} : self.validate = .ok u ↔ self.Valid := by
  have hstart := Tally.start self
  simp only [validate, bind_ok, refuseIf_ok, uniqueSamples_ok]
  constructor
  · rintro ⟨_, hid, _, hs, _, hf, _, ⟨hn, rfl⟩, _, hg, _, ⟨hmn, rfl⟩, _, hm, p, hloop, hc⟩
    obtain ⟨hfn, hfs, htally⟩ := (validateFolds_ok hstart (by simp)).mp hloop
    exact ⟨by simpa using hid, hs, hf, hn, validateSampleGroups_ok.mp hg, hmn,
      by simpa [Finset.filter_eq_empty_iff] using hm, hfn, hfs,
      (validateCompleteness_ok htally).mp hc⟩
  · intro h
    obtain ⟨p, htally⟩ := Tally.exists self self.folds
    exact ⟨(), by simpa using h.id_ne, (), h.samples_ne, (), h.folds_ne, _, ⟨h.samples_nodup, rfl⟩,
      (), validateSampleGroups_ok.mpr h.groups_known, _, ⟨h.missing_nodup, rfl⟩, (),
      by simpa [Finset.filter_eq_empty_iff] using h.missing_outside, p,
      (validateFolds_ok hstart (by simp)).mpr ⟨h.foldIds_nodup, h.folds_valid, htally⟩,
      (validateCompleteness_ok htally).mpr h.complete⟩

instance : Decidable foldSet.Valid :=
  decidable_of_iff (foldSet.validate = .ok ()) validate_ok

/-- A partition validates each of its samples in one fold. -/
theorem Valid.validated_once (hv : foldSet.Valid) (hm : foldSet.partitionMode = .partition)
    (hs : s ∈ foldSet.sampleIds) :
    ∃! fold, fold ∈ foldSet.folds ∧ s ∈ fold.validationSampleIds := by
  have hcount := hv.complete hm s hs
  have hmem : s ∈ validated foldSet.folds := List.count_pos_iff.mp (by omega)
  obtain ⟨fold, hf, hsf⟩ := List.mem_flatMap.mp hmem
  refine ⟨fold, ⟨hf, hsf⟩, fun other ⟨ho, hso⟩ => ?_⟩
  by_contra hne
  -- A second fold would count the sample again on one side of the first.
  obtain ⟨before, after, hsplit⟩ := List.append_of_mem hf
  have hrest : s ∈ validated (before ++ after) := by
    refine List.mem_flatMap.mpr ⟨other, ?_, hso⟩
    rw [hsplit] at ho
    simpa [hne] using ho
  have h₁ := List.count_pos_iff.mpr hrest
  have h₂ := List.count_pos_iff.mpr hsf
  rw [hsplit] at hcount
  simp only [validated, List.flatMap_append, List.flatMap_cons, List.count_append] at hcount h₁
  omega

-- ---------------------------------------------------------------------------
-- Folds by id
-- ---------------------------------------------------------------------------

/-- `folds.iter().map(|fold| (&fold.fold_id, fold)).collect::<BTreeMap<_, _>>()`. -/
def foldsById (self : FoldSet) : BTreeMap FoldId FoldAssignment :=
  BTreeMap.collect (self.folds.map fun fold => (fold.foldId, fold))

theorem Valid.foldsById_get (h : foldSet.Valid) {foldId : FoldId} :
    foldSet.foldsById[foldId]? = some fold ↔ fold ∈ foldSet.folds ∧ fold.foldId = foldId := by
  have hn : ((foldSet.folds.map fun fold => (fold.foldId, fold)).map Prod.fst).Nodup := by
    rw [List.map_map]
    exact h.foldIds_nodup
  rw [foldsById, BTreeMap.getElem?_collect (BTreeMap.functional_of_nodup hn)]
  simp only [List.mem_map, Prod.mk.injEq]
  constructor
  · rintro ⟨_, hm, rfl, rfl⟩
    exact ⟨hm, rfl⟩
  · rintro ⟨hm, rfl⟩
    exact ⟨fold, hm, rfl, rfl⟩

end FoldSet

end DagMl

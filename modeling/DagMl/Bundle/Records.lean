import Mathlib
import DagMl.Bundle.Prediction
import DagMl.Lib.Framing

/-!
# What the record validators accept

A requirement, a cache record and a block record each name their rows by
sample ids or by unit ids, as their level says. A valid record counts and
covers the rows of its blocks, no row twice in one fold.
-/

namespace DagMl

open Checked

-- ---------------------------------------------------------------------------
-- Rows by level
-- ---------------------------------------------------------------------------

/-- The rows are named as the level says. -/
structure LevelUnits (level : PredictionLevel) (sampleIds : List SampleId)
    (unitIds : List PredictionUnitId) : Prop where
  level_ne : level ≠ .observation
  samples_nodup : level = .sample → sampleIds.Nodup
  units_eq : level = .sample → unitIds = [] ∨ unitIds = samplePredictionUnits sampleIds
  samples_eq : level ≠ .sample → sampleIds = []
  units_nodup : level ≠ .sample → unitIds.Nodup
  units_level : level ≠ .sample → ∀ unitId ∈ unitIds, unitId.level = level

theorem validateUniqueIds_ok [DecidableEq α] [ToString α] {values : List α} :
    validateUniqueIds label values = .ok u ↔ values.Nodup := by
  simp only [validateUniqueIds, bind_ok, unique_ok, pure_ok]
  simp

theorem validateNonEmpty_ok {value : String} :
    validateNonEmpty label value = .ok u ↔ isBlank value = false := by
  simp [validateNonEmpty, refuseIf_ok]

/-- The names the owner's own check reads: of samples or of units. -/
def rowNames (level : PredictionLevel) (sampleIds : List SampleId)
    (unitIds : List PredictionUnitId) : List String :=
  if level = .sample then sampleIds.map Id.value else unitIds.map PredictionUnitId.display

theorem validateLevelUnits_ok {level : PredictionLevel} {sampleIds : List SampleId}
    {unitIds : List PredictionUnitId} {covers : List String → Result Unit} :
    validateLevelUnits who unitLabel observation level sampleIds unitIds covers = .ok u ↔
      LevelUnits level sampleIds unitIds ∧ covers (rowNames level sampleIds unitIds) = .ok () := by
  cases level with
  | observation =>
    simp only [validateLevelUnits, error_ok, false_iff, not_and]
    exact fun h => absurd rfl h.level_ne
  | sample =>
    simp only [validateLevelUnits, bind_ok, validateUniqueIds_ok, refuseIf_ok, rowNames, if_true]
    constructor
    · rintro ⟨_, hn, _, hcovers, hunits⟩
      refine ⟨⟨by simp, fun _ => hn, fun _ => ?_, by simp, by simp, by simp⟩, hcovers⟩
      rw [not_and, not_not] at hunits
      exact or_iff_not_imp_left.mpr hunits
    · rintro ⟨h, hcovers⟩
      refine ⟨(), h.samples_nodup rfl, (), hcovers, ?_⟩
      rw [not_and, not_not]
      exact or_iff_not_imp_left.mp (h.units_eq rfl)
  | target | group =>
    simp only [validateLevelUnits, validatePredictionUnits, bind_ok, validateUniqueIds_ok, each_ok,
      refuseIf_ok, not_not, rowNames, reduceCtorEq, if_false]
    constructor
    · rintro ⟨_, hs, _, ⟨_, hn, hlevel⟩, hcovers⟩
      exact ⟨⟨by simp, by simp, by simp, fun _ => hs, fun _ => hn, fun _ => hlevel⟩, hcovers⟩
    · rintro ⟨h, hcovers⟩
      exact ⟨(), h.samples_eq (by simp), (), ⟨(), h.units_nodup (by simp), h.units_level (by simp)⟩,
        hcovers⟩

-- ---------------------------------------------------------------------------
-- Fingerprints and keys
-- ---------------------------------------------------------------------------

theorem digitChar_hex : ∀ n < 16,
    isHexDigit (Nat.digitChar n) = true ∧ (Nat.digitChar n).utf8Size = 1 := by
  decide

theorem utf8ByteSize_toHex (bytes : List UInt8) : (toHex bytes).utf8ByteSize = 2 * bytes.length := by
  rw [toHex, Framing.utf8ByteSize_ofList]
  induction bytes with
  | nil => rfl
  | cons b bs ih =>
    have hhigh : b.toNat / 16 < 16 := by have := b.toNat_lt; omega
    have hlow : b.toNat % 16 < 16 := Nat.mod_lt _ (by decide)
    simp only [List.flatMap_cons, List.map_append, List.sum_append, ih, List.map_cons, List.map_nil,
      List.sum_cons, List.sum_nil, (digitChar_hex _ hhigh).2, (digitChar_hex _ hlow).2,
      List.length_cons]
    omega

theorem toHex_isHexDigit (bytes : List UInt8) : (toHex bytes).toList.all isHexDigit = true := by
  simp only [toHex, String.toList_ofList, List.all_eq_true, List.mem_flatMap]
  rintro c ⟨b, -, hc⟩
  simp only [List.mem_cons, List.not_mem_nil, or_false] at hc
  rcases hc with rfl | rfl
  · exact (digitChar_hex _ (by have := b.toNat_lt; omega)).1
  · exact (digitChar_hex _ (Nat.mod_lt _ (by decide))).1

/-- A digest passes every fingerprint check. -/
theorem validateRuntimeFingerprint_stable (externals : Externals) (value : JsonValue) :
    validateRuntimeFingerprint label (stableJsonFingerprint externals value) = .ok () := by
  simp only [validateRuntimeFingerprint, refuseIf_ok, stableJsonFingerprint, utf8ByteSize_toHex,
    toHex_isHexDigit]
  simp

theorem isBlank_append (s t : String) : isBlank (s ++ t) = (isBlank s && isBlank t) := by
  simp [isBlank]

theorem isBlank_key (r : BundlePredictionRequirement) : isBlank r.key = false := by
  have harrow : isBlank (toString "->") = false := by decide
  simp [BundlePredictionRequirement.key, bundlePredictionRequirementKey, isBlank_append, harrow]

-- ---------------------------------------------------------------------------
-- Requirements and block records
-- ---------------------------------------------------------------------------

namespace BundlePredictionRequirement

structure Valid (r : BundlePredictionRequirement) : Prop where
  sourcePort_ne : isBlank r.sourcePort = false
  targetPort_ne : isBlank r.targetPort = false
  partition_eq : r.partition = .validation
  folds_nodup : r.foldIds.Nodup
  units : LevelUnits r.predictionLevel r.sampleIds r.unitIds
  rows_ne : rowNames r.predictionLevel r.sampleIds r.unitIds ≠ []
  width_ne : r.predictionWidth ≠ 0
  targets_length : r.targetNames.length = r.predictionWidth
  targets_ne : ∀ name ∈ r.targetNames, isBlank name = false

theorem validate_ok {r : BundlePredictionRequirement} : r.validate = .ok u ↔ r.Valid := by
  simp only [validate, validateUnits, bind_ok, validateNonEmpty_ok, validateUniqueIds_ok,
    validateLevelUnits_ok, refuseIf_ok, each_ok, not_not, List.isEmpty_iff]
  constructor
  · rintro ⟨_, hsource, _, htarget, _, hpartition, _, hfolds, _, ⟨hunits, hrows⟩, _, hwidth, _,
      hlength, hnames⟩
    exact ⟨hsource, htarget, hpartition, hfolds, hunits, hrows, hwidth, hlength, hnames⟩
  · intro h
    exact ⟨(), h.sourcePort_ne, (), h.targetPort_ne, (), h.partition_eq, (), h.folds_nodup, (),
      ⟨h.units, h.rows_ne⟩, (), h.width_ne, (), h.targets_length, h.targets_ne⟩

end BundlePredictionRequirement

namespace BundlePredictionBlockCacheRecord

structure Valid (block : BundlePredictionBlockCacheRecord) : Prop where
  predictionId_ne : ∀ predictionId ∈ block.predictionId, isBlank predictionId = false
  rowCount_ne : block.rowCount ≠ 0
  units : LevelUnits block.predictionLevel block.sampleIds block.unitIds
  rowCount_eq :
    block.rowCount = (rowNames block.predictionLevel block.sampleIds block.unitIds).length
  fingerprint : validateRuntimeFingerprint "prediction block cache content"
    block.contentFingerprint = .ok ()

theorem validate_ok {block : BundlePredictionBlockCacheRecord} :
    block.validate = .ok u ↔ block.Valid := by
  simp only [validate, validateUnits, bind_ok, whenSome_ok, validateNonEmpty_ok,
    validateLevelUnits_ok, refuseIf_ok, not_not]
  constructor
  · rintro ⟨_, hid, _, hrows, _, ⟨hunits, hcount⟩, hfingerprint⟩
    exact ⟨fun id h => hid id h, hrows, hunits, hcount, hfingerprint⟩
  · intro h
    exact ⟨(), fun id hid => h.predictionId_ne id hid, (), h.rowCount_ne, (),
      ⟨h.units, h.rowCount_eq⟩, h.fingerprint⟩

/-- The rows of the block, each with the fold it was predicted in. -/
def foldSamples (block : BundlePredictionBlockCacheRecord) : List (Option FoldId × SampleId) :=
  block.sampleIds.map (block.foldId, ·)

def foldUnits (block : BundlePredictionBlockCacheRecord) :
    List (Option FoldId × PredictionUnitId) :=
  block.unitIds.map (block.foldId, ·)

end BundlePredictionBlockCacheRecord

-- ---------------------------------------------------------------------------
-- Cache records
-- ---------------------------------------------------------------------------

namespace BundlePredictionCacheRecord

variable {record : BundlePredictionCacheRecord}

theorem coverFold_ok [DecidableEq ρ] {dup : ρ → DagMlError} {covered : Finset (Option FoldId × ρ)} :
    coverFold dup foldId rows covered = .ok covered' ↔
      (rows.map (foldId, ·)).Nodup ∧ (∀ row ∈ rows.map (foldId, ·), row ∉ covered) ∧
        covered' = covered ∪ (rows.map (foldId, ·)).toFinset := by
  rw [coverFold, insertUnique_ok]

/-- A block record that fits the record it is in. -/
def Fits (record : BundlePredictionCacheRecord) (block : BundlePredictionBlockCacheRecord) : Prop :=
  block.Valid ∧ block.predictionLevel = record.predictionLevel

theorem gatherBlocks_samples {blocks : List BundlePredictionBlockCacheRecord}
    (hlevel : record.predictionLevel = .sample) :
    loop record.gatherBlock ⟨0, ∅, ∅⟩ blocks = .ok gathered ↔
      (∀ block ∈ blocks, record.Fits block) ∧ (blocks.flatMap (·.foldSamples)).Nodup ∧
        gathered = ⟨(blocks.map (·.rowCount)).sum,
          (blocks.flatMap (·.foldSamples)).toFinset, ∅⟩ := by
  have step (n : Nat) (seen : Finset (Option FoldId × SampleId))
      (block : BundlePredictionBlockCacheRecord) (s : Gathered) :
      record.gatherBlock ⟨n, seen, ∅⟩ block = .ok s ↔
        record.Fits block ∧ block.foldSamples.Nodup ∧ (∀ row ∈ block.foldSamples, row ∉ seen) ∧
          s = ⟨n + block.rowCount, seen ∪ block.foldSamples.toFinset, ∅⟩ := by
    simp only [gatherBlock, bind_ok, refuseIf_ok, not_not, hlevel, coverFold_ok, pure_ok,
      BundlePredictionBlockCacheRecord.validate_ok, Fits,
      BundlePredictionBlockCacheRecord.foldSamples]
    constructor
    · rintro ⟨_, hvalid, _, hblock, _, ⟨hn, hs, rfl⟩, rfl⟩
      exact ⟨⟨hvalid, hblock⟩, hn, hs, rfl⟩
    · rintro ⟨⟨hvalid, hblock⟩, hn, hs, rfl⟩
      exact ⟨(), hvalid, (), hblock, _, ⟨hn, hs, rfl⟩, rfl⟩
  rw [loop_gather step]
  simp

theorem gatherBlocks_units {blocks : List BundlePredictionBlockCacheRecord}
    (hlevel : record.predictionLevel = .target ∨ record.predictionLevel = .group) :
    loop record.gatherBlock ⟨0, ∅, ∅⟩ blocks = .ok gathered ↔
      (∀ block ∈ blocks, record.Fits block) ∧ (blocks.flatMap (·.foldUnits)).Nodup ∧
        gathered = ⟨(blocks.map (·.rowCount)).sum, ∅,
          (blocks.flatMap (·.foldUnits)).toFinset⟩ := by
  have step (n : Nat) (seen : Finset (Option FoldId × PredictionUnitId))
      (block : BundlePredictionBlockCacheRecord) (s : Gathered) :
      record.gatherBlock ⟨n, ∅, seen⟩ block = .ok s ↔
        record.Fits block ∧ block.foldUnits.Nodup ∧ (∀ row ∈ block.foldUnits, row ∉ seen) ∧
          s = ⟨n + block.rowCount, ∅, seen ∪ block.foldUnits.toFinset⟩ := by
    rcases hlevel with hlevel | hlevel
    all_goals
      simp only [gatherBlock, bind_ok, refuseIf_ok, not_not, hlevel, coverFold_ok, pure_ok,
        BundlePredictionBlockCacheRecord.validate_ok, Fits,
        BundlePredictionBlockCacheRecord.foldUnits]
      constructor
      · rintro ⟨_, hvalid, _, hblock, _, ⟨hn, hs, rfl⟩, rfl⟩
        exact ⟨⟨hvalid, hblock⟩, hn, hs, rfl⟩
      · rintro ⟨⟨hvalid, hblock⟩, hn, hs, rfl⟩
        exact ⟨(), hvalid, (), hblock, _, ⟨hn, hs, rfl⟩, rfl⟩
  rw [loop_gather step]
  simp

/-- The blocks name the rows of the record, each once in a fold. -/
structure Covers (record : BundlePredictionCacheRecord) : Prop where
  fits : ∀ block ∈ record.blocks, record.Fits block
  rowCount_ne : record.rowCount ≠ 0
  rowCount_eq : record.rowCount = (record.blocks.map (·.rowCount)).sum
  samples_nodup : record.predictionLevel = .sample →
    (record.blocks.flatMap (·.foldSamples)).Nodup
  samples : record.predictionLevel = .sample →
    (record.blocks.flatMap (·.sampleIds)).toFinset = record.sampleIds.toFinset
  units_nodup : record.predictionLevel ≠ .sample → (record.blocks.flatMap (·.foldUnits)).Nodup
  units : record.predictionLevel ≠ .sample →
    (record.blocks.flatMap (·.unitIds)).toFinset = record.unitIds.toFinset

theorem image_foldSamples {blocks : List BundlePredictionBlockCacheRecord} :
    (blocks.flatMap (·.foldSamples)).toFinset.image Prod.snd =
      (blocks.flatMap (·.sampleIds)).toFinset := by
  ext s
  simp [BundlePredictionBlockCacheRecord.foldSamples]

theorem image_foldUnits {blocks : List BundlePredictionBlockCacheRecord} :
    (blocks.flatMap (·.foldUnits)).toFinset.image Prod.snd =
      (blocks.flatMap (·.unitIds)).toFinset := by
  ext unitId
  simp [BundlePredictionBlockCacheRecord.foldUnits]

theorem validateBlocks_ok (hlevel : record.predictionLevel ≠ .observation) :
    record.validateBlocks = .ok u ↔ record.Covers := by
  by_cases hsample : record.predictionLevel = .sample
  · simp only [validateBlocks, bind_ok, gatherBlocks_samples hsample, refuseIf_ok, hsample, if_true,
      not_or, not_not]
    constructor
    · rintro ⟨_, ⟨hfits, hn, rfl⟩, _, ⟨hrows, hcount⟩, himage⟩
      rw [image_foldSamples] at himage
      exact ⟨hfits, hrows, hcount, fun _ => hn, fun _ => himage, by simp [hsample], by simp [hsample]⟩
    · intro h
      refine ⟨_, ⟨h.fits, h.samples_nodup hsample, rfl⟩, (), ⟨h.rowCount_ne, h.rowCount_eq⟩, ?_⟩
      rw [image_foldSamples]
      exact h.samples hsample
  · have hunits : record.predictionLevel = .target ∨ record.predictionLevel = .group := by
      cases h : record.predictionLevel <;> simp_all
    simp only [validateBlocks, bind_ok, gatherBlocks_units hunits, refuseIf_ok, hsample, if_false,
      not_or, not_not]
    constructor
    · rintro ⟨_, ⟨hfits, hn, rfl⟩, _, ⟨hrows, hcount⟩, himage⟩
      rw [image_foldUnits] at himage
      exact ⟨hfits, hrows, hcount, by simp [hsample], by simp [hsample], fun _ => hn,
        fun _ => himage⟩
    · intro h
      refine ⟨_, ⟨h.fits, h.units_nodup hsample, rfl⟩, (), ⟨h.rowCount_ne, h.rowCount_eq⟩, ?_⟩
      rw [image_foldUnits]
      exact h.units hsample

structure Valid (record : BundlePredictionCacheRecord) : Prop where
  requirementKey_ne : isBlank record.requirementKey = false
  cacheId_ne : isBlank record.cacheId = false
  namespaces : validatePredictionCacheNamespaceFingerprints record.cacheId
    record.cacheNamespaceFingerprints = .ok ()
  format_ne : isBlank record.format = false
  format : supportedPredictionCacheFormat record.format = true
  partition_eq : record.partition = .validation
  folds_nodup : record.foldIds.Nodup
  units : LevelUnits record.predictionLevel record.sampleIds record.unitIds
  rows_le :
    (rowNames record.predictionLevel record.sampleIds record.unitIds).length ≤ record.rowCount
  width_ne : record.predictionWidth ≠ 0
  targets_length : record.targetNames.length = record.predictionWidth
  targets_ne : ∀ name ∈ record.targetNames, isBlank name = false
  blockCount_ne : record.blockCount ≠ 0
  blockCount_eq : record.blockCount = record.blocks.length
  namespaces_length : record.cacheNamespaceFingerprints ≠ [] →
    record.cacheNamespaceFingerprints.length = record.blockCount
  covers : record.Covers
  fingerprint : validateRuntimeFingerprint "prediction cache content"
    record.contentFingerprint = .ok ()

theorem validate_ok : record.validate = .ok u ↔ record.Valid := by
  simp only [validate, validateUnits, bind_ok, validateNonEmpty_ok, validateUniqueIds_ok,
    validateLevelUnits_ok, refuseIf_ok, each_ok, not_not, not_or, not_and, not_lt,
    Bool.not_eq_true', Bool.not_eq_false]
  constructor
  · rintro ⟨_, hkey, _, hid, _, hnamespaces, _, hformatNe, _, hformat, _, hpartition, _, hfolds, _,
      ⟨hunits, hrows⟩, _, hwidth, _, hlength, _, hnames, _, ⟨hcount, hblocks⟩, _, hspaces, _,
      hcovers, hfingerprint⟩
    exact ⟨hkey, hid, hnamespaces, hformatNe, hformat, hpartition, hfolds, hunits, hrows, hwidth,
      hlength, hnames, hcount, hblocks, hspaces, (validateBlocks_ok hunits.level_ne).mp hcovers,
      hfingerprint⟩
  · intro h
    exact ⟨(), h.requirementKey_ne, (), h.cacheId_ne, (), h.namespaces, (), h.format_ne, (),
      h.format, (), h.partition_eq, (), h.folds_nodup, (), ⟨h.units, h.rows_le⟩, (), h.width_ne, (),
      h.targets_length, (), h.targets_ne, (), ⟨h.blockCount_ne, h.blockCount_eq⟩, (),
      h.namespaces_length, (), (validateBlocks_ok h.units.level_ne).mpr h.covers, h.fingerprint⟩

end BundlePredictionCacheRecord

end DagMl

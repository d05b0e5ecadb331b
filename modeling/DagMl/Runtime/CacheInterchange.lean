import DagMl.Bundle.AgainstPlan
import DagMl.Runtime.FileCacheLaws

/-!
# One interface, three stores

The stores differ in what they accept, never in what they answer. Columns are
refused where the values do not fill the width their record gives; once
accepted, columns, payloads in memory and files cannot be told apart.
-/

namespace DagMl

open Checked Serving

variable {Sections D Text : Type} {externals : Externals} {directory : CacheDirectory D Text}
  {checks : SectionChecks Sections} {bundle : ExecutionBundle Sections}
  {payloads : BundlePredictionCachePayloadSet} {root root' : D}
  {manifest : FilePredictionCacheManifest} {memory : InMemoryPredictionCacheStore}
  {columnar : ColumnarPredictionCacheStore}

/-- Columns are made of a payload set exactly when memory takes it and every
payload has as many values as its record has rows times columns. -/
theorem columnarStore_accepts_iff :
    (∃ columnar, ColumnarPredictionCacheStore.fromPayloads externals checks bundle payloads =
      .ok columnar) ↔
    (∃ memory, InMemoryPredictionCacheStore.fromPayloads externals checks bundle payloads =
      .ok memory) ∧
    ∀ payload ∈ payloads.caches, ∀ record ∈ bundle.predictionCaches,
      record.requirementKey = payload.requirementKey →
      payload.valueCount = record.rowCount * record.predictionWidth ∧
        record.rowCount * record.predictionWidth < 2 ^ 64 := by
  constructor
  · rintro ⟨columnar, h⟩
    simp only [ColumnarPredictionCacheStore.fromPayloads, bind_ok] at h
    obtain ⟨_, hvalid, entries, hloop, -⟩ := h
    have hsealed := payloads.sealed_of_validate hvalid
    refine ⟨⟨_, InMemoryPredictionCacheStore.fromPayloads_ok.mpr ⟨hvalid, rfl⟩⟩, ?_⟩
    intro payload hpayload record hrecord hkey
    obtain ⟨hheld, -⟩ :=
      ColumnarPredictionCacheStore.loop_insertPayload hsealed.payloads_nodup hloop
    obtain ⟨record', entry, hget, hentry, -⟩ := hheld payload hpayload
    have hindex := BTreeMap.indexOf_collect hsealed.contracts.cacheKeys_nodup
    rw [(hindex.get _ record).mpr ⟨hrecord, hkey⟩] at hget
    cases hget
    exact (ColumnarPredictionCacheEntry.fromPayload_ok.mp hentry).2.2.2
  · rintro ⟨⟨memory, hmemory⟩, hfills⟩
    obtain ⟨hvalid, -⟩ := InMemoryPredictionCacheStore.fromPayloads_ok.mp hmemory
    have hsealed := payloads.sealed_of_validate hvalid
    have hindex := BTreeMap.indexOf_collect hsealed.contracts.cacheKeys_nodup
    have hcolumns (payload : BundlePredictionCachePayload) (hpayload : payload ∈ payloads.caches) :
        ∃ record entry, (BTreeMap.collect (bundle.predictionCaches.map fun cache =>
            (cache.requirementKey, cache)))[payload.requirementKey]? = some record ∧
          ColumnarPredictionCacheEntry.fromPayload externals payload record = .ok entry := by
      obtain ⟨record, hrecord, hkey, hmatch⟩ := hsealed.matched payload hpayload
      obtain ⟨blocks, hblocks⟩ :=
        ColumnarPredictionCacheEntry.exists_columnarBlocks (matches_of_ok hmatch).payload_valid
      exact ⟨record, ⟨record, blocks⟩, (hindex.get _ _).mpr ⟨hrecord, hkey⟩,
        ColumnarPredictionCacheEntry.fromPayload_ok.mpr
          ⟨hmatch, rfl, hblocks, hfills payload hpayload record hrecord hkey⟩⟩
    obtain ⟨entries, hloop⟩ := ColumnarPredictionCacheStore.exists_loop_insertPayload ∅ hcolumns
    exact ⟨⟨entries, []⟩, bind_ok.mpr ⟨(), hvalid, bind_ok.mpr ⟨entries, hloop, rfl⟩⟩⟩

def mergePayloads : BundlePredictionCachePayloadSet where
  bundleId := mergeBundle.bundleId
  schemaVersion := 2
  caches := [samplePayload tiedExternals branchRequirement [branchBlock]]

/-- The files of a directory by name; a file is what was serialized. -/
abbrev FileTable := String → Option (BundlePredictionCachePayload ⊕ FilePredictionCacheManifest)

def tableDirectory : CacheDirectory FileTable
    (BundlePredictionCachePayload ⊕ FilePredictionCacheManifest) where
  createDirAll := .ok
  write files name file := .ok fun other => if other = name then some file else files other
  read files name := need (files name) (.runtimeValidation "failed to read")
  encodePayload payload := .ok (.inl payload)
  decodePayload
    | .inl payload => .ok payload
    | .inr _ => .error (.runtimeValidation "failed to parse")
  encodeManifest manifest := .ok (.inr manifest)
  decodeManifest
    | .inr manifest => .ok manifest
    | .inl _ => .error (.runtimeValidation "failed to parse")

theorem tableDirectory_keeps : tableDirectory.Keeps where
  read_written := by
    rintro files name file _ h
    cases h
    simp [tableDirectory, need]
  read_other := by
    rintro files name file _ h other hne
    cases h
    simp [tableDirectory, hne]
  payload := by
    rintro payload _ - h
    cases h
    rfl
  manifest := by
    rintro manifest _ h
    cases h
    rfl

end DagMl

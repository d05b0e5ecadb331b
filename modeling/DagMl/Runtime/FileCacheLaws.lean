import DagMl.Runtime.FileCacheStore

/-!
# Written caches are read back

A directory that was written for a bundle opens for it, and the opened store
answers from the same shelf as the stores in memory.
-/

namespace DagMl

open Checked Serving

-- ---------------------------------------------------------------------------
-- The manifest
-- ---------------------------------------------------------------------------

namespace FilePredictionCacheManifest

theorem validate_ok {self : FilePredictionCacheManifest} (h : self.validate = .ok ()) :
    (∀ entry ∈ self.caches, entry.validate = .ok ()) ∧
      (self.caches.map (·.requirementKey)).Nodup ∧ (self.caches.map (·.fileName)).Nodup := by
  simp only [validate, bind_ok] at h
  obtain ⟨_, -, seen, hloop, -⟩ := h
  refine ⟨fun entry hentry => ?_, ?_⟩
  · have hall := loop_forall (P := fun entry => FilePredictionCacheEntry.validate entry = .ok ())
      (fun seen entry seen' hstep => by
        simp only [checkEntry, bind_ok] at hstep
        obtain ⟨_, hvalid, -⟩ := hstep
        exact hvalid) hloop
    exact hall entry hentry
  · have hseen : ((self.caches.map (·.requirementKey)).Nodup ∧
          seen.requirementKeys = (self.caches.map (·.requirementKey)).toFinset) ∧
        (self.caches.map (·.fileName)).Nodup ∧
          seen.fileNames = (self.caches.map (·.fileName)).toFinset := by
      refine loop_invariant (fun done (seen : Seen) =>
        ((done.map (·.requirementKey)).Nodup ∧
          seen.requirementKeys = (done.map (·.requirementKey)).toFinset) ∧
        (done.map (·.fileName)).Nodup ∧ seen.fileNames = (done.map (·.fileName)).toFinset)
        ⟨⟨.nil, rfl⟩, .nil, rfl⟩ ?_ hloop
      rintro done seen entry seen' hdone hstep
      obtain ⟨hkeys, hnames⟩ := hdone
      simp only [checkEntry, bind_ok, refuseIf_ok, pure_ok] at hstep
      obtain ⟨_, -, _, hkey, _, -, _, hname, rfl⟩ := hstep
      exact ⟨nodup_map_snoc hkeys hkey, nodup_map_snoc hnames hname⟩
    exact ⟨hseen.1.1, hseen.2.1⟩

end FilePredictionCacheManifest

theorem find?_key_iff {α κ : Type} [LinearOrder κ] {key : α → κ} {l : List α} {x : α} {k : κ}
    (hn : (l.map key).Nodup) : l.find? (fun x => key x = k) = some x ↔ x ∈ l ∧ key x = k := by
  have hindex := BTreeMap.indexOf_collect hn
  have hget := hindex.get k x
  rwa [hindex.getElem?_eq_find?] at hget

/-- No payload is written over the manifest. -/
theorem payloadFileName_ne_manifest (digits : String) :
    s!"prediction-cache-{digits}.json" ≠ filePredictionCacheManifestFile := by
  intro h
  have hhead : ("prediction-cache-".toList ++ digits.toList ++ ".json".toList).take 11 =
      filePredictionCacheManifestFile.toList.take 11 := by
    rw [← h]
    simp only [String.toList_append, toString]
  rw [List.append_assoc, List.take_append_of_le_length (by decide)] at hhead
  exact absurd hhead (by decide)

namespace FilePredictionCacheStore

variable {Sections D Text : Type} {externals : Externals} {directory : CacheDirectory D Text}
  {checks : SectionChecks Sections} {bundle : ExecutionBundle Sections}
  {payloads : BundlePredictionCachePayloadSet} {shelf : CacheShelf}
  {recordsByRequirement : BTreeMap String BundlePredictionCacheRecord}
  {caches : List BundlePredictionCachePayload} {root root' : D}
  {entries entries' : List FilePredictionCacheEntry} {manifest : FilePredictionCacheManifest}
  {self store : FilePredictionCacheStore D}

-- ---------------------------------------------------------------------------
-- Writing
-- ---------------------------------------------------------------------------

theorem entries_of_loop
    (h : loop (writePayload externals directory recordsByRequirement) (root, entries) caches =
      .ok (root', entries')) :
    entries' = entries ++ caches.map (FilePredictionCacheEntry.fromPayload externals) := by
  induction caches generalizing root entries with
  | nil =>
    cases h
    simp
  | cons payload caches ih =>
    obtain ⟨_, hstep, hrest⟩ := loop_cons.mp h
    simp only [writePayload, bind_ok, pure_ok] at hstep
    obtain ⟨_, -, _, -, text, -, written, -, rfl⟩ := hstep
    simp [ih hrest]

/-- What the loop leaves in the directory, as long as no two payloads share a file. -/
theorem files_of_loop (hkeeps : directory.Keeps)
    (hn : (caches.map (predictionCachePayloadFileName externals)).Nodup)
    (h : loop (writePayload externals directory recordsByRequirement) (root, entries) caches =
      .ok (root', entries')) :
    (∀ payload ∈ caches, ∃ text, directory.encodePayload payload = .ok text ∧
      directory.read root' (predictionCachePayloadFileName externals payload) = .ok text) ∧
    ∀ name ∉ caches.map (predictionCachePayloadFileName externals),
      directory.read root' name = directory.read root name := by
  induction caches generalizing root entries with
  | nil =>
    cases h
    exact ⟨by simp, fun _ _ => rfl⟩
  | cons payload caches ih =>
    rw [List.map_cons, List.nodup_cons] at hn
    obtain ⟨_, hstep, hrest⟩ := loop_cons.mp h
    simp only [writePayload, bind_ok, pure_ok] at hstep
    obtain ⟨_, -, _, -, text, htext, written, hwrite, rfl⟩ := hstep
    obtain ⟨hothers, hkept⟩ := ih hn.2 hrest
    refine ⟨?_, fun name hname => ?_⟩
    · rintro other (_ | ⟨_, hother⟩)
      · exact ⟨text, htext, (hkept _ hn.1).trans (hkeeps.read_written _ _ _ _ hwrite)⟩
      · exact hothers other hother
    · rw [List.map_cons, List.mem_cons, not_or] at hname
      exact (hkept name hname.2).trans (hkeeps.read_other _ _ _ _ hwrite name hname.1)

/-- The file names of the manifest are those of the payloads, in another order. -/
theorem nodup_fileNames {entries : List FilePredictionCacheEntry}
    (hentries : entries = caches.map (FilePredictionCacheEntry.fromPayload externals))
    (hn : ((Keyed.sortBy (·.requirementKey) entries).map (·.fileName)).Nodup) :
    (caches.map (predictionCachePayloadFileName externals)).Nodup := by
  have hperm := ((Keyed.perm_sortBy (·.requirementKey) entries).map (·.fileName)).nodup_iff.mp hn
  rw [hentries, List.map_map] at hperm
  exact hperm

-- ---------------------------------------------------------------------------
-- Opening
-- ---------------------------------------------------------------------------

/-- The store reads the payloads of the shelf and knows their records. -/
structure Stocks (externals : Externals) (directory : CacheDirectory D Text) (shelf : CacheShelf)
    (store : FilePredictionCacheStore D) : Prop where
  reads : ∀ key payload, store.payloadForRequirement externals directory key = .ok payload ↔
    ∃ record, shelf key = some (record, payload)
  records : ∀ key record, store.recordsByRequirement[key]? = some record ↔
    ∃ payload, shelf key = some (record, payload)

/-- What was written for a bundle is opened for it. -/
theorem openAt_of_written (hkeeps : directory.Keeps)
    (hfinite : ∀ payload ∈ payloads.caches, payload.Finite)
    (h : writePayloadSet externals directory root checks bundle payloads = .ok (manifest, root')) :
    ∃ store, openAt directory root' checks bundle = .ok store ∧
      store.Stocks externals directory (shelfOf bundle payloads) ∧
      store.materializationRecords = [] := by
  simp only [writePayloadSet, bind_ok, pure_ok, Prod.exists, Prod.mk.injEq] at h
  obtain ⟨_, hvalid, created, -, filled, entries, hloop, _, hmanifest, text, htext, stored,
    hwrite, rfl, rfl⟩ := h
  have hsealed := payloads.sealed_of_validate hvalid
  have hopens := hmanifest
  simp only [FilePredictionCacheManifest.validateAgainstBundle, bind_ok] at hmanifest
  obtain ⟨_, hentries, _, hbundle, -⟩ := hmanifest
  obtain ⟨hchecked, hkeys, hnames⟩ := FilePredictionCacheManifest.validate_ok hentries
  have hall : entries = payloads.caches.map (FilePredictionCacheEntry.fromPayload externals) :=
    entries_of_loop hloop
  obtain ⟨hread, -⟩ := files_of_loop hkeeps (nodup_fileNames hall hnames) hloop
  have hplain : validatePredictionCacheFileName filePredictionCacheManifestFile = .ok () := by
    decide +kernel
  refine ⟨⟨stored, ⟨bundle.bundleId, filePredictionCacheStoreSchemaVersion,
    Keyed.sortBy (·.requirementKey) entries⟩, .collect (bundle.predictionCaches.map fun record =>
      (record.requirementKey, record)), []⟩, ?_, ⟨?_, ?_⟩, rfl⟩
  · simp only [openAt, readContained, bind_ok, pure_ok]
    exact ⟨(), hbundle, text, ⟨(), hplain, hkeeps.read_written _ _ _ _ hwrite⟩, _,
      hkeeps.manifest _ _ htext, (), hopens, rfl⟩
  · intro key payload
    have hrecord := (BTreeMap.indexOf_collect hsealed.contracts.cacheKeys_nodup).getElem?_eq_find?
      (k := key)
    have hfile (payload : BundlePredictionCachePayload) (hp : payload ∈ payloads.caches) :
        ∃ text, readContained directory stored
          (predictionCachePayloadFileName externals payload) = .ok text ∧
            directory.decodePayload text = .ok payload := by
      obtain ⟨text, htext, hfile⟩ := hread payload hp
      have hentry := hchecked (.fromPayload externals payload)
        (Keyed.mem_sortBy.mpr (hall ▸ List.mem_map_of_mem hp))
      simp only [FilePredictionCacheEntry.validate, bind_ok] at hentry
      obtain ⟨_, -, _, -, _, -, _, -, _, hname, -⟩ := hentry
      refine ⟨text, bind_ok.mpr ⟨(), hname, ?_⟩, hkeeps.payload _ _ (hfinite payload hp) htext⟩
      exact (hkeeps.read_other _ _ _ _ hwrite _ (payloadFileName_ne_manifest _)).trans hfile
    simp only [payloadForRequirement, bind_ok, need_ok, pure_ok, shelfOf_eq_some, hrecord]
    constructor
    · rintro ⟨entry, hentry, record, hfind, text, htext, payload', hdecode, _, -, rfl⟩
      obtain ⟨hmem, hkey⟩ := (find?_key_iff hkeys).mp hentry
      rw [Keyed.mem_sortBy, hall, List.mem_map] at hmem
      obtain ⟨payload, hp, rfl⟩ := hmem
      obtain ⟨text', htext', hdecode'⟩ := hfile payload hp
      cases htext.symm.trans htext'
      cases hdecode.symm.trans hdecode'
      exact ⟨record, hfind, (find?_key_iff hsealed.payloads_nodup).mpr ⟨hp, hkey⟩⟩
    · rintro ⟨record, hfind, hpayload⟩
      have hmatch := hsealed.stocked.matched key record payload
        (shelfOf_eq_some.mpr ⟨hfind, hpayload⟩)
      obtain ⟨hp, hkey⟩ := (find?_key_iff hsealed.payloads_nodup).mp hpayload
      obtain ⟨text', htext', hdecode'⟩ := hfile payload hp
      refine ⟨.fromPayload externals payload, (find?_key_iff hkeys).mpr ⟨?_, hkey⟩, record, hfind,
        text', htext', payload, hdecode', (), hmatch, rfl⟩
      rw [Keyed.mem_sortBy, hall]
      exact List.mem_map_of_mem hp
  · intro key record
    have hindex := BTreeMap.indexOf_collect hsealed.contracts.cacheKeys_nodup
    simp only [shelfOf_eq_some]
    rw [hindex.getElem?_eq_find?]
    constructor
    · intro hfind
      have hkey : record.requirementKey = key := by simpa using List.find?_some hfind
      obtain ⟨payload, hp, heq⟩ := hsealed.supplied record (List.mem_of_find?_eq_some hfind)
      exact ⟨payload, hfind, (find?_key_iff hsealed.payloads_nodup).mpr ⟨hp, heq.trans hkey⟩⟩
    · rintro ⟨payload, hfind, -⟩
      exact hfind

theorem materialize_of_stocks {request : PredictionCacheMaterializationRequest}
    (hstocked : shelf.Stocked externals) (hstocks : self.Stocks externals directory shelf) :
    self.materialize externals directory request = .ok (handle, store) ↔
      ∃ payload records, shelf request.requirement.key = some (request.cache, payload) ∧
        recordMaterialization externals request self.materializationRecords =
          .ok (handle, records) ∧ store = { self with materializationRecords := records } := by
  simp only [materialize, bind_ok, need_ok, refuseIf_ok, pure_ok, not_not, hstocks.reads,
    hstocks.records, Prod.exists, Prod.mk.injEq]
  constructor
  · rintro ⟨_, -, _, -, record, ⟨payload, hshelf⟩, _, rfl, _, -, _, -, _, records, hrecord, rfl, rfl⟩
    exact ⟨payload, records, hshelf, hrecord, rfl⟩
  · rintro ⟨payload, records, hshelf, hrecord, rfl⟩
    have hmatch := hstocked.matched _ _ _ hshelf
    exact ⟨(), requirement_valid_of_recordMaterialization hrecord, (),
      (matches_of_ok hmatch).cache_valid, _, ⟨payload, hshelf⟩, (), rfl, payload, ⟨_, hshelf⟩, (),
      hmatch, handle, records, hrecord, rfl, rfl⟩

variable (directory) in
/-- The store answers from the shelf, whoever asks. -/
theorem implements_shelf (hstocked : shelf.Stocked externals) :
    Implements (methods externals directory).serve (shelf.answer externals)
      materializationRecords (Stocks externals directory shelf) (fun _ => True) := by
  refine CacheMethods.implements ?_ ?_ ?_ ?_
  · intro self key blocks hstocks
    simp only [methods, loadBlocks, bind_ok, hstocks.reads, refuseIf_ok, not_not, pure_ok]
    constructor
    · rintro ⟨payload, ⟨record, hshelf⟩, _, hlevel, rfl⟩
      exact ⟨record, payload, hshelf, hlevel, rfl⟩
    · rintro ⟨record, payload, hshelf, hlevel, rfl⟩
      exact ⟨payload, ⟨record, hshelf⟩, (), hlevel, rfl⟩
  · intro self key blocks hstocks
    simp only [methods, loadAggregatedBlocks, bind_ok, hstocks.reads, refuseIf_ok, pure_ok]
    constructor
    · rintro ⟨payload, ⟨record, hshelf⟩, _, hlevel, rfl⟩
      exact ⟨record, payload, hshelf, hlevel, rfl⟩
    · rintro ⟨record, payload, hshelf, hlevel, rfl⟩
      exact ⟨payload, ⟨record, hshelf⟩, (), hlevel, rfl⟩
  · intro self request handle records hstocks _
    simp only [methods, materialize_of_stocks hstocked hstocks]
    constructor
    · rintro ⟨_, ⟨payload, _, hshelf, hrecord, rfl⟩, rfl⟩
      exact ⟨payload, hshelf, hrecord⟩
    · rintro ⟨payload, hshelf, hrecord⟩
      exact ⟨_, ⟨payload, records, hshelf, hrecord, rfl⟩, rfl⟩
  · intro self request handle store hstocks hstep
    obtain ⟨_, records, -, -, rfl⟩ := (materialize_of_stocks hstocked hstocks).mp hstep
    exact ⟨hstocks.reads, hstocks.records⟩

end FilePredictionCacheStore

end DagMl

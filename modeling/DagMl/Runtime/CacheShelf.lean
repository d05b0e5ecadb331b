import DagMl.Lib.Serving
import DagMl.Runtime.ColumnarLaws

/-!
# What a prediction cache store is for

A bundle and the payloads sealed for it stand on a shelf, one of each under
every requirement key. `CacheShelf.answer` says what a store answers from the
shelf; the stores answer nothing else.
-/

namespace DagMl

open Checked Serving

abbrev CacheShelf :=
  String → Option (BundlePredictionCacheRecord × BundlePredictionCachePayload)

section

variable {Sections : Type}

/-- The record and the payload of a requirement. -/
def shelfOf (bundle : ExecutionBundle Sections) (payloads : BundlePredictionCachePayloadSet) :
    CacheShelf := fun requirementKey => do
  let record ← bundle.predictionCaches.find? (·.requirementKey = requirementKey)
  let payload ← payloads.caches.find? (·.requirementKey = requirementKey)
  pure (record, payload)

end

namespace CacheShelf

/-- Blocks are loaded at the level of their payload, and a requirement is
materialized under the record of the bundle. -/
def answer (externals : Externals) (shelf : CacheShelf) :
    Spec CacheCall (List PredictionCacheMaterializationRecord) CacheReply
  | .loadBlocks requirementKey, records => do
    let (_, payload) ← shelf requirementKey
    if payload.predictionLevel = .sample then some (.blocks payload.blocks, records) else none
  | .loadAggregatedBlocks requirementKey, records => do
    let (_, payload) ← shelf requirementKey
    if payload.predictionLevel ≠ .sample then
      some (.aggregatedBlocks payload.aggregatedBlocks, records)
    else none
  | .materialize request, records => do
    let (record, _) ← shelf request.requirement.key
    if record = request.cache then
      (recordMaterialization externals request records).toOption.map fun (handle, records) =>
        (.handle handle, records)
    else none

/-- The two sides of the shelf belong together. -/
structure Stocked (externals : Externals) (shelf : CacheShelf) : Prop where
  key_eq : ∀ key record payload, shelf key = some (record, payload) →
    record.requirementKey = key ∧ payload.requirementKey = key
  matched : ∀ key record payload, shelf key = some (record, payload) →
    validatePredictionCachePayloadMatchesRecord externals payload record = .ok ()

variable {externals : Externals} {shelf : CacheShelf}
  {records records' : List PredictionCacheMaterializationRecord}

theorem answer_loadBlocks {key : String} : shelf.answer externals (.loadBlocks key) records =
    some (reply, records') ↔ ∃ record payload, shelf key = some (record, payload) ∧
      payload.predictionLevel = .sample ∧ reply = .blocks payload.blocks ∧ records' = records := by
  simp only [answer, Option.bind_eq_bind, Option.bind_eq_some_iff, Prod.exists,
    Option.ite_none_right_eq_some, Option.some.injEq, Prod.mk.injEq]
  constructor
  · rintro ⟨record, payload, hshelf, hlevel, rfl, rfl⟩
    exact ⟨record, payload, hshelf, hlevel, rfl, rfl⟩
  · rintro ⟨record, payload, hshelf, hlevel, rfl, rfl⟩
    exact ⟨record, payload, hshelf, hlevel, rfl, rfl⟩

theorem answer_loadAggregatedBlocks {key : String} :
    shelf.answer externals (.loadAggregatedBlocks key) records = some (reply, records') ↔
      ∃ record payload, shelf key = some (record, payload) ∧ payload.predictionLevel ≠ .sample ∧
        reply = .aggregatedBlocks payload.aggregatedBlocks ∧ records' = records := by
  simp only [answer, Option.bind_eq_bind, Option.bind_eq_some_iff, Prod.exists,
    Option.ite_none_right_eq_some, Option.some.injEq, Prod.mk.injEq]
  constructor
  · rintro ⟨record, payload, hshelf, hlevel, rfl, rfl⟩
    exact ⟨record, payload, hshelf, hlevel, rfl, rfl⟩
  · rintro ⟨record, payload, hshelf, hlevel, rfl, rfl⟩
    exact ⟨record, payload, hshelf, hlevel, rfl, rfl⟩

theorem answer_materialize {request : PredictionCacheMaterializationRequest} :
    shelf.answer externals (.materialize request) records = some (reply, records') ↔
      ∃ payload handle, shelf request.requirement.key = some (request.cache, payload) ∧
        recordMaterialization externals request records = .ok (handle, records') ∧
        reply = .handle handle := by
  simp only [answer, Option.bind_eq_bind, Option.bind_eq_some_iff, Prod.exists,
    Option.ite_none_right_eq_some, Option.map_eq_some_iff, Prod.mk.injEq, toOption_eq_some]
  constructor
  · rintro ⟨_, payload, hshelf, rfl, handle, _, hrecord, rfl, rfl⟩
    exact ⟨payload, handle, hshelf, hrecord, rfl⟩
  · rintro ⟨payload, handle, hshelf, hrecord, rfl⟩
    exact ⟨_, payload, hshelf, rfl, handle, _, hrecord, rfl, rfl⟩

/-- The requests that hand a store the record of its own bundle. -/
def Own (shelf : CacheShelf) : CacheCall → Prop
  | .materialize request => ∀ record payload,
      shelf request.requirement.key = some (record, payload) → request.cache = record
  | _ => True

end CacheShelf

section

variable {Sections : Type} {externals : Externals} {bundle : ExecutionBundle Sections}
  {payloads : BundlePredictionCachePayloadSet} {shelf : CacheShelf}
  {records : List PredictionCacheMaterializationRecord}

theorem shelfOf_eq_some {key : String} :
    shelfOf bundle payloads key = some (record, payload) ↔
      bundle.predictionCaches.find? (·.requirementKey = key) = some record ∧
        payloads.caches.find? (·.requirementKey = key) = some payload := by
  simp only [shelfOf, Option.bind_eq_bind, Option.bind_eq_some_iff, Option.pure_def,
    Option.some.injEq, Prod.mk.injEq]
  constructor
  · rintro ⟨_, hrecord, _, hpayload, rfl, rfl⟩
    exact ⟨hrecord, hpayload⟩
  · rintro ⟨hrecord, hpayload⟩
    exact ⟨record, hrecord, payload, hpayload, rfl, rfl⟩

/-- The record of a sealed payload is the one it was matched against. -/
theorem Sealed.record_of_find (h : Sealed externals bundle payloads)
    {payload : BundlePredictionCachePayload} (hpayload : payload ∈ payloads.caches) :
    ∃ record, bundle.predictionCaches.find? (·.requirementKey = payload.requirementKey) =
        some record ∧
      validatePredictionCachePayloadMatchesRecord externals payload record = .ok () := by
  obtain ⟨record, hrecord, hkey, hmatch⟩ := h.matched payload hpayload
  have hindex := BTreeMap.indexOf_collect h.contracts.cacheKeys_nodup
  refine ⟨record, ?_, hmatch⟩
  rw [← hindex.getElem?_eq_find?, hindex.get]
  exact ⟨hrecord, hkey⟩

theorem Sealed.stocked (h : Sealed externals bundle payloads) :
    (shelfOf bundle payloads).Stocked externals := by
  have hfound {key : String} {record : BundlePredictionCacheRecord}
      {payload : BundlePredictionCachePayload}
      (hshelf : shelfOf bundle payloads key = some (record, payload)) :
      record.requirementKey = key ∧ payload.requirementKey = key ∧
        validatePredictionCachePayloadMatchesRecord externals payload record = .ok () := by
    obtain ⟨hrecord, hpayload⟩ := shelfOf_eq_some.mp hshelf
    have hkey : payload.requirementKey = key := by simpa using List.find?_some hpayload
    have hkey' : record.requirementKey = key := by simpa using List.find?_some hrecord
    obtain ⟨record', hrecord', hmatch⟩ := h.record_of_find (List.mem_of_find?_eq_some hpayload)
    rw [hkey, hrecord] at hrecord'
    cases hrecord'
    exact ⟨hkey', hkey, hmatch⟩
  constructor
  case key_eq => exact fun key record payload hshelf => ⟨(hfound hshelf).1, (hfound hshelf).2.1⟩
  case matched => exact fun key record payload hshelf => (hfound hshelf).2.2

/-- What stands on the shelf is what the payload set holds under the key. -/
theorem Sealed.map_snd_shelfOf (h : Sealed externals bundle payloads) (key : String) :
    (shelfOf bundle payloads key).map Prod.snd =
      payloads.caches.find? (·.requirementKey = key) := by
  cases hpayload : payloads.caches.find? (·.requirementKey = key) with
  | none =>
    rw [Option.map_eq_none_iff, Option.eq_none_iff_forall_ne_some]
    rintro ⟨record, payload⟩ hshelf
    rw [(shelfOf_eq_some.mp hshelf).2] at hpayload
    cases hpayload
  | some payload =>
    have hkey : payload.requirementKey = key := by simpa using List.find?_some hpayload
    obtain ⟨record, hrecord, -⟩ := h.record_of_find (List.mem_of_find?_eq_some hpayload)
    rw [hkey] at hrecord
    rw [shelfOf_eq_some.mpr ⟨hrecord, hpayload⟩]
    rfl

-- ---------------------------------------------------------------------------
-- What is materialized
-- ---------------------------------------------------------------------------

theorem requirement_valid_of_recordMaterialization
    {request : PredictionCacheMaterializationRequest}
    (h : recordMaterialization externals request records = .ok answer) :
    request.requirement.validate = .ok () := by
  simp only [recordMaterialization, predictionCacheMaterializationRecord,
    PredictionCacheMaterializationRecord.validateAgainstRequest, bind_ok] at h
  obtain ⟨_, ⟨_, ⟨_, -, _, hrequirement, -⟩, -⟩, -⟩ := h
  exact hrequirement

theorem CacheShelf.Stocked.payload_valid (h : shelf.Stocked externals) {key : String}
    (hshelf : shelf key = some (record, payload)) : payload.validate externals = .ok () :=
  (matches_of_ok (h.matched _ _ _ hshelf)).payload_valid

/-- A store implements the shelf when each of its three methods does. -/
theorem CacheMethods.implements {σ : Type} {methods : CacheMethods σ}
    {view : σ → List PredictionCacheMaterializationRecord} {Inv : σ → Prop}
    {Permitted : CacheCall → Prop}
    (loads : ∀ s key blocks, Inv s → (methods.loadBlocks s key = .ok blocks ↔
      ∃ record payload, shelf key = some (record, payload) ∧ payload.predictionLevel = .sample ∧
        blocks = payload.blocks))
    (loadsAggregated : ∀ s key blocks, Inv s → (methods.loadAggregatedBlocks s key = .ok blocks ↔
      ∃ record payload, shelf key = some (record, payload) ∧ payload.predictionLevel ≠ .sample ∧
        blocks = payload.aggregatedBlocks))
    (materializes : ∀ s request handle records, Inv s → Permitted (.materialize request) →
      ((∃ s', methods.materialize s request = .ok (handle, s') ∧ view s' = records) ↔
        ∃ payload, shelf request.requirement.key = some (request.cache, payload) ∧
          recordMaterialization externals request (view s) = .ok (handle, records)))
    (keeps : ∀ s request handle s', Inv s → methods.materialize s request = .ok (handle, s') →
      Inv s') :
    Implements methods.serve (shelf.answer externals) view Inv Permitted where
  keeps call s hs := by
    cases call with
    | loadBlocks key => exact hs
    | loadAggregatedBlocks key => exact hs
    | materialize request =>
      refine Method.staged_keeps hs ?_
      rintro reply s' hstep
      simp only [bind_ok, pure_ok, Prod.exists, Prod.mk.injEq] at hstep
      obtain ⟨handle, _, hstep, -, rfl⟩ := hstep
      exact keeps s request handle _ hs hstep
  answers call s hs hpermitted := by
    cases call with
    | loadBlocks key =>
      refine answersAt_reading fun reply records => ?_
      simp only [CacheShelf.answer_loadBlocks, bind_ok, loads s key _ hs, pure_ok]
      constructor
      · rintro ⟨record, payload, hshelf, hlevel, rfl, rfl⟩
        exact ⟨⟨_, ⟨record, payload, hshelf, hlevel, rfl⟩, rfl⟩, rfl⟩
      · rintro ⟨⟨_, ⟨record, payload, hshelf, hlevel, rfl⟩, rfl⟩, rfl⟩
        exact ⟨record, payload, hshelf, hlevel, rfl, rfl⟩
    | loadAggregatedBlocks key =>
      refine answersAt_reading fun reply records => ?_
      simp only [CacheShelf.answer_loadAggregatedBlocks, bind_ok, loadsAggregated s key _ hs,
        pure_ok]
      constructor
      · rintro ⟨record, payload, hshelf, hlevel, rfl, rfl⟩
        exact ⟨⟨_, ⟨record, payload, hshelf, hlevel, rfl⟩, rfl⟩, rfl⟩
      · rintro ⟨⟨_, ⟨record, payload, hshelf, hlevel, rfl⟩, rfl⟩, rfl⟩
        exact ⟨record, payload, hshelf, hlevel, rfl, rfl⟩
    | materialize request =>
      refine answersAt_staged fun reply records => ?_
      simp only [CacheShelf.answer_materialize, bind_ok, pure_ok, Prod.exists, Prod.mk.injEq]
      constructor
      · rintro ⟨payload, handle, hshelf, hrecord, rfl⟩
        obtain ⟨s', hstep, hview⟩ :=
          (materializes s request handle records hs hpermitted).mpr ⟨payload, hshelf, hrecord⟩
        exact ⟨s', ⟨handle, s', hstep, rfl, rfl⟩, hview⟩
      · rintro ⟨s', ⟨handle, _, hstep, rfl, rfl⟩, hview⟩
        obtain ⟨payload, hshelf, hrecord⟩ :=
          (materializes s request handle records hs hpermitted).mp ⟨_, hstep, hview⟩
        exact ⟨payload, handle, hshelf, hrecord, rfl⟩

end

-- ---------------------------------------------------------------------------
-- Payloads as they are
-- ---------------------------------------------------------------------------

namespace InMemoryPredictionCacheStore

variable {Sections : Type} {externals : Externals} {checks : SectionChecks Sections}
  {bundle : ExecutionBundle Sections} {payloads : BundlePredictionCachePayloadSet}
  {shelf : CacheShelf} {self store : InMemoryPredictionCacheStore}

/-- The store holds the payloads of the shelf. -/
def Stocks (shelf : CacheShelf) (self : InMemoryPredictionCacheStore) : Prop :=
  ∀ key, self.payloads[key]? = (shelf key).map Prod.snd

theorem fromPayloads_ok : fromPayloads externals checks bundle payloads = .ok store ↔
    payloads.validateAgainstBundle externals checks bundle = .ok () ∧
      store = ⟨.collect (payloads.caches.map fun payload => (payload.requirementKey, payload)),
        []⟩ := by
  simp only [fromPayloads, bind_ok, pure_ok]
  constructor
  · rintro ⟨_, hvalid, rfl⟩
    exact ⟨hvalid, rfl⟩
  · rintro ⟨hvalid, rfl⟩
    exact ⟨(), hvalid, rfl⟩

theorem stocks_of_fromPayloads (h : fromPayloads externals checks bundle payloads = .ok store) :
    store.Stocks (shelfOf bundle payloads) ∧ store.materializationRecords = [] := by
  obtain ⟨hvalid, rfl⟩ := fromPayloads_ok.mp h
  have hsealed := payloads.sealed_of_validate hvalid
  refine ⟨fun key => ?_, rfl⟩
  rw [hsealed.map_snd_shelfOf]
  exact (BTreeMap.indexOf_collect hsealed.payloads_nodup).getElem?_eq_find?

theorem payloadFor_ok (h : self.Stocks shelf) {key : String} :
    self.payloadFor key = .ok payload ↔ ∃ record, shelf key = some (record, payload) := by
  rw [payloadFor, need_ok, h key, Option.map_eq_some_iff]
  constructor
  · rintro ⟨⟨record, _⟩, hshelf, rfl⟩
    exact ⟨record, hshelf⟩
  · rintro ⟨record, hshelf⟩
    exact ⟨_, hshelf, rfl⟩

theorem materialize_ok {request : PredictionCacheMaterializationRequest}
    (hstocked : shelf.Stocked externals) (hstocks : self.Stocks shelf)
    (hown : shelf.Own (.materialize request)) :
    self.materialize externals request = .ok (handle, store) ↔
      ∃ payload records, shelf request.requirement.key = some (request.cache, payload) ∧
        recordMaterialization externals request self.materializationRecords =
          .ok (handle, records) ∧ store = { self with materializationRecords := records } := by
  simp only [materialize, bind_ok, refuseIf_ok, pure_ok, not_not, payloadFor_ok hstocks, Prod.exists,
    Prod.mk.injEq]
  constructor
  · rintro ⟨_, -, _, -, _, hkey, payload, ⟨record, hshelf⟩, _, -, _, records, hrecord, rfl, rfl⟩
    rw [← hkey] at hshelf
    obtain rfl := hown record payload hshelf
    exact ⟨payload, records, hshelf, hrecord, rfl⟩
  · rintro ⟨payload, records, hshelf, hrecord, rfl⟩
    have hmatch := hstocked.matched _ _ _ hshelf
    have hkey := (hstocked.key_eq _ _ _ hshelf).1
    exact ⟨(), requirement_valid_of_recordMaterialization hrecord, (),
      (matches_of_ok hmatch).cache_valid, (), hkey.symm, payload, ⟨_, hkey.symm ▸ hshelf⟩, (),
      hmatch, handle, records, hrecord, rfl, rfl⟩

/-- Given requests for its own bundle, the store answers from the shelf. -/
theorem implements_shelf (hstocked : shelf.Stocked externals) :
    Implements (methods externals).serve (shelf.answer externals) materializationRecords
      (Stocks shelf) shelf.Own := by
  refine CacheMethods.implements ?_ ?_ ?_ ?_
  · intro self key blocks hstocks
    simp only [methods, loadBlocks, bind_ok, payloadFor_ok hstocks, refuseIf_ok, not_not, pure_ok]
    constructor
    · rintro ⟨payload, ⟨record, hshelf⟩, _, -, _, hlevel, rfl⟩
      exact ⟨record, payload, hshelf, hlevel, rfl⟩
    · rintro ⟨record, payload, hshelf, hlevel, rfl⟩
      exact ⟨payload, ⟨record, hshelf⟩, (), hstocked.payload_valid hshelf, (), hlevel, rfl⟩
  · intro self key blocks hstocks
    simp only [methods, loadAggregatedBlocks, bind_ok, payloadFor_ok hstocks, refuseIf_ok, pure_ok]
    constructor
    · rintro ⟨payload, ⟨record, hshelf⟩, _, -, _, hlevel, rfl⟩
      exact ⟨record, payload, hshelf, hlevel, rfl⟩
    · rintro ⟨record, payload, hshelf, hlevel, rfl⟩
      exact ⟨payload, ⟨record, hshelf⟩, (), hstocked.payload_valid hshelf, (), hlevel, rfl⟩
  · intro self request handle records hstocks hown
    simp only [methods, materialize_ok hstocked hstocks hown]
    constructor
    · rintro ⟨_, ⟨payload, _, hshelf, hrecord, rfl⟩, rfl⟩
      exact ⟨payload, hshelf, hrecord⟩
    · rintro ⟨payload, hshelf, hrecord⟩
      exact ⟨_, ⟨payload, records, hshelf, hrecord, rfl⟩, rfl⟩
  · intro self request handle store hstocks hstep
    simp only [methods, materialize, bind_ok, pure_ok, Prod.exists, Prod.mk.injEq] at hstep
    obtain ⟨_, -, _, -, _, -, _, -, _, -, _, _, -, -, rfl⟩ := hstep
    exact hstocks

end InMemoryPredictionCacheStore

-- ---------------------------------------------------------------------------
-- Columns
-- ---------------------------------------------------------------------------

namespace ColumnarPredictionCacheStore

open ColumnarPredictionCacheEntry

variable {Sections : Type} {externals : Externals} {checks : SectionChecks Sections}
  {bundle : ExecutionBundle Sections} {payloads : BundlePredictionCachePayloadSet}
  {shelf : CacheShelf} {self store : ColumnarPredictionCacheStore}
  {recordsByRequirement : BTreeMap String BundlePredictionCacheRecord}
  {entries entries' : BTreeMap String ColumnarPredictionCacheEntry}
  {caches : List BundlePredictionCachePayload}

/-- The store holds the columns of the payloads on the shelf. -/
structure Stocks (externals : Externals) (shelf : CacheShelf)
    (store : ColumnarPredictionCacheStore) : Prop where
  held : ∀ key record payload, shelf key = some (record, payload) →
    ∃ entry, store.entries[key]? = some entry ∧ fromPayload externals payload record = .ok entry
  absent : ∀ key, shelf key = none → store.entries[key]? = none

/-- What the loop leaves: an entry for each payload, and the rest as it was. -/
theorem loop_insertPayload (hn : (caches.map (·.requirementKey)).Nodup)
    (h : loop (insertPayload externals recordsByRequirement) entries caches = .ok entries') :
    (∀ payload ∈ caches, ∃ record entry,
      recordsByRequirement[payload.requirementKey]? = some record ∧
      fromPayload externals payload record = .ok entry ∧
      entries'[payload.requirementKey]? = some entry) ∧
    ∀ key ∉ caches.map (·.requirementKey), entries'[key]? = entries[key]? := by
  induction caches generalizing entries with
  | nil =>
    cases h
    exact ⟨by simp, fun _ _ => rfl⟩
  | cons payload caches ih =>
    rw [List.map_cons, List.nodup_cons] at hn
    obtain ⟨_, hstep, hrest⟩ := loop_cons.mp h
    simp only [insertPayload, bind_ok, need_ok, pure_ok] at hstep
    obtain ⟨record, hrecord, entry, hentry, rfl⟩ := hstep
    obtain ⟨hothers, hkept⟩ := ih hn.2 hrest
    refine ⟨?_, fun key hkey => ?_⟩
    · rintro other (_ | ⟨_, hother⟩)
      · exact ⟨record, entry, hrecord, hentry, by simp [hkept _ hn.1]⟩
      · exact hothers other hother
    · rw [List.map_cons, List.mem_cons, not_or] at hkey
      rw [hkept key hkey.2, BTreeMap.getElem?_insert, if_neg (Ne.symm hkey.1)]

theorem exists_loop_insertPayload (entries : BTreeMap String ColumnarPredictionCacheEntry)
    (h : ∀ payload ∈ caches, ∃ record entry,
      recordsByRequirement[payload.requirementKey]? = some record ∧
      fromPayload externals payload record = .ok entry) :
    ∃ entries', loop (insertPayload externals recordsByRequirement) entries caches =
      .ok entries' := by
  induction caches generalizing entries with
  | nil => exact ⟨entries, rfl⟩
  | cons payload caches ih =>
    rw [List.forall_mem_cons] at h
    obtain ⟨⟨record, entry, hrecord, hentry⟩, hothers⟩ := h
    obtain ⟨entries', hrest⟩ := ih (entries.insert payload.requirementKey entry) hothers
    refine ⟨entries', loop_cons.mpr ⟨_, ?_, hrest⟩⟩
    simp only [insertPayload, bind_ok, need_ok, pure_ok]
    exact ⟨record, hrecord, entry, hentry, rfl⟩

theorem stocks_of_fromPayloads (h : fromPayloads externals checks bundle payloads = .ok store) :
    store.Stocks externals (shelfOf bundle payloads) ∧ store.materializationRecords = [] := by
  simp only [fromPayloads, bind_ok, pure_ok] at h
  obtain ⟨_, hvalid, entries, hloop, rfl⟩ := h
  have hsealed := payloads.sealed_of_validate hvalid
  have hindex := BTreeMap.indexOf_collect hsealed.contracts.cacheKeys_nodup
  obtain ⟨hheld, hkept⟩ := loop_insertPayload hsealed.payloads_nodup hloop
  refine ⟨⟨fun key record payload hshelf => ?_, fun key hshelf => ?_⟩, rfl⟩
  · obtain ⟨hrecord, hpayload⟩ := shelfOf_eq_some.mp hshelf
    have hkey : payload.requirementKey = key := by simpa using List.find?_some hpayload
    obtain ⟨record', entry, hrecord', hentry, hget⟩ :=
      hheld payload (List.mem_of_find?_eq_some hpayload)
    rw [hindex.getElem?_eq_find?, hkey, hrecord] at hrecord'
    cases hrecord'
    exact ⟨entry, hkey ▸ hget, hentry⟩
  · have hnone := hsealed.map_snd_shelfOf key
    rw [hshelf, Option.map_none, eq_comm, List.find?_eq_none] at hnone
    rw [hkept key]
    · simp
    · intro hmem
      obtain ⟨payload, hpayload, hkey⟩ := List.mem_map.mp hmem
      exact hnone payload hpayload (decide_eq_true hkey)

theorem entryFor_ok (h : self.Stocks externals shelf) {key : String}
    {entry : ColumnarPredictionCacheEntry} :
    self.entryFor key = .ok entry ↔ ∃ record payload, shelf key = some (record, payload) ∧
      fromPayload externals payload record = .ok entry := by
  rw [entryFor, need_ok]
  cases hshelf : shelf key with
  | none => simp [h.absent key hshelf]
  | some pair =>
    obtain ⟨held, hget, hheld⟩ := h.held key pair.1 pair.2 hshelf
    rw [hget, Option.some.injEq]
    constructor
    · rintro rfl
      exact ⟨_, _, rfl, hheld⟩
    · rintro ⟨record, payload, hpair, hentry⟩
      cases hpair
      rw [hheld] at hentry
      exact Except.ok.inj hentry

/-- The store answers from the shelf, whoever asks. -/
theorem implements_shelf (hstocked : shelf.Stocked externals) :
    Implements (methods externals).serve (shelf.answer externals) materializationRecords
      (Stocks externals shelf) (fun _ => True) := by
  have hlevel {payload : BundlePredictionCachePayload} {record : BundlePredictionCacheRecord}
      {entry : ColumnarPredictionCacheEntry} (h : fromPayload externals payload record = .ok entry) :
      entry.cache = record ∧ entry.cache.predictionLevel = payload.predictionLevel := by
    obtain ⟨hmatch, hcache, -⟩ := fromPayload_ok.mp h
    rw [hcache, ← (matches_of_ok hmatch).payload_eq]
    exact ⟨rfl, rfl⟩
  refine CacheMethods.implements ?_ ?_ ?_ ?_
  · intro self key blocks hstocks
    simp only [methods, loadBlocks, bind_ok, entryFor_ok hstocks, refuseIf_ok, not_not]
    constructor
    · rintro ⟨entry, ⟨record, payload, hshelf, hentry⟩, _, hsample, _, -, hblocks⟩
      rw [(hlevel hentry).2] at hsample
      obtain ⟨-, hrestored, -⟩ := restoredBlocks_of_fromPayload hentry
      rw [hrestored hsample] at hblocks
      exact ⟨record, payload, hshelf, hsample, (Except.ok.inj hblocks).symm⟩
    · rintro ⟨record, payload, hshelf, hsample, rfl⟩
      obtain ⟨entry, -, hentry⟩ := hstocks.held key record payload hshelf
      obtain ⟨-, hrestored, -⟩ := restoredBlocks_of_fromPayload hentry
      exact ⟨entry, ⟨record, payload, hshelf, hentry⟩, (), (hlevel hentry).2.trans hsample, (),
        (validateAgainstCacheRecord_iff hentry).mpr (hlevel hentry).1.symm, hrestored hsample⟩
  · intro self key blocks hstocks
    simp only [methods, loadAggregatedBlocks, bind_ok, entryFor_ok hstocks, refuseIf_ok]
    constructor
    · rintro ⟨entry, ⟨record, payload, hshelf, hentry⟩, _, habove, _, -, hblocks⟩
      rw [(hlevel hentry).2] at habove
      obtain ⟨-, -, hrestored, -⟩ := restoredBlocks_of_fromPayload hentry
      rw [hrestored habove] at hblocks
      exact ⟨record, payload, hshelf, habove, (Except.ok.inj hblocks).symm⟩
    · rintro ⟨record, payload, hshelf, habove, rfl⟩
      obtain ⟨entry, -, hentry⟩ := hstocks.held key record payload hshelf
      obtain ⟨-, -, hrestored, -⟩ := restoredBlocks_of_fromPayload hentry
      exact ⟨entry, ⟨record, payload, hshelf, hentry⟩, (), (hlevel hentry).2 ▸ habove, (),
        (validateAgainstCacheRecord_iff hentry).mpr (hlevel hentry).1.symm, hrestored habove⟩
  · intro self request handle records hstocks _
    simp only [methods, materialize, bind_ok, refuseIf_ok, not_not, entryFor_ok hstocks, pure_ok,
      Prod.exists, Prod.mk.injEq]
    constructor
    · rintro ⟨_, ⟨_, -, _, -, _, -, entry, ⟨record, payload, hshelf, hentry⟩, _, hcache, _, _,
        hrecord, rfl, rfl⟩, rfl⟩
      obtain rfl := (validateAgainstCacheRecord_iff hentry).mp hcache
      exact ⟨payload, hshelf, hrecord⟩
    · rintro ⟨payload, hshelf, hrecord⟩
      obtain ⟨entry, -, hentry⟩ := hstocks.held _ _ _ hshelf
      exact ⟨_, ⟨(), requirement_valid_of_recordMaterialization hrecord, (),
        (matches_of_ok (hstocked.matched _ _ _ hshelf)).cache_valid, (),
        (hstocked.key_eq _ _ _ hshelf).1.symm, entry, ⟨_, _, hshelf, hentry⟩, (),
        (validateAgainstCacheRecord_iff hentry).mpr rfl, handle, records, hrecord, rfl, rfl⟩, rfl⟩
  · intro self request handle store hstocks hstep
    simp only [methods, materialize, bind_ok, pure_ok, Prod.exists, Prod.mk.injEq] at hstep
    obtain ⟨_, -, _, -, _, -, _, -, _, -, _, _, -, -, rfl⟩ := hstep
    exact ⟨hstocks.held, hstocks.absent⟩

end ColumnarPredictionCacheStore

end DagMl

import DagMl.Bundle.Builders
import DagMl.Runtime.CacheStores

/-!
# Columns restore their blocks

Taking a block apart into columns and putting columns together are inverse to
each other, errors included; an entry made of a sealed payload restores it.
-/

namespace DagMl

open Checked Columns

-- ---------------------------------------------------------------------------
-- Blocks
-- ---------------------------------------------------------------------------

/-- The shape of aggregated blocks, beside what `PredictionBlock.Shape` says of sample blocks. -/
structure AggregatedPredictionBlock.Shape (block : AggregatedPredictionBlock) : Prop where
  length_eq : block.unitIds.length = block.values.length
  units_level : ∀ unitId ∈ block.unitIds, unitId.level = block.level
  units_distinct : block.unitIds.toFinset.card = block.unitIds.length
  width_pos : 0 < block.width
  rows_width : ∀ row ∈ block.values, row.length = block.width
  finite : ∀ row ∈ block.values, ∀ v ∈ row, v.isFinite = true
  targets : block.targetNames = [] ∨ block.targetNames.length = block.width

theorem AggregatedPredictionBlock.validateShape_iff {block : AggregatedPredictionBlock} :
    block.validateShape = .ok w ↔ block.Shape ∧ w = block.width := by
  simp only [validateShape, bind_ok, refuseIf_ok, pure_ok, not_exists, not_and, not_not,
    Bool.not_eq_false]
  constructor
  · rintro ⟨_, hlength, _, hlevel, _, hdistinct, _, hwidth, _, hrows, _, hfinite, _, ht, rfl⟩
    exact ⟨⟨hlength, hlevel, hdistinct, Nat.pos_of_ne_zero hwidth, hrows, hfinite,
      or_iff_not_imp_left.mpr ht⟩, rfl⟩
  · rintro ⟨h, rfl⟩
    exact ⟨(), h.length_eq, (), h.units_level, (), h.units_distinct, (), h.width_pos.ne', (),
      h.rows_width, (), h.finite, (), or_iff_not_imp_left.mp h.targets, rfl⟩

namespace ColumnarPredictionCacheBlock

/-- What `validate` checks beside the units. -/
structure Valid (columnar : ColumnarPredictionCacheBlock) : Prop where
  units : columnar.validateUnits = .ok ()
  width_pos : 0 < columnar.width
  table : Table columnar.width columnar.rowCount columnar.columns
  targets : columnar.targetNames = [] ∨ columnar.targetNames.length = columnar.width

variable {self columnar : ColumnarPredictionCacheBlock}

theorem validate_ok : self.validate = .ok u ↔ self.Valid := by
  simp only [validate, bind_ok, refuseIf_ok, each_ok, not_not, not_and]
  constructor
  · rintro ⟨_, hunits, _, hwidth, _, hlength, _, hcolumns, htargets⟩
    refine ⟨hunits, Nat.pos_of_ne_zero hwidth, ⟨hlength, fun column hcolumn => ?_⟩,
      or_iff_not_imp_left.mpr htargets⟩
    obtain ⟨index, hindex, rfl⟩ := List.mem_iff_getElem.mp hcolumn
    exact hcolumns (_, index) (List.mem_zipIdx_iff_getElem?.mpr (List.getElem?_eq_getElem hindex))
  · intro h
    refine ⟨(), h.units, (), h.width_pos.ne', (), h.table.width_eq, (), ?_,
      or_iff_not_imp_left.mp h.targets⟩
    rintro ⟨column, index⟩ hcolumn
    exact h.table.height_eq column (List.mem_of_getElem? (List.mem_zipIdx_iff_getElem?.mp hcolumn))

theorem values_ok (h : self.Valid) : self.values = .ok rows ↔
    rows.length = self.rowCount ∧ (∀ row ∈ rows, row.length = self.width) ∧
      transposed self.width rows = self.columns := by
  simp only [values, collect_ok, need_ok, forall₂_rowAt_iff h.table]

theorem validateUnits_sample (h : self.predictionLevel = .sample) :
    self.validateUnits = .ok () ↔ self.sampleIds ≠ [] ∧ self.unitIds = [] := by
  simp only [validateUnits, h, bind_ok, refuseIf_ok]
  simp

theorem validateUnits_above (h : self.predictionLevel ≠ .sample) :
    self.validateUnits = .ok () ↔ self.predictionLevel ≠ .observation ∧ self.sampleIds = [] ∧
      self.unitIds ≠ [] ∧ ∀ unitId ∈ self.unitIds, unitId.level = self.predictionLevel := by
  cases hlevel : self.predictionLevel with
  | sample => exact absurd hlevel h
  | observation => simp [validateUnits, hlevel]
  | target =>
    simp only [validateUnits, hlevel, bind_ok, refuseIf_ok]
    simp
  | group =>
    simp only [validateUnits, hlevel, bind_ok, refuseIf_ok]
    simp

theorem units_of_sample (h : self.Valid) (hlevel : self.predictionLevel = .sample) :
    self.unitIds = [] ∧ self.rowCount = self.sampleIds.length := by
  obtain ⟨-, hunits⟩ := (validateUnits_sample hlevel).mp h.units
  exact ⟨hunits, by simp [rowCount, hlevel]⟩

theorem samples_of_above (h : self.Valid) (hlevel : self.predictionLevel ≠ .sample) :
    self.sampleIds = [] ∧ self.rowCount = self.unitIds.length := by
  obtain ⟨hobservation, hsamples, -⟩ := (validateUnits_above hlevel).mp h.units
  refine ⟨hsamples, ?_⟩
  cases h : self.predictionLevel <;> simp_all [rowCount]

/-- The columns of a sample block hold the block, and nothing else does. -/
theorem fromPredictionBlock_iff {block : PredictionBlock} :
    fromPredictionBlock block = .ok columnar ↔ columnar.toPredictionBlock = .ok block := by
  simp only [fromPredictionBlock, toPredictionBlock, bind_ok, pure_ok, refuseIf_ok, not_not,
    validate_ok, PredictionBlock.validateShape_ok]
  constructor
  · rintro ⟨w, ⟨hshape, rfl⟩, rfl⟩
    have hne : block.sampleIds ≠ [] := by
      intro hnil
      have hlength := hshape.length_eq
      rw [hnil] at hlength
      have hwidth := hshape.width_pos
      simp [PredictionBlock.width, List.length_eq_zero_iff.mp hlength.symm] at hwidth
    have htable := table_transposed hshape.rows_width
    rw [← hshape.length_eq] at htable
    have hvalid : Valid (ColumnarPredictionCacheBlock.mk block.predictionId block.producerNode
        block.producerPort block.partition block.foldId .sample [] block.sampleIds
        block.targetNames block.width (transposed block.width block.values)) :=
      ⟨(validateUnits_sample rfl).mpr ⟨hne, rfl⟩, hshape.width_pos, htable, hshape.targets⟩
    exact ⟨(), hvalid, (), rfl, block.values,
      (values_ok hvalid).mpr ⟨hshape.length_eq.symm, hshape.rows_width, rfl⟩,
      block.width, ⟨hshape, rfl⟩, rfl⟩
  · rintro ⟨_, hvalid, _, hlevel, rows, hrows, w, ⟨hshape, rfl⟩, rfl⟩
    obtain ⟨hlength, hwidths, hcolumns⟩ := (values_ok hvalid).mp hrows
    obtain ⟨hunits, -⟩ := units_of_sample hvalid hlevel
    refine ⟨_, ⟨hshape, rfl⟩, ?_⟩
    have hwidth := hshape.width_pos
    cases rows with
    | nil => simp [PredictionBlock.width] at hwidth
    | cons row rows =>
      have hw : row.length = columnar.width := hwidths row List.mem_cons_self
      cases columnar
      simp_all [PredictionBlock.width]

theorem fromAggregatedPredictionBlock_iff {block : AggregatedPredictionBlock} :
    fromAggregatedPredictionBlock block = .ok columnar ↔
      columnar.toAggregatedPredictionBlock = .ok block := by
  simp only [fromAggregatedPredictionBlock, toAggregatedPredictionBlock, bind_ok, pure_ok,
    refuseIf_ok, validate_ok, AggregatedPredictionBlock.validateShape_iff]
  constructor
  · rintro ⟨w, ⟨hshape, rfl⟩, _, hlevel, rfl⟩
    have hne : block.unitIds ≠ [] := by
      intro hnil
      have hlength := hshape.length_eq
      rw [hnil] at hlength
      have hwidth := hshape.width_pos
      simp [AggregatedPredictionBlock.width, List.length_eq_zero_iff.mp hlength.symm] at hwidth
    have hobservation : block.level ≠ .observation := by
      obtain ⟨unitId, hunit⟩ := List.exists_mem_of_ne_nil _ hne
      rw [← hshape.units_level unitId hunit]
      cases unitId <;> simp [PredictionUnitId.level]
    have htable := table_transposed hshape.rows_width
    rw [← hshape.length_eq] at htable
    have hvalid : Valid (ColumnarPredictionCacheBlock.mk block.predictionId block.producerNode
        block.producerPort block.partition block.foldId block.level block.unitIds []
        block.targetNames block.width (transposed block.width block.values)) := by
      refine ⟨(validateUnits_above hlevel).mpr ⟨hobservation, rfl, hne, hshape.units_level⟩,
        hshape.width_pos, ?_, hshape.targets⟩
      cases h : block.level <;> simp_all [rowCount]
    have hcount := (samples_of_above hvalid hlevel).2
    exact ⟨(), hvalid, (), hlevel, block.values,
      (values_ok hvalid).mpr ⟨hcount ▸ hshape.length_eq.symm, hshape.rows_width, rfl⟩,
      block.width, ⟨hshape, rfl⟩, rfl⟩
  · rintro ⟨_, hvalid, _, hlevel, rows, hrows, w, ⟨hshape, rfl⟩, rfl⟩
    obtain ⟨hlength, hwidths, hcolumns⟩ := (values_ok hvalid).mp hrows
    obtain ⟨hsamples, -⟩ := samples_of_above hvalid hlevel
    refine ⟨_, ⟨hshape, rfl⟩, (), hlevel, ?_⟩
    have hwidth := hshape.width_pos
    cases rows with
    | nil => simp [AggregatedPredictionBlock.width] at hwidth
    | cons row rows =>
      have hw : row.length = columnar.width := hwidths row List.mem_cons_self
      cases columnar
      simp_all [AggregatedPredictionBlock.width]

/-- The rows and values of the columns, and what they carry over. -/
structure Holds (columnar : ColumnarPredictionCacheBlock) (level : PredictionLevel)
    (partition : PredictionPartition) (rows width : Nat) : Prop where
  valid : columnar.Valid
  level_eq : columnar.predictionLevel = level
  partition_eq : columnar.partition = partition
  rowCount_eq : columnar.rowCount = rows
  valueCount_eq : columnar.valueCount = rows * width

theorem holds_of_sample {block : PredictionBlock} (h : fromPredictionBlock block = .ok columnar) :
    columnar.Holds .sample block.partition block.sampleIds.length block.width := by
  have hvalid := validate_ok.mp (bind_ok.mp (fromPredictionBlock_iff.mp h)).choose_spec.1
  simp only [fromPredictionBlock, bind_ok, pure_ok, PredictionBlock.validateShape_ok] at h
  obtain ⟨w, ⟨-, rfl⟩, rfl⟩ := h
  exact ⟨hvalid, rfl, rfl, rfl, hvalid.table.sum_length⟩

theorem holds_of_aggregated {block : AggregatedPredictionBlock}
    (h : fromAggregatedPredictionBlock block = .ok columnar) :
    columnar.Holds block.level block.partition block.unitIds.length block.width := by
  have hvalid := validate_ok.mp (bind_ok.mp (fromAggregatedPredictionBlock_iff.mp h)).choose_spec.1
  simp only [fromAggregatedPredictionBlock, bind_ok, pure_ok, refuseIf_ok,
    AggregatedPredictionBlock.validateShape_iff] at h
  obtain ⟨w, ⟨-, rfl⟩, _, hlevel, rfl⟩ := h
  have hcount := (samples_of_above hvalid hlevel).2
  refine ⟨hvalid, rfl, rfl, hcount, ?_⟩
  rw [← hcount]
  exact hvalid.table.sum_length

end ColumnarPredictionCacheBlock

-- ---------------------------------------------------------------------------
-- Entries
-- ---------------------------------------------------------------------------

/-- What a payload says that agrees with the record it was matched against. -/
structure Matches (externals : Externals) (payload : BundlePredictionCachePayload)
    (cache : BundlePredictionCacheRecord) : Prop where
  payload_valid : payload.validate externals = .ok ()
  cache_valid : cache.validate = .ok ()
  payload_eq : ColumnarPredictionCacheEntry.payloadOf cache payload.blocks
    payload.aggregatedBlocks = payload

theorem matches_of_ok {externals : Externals} {payload : BundlePredictionCachePayload}
    {cache : BundlePredictionCacheRecord}
    (h : validatePredictionCachePayloadMatchesRecord externals payload cache = .ok ()) :
    Matches externals payload cache := by
  simp only [validatePredictionCachePayloadMatchesRecord, bind_ok, refuseIf_ok, not_or,
    not_not] at h
  obtain ⟨_, hpayload, _, hcache, _, ⟨hkey, hid, hspaces, hformat, hpartition, hlevel, hblocks,
    hrows, hcontent⟩, -⟩ := h
  refine ⟨hpayload, hcache, ?_⟩
  cases payload
  simp_all [ColumnarPredictionCacheEntry.payloadOf]

namespace BundlePredictionCachePayload

variable {externals : Externals} {self : BundlePredictionCachePayload}

/-- The values of all blocks, row by row. -/
def valueCount (self : BundlePredictionCachePayload) : Nat :=
  (self.blocks.map fun block => block.sampleIds.length * block.width).sum +
    (self.aggregatedBlocks.map fun block => block.unitIds.length * block.width).sum

/-- The blocks of the payload's own level are counted, and there are no others. -/
theorem validate_level (h : self.validate externals = .ok ()) :
    self.predictionLevel ≠ .observation ∧
      self.blockCount = self.blocks.length + self.aggregatedBlocks.length ∧
      (self.predictionLevel = .sample → self.aggregatedBlocks = []) ∧
      (self.predictionLevel ≠ .sample → self.blocks = []) ∧
      self.validateBlocks = .ok self.rowCount := by
  simp only [validate, bind_ok, refuseIf_ok, not_or, not_not] at h
  obtain ⟨_, -, _, -, _, -, _, -, _, -, _, -, _, -, count, hcount, _, ⟨-, hblocks⟩, _, -, rows,
    hrows, _, ⟨-, hrowCount⟩, -⟩ := h
  have hobservation : self.predictionLevel ≠ .observation := by
    intro hlevel
    simp [validateBlocks, hlevel] at hrows
  unfold expectedBlockCount at hcount
  split at hcount
  all_goals
    simp only [bind_ok, refuseIf_ok, pure_ok, not_not] at hcount
    obtain ⟨_, hnone, rfl⟩ := hcount
    refine ⟨hobservation, by simp [hblocks, hnone], ?_, ?_, hrowCount ▸ hrows⟩ <;> simp_all

end BundlePredictionCachePayload

namespace ColumnarPredictionCacheEntry

open ColumnarPredictionCacheBlock

variable {externals : Externals} {payload : BundlePredictionCachePayload}
  {cache : BundlePredictionCacheRecord} {self entry : ColumnarPredictionCacheEntry}
  {blocks : List ColumnarPredictionCacheBlock}

theorem foldl_counts {counts : Nat × Nat} :
    blocks.foldl (fun counted block => (counted.1 + block.rowCount, counted.2 + block.valueCount))
      counts = (counts.1 + (blocks.map rowCount).sum, counts.2 + (blocks.map valueCount).sum) := by
  induction blocks generalizing counts with
  | nil => rfl
  | cons block blocks ih => simp [ih, Nat.add_assoc]

/-- What `validate` checks of the blocks against the record. -/
structure Valid (entry : ColumnarPredictionCacheEntry) : Prop where
  cache : entry.cache.validate = .ok ()
  blockCount_eq : entry.blocks.length = entry.cache.blockCount
  blocks : ∀ block ∈ entry.blocks, block.Valid ∧
    block.predictionLevel = entry.cache.predictionLevel ∧ block.partition = entry.cache.partition
  rowCount_eq : (entry.blocks.map rowCount).sum = entry.cache.rowCount
  fits : entry.cache.rowCount * entry.cache.predictionWidth < 2 ^ 64
  valueCount_eq : (entry.blocks.map valueCount).sum =
    entry.cache.rowCount * entry.cache.predictionWidth

theorem validate_ok : self.validate = .ok u ↔ self.Valid := by
  have step (counted : Nat × Nat) (block : ColumnarPredictionCacheBlock) (counted' : Nat × Nat) :
      self.countBlock counted block = .ok counted' ↔
        (block.Valid ∧ block.predictionLevel = self.cache.predictionLevel ∧
          block.partition = self.cache.partition) ∧
        (counted.1 + block.rowCount, counted.2 + block.valueCount) = counted' := by
    simp only [countBlock, bind_ok, refuseIf_ok, pure_ok, not_not,
      ColumnarPredictionCacheBlock.validate_ok]
    constructor
    · rintro ⟨_, hvalid, _, hlevel, _, hpartition, rfl⟩
      exact ⟨⟨hvalid, hlevel, hpartition⟩, rfl⟩
    · rintro ⟨⟨hvalid, hlevel, hpartition⟩, rfl⟩
      exact ⟨(), hvalid, (), hlevel, (), hpartition, rfl⟩
  simp only [validate, bind_ok, refuseIf_ok, not_not, not_le, loop_foldl step, foldl_counts,
    Nat.zero_add]
  constructor
  · rintro ⟨_, hcache, _, hlength, _, ⟨hblocks, rfl⟩, _, hrows, _, hfits, hvalues⟩
    exact ⟨hcache, hlength, hblocks, hrows, hfits, hvalues⟩
  · intro h
    exact ⟨(), h.cache, (), h.blockCount_eq, _, ⟨h.blocks, rfl⟩, (), h.rowCount_eq, (), h.fits,
      h.valueCount_eq⟩

/-- The blocks of a payload, taken apart one by one. -/
theorem columnarBlocks_ok (h : payload.validate externals = .ok ()) :
    columnarBlocks payload = .ok blocks ↔
      (payload.predictionLevel = .sample ∧
        List.Forall₂ (fun block columnar => fromPredictionBlock block = .ok columnar)
          payload.blocks blocks) ∨
      (payload.predictionLevel ≠ .sample ∧
        List.Forall₂ (fun block columnar => fromAggregatedPredictionBlock block = .ok columnar)
          payload.aggregatedBlocks blocks) := by
  obtain ⟨hobservation, -⟩ := payload.validate_level h
  unfold columnarBlocks
  cases hlevel : payload.predictionLevel <;> simp_all [collect_ok]

theorem sums_of_holds {β : Type} {R : β → ColumnarPredictionCacheBlock → Prop} {sources : List β}
    {rows width : β → Nat} (level : PredictionLevel) (partition : PredictionPartition)
    (hall : List.Forall₂ R sources blocks)
    (hholds : ∀ source ∈ sources, ∀ columnar, R source columnar →
      columnar.Holds level partition (rows source) (width source)) :
    blocks.length = sources.length ∧
      (∀ block ∈ blocks, block.Valid ∧ block.predictionLevel = level ∧
        block.partition = partition) ∧
      (blocks.map rowCount).sum = (sources.map rows).sum ∧
      (blocks.map valueCount).sum =
        (sources.map fun source => rows source * width source).sum := by
  induction hall with
  | nil => simp
  | cons hr _ ih =>
    have hfirst := hholds _ List.mem_cons_self _ hr
    obtain ⟨hlength, hblocks, hrows, hvalues⟩ :=
      ih fun source hsource => hholds source (List.mem_cons_of_mem _ hsource)
    refine ⟨by simp [hlength], ?_, by simp [hfirst.rowCount_eq, hrows],
      by simp [hfirst.valueCount_eq, hvalues]⟩
    rintro block (_ | ⟨_, hblock⟩)
    · exact ⟨hfirst.valid, hfirst.level_eq, hfirst.partition_eq⟩
    · exact hblocks block hblock

/-- The columns of a payload are blocks of its level and partition, with as
many rows and values as the payload. -/
theorem sums_of_columnarBlocks (h : payload.validate externals = .ok ())
    (hblocks : columnarBlocks payload = .ok blocks) :
    blocks.length = payload.blockCount ∧
      (∀ block ∈ blocks, block.Valid ∧ block.predictionLevel = payload.predictionLevel ∧
        block.partition = payload.partition) ∧
      (blocks.map rowCount).sum = payload.rowCount ∧
      (blocks.map valueCount).sum = payload.valueCount := by
  obtain ⟨hobservation, hcount, haggregated, hsample, hvalidate⟩ := payload.validate_level h
  rcases (columnarBlocks_ok h).mp hblocks with ⟨hlevel, hall⟩ | ⟨hlevel, hall⟩
  · obtain ⟨hchecked, -, hrows⟩ :=
      (BundlePredictionCachePayload.validateBlocks_samples hlevel).mp hvalidate
    have hsums := sums_of_holds payload.predictionLevel payload.partition hall fun source hsource columnar hfrom => by
        rw [hlevel, ← (hchecked source hsource).2]
        exact holds_of_sample hfrom
    simpa [hcount, haggregated hlevel, hrows, BundlePredictionCachePayload.valueCount] using hsums
  · obtain ⟨hchecked, -, hrows⟩ :=
      (BundlePredictionCachePayload.validateBlocks_units hlevel hobservation).mp hvalidate
    have hsums := sums_of_holds payload.predictionLevel payload.partition hall fun source hsource columnar hfrom => by
        rw [← (hchecked source hsource).2.1, ← (hchecked source hsource).2.2]
        exact holds_of_aggregated hfrom
    simpa [hcount, hsample hlevel, hrows, BundlePredictionCachePayload.valueCount] using hsums

theorem exists_columnarBlocks (h : payload.validate externals = .ok ()) :
    ∃ blocks, columnarBlocks payload = .ok blocks := by
  obtain ⟨hobservation, -, -, -, hvalidate⟩ := payload.validate_level h
  by_cases hlevel : payload.predictionLevel = .sample
  · obtain ⟨hchecked, -⟩ :=
      (BundlePredictionCachePayload.validateBlocks_samples hlevel).mp hvalidate
    obtain ⟨blocks, hblocks⟩ := exists_collect (f := fromPredictionBlock) fun block hblock => by
      obtain ⟨⟨w, hshape⟩, -⟩ := hchecked block hblock
      exact ⟨_, bind_ok.mpr ⟨w, hshape, rfl⟩⟩
    exact ⟨blocks, (columnarBlocks_ok h).mpr (.inl ⟨hlevel, collect_ok.mp hblocks⟩)⟩
  · obtain ⟨hchecked, -⟩ :=
      (BundlePredictionCachePayload.validateBlocks_units hlevel hobservation).mp hvalidate
    obtain ⟨blocks, hblocks⟩ :=
      exists_collect (f := fromAggregatedPredictionBlock) fun block hblock => by
        obtain ⟨⟨w, hshape⟩, -, hsame⟩ := hchecked block hblock
        exact ⟨_, bind_ok.mpr ⟨w, hshape, bind_ok.mpr ⟨(), refuseIf_ok.mpr (hsame ▸ hlevel), rfl⟩⟩⟩
    exact ⟨blocks, (columnarBlocks_ok h).mpr (.inr ⟨hlevel, collect_ok.mp hblocks⟩)⟩

/-- The values of a payload fill the width its record gives to every row. -/
def Fills (payload : BundlePredictionCachePayload) (cache : BundlePredictionCacheRecord) : Prop :=
  payload.valueCount = cache.rowCount * cache.predictionWidth ∧
    cache.rowCount * cache.predictionWidth < 2 ^ 64

theorem fromPayload_ok : fromPayload externals payload cache = .ok entry ↔
    validatePredictionCachePayloadMatchesRecord externals payload cache = .ok () ∧
      entry.cache = cache ∧ columnarBlocks payload = .ok entry.blocks ∧ Fills payload cache := by
  simp only [fromPayload, bind_ok, pure_ok, validate_ok]
  constructor
  · rintro ⟨_, hmatch, blocks, hblocks, _, hvalid, rfl⟩
    obtain ⟨-, -, -, hvalues⟩ := sums_of_columnarBlocks (matches_of_ok hmatch).payload_valid hblocks
    exact ⟨hmatch, rfl, hblocks, hvalues.symm.trans hvalid.valueCount_eq, hvalid.fits⟩
  · rintro ⟨hmatch, rfl, hblocks, hvalues, hfits⟩
    have hm := matches_of_ok hmatch
    obtain ⟨hlength, hchecked, hrows, hcount⟩ := sums_of_columnarBlocks hm.payload_valid hblocks
    rw [← hm.payload_eq] at hlength hchecked hrows
    exact ⟨(), hmatch, entry.blocks, hblocks, (),
      ⟨hm.cache_valid, hlength, hchecked, hrows, hfits, hcount.trans hvalues⟩, rfl⟩

-- ---------------------------------------------------------------------------
-- What an entry restores
-- ---------------------------------------------------------------------------

theorem restoredBlocks_of_fromPayload (h : fromPayload externals payload cache = .ok entry) :
    entry.validate = .ok () ∧
      (payload.predictionLevel = .sample → entry.toBlocks = .ok payload.blocks) ∧
      (payload.predictionLevel ≠ .sample → entry.toAggregatedBlocks = .ok payload.aggregatedBlocks) ∧
      entry.restoredBlocks = .ok (payload.blocks, payload.aggregatedBlocks) := by
  obtain ⟨hmatch, hcache, hblocks, hfills⟩ := fromPayload_ok.mp h
  have hm := matches_of_ok hmatch
  have hlevel : entry.cache.predictionLevel = payload.predictionLevel := by
    rw [hcache, ← hm.payload_eq]
    rfl
  have hvalid : entry.validate = .ok () := by
    simp only [fromPayload, bind_ok, pure_ok] at h
    obtain ⟨_, -, _, -, _, hvalid, rfl⟩ := h
    exact hvalid
  obtain ⟨hobservation, -, haggregated, hnosample, -⟩ := payload.validate_level hm.payload_valid
  have hsample (hs : payload.predictionLevel = .sample) : entry.toBlocks = .ok payload.blocks := by
    rcases (columnarBlocks_ok hm.payload_valid).mp hblocks with ⟨-, hall⟩ | ⟨hne, -⟩
    · exact bind_ok.mpr ⟨(), hvalid, collect_ok.mpr
        (hall.flip.imp fun _ _ => fromPredictionBlock_iff.mp)⟩
    · exact absurd hs hne
  have habove (hs : payload.predictionLevel ≠ .sample) :
      entry.toAggregatedBlocks = .ok payload.aggregatedBlocks := by
    rcases (columnarBlocks_ok hm.payload_valid).mp hblocks with ⟨hlevel, -⟩ | ⟨-, hall⟩
    · exact absurd hlevel hs
    · exact bind_ok.mpr ⟨(), hvalid, collect_ok.mpr
        (hall.flip.imp fun _ _ => fromAggregatedPredictionBlock_iff.mp)⟩
  refine ⟨hvalid, hsample, habove, ?_⟩
  unfold restoredBlocks
  rw [hlevel]
  cases hs : payload.predictionLevel with
  | sample => exact bind_ok.mpr ⟨_, hsample hs, by rw [haggregated hs]; rfl⟩
  | target => exact bind_ok.mpr ⟨_, habove (by simp [hs]), by rw [hnosample (by simp [hs])]; rfl⟩
  | group => exact bind_ok.mpr ⟨_, habove (by simp [hs]), by rw [hnosample (by simp [hs])]; rfl⟩
  | observation => exact absurd hs hobservation

/-- A restored payload is the one that was taken apart, so it matches the
record it was taken apart under and no other. -/
theorem validateAgainstCacheRecord_iff (h : fromPayload externals payload cache = .ok entry)
    {record : BundlePredictionCacheRecord} :
    entry.validateAgainstCacheRecord externals record = .ok u ↔ cache = record := by
  obtain ⟨-, -, -, hrestored⟩ := restoredBlocks_of_fromPayload h
  obtain ⟨hmatch, rfl, -, -⟩ := fromPayload_ok.mp h
  simp only [validateAgainstCacheRecord, bind_ok, refuseIf_ok, not_not, hrestored]
  constructor
  · rintro ⟨_, heq, -⟩
    exact heq
  · rintro rfl
    refine ⟨(), rfl, _, rfl, ?_⟩
    rw [(matches_of_ok hmatch).payload_eq]
    exact hmatch

end ColumnarPredictionCacheEntry

end DagMl

import Mathlib
import DagMl.Bundle.Payload
import DagMl.Bundle.Records

/-!
# The cache builders

A record and a payload are built from one selection of blocks. `Recordable`
says of a selection, whatever its order, that the record builder accepts it;
the payload builder also asks every selected block for its port. Both keep the
order of the sort, which leaves blocks of one fold and prediction id as given.
-/

namespace DagMl

open Checked

-- ---------------------------------------------------------------------------
-- Selecting
-- ---------------------------------------------------------------------------

section

variable {β : Type} {kind : BlockKind β} {r : BundlePredictionRequirement}
  {blocks blocks' selected : List β}

/-- What the sort compares. -/
def BlockKind.cacheKey (kind : BlockKind β) (block : β) : WithBot String ×ₗ WithBot String :=
  toLex (optionKey ((kind.foldId block).map Id.value), optionKey (kind.predictionId block))

instance : Std.Total (beforeInCache kind) := ⟨fun a b => le_total (kind.cacheKey a) (kind.cacheKey b)⟩

instance : IsTrans β (beforeInCache kind) :=
  ⟨fun a b c => le_trans (a := kind.cacheKey a) (b := kind.cacheKey b) (c := kind.cacheKey c)⟩

theorem selectBlocks_ok :
    selectBlocks kind r blocks = .ok selected ↔ r.Valid ∧
      blocks.filter (selects kind r blocks) ≠ [] ∧
      selected = (blocks.filter (selects kind r blocks)).insertionSort (beforeInCache kind) := by
  simp only [selectBlocks, bind_ok, BundlePredictionRequirement.validate_ok, refuseIf_ok, pure_ok,
    List.isEmpty_iff]
  constructor
  · rintro ⟨_, hvalid, _, hne, rfl⟩
    exact ⟨hvalid, hne, rfl⟩
  · rintro ⟨hvalid, hne, rfl⟩
    exact ⟨(), hvalid, (), hne, rfl⟩

theorem inCohort_of_selects (h : block ∈ blocks.filter (selects kind r blocks)) :
    inCohort kind r block = true := by
  have h := List.of_mem_filter h
  simp only [selects, Bool.and_eq_true] at h
  exact h.1

/-- Whether a port is named elsewhere in the cohort does not depend on the order. -/
theorem absentPortIsUnambiguous_perm (h : blocks'.Perm blocks) :
    absentPortIsUnambiguous kind r blocks' = absentPortIsUnambiguous kind r blocks := by
  have hports (port : String) :=
    ((h.filter (inCohort kind r)).filterMap kind.producerPort).mem_iff (a := port)
  refine Bool.eq_iff_iff.mpr ?_
  simp only [absentPortIsUnambiguous, List.all_eq_true, hports]

theorem filter_selects_perm (h : blocks'.Perm blocks) :
    (blocks'.filter (selects kind r blocks')).Perm (blocks.filter (selects kind r blocks)) := by
  have hselects : selects kind r blocks' = selects kind r blocks := by
    funext block
    simp only [selects, absentPortIsUnambiguous_perm h]
  rw [hselects]
  exact h.filter _

/-- What a requirement selects it selects again among the selected blocks. -/
theorem filter_selects_selected (hperm : selected.Perm (blocks.filter (selects kind r blocks))) :
    selected.filter (selects kind r selected) = selected := by
  refine List.filter_eq_self.mpr fun block hblock => ?_
  have hselected (other : β) (hother : other ∈ selected) : selects kind r blocks other = true :=
    List.of_mem_filter (hperm.mem_iff.mp hother)
  have hunambiguous : absentPortIsUnambiguous kind r selected = true := by
    simp only [absentPortIsUnambiguous, List.all_eq_true, decide_eq_true_eq, List.mem_filterMap,
      List.mem_filter]
    rintro port ⟨other, ⟨hother, -⟩, hport⟩
    have hother := hselected other hother
    simp only [selects, hport, Bool.and_eq_true, Bool.or_eq_true, decide_eq_true_eq] at hother
    simpa using hother.2
  have hblock := hselected block hblock
  simp only [selects, hunambiguous, Bool.and_eq_true, Bool.or_eq_true] at hblock ⊢
  exact ⟨hblock.1, hblock.2.imp_right fun h => ⟨h.1, trivial⟩⟩

/-- A block of the requirement's producer, partition, level and folds that names its port. -/
def onPort (kind : BlockKind β) (r : BundlePredictionRequirement) (block : β) : Bool :=
  inCohort kind r block && kind.producerPort block = some r.sourcePort

/-- With every selected port named, the selection is the requirement's own port. -/
theorem filter_selects_eq_onPort
    (h : ∀ block ∈ blocks.filter (selects kind r blocks), kind.producerPort block ≠ none) :
    blocks.filter (selects kind r blocks) = blocks.filter (onPort kind r) := by
  refine List.filter_congr fun block hblock => Bool.eq_iff_iff.mpr ⟨fun hselects => ?_, fun hon => ?_⟩
  · have hport := h block (List.mem_filter.mpr ⟨hblock, hselects⟩)
    simp only [selects, Bool.and_eq_true, Bool.or_eq_true, decide_eq_true_eq] at hselects
    obtain ⟨hcohort, hnamed | ⟨habsent, -⟩⟩ := hselects
    · simp [onPort, hcohort, hnamed]
    · exact absurd (Option.isNone_iff_eq_none.mp habsent) hport
  · simp only [onPort, Bool.and_eq_true, decide_eq_true_eq] at hon
    simp [selects, hon.1, hon.2]

end

-- ---------------------------------------------------------------------------
-- What a record can be built from
-- ---------------------------------------------------------------------------

section

variable {β : Type} {kind : BlockKind β} {r : BundlePredictionRequirement} {blocks selected : List β}

/-- The selected blocks carry the rows of the requirement: its width, its
target names, its folds and its ids, no row twice in one fold. -/
structure Recordable (kind : BlockKind β) (r : BundlePredictionRequirement) (selected : List β) :
    Prop where
  requirement : r.Valid
  ne_nil : selected ≠ []
  level : ∀ block ∈ selected, kind.level block = r.predictionLevel
  shape : ∀ block ∈ selected, kind.validateShape block = .ok r.predictionWidth
  targets : ∀ block ∈ selected, kind.normalizedTargets block r.predictionWidth = r.targetNames
  predictionId_ne : ∀ block ∈ selected, ∀ predictionId ∈ kind.predictionId block,
    isBlank predictionId = false
  folds : ascending (selected.filterMap kind.foldId).toFinset = r.foldIds
  samples : ascending (selected.flatMap kind.sampleIds).toFinset = r.sampleIds
  units : r.predictionLevel ≠ .sample →
    ascending (selected.flatMap kind.unitIds).toFinset = r.unitIds
  samples_nodup :
    (selected.flatMap fun block => (kind.sampleIds block).map (kind.foldId block, ·)).Nodup
  units_nodup :
    (selected.flatMap fun block => (kind.unitIds block).map (kind.foldId block, ·)).Nodup

theorem Recordable.of_perm (h : Recordable kind r selected) (hperm : selected'.Perm selected) :
    Recordable kind r selected' where
  requirement := h.requirement
  ne_nil := fun hnil => h.ne_nil (hnil ▸ hperm).nil_eq.symm
  level block hblock := h.level block (hperm.mem_iff.mp hblock)
  shape block hblock := h.shape block (hperm.mem_iff.mp hblock)
  targets block hblock := h.targets block (hperm.mem_iff.mp hblock)
  predictionId_ne block hblock := h.predictionId_ne block (hperm.mem_iff.mp hblock)
  folds := by rw [List.toFinset_eq_of_perm _ _ (hperm.filterMap _), h.folds]
  samples := by rw [List.toFinset_eq_of_perm _ _ (hperm.flatMap_right _), h.samples]
  units hlevel := by rw [List.toFinset_eq_of_perm _ _ (hperm.flatMap_right _), h.units hlevel]
  samples_nodup := (hperm.flatMap_right _).nodup_iff.mpr h.samples_nodup
  units_nodup := (hperm.flatMap_right _).nodup_iff.mpr h.units_nodup

theorem recordable_perm (hperm : selected'.Perm selected) :
    Recordable kind r selected' ↔ Recordable kind r selected :=
  ⟨fun h => h.of_perm hperm.symm, fun h => h.of_perm hperm⟩

/-- A kind of block whose rows are named as the requirement's level says. -/
structure BlockKind.Fits (kind : BlockKind β) (r : BundlePredictionRequirement) : Prop where
  level : ∀ block, kind.inLevel r block = true → kind.level block = r.predictionLevel
  samples : r.predictionLevel = .sample → ∀ block,
    kind.unitIds block = [] ∧ kind.rowCount block = (kind.sampleIds block).length
  units : r.predictionLevel ≠ .sample → ∀ block,
    kind.sampleIds block = [] ∧ kind.rowCount block = (kind.unitIds block).length
  units_valid : ∀ block, kind.level block = r.predictionLevel → kind.validateShape block = .ok w →
    (kind.unitIds block).Nodup ∧ ∀ unitId ∈ kind.unitIds block, unitId.level = r.predictionLevel
  rowCount_ne : ∀ block, kind.validateShape block = .ok w → kind.rowCount block ≠ 0

theorem sampleKind_fits (h : r.predictionLevel = .sample) : sampleKind.Fits r where
  level _ _ := h.symm
  samples _ _ := ⟨rfl, rfl⟩
  units hlevel := absurd h hlevel
  units_valid _ _ _ := ⟨List.nodup_nil, by simp [sampleKind]⟩
  rowCount_ne block hshape := by
    obtain ⟨hshape, -⟩ := PredictionBlock.validateShape_ok.mp hshape
    have hwidth := hshape.width_pos
    cases hvalues : block.values with
    | nil => simp [PredictionBlock.width, hvalues] at hwidth
    | cons row rows => simp [sampleKind, hshape.length_eq, hvalues]

theorem aggregatedKind_fits (h : r.predictionLevel ≠ .sample) : aggregatedKind.Fits r where
  level _ hlevel := of_decide_eq_true hlevel
  samples hlevel := absurd hlevel h
  units _ _ := ⟨rfl, rfl⟩
  units_valid block hlevel hshape := by
    simp only [aggregatedKind, AggregatedPredictionBlock.validateShape, bind_ok, refuseIf_ok,
      not_exists, not_and, not_not] at hlevel hshape
    obtain ⟨_, -, _, hunits, _, hn, -⟩ := hshape
    refine ⟨card_toFinset_eq_length.mp hn, fun unitId hunit => ?_⟩
    exact (hunits unitId hunit).trans hlevel
  rowCount_ne block hshape := by
    simp only [aggregatedKind, AggregatedPredictionBlock.validateShape, bind_ok, refuseIf_ok,
      not_not] at hshape
    obtain ⟨_, hlength, _, -, _, -, _, hwidth, -⟩ := hshape
    cases hvalues : block.values with
    | nil => simp [AggregatedPredictionBlock.width, hvalues] at hwidth
    | cons row rows => simp [aggregatedKind, hlength, hvalues]

/-- A sample block in a requirement of another level carries the wrong ids, and
an aggregated block no samples. -/
theorem Recordable.sample_level {selected : List PredictionBlock}
    (h : Recordable sampleKind r selected) : r.predictionLevel = .sample := by
  obtain ⟨block, hblock⟩ := List.exists_mem_of_ne_nil _ h.ne_nil
  exact (h.level block hblock).symm

theorem Recordable.aggregated_level {selected : List AggregatedPredictionBlock}
    (h : Recordable aggregatedKind r selected) : r.predictionLevel ≠ .sample := by
  intro hlevel
  have hrows := h.requirement.rows_ne
  have hnone : selected.flatMap aggregatedKind.sampleIds = [] :=
    List.flatMap_eq_nil_iff.mpr fun _ _ => rfl
  have hempty : r.sampleIds = [] := by rw [← h.samples, hnone]; rfl
  simp [rowNames, hlevel, hempty] at hrows

-- ---------------------------------------------------------------------------
-- The record
-- ---------------------------------------------------------------------------

/-- The record of a selection that carries the requirement's rows. -/
def sealRecord (externals : Externals) (kind : BlockKind β) (r : BundlePredictionRequirement)
    (selected : List β) : BundlePredictionCacheRecord where
  requirementKey := r.key
  cacheId := s!"prediction-cache:{r.key}"
  cacheNamespaceFingerprints := []
  format := bundlePredictionCacheFormat
  partition := r.partition
  predictionLevel := r.predictionLevel
  foldIds := r.foldIds
  unitIds := r.unitIds
  sampleIds := r.sampleIds
  predictionWidth := r.predictionWidth
  targetNames := r.targetNames
  blockCount := selected.length
  rowCount := (selected.map kind.rowCount).sum
  contentFingerprint := stableJsonFingerprint externals (.array (selected.map kind.toValue))
  blocks := selected.map (blockRecord externals kind)

theorem agreeOnColumns_ok (hcohort : inCohort kind r block = true) :
    agreeOnColumns kind r columns block = .ok columns' ↔
      ∃ width, kind.validateShape block = .ok width ∧
        (∀ expected ∈ columns, expected = (width, kind.normalizedTargets block width)) ∧
        columns' = some (width, kind.normalizedTargets block width) := by
  simp only [inCohort, Bool.and_eq_true, decide_eq_true_eq] at hcohort
  obtain ⟨⟨⟨hproducer, hpartition⟩, hlevel⟩, -⟩ := hcohort
  simp only [agreeOnColumns, bind_ok, refuseIf_ok, pure_ok, hproducer, hpartition, hlevel,
    not_exists, not_and, not_not]
  constructor
  · rintro ⟨_, -, width, hshape, _, hwidth, _, hnames, rfl⟩
    exact ⟨width, hshape, fun expected h => Prod.ext (hwidth expected h) (hnames expected h), rfl⟩
  · rintro ⟨width, hshape, hexpected, rfl⟩
    exact ⟨(), by simp, width, hshape, (), fun expected h => congrArg Prod.fst (hexpected expected h),
      (), fun expected h => congrArg Prod.snd (hexpected expected h), rfl⟩

theorem agreeOnColumns_none (hne : selected ≠ [])
    (hcohort : ∀ block ∈ selected, inCohort kind r block = true) :
    loop (agreeOnColumns kind r) none selected = .ok columns ↔
      ∃ width names, columns = some (width, names) ∧ ∀ block ∈ selected,
        kind.validateShape block = .ok width ∧ kind.normalizedTargets block width = names := by
  have step : ∀ block ∈ selected, ∀ seen s, agreeOnColumns kind r seen block = .ok s ↔
      ∃ k : Nat × List String, (kind.validateShape block = .ok k.1 ∧
        kind.normalizedTargets block k.1 = k.2) ∧ (∀ k' ∈ seen, k' = k) ∧ s = some k := by
    intro block hblock seen s
    rw [agreeOnColumns_ok (hcohort block hblock)]
    constructor
    · rintro ⟨width, hshape, hseen, rfl⟩
      exact ⟨(width, _), ⟨hshape, rfl⟩, hseen, rfl⟩
    · rintro ⟨⟨width, names⟩, ⟨hshape, hnames⟩, hseen, rfl⟩
      obtain rfl : kind.normalizedTargets block width = names := hnames
      exact ⟨width, hshape, hseen, rfl⟩
  rw [loop_agree_none hne step, Prod.exists]

/-- The block records name the rows of their blocks. -/
theorem foldSamples_blockRecord {externals : Externals} {block : β} :
    (blockRecord externals kind block).foldSamples =
      (kind.sampleIds block).map (kind.foldId block, ·) := rfl

theorem foldUnits_blockRecord {externals : Externals} {block : β} :
    (blockRecord externals kind block).foldUnits =
      (kind.unitIds block).map (kind.foldId block, ·) := rfl

theorem blockRecord_valid {externals : Externals} (hfits : kind.Fits r)
    (h : Recordable kind r selected) (hblock : block ∈ selected) :
    (blockRecord externals kind block).Valid := by
  have hlevel := h.level block hblock
  obtain ⟨hunits, hunitLevel⟩ := hfits.units_valid block hlevel (h.shape block hblock)
  constructor
  case predictionId_ne => exact h.predictionId_ne block hblock
  case rowCount_ne => exact hfits.rowCount_ne block (h.shape block hblock)
  case fingerprint => exact validateRuntimeFingerprint_stable externals _
  case rowCount_eq =>
    by_cases hsample : r.predictionLevel = .sample
    · simp [blockRecord, rowNames, hlevel, hsample, (hfits.samples hsample block).2]
    · simp [blockRecord, rowNames, hlevel, hsample, (hfits.units hsample block).2]
  case units =>
    rw [blockRecord, hlevel]
    constructor
    case level_ne => exact h.requirement.units.level_ne
    case samples_nodup =>
      intro _
      have hn := (List.nodup_flatMap.mp h.samples_nodup).1 block hblock
      exact hn.of_map _
    case units_eq => exact fun hsample => .inl (hfits.samples hsample block).1
    case samples_eq => exact fun hsample => (hfits.units hsample block).1
    case units_nodup => exact fun _ => hunits
    case units_level => exact fun _ => hunitLevel

/-- The rows outnumber the ids of the requirement. -/
theorem rowNames_le_rowCount (hfits : kind.Fits r) (h : Recordable kind r selected) :
    (rowNames r.predictionLevel r.sampleIds r.unitIds).length ≤ (selected.map kind.rowCount).sum := by
  by_cases hsample : r.predictionLevel = .sample
  · have hcount : selected.map kind.rowCount = selected.map fun b => (kind.sampleIds b).length :=
      List.map_congr_left fun b _ => (hfits.samples hsample b).2
    rw [rowNames, if_pos hsample, List.length_map, ← h.samples, hcount, ← List.length_flatMap,
      length_ascending]
    exact List.toFinset_card_le _
  · have hcount : selected.map kind.rowCount = selected.map fun b => (kind.unitIds b).length :=
      List.map_congr_left fun b _ => (hfits.units hsample b).2
    rw [rowNames, if_neg hsample, List.length_map, ← h.units hsample, hcount, ← List.length_flatMap,
      length_ascending]
    exact List.toFinset_card_le _

theorem rowCount_sum_ne (hfits : kind.Fits r) (h : Recordable kind r selected) :
    (selected.map kind.rowCount).sum ≠ 0 := by
  obtain ⟨block, hblock⟩ := List.exists_mem_of_ne_nil _ h.ne_nil
  have hrows := hfits.rowCount_ne block (h.shape block hblock)
  have hle := List.single_le_sum (by simp) _ (List.mem_map_of_mem (f := kind.rowCount) hblock)
  omega

theorem sealRecord_valid {externals : Externals} (hfits : kind.Fits r)
    (h : Recordable kind r selected) : (sealRecord externals kind r selected).Valid := by
  constructor
  case requirementKey_ne => exact isBlank_key r
  case cacheId_ne =>
    have hkey : isBlank (toString r.key) = false := isBlank_key r
    simp [sealRecord, isBlank_append, hkey]
  case namespaces => rfl
  case format_ne => exact (by decide : isBlank bundlePredictionCacheFormat = false)
  case format =>
    exact (by decide : supportedPredictionCacheFormat bundlePredictionCacheFormat = true)
  case partition_eq => exact h.requirement.partition_eq
  case folds_nodup => exact h.requirement.folds_nodup
  case units => exact h.requirement.units
  case rows_le => exact rowNames_le_rowCount hfits h
  case width_ne => exact h.requirement.width_ne
  case targets_length => exact h.requirement.targets_length
  case targets_ne => exact h.requirement.targets_ne
  case blockCount_ne => simpa [sealRecord] using h.ne_nil
  case blockCount_eq => simp [sealRecord]
  case namespaces_length => exact fun hne => absurd rfl hne
  case fingerprint => exact validateRuntimeFingerprint_stable externals _
  case covers =>
    constructor
    case fits =>
      intro record hrecord
      obtain ⟨block, hblock, rfl⟩ := List.mem_map.mp hrecord
      exact ⟨blockRecord_valid hfits h hblock, h.level block hblock⟩
    case rowCount_ne => exact rowCount_sum_ne hfits h
    case rowCount_eq =>
      simp only [sealRecord, List.map_map]
      rfl
    case samples_nodup =>
      intro _
      simp only [sealRecord, List.flatMap_map, foldSamples_blockRecord]
      exact h.samples_nodup
    case units_nodup =>
      intro _
      simp only [sealRecord, List.flatMap_map, foldUnits_blockRecord]
      exact h.units_nodup
    case samples =>
      intro _
      ext sampleId
      have hmem : sampleId ∈ r.sampleIds ↔ sampleId ∈ selected.flatMap kind.sampleIds := by
        rw [← h.samples, mem_ascending, List.mem_toFinset]
      simp [sealRecord, List.flatMap_map, blockRecord, hmem]
    case units =>
      intro hlevel
      ext unitId
      have hmem : unitId ∈ r.unitIds ↔ unitId ∈ selected.flatMap kind.unitIds := by
        rw [← h.units hlevel, mem_ascending, List.mem_toFinset]
      simp [sealRecord, List.flatMap_map, blockRecord, hmem]

/-- `build_prediction_cache_record_from_selected` accepts just the selections
that carry the requirement's rows. -/
theorem buildRecordFromSelected_ok {externals : Externals} (hfits : kind.Fits r)
    (hcohort : ∀ block ∈ selected, inCohort kind r block = true)
    (hsamples : r.predictionLevel = .sample → unitIds = r.unitIds)
    (hunits : r.predictionLevel ≠ .sample →
      unitIds = ascending (selected.flatMap kind.unitIds).toFinset) :
    buildRecordFromSelected externals kind r unitIds selected = .ok record ↔
      Recordable kind r selected ∧ record = sealRecord externals kind r selected := by
  simp only [buildRecordFromSelected, bind_ok, BundlePredictionRequirement.validate_ok, refuseIf_ok,
    pure_ok, List.isEmpty_iff]
  have hlevel (block : β) (hblock : block ∈ selected) : kind.level block = r.predictionLevel := by
    have hin := hcohort block hblock
    simp only [inCohort, Bool.and_eq_true] at hin
    exact hfits.level block hin.1.2
  constructor
  · rintro ⟨_, hvalid, _, hne, columns, hcolumns, _, hmatch, _, hrecord, rfl⟩
    obtain ⟨width, names, rfl, hagree⟩ := (agreeOnColumns_none hne hcohort).mp hcolumns
    simp only [validatePredictionCacheMatchesRequirement, refuseIf_ok, not_or, not_not,
      Option.map_some, Option.getD_some, true_and] at hmatch
    obtain ⟨hfolds, hunitIds, hsampleIds, rfl, rfl⟩ := hmatch
    have hcovers := (BundlePredictionCacheRecord.validate_ok.mp hrecord).covers
    have hrecordable : Recordable kind r selected := by
      constructor
      case requirement => exact hvalid
      case ne_nil => exact hne
      case level => exact hlevel
      case shape => exact fun block hblock => (hagree block hblock).1
      case targets => exact fun block hblock => (hagree block hblock).2
      case predictionId_ne =>
        intro block hblock
        have hfits := hcovers.fits _ (List.mem_map_of_mem (f := blockRecord externals kind) hblock)
        exact hfits.1.predictionId_ne
      case folds => exact hfolds
      case samples => exact hsampleIds
      case units => exact fun hother => (hunits hother).symm.trans hunitIds
      case samples_nodup =>
        by_cases hsample : r.predictionLevel = .sample
        · have hn := hcovers.samples_nodup hsample
          simp only [List.flatMap_map, foldSamples_blockRecord] at hn
          exact hn
        · have hnone : selected.flatMap (fun block =>
              (kind.sampleIds block).map (kind.foldId block, ·)) = [] :=
            List.flatMap_eq_nil_iff.mpr fun block _ => by rw [(hfits.units hsample block).1]; rfl
          rw [hnone]
          exact List.nodup_nil
      case units_nodup =>
        by_cases hsample : r.predictionLevel = .sample
        · have hnone : selected.flatMap (fun block =>
              (kind.unitIds block).map (kind.foldId block, ·)) = [] :=
            List.flatMap_eq_nil_iff.mpr fun block _ => by rw [(hfits.samples hsample block).1]; rfl
          rw [hnone]
          exact List.nodup_nil
        · have hn := hcovers.units_nodup hsample
          simp only [List.flatMap_map, foldUnits_blockRecord] at hn
          exact hn
    refine ⟨hrecordable, ?_⟩
    simp only [sealRecord, hfolds, hsampleIds, hunitIds, Option.map_some, Option.getD_some]
  · rintro ⟨h, rfl⟩
    have hids : unitIds = r.unitIds := by
      by_cases hsample : r.predictionLevel = .sample
      · exact hsamples hsample
      · exact (hunits hsample).trans (h.units hsample)
    have hcolumns : loop (agreeOnColumns kind r) none selected =
        .ok (some (r.predictionWidth, r.targetNames)) :=
      (agreeOnColumns_none h.ne_nil hcohort).mpr ⟨_, _, rfl, fun block hblock =>
        ⟨h.shape block hblock, h.targets block hblock⟩⟩
    refine ⟨(), h.requirement, (), h.ne_nil, _, hcolumns, ?_⟩
    simp only [Option.map_some, Option.getD_some, h.folds, h.samples, hids]
    refine ⟨(), ?_, (), ?_, rfl⟩
    · simp [validatePredictionCacheMatchesRequirement, refuseIf_ok]
    · exact BundlePredictionCacheRecord.validate_ok.mpr (sealRecord_valid hfits h)

end

-- ---------------------------------------------------------------------------
-- The payload
-- ---------------------------------------------------------------------------

/-- The port of a V2 block is there and not blank. -/
def NamesPort (producerPort : Option String) : Prop :=
  ∃ port, producerPort = some port ∧ isBlank port = false

theorem portFamily_ok {producerPort : Option String} :
    validatePredictionBlockPortFamily producerPort predictionCachePayloadSchemaVersion owner =
      .ok u ↔ NamesPort producerPort := by
  rw [NamesPort, validatePredictionBlockPortFamily, if_neg (by decide), if_pos rfl]
  simp only [bind_ok, need_ok, refuseIf_ok, Bool.not_eq_true]

namespace BundlePredictionCachePayload

variable {self : BundlePredictionCachePayload}

theorem validateBlocks_samples (hlevel : self.predictionLevel = .sample) :
    self.validateBlocks = .ok n ↔
      (∀ block ∈ self.blocks, (∃ w, block.validateShape = .ok w) ∧
        block.partition = self.partition) ∧
      (self.blocks.flatMap fun block => block.sampleIds.map (block.foldId, ·)).Nodup ∧
      n = (self.blocks.map (·.sampleIds.length)).sum := by
  have step (n : Nat) (seen : Finset (Option FoldId × SampleId)) (block : PredictionBlock)
      (s : Nat × Finset (Option FoldId × SampleId)) :
      self.coverSampleBlock (n, seen) block = .ok s ↔
        ((∃ w, block.validateShape = .ok w) ∧ block.partition = self.partition) ∧
        (block.sampleIds.map (block.foldId, ·)).Nodup ∧
        (∀ row ∈ block.sampleIds.map (block.foldId, ·), row ∉ seen) ∧
        s = (n + block.sampleIds.length, seen ∪ (block.sampleIds.map (block.foldId, ·)).toFinset) := by
    simp only [coverSampleBlock, bind_ok, refuseIf_ok, not_not,
      BundlePredictionCacheRecord.coverFold_ok, pure_ok]
    constructor
    · rintro ⟨w, hshape, _, hpartition, _, ⟨hn, hs, rfl⟩, rfl⟩
      exact ⟨⟨⟨w, hshape⟩, hpartition⟩, hn, hs, rfl⟩
    · rintro ⟨⟨⟨w, hshape⟩, hpartition⟩, hn, hs, rfl⟩
      exact ⟨w, hshape, (), hpartition, _, ⟨hn, hs, rfl⟩, rfl⟩
  simp only [validateBlocks, hlevel, bind_ok, pure_ok, loop_gather step]
  constructor
  · rintro ⟨_, ⟨hall, hn, -, rfl⟩, rfl⟩
    exact ⟨hall, hn, by simp⟩
  · rintro ⟨hall, hn, rfl⟩
    exact ⟨_, ⟨hall, hn, by simp, rfl⟩, by simp⟩

theorem validateBlocks_units (hlevel : self.predictionLevel ≠ .sample)
    (hobservation : self.predictionLevel ≠ .observation) :
    self.validateBlocks = .ok n ↔
      (∀ block ∈ self.aggregatedBlocks, (∃ w, block.validateShape = .ok w) ∧
        block.partition = self.partition ∧ block.level = self.predictionLevel) ∧
      (self.aggregatedBlocks.flatMap fun block => block.unitIds.map (block.foldId, ·)).Nodup ∧
      n = (self.aggregatedBlocks.map (·.unitIds.length)).sum := by
  have step (n : Nat) (seen : Finset (Option FoldId × PredictionUnitId))
      (block : AggregatedPredictionBlock) (s : Nat × Finset (Option FoldId × PredictionUnitId)) :
      self.coverAggregatedBlock (n, seen) block = .ok s ↔
        ((∃ w, block.validateShape = .ok w) ∧ block.partition = self.partition ∧
          block.level = self.predictionLevel) ∧
        (block.unitIds.map (block.foldId, ·)).Nodup ∧
        (∀ row ∈ block.unitIds.map (block.foldId, ·), row ∉ seen) ∧
        s = (n + block.unitIds.length, seen ∪ (block.unitIds.map (block.foldId, ·)).toFinset) := by
    simp only [coverAggregatedBlock, bind_ok, refuseIf_ok, not_not,
      BundlePredictionCacheRecord.coverFold_ok, pure_ok]
    constructor
    · rintro ⟨w, hshape, _, hpartition, _, hblock, _, ⟨hn, hs, rfl⟩, rfl⟩
      exact ⟨⟨⟨w, hshape⟩, hpartition, hblock⟩, hn, hs, rfl⟩
    · rintro ⟨⟨⟨w, hshape⟩, hpartition, hblock⟩, hn, hs, rfl⟩
      exact ⟨w, hshape, (), hpartition, (), hblock, _, ⟨hn, hs, rfl⟩, rfl⟩
  have hblocks : self.validateBlocks = (do
      let state ← loop self.coverAggregatedBlock (0, ∅) self.aggregatedBlocks
      pure state.1) := by
    unfold validateBlocks
    cases h : self.predictionLevel <;> simp_all
  rw [hblocks]
  simp only [bind_ok, pure_ok, loop_gather step]
  constructor
  · rintro ⟨_, ⟨hall, hn, -, rfl⟩, rfl⟩
    exact ⟨hall, hn, by simp⟩
  · rintro ⟨hall, hn, rfl⟩
    exact ⟨_, ⟨hall, hn, by simp, rfl⟩, by simp⟩

theorem validateBlockFamily_ok :
    self.validateBlockFamily predictionCachePayloadSchemaVersion = .ok u ↔
      (∀ block ∈ self.blocks, NamesPort block.producerPort) ∧
      ∀ block ∈ self.aggregatedBlocks, NamesPort block.producerPort := by
  simp only [validateBlockFamily, bind_ok, each_ok, portFamily_ok]
  simp

end BundlePredictionCachePayload

section

variable {externals : Externals} {r : BundlePredictionRequirement}

/-- The payload a requirement's sample blocks are sealed in. -/
def samplePayload (externals : Externals) (r : BundlePredictionRequirement)
    (selected : List PredictionBlock) : BundlePredictionCachePayload :=
  sealPayload externals r (selected.map (·.sampleIds.length)).sum
    (.array (selected.map PredictionBlock.toValue)) selected []

def aggregatedPayload (externals : Externals) (r : BundlePredictionRequirement)
    (selected : List AggregatedPredictionBlock) : BundlePredictionCachePayload :=
  sealPayload externals r (selected.map (·.unitIds.length)).sum
    (.array (selected.map AggregatedPredictionBlock.toValue)) [] selected

theorem isBlank_cacheId (r : BundlePredictionRequirement) :
    isBlank s!"prediction-cache:{r.key}" = false := by
  have hkey : isBlank (toString r.key) = false := isBlank_key r
  simp [isBlank_append, hkey]

/-- What is left to check of a sealed payload. -/
theorem sealPayload_validate {content : JsonValue} {rowCount : Nat} {blocks : List PredictionBlock}
    {aggregatedBlocks : List AggregatedPredictionBlock} (hpartition : r.partition = .validation)
    (hcontent : (sealPayload externals r rowCount content blocks aggregatedBlocks).actualFingerprint
      externals = stableJsonFingerprint externals content) :
    (sealPayload externals r rowCount content blocks aggregatedBlocks).validate externals = .ok u ↔
      ∃ count rows,
        (sealPayload externals r rowCount content blocks aggregatedBlocks).expectedBlockCount =
          .ok count ∧
        (blocks.length + aggregatedBlocks.length ≠ 0 ∧
          blocks.length + aggregatedBlocks.length = count) ∧
        (sealPayload externals r rowCount content blocks aggregatedBlocks).validateBlocks =
          .ok rows ∧
        (rowCount ≠ 0 ∧ rowCount = rows) ∧
        (sealPayload externals r rowCount content blocks aggregatedBlocks).validateBlockFamily
          predictionCachePayloadSchemaVersion = .ok () := by
  have hversion (owner : String) :
      predictionCacheSchemaVersionForFormat bundlePredictionCacheFormat owner =
        .ok predictionCachePayloadSchemaVersion := by
    rw [predictionCacheSchemaVersionForFormat, if_neg (by decide), if_pos rfl]
  simp only [BundlePredictionCachePayload.validate, bind_ok, validateNonEmpty_ok, refuseIf_ok,
    not_not, not_or, not_and, Bool.not_eq_true', Bool.not_eq_false]
  constructor
  · rintro ⟨_, -, _, -, _, -, _, -, _, -, version, hformat, _, -, count, hcount, _, hblocks, _, -,
      rows, hrows, _, hrowCount, _, hfamily, -⟩
    simp only [sealPayload, hversion, Except.ok.injEq] at hformat
    subst hformat
    exact ⟨count, rows, hcount, hblocks, hrows, hrowCount, hfamily⟩
  · rintro ⟨count, rows, hcount, hblocks, hrows, hrowCount, hfamily⟩
    have hnamed : isBlank bundlePredictionCacheFormat = false := by decide
    have hsupported : supportedPredictionCacheFormat bundlePredictionCacheFormat = true := by decide
    exact ⟨(), isBlank_key r, (), isBlank_cacheId r, (), rfl, (), hnamed, (), hsupported, _,
      hversion _, (), hpartition, count, hcount, (), hblocks, (), fun hne => absurd rfl hne, rows,
      hrows, (), hrowCount, (), hfamily, (), validateRuntimeFingerprint_stable externals content,
      hcontent⟩

theorem samplePayload_validate {selected : List PredictionBlock}
    (h : Recordable sampleKind r selected)
    (hcohort : ∀ block ∈ selected, inCohort sampleKind r block = true) :
    (samplePayload externals r selected).validate externals = .ok u ↔
      ∀ block ∈ selected, NamesPort block.producerPort := by
  have hlevel : (samplePayload externals r selected).predictionLevel = .sample := h.sample_level
  have hcontent : (samplePayload externals r selected).actualFingerprint externals =
      stableJsonFingerprint externals (.array (selected.map PredictionBlock.toValue)) := by
    rw [BundlePredictionCachePayload.actualFingerprint, if_pos hlevel]
    rfl
  have hcount : (samplePayload externals r selected).expectedBlockCount = .ok selected.length := by
    rw [BundlePredictionCachePayload.expectedBlockCount, if_pos hlevel]
    exact bind_ok.mpr ⟨(), refuseIf_ok.mpr (not_not.mpr rfl), rfl⟩
  rw [samplePayload, sealPayload_validate h.requirement.partition_eq hcontent]
  constructor
  · rintro ⟨_, _, -, -, -, -, hfamily⟩
    exact (BundlePredictionCachePayload.validateBlockFamily_ok.mp hfamily).1
  · intro hports
    refine ⟨selected.length, (selected.map (·.sampleIds.length)).sum, ?_, ⟨?_, rfl⟩, ?_, ⟨?_, rfl⟩, ?_⟩
    · exact hcount
    · simpa using h.ne_nil
    · refine (BundlePredictionCachePayload.validateBlocks_samples hlevel).mpr
        ⟨fun block hblock => ⟨⟨_, h.shape block hblock⟩, ?_⟩, h.samples_nodup, rfl⟩
      have hin := hcohort block hblock
      simp only [inCohort, Bool.and_eq_true, decide_eq_true_eq] at hin
      exact hin.1.1.2
    · exact rowCount_sum_ne (sampleKind_fits h.sample_level) h
    · exact BundlePredictionCachePayload.validateBlockFamily_ok.mpr
        ⟨hports, fun _ hblock => absurd hblock List.not_mem_nil⟩

theorem aggregatedPayload_validate {selected : List AggregatedPredictionBlock}
    (h : Recordable aggregatedKind r selected)
    (hcohort : ∀ block ∈ selected, inCohort aggregatedKind r block = true) :
    (aggregatedPayload externals r selected).validate externals = .ok u ↔
      ∀ block ∈ selected, NamesPort block.producerPort := by
  have hlevel : (aggregatedPayload externals r selected).predictionLevel ≠ .sample :=
    h.aggregated_level
  have hcontent : (aggregatedPayload externals r selected).actualFingerprint externals =
      stableJsonFingerprint externals (.array (selected.map AggregatedPredictionBlock.toValue)) := by
    rw [BundlePredictionCachePayload.actualFingerprint, if_neg hlevel]
    rfl
  have hcount : (aggregatedPayload externals r selected).expectedBlockCount = .ok selected.length := by
    rw [BundlePredictionCachePayload.expectedBlockCount, if_neg hlevel]
    exact bind_ok.mpr ⟨(), refuseIf_ok.mpr (not_not.mpr rfl), rfl⟩
  rw [aggregatedPayload, sealPayload_validate h.requirement.partition_eq hcontent]
  constructor
  · rintro ⟨_, _, -, -, -, -, hfamily⟩
    exact (BundlePredictionCachePayload.validateBlockFamily_ok.mp hfamily).2
  · intro hports
    refine ⟨selected.length, (selected.map (·.unitIds.length)).sum, ?_, ⟨?_, by simp⟩, ?_,
      ⟨?_, rfl⟩, ?_⟩
    · exact hcount
    · simpa using h.ne_nil
    · refine (BundlePredictionCachePayload.validateBlocks_units hlevel
        h.requirement.units.level_ne).mpr ⟨fun block hblock => ⟨⟨_, h.shape block hblock⟩, ?_⟩,
          h.units_nodup, rfl⟩
      have hin := hcohort block hblock
      simp only [inCohort, Bool.and_eq_true, decide_eq_true_eq] at hin
      exact ⟨hin.1.1.2, h.level block hblock⟩
    · exact rowCount_sum_ne (aggregatedKind_fits h.aggregated_level) h
    · exact BundlePredictionCachePayload.validateBlockFamily_ok.mpr
        ⟨fun _ hblock => absurd hblock List.not_mem_nil, hports⟩

end

-- ---------------------------------------------------------------------------
-- What the builders return
-- ---------------------------------------------------------------------------

section

variable {β : Type} {kind : BlockKind β} {externals : Externals} {r : BundlePredictionRequirement}

/-- The blocks a builder goes on with, in the order of the sort. -/
def chosen (kind : BlockKind β) (r : BundlePredictionRequirement) (blocks : List β) : List β :=
  (blocks.filter (selects kind r blocks)).insertionSort (beforeInCache kind)

variable {blocks : List β}

theorem chosen_perm : (chosen kind r blocks).Perm (blocks.filter (selects kind r blocks)) :=
  List.perm_insertionSort _ _

theorem inCohort_of_chosen (h : block ∈ chosen kind r blocks) : inCohort kind r block = true :=
  inCohort_of_selects (chosen_perm.mem_iff.mp h)

/-- The payload builder selects again among its own blocks, and finds them all. -/
theorem chosen_chosen : chosen kind r (chosen kind r blocks) = chosen kind r blocks := by
  have hsorted : (chosen kind r blocks).Pairwise (beforeInCache kind) :=
    List.pairwise_insertionSort _ _
  rw [chosen, filter_selects_selected chosen_perm, hsorted.insertionSort_eq]

theorem selectBlocks_chosen (h : Recordable kind r (chosen kind r blocks)) :
    selectBlocks kind r blocks = .ok (chosen kind r blocks) := by
  refine selectBlocks_ok.mpr ⟨h.requirement, fun hnil => h.ne_nil ?_, rfl⟩
  rw [chosen, hnil, List.insertionSort_nil]

/-- A selected block that names a port names the requirement's, which is not blank. -/
theorem namesPort_of_chosen (hvalid : r.Valid) (hblock : block ∈ chosen kind r blocks)
    (hport : kind.producerPort block ≠ none) :
    NamesPort (kind.producerPort block) := by
  have hselects := List.of_mem_filter (chosen_perm.mem_iff.mp hblock)
  simp only [selects, Bool.and_eq_true, Bool.or_eq_true, decide_eq_true_eq] at hselects
  obtain ⟨-, hnamed | ⟨habsent, -⟩⟩ := hselects
  · exact ⟨_, hnamed, hvalid.sourcePort_ne⟩
  · exact absurd (Option.isNone_iff_eq_none.mp habsent) hport

/-- A record holds only blocks of its own level. -/
theorem level_of_buildRecordFromSelected {selected : List β}
    (h : buildRecordFromSelected externals kind r unitIds selected = .ok record) :
    selected ≠ [] ∧ ∀ block ∈ selected, kind.level block = r.predictionLevel := by
  simp only [buildRecordFromSelected, bind_ok, refuseIf_ok, pure_ok, List.isEmpty_iff] at h
  obtain ⟨_, -, _, hne, _, -, _, -, _, hrecord, -⟩ := h
  have hcovers := (BundlePredictionCacheRecord.validate_ok.mp hrecord).covers
  refine ⟨hne, fun block hblock => ?_⟩
  exact (hcovers.fits _ (List.mem_map_of_mem (f := blockRecord externals kind) hblock)).2

end

section

variable {externals : Externals} {r : BundlePredictionRequirement}

theorem buildPredictionCacheRecord_ok {blocks : List PredictionBlock} :
    buildPredictionCacheRecord externals r blocks = .ok record ↔
      Recordable sampleKind r (chosen sampleKind r blocks) ∧
        record = sealRecord externals sampleKind r (chosen sampleKind r blocks) := by
  simp only [buildPredictionCacheRecord, selectPredictionCacheBlocks, bind_ok]
  constructor
  · rintro ⟨selected, hselected, h⟩
    obtain ⟨-, -, rfl⟩ := selectBlocks_ok.mp hselected
    obtain ⟨hne, hlevel⟩ := level_of_buildRecordFromSelected h
    obtain ⟨block, hblock⟩ := List.exists_mem_of_ne_nil _ hne
    have hsample : r.predictionLevel = .sample := (hlevel block hblock).symm
    exact (buildRecordFromSelected_ok (sampleKind_fits hsample) (fun _ h => inCohort_of_chosen h)
      (fun _ => rfl) (fun hother => absurd hsample hother)).mp h
  · rintro ⟨h, rfl⟩
    refine ⟨_, selectBlocks_chosen h, ?_⟩
    exact (buildRecordFromSelected_ok (sampleKind_fits h.sample_level)
      (fun _ h => inCohort_of_chosen h) (fun _ => rfl)
      (fun hother => absurd h.sample_level hother)).mpr ⟨h, rfl⟩

theorem refuseSampleLevel_ok :
    refuseSampleLevel r = .ok u ↔ r.Valid ∧ r.predictionLevel ≠ .sample := by
  simp only [refuseSampleLevel, bind_ok, BundlePredictionRequirement.validate_ok, refuseIf_ok]
  simp

theorem buildAggregatedPredictionCacheRecord_ok {blocks : List AggregatedPredictionBlock} :
    buildAggregatedPredictionCacheRecord externals r blocks = .ok record ↔
      Recordable aggregatedKind r (chosen aggregatedKind r blocks) ∧
        record = sealRecord externals aggregatedKind r (chosen aggregatedKind r blocks) := by
  simp only [buildAggregatedPredictionCacheRecord, selectAggregatedPredictionCacheBlocks, bind_ok,
    refuseSampleLevel_ok]
  constructor
  · rintro ⟨selected, ⟨_, ⟨-, hlevel⟩, hselected⟩, _, -, h⟩
    obtain ⟨-, -, rfl⟩ := selectBlocks_ok.mp hselected
    exact (buildRecordFromSelected_ok (aggregatedKind_fits hlevel)
      (fun _ h => inCohort_of_chosen h) (fun hsample => absurd hsample hlevel)
      (fun _ => rfl)).mp h
  · rintro ⟨h, rfl⟩
    refine ⟨_, ⟨(), ⟨h.requirement, h.aggregated_level⟩, selectBlocks_chosen h⟩, (),
      ⟨h.requirement, h.aggregated_level⟩, ?_⟩
    exact (buildRecordFromSelected_ok (aggregatedKind_fits h.aggregated_level)
      (fun _ h => inCohort_of_chosen h) (fun hsample => absurd hsample h.aggregated_level)
      (fun _ => rfl)).mpr ⟨h, rfl⟩

theorem samplePayload_matches {selected : List PredictionBlock}
    (h : Recordable sampleKind r selected)
    (hcohort : ∀ block ∈ selected, inCohort sampleKind r block = true)
    (hports : ∀ block ∈ selected, NamesPort block.producerPort) :
    validatePredictionCachePayloadMatchesRecord externals (samplePayload externals r selected)
      (sealRecord externals sampleKind r selected) = .ok () := by
  have hlevel : (samplePayload externals r selected).predictionLevel = .sample := h.sample_level
  simp only [validatePredictionCachePayloadMatchesRecord, bind_ok, refuseIf_ok, if_pos hlevel]
  refine ⟨(), (samplePayload_validate h hcohort).mpr hports, (),
    BundlePredictionCacheRecord.validate_ok.mpr
      (sealRecord_valid (sampleKind_fits h.sample_level) h), (), ?_, ?_⟩
  · simp [samplePayload, sealPayload, sealRecord, sampleKind]
  · exact not_not.mpr rfl

theorem aggregatedPayload_matches {selected : List AggregatedPredictionBlock}
    (h : Recordable aggregatedKind r selected)
    (hcohort : ∀ block ∈ selected, inCohort aggregatedKind r block = true)
    (hports : ∀ block ∈ selected, NamesPort block.producerPort) :
    validatePredictionCachePayloadMatchesRecord externals (aggregatedPayload externals r selected)
      (sealRecord externals aggregatedKind r selected) = .ok () := by
  have hlevel : (aggregatedPayload externals r selected).predictionLevel ≠ .sample :=
    h.aggregated_level
  simp only [validatePredictionCachePayloadMatchesRecord, bind_ok, refuseIf_ok, if_neg hlevel]
  refine ⟨(), (aggregatedPayload_validate h hcohort).mpr hports, (),
    BundlePredictionCacheRecord.validate_ok.mpr
      (sealRecord_valid (aggregatedKind_fits h.aggregated_level) h), (), ?_, ?_⟩
  · simp [aggregatedPayload, sealPayload, sealRecord, aggregatedKind]
  · exact not_not.mpr rfl

theorem buildPredictionCachePayload_iff {blocks : List PredictionBlock} :
    buildPredictionCachePayload externals r blocks = .ok payload ↔
      Recordable sampleKind r (chosen sampleKind r blocks) ∧
        (∀ block ∈ chosen sampleKind r blocks, block.producerPort ≠ none) ∧
        payload = samplePayload externals r (chosen sampleKind r blocks) := by
  simp only [buildPredictionCachePayload, selectPredictionCacheBlocks, bind_ok, pure_ok]
  constructor
  · rintro ⟨selected, hselected, _, hvalid, record, hrecord, _, -, rfl⟩
    obtain ⟨-, -, rfl⟩ := selectBlocks_ok.mp hselected
    obtain ⟨h, -⟩ := buildPredictionCacheRecord_ok.mp hrecord
    have h : Recordable sampleKind r (chosen sampleKind r blocks) := chosen_chosen ▸ h
    refine ⟨h, fun block hblock => ?_, rfl⟩
    obtain ⟨port, hport, -⟩ :=
      (samplePayload_validate h fun _ h => inCohort_of_chosen h).mp hvalid block hblock
    simp [hport]
  · rintro ⟨h, hports, rfl⟩
    have hnamed (block : PredictionBlock) (hblock : block ∈ chosen sampleKind r blocks) :
        NamesPort block.producerPort :=
      namesPort_of_chosen h.requirement hblock (hports block hblock)
    have hcohort (block : PredictionBlock) (hblock : block ∈ chosen sampleKind r blocks) :=
      inCohort_of_chosen hblock
    have hrecord : buildPredictionCacheRecord externals r (chosen sampleKind r blocks) =
        .ok (sealRecord externals sampleKind r (chosen sampleKind r blocks)) :=
      buildPredictionCacheRecord_ok.mpr ⟨chosen_chosen.symm ▸ h, by rw [chosen_chosen]⟩
    exact ⟨_, selectBlocks_chosen h, (), (samplePayload_validate h hcohort).mpr hnamed, _, hrecord,
      (), samplePayload_matches h hcohort hnamed, rfl⟩

theorem buildAggregatedPredictionCachePayload_iff {blocks : List AggregatedPredictionBlock} :
    buildAggregatedPredictionCachePayload externals r blocks = .ok payload ↔
      Recordable aggregatedKind r (chosen aggregatedKind r blocks) ∧
        (∀ block ∈ chosen aggregatedKind r blocks, block.producerPort ≠ none) ∧
        payload = aggregatedPayload externals r (chosen aggregatedKind r blocks) := by
  simp only [buildAggregatedPredictionCachePayload, selectAggregatedPredictionCacheBlocks, bind_ok,
    pure_ok, refuseSampleLevel_ok]
  constructor
  · rintro ⟨selected, ⟨_, -, hselected⟩, _, hvalid, record, hrecord, _, -, rfl⟩
    obtain ⟨-, -, rfl⟩ := selectBlocks_ok.mp hselected
    obtain ⟨h, -⟩ := buildAggregatedPredictionCacheRecord_ok.mp hrecord
    have h : Recordable aggregatedKind r (chosen aggregatedKind r blocks) := chosen_chosen ▸ h
    refine ⟨h, fun block hblock => ?_, rfl⟩
    obtain ⟨port, hport, -⟩ :=
      (aggregatedPayload_validate h fun _ h => inCohort_of_chosen h).mp hvalid block hblock
    simp [hport]
  · rintro ⟨h, hports, rfl⟩
    have hnamed (block : AggregatedPredictionBlock)
        (hblock : block ∈ chosen aggregatedKind r blocks) : NamesPort block.producerPort :=
      namesPort_of_chosen h.requirement hblock (hports block hblock)
    have hcohort (block : AggregatedPredictionBlock)
        (hblock : block ∈ chosen aggregatedKind r blocks) := inCohort_of_chosen hblock
    have hrecord : buildAggregatedPredictionCacheRecord externals r (chosen aggregatedKind r blocks) =
        .ok (sealRecord externals aggregatedKind r (chosen aggregatedKind r blocks)) :=
      buildAggregatedPredictionCacheRecord_ok.mpr ⟨chosen_chosen.symm ▸ h, by rw [chosen_chosen]⟩
    exact ⟨_, ⟨(), ⟨h.requirement, h.aggregated_level⟩, selectBlocks_chosen h⟩, (),
      (aggregatedPayload_validate h hcohort).mpr hnamed, _, hrecord, (),
      aggregatedPayload_matches h hcohort hnamed, rfl⟩

end

-- ---------------------------------------------------------------------------
-- Agreement of the two builders
-- ---------------------------------------------------------------------------

section

variable {β : Type} {kind : BlockKind β} {externals : Externals} {r : BundlePredictionRequirement}
  {blocks : List β}

/-- What the two builders of a kind of block are expected to do on a list of
blocks: `holds` says that a payload holds those blocks and no others. -/
structure BuildersAgree (externals : Externals) (kind : BlockKind β)
    (r : BundlePredictionRequirement) (record : List β → Result BundlePredictionCacheRecord)
    (payload : List β → Result BundlePredictionCachePayload)
    (holds : BundlePredictionCachePayload → List β → Prop) (blocks : List β) : Prop where
  together : (∃ cache, record blocks = .ok cache) ↔ ∃ sealed, payload blocks = .ok sealed
  matching : ∀ cache sealed, record blocks = .ok cache → payload blocks = .ok sealed →
    validatePredictionCachePayloadMatchesRecord externals sealed cache = .ok ()
  own_port : ∀ sealed, payload blocks = .ok sealed →
    ∃ held, holds sealed held ∧ held.Perm (blocks.filter (onPort kind r))
  record_perm : ∀ blocks', blocks'.Perm blocks → Agree (record blocks') (record blocks)
  payload_perm : ∀ blocks', blocks'.Perm blocks → Agree (payload blocks') (payload blocks)

/-- A selection that makes a record names its ports, and no two of its blocks
share a fold and a prediction id. -/
def Canonical (kind : BlockKind β) (r : BundlePredictionRequirement) (blocks : List β) : Prop :=
  Recordable kind r (blocks.filter (selects kind r blocks)) →
    (∀ block ∈ blocks.filter (selects kind r blocks), kind.producerPort block ≠ none) ∧
    ((blocks.filter (selects kind r blocks)).map fun block =>
      (kind.foldId block, kind.predictionId block)).Nodup

theorem chosen_recordable : Recordable kind r (chosen kind r blocks) ↔
    Recordable kind r (blocks.filter (selects kind r blocks)) :=
  recordable_perm chosen_perm

/-- Blocks with keys of their own are sorted one way. -/
theorem chosen_eq_of_perm (hperm : blocks'.Perm blocks)
    (hkeys : ((blocks.filter (selects kind r blocks)).map fun block =>
      (kind.foldId block, kind.predictionId block)).Nodup) :
    chosen kind r blocks' = chosen kind r blocks := by
  have hchosen : (chosen kind r blocks').Perm (chosen kind r blocks) :=
    chosen_perm.trans ((filter_selects_perm hperm).trans chosen_perm.symm)
  refine hchosen.eq_of_pairwise (fun a b ha hb hab hba => ?_) (List.pairwise_insertionSort _ _)
    (List.pairwise_insertionSort _ _)
  have ha := chosen_perm.mem_iff.mp (hchosen.mem_iff.mp ha)
  have hb := chosen_perm.mem_iff.mp hb
  have hkey : kind.cacheKey a = kind.cacheKey b := le_antisymm hab hba
  refine List.inj_on_of_nodup_map hkeys ha hb ?_
  obtain ⟨hfold, hid⟩ := Prod.mk.inj (toLex_inj.mp hkey)
  have hfold : (kind.foldId a).map Id.value = (kind.foldId b).map Id.value := hfold
  have hid : kind.predictionId a = kind.predictionId b := hid
  rw [hid, Option.map_injective (fun _ _ h => Id.value_inj.mp h) hfold]

/-- Two elements cannot stand in both orders in a list without repetition. -/
theorem not_pair_both {α : Type} {l : List α} {a b : α} (hn : l.Nodup) (hab : [a, b].Sublist l)
    (hba : [b, a].Sublist l) : False := by
  induction l with
  | nil => cases hab
  | cons x xs ih =>
    obtain ⟨hx, hn⟩ := List.nodup_cons.mp hn
    cases hab with
    | cons _ hab =>
      cases hba with
      | cons _ hba => exact ih hn hab hba
      | cons_cons _ hba => exact hx (hab.subset (by simp))
    | cons_cons _ hab =>
      cases hba with
      | cons _ hba => exact hx (hba.subset (by simp))
      | cons_cons _ hba => exact hx (hab.subset (by simp))

/-- Rows of their own make the selected blocks distinct. -/
theorem Recordable.nodup {selected : List β} (hfits : kind.Fits r)
    (h : Recordable kind r selected) : selected.Nodup := by
  by_cases hsample : r.predictionLevel = .sample
  · refine (List.nodup_flatMap.mp h.samples_nodup).2.imp_of_mem ?_
    rintro a b ha - hdisjoint rfl
    have hrows := hfits.rowCount_ne a (h.shape a ha)
    rw [(hfits.samples hsample a).2, ← List.length_map (kind.foldId a, ·), Ne,
      List.length_eq_zero_iff] at hrows
    exact hrows (List.eq_nil_iff_forall_not_mem.mpr fun row hrow => hdisjoint hrow hrow)
  · refine (List.nodup_flatMap.mp h.units_nodup).2.imp_of_mem ?_
    rintro a b ha - hdisjoint rfl
    have hrows := hfits.rowCount_ne a (h.shape a ha)
    rw [(hfits.units hsample a).2, ← List.length_map (kind.foldId a, ·), Ne,
      List.length_eq_zero_iff] at hrows
    exact hrows (List.eq_nil_iff_forall_not_mem.mpr fun row hrow => hdisjoint hrow hrow)

theorem filter_selects_reverse : blocks.reverse.filter (selects kind r blocks.reverse) =
    (blocks.filter (selects kind r blocks)).reverse := by
  have hselects : selects kind r blocks.reverse = selects kind r blocks := by
    funext block
    simp only [selects, absentPortIsUnambiguous_perm (List.reverse_perm blocks)]
  rw [hselects, List.filter_reverse]

/-- Tied blocks keep the order they came in. -/
theorem keys_nodup_of_reverse (hnodup : (chosen kind r blocks).Nodup)
    (hreverse : chosen kind r blocks.reverse = chosen kind r blocks) :
    ((blocks.filter (selects kind r blocks)).map fun block =>
      (kind.foldId block, kind.predictionId block)).Nodup := by
  rw [List.Nodup, List.pairwise_map, List.pairwise_iff_forall_sublist]
  intro a b hab hkey
  obtain ⟨hfold, hid⟩ := Prod.mk.inj hkey
  have hcacheKey : kind.cacheKey a = kind.cacheKey b := by
    rw [BlockKind.cacheKey, BlockKind.cacheKey, hfold, hid]
  have hforward : [a, b].Sublist (chosen kind r blocks) :=
    List.pair_sublist_insertionSort hcacheKey.le hab
  have hbackward : [b, a].Sublist (chosen kind r blocks.reverse) := by
    refine List.pair_sublist_insertionSort hcacheKey.ge ?_
    rw [filter_selects_reverse]
    exact hab.reverse
  exact not_pair_both hnodup hforward (hreverse ▸ hbackward)

/-- Two builders with one reading of `Recordable`, the payload builder asking
for ports, agree on just the canonical lists. -/
theorem buildersAgree_iff {record : List β → Result BundlePredictionCacheRecord}
    {payload : List β → Result BundlePredictionCachePayload}
    {holds : BundlePredictionCachePayload → List β → Prop}
    {make : List β → BundlePredictionCachePayload}
    (hfits : ∀ selected, Recordable kind r selected → kind.Fits r)
    (hrecord : ∀ blocks cache, record blocks = .ok cache ↔ Recordable kind r (chosen kind r blocks) ∧
      cache = sealRecord externals kind r (chosen kind r blocks))
    (hpayload : ∀ blocks sealed, payload blocks = .ok sealed ↔
      Recordable kind r (chosen kind r blocks) ∧
      (∀ block ∈ chosen kind r blocks, kind.producerPort block ≠ none) ∧
      sealed = make (chosen kind r blocks))
    (hmake : ∀ selected, holds (make selected) selected)
    (hheld : ∀ sealed held held', holds sealed held → holds sealed held' → held = held')
    (hmatch : ∀ blocks, Recordable kind r (chosen kind r blocks) →
      (∀ block ∈ chosen kind r blocks, kind.producerPort block ≠ none) →
      validatePredictionCachePayloadMatchesRecord externals (make (chosen kind r blocks))
        (sealRecord externals kind r (chosen kind r blocks)) = .ok ()) :
    BuildersAgree externals kind r record payload holds blocks ↔ Canonical kind r blocks := by
  constructor
  · intro hagree hrecordable
    have hchosen := chosen_recordable.mpr hrecordable
    obtain ⟨sealed, hsealed⟩ := hagree.together.mp ⟨_, (hrecord _ _).mpr ⟨hchosen, rfl⟩⟩
    obtain ⟨-, hports, rfl⟩ := (hpayload _ _).mp hsealed
    refine ⟨fun block hblock => hports block (chosen_perm.mem_iff.mpr hblock), ?_⟩
    have hreverse := (agree_iff.mp (hagree.payload_perm _ (List.reverse_perm blocks)) _).mpr hsealed
    obtain ⟨-, -, hsame⟩ := (hpayload _ _).mp hreverse
    refine keys_nodup_of_reverse (hchosen.nodup (hfits _ hchosen)) ?_
    exact hheld _ _ _ (hsame ▸ hmake _) (hmake _)
  · intro hcanonical
    by_cases hrecordable : Recordable kind r (blocks.filter (selects kind r blocks))
    · obtain ⟨hports, hkeys⟩ := hcanonical hrecordable
      have hchosen := chosen_recordable.mpr hrecordable
      have hchosenPorts (block : β) (hblock : block ∈ chosen kind r blocks) :
          kind.producerPort block ≠ none :=
        hports block (chosen_perm.mem_iff.mp hblock)
      constructor
      case together =>
        exact ⟨fun _ => ⟨_, (hpayload _ _).mpr ⟨hchosen, hchosenPorts, rfl⟩⟩,
          fun _ => ⟨_, (hrecord _ _).mpr ⟨hchosen, rfl⟩⟩⟩
      case matching =>
        intro cache sealed hcache hsealed
        obtain ⟨-, rfl⟩ := (hrecord _ _).mp hcache
        obtain ⟨-, -, rfl⟩ := (hpayload _ _).mp hsealed
        exact hmatch _ hchosen hchosenPorts
      case own_port =>
        intro sealed hsealed
        obtain ⟨-, -, rfl⟩ := (hpayload _ _).mp hsealed
        exact ⟨_, hmake _, chosen_perm.trans (.of_eq (filter_selects_eq_onPort hports))⟩
      case record_perm =>
        intro blocks' hperm
        refine agree_iff.mpr fun cache => ?_
        rw [hrecord, hrecord, chosen_eq_of_perm hperm hkeys]
      case payload_perm =>
        intro blocks' hperm
        refine agree_iff.mpr fun sealed => ?_
        rw [hpayload, hpayload, chosen_eq_of_perm hperm hkeys]
    -- No order of the blocks makes a record, so neither builder returns.
    · have hnone (blocks' : List β) (hperm : blocks'.Perm blocks) :
          ¬Recordable kind r (chosen kind r blocks') := fun h =>
        hrecordable ((recordable_perm (chosen_perm.trans (filter_selects_perm hperm))).mp h)
      have hfail (blocks' : List β) (hperm : blocks'.Perm blocks) :
          (∀ cache, record blocks' ≠ .ok cache) ∧ ∀ sealed, payload blocks' ≠ .ok sealed :=
        ⟨fun cache h => hnone blocks' hperm ((hrecord _ _).mp h).1,
          fun sealed h => hnone blocks' hperm ((hpayload _ _).mp h).1⟩
      obtain ⟨hnoCache, hnoPayload⟩ := hfail blocks (.refl _)
      constructor
      case together =>
        exact ⟨fun ⟨cache, h⟩ => absurd h (hnoCache cache),
          fun ⟨sealed, h⟩ => absurd h (hnoPayload sealed)⟩
      case matching => exact fun cache _ h => absurd h (hnoCache cache)
      case own_port => exact fun sealed h => absurd h (hnoPayload sealed)
      case record_perm =>
        intro blocks' hperm
        exact agree_iff.mpr fun cache =>
          ⟨fun h => absurd h ((hfail blocks' hperm).1 cache), fun h => absurd h (hnoCache cache)⟩
      case payload_perm =>
        intro blocks' hperm
        exact agree_iff.mpr fun sealed =>
          ⟨fun h => absurd h ((hfail blocks' hperm).2 sealed), fun h => absurd h (hnoPayload sealed)⟩

end

def PayloadHolds (payload : BundlePredictionCachePayload) (blocks : List PredictionBlock) : Prop :=
  payload.blocks = blocks ∧ payload.aggregatedBlocks = []

def PayloadHoldsAggregated (payload : BundlePredictionCachePayload)
    (blocks : List AggregatedPredictionBlock) : Prop :=
  payload.blocks = [] ∧ payload.aggregatedBlocks = blocks

section

variable {externals : Externals} {r : BundlePredictionRequirement}

theorem sampleBuildersAgree_iff {blocks : List PredictionBlock} :
    BuildersAgree externals sampleKind r (buildPredictionCacheRecord externals r)
      (buildPredictionCachePayload externals r) PayloadHolds blocks ↔
    Canonical sampleKind r blocks := by
  refine buildersAgree_iff (fun _ h => sampleKind_fits h.sample_level)
    (fun _ _ => buildPredictionCacheRecord_ok) (fun _ _ => buildPredictionCachePayload_iff)
    (fun _ => ⟨rfl, rfl⟩) (fun _ _ _ h h' => h.1.symm.trans h'.1) ?_
  intro blocks h hports
  exact samplePayload_matches h (fun _ hblock => inCohort_of_chosen hblock)
    fun block hblock => namesPort_of_chosen h.requirement hblock (hports block hblock)

theorem aggregatedBuildersAgree_iff {blocks : List AggregatedPredictionBlock} :
    BuildersAgree externals aggregatedKind r (buildAggregatedPredictionCacheRecord externals r)
      (buildAggregatedPredictionCachePayload externals r) PayloadHoldsAggregated blocks ↔
    Canonical aggregatedKind r blocks := by
  refine buildersAgree_iff (fun _ h => aggregatedKind_fits h.aggregated_level)
    (fun _ _ => buildAggregatedPredictionCacheRecord_ok)
    (fun _ _ => buildAggregatedPredictionCachePayload_iff)
    (fun _ => ⟨rfl, rfl⟩) (fun _ _ _ h h' => h.2.symm.trans h'.2) ?_
  intro blocks h hports
  exact aggregatedPayload_matches h (fun _ hblock => inCohort_of_chosen hblock)
    fun block hblock => namesPort_of_chosen h.requirement hblock (hports block hblock)

end

/-- The record and payload builders, for sample and for aggregated blocks,
agree on just the canonical lists. -/
theorem cache_builders_agree_iff (externals : Externals) (r : BundlePredictionRequirement) :
    (∀ blocks : List PredictionBlock,
      BuildersAgree externals sampleKind r (buildPredictionCacheRecord externals r)
        (buildPredictionCachePayload externals r) PayloadHolds blocks ↔
      Canonical sampleKind r blocks) ∧
    ∀ blocks : List AggregatedPredictionBlock,
      BuildersAgree externals aggregatedKind r (buildAggregatedPredictionCacheRecord externals r)
        (buildAggregatedPredictionCachePayload externals r) PayloadHoldsAggregated blocks ↔
      Canonical aggregatedKind r blocks :=
  ⟨fun _ => sampleBuildersAgree_iff, fun _ => aggregatedBuildersAgree_iff⟩

def tiedFold : FoldId := ⟨"fold:tied", by decide⟩
def tiedSample1 : SampleId := ⟨"tied:1", by decide⟩
def tiedSample2 : SampleId := ⟨"tied:2", by decide⟩

/-- One fold, two samples. -/
def tiedRequirement : BundlePredictionRequirement where
  producerNode := ⟨"model:tied", by decide⟩
  sourcePort := "oof"
  consumerNode := ⟨"model:tied.meta", by decide⟩
  targetPort := "oof"
  partition := .validation
  predictionLevel := .sample
  foldIds := [tiedFold]
  unitIds := []
  sampleIds := [tiedSample1, tiedSample2]
  predictionWidth := 1
  targetNames := ["p0"]

/-- A block of one sample, without a prediction id. -/
def tiedBlock (producerPort : Option String) (s : SampleId) : PredictionBlock where
  predictionId := none
  producerNode := ⟨"model:tied", by decide⟩
  producerPort
  partition := .validation
  foldId := some tiedFold
  sampleIds := [s]
  values := [[Binary64.zero]]
  targetNames := []

def tiedBlocks (producerPort : Option String) : List PredictionBlock :=
  [tiedBlock producerPort tiedSample1, tiedBlock producerPort tiedSample2]

theorem tiedRequirement_valid : tiedRequirement.Valid :=
  BundlePredictionRequirement.validate_ok.mp (rfl : tiedRequirement.validate = .ok ())

theorem tiedBlocks_recordable (producerPort : Option String) :
    Recordable sampleKind tiedRequirement (tiedBlocks producerPort) := by
  have hblocks (block : PredictionBlock) (hblock : block ∈ tiedBlocks producerPort) :
      ∃ s, block = tiedBlock producerPort s := by
    simp only [tiedBlocks, List.mem_cons, List.not_mem_nil, or_false] at hblock
    rcases hblock with rfl | rfl
    · exact ⟨_, rfl⟩
    · exact ⟨_, rfl⟩
  constructor
  case requirement => exact tiedRequirement_valid
  case ne_nil => exact List.cons_ne_nil _ _
  case level => exact fun _ _ => rfl
  case shape =>
    intro block hblock
    obtain ⟨s, rfl⟩ := hblocks block hblock
    rfl
  case targets =>
    intro block hblock
    obtain ⟨s, rfl⟩ := hblocks block hblock
    rfl
  case predictionId_ne =>
    intro block hblock predictionId hid
    obtain ⟨s, rfl⟩ := hblocks block hblock
    cases hid
  case folds => exact (by decide : ascending [tiedFold, tiedFold].toFinset = [tiedFold])
  case samples =>
    exact (by decide : ascending [tiedSample1, tiedSample2].toFinset = [tiedSample1, tiedSample2])
  case units => exact fun hlevel => absurd rfl hlevel
  case samples_nodup =>
    exact (by decide : [(some tiedFold, tiedSample1), (some tiedFold, tiedSample2)].Nodup)
  case units_nodup => exact List.nodup_nil

theorem tiedBlocks_selected (hport : producerPort = none ∨ producerPort = some "oof") :
    (tiedBlocks producerPort).filter (selects sampleKind tiedRequirement (tiedBlocks producerPort)) =
      tiedBlocks producerPort := by
  rcases hport with rfl | rfl
  · decide
  · decide

def tiedExternals : Externals where
  sha256 _ := .replicate 32 0
  floats := .ofBits
  decodeClassVocabulary _ := .error ""
  decodeAvailability _ := .error ""

/-- Two blocks of one fold without a prediction id stay in the order they came
in, and blocks without a port make a record but no payload. -/
theorem tied_and_portless_blocks_disagree :
    ¬ BuildersAgree tiedExternals sampleKind tiedRequirement
        (buildPredictionCacheRecord tiedExternals tiedRequirement)
        (buildPredictionCachePayload tiedExternals tiedRequirement) PayloadHolds
        (tiedBlocks (some "oof")) ∧
      ¬ BuildersAgree tiedExternals sampleKind tiedRequirement
        (buildPredictionCacheRecord tiedExternals tiedRequirement)
        (buildPredictionCachePayload tiedExternals tiedRequirement) PayloadHolds
        (tiedBlocks none) := by
  rw [sampleBuildersAgree_iff, sampleBuildersAgree_iff, Canonical, Canonical,
    tiedBlocks_selected (.inr rfl), tiedBlocks_selected (.inl rfl)]
  constructor
  · intro h
    obtain ⟨-, hkeys⟩ := h (tiedBlocks_recordable _)
    exact absurd hkeys (by decide)
  · intro h
    obtain ⟨hports, -⟩ := h (tiedBlocks_recordable _)
    exact hports (tiedBlock none tiedSample1) (by simp [tiedBlocks]) rfl

end DagMl

import DagMl.Training.OofCacheLaws

/-!
# What a run retains is what a replay finds

Each OOF edge of a run has one requirement and one cache. The requirement
describes the evidence of the edge, the cache can be built when that evidence
can stand in one, and a store of the retained payloads gives all of it back.
-/

namespace DagMl

open Checked

-- ---------------------------------------------------------------------------
-- What a run does with an edge
-- ---------------------------------------------------------------------------

/-- The level an edge is persisted at, and the folds its consumer keeps. -/
structure ExecutionPlan.PersistsAt (plan : ExecutionPlan) (edge : EdgeSpec)
    (level : PredictionLevel) (report : Option (List FoldId)) : Prop where
  report : plan.reportFoldIds edge.target.nodeId = .ok report
  level : plan.nodePlans[edge.source.nodeId]?.map (·.oofLevel) = some level

theorem ExecutionPlan.PersistsAt.unique {plan : ExecutionPlan} {level level' : PredictionLevel}
    {report report' : Option (List FoldId)} (h : plan.PersistsAt edge level report)
    (h' : plan.PersistsAt edge level' report') : level = level' ∧ report = report' :=
  ⟨Option.some.inj (h.level.symm.trans h'.level), Except.ok.inj (h.report.symm.trans h'.report)⟩

/-- What holds of the blocks an edge is persisted from: the sample blocks, or
the aggregated blocks of its source's level. -/
inductive OfEvidence (plan : ExecutionPlan) (blocks : List PredictionBlock)
    (aggregatedBlocks : List AggregatedPredictionBlock) (edge : EdgeSpec)
    (P : List PredictionBlock → Prop)
    (Q : PredictionLevel → List AggregatedPredictionBlock → Prop) : Prop
  | samples {report : Option (List FoldId)} (persists : plan.PersistsAt edge .sample report)
      (holds : P (blocks.filter (isEvidence plan sampleKind edge .sample report)))
  | units {level : PredictionLevel} {report : Option (List FoldId)}
      (persists : plan.PersistsAt edge level report) (level_ne : level ≠ .sample)
      (holds : Q level (aggregatedBlocks.filter (isEvidence plan aggregatedKind edge level report)))

section

variable {externals : Externals} {plan : ExecutionPlan} {edge : EdgeSpec}
  {blocks : List PredictionBlock} {aggregatedBlocks : List AggregatedPredictionBlock}
  {requirements : List BundlePredictionRequirement} {r : BundlePredictionRequirement}
  {P P' : List PredictionBlock → Prop}
  {Q Q' : PredictionLevel → List AggregatedPredictionBlock → Prop}

theorem OfEvidence.imp (h : OfEvidence plan blocks aggregatedBlocks edge P Q)
    (hP : ∀ selected, P selected → P' selected)
    (hQ : ∀ level selected, Q level selected → Q' level selected) :
    OfEvidence plan blocks aggregatedBlocks edge P' Q' := by
  cases h with
  | samples persists holds => exact .samples persists (hP _ holds)
  | units persists level_ne holds => exact .units persists level_ne (hQ _ _ holds)

theorem ofEvidence_samples {report : Option (List FoldId)}
    (persists : plan.PersistsAt edge .sample report) :
    OfEvidence plan blocks aggregatedBlocks edge P Q ↔
      P (blocks.filter (isEvidence plan sampleKind edge .sample report)) := by
  constructor
  · rintro (⟨persists', holds⟩ | ⟨persists', level_ne, -⟩)
    · obtain ⟨-, rfl⟩ := persists.unique persists'
      exact holds
    · exact absurd (persists.unique persists').1.symm level_ne
  · exact .samples persists

theorem ofEvidence_units {level : PredictionLevel} {report : Option (List FoldId)}
    (persists : plan.PersistsAt edge level report) (level_ne : level ≠ .sample) :
    OfEvidence plan blocks aggregatedBlocks edge P Q ↔
      Q level (aggregatedBlocks.filter (isEvidence plan aggregatedKind edge level report)) := by
  constructor
  · rintro (⟨persists', -⟩ | ⟨persists', -, holds⟩)
    · exact absurd (persists.unique persists').1 level_ne
    · obtain ⟨rfl, rfl⟩ := persists.unique persists'
      exact holds
  · exact .units persists level_ne

/-- The requirement describes the evidence of the edge. -/
def Required (plan : ExecutionPlan) (blocks : List PredictionBlock)
    (aggregatedBlocks : List AggregatedPredictionBlock) (edge : EdgeSpec)
    (r : BundlePredictionRequirement) : Prop :=
  OfEvidence plan blocks aggregatedBlocks edge (Describes sampleKind edge .sample · r)
    fun level selected => Describes aggregatedKind edge level selected r

theorem Required.key (h : Required plan blocks aggregatedBlocks edge r) :
    r.key = edge.requirementKey := by
  cases h with
  | samples _ describes => exact describes.key
  | units _ _ describes => exact describes.key

theorem required_of_oofRequirement (h : oofRequirement plan blocks aggregatedBlocks edge = .ok r) :
    Required plan blocks aggregatedBlocks edge r := by
  simp only [oofRequirement, bind_ok, need_ok] at h
  obtain ⟨report, hreport, sourcePlan, hsource, h⟩ := h
  have persists : plan.PersistsAt edge sourcePlan.oofLevel report := ⟨hreport, by simp [hsource]⟩
  cases hlevel : sourcePlan.oofLevel with
  | observation => simp [hlevel] at h
  | sample =>
    rw [hlevel] at h persists
    exact .samples persists (describes_of_requirementFrom h)
  | target | group =>
    rw [hlevel] at h persists
    exact .units persists (by simp) (describes_of_requirementFrom h)

/-- The evidence can stand in a cache. -/
def Persistable (plan : ExecutionPlan) (blocks : List PredictionBlock)
    (aggregatedBlocks : List AggregatedPredictionBlock) (edge : EdgeSpec) : Prop :=
  OfEvidence plan blocks aggregatedBlocks edge (Cacheable sampleKind) fun _ =>
    Cacheable aggregatedKind

/-- The payload stands under the key of the edge and holds all of its evidence
and nothing else, in the order of the folds and of the prediction ids in one
fold. -/
structure HoldsEvidence (plan : ExecutionPlan) (blocks : List PredictionBlock)
    (aggregatedBlocks : List AggregatedPredictionBlock) (edge : EdgeSpec)
    (payload : BundlePredictionCachePayload) : Prop where
  key : payload.requirementKey = edge.requirementKey
  holds : OfEvidence plan blocks aggregatedBlocks edge
    (fun selected => payload.predictionLevel = .sample ∧
      PayloadHolds payload (selected.insertionSort (beforeInCache sampleKind)))
    fun level selected => payload.predictionLevel = level ∧
      PayloadHoldsAggregated payload (selected.insertionSort (beforeInCache aggregatedKind))

-- ---------------------------------------------------------------------------
-- The cache of one edge
-- ---------------------------------------------------------------------------

theorem LevelUnits.target_or_group {level : PredictionLevel} {sampleIds : List SampleId}
    {unitIds : List PredictionUnitId} (h : LevelUnits level sampleIds unitIds)
    (level_ne : level ≠ .sample) : level = .target ∨ level = .group := by
  cases level with
  | observation => exact absurd rfl h.level_ne
  | sample => exact absurd rfl level_ne
  | target => exact .inl rfl
  | group => exact .inr rfl

theorem oofPredictionCacheRecord_units
    (hlevel : r.predictionLevel = .target ∨ r.predictionLevel = .group) :
    oofPredictionCacheRecord externals blocks aggregatedBlocks r =
      buildAggregatedPredictionCacheRecord externals r aggregatedBlocks := by
  rcases hlevel with hlevel | hlevel
  · simp only [oofPredictionCacheRecord, hlevel]
  · simp only [oofPredictionCacheRecord, hlevel]

theorem oofPredictionCachePayload_units
    (hlevel : r.predictionLevel = .target ∨ r.predictionLevel = .group) :
    oofPredictionCachePayload externals blocks aggregatedBlocks r =
      buildAggregatedPredictionCachePayload externals r aggregatedBlocks := by
  rcases hlevel with hlevel | hlevel
  · simp only [oofPredictionCachePayload, hlevel]
  · simp only [oofPredictionCachePayload, hlevel]

/-- An edge's record seals its evidence. -/
theorem oofPredictionCacheRecord_ok (hblocks : Named sampleKind blocks)
    (haggregated : Named aggregatedKind aggregatedBlocks)
    (hr : Required plan blocks aggregatedBlocks edge r) :
    oofPredictionCacheRecord externals blocks aggregatedBlocks r = .ok record ↔
      OfEvidence plan blocks aggregatedBlocks edge
        (fun selected => Cacheable sampleKind selected ∧ record =
          sealRecord externals sampleKind r (selected.insertionSort (beforeInCache sampleKind)))
        fun _ selected => Cacheable aggregatedKind selected ∧ record =
          sealRecord externals aggregatedKind r
            (selected.insertionSort (beforeInCache aggregatedKind)) := by
  cases hr with
  | samples persists describes =>
    rw [ofEvidence_samples persists, ← recordable_iff sampleKind_atLevel hblocks describes,
      ← chosen_eq_evidence sampleKind_atLevel hblocks describes, ← buildPredictionCacheRecord_ok]
    simp only [oofPredictionCacheRecord, describes.level]
  | units persists level_ne describes =>
    have hunits := describes.valid.units.target_or_group (describes.level.trans_ne level_ne)
    rw [ofEvidence_units persists level_ne,
      ← recordable_iff aggregatedKind_atLevel haggregated describes,
      ← chosen_eq_evidence aggregatedKind_atLevel haggregated describes,
      ← buildAggregatedPredictionCacheRecord_ok, oofPredictionCacheRecord_units hunits]

/-- An edge's payload holds its evidence. -/
theorem oofPredictionCachePayload_ok (hblocks : Named sampleKind blocks)
    (haggregated : Named aggregatedKind aggregatedBlocks)
    (hr : Required plan blocks aggregatedBlocks edge r) :
    oofPredictionCachePayload externals blocks aggregatedBlocks r = .ok payload ↔
      OfEvidence plan blocks aggregatedBlocks edge
        (fun selected => Cacheable sampleKind selected ∧ payload =
          samplePayload externals r (selected.insertionSort (beforeInCache sampleKind)))
        fun _ selected => Cacheable aggregatedKind selected ∧ payload =
          aggregatedPayload externals r
            (selected.insertionSort (beforeInCache aggregatedKind)) := by
  cases hr with
  | samples persists describes =>
    have hports : ∀ block ∈ chosen sampleKind r blocks, block.producerPort ≠ none :=
      fun block hblock => port_ne_none_of_chosen hblocks hblock
    rw [ofEvidence_samples persists, ← recordable_iff sampleKind_atLevel hblocks describes,
      ← chosen_eq_evidence sampleKind_atLevel hblocks describes]
    simp only [oofPredictionCachePayload, describes.level]
    rw [buildPredictionCachePayload_iff, and_iff_right hports]
  | units persists level_ne describes =>
    have hunits := describes.valid.units.target_or_group (describes.level.trans_ne level_ne)
    have hports : ∀ block ∈ chosen aggregatedKind r aggregatedBlocks, block.producerPort ≠ none :=
      fun block hblock => port_ne_none_of_chosen haggregated hblock
    rw [ofEvidence_units persists level_ne,
      ← recordable_iff aggregatedKind_atLevel haggregated describes,
      ← chosen_eq_evidence aggregatedKind_atLevel haggregated describes,
      oofPredictionCachePayload_units hunits, buildAggregatedPredictionCachePayload_iff,
      and_iff_right hports]

/-- A record and a payload of one requirement are made of the same blocks. -/
theorem payload_matches_record
    (hrecord : oofPredictionCacheRecord externals blocks aggregatedBlocks r = .ok record)
    (hpayload : oofPredictionCachePayload externals blocks aggregatedBlocks r = .ok payload) :
    validatePredictionCachePayloadMatchesRecord externals payload record = .ok () := by
  cases hlevel : r.predictionLevel with
  | observation => simp [oofPredictionCacheRecord, hlevel] at hrecord
  | sample =>
    simp only [oofPredictionCacheRecord, oofPredictionCachePayload, hlevel] at hrecord hpayload
    obtain ⟨h, rfl⟩ := buildPredictionCacheRecord_ok.mp hrecord
    obtain ⟨-, hports, rfl⟩ := buildPredictionCachePayload_iff.mp hpayload
    exact samplePayload_matches h (fun _ => inCohort_of_chosen) fun block hblock =>
      namesPort_of_chosen h.requirement hblock (hports block hblock)
  | target | group =>
    simp only [oofPredictionCacheRecord, oofPredictionCachePayload, hlevel] at hrecord hpayload
    obtain ⟨h, rfl⟩ := buildAggregatedPredictionCacheRecord_ok.mp hrecord
    obtain ⟨-, hports, rfl⟩ := buildAggregatedPredictionCachePayload_iff.mp hpayload
    exact aggregatedPayload_matches h (fun _ => inCohort_of_chosen) fun block hblock =>
      namesPort_of_chosen h.requirement hblock (hports block hblock)

/-- What is determined by the evidence exists when the evidence allows it. -/
theorem exists_ofEvidence_iff {γ : Type} {f : List PredictionBlock → γ}
    {g : List AggregatedPredictionBlock → γ} :
    (∃ made, OfEvidence plan blocks aggregatedBlocks edge
      (fun selected => P selected ∧ made = f selected)
      fun level selected => Q level selected ∧ made = g selected) ↔
      OfEvidence plan blocks aggregatedBlocks edge P Q := by
  constructor
  · rintro ⟨made, h⟩
    exact h.imp (fun _ => And.left) fun _ _ => And.left
  · rintro (⟨persists, holds⟩ | ⟨persists, level_ne, holds⟩)
    · exact ⟨_, .samples persists ⟨holds, rfl⟩⟩
    · exact ⟨_, .units persists level_ne ⟨holds, rfl⟩⟩

theorem exists_record_iff (hblocks : Named sampleKind blocks)
    (haggregated : Named aggregatedKind aggregatedBlocks)
    (hr : Required plan blocks aggregatedBlocks edge r) :
    (∃ record, oofPredictionCacheRecord externals blocks aggregatedBlocks r = .ok record) ↔
      Persistable plan blocks aggregatedBlocks edge :=
  (exists_congr fun _ => oofPredictionCacheRecord_ok hblocks haggregated hr).trans
    exists_ofEvidence_iff

theorem exists_payload_iff (hblocks : Named sampleKind blocks)
    (haggregated : Named aggregatedKind aggregatedBlocks)
    (hr : Required plan blocks aggregatedBlocks edge r) :
    (∃ payload, oofPredictionCachePayload externals blocks aggregatedBlocks r = .ok payload) ↔
      Persistable plan blocks aggregatedBlocks edge :=
  (exists_congr fun _ => oofPredictionCachePayload_ok hblocks haggregated hr).trans
    exists_ofEvidence_iff

theorem holdsEvidence_of_payload (hblocks : Named sampleKind blocks)
    (haggregated : Named aggregatedKind aggregatedBlocks)
    (hr : Required plan blocks aggregatedBlocks edge r)
    (h : oofPredictionCachePayload externals blocks aggregatedBlocks r = .ok payload) :
    HoldsEvidence plan blocks aggregatedBlocks edge payload := by
  have hpayload := (oofPredictionCachePayload_ok hblocks haggregated hr).mp h
  cases hr with
  | samples persists describes =>
    obtain ⟨-, rfl⟩ := (ofEvidence_samples persists).mp hpayload
    exact ⟨describes.key, .samples persists ⟨describes.level, rfl, rfl⟩⟩
  | units persists level_ne describes =>
    obtain ⟨-, rfl⟩ := (ofEvidence_units persists level_ne).mp hpayload
    exact ⟨describes.key, .units persists level_ne ⟨describes.level, rfl, rfl⟩⟩

-- ---------------------------------------------------------------------------
-- What a run retains
-- ---------------------------------------------------------------------------

theorem required_of_buildOofPredictionRequirements
    (h : buildOofPredictionRequirements plan blocks aggregatedBlocks = .ok requirements) :
    List.Forall₂ (Required plan blocks aggregatedBlocks)
      (Keyed.sortBy EdgeSpec.requirementKey plan.oofEdges) requirements := by
  simp only [buildOofPredictionRequirements, bind_ok, collect_ok, pure_ok] at h
  obtain ⟨unsorted, hedges, rfl⟩ := h
  exact Keyed.forall₂_sortBy (hedges.imp fun _ _ => required_of_oofRequirement)
    fun _ _ hrequired => hrequired.key.symm

theorem forall₂_comp {α β γ : Type} {R : α → β → Prop} {S : β → γ → Prop} {T : α → γ → Prop}
    {l : List α} {m : List β} {n : List γ} (step : ∀ a b c, R a b → S b c → T a c)
    (h : List.Forall₂ R l m) (h' : List.Forall₂ S m n) : List.Forall₂ T l n := by
  induction h generalizing n with
  | nil =>
    cases h'
    exact .nil
  | cons hab _ ih =>
    cases h' with
    | cons hbc hrest => exact .cons (step _ _ _ hab hbc) (ih hrest)

/-- A build of every requirement succeeds when it succeeds for every edge. -/
theorem exists_collect_iff {R : EdgeSpec → BundlePredictionRequirement → Prop}
    {S : EdgeSpec → Prop} {build : BundlePredictionRequirement → Result γ} {edges : List EdgeSpec}
    (hrequired : List.Forall₂ R edges requirements)
    (hbuild : ∀ edge r, R edge r → ((∃ made, build r = .ok made) ↔ S edge)) :
    (∃ made, collect requirements build = .ok made) ↔ ∀ edge ∈ edges, S edge := by
  constructor
  · rintro ⟨made, hmade⟩ edge hedge
    obtain ⟨r, hr, hrel⟩ := exists_right_of_mem hrequired hedge
    obtain ⟨one, -, hone⟩ := exists_right_of_mem (collect_ok.mp hmade) hr
    exact (hbuild edge r hrel).mp ⟨one, hone⟩
  · intro hall
    refine exists_collect fun r hr => ?_
    obtain ⟨edge, hedge, hrel⟩ := exists_left_of_mem hrequired hr
    exact (hbuild edge r hrel).mpr (hall edge hedge)

/-- What a run's records and payloads say of its OOF edges: both can be built
when all the evidence can stand in a cache, each payload then holds the
evidence of its edge, and matches the record in its place. -/
structure RetainsEvidence (externals : Externals) (plan : ExecutionPlan)
    (blocks : List PredictionBlock) (aggregatedBlocks : List AggregatedPredictionBlock)
    (requirements : List BundlePredictionRequirement) : Prop where
  records_iff :
    (∃ records,
      buildOofPredictionCacheRecords externals blocks aggregatedBlocks requirements = .ok records) ↔
    ∀ edge ∈ plan.oofEdges, Persistable plan blocks aggregatedBlocks edge
  payloads_iff :
    (∃ payloads,
      buildOofPredictionCachePayloads externals blocks aggregatedBlocks requirements =
        .ok payloads) ↔
    ∀ edge ∈ plan.oofEdges, Persistable plan blocks aggregatedBlocks edge
  holds : ∀ payloads, buildOofPredictionCachePayloads externals blocks aggregatedBlocks
    requirements = .ok payloads → List.Forall₂ (HoldsEvidence plan blocks aggregatedBlocks)
      (Keyed.sortBy EdgeSpec.requirementKey plan.oofEdges) payloads
  matching : ∀ records payloads,
    buildOofPredictionCacheRecords externals blocks aggregatedBlocks requirements = .ok records →
    buildOofPredictionCachePayloads externals blocks aggregatedBlocks requirements = .ok payloads →
    List.Forall₂ (fun payload record =>
        validatePredictionCachePayloadMatchesRecord externals payload record = .ok ())
      payloads records

theorem retainsEvidence (hblocks : Named sampleKind blocks)
    (haggregated : Named aggregatedKind aggregatedBlocks)
    (h : buildOofPredictionRequirements plan blocks aggregatedBlocks = .ok requirements) :
    RetainsEvidence externals plan blocks aggregatedBlocks requirements := by
  have hrequired := required_of_buildOofPredictionRequirements h
  constructor
  case records_iff =>
    rw [buildOofPredictionCacheRecords, exists_collect_iff hrequired fun _ _ hr =>
      exists_record_iff hblocks haggregated hr]
    simp only [Keyed.mem_sortBy]
  case payloads_iff =>
    rw [buildOofPredictionCachePayloads, exists_collect_iff hrequired fun _ _ hr =>
      exists_payload_iff hblocks haggregated hr]
    simp only [Keyed.mem_sortBy]
  case holds =>
    intro payloads hpayloads
    refine forall₂_comp ?_ hrequired (collect_ok.mp hpayloads)
    exact fun _ _ _ hr h => holdsEvidence_of_payload hblocks haggregated hr h
  case matching =>
    intro records payloads hrecords hpayloads
    refine forall₂_comp ?_ (collect_ok.mp hpayloads).flip (collect_ok.mp hrecords)
    exact fun _ _ _ hpayload hrecord => payload_matches_record hrecord hpayload

end

-- ---------------------------------------------------------------------------
-- Namespaces
-- ---------------------------------------------------------------------------

def BundlePredictionCacheRecord.withoutNamespaces (self : BundlePredictionCacheRecord) :
    BundlePredictionCacheRecord :=
  { self with cacheNamespaceFingerprints := [] }

def BundlePredictionCachePayload.withoutNamespaces (self : BundlePredictionCachePayload) :
    BundlePredictionCachePayload :=
  { self with cacheNamespaceFingerprints := [] }

section

variable {externals : Externals} {plan : ExecutionPlan} {edge : EdgeSpec}
  {blocks : List PredictionBlock} {aggregatedBlocks : List AggregatedPredictionBlock}
  {namespaceFingerprints : BundlePredictionRequirement → BundlePredictionCacheRecord →
    Result (List String)}
  {requirements : List BundlePredictionRequirement}
  {records records' : List BundlePredictionCacheRecord}
  {payloads payloads' : List BundlePredictionCachePayload}

/-- One turn appends its record and changes a payload in place, both in their
namespaces only. -/
theorem attachNamespaces_ok
    {state state' : List BundlePredictionCacheRecord × List BundlePredictionCachePayload}
    (h : attachNamespaces externals namespaceFingerprints requirements state record = .ok state') :
    (∃ record', state'.1 = state.1 ++ [record'] ∧
        record'.withoutNamespaces = record.withoutNamespaces) ∧
      state'.2.map (·.withoutNamespaces) = state.2.map (·.withoutNamespaces) := by
  simp only [attachNamespaces, bind_ok, need_ok, pure_ok] at h
  obtain ⟨requirement, -, fingerprints, -, payload, hfound, _, -, rfl⟩ := h
  rw [List.find?_eq_getElem?_findIdx] at hfound
  obtain ⟨hindex, rfl⟩ := List.getElem?_eq_some_iff.mp hfound
  refine ⟨⟨_, rfl, rfl⟩, ?_⟩
  rw [List.map_set]
  refine (congrArg _ ?_).trans (List.set_getElem_self (by simpa using hindex))
  simp [BundlePredictionCachePayload.withoutNamespaces]

/-- Attaching namespaces changes nothing else of records and payloads. -/
theorem attachOofPredictionCacheNamespaces_ok
    (h : attachOofPredictionCacheNamespaces externals namespaceFingerprints requirements records
      payloads = .ok (records', payloads')) :
    records'.map (·.withoutNamespaces) = records.map (·.withoutNamespaces) ∧
      payloads'.map (·.withoutNamespaces) = payloads.map (·.withoutNamespaces) := by
  refine loop_invariant (fun done state =>
    state.1.map (·.withoutNamespaces) = done.map (·.withoutNamespaces) ∧
      state.2.map (·.withoutNamespaces) = payloads.map (·.withoutNamespaces)) ⟨rfl, rfl⟩ ?_ h
  rintro done record state state' ⟨hrecords, hpayloads⟩ hstep
  obtain ⟨⟨record', happended, hrecord⟩, hkept⟩ := attachNamespaces_ok hstep
  refine ⟨?_, hkept.trans hpayloads⟩
  rw [happended, List.map_append, List.map_append, hrecords, List.map_singleton,
    List.map_singleton, hrecord]

/-- What a run retains holds the evidence of every OOF edge, each in the cache
of its own requirement. -/
theorem retainOofCaches_ok (hblocks : Named sampleKind blocks)
    (haggregated : Named aggregatedKind aggregatedBlocks)
    (h : retainOofCaches externals namespaceFingerprints plan blocks aggregatedBlocks =
      .ok (requirements, records, payloads)) :
    List.Forall₂ (Required plan blocks aggregatedBlocks)
        (Keyed.sortBy EdgeSpec.requirementKey plan.oofEdges) requirements ∧
      List.Forall₂ (HoldsEvidence plan blocks aggregatedBlocks)
        (Keyed.sortBy EdgeSpec.requirementKey plan.oofEdges) payloads := by
  simp only [retainOofCaches, bind_ok, pure_ok, Prod.mk.injEq] at h
  obtain ⟨requirements, hrequirements, built, -, sealed, hsealed, ⟨_, _⟩, hattached, rfl, rfl,
    rfl⟩ := h
  have hkept := (attachOofPredictionCacheNamespaces_ok hattached).2
  refine ⟨required_of_buildOofPredictionRequirements hrequirements, ?_⟩
  have hholds := (retainsEvidence hblocks haggregated hrequirements).holds _ hsealed
  -- holding the evidence does not look at namespaces
  have hstripped : List.Forall₂ (HoldsEvidence plan blocks aggregatedBlocks)
      (Keyed.sortBy EdgeSpec.requirementKey plan.oofEdges)
      (sealed.map (·.withoutNamespaces)) :=
    List.forall₂_map_right_iff.mpr (hholds.imp fun _ _ h => ⟨h.key, h.holds⟩)
  rw [← hkept, List.forall₂_map_right_iff] at hstripped
  exact hstripped.imp fun _ _ h => ⟨h.key, h.holds⟩

-- ---------------------------------------------------------------------------
-- What a replay finds
-- ---------------------------------------------------------------------------

/-- A store of the retained payloads gives a replay the evidence of every OOF
edge back, all of it and in the order of the cache. -/
theorem runtimeStore_loads_evidence {Sections : Type} {checks : SectionChecks Sections}
    {bundle : ExecutionBundle Sections} {set : BundlePredictionCachePayloadSet}
    {store : InMemoryPredictionCacheStore} (hblocks : Named sampleKind blocks)
    (haggregated : Named aggregatedKind aggregatedBlocks)
    (h : retainOofCaches externals namespaceFingerprints plan blocks aggregatedBlocks =
      .ok (requirements, records, set.caches))
    (hstore : InMemoryPredictionCacheStore.fromPayloads externals checks bundle set = .ok store)
    (hedge : edge ∈ plan.oofEdges) :
    OfEvidence plan blocks aggregatedBlocks edge
      (fun selected => (store.runtimeStore externals).loadBlocks edge.requirementKey =
        .ok (selected.insertionSort (beforeInCache sampleKind)))
      fun _ selected => (store.runtimeStore externals).loadAggregatedBlocks edge.requirementKey =
        .ok (selected.insertionSort (beforeInCache aggregatedKind)) := by
  obtain ⟨-, hretained⟩ := retainOofCaches_ok hblocks haggregated h
  obtain ⟨payload, hmem, hpayload⟩ :=
    exists_right_of_mem hretained (Keyed.mem_sortBy.mpr hedge)
  obtain ⟨haccepted, rfl⟩ := InMemoryPredictionCacheStore.fromPayloads_ok.mp hstore
  have hsealed := set.sealed_of_validate haccepted
  obtain ⟨record, -, -, hmatch⟩ := hsealed.matched payload hmem
  have hvalid := (matches_of_ok hmatch).payload_valid
  have hindex := BTreeMap.indexOf_collect hsealed.payloads_nodup
  have hfound := (hindex.get _ _).mpr ⟨hmem, hpayload.key⟩
  cases hpayload.holds with
  | samples persists holds =>
    obtain ⟨hlevel, hheld, -⟩ := holds
    refine .samples persists ?_
    simp only [InMemoryPredictionCacheStore.runtimeStore, InMemoryPredictionCacheStore.loadBlocks,
      InMemoryPredictionCacheStore.payloadFor, bind_ok, need_ok, refuseIf_ok, pure_ok, not_not]
    exact ⟨payload, hfound, (), hvalid, (), hlevel, hheld⟩
  | units persists level_ne holds =>
    obtain ⟨rfl, -, hheld⟩ := holds
    refine .units persists level_ne ?_
    simp only [InMemoryPredictionCacheStore.runtimeStore,
      InMemoryPredictionCacheStore.loadAggregatedBlocks, InMemoryPredictionCacheStore.payloadFor,
      bind_ok, need_ok, refuseIf_ok, pure_ok]
    exact ⟨payload, hfound, (), hvalid, (), level_ne, hheld⟩

end

theorem branchBlock_named : Named sampleKind [branchBlock] := by
  intro block hblock
  obtain rfl := List.mem_singleton.mp hblock
  exact ⟨by decide, fun _ => by decide⟩

theorem branchEdge_persistsAt : (mergePlan [branchEdge]).PersistsAt branchEdge .sample none where
  report := by rfl
  level := by rfl

/-- The merge reads its one branch back from what the run retained. -/
theorem runtimeStore_loads_evidence_merge : ∃ requirements records payloads store,
    retainOofCaches tiedExternals (fun _ _ => .ok []) (mergePlan [branchEdge]) [branchBlock] [] =
      .ok (requirements, records, payloads) ∧
    InMemoryPredictionCacheStore.fromPayloads tiedExternals acceptSections mergeBundle
      ⟨mergeBundle.bundleId, 2, payloads⟩ = .ok store ∧
    (store.runtimeStore tiedExternals).loadBlocks branchEdge.requirementKey =
      .ok [branchBlock] := by
  have hretained : (retainOofCaches tiedExternals (fun _ _ => .ok []) (mergePlan [branchEdge])
      [branchBlock] []).toOption.any (fun caches =>
        (InMemoryPredictionCacheStore.fromPayloads tiedExternals acceptSections mergeBundle
          ⟨mergeBundle.bundleId, 2, caches.2.2⟩).isOk) = true := by decide +kernel
  obtain ⟨⟨requirements, records, payloads⟩, hrun, hstore⟩ := toOption_any.mp hretained
  have hedge : branchEdge ∈ (mergePlan [branchEdge]).oofEdges :=
    List.mem_filter.mpr ⟨List.mem_singleton_self _, rfl⟩
  have hnone : Named aggregatedKind [] := fun _ hblock => absurd hblock List.not_mem_nil
  have hloads := runtimeStore_loads_evidence branchBlock_named hnone (by exact hrun)
    (eq_ok_valueOf hstore) hedge
  have hevidence : [branchBlock].filter (isEvidence (mergePlan [branchEdge]) sampleKind branchEdge
      .sample none) = [branchBlock] := by decide +kernel
  rw [ofEvidence_samples branchEdge_persistsAt, hevidence] at hloads
  exact ⟨requirements, records, payloads, _, hrun, eq_ok_valueOf hstore, hloads⟩

end DagMl

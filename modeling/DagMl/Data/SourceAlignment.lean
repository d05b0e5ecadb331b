import DagMl.Lib.Index
import DagMl.Ids

/-!
# Aligning named sources

Independently ordered sources of the same samples, and the row permutation
that brings each one into the requested order.
-/

namespace DagMl

open Checked

structure NamedSourceSampleOrder where
  sourceId : String
  sampleIds : List SampleId

structure NamedSourceAlignmentRequest where
  sampleIds : List SampleId
  requiredSourceIds : List String
  sources : List NamedSourceSampleOrder

structure NamedSourceRowSelection where
  sourceId : String
  rowIndices : List Nat
  deriving DecidableEq

structure NamedSourceAlignment where
  sampleIds : List SampleId
  sources : List NamedSourceRowSelection
  deriving DecidableEq

def supply (supplied : BTreeMap String (List SampleId)) (source : NamedSourceSampleOrder) :
    Result (BTreeMap String (List SampleId)) := do
  refuseIf (isBlank source.sourceId ∨ source.sourceId ∈ supplied)
    (.runtimeValidation "named-source alignment has an empty or duplicate source ID")
  pure (supplied.insert source.sourceId source.sampleIds)

def placeSample (sourceId : String) (positions : BTreeMap SampleId Nat)
    (row : SampleId × Nat) : Result (BTreeMap SampleId Nat) := do
  refuseIf (row.1 ∈ positions)
    (.runtimeValidation s!"named source `{sourceId}` has duplicate sample IDs")
  pure (positions.insert row.1 row.2)

def alignSource (requested : List SampleId) (supplied : BTreeMap String (List SampleId))
    (sourceId : String) : Result NamedSourceRowSelection := do
  let sampleIds ← need supplied[sourceId]? (.panicked "no entry found for key")
  let positions ← loop (placeSample sourceId) ∅ sampleIds.zipIdx
  refuseIf (positions.keys.toFinset ≠ requested.toFinset) (.runtimeValidation
    s!"named source `{sourceId}` sample IDs differ from requested samples")
  let rowIndices ← collect requested fun s =>
    need positions[s]? (.panicked "no entry found for key")
  pure { sourceId, rowIndices }

def alignNamedSourceRows (request : NamedSourceAlignmentRequest) :
    Result NamedSourceAlignment := do
  refuseIf (request.sampleIds = [] ∨ request.sampleIds.toFinset.card ≠ request.sampleIds.length)
    (.runtimeValidation "named-source alignment requires nonempty unique requested sample IDs")
  refuseIf (request.requiredSourceIds = [] ∨ (∃ s ∈ request.requiredSourceIds, isBlank s) ∨
      request.requiredSourceIds.toFinset.card ≠ request.requiredSourceIds.length)
    (.runtimeValidation "named-source alignment requires nonempty unique source IDs")
  let supplied ← loop supply ∅ request.sources
  refuseIf (supplied.keys.toFinset ≠ request.requiredSourceIds.toFinset)
    (.runtimeValidation "named-source alignment source set differs from required sources")
  let selections ← collect request.requiredSourceIds (alignSource request.sampleIds supplied)
  pure { sampleIds := request.sampleIds, sources := selections }

-- ---------------------------------------------------------------------------
-- What the alignment is for
-- ---------------------------------------------------------------------------

/-- Every requested sample is listed exactly once, and no other sample is. -/
structure ExactCover (requested listed : List SampleId) : Prop where
  once : ∀ s ∈ requested, listed.count s = 1
  only : ∀ s ∈ listed, s ∈ requested

/-- The rows, read at the indices, are the requested samples; each row is read
at one index. -/
structure Aligns (requested listed : List SampleId) (rowIndices : List Nat) : Prop where
  bijective : rowIndices.Perm (List.range listed.length)
  rows : rowIndices.map (listed[·]?) = requested.map some

theorem ExactCover.nodup (h : ExactCover requested listed) : listed.Nodup := by
  rw [List.nodup_iff_count_eq_one]
  exact fun s hs => h.once s (h.only s hs)

theorem exactCover_iff : ExactCover requested listed ↔
    listed.Nodup ∧ ∀ s, s ∈ listed ↔ s ∈ requested := by
  constructor
  · intro h
    refine ⟨h.nodup, fun s => ⟨h.only s, fun hs => ?_⟩⟩
    rw [← List.count_pos_iff, h.once s hs]
    exact Nat.one_pos
  · rintro ⟨hn, hiff⟩
    exact ⟨fun s hs => List.count_eq_one_of_mem hn ((hiff s).mpr hs), fun s => (hiff s).mp⟩

/-- Reading each requested sample's own row aligns the source. -/
theorem ExactCover.aligns (h : ExactCover requested listed) (hn : requested.Nodup)
    (hrows : List.Forall₂ (fun s i => listed[i]? = some s) requested rowIndices) :
    Aligns requested listed rowIndices := by
  have hread : rowIndices.map (listed[·]?) = requested.map some := by
    rw [← List.forall₂_eq_eq_eq, List.forall₂_map_left_iff, List.forall₂_map_right_iff]
    exact hrows.flip
  refine ⟨(List.perm_ext_iff_of_nodup ?_ List.nodup_range).mpr fun i => ?_, hread⟩
  · refine List.Nodup.of_map (listed[·]?) ?_
    rw [hread]
    exact hn.map (Option.some_injective _)
  · rw [List.mem_range]
    constructor
    · intro hi
      obtain ⟨s, -, hs⟩ := exists_left_of_mem hrows hi
      exact (List.getElem?_eq_some_iff.mp hs).1
    · intro hi
      have hmem : listed[i] ∈ requested := h.only _ (List.getElem_mem hi)
      obtain ⟨j, hj, hs⟩ := exists_right_of_mem hrows hmem
      have hij : i = j :=
        (List.getElem?_inj hi h.nodup).mp ((List.getElem?_eq_getElem hi).trans hs.symm)
      exact hij ▸ hj

/-- Samples and sources are named, each once, and the supplied sources are the
required ones. -/
structure NamedSourceAlignmentRequest.WellPosed (request : NamedSourceAlignmentRequest) :
    Prop where
  samples_ne : request.sampleIds ≠ []
  samples_nodup : request.sampleIds.Nodup
  required_ne : request.requiredSourceIds ≠ []
  required_named : ∀ s ∈ request.requiredSourceIds, isBlank s = false
  required_nodup : request.requiredSourceIds.Nodup
  sources_nodup : (request.sources.map (·.sourceId)).Nodup
  same : ∀ s, s ∈ request.sources.map (·.sourceId) ↔ s ∈ request.requiredSourceIds

-- ---------------------------------------------------------------------------
-- What the code accepts
-- ---------------------------------------------------------------------------

theorem supply_loop_ok : loop supply ∅ sources = .ok supplied ↔
    (∀ source ∈ sources, isBlank source.sourceId = false) ∧
      (sources.map (·.sourceId)).Nodup ∧
      supplied = BTreeMap.collect (sources.map fun source => (source.sourceId, source.sampleIds)) := by
  apply BTreeMap.collect_loop_ok
  intro supplied source supplied'
  simp only [supply, bind_ok, refuseIf_ok, pure_ok, not_or, Bool.not_eq_true]
  constructor
  · rintro ⟨_, ⟨hblank, hnew⟩, rfl⟩
    exact ⟨hblank, hnew, rfl⟩
  · rintro ⟨hblank, hnew, rfl⟩
    exact ⟨(), ⟨hblank, hnew⟩, rfl⟩

theorem placeSample_loop_ok : loop (placeSample sourceId) ∅ rows = .ok positions ↔
    (rows.map Prod.fst).Nodup ∧ positions = BTreeMap.collect rows := by
  have hstep (positions : BTreeMap SampleId Nat) (row : SampleId × Nat)
      (positions' : BTreeMap SampleId Nat) :
      placeSample sourceId positions row = .ok positions' ↔
        True ∧ row.1 ∉ positions ∧ positions' = positions.insert row.1 row.2 := by
    simp only [placeSample, bind_ok, refuseIf_ok, pure_ok]
    simp [eq_comm]
  simpa using BTreeMap.collect_loop_ok hstep

/-- A supplied source is selected exactly when it covers the requested samples. -/
theorem alignSource_ok (hsupplied : supplied[sourceId]? = some listed) :
    alignSource requested supplied sourceId = .ok selection ↔
      ExactCover requested listed ∧ selection.sourceId = sourceId ∧
        List.Forall₂ (fun s i => listed[i]? = some s) requested selection.rowIndices := by
  have hfst : listed.zipIdx.map Prod.fst = listed := List.zipIdx_map_fst _ _
  simp only [alignSource, bind_ok, need_ok, hsupplied, Option.some.injEq, exists_eq_left',
    placeSample_loop_ok, hfst, refuseIf_ok, not_not, collect_ok, pure_ok, exactCover_iff]
  constructor
  · rintro ⟨_, ⟨hn, rfl⟩, _, hkeys, rowIndices, hrows, rfl⟩
    have hentries : (listed.zipIdx.map Prod.fst).Nodup := hfst.symm ▸ hn
    refine ⟨⟨hn, fun s => ?_⟩, rfl, hrows.imp fun s i hi => ?_⟩
    · have hs := Finset.ext_iff.mp hkeys s
      simpa [BTreeMap.mem_collect hentries, hfst] using hs
    · rw [BTreeMap.getElem?_collect (BTreeMap.functional_of_nodup hentries)] at hi
      exact List.mem_zipIdx_iff_getElem?.mp hi
  · rintro ⟨⟨hn, hmem⟩, rfl, hrows⟩
    have hentries : (listed.zipIdx.map Prod.fst).Nodup := hfst.symm ▸ hn
    refine ⟨_, ⟨hn, rfl⟩, (), ?_, selection.rowIndices, hrows.imp fun s i hi => ?_, rfl⟩
    · ext s
      simp [BTreeMap.mem_collect hentries, hfst, hmem]
    · rw [BTreeMap.getElem?_collect (BTreeMap.functional_of_nodup hentries)]
      exact List.mem_zipIdx_iff_getElem?.mpr hi

/-- The map a well-posed request supplies holds each source's own list. -/
theorem supplied_get {sources : List NamedSourceSampleOrder}
    (hn : (sources.map (·.sourceId)).Nodup) (hm : source ∈ sources) :
    (BTreeMap.collect (sources.map fun source => (source.sourceId, source.sampleIds)))[
      source.sourceId]? = some source.sampleIds := by
  rw [BTreeMap.getElem?_collect]
  · exact List.mem_map.mpr ⟨source, hm, rfl⟩
  · apply BTreeMap.functional_of_nodup
    rwa [List.map_map]

theorem mem_supplied {sources : List NamedSourceSampleOrder}
    (hn : (sources.map (·.sourceId)).Nodup) :
    s ∈ BTreeMap.collect (sources.map fun source => (source.sourceId, source.sampleIds)) ↔
      s ∈ sources.map (·.sourceId) := by
  have hkeys : (sources.map fun source => (source.sourceId, source.sampleIds)).map Prod.fst =
      sources.map (·.sourceId) := List.map_map
  rw [BTreeMap.mem_collect (hkeys ▸ hn), hkeys]

theorem alignNamedSourceRows_ok : alignNamedSourceRows request = .ok alignment ↔
    request.WellPosed ∧ alignment.sampleIds = request.sampleIds ∧
      List.Forall₂ (fun sourceId selection => selection.sourceId = sourceId ∧
        ∃ source ∈ request.sources, source.sourceId = sourceId ∧
          ExactCover request.sampleIds source.sampleIds ∧
          List.Forall₂ (fun s i => source.sampleIds[i]? = some s) request.sampleIds
            selection.rowIndices) request.requiredSourceIds alignment.sources := by
  simp only [alignNamedSourceRows, bind_ok, refuseIf_ok, not_or, not_not, supply_loop_ok,
    collect_ok, pure_ok, not_exists, not_and, Bool.not_eq_true, card_toFinset_eq_length]
  constructor
  · rintro ⟨_, ⟨hne, hn⟩, _, ⟨hrequired, hnamed, hrn⟩, _, ⟨hblank, hsn, rfl⟩, _, hkeys, selections,
      hselections, rfl⟩
    have hsame (s : String) : s ∈ request.sources.map (·.sourceId) ↔
        s ∈ request.requiredSourceIds := by
      simpa [mem_supplied hsn] using Finset.ext_iff.mp hkeys s
    refine ⟨⟨hne, hn, hrequired, hnamed, hrn, hsn, hsame⟩, rfl, ?_⟩
    refine ((List.forall₂_and_left _ _).mpr ⟨fun s hs => hs, hselections⟩).imp ?_
    rintro sourceId selection ⟨hmem, hselected⟩
    obtain ⟨source, hm, rfl⟩ := List.mem_map.mp ((hsame sourceId).mpr hmem)
    obtain ⟨hcover, hid, hrows⟩ := (alignSource_ok (supplied_get hsn hm)).mp hselected
    exact ⟨hid, source, hm, rfl, hcover, hrows⟩
  · rintro ⟨hposed, hids, hselections⟩
    refine ⟨(), ⟨hposed.samples_ne, hposed.samples_nodup⟩, (),
      ⟨hposed.required_ne, hposed.required_named, hposed.required_nodup⟩, _,
      ⟨fun source hm => ?_, hposed.sources_nodup, rfl⟩, (), ?_, alignment.sources,
      hselections.imp ?_, ?_⟩
    · exact hposed.required_named _ ((hposed.same _).mp (List.mem_map_of_mem hm))
    · ext s
      simpa [mem_supplied hposed.sources_nodup] using hposed.same s
    · rintro sourceId selection ⟨hid, source, hm, rfl, hcover, hrows⟩
      exact (alignSource_ok (supplied_get hposed.sources_nodup hm)).mpr ⟨hcover, hid, hrows⟩
    · rw [← hids]

-- ---------------------------------------------------------------------------
-- Alignment is exact cover
-- ---------------------------------------------------------------------------

/-- Every source of a well-posed request that covers the samples has its rows. -/
theorem exists_alignment {request : NamedSourceAlignmentRequest} (hposed : request.WellPosed)
    (hcovers : ∀ source ∈ request.sources, ExactCover request.sampleIds source.sampleIds) :
    ∃ alignment, alignNamedSourceRows request = .ok alignment := by
  have hrows (sourceId : String) (hm : sourceId ∈ request.requiredSourceIds) :
      ∃ rowIndices : List Nat, ∃ source ∈ request.sources, source.sourceId = sourceId ∧
        ExactCover request.sampleIds source.sampleIds ∧
        List.Forall₂ (fun s i => source.sampleIds[i]? = some s) request.sampleIds rowIndices := by
    obtain ⟨source, hs, rfl⟩ := List.mem_map.mp ((hposed.same sourceId).mpr hm)
    have hcover := hcovers source hs
    refine ⟨request.sampleIds.map source.sampleIds.idxOf, source, hs, rfl, hcover, ?_⟩
    rw [List.forall₂_map_right_iff, List.forall₂_same]
    intro s hmem
    have hlisted : s ∈ source.sampleIds := ((exactCover_iff.mp hcover).2 s).mpr hmem
    exact List.getElem?_idxOf hlisted
  choose! rows hrows using hrows
  refine ⟨⟨request.sampleIds, request.requiredSourceIds.map fun s => ⟨s, rows s⟩⟩,
    alignNamedSourceRows_ok.mpr ⟨hposed, rfl, ?_⟩⟩
  rw [List.forall₂_map_right_iff, List.forall₂_same]
  exact fun sourceId hm => ⟨rfl, hrows sourceId hm⟩

/-- A well-posed request is accepted exactly when every source covers the
requested samples, and each source's rows are then permuted into their order. -/
theorem alignNamedSourceRows_exactCover (request : NamedSourceAlignmentRequest) :
    ((∃ alignment, alignNamedSourceRows request = .ok alignment) ↔ request.WellPosed ∧
      ∀ source ∈ request.sources, ExactCover request.sampleIds source.sampleIds) ∧
    ∀ alignment, alignNamedSourceRows request = .ok alignment →
      alignment.sampleIds = request.sampleIds ∧
      alignment.sources.map (·.sourceId) = request.requiredSourceIds ∧
      ∀ source ∈ request.sources, ∃ selection ∈ alignment.sources,
        selection.sourceId = source.sourceId ∧
        Aligns request.sampleIds source.sampleIds selection.rowIndices := by
  have hselected {alignment} (h : alignNamedSourceRows request = .ok alignment) (source)
      (hm : source ∈ request.sources) : ∃ selection ∈ alignment.sources,
        selection.sourceId = source.sourceId ∧ ExactCover request.sampleIds source.sampleIds ∧
        Aligns request.sampleIds source.sampleIds selection.rowIndices := by
    obtain ⟨hposed, -, hselections⟩ := alignNamedSourceRows_ok.mp h
    have hrequired := (hposed.same source.sourceId).mp (List.mem_map_of_mem hm)
    obtain ⟨selection, hs, hid, source', hm', hid', hcover, hrows⟩ :=
      exists_right_of_mem hselections hrequired
    cases List.inj_on_of_nodup_map hposed.sources_nodup hm' hm hid'
    exact ⟨selection, hs, hid, hcover, hcover.aligns hposed.samples_nodup hrows⟩
  refine ⟨⟨?_, fun ⟨hposed, hcovers⟩ => exists_alignment hposed hcovers⟩, fun alignment h => ?_⟩
  · rintro ⟨alignment, h⟩
    refine ⟨(alignNamedSourceRows_ok.mp h).1, fun source hm => ?_⟩
    obtain ⟨-, -, -, hcover, -⟩ := hselected h source hm
    exact hcover
  · obtain ⟨-, hids, hselections⟩ := alignNamedSourceRows_ok.mp h
    refine ⟨hids, ?_, fun source hm => ?_⟩
    · rw [← List.forall₂_eq_eq_eq, List.forall₂_map_left_iff]
      exact hselections.flip.imp fun _ _ hs => hs.1
    · obtain ⟨selection, hs, hid, -, haligns⟩ := hselected h source hm
      exact ⟨selection, hs, hid, haligns⟩

/-- Two sources that list the same two samples in opposite orders. -/
def crossedRequest : NamedSourceAlignmentRequest where
  sampleIds := [⟨"aligned:1", by decide⟩, ⟨"aligned:2", by decide⟩]
  requiredSourceIds := ["source_0", "source_1"]
  sources := [
    ⟨"source_1", [⟨"aligned:1", by decide⟩, ⟨"aligned:2", by decide⟩]⟩,
    ⟨"source_0", [⟨"aligned:2", by decide⟩, ⟨"aligned:1", by decide⟩]⟩]

theorem alignNamedSourceRows_exactCover_crossed :
    (crossedRequest.WellPosed ∧
      ∀ source ∈ crossedRequest.sources, ExactCover crossedRequest.sampleIds source.sampleIds) ∧
    ∀ source ∈ crossedRequest.sources, ∃ selection ∈
      [NamedSourceRowSelection.mk "source_0" [1, 0], ⟨"source_1", [0, 1]⟩],
        selection.sourceId = source.sourceId ∧
        Aligns crossedRequest.sampleIds source.sampleIds selection.rowIndices := by
  have h : alignNamedSourceRows crossedRequest = .ok ⟨crossedRequest.sampleIds,
      [⟨"source_0", [1, 0]⟩, ⟨"source_1", [0, 1]⟩]⟩ := by decide
  exact ⟨(alignNamedSourceRows_exactCover crossedRequest).1.mp ⟨_, h⟩,
    ((alignNamedSourceRows_exactCover crossedRequest).2 _ h).2.2⟩

/-- A source without rows covers an empty list of samples, which is refused. -/
theorem alignNamedSourceRows_refuses_empty :
    ¬∀ request : NamedSourceAlignmentRequest,
      ((∃ alignment, alignNamedSourceRows request = .ok alignment) ↔
        ∀ source ∈ request.sources, ExactCover request.sampleIds source.sampleIds) := by
  intro h
  have hcovers : ∀ source ∈ [NamedSourceSampleOrder.mk "source_0" []],
      ExactCover [] source.sampleIds := by
    simp only [List.mem_singleton, forall_eq]
    exact ⟨by simp, by simp⟩
  obtain ⟨alignment, hok⟩ := (h ⟨[], ["source_0"], [⟨"source_0", []⟩]⟩).mpr hcovers
  cases hok

end DagMl

import DagMl.Runtime.TrainingInput

/-!
# Sparse out-of-fold inputs

An input under a signed availability has one row for each requested sample:
the joined row of a present sample, zeros under an empty mask for an absent
one. Where every requested sample is present it is the ordinary join.
-/

namespace DagMl

open Checked

-- ---------------------------------------------------------------------------
-- Joined rows
-- ---------------------------------------------------------------------------

theorem length_sum_rows {rows : List (List Binary64)} {total : List Binary64}
    (htotal : total.length = width) (h : ∀ row ∈ rows, row.length = width) :
    (rows.foldl (List.zipWith Binary64.add) total).length = width := by
  induction rows generalizing total with
  | nil => exact htotal
  | cons row rows ih =>
    obtain ⟨hrow, hrows⟩ := List.forall_mem_cons.mp h
    exact ih (by simp [htotal, hrow]) hrows

theorem length_averagePredictionRows {rows : List (List Binary64)}
    (h : ∀ row ∈ rows, row.length = width) : (averagePredictionRows rows width).length = width := by
  unfold averagePredictionRows
  split
  · exact h _ (List.mem_singleton_self _)
  · simp [length_sum_rows List.length_replicate h]

section

variable {blocks : List PredictionBlock} {a b : PredictionInputSpec}

theorem length_of_mem_evidenceRows (h : ∀ block ∈ blocks, block.Content ∧ block.width = width)
    (hrow : row ∈ evidenceRows blocks s) : row.length = width := by
  obtain ⟨block, hblock, hrow⟩ := List.mem_flatMap.mp (BTreeMap.mem_bucket.mp hrow)
  obtain ⟨hcontent, rfl⟩ := h block hblock
  exact hcontent.length_row hrow

/-- Every joined row has the width of the join. -/
theorem RowsOf.width (h : RowsOf blocks a) (hrow : (s, row) ∈ a.sampleIds.zip a.values) :
    row.length = a.predictionWidth := by
  obtain ⟨-, rfl⟩ := (List.forall₂_iff_zip.mp h.rows).2 hrow
  exact length_averagePredictionRows fun row hrow => length_of_mem_evidenceRows h.content hrow

/-- The rows of a join are the averages of its samples' evidence. -/
theorem RowsOf.mem_zip (h : RowsOf blocks a) : (s, row) ∈ a.sampleIds.zip a.values ↔
    evidenceRows blocks s ≠ [] ∧
      row = averagePredictionRows (evidenceRows blocks s) a.predictionWidth := by
  constructor
  · exact (List.forall₂_iff_zip.mp h.rows).2
  · rintro ⟨hne, rfl⟩
    have hs : s ∈ a.sampleIds := h.evidence_iff.mp hne
    rw [← List.map_fst_zip h.rows.length_eq.le] at hs
    obtain ⟨⟨s, row⟩, hentry, rfl⟩ := List.mem_map.mp hs
    obtain ⟨-, rfl⟩ := (List.forall₂_iff_zip.mp h.rows).2 hentry
    exact hentry

end

-- ---------------------------------------------------------------------------
-- The expansion
-- ---------------------------------------------------------------------------

/-- The feature row of a requested sample under its presence. -/
inductive FeatureRow (blocks : List PredictionBlock) (width : Nat) :
    SampleId × Bool → List Binary64 → Prop
  | present (hne : evidenceRows blocks s ≠ []) :
    FeatureRow blocks width (s, true) (averagePredictionRows (evidenceRows blocks s) width)
  | absent (hnone : evidenceRows blocks s = []) :
    FeatureRow blocks width (s, false) (List.replicate width .zero)

/-- An input over the requested samples that uses authentic rows for the
present ones only. -/
structure Conservative (blocks : List PredictionBlock) (requested : List SampleId)
    (presence : List Bool) (input : PredictionInputSpec) : Prop where
  nodup : requested.Nodup
  aligned : presence.length = requested.length
  sampleIds_eq : input.sampleIds = requested
  presence_eq : input.sourcePresence = some presence
  masks : input.featureValidityMasks =
    some (presence.map (List.replicate input.predictionWidth))
  rows : List.Forall₂ (FeatureRow blocks input.predictionWidth) (requested.zip presence)
    input.values
  /-- The blocks hold rows of the requested present samples and of no others. -/
  authentic : ∀ s, evidenceRows blocks s ≠ [] ↔ (s, true) ∈ requested.zip presence
  width : ∀ s, ∀ row ∈ evidenceRows blocks s, row.length = input.predictionWidth

section

variable {blocks : List PredictionBlock} {requested : List SampleId} {presence : List Bool}
  {raw input joined : PredictionInputSpec}

/-- The rows and masks of an expansion have the width of the signed columns. -/
theorem expandAvailablePredictionInput_columns
    (h : expandAvailablePredictionInput floats signed source raw requested presence = .ok input) :
    (∀ row ∈ raw.values, row.length = input.predictionWidth) ∧
      input.featureValidityMasks = some (presence.map (List.replicate input.predictionWidth)) ∧
      List.Forall₂ (fun entry row => entry.2 = false →
        row = List.replicate input.predictionWidth .zero) (requested.zip presence) input.values := by
  simp only [expandAvailablePredictionInput, bind_ok, pure_ok, refuseIf_ok, not_or, not_and,
    not_not] at h
  obtain ⟨_, -, names, -, _, ⟨-, -, hwidth, -⟩, _, -, values, hcollect, _, -, rfl⟩ := h
  refine ⟨fun row hrow => ?_, rfl, ?_⟩
  · simp only [List.any_eq_true, Bool.or_eq_true, decide_eq_true_eq, not_exists, not_and,
      not_or, not_not] at hwidth
    exact (hwidth row hrow).1
  · refine (collect_ok.mp hcollect).imp ?_
    rintro ⟨s, present⟩ row hrow habsent
    obtain rfl : present = false := habsent
    cases hrow
    rfl

/-- A requested sample is listed with one presence. -/
theorem Expanded.presence_unique (h : Expanded raw input requested presence)
    (ha : (s, a) ∈ requested.zip presence) (hb : (s, b) ∈ requested.zip presence) : a = b := by
  have hkeys : ((requested.zip presence).map Prod.fst).Nodup := by
    rw [List.map_fst_zip h.length_eq.ge]
    exact h.nodup
  cases List.inj_on_of_nodup_map hkeys ha hb rfl
  rfl

/-- An expansion of joined rows is conservative. -/
theorem Conservative.of_expanded (hraw : RowsOf blocks raw)
    (h : expandAvailablePredictionInput floats signed source raw requested presence = .ok input) :
    Conservative blocks requested presence input := by
  have hout := expandAvailablePredictionInput_ok hraw.nodup h
  obtain ⟨hcolumns, hmasks, hzeros⟩ := expandAvailablePredictionInput_columns h
  have hauthentic (s : SampleId) : evidenceRows blocks s ≠ [] ↔ (s, true) ∈ requested.zip presence :=
    hraw.evidence_iff.trans (hout.present_iff s)
  have hwidth (s : SampleId) (hne : evidenceRows blocks s ≠ []) :
      raw.predictionWidth = input.predictionWidth := by
    have hrow := hraw.mem_zip.mpr ⟨hne, rfl⟩
    rw [← hraw.width hrow, hcolumns _ (List.of_mem_zip hrow).2]
  refine ⟨hout.nodup, hout.length_eq, hout.sampleIds_eq, hout.presence_eq, hmasks, ?_, hauthentic,
    fun s row hrow => ?_⟩
  · have hrows := List.forall₂_iff_zip.mp hout.rows
    have hzeros := List.forall₂_iff_zip.mp hzeros
    refine List.forall₂_iff_zip.mpr ⟨hrows.1, ?_⟩
    rintro ⟨s, present⟩ row hentry
    cases present with
    | true =>
      obtain ⟨hne, rfl⟩ := hraw.mem_zip.mp (hrows.2 hentry rfl)
      rw [hwidth s hne]
      exact .present hne
    | false =>
      obtain rfl := hzeros.2 hentry rfl
      refine .absent ?_
      by_contra hne
      have habsent : (s, false) ∈ requested.zip presence := (List.of_mem_zip hentry).1
      cases hout.presence_unique habsent ((hauthentic s).mp hne)
  · rw [← hwidth s (List.ne_nil_of_mem hrow)]
    exact length_of_mem_evidenceRows hraw.content hrow

/-- With every requested sample present, the rows are those of the samples' evidence. -/
theorem Conservative.rows_of_present (h : Conservative blocks requested presence input)
    (hpresent : ∀ present ∈ presence, present = true) :
    List.Forall₂ (fun s row => evidenceRows blocks s ≠ [] ∧
      row = averagePredictionRows (evidenceRows blocks s) input.predictionWidth)
      requested input.values := by
  have hall : requested.zip presence = requested.map (·, true) := by
    rw [List.eq_replicate_of_mem hpresent, h.aligned, List.map_prod_left_eq_zip, List.map_const']
  have hrows := h.rows
  rw [hall, List.forall₂_map_left_iff] at hrows
  refine hrows.imp fun s row hrow => ?_
  cases hrow with
  | present hne => exact ⟨hne, rfl⟩

/-- With every requested sample present, an expansion holds the joined rows. -/
theorem Conservative.perm_joined (h : Conservative blocks requested presence input)
    (hjoined : RowsOf blocks joined) (hpresent : ∀ present ∈ presence, present = true) :
    (requested.zip input.values).Perm (joined.sampleIds.zip joined.values) := by
  have hrows := List.forall₂_iff_zip.mp (h.rows_of_present hpresent)
  have hkeys : (requested.zip input.values).map Prod.fst = requested :=
    List.map_fst_zip hrows.1.le
  have hjoinedKeys : (joined.sampleIds.zip joined.values).map Prod.fst = joined.sampleIds :=
    List.map_fst_zip hjoined.rows.length_eq.le
  refine (List.perm_ext_iff_of_nodup (.of_map Prod.fst (hkeys.symm ▸ h.nodup))
    (.of_map Prod.fst (hjoinedKeys.symm ▸ hjoined.nodup))).mpr ?_
  have hwidth (s : SampleId) (hne : evidenceRows blocks s ≠ []) :
      joined.predictionWidth = input.predictionWidth := by
    obtain ⟨row, hrow⟩ := List.exists_mem_of_ne_nil _ hne
    rw [← h.width s row hrow, length_of_mem_evidenceRows hjoined.content hrow]
  rintro ⟨s, row⟩
  rw [hjoined.mem_zip]
  constructor
  · intro hentry
    obtain ⟨hne, rfl⟩ := hrows.2 hentry
    exact ⟨hne, by rw [hwidth s hne]⟩
  · rintro ⟨hne, rfl⟩
    have hs : s ∈ (requested.zip input.values).map Prod.fst := by
      rw [hkeys]
      exact (List.of_mem_zip ((h.authentic s).mp hne)).1
    obtain ⟨⟨s, row⟩, hentry, rfl⟩ := List.mem_map.mp hs
    obtain ⟨-, rfl⟩ := hrows.2 hentry
    rw [hwidth s hne]
    exact hentry

end

/-- An accepted sparse input is conservative, and where every requested sample
is present it holds the rows of the ordinary join. -/
theorem availableOofInput_conservative (externals : Externals) (plan : ExecutionPlan)
    (edge : EdgeSpec) (scope : PhaseScope) (blocks : List PredictionBlock) (folds : FoldSet)
    (requested : List SampleId) (input : PredictionInputSpec)
    (h : availableOofInput externals plan edge scope blocks folds requested = .ok (some input)) :
    ∃ signed source presence,
      predictionAvailability externals plan = .ok (some signed) ∧
      availabilitySource plan edge.source.nodeId = .ok (some source) ∧
      validateAvailableOofBlocks signed source folds blocks = .ok () ∧
      signed.presence source requested = .ok presence ∧
      Conservative blocks requested presence input ∧
      (folds.partitionMode ≠ .resampled → ∀ s, (evidenceRows blocks s).length ≤ 1) ∧
      (∃ joined, predictionInputSpec edge scope blocks
        (folds.partitionMode = .resampled) = .ok joined) ∧
      ((∀ present ∈ presence, present = true) → ∀ allowCrossFoldDuplicates joined,
        predictionInputSpec edge scope blocks allowCrossFoldDuplicates = .ok joined →
          (requested.zip input.values).Perm (joined.sampleIds.zip joined.values)) := by
  simp only [availableOofInput, bind_ok] at h
  obtain ⟨_ | signed, hsigned, h⟩ := h
  · cases h
  simp only [bind_ok, pure_ok, need_ok, Option.some.injEq] at h
  obtain ⟨_, hsource, source, rfl, _, -, _, hblocks, raw, hraw, presence, hpresence, out, hexpand, rfl⟩ := h
  obtain ⟨hrows, hnodup⟩ := predictionInputSpec_ok hraw
  have hout := Conservative.of_expanded hrows hexpand
  refine ⟨signed, source, presence, hsigned, hsource, hblocks, hpresence, ⟨hout.nodup, hout.aligned,
    hout.sampleIds_eq, hout.presence_eq, hout.masks, hout.rows, hout.authentic, hout.width⟩,
    fun hmode s => ?_, ⟨raw, hraw⟩, fun hpresent allow joined hjoined =>
      hout.perm_joined (predictionInputSpec_ok hjoined).1 hpresent⟩
  have hnodup := hnodup (by simpa using hmode)
  rw [← map_fst_flatMap_rows fun block hblock => (hrows.content block hblock).1] at hnodup
  by_cases hne : evidenceRows blocks s = []
  · simp [hne]
  · obtain ⟨only, honly⟩ := BTreeMap.bucket_of_nodup hnodup (BTreeMap.bucket_ne_nil.mp hne)
    rw [evidenceRows, honly, List.length_singleton]

/-- A source that was seen on the first of two samples. -/
def sparseSamples : List SampleId := [⟨"sparse:1", by decide⟩, ⟨"sparse:2", by decide⟩]

def sparseExternals : Externals :=
  { plainExternals with
    decodeAvailability _ := .ok {
      schemaVersion := 1, sampleIds := sparseSamples
      sourcePresence := .collect [("nirs", [true, false])], targetNames := ["protein"]
      targetValidityMasks := [[true], [true]], classLabels := none, sampleLabels := none } }

def sparsePlan : ExecutionPlan :=
  { stackPlan with
    graphPlan := { stackPlan.graphPlan with
      graph := { stackPlan.graphPlan.graph with
        nodes := stackPlan.graphPlan.graph.nodes.map fun node =>
          { node with metadata := .collect [("prediction_availability_source", .string "nirs")] }
        metadata := .collect [("prediction_availability", .null)] } } }

def sparseBlock : PredictionBlock :=
  { singleBlock with
    producerPort := some "oof", sampleIds := sparseSamples.take 1, targetNames := ["protein"] }

def sparseFolds : FoldSet :=
  { singleFoldSet with
    sampleIds := sparseSamples
    folds := singleFoldSet.folds.map fun fold => { fold with validationSampleIds := sparseSamples }
    partitionMode := .partition }

theorem availableOofInput_conservative_sparse :
    ∃ input, availableOofInput sparseExternals sparsePlan stackEdge (stackScope .fitCv)
        [sparseBlock] sparseFolds sparseSamples = .ok (some input) ∧
      ∃ presence, Conservative [sparseBlock] sparseSamples presence input := by
  have hinput : ∃ input, availableOofInput sparseExternals sparsePlan stackEdge (stackScope .fitCv)
      [sparseBlock] sparseFolds sparseSamples = .ok (some input) := ⟨_, rfl⟩
  obtain ⟨input, h⟩ := hinput
  obtain ⟨_, _, presence, -, -, -, -, hinput, -⟩ := availableOofInput_conservative sparseExternals
    sparsePlan stackEdge (stackScope .fitCv) [sparseBlock] sparseFolds sparseSamples input h
  exact ⟨input, h, presence, hinput⟩

end DagMl

import DagMl.Aggregation.FusionReducers

/-!
# The probability reducers

Means of probability rows with equal weights, across the branches of a merge
and over the models of one branch.
-/

namespace DagMl

open Checked WeightedRows BTreeMap

variable {K : Type} [Field K] [LinearOrder K] {blocks blocks' : List (ExactBlock K)}
  {weights : Option (List K)} {out : ExactBlock K}

/-- A reducer of probabilities: equal weights, and means that `finish` is
applied to, without effect on means of distributions. -/
structure ProbaLaw (finish : List K → List K) (reduce : List (ExactBlock K) → Result (ExactBlock K)) :
    Prop where
  means : ∀ blocks out, reduce blocks = .ok out → ∃ width means,
    WeightedMeans width (weighted blocks none) out.sampleIds means ∧ out.values = means.map finish
  distributions : ∀ blocks out, reduce blocks = .ok out →
    (∀ b ∈ blocks, ∀ row ∈ b.values, Distribution row) →
    (∀ row ∈ out.values, Distribution row) ∧
      ∃ width, WeightedMeans width (weighted blocks none) out.sampleIds out.values
  shuffle : ∀ blocks blocks' out, reduce blocks = .ok out → Shuffled blocks none blocks' none →
    ∃ out', reduce blocks' = .ok out' ∧ ∀ s, out'.rowOf s = out.rowOf s

/-- The first block's width is everyone's. -/
theorem width_of_branches {mergeNode : NodeId} {fused : ExactBlock K}
    (h : reducePredictionsAcrossBranches blocks weights mergeNode = .ok fused) :
    ∃ width, (∀ b ∈ blocks, b.Content ∧ b.width = width) ∧
      WeightedMeans width (weighted blocks weights) fused.sampleIds fused.values := by
  obtain ⟨first, -, hlength, -, order, values, hfuse, rfl⟩ := reducePredictionsAcrossBranches_ok.mp h
  obtain ⟨hfusible, hmeans⟩ := fuse_ok hfuse
  refine ⟨first.width, fun b hb => ?_, hmeans⟩
  rw [← map_fst_weighted hlength] at hb
  obtain ⟨p, hp, rfl⟩ := List.mem_map.mp hb
  exact ⟨(hfusible.member p hp).content, (hfusible.member p hp).width⟩

namespace WeightedMeans

variable {width : Nat} {order : List SampleId} {values : List (List K)}

theorem mem_values {pairs : List (ExactBlock K × K)} (h : WeightedMeans width pairs order values) :
    row ∈ values ↔ ∃ s, (order.zip values).lookup s = some row := by
  have hsnd : (order.zip values).map Prod.snd = values := List.map_snd_zip h.length_eq.ge
  constructor
  · intro hrow
    rw [← hsnd] at hrow
    obtain ⟨e, he, rfl⟩ := List.mem_map.mp hrow
    exact ⟨e.1, h.lookup_eq_some.mpr he⟩
  · rintro ⟨s, hs⟩
    exact (List.of_mem_zip (h.lookup_eq_some.mp hs)).2

variable (h : WeightedMeans width (weighted blocks none) order values)
  (hcontent : ∀ b ∈ blocks, b.Content)

include hcontent in
omit [LinearOrder K] in
/-- The rows a mean is taken of are rows of the blocks, weighing one each. -/
theorem of_mem_coverage {r : List K × K} (hr : r ∈ coverage (weighted blocks none) s) :
    ∃ b ∈ blocks, r.1 ∈ b.values ∧ r.2 = 1 := by
  rw [weighted_none] at hr
  have hpairs : ∀ p ∈ blocks.map (·, (1 : K)), p.1.Content := by simpa using hcontent
  obtain ⟨p, hp, hin, hweight⟩ := (mem_coverage hpairs).mp hr
  obtain ⟨b, hb, rfl⟩ := List.mem_map.mp hp
  exact ⟨b, hb, (List.of_mem_zip hin).2, hweight.symm⟩

include h hcontent

variable [IsStrictOrderedRing K]

/-- Means of non-negative rows are non-negative. -/
theorem nonneg (hnonneg : ∀ b ∈ blocks, ∀ row ∈ b.values, ∀ x ∈ row, 0 ≤ x) :
    ∀ row ∈ values, ∀ x ∈ row, 0 ≤ x := by
  intro row hrow x hx
  obtain ⟨s, hs⟩ := h.mem_values.mp hrow
  obtain ⟨j, hj, rfl⟩ := List.getElem_of_mem hx
  have hentry : row[j] = weightedMean (coverage (weighted blocks none) s) j := by
    simpa [entry, hj] using h.mean s row (h.lookup_eq_some.mp hs) j
  rw [hentry]
  refine weightedMean_nonneg (fun r hr => ?_) j
  obtain ⟨b, hb, hin, hweight⟩ := of_mem_coverage hcontent hr
  exact ⟨hnonneg b hb r.1 hin, hweight ▸ zero_le_one⟩

/-- Means of distributions are distributions. -/
theorem distribution (hwidth : ∀ b ∈ blocks, b.width ≤ width)
    (hdist : ∀ b ∈ blocks, ∀ row ∈ b.values, Distribution row) :
    ∀ row ∈ values, Distribution row := by
  intro row hrow
  obtain ⟨s, hs⟩ := h.mem_values.mp hrow
  have hmem := h.lookup_eq_some.mp hs
  refine distribution_of_mean (fun r hr => ?_) (h.total_pos s (List.of_mem_zip hmem).1)
    (h.mean s row hmem)
  obtain ⟨b, hb, hin, hweight⟩ := of_mem_coverage hcontent hr
  refine ⟨hdist b hb r.1 hin, ?_, hweight ▸ zero_le_one⟩
  rw [(hcontent b hb).rows_width r.1 hin, h.length_row row hrow]
  exact hwidth b hb

end WeightedMeans

theorem normalizeRow_ok {row row' : List K} :
    normalizeRow row = .ok row' ↔ 0 < row.sum ∧ normalized row = row' := by
  simp only [normalizeRow, bind_ok, refuseIf_ok, pure_ok, not_le, exists_const]

omit [Field K] [LinearOrder K] in
theorem rowOf_map (fused : ExactBlock K) (f : List K → List K) (s : SampleId) :
    ({ fused with values := fused.values.map f } : ExactBlock K).rowOf s =
      (fused.rowOf s).map f := by
  have hrows : ({ fused with values := fused.values.map f } : ExactBlock K).rows =
      fused.rows.map fun e => (e.1, f e.2) := by
    simp only [ExactBlock.rows, List.zip_map_right]
    rfl
  rw [ExactBlock.rowOf, ExactBlock.rowOf, hrows]
  induction fused.rows with
  | nil => rfl
  | cons e rows ih =>
    obtain ⟨k, row⟩ := e
    by_cases hs : s = k
    · simp [hs]
    · have hbeq : (s == k) = false := by simpa using hs
      rw [List.map_cons, List.lookup_cons, List.lookup_cons, hbeq]
      exact ih

section Across

variable [ToString K]

theorem checkProba_ok {block : ExactBlock K} {e : SampleId × List K} :
    checkProba block e = .ok u ↔
      (∀ value ∈ e.2, 0 ≤ value) ∧ |e.2.sum - 1| ≤ (probaSumTolerance : K) := by
  simp only [checkProba, bind_ok, refuseIf_ok, not_exists, not_and, not_lt, exists_const]

theorem checkProbaBlock_ok {block : ExactBlock K} : checkProbaBlock block = .ok u ↔
    block.Content ∧ 2 ≤ block.width ∧ ∀ row ∈ block.values,
      (∀ value ∈ row, 0 ≤ value) ∧ |row.sum - 1| ≤ (probaSumTolerance : K) := by
  simp only [checkProbaBlock, bind_ok, ExactBlock.validateContent_ok, refuseIf_ok, each_ok,
    checkProba_ok, not_lt, exists_const]
  constructor
  · rintro ⟨_, ⟨hcontent, rfl⟩, hwidth, hrows⟩
    refine ⟨hcontent, hwidth, fun row hrow => ?_⟩
    rw [← ExactBlock.map_snd_rows hcontent.length_eq] at hrow
    obtain ⟨e, he, rfl⟩ := List.mem_map.mp hrow
    exact hrows e he
  · rintro ⟨hcontent, hwidth, hrows⟩
    exact ⟨_, ⟨hcontent, rfl⟩, hwidth, fun e he => hrows e.2 (List.of_mem_zip he).2⟩

theorem reduceProbaMeanAcrossBranches_ok {mergeNode : NodeId} :
    reduceProbaMeanAcrossBranches blocks mergeNode = .ok out ↔
      (∀ b ∈ blocks, checkProbaBlock b = .ok ()) ∧
      ∃ fused, reducePredictionsAcrossBranches blocks none mergeNode = .ok fused ∧
        (∀ row ∈ fused.values, 0 < row.sum) ∧
        { fused with values := fused.values.map normalized } = out := by
  simp only [reduceProbaMeanAcrossBranches, bind_ok, refuseIf_ok, each_ok, pure_ok, exists_const]
  constructor
  · rintro ⟨-, hblocks, fused, hfused, values, hvalues, rfl⟩
    have hrows := collect_ok.mp hvalues
    have hmap := map_of_collect (g := id) hvalues fun row row' h => (normalizeRow_ok.mp h).2.symm
    refine ⟨hblocks, fused, hfused, fun row hrow => ?_, ?_⟩
    · obtain ⟨row', -, h⟩ := exists_right_of_mem hrows hrow
      exact (normalizeRow_ok.mp h).1
    · rw [← hmap, List.map_id]
  · rintro ⟨hblocks, fused, hfused, hpos, rfl⟩
    refine ⟨?_, hblocks, fused, hfused, fused.values.map normalized, ?_, rfl⟩
    · rintro rfl
      obtain ⟨first, hfirst, -⟩ := reducePredictionsAcrossBranches_ok.mp hfused
      cases hfirst
    · rw [collect_ok, List.forall₂_map_right_iff, List.forall₂_same]
      exact fun row hrow => normalizeRow_ok.mpr ⟨hpos row hrow, rfl⟩

variable [IsStrictOrderedRing K]

/-- The fused rows are distributions, whatever was accepted. -/
theorem reduceProbaMeanAcrossBranches_distribution {mergeNode : NodeId}
    (h : reduceProbaMeanAcrossBranches blocks mergeNode = .ok out) :
    ∀ row ∈ out.values, Distribution row := by
  obtain ⟨hchecks, fused, hfused, hpos, rfl⟩ := reduceProbaMeanAcrossBranches_ok.mp h
  obtain ⟨width, hblocks, hmeans⟩ := width_of_branches hfused
  have hnonneg := hmeans.nonneg (fun b hb => (hblocks b hb).1) fun b hb row hrow x hx =>
    ((checkProbaBlock_ok.mp (hchecks b hb)).2.2 row hrow).1 x hx
  intro row hrow
  obtain ⟨mean, hmean, rfl⟩ := List.mem_map.mp hrow
  exact normalized_distribution (hnonneg mean hmean) (hpos mean hmean)

theorem probaLaw_across (mergeNode : NodeId) :
    ProbaLaw (K := K) normalized (reduceProbaMeanAcrossBranches · mergeNode) := by
  constructor
  · intro blocks out h
    obtain ⟨-, fused, hfused, -, rfl⟩ := reduceProbaMeanAcrossBranches_ok.mp h
    obtain ⟨width, hmeans⟩ := (fusionLaw_branches mergeNode).means _ _ _ hfused
    exact ⟨width, fused.values, hmeans, rfl⟩
  · intro blocks out h hdist
    refine ⟨reduceProbaMeanAcrossBranches_distribution h, ?_⟩
    obtain ⟨-, fused, hfused, hpos, rfl⟩ := reduceProbaMeanAcrossBranches_ok.mp h
    obtain ⟨width, hblocks, hmeans⟩ := width_of_branches hfused
    have hrows := hmeans.distribution (fun b hb => (hblocks b hb).1)
      (fun b hb => (hblocks b hb).2.le) hdist
    have hsame : fused.values.map normalized = fused.values := by
      rw [List.map_congr_left fun row hrow => (hrows row hrow).normalized_eq, List.map_id']
    exact ⟨width, by rwa [hsame]⟩
  · intro blocks blocks' out h hshuffled
    obtain ⟨hchecks, fused, hfused, hpos, rfl⟩ := reduceProbaMeanAcrossBranches_ok.mp h
    obtain ⟨fused', hfused', hrows⟩ :=
      (fusionLaw_branches mergeNode).shuffle _ _ _ _ _ hfused hshuffled
    obtain ⟨width, hmeans⟩ := (fusionLaw_branches mergeNode).means _ _ _ hfused
    obtain ⟨width', hmeans'⟩ := (fusionLaw_branches mergeNode).means _ _ _ hfused'
    refine ⟨_, reduceProbaMeanAcrossBranches_ok.mpr ⟨fun b' hb' => ?_, fused', hfused', ?_, rfl⟩, ?_⟩
    · obtain ⟨b, hb, hbb'⟩ := hshuffled.exists_left hb'
      obtain ⟨hcontent, hwidth, hvalues⟩ := checkProbaBlock_ok.mp (hchecks b hb)
      refine checkProbaBlock_ok.mpr ⟨hbb'.content hcontent, ?_, fun row hrow => ?_⟩
      · rwa [hbb'.width hcontent]
      · exact hvalues row ((hbb'.values hcontent).subset hrow)
    · intro row hrow
      obtain ⟨s, hs⟩ := hmeans'.mem_values.mp hrow
      exact hpos row (hmeans.mem_values.mpr ⟨s, (hrows s).symm.trans hs⟩)
    · intro s
      rw [rowOf_map, rowOf_map, hrows]

end Across

end DagMl

import DagMl.Runtime.OofEvidence

/-!
# Training inputs

An input over inner folds has one row for each training sample of the outer
fold: the only row its blocks hold for the sample, or a placeholder where a
signed availability says that the sample has none.
-/

namespace DagMl

open Checked

/-- Without a signed presence every sample is present. -/
def PredictionInputSpec.presence (self : PredictionInputSpec) : List Bool :=
  self.sourcePresence.getD (List.replicate self.sampleIds.length true)

/-- An input with one row for each of the samples: the only row the blocks hold
for it, or a placeholder where the sample is signed as absent. -/
structure InnerTraining (blocks : List PredictionBlock) (samples : List SampleId)
    (input : PredictionInputSpec) : Prop where
  nodup : input.sampleIds.Nodup
  exact : input.sampleIds.toFinset = samples.toFinset
  aligned : input.presence.length = input.sampleIds.length
  rows : List.Forall₂ (fun entry row => evidenceRows blocks entry.1 = if entry.2 then [row] else [])
    (input.sampleIds.zip input.presence) input.values

section

variable {externals : Externals} {plan : ExecutionPlan} {edge : EdgeSpec} {scope : PhaseScope}
  {blocks : List PredictionBlock} {input raw : PredictionInputSpec} {samples : List SampleId}

/-- A training input needs one row at most for each sample. -/
theorem InnerTraining.length_le (h : InnerTraining blocks samples input) (hs : s ∈ samples) :
    (evidenceRows blocks s).length ≤ 1 := by
  have hs : s ∈ input.sampleIds := by
    rw [← List.mem_toFinset, h.exact]
    exact List.mem_toFinset.mpr hs
  have hfst : (input.sampleIds.zip input.presence).map Prod.fst = input.sampleIds :=
    List.map_fst_zip h.aligned.ge
  rw [← hfst] at hs
  obtain ⟨⟨s, present⟩, hentry, rfl⟩ := List.mem_map.mp hs
  obtain ⟨row, -, hrow⟩ := exists_right_of_mem h.rows hentry
  rw [hrow]
  cases present <;> simp

/-- Joined blocks are a training input when they repeat no sample. -/
theorem InnerTraining.of_joined (h : predictionInputSpec edge scope blocks false = .ok input)
    (hexact : input.sampleIds.toFinset = samples.toFinset) :
    InnerTraining blocks samples input := by
  obtain ⟨hrows, hnodup⟩ := predictionInputSpec_ok h
  have hpresence : input.presence = List.replicate input.sampleIds.length true := by
    simp only [predictionInputSpec, bind_ok, pure_ok] at h
    obtain ⟨joined, -, rfl⟩ := h
    rfl
  refine ⟨hrows.nodup, hexact, by simp [hpresence], ?_⟩
  rw [hpresence]
  have hsingle := hrows.single (hnodup rfl)
  generalize input.sampleIds = ids at hsingle ⊢
  generalize input.values = values at hsingle ⊢
  induction hsingle with
  | nil => exact .nil
  | cons hrow _ ih => exact .cons hrow ih

theorem mem_presentSamples {presence : List Bool} :
    s ∈ presentSamples samples presence ↔ (s, true) ∈ samples.zip presence := by
  simp [presentSamples]

/-- What an expansion has checked, and the rows it makes. -/
structure Expanded (raw input : PredictionInputSpec) (requested : List SampleId)
    (presence : List Bool) : Prop where
  nodup : requested.Nodup
  length_eq : presence.length = requested.length
  present_iff : ∀ s, s ∈ raw.sampleIds ↔ (s, true) ∈ requested.zip presence
  sampleIds_eq : input.sampleIds = requested
  presence_eq : input.sourcePresence = some presence
  rows : List.Forall₂ (fun entry row => entry.2 = true → (entry.1, row) ∈ raw.sampleIds.zip raw.values)
    (requested.zip presence) input.values

theorem expandAvailablePredictionInput_ok (hraw : raw.sampleIds.Nodup)
    (h : expandAvailablePredictionInput floats signed source raw requested presence = .ok input) :
    Expanded raw input requested presence := by
  simp only [expandAvailablePredictionInput, bind_ok, pure_ok, refuseIf_ok, not_or, not_not] at h
  obtain ⟨_, ⟨hvalues, hlength, hnodup⟩, names, -, _, ⟨-, hkeys, -⟩, _, -, values, hcollect, _, -, rfl⟩ := h
  have hfst : (raw.sampleIds.zip raw.values).map Prod.fst = raw.sampleIds :=
    List.map_fst_zip hvalues.ge
  have hfunctional := BTreeMap.functional_of_nodup (hfst.symm ▸ hraw)
  refine ⟨hnodup, hlength.symm, fun s => ?_, rfl, rfl, ?_⟩
  · have hkey : s ∈ raw.sampleIds ↔ s ∈ BTreeMap.collect (raw.sampleIds.zip raw.values) := by
      have hzip : s ∈ (raw.sampleIds.zip raw.values).map Prod.fst ↔
          ∃ row, (s, row) ∈ raw.sampleIds.zip raw.values := by simp
      rw [hfst] at hzip
      simpa only [BTreeMap.mem_iff, BTreeMap.getElem?_collect hfunctional] using hzip
    rw [hkey, ← mem_presentSamples, ← List.mem_toFinset, ← hkeys, List.mem_toFinset,
      Std.ExtTreeMap.mem_keys]
  · refine (collect_ok.mp hcollect).imp fun entry row hrow hpresent => ?_
    obtain ⟨s, present⟩ := entry
    obtain rfl : present = true := hpresent
    rw [expandedRow, if_pos rfl, need_ok] at hrow
    exact (BTreeMap.getElem?_collect hfunctional).mp hrow

/-- A joined sample has rows, and only a joined sample has. -/
theorem RowsOf.evidence_iff (h : RowsOf blocks raw) : evidenceRows blocks s ≠ [] ↔ s ∈ raw.sampleIds := by
  rw [evidenceRows, BTreeMap.bucket_ne_nil, map_fst_flatMap_rows fun block hblock =>
    (h.content block hblock).1, ← List.mem_toFinset, ← h.covers, List.mem_toFinset]

theorem RowsOf.only (h : RowsOf blocks raw) (hrow : (s, row) ∈ raw.sampleIds.zip raw.values)
    (hsingle : (evidenceRows blocks s).length ≤ 1) : evidenceRows blocks s = [row] := by
  obtain ⟨hne, rfl⟩ := (List.forall₂_iff_zip.mp h.rows).2 hrow
  cases hrows : evidenceRows blocks s with
  | nil => exact absurd hrows hne
  | cons first rest =>
    rw [hrows, List.length_cons] at hsingle
    obtain rfl := List.length_eq_zero_iff.mp (by omega : rest.length = 0)
    rfl

/-- An expanded input is a training input when the blocks repeat no sample. -/
theorem InnerTraining.of_available {folds : FoldSet}
    (h : availableOofInput externals plan edge scope blocks folds requested = .ok (some input))
    (hexact : input.sampleIds.toFinset = samples.toFinset)
    (hsingle : ∀ s ∈ samples, (evidenceRows blocks s).length ≤ 1) :
    InnerTraining blocks samples input := by
  simp only [availableOofInput, bind_ok] at h
  obtain ⟨_ | signed, -, h⟩ := h
  · cases h
  simp only [bind_ok, pure_ok, Option.some.injEq] at h
  obtain ⟨_, -, source, -, _, -, _, -, raw, hraw, presence, -, out, hexpand, rfl⟩ := h
  obtain ⟨hrows, -⟩ := predictionInputSpec_ok hraw
  have hout := expandAvailablePredictionInput_ok hrows.nodup hexpand
  have hpresence : out.sourcePresence.getD (List.replicate out.sampleIds.length true) = presence := by
    rw [hout.presence_eq, Option.getD_some]
  refine ⟨hout.sampleIds_eq ▸ hout.nodup, hexact, ?_, ?_⟩
  · rw [PredictionInputSpec.presence, hpresence, hout.length_eq, hout.sampleIds_eq]
  · rw [PredictionInputSpec.presence, hpresence, hout.sampleIds_eq]
    refine ((List.forall₂_and_left _ _).mpr ⟨fun _ hmem => hmem, hout.rows⟩).imp ?_
    rintro ⟨s, present⟩ row ⟨hentry, hrow⟩
    have hs : s ∈ samples := by
      rw [← List.mem_toFinset, ← hexact, hout.sampleIds_eq, List.mem_toFinset]
      exact (List.of_mem_zip hentry).1
    cases present with
    | true => exact hrows.only (hrow rfl) (hsingle s hs)
    | false =>
      by_contra hne
      have hpresent := (hout.present_iff s).mp (hrows.evidence_iff.mp hne)
      -- a requested sample is listed once
      have hkeys : ((requested.zip presence).map Prod.fst).Nodup := by
        rw [List.map_fst_zip hout.length_eq.ge]
        exact hout.nodup
      cases List.inj_on_of_nodup_map hkeys hentry hpresent rfl

end

end DagMl

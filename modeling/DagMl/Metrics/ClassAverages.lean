import Mathlib
import DagMl.Metrics.ClassFoldRuns
import DagMl.Oof.ResidualLaws

/-!
# Mean class probabilities

Mean probabilities over the union of the classes of all folds, and when combining
class predictions goes through at all.
-/

namespace DagMl

open Checked Keyed Voting

variable {K : Type} [Field K] [LinearOrder K]

-- ---------------------------------------------------------------------------
-- Sums over the classes
-- ---------------------------------------------------------------------------

omit [LinearOrder K] in
/-- What the classes get of a row is the whole row. -/
theorem sum_classSum {classes : List Binary64} {row : List (Binary64 × K)} (hn : classes.Nodup)
    (hmem : ∀ e ∈ row, e.1 ∈ classes)
    (heq : ∀ e ∈ row, ∀ c ∈ classes, e.1.eq c = true ↔ e.1 = c) :
    (classes.map (classSum row)).sum = (row.map Prod.snd).sum := by
  induction row with
  | nil =>
    have hzero : classes.map (classSum ([] : List (Binary64 × K))) = classes.map fun _ => 0 := rfl
    simp [hzero]
  | cons e row ih =>
    rw [List.forall_mem_cons] at hmem heq
    have hsplit : classes.map (classSum (e :: row)) =
        classes.map fun c => (if c = e.1 then e.2 else 0) + classSum row c := by
      refine List.map_congr_left fun c hc => ?_
      have hc' := heq.1 c hc
      by_cases hlabel : e.1 = c
      · subst hlabel
        simp [classSum, hc'.mpr rfl]
      · have hfalse : e.1.eq c = false := by simpa using mt hc'.mp hlabel
        simp [classSum, hfalse, Ne.symm hlabel]
    have hone : (classes.map fun c => if c = e.1 then e.2 else 0).sum = e.2 := by
      rw [← List.sum_toFinset _ hn, Finset.sum_ite_eq', if_pos (List.mem_toFinset.mpr hmem.1)]
    rw [hsplit, List.sum_map_add, hone, ih hmem.2 heq.2, List.map_cons, List.sum_cons]

theorem validate_not_panics {p : ClassificationProbabilityBlock K} : ¬Panics p.validate := by
  rw [ClassificationProbabilityBlock.validate, panics_refuseIf (not_isPanic_runtime _),
    panics_refuseIf (not_isPanic_runtime _)]
  rintro ⟨-, -, e, he, hpanic⟩
  obtain ⟨row, -, hrow⟩ := exists_of_each_error he
  obtain ⟨-, rfl⟩ := refuseIf_error.mp hrow
  exact not_isPanic_runtime _ hpanic

-- ---------------------------------------------------------------------------
-- Matching
-- ---------------------------------------------------------------------------

section

variable {blocks : List PredictionBlock} {probabilityBlocks : List (ClassificationProbabilityBlock K)}
  {average : PredictionBlock}

theorem toList_head? {α : Type} {l : List α} (h : l.length ≤ 1) : l.head?.toList = l := by
  cases l with
  | nil => rfl
  | cons a l =>
    cases l with
    | nil => rfl
    | cons b l => simp at h

theorem loop_pushMatched (hvalid : ∀ p ∈ probabilityBlocks, p.Valid) :
    loop (pushMatched probabilityBlocks) matched blocks = .ok out ↔
      (∀ block ∈ blocks, (probabilityCandidates probabilityBlocks block).length ≤ 1) ∧
      out = matched ++ blocks.flatMap (probabilityCandidates probabilityBlocks) := by
  induction blocks generalizing matched with
  | nil => simp [eq_comm]
  | cons block blocks ih =>
    have hcandidates : ∀ p ∈ probabilityCandidates probabilityBlocks block, p.Valid :=
      fun p hp => hvalid p (List.mem_of_mem_filter hp)
    simp only [loop_cons, pushMatched, bind_ok, refuseIf_ok, not_lt, whenSome_ok, pure_ok, ih,
      List.forall_mem_cons, List.flatMap_cons]
    constructor
    · rintro ⟨_, ⟨_, hone, _, -, rfl⟩, hrest, rfl⟩
      exact ⟨⟨hone, hrest⟩, by rw [toList_head? hone, List.append_assoc]⟩
    · rintro ⟨⟨hone, hrest⟩, rfl⟩
      refine ⟨_, ⟨(), hone, (), fun p hp => ?_, rfl⟩, hrest, ?_⟩
      · exact ClassificationProbabilityBlock.validate_ok.mpr (hcandidates p (List.mem_of_mem_head? hp))
      · rw [toList_head? hone, List.append_assoc]

theorem loop_pushMatched_not_panics (hvalid : ∀ p ∈ probabilityBlocks, p.Valid) :
    ¬Panics (loop (pushMatched probabilityBlocks) matched blocks) := by
  intro hpanics
  obtain ⟨before, block, after, state, -, -, hstep⟩ := failsAs_loop hpanics
  rw [pushMatched, failsAs_bind, failsAs_refuseIf] at hstep
  simp only [not_isPanic_oof, and_false, false_or] at hstep
  obtain ⟨_, -, hstep⟩ := hstep
  rcases failsAs_bind.mp hstep with hcheck | ⟨_, -, hnone⟩
  · cases hhead : (probabilityCandidates probabilityBlocks block).head? with
    | none => simp [hhead, whenSome] at hcheck
    | some p =>
      have hp := hvalid p (List.mem_of_mem_filter (List.mem_of_mem_head? hhead))
      have hok : p.validate = .ok () := ClassificationProbabilityBlock.validate_ok.mpr hp
      simp [hhead, whenSome, hok] at hcheck
  · exact failsAs_pure.mp hnone

/-- Every block has exactly one block of probabilities. -/
def EachMatched (blocks : List PredictionBlock)
    (probabilityBlocks : List (ClassificationProbabilityBlock K)) : Prop :=
  ∀ block ∈ blocks, ∃ p, probabilityCandidates probabilityBlocks block = [p]

omit [Field K] [LinearOrder K] in
/-- At most one for each, and as many as blocks, is exactly one for each. -/
theorem eachMatched_of_length
    (hone : ∀ block ∈ blocks, (probabilityCandidates probabilityBlocks block).length ≤ 1)
    (hlength : (blocks.flatMap (probabilityCandidates probabilityBlocks)).length = blocks.length) :
    EachMatched blocks probabilityBlocks := by
  have hle (blocks : List PredictionBlock)
      (hone : ∀ block ∈ blocks, (probabilityCandidates probabilityBlocks block).length ≤ 1) :
      (blocks.flatMap (probabilityCandidates probabilityBlocks)).length ≤ blocks.length := by
    induction blocks with
    | nil => simp
    | cons block blocks ih =>
      rw [List.forall_mem_cons] at hone
      rw [List.flatMap_cons, List.length_append, List.length_cons]
      have hrest := ih hone.2
      omega
  intro block hblock
  obtain ⟨before, after, rfl⟩ := List.append_of_mem hblock
  rw [List.flatMap_append, List.flatMap_cons, List.length_append, List.length_append,
    List.length_append, List.length_cons] at hlength
  have hbefore := hle before fun b hb => hone b (by simp [hb])
  have hafter := hle after fun b hb => hone b (by simp [hb])
  have hblock := hone block (by simp)
  exact List.length_eq_one_iff.mp (by omega)

omit [Field K] [LinearOrder K] in
theorem length_of_eachMatched (h : EachMatched blocks probabilityBlocks) :
    (blocks.flatMap (probabilityCandidates probabilityBlocks)).length = blocks.length ∧
      ∀ block ∈ blocks, (probabilityCandidates probabilityBlocks block).length ≤ 1 := by
  constructor
  · induction blocks with
    | nil => rfl
    | cons block blocks ih =>
      obtain ⟨p, hp⟩ := h block List.mem_cons_self
      have hrest := ih fun b hb => h b (List.mem_cons_of_mem _ hb)
      simp [hp, hrest]
  · intro block hblock
    obtain ⟨p, hp⟩ := h block hblock
    simp [hp]

end

-- ---------------------------------------------------------------------------
-- Sums
-- ---------------------------------------------------------------------------

section

variable {matched : List (ClassificationProbabilityBlock K)}

/-- The labelled rows that blocks hold for a sample. -/
def rowsFor (matched : List (ClassificationProbabilityBlock K)) (s : SampleId) :
    List (List (Binary64 × K)) :=
  (matched.filter (s ∈ ·.sampleIds)).map fun p => p.classLabels.zip (p.rowOf s)

omit [Field K] [LinearOrder K] in
theorem labelledRows_labels {p : ClassificationProbabilityBlock K} (he : e ∈ p.labelledRows)
    (hx : x ∈ e.2) : x.1 ∈ p.classLabels := by
  obtain ⟨entry, -, rfl⟩ := List.mem_map.mp he
  exact (List.of_mem_zip hx).1

theorem map_fst_labelledRows {p : ClassificationProbabilityBlock K} (h : p.Valid) :
    p.labelledRows.map Prod.fst = p.sampleIds := by
  rw [ClassificationProbabilityBlock.labelledRows, List.map_map]
  exact List.map_fst_zip h.length_eq.le

/-- A block holds one row for each of its samples. -/
theorem filter_labelledRows {p : ClassificationProbabilityBlock K} (h : p.Valid) (s : SampleId) :
    (p.labelledRows.filter (·.1 = s)).map Prod.snd =
      if s ∈ p.sampleIds then [p.classLabels.zip (p.rowOf s)] else [] := by
  have hn : (p.labelledRows.map Prod.fst).Nodup := map_fst_labelledRows h ▸ h.nodup
  split
  · rename_i hs
    obtain ⟨i, hi⟩ := Option.isSome_iff_exists.mp (List.isSome_idxOf?.mpr hs)
    obtain ⟨hlt, heq, -⟩ := List.idxOf?_eq_some_iff.mp hi
    have heq : p.sampleIds[i] = s := by simpa using heq
    have hlt' : i < p.values.length := h.length_eq ▸ hlt
    have hrow : p.rowOf s = p.values[i] := by
      rw [ClassificationProbabilityBlock.rowOf, lookup_zip, hi]
      simp [hlt']
    have hmem : (s, p.classLabels.zip (p.rowOf s)) ∈ p.labelledRows := by
      refine List.mem_map.mpr ⟨(s, p.rowOf s), ?_, rfl⟩
      rw [hrow, List.mem_iff_getElem]
      exact ⟨i, by simp [hlt, hlt'], by simp [heq]⟩
    have hfilter := filter_key_of_nodup hn hmem
    rw [hfilter]
    rfl
  · rename_i hs
    rw [List.map_eq_nil_iff, List.filter_eq_nil_iff]
    intro e he heq
    have hmem := List.mem_map_of_mem he (f := Prod.fst)
    rw [map_fst_labelledRows h, of_decide_eq_true heq] at hmem
    exact hs hmem

theorem filter_entries (h : ∀ p ∈ matched, p.Valid) (s : SampleId) :
    ((matched.flatMap (·.labelledRows)).filter (·.1 = s)).map Prod.snd = rowsFor matched s := by
  induction matched with
  | nil => rfl
  | cons p matched ih =>
    rw [List.forall_mem_cons] at h
    rw [List.flatMap_cons, List.filter_append, List.map_append, ih h.2, filter_labelledRows h.1]
    by_cases hs : s ∈ p.sampleIds
    · simp [rowsFor, hs]
    · simp [rowsFor, hs]

/-- A slot holds the sums of these rows class by class, and how many they are. -/
structure ClassSlot (classes : List Binary64) (rows : List (List (Binary64 × K)))
    (slot : List K × Nat) : Prop where
  sums : slot.1 = classes.map fun c => (rows.map fun row => classSum row c).sum
  count : slot.2 = rows.length

variable {classes : List Binary64}

omit [LinearOrder K] in
/-- The loop over the rows leaves each sample the slot of its own rows. -/
theorem loop_addProbabilityRow {entries : List (SampleId × List (Binary64 × K))}
    (hn : classes.Nodup)
    (heq : ∀ entry ∈ entries, ∀ e ∈ entry.2, ∀ c ∈ classes, e.1.eq c = true ↔ e.1 = c)
    (hloop : loop (addProbabilityRow classes) ∅ entries = .ok sums) (s : SampleId) :
    ClassSlot classes ((entries.filter (·.1 = s)).map Prod.snd)
      (sums.getD s (classes.map fun _ => 0, 0)) ∧
    (s ∈ sums ↔ s ∈ entries.map Prod.fst) := by
  induction entries using List.reverseRecOn generalizing sums with
  | nil =>
    cases hloop
    refine ⟨⟨by simp, by simp⟩, by simp⟩
  | append_singleton entries entry ih =>
    obtain ⟨hbefore, hlast⟩ := List.forall_mem_append.mp heq
    obtain ⟨sums', hloop', hstep⟩ := loop_append.mp hloop
    obtain ⟨hslot, hmem⟩ := ih hbefore hloop'
    obtain ⟨_, hstep, hdone⟩ := loop_cons.mp hstep
    cases hdone
    simp only [addProbabilityRow, bind_ok, pure_ok] at hstep
    obtain ⟨sum, hsum, rfl⟩ := hstep
    rw [Std.ExtTreeMap.getD_insert, List.filter_append, List.map_append, List.map_append,
      List.mem_append, Std.ExtTreeMap.mem_insert, hmem]
    simp only [Std.LawfulEqCmp.compare_eq_iff_eq]
    refine ⟨?_, ?_⟩
    · split
      · rename_i hs
        subst hs
        rw [hslot.sums, addAligned_ok hn (hlast entry (List.mem_singleton_self entry))] at hsum
        constructor
        · rw [hsum.2]
          simp
        · rw [List.length_append, hslot.count]
          simp
      · rename_i hs
        simpa [hs] using hslot
    · rw [List.map_singleton, List.mem_singleton, or_comm, eq_comm (a := s)]

/-- The labels of all matched blocks. -/
def matchedLabels (matched : List (ClassificationProbabilityBlock K)) : List Binary64 :=
  matched.flatMap (·.classLabels)

theorem matchedLabels_finite (h : ∀ p ∈ matched, p.Valid) :
    ∀ label ∈ matchedLabels matched, label.isFinite = true := by
  intro label hlabel
  obtain ⟨p, hp, hlabel⟩ := List.mem_flatMap.mp hlabel
  exact (h p hp).labels_finite label hlabel

omit [Field K] [LinearOrder K] in
theorem mem_matchedLabels {entry : SampleId × List (Binary64 × K)}
    (hentry : entry ∈ matched.flatMap (·.labelledRows)) (he : e ∈ entry.2) :
    e.1 ∈ matchedLabels matched := by
  obtain ⟨p, hp, hentry⟩ := List.mem_flatMap.mp hentry
  exact List.mem_flatMap.mpr ⟨p, hp, labelledRows_labels hentry he⟩

/-- Every label stands in some row. -/
theorem exists_entry (h : ∀ p ∈ matched, p.Valid) (hlabel : label ∈ matchedLabels matched) :
    ∃ entry ∈ matched.flatMap (·.labelledRows), ∃ e ∈ entry.2, e.1 = label := by
  obtain ⟨p, hp, hlabel⟩ := List.mem_flatMap.mp hlabel
  have hvalid := h p hp
  have hpos : 0 < (p.sampleIds.zip p.values).length := by
    rw [List.length_zip, ← hvalid.length_eq, Nat.min_self]
    exact List.length_pos_iff.mpr hvalid.samples_ne
  obtain ⟨⟨s, row⟩, hrow⟩ := List.exists_mem_of_length_pos hpos
  have hlength := (hvalid.rows row (List.of_mem_zip hrow).2).1
  refine ⟨(s, p.classLabels.zip row), ?_, ?_⟩
  · exact List.mem_flatMap.mpr ⟨p, hp, List.mem_map.mpr ⟨(s, row), hrow, rfl⟩⟩
  · have hfst : (p.classLabels.zip row).map Prod.fst = p.classLabels := List.map_fst_zip hlength.ge
    rw [← hfst] at hlabel
    exact List.mem_map.mp hlabel

omit [LinearOrder K] in
theorem addProbabilityRow_labels {sums : BTreeMap SampleId (List K × Nat)}
    (h : addProbabilityRow classes sums entry = .ok t) : ∀ e ∈ entry.2, e.1 ∈ classes := by
  simp only [addProbabilityRow, bind_ok] at h
  obtain ⟨sum, hsum, -⟩ := h
  exact addAligned_labels hsum

omit [LinearOrder K] in
theorem addProbabilityRow_panics {sums : BTreeMap SampleId (List K × Nat)} :
    Panics (addProbabilityRow classes sums entry) ↔ ∃ e ∈ entry.2, e.1 ∉ classes := by
  rw [addProbabilityRow, panics_bind, addAligned_panics]
  simp

/-- The sums go through exactly if the two zeros are not both there; they never refuse. -/
theorem addMatched_panics (h : ∀ p ∈ matched, p.Valid) :
    Panics (loop (fun sums block => loop (addProbabilityRow (classUniverse (matchedLabels matched)))
      sums (block : ClassificationProbabilityBlock K).labelledRows) ∅ matched) ↔
        BothZeros (matchedLabels matched) := by
  have hfinite := matchedLabels_finite h
  constructor
  · intro hpanics
    obtain ⟨before, p, after, sums, hmatched, -, hinner⟩ := failsAs_loop hpanics
    obtain ⟨before', entry, after', sums', hrows, -, hstep⟩ := failsAs_loop hinner
    obtain ⟨e, he, hlost⟩ := addProbabilityRow_panics.mp hstep
    have hentry : entry ∈ matched.flatMap (·.labelledRows) :=
      List.mem_flatMap.mpr ⟨p, by simp [hmatched], by simp [hrows]⟩
    have hlabel := mem_matchedLabels hentry he
    obtain ⟨hneg, hzero⟩ := lost_label hfinite hlabel hlost
    exact ⟨hneg, hzero ▸ hlabel⟩
  · rintro ⟨hneg, hzero⟩
    refine FailsOnlyAs.failsAs (FailsOnlyAs.loop fun sums p _ => FailsOnlyAs.loop fun sums' entry _ =>
      addAligned_not_refused.bind fun _ _ => failsOnlyAs_ok) fun t ht => ?_
    obtain ⟨entry, hentry, e, he, heq⟩ := exists_entry h hzero
    have hlabels := loop_forall (fun sums x t hstep => addProbabilityRow_labels hstep)
      (loop_flatMap.mpr ht)
    have hfound := hlabels entry hentry e he
    rw [heq, mem_classUniverse hfinite] at hfound
    exact hfound.2 rfl hneg

-- ---------------------------------------------------------------------------
-- Mean rows
-- ---------------------------------------------------------------------------

/-- The mean, class by class, of the rows that the blocks hold for a sample. -/
structure IsMeanRow (matched : List (ClassificationProbabilityBlock K)) (classes : List Binary64)
    (s : SampleId) (row : List K) : Prop where
  held : rowsFor matched s ≠ []
  formula : row = classes.map fun c =>
    ((rowsFor matched s).map fun r => classSum r c).sum / (rowsFor matched s).length

/-- Rows of means over the union of the classes. -/
structure IsMeanOf (matched : List (ClassificationProbabilityBlock K)) (average : PredictionBlock)
    (averaged : ClassificationProbabilityBlock K) : Prop where
  samples : averaged.sampleIds = average.sampleIds
  union : ∀ c, c ∈ averaged.classLabels ↔ ∃ p ∈ matched, c ∈ p.classLabels
  ascending : averaged.classLabels.Pairwise fun a b => a.key < b.key
  means : List.Forall₂ (IsMeanRow matched averaged.classLabels) averaged.sampleIds averaged.values
  distributions : ∀ row ∈ averaged.values, IsProbabilityRow averaged.classLabels.length row
  exact : (∀ p ∈ matched, ∀ row ∈ p.values, row.sum = 1) → ∀ row ∈ averaged.values, row.sum = 1

omit [LinearOrder K] in
theorem sum_exchange {rows : List (List (Binary64 × K))} :
    (classes.map fun c => (rows.map fun r => classSum r c).sum).sum =
      (rows.map fun r => (classes.map (classSum r)).sum).sum := by
  induction rows with
  | nil => simp
  | cons r rows ih => simp [List.sum_map_add, ih]

theorem mem_rowsFor (h : ∀ p ∈ matched, p.Valid) (hr : r ∈ rowsFor matched s) :
    (∀ e ∈ r, e.1 ∈ matchedLabels matched) ∧ ∃ p ∈ matched, ∃ row ∈ p.values, r.map Prod.snd = row := by
  rw [← filter_entries h s] at hr
  obtain ⟨entry, hentry, rfl⟩ := List.mem_map.mp hr
  have hentry := List.mem_of_mem_filter hentry
  refine ⟨fun e he => mem_matchedLabels hentry he, ?_⟩
  obtain ⟨p, hp, hentry⟩ := List.mem_flatMap.mp hentry
  obtain ⟨⟨s', row⟩, hrow, rfl⟩ := List.mem_map.mp hentry
  have hrow := (List.of_mem_zip hrow).2
  refine ⟨p, hp, row, hrow, List.map_snd_zip ?_⟩
  exact ((h p hp).rows row hrow).1.le

/-- The mean of rows that sum to one sums to one. -/
theorem IsMeanRow.sum_eq_one [IsStrictOrderedRing K] (h : ∀ p ∈ matched, p.Valid)
    (hzeros : ¬BothZeros (matchedLabels matched))
    (hone : ∀ p ∈ matched, ∀ row ∈ p.values, row.sum = 1)
    (hmean : IsMeanRow matched (classUniverse (matchedLabels matched)) s row) : row.sum = 1 := by
  have hfinite := matchedLabels_finite h
  have huniverse (c : Binary64) := mem_classUniverse_of_safe (x := c) hfinite hzeros
  have hrow : ∀ r ∈ rowsFor matched s,
      ((classUniverse (matchedLabels matched)).map (classSum r)).sum = 1 := by
    intro r hr
    obtain ⟨hlabels, p, hp, values, hvalues, hsnd⟩ := mem_rowsFor h hr
    rw [sum_classSum (nodup_classUniverse hfinite) (fun e he => (huniverse _).mpr (hlabels e he))
      fun e he c hc => eq_iff_of_not_bothZeros hfinite hzeros (hlabels e he) ((huniverse c).mp hc),
      hsnd, hone p hp values hvalues]
  have hcount : ((rowsFor matched s).length : K) ≠ 0 :=
    Nat.cast_ne_zero.mpr (List.length_pos_iff.mpr hmean.held).ne'
  have hscaled : row = ((classUniverse (matchedLabels matched)).map fun c =>
      ((rowsFor matched s).map fun r => classSum r c).sum).map (· / ((rowsFor matched s).length : K)) := by
    rw [hmean.formula, List.map_map]
    rfl
  rw [hscaled, WeightedRows.sum_map_div, sum_exchange, List.map_congr_left hrow]
  simp [hcount]

section

variable [IsStrictOrderedRing K]

theorem averageMatched_ok {average : PredictionBlock} (h : ∀ p ∈ matched, p.Valid)
    (hrun : averageMatched matched average = .ok averaged) : IsMeanOf matched average averaged := by
  have hfinite := matchedLabels_finite h
  simp only [averageMatched, bind_ok, pure_ok] at hrun
  obtain ⟨sums, hsums, values, hvalues, _, hvalid, rfl⟩ := hrun
  have hzeros : ¬BothZeros (matchedLabels matched) := by
    intro hboth
    obtain ⟨e, he, -⟩ := (addMatched_panics h).mpr hboth
    change loop (fun sums block => loop (addProbabilityRow (classUniverse (matchedLabels matched)))
      sums block.labelledRows) ∅ matched = .ok sums at hsums
    rw [hsums] at he
    cases he
  have hvalid := ClassificationProbabilityBlock.validate_ok.mp hvalid
  have hmeans : List.Forall₂ (IsMeanRow matched (classUniverse (matchedLabels matched)))
      average.sampleIds values := by
    refine (collect_ok.mp hvalues).imp fun s row hrow => ?_
    simp only [averageRow, bind_ok, need_ok, pure_ok] at hrow
    obtain ⟨slot, hslot, rfl⟩ := hrow
    obtain ⟨hsum, hmem⟩ := loop_addProbabilityRow (nodup_classUniverse hfinite)
      (fun entry hentry e he c hc => eq_iff_of_not_bothZeros hfinite hzeros
        (mem_matchedLabels hentry he) ((mem_classUniverse_of_safe hfinite hzeros).mp hc))
      (loop_flatMap.mpr hsums) s
    rw [Std.ExtTreeMap.getD_eq_getD_getElem?, hslot, Option.getD_some, filter_entries h] at hsum
    constructor
    · intro hnil
      have hkey := hmem.mp (BTreeMap.mem_iff.mpr ⟨slot, hslot⟩)
      obtain ⟨entry, hentry, hs⟩ := List.mem_map.mp hkey
      have hrow : entry.2 ∈ rowsFor matched s := by
        rw [← filter_entries h]
        exact List.mem_map_of_mem (List.mem_filter.mpr ⟨hentry, by simpa using hs⟩)
      rw [hnil] at hrow
      cases hrow
    · rw [hsum.sums, hsum.count, List.map_map]
      rfl
  refine ⟨rfl, fun c => ?_, pairwise_classUniverse hfinite, hmeans, hvalid.rows, fun hone row hrow => ?_⟩
  · rw [← List.mem_flatMap]
    exact mem_classUniverse_of_safe hfinite hzeros
  · obtain ⟨s, -, hmean⟩ := exists_left_of_mem hmeans hrow
    exact hmean.sum_eq_one h hzeros hone

omit [IsStrictOrderedRing K] in
theorem averageMatched_panics {average : PredictionBlock} (h : ∀ p ∈ matched, p.Valid) :
    Panics (averageMatched matched average) ↔ BothZeros (matchedLabels matched) := by
  rw [averageMatched, panics_bind_total]
  · exact addMatched_panics h
  · intro sums
    rw [panics_bind, not_or]
    refine ⟨fun hrows => ?_, ?_⟩
    · obtain ⟨before, s, after, rows, -, -, hrow⟩ := failsAs_collect hrows
      rw [averageRow, failsAs_bind, failsAs_need] at hrow
      simp at hrow
    · rintro ⟨values, -, hvalidate⟩
      rcases panics_bind.mp hvalidate with hpanics | ⟨_, -, hpure⟩
      · exact validate_not_panics hpanics
      · exact failsAs_pure.mp hpure

end

end

-- ---------------------------------------------------------------------------
-- Combining goes through
-- ---------------------------------------------------------------------------

section

variable {blocks : List PredictionBlock} {probabilityBlocks : List (ClassificationProbabilityBlock K)}
  {weights : Option (List K)} {foldLabel : String} {partition : PredictionPartition}
  {average : PredictionBlock}

/-- The folds elect a class for each sample, in whatever order they come. -/
structure ReducesFolds (blocks : List PredictionBlock)
    (probabilityBlocks : List (ClassificationProbabilityBlock K)) (weights : Option (List K))
    (foldLabel : String) (partition : PredictionPartition) : Prop where
  noPanic : ¬Panics (reduceClassificationFolds blocks probabilityBlocks weights foldLabel partition)
  elects : ∀ out,
    reduceClassificationFolds blocks probabilityBlocks weights foldLabel partition = .ok out →
      ElectsEach
        (foldVote weights.isSome (classificationFolds blocks probabilityBlocks weights partition)
          partition)
        (classificationFolds blocks probabilityBlocks weights partition) out
  unordered : ∀ out,
    reduceClassificationFolds blocks probabilityBlocks weights foldLabel partition = .ok out →
      ∀ blocks' weights', weights'.isSome = weights.isSome →
        (classificationFolds blocks' probabilityBlocks weights' partition).Perm
          (classificationFolds blocks probabilityBlocks weights partition) →
        ∃ out', reduceClassificationFolds blocks' probabilityBlocks weights' foldLabel partition =
          .ok out' ∧ out'.rows.Perm out.rows

/-- The mean probabilities are those of the blocks' own, one for each, or there are none. -/
structure AveragesFolds (blocks : List PredictionBlock)
    (probabilityBlocks : List (ClassificationProbabilityBlock K)) (average : PredictionBlock) :
    Prop where
  noPanic : ¬Panics (averageValidationProbabilities blocks probabilityBlocks average)
  absent : averageValidationProbabilities blocks probabilityBlocks average = .ok none →
    ∀ block ∈ blocks, probabilityCandidates probabilityBlocks block = []
  means : ∀ averaged,
    averageValidationProbabilities blocks probabilityBlocks average = .ok (some averaged) →
      EachMatched blocks probabilityBlocks ∧
        IsMeanOf (blocks.flatMap (probabilityCandidates probabilityBlocks)) average averaged

theorem averageValidationProbabilities_ok (hvalid : ∀ p ∈ probabilityBlocks, p.Valid)
    (hrun : averageValidationProbabilities blocks probabilityBlocks average = .ok result) :
    (result = none ∧ ∀ block ∈ blocks, probabilityCandidates probabilityBlocks block = []) ∨
    ∃ averaged, result = some averaged ∧ EachMatched blocks probabilityBlocks ∧
      averageMatched (blocks.flatMap (probabilityCandidates probabilityBlocks)) average =
        .ok averaged := by
  simp only [averageValidationProbabilities, bind_ok, loop_pushMatched hvalid, List.nil_append] at hrun
  obtain ⟨_, ⟨hone, rfl⟩, hrest⟩ := hrun
  split at hrest
  · rename_i hnil
    obtain rfl := pure_ok.mp hrest
    exact .inl ⟨rfl, List.flatMap_eq_nil_iff.mp hnil⟩
  · simp only [bind_ok, refuseIf_ok, pure_ok, not_not] at hrest
    obtain ⟨_, hlength, averaged, haveraged, rfl⟩ := hrest
    exact .inr ⟨averaged, rfl, eachMatched_of_length hone hlength, haveraged⟩

theorem averageValidationProbabilities_panics (hvalid : ∀ p ∈ probabilityBlocks, p.Valid) :
    Panics (averageValidationProbabilities blocks probabilityBlocks average) ↔
      EachMatched blocks probabilityBlocks ∧
        BothZeros (matchedLabels (blocks.flatMap (probabilityCandidates probabilityBlocks))) := by
  have hmatched : ∀ p ∈ blocks.flatMap (probabilityCandidates probabilityBlocks), p.Valid := by
    intro p hp
    obtain ⟨block, -, hp⟩ := List.mem_flatMap.mp hp
    exact hvalid p (List.mem_of_mem_filter hp)
  have hend (matched : List (ClassificationProbabilityBlock K)) :
      Panics (averageMatched matched average >>= fun averaged => pure (some averaged)) ↔
        Panics (averageMatched matched average) :=
    panics_bind_total fun averaged => by simp
  constructor
  · intro hpanics
    rw [averageValidationProbabilities, panics_bind] at hpanics
    rcases hpanics with hloop | ⟨matched, hloop, hrest⟩
    · exact absurd hloop (loop_pushMatched_not_panics hvalid)
    · obtain ⟨hone, hmatch⟩ := (loop_pushMatched hvalid).mp hloop
      obtain rfl : matched = blocks.flatMap (probabilityCandidates probabilityBlocks) := hmatch
      split at hrest
      · exact absurd hrest (by simp)
      · rw [panics_refuseIf (not_isPanic_oof _), not_not, hend, averageMatched_panics hmatched] at hrest
        exact ⟨eachMatched_of_length hone hrest.1, hrest.2⟩
  · rintro ⟨heach, hzeros⟩
    obtain ⟨hlength, hone⟩ := length_of_eachMatched heach
    have hne : blocks.flatMap (probabilityCandidates probabilityBlocks) ≠ [] := by
      intro hnil
      rw [hnil] at hzeros
      cases hzeros.1
    have hloop : loop (pushMatched probabilityBlocks) [] blocks =
        .ok (blocks.flatMap (probabilityCandidates probabilityBlocks)) :=
      (loop_pushMatched hvalid).mpr ⟨hone, rfl⟩
    rw [averageValidationProbabilities, panics_bind_ok hloop, if_neg hne,
      panics_refuseIf (not_isPanic_oof _), not_not, hend, averageMatched_panics hmatched]
    exact ⟨hlength, hzeros⟩

variable [IsStrictOrderedRing K]

theorem admissible_classificationFolds (hblocks : ∀ block ∈ blocks, block.Content)
    (hvalid : ∀ p ∈ probabilityBlocks, p.Valid)
    (hweights : ∀ ws, weights = some ws → ws.length = blocks.length ∧ ∀ w ∈ ws, 0 ≤ w) :
    ∀ fold ∈ classificationFolds blocks probabilityBlocks weights partition, fold.Admissible := by
  intro fold hfold
  obtain ⟨⟨block, i⟩, hmem, rfl⟩ := List.mem_map.mp hfold
  have hget : blocks[i]? = some block := List.mem_zipIdx_iff_getElem?.mp hmem
  obtain ⟨hi, rfl⟩ := List.getElem?_eq_some_iff.mp hget
  refine ⟨hblocks _ (List.getElem_mem hi), fun p hp => hvalid p (List.mem_of_find?_eq_some hp), ?_⟩
  cases hw : weights with
  | none => exact ⟨1, rfl, zero_le_one⟩
  | some ws =>
    obtain ⟨hlength, hnonneg⟩ := hweights ws hw
    have hlt : i < ws.length := hlength ▸ hi
    exact ⟨ws[i], List.getElem?_eq_getElem hlt, hnonneg _ (List.getElem_mem hlt)⟩

/-- Combining class predictions goes through exactly where no fold's positive zero is looked
up among labels with a negative zero. -/
theorem combineClasses_iff (blocks : List PredictionBlock)
    (probabilityBlocks : List (ClassificationProbabilityBlock K)) (weights : Option (List K))
    (foldLabel : String) (partition : PredictionPartition) (average : PredictionBlock)
    (hblocks : ∀ block ∈ blocks, block.Content)
    (hvalid : ∀ p ∈ probabilityBlocks, p.Valid)
    (hweights : ∀ ws, weights = some ws → ws.length = blocks.length ∧ ∀ w ∈ ws, 0 ≤ w) :
    (ReducesFolds blocks probabilityBlocks weights foldLabel partition ↔ blocks ≠ [] ∧
      ¬ReachesZero
        (foldVote weights.isSome (classificationFolds blocks probabilityBlocks weights partition)
          partition)
        (classificationFolds blocks probabilityBlocks weights partition)) ∧
    (AveragesFolds blocks probabilityBlocks average ↔ ¬(EachMatched blocks probabilityBlocks ∧
      BothZeros (matchedLabels (blocks.flatMap (probabilityCandidates probabilityBlocks))))) := by
  have hadmissible : ∀ fold ∈ classificationFolds blocks probabilityBlocks weights partition,
      fold.Admissible := admissible_classificationFolds hblocks hvalid hweights
  have hpanics :
      Panics (reduceClassificationFolds blocks probabilityBlocks weights foldLabel partition) ↔
        classificationFolds blocks probabilityBlocks weights partition = [] ∨ ReachesZero
          (foldVote weights.isSome (classificationFolds blocks probabilityBlocks weights partition)
            partition)
          (classificationFolds blocks probabilityBlocks weights partition) :=
    combineFolds_panics hadmissible
  have hnil : classificationFolds blocks probabilityBlocks weights partition = [] ↔ blocks = [] := by
    simp [classificationFolds]
  have hmatched : ∀ p ∈ blocks.flatMap (probabilityCandidates probabilityBlocks), p.Valid := by
    intro p hp
    obtain ⟨block, -, hp⟩ := List.mem_flatMap.mp hp
    exact hvalid p (List.mem_of_mem_filter hp)
  rw [hnil] at hpanics
  refine ⟨⟨fun h => not_or.mp (mt hpanics.mpr h.noPanic), fun h => ?_⟩, ⟨fun h => ?_, fun h => ?_⟩⟩
  · constructor
    · exact mt hpanics.mp (not_or.mpr h)
    · exact fun out hrun => combineFolds_elects hadmissible hrun
    · intro out hrun blocks' weights' hsome hperm
      obtain ⟨out', hrun', hrows⟩ := combineFolds_perm hadmissible hperm hrun
      refine ⟨out', ?_, hrows⟩
      rw [reduceClassificationFolds, hsome]
      exact hrun'
  · exact mt (averageValidationProbabilities_panics hvalid).mpr h.noPanic
  · constructor
    · exact mt (averageValidationProbabilities_panics hvalid).mp h
    · intro hrun
      rcases averageValidationProbabilities_ok hvalid hrun with ⟨-, hnone⟩ | ⟨averaged, hsome, -⟩
      · exact hnone
      · cases hsome
    · intro averaged hrun
      rcases averageValidationProbabilities_ok hvalid hrun with ⟨hnone, -⟩ | ⟨other, hsome, heach, hmean⟩
      · cases hnone
      · cases hsome
        exact ⟨heach, averageMatched_ok hmatched hmean⟩

end

-- ---------------------------------------------------------------------------
-- A fold with each zero
-- ---------------------------------------------------------------------------

def polledModel : NodeId := ⟨"model:polled", by decide⟩
def polledX : SampleId := ⟨"polled:x", by decide⟩
def polledY : SampleId := ⟨"polled:y", by decide⟩
def polledFoldX : FoldId := ⟨"fold:polled.x", by decide⟩
def polledFoldY : FoldId := ⟨"fold:polled.y", by decide⟩

def polledBlock (foldId : FoldId) (s : SampleId) (label : Binary64) : PredictionBlock where
  predictionId := none
  producerNode := polledModel
  producerPort := none
  partition := .validation
  foldId := some foldId
  sampleIds := [s]
  values := [[label]]
  targetNames := []

def polledProbability (foldId : FoldId) (s : SampleId) (label : Binary64) :
    ClassificationProbabilityBlock ℚ where
  producerNode := polledModel
  producerPort := none
  partition := .validation
  foldId := some foldId
  sampleIds := [s]
  classLabels := [label]
  values := [[1]]

/-- Two folds, each with one sample, which they call by these labels. -/
def polledBlocks (x y : Binary64) : List PredictionBlock :=
  [polledBlock polledFoldX polledX x, polledBlock polledFoldY polledY y]

def polledProbabilities (x y : Binary64) : List (ClassificationProbabilityBlock ℚ) :=
  [polledProbability polledFoldX polledX x, polledProbability polledFoldY polledY y]

/-- One fold answers with a negative zero, the other with a positive one. -/
theorem combineClasses_lose_zero :
    (∀ block ∈ polledBlocks .negZero .zero, block.Content) ∧
    (∀ p ∈ polledProbabilities .negZero .zero, p.validate = .ok ()) ∧
    reduceClassificationFolds (polledBlocks .negZero .zero)
      ([] : List (ClassificationProbabilityBlock ℚ)) none "avg" .validation =
        .error (.panicked "class universe contains fold label") ∧
    averageValidationProbabilities (polledBlocks .negZero .zero)
      (polledProbabilities .negZero .zero) (polledBlock polledFoldX polledX .zero) =
        .error (.panicked "class label came from validated probability block") := by
  decide +kernel

theorem polled_accepted :
    (∀ block ∈ polledBlocks .zero .zero, block.Content) ∧
    (∀ p ∈ polledProbabilities .zero .zero, p.validate = .ok ()) ∧
    Binary64.negZero ∉ matchedLabels
      ((polledBlocks .zero .zero).flatMap
        (probabilityCandidates (polledProbabilities .zero .zero))) ∧
    Binary64.negZero ∉
      (foldVote true (classificationFolds (polledBlocks .zero .zero)
        (polledProbabilities .zero .zero) (some [1, 2]) .validation) .validation).allLabels
      (classificationFolds (polledBlocks .zero .zero) (polledProbabilities .zero .zero)
        (some [1, 2]) .validation) := by
  decide +kernel

/-- Two weighted folds that agree on the zero. -/
theorem combineClasses_iff_polled :
    ReducesFolds (polledBlocks .zero .zero) (polledProbabilities .zero .zero) (some [1, 2]) "avg"
      .validation ∧
    AveragesFolds (polledBlocks .zero .zero) (polledProbabilities .zero .zero)
      (polledBlock polledFoldX polledX .zero) := by
  obtain ⟨hblocks, hvalid, hmatched, hlabels⟩ := polled_accepted
  obtain ⟨hreduce, haverage⟩ := combineClasses_iff (polledBlocks .zero .zero)
    (polledProbabilities .zero .zero) (some [1, 2]) "avg" .validation
    (polledBlock polledFoldX polledX .zero) hblocks (fun p hp => ClassificationProbabilityBlock.validate_ok.mp (hvalid p hp)) (by
      rintro ws ⟨⟩
      exact ⟨rfl, by simp⟩)
  constructor
  · exact hreduce.mpr ⟨by simp [polledBlocks], fun hreach => hlabels hreach.negZero⟩
  · exact haverage.mpr fun hboth => hmatched hboth.2.1

end DagMl

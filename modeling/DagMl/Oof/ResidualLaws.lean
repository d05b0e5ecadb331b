import Mathlib
import DagMl.Oof.Residual

/-!
# What the residual stage computes

A residual is the observed row minus the mean of all base rows of the sample, over
whatever blocks hold them. That is the mean over the folds that validate the sample
exactly where the blocks are one for each fold, from one output port. The automatic
gate is the least-squares one, so a gated stage is never worse than its base.
-/

namespace DagMl

open Checked WeightedRows

variable {K : Type} [Field K]

-- ---------------------------------------------------------------------------
-- The sums
-- ---------------------------------------------------------------------------

/-- All rows that the blocks hold for a sample. -/
def pooledRows (blocks : List PredictionBlock) (s : SampleId) : List (List Binary64) :=
  ((blocks.flatMap (·.rows)).filter (·.1 = s)).map Prod.snd

/-- The sum of the rows of a sample, column by column. -/
def columnSum (rows : List (List Binary64)) (j : Nat) : K :=
  (rows.map fun row => entry (row.map Binary64.exact) j).sum

/-- A slot holds the sums of these rows and how many they are. -/
structure SlotOf (width : Nat) (rows : List (List Binary64)) (slot : List K × Nat) : Prop where
  width_eq : slot.1.length = width
  sums : ∀ j, entry slot.1 j = columnSum rows j
  count : slot.2 = rows.length

theorem SlotOf.empty (width : Nat) : SlotOf width [] (List.replicate width (0 : K), 0) := by
  constructor
  · exact List.length_replicate
  · simp [columnSum]
  · rfl

theorem SlotOf.add {slot : List K × Nat} (h : SlotOf width rows slot) (hrow : row.length = width) :
    SlotOf width (rows ++ [row])
      (addRow (fun value => value) slot.1 (row.map Binary64.exact), slot.2 + 1) := by
  constructor
  · rw [length_addRow, h.width_eq]
  · intro j
    rw [entry_addRow rfl (by rw [List.length_map, hrow, h.width_eq]), h.sums j]
    simp [columnSum]
  · simp [h.count]

/-- The loop over the rows leaves each sample the slot of its own rows. -/
theorem foldl_addPrediction {width : Nat} {entries : List (SampleId × List Binary64)}
    (hwidth : ∀ e ∈ entries, e.2.length = width) (s : SampleId) :
    SlotOf width ((entries.filter (·.1 = s)).map Prod.snd)
      ((entries.foldl (addPrediction (K := K) width) ∅).getD s (List.replicate width 0, 0)) := by
  induction entries using List.reverseRecOn with
  | nil => exact SlotOf.empty width
  | append_singleton entries e ih =>
    obtain ⟨hbefore, hlast⟩ := List.forall_mem_append.mp hwidth
    have hslot := ih hbefore
    rw [List.foldl_append, List.filter_append, List.map_append, List.foldl_cons, List.foldl_nil,
      addPrediction, Std.ExtTreeMap.getD_insert]
    simp only [Std.LawfulEqCmp.compare_eq_iff_eq]
    split
    · rename_i hs
      subst hs
      have hrow := hlast e (List.mem_singleton_self e)
      simpa using hslot.add hrow
    · rename_i hs
      simpa [hs] using hslot

-- ---------------------------------------------------------------------------
-- Accepted derivations
-- ---------------------------------------------------------------------------

/-- The residual of a sample: what the mean of all its base rows leaves of its
observed row. -/
structure PooledResidual (blocks : List PredictionBlock)
    (observedTargets : BTreeMap SampleId (List Binary64)) (s : SampleId) (residual : List K) :
    Prop where
  formula : ∃ observed, observedTargets[s]? = some observed ∧
    residual.length = observed.length ∧
    ∀ j, entry residual j = entry (observed.map Binary64.exact) j -
      columnSum (pooledRows blocks s) j / (pooledRows blocks s).length

/-- What an accepted derivation has been checked for and has computed. -/
structure DerivedResiduals (foldSet : FoldSet) (blocks : List PredictionBlock)
    (observedTargets : BTreeMap SampleId (List Binary64)) (targets : ResidualTargetSet K) :
    Prop where
  folds : foldSet.Valid
  gated : ∀ b ∈ blocks, b.Content ∧ OnValidationFold foldSet b
  samples : targets.sampleIds = foldSet.sampleIds
  residuals : List.Forall₂ (PooledResidual blocks observedTargets) targets.sampleIds targets.values

/-- All blocks are validation blocks of the width the loop ends with. -/
theorem checkBaseBlock_loop
    (h : loop (checkBaseBlock baseProducer) ⟨none, none⟩ blocks = .ok contract) :
    ∀ b ∈ blocks, b.partition = .validation ∧ contract.width = some b.width := by
  have hinv := loop_invariant (fun done (contract : BaseContract) =>
    ∀ b ∈ done, b.partition = .validation ∧ contract.width = some b.width) (by simp) ?_ h
  · exact hinv
  · intro done block contract contract' hdone hstep b hb
    simp only [checkBaseBlock, bind_ok, refuseIf_ok, PredictionBlock.validateContent_ok, pure_ok,
      not_not] at hstep
    obtain ⟨_, -, _, hvalidation, width, ⟨-, rfl⟩, _, hwidth, _, -, rfl⟩ := hstep
    rcases List.mem_append.mp hb with hb | hb
    · obtain ⟨hpartition, hsome⟩ := hdone b hb
      simp only [hsome, Option.any_some, decide_eq_true_eq, not_not] at hwidth
      exact ⟨hpartition, congrArg some hwidth.symm⟩
    · obtain rfl := List.mem_singleton.mp hb
      exact ⟨hvalidation, rfl⟩

theorem residualRow_ok {blocks : List PredictionBlock} {width : Nat}
    {observedTargets : BTreeMap SampleId (List Binary64)} {residual : List K}
    (hwidth : ∀ e ∈ blocks.flatMap (·.rows), e.2.length = width)
    (h : residualRow observedTargets width
      ((blocks.flatMap (·.rows)).foldl (addPrediction width) ∅) s = .ok residual) :
    PooledResidual blocks observedTargets s residual := by
  simp only [residualRow, bind_ok, need_ok, refuseIf_ok, not_or, not_not, pure_ok] at h
  obtain ⟨observed, hobserved, _, ⟨hlength, -⟩, slot, hslot, rfl⟩ := h
  have hsums := foldl_addPrediction (K := K) hwidth s
  rw [Std.ExtTreeMap.getD_eq_getD_getElem?, hslot, Option.getD_some] at hsums
  refine ⟨observed, hobserved, ?_, fun j => ?_⟩
  · rw [List.length_zipWith, List.length_map, hsums.width_eq, hlength, Nat.min_self]
  · have hlen : (observed.map (Binary64.exact (K := K))).length = slot.1.length := by
      rw [List.length_map, hlength, hsums.width_eq]
    rw [entry_zipWith (by simp) hlen, hsums.sums j, hsums.count]
    rfl

theorem deriveResidualTargets_ok {foldSet : FoldSet} {blocks : List PredictionBlock}
    {observedTargets : BTreeMap SampleId (List Binary64)} {targets : ResidualTargetSet K}
    (h : deriveResidualTargets foldSet baseProducer blocks observedTargets = .ok targets) :
    DerivedResiduals foldSet blocks observedTargets targets := by
  simp only [deriveResidualTargets, bind_ok, need_ok, collect_ok, pure_ok] at h
  obtain ⟨_, hfolds, _, -, contract, hcontract, _, hgated, _, -, width, hwidth, values, hvalues,
    rfl⟩ := h
  have hblocks := checkBaseBlock_loop hcontract
  have hcontent := validatePredictionBlocksAgainstFolds_ok hgated
  have hrows : ∀ e ∈ blocks.flatMap (·.rows), e.2.length = width := by
    intro e he
    obtain ⟨b, hb, he⟩ := List.mem_flatMap.mp he
    rw [(hcontent b hb).1.length_row he]
    exact Option.some.inj ((hblocks b hb).2.symm.trans hwidth)
  constructor
  case folds => exact FoldSet.validate_ok.mp hfolds
  case gated => exact fun b hb => ⟨(hcontent b hb).1, (hcontent b hb).2 (hblocks b hb).1⟩
  case samples => rfl
  case residuals => exact hvalues.imp fun s residual hrow => residualRow_ok hrows hrow

-- ---------------------------------------------------------------------------
-- One block for each fold
-- ---------------------------------------------------------------------------

/-- The blocks are one for each fold and come from one output port. -/
structure OneBlockPerFold (foldSet : FoldSet) (blocks : List PredictionBlock) : Prop where
  folds : (blocks.map (·.foldId)).Perm (foldSet.folds.map fun fold => some fold.foldId)
  port : ∃ port, ∀ block ∈ blocks, block.producerPort = port

theorem FoldSet.Valid.nodup_folds {foldSet : FoldSet} (h : foldSet.Valid) :
    (foldSet.folds.map fun fold => some fold.foldId).Nodup := by
  have hnodup := h.foldIds_nodup.map (Option.some_injective FoldId)
  rwa [List.map_map] at hnodup

/-- No fold has two blocks. -/
theorem OneBlockPerFold.nodup {foldSet : FoldSet} {blocks : List PredictionBlock}
    (h : OneBlockPerFold foldSet blocks) (hv : foldSet.Valid) : (blocks.map (·.foldId)).Nodup :=
  h.folds.nodup_iff.mpr hv.nodup_folds

/-- A fold holds one row for the sample, and it comes from this port. -/
def FoldRow (blocks : List PredictionBlock) (port : Option String) (s : SampleId)
    (fold : FoldAssignment) (row : List Binary64) : Prop :=
  ∃ block, blocks.filter (fun b => b.foldId = some fold.foldId && s ∈ b.sampleIds) = [block] ∧
    block.producerPort = port ∧ (s, row) ∈ block.rows

/-- The folds that validate a sample. -/
def FoldSet.validating (foldSet : FoldSet) (s : SampleId) : List FoldAssignment :=
  foldSet.folds.filter (s ∈ ·.validationSampleIds)

/-- The observed row minus the mean, over the folds that validate the sample, of the one
row each of them holds for it. -/
def FoldResidual (foldSet : FoldSet) (blocks : List PredictionBlock) (port : Option String)
    (observedTargets : BTreeMap SampleId (List Binary64)) (s : SampleId) (residual : List K) :
    Prop :=
  ∃ rows, List.Forall₂ (FoldRow blocks port s) (foldSet.validating s) rows ∧
    ∃ observed, observedTargets[s]? = some observed ∧ residual.length = observed.length ∧
      ∀ j, entry residual j =
        entry (observed.map Binary64.exact) j - columnSum rows j / rows.length

/-- Every residual is the one of its folds, all from one output port. -/
def ResidualsExact (foldSet : FoldSet) (blocks : List PredictionBlock)
    (observedTargets : BTreeMap SampleId (List Binary64)) (targets : ResidualTargetSet K) : Prop :=
  targets.sampleIds = foldSet.sampleIds ∧ ∃ port,
    List.Forall₂ (FoldResidual foldSet blocks port observedTargets) targets.sampleIds targets.values

section

variable {foldSet : FoldSet} {blocks : List PredictionBlock}
  {observedTargets : BTreeMap SampleId (List Binary64)} {targets : ResidualTargetSet K}

namespace DerivedResiduals

/-- A block of a fold has exactly the samples that the fold validates. -/
theorem mem_block (h : DerivedResiduals foldSet blocks observedTargets targets) (hb : b ∈ blocks)
    (hfold : fold ∈ foldSet.folds) (hid : b.foldId = some fold.foldId) :
    s ∈ b.sampleIds ↔ s ∈ fold.validationSampleIds := by
  obtain ⟨other, hother, hotherId, hsamples⟩ := (h.gated b hb).2
  have hsame : other = fold := by
    refine List.inj_on_of_nodup_map h.folds.foldIds_nodup hother hfold ?_
    exact Option.some.inj (hotherId.symm.trans hid)
  exact hsame ▸ hsamples s

/-- Where every residual is exact, a fold has one block. -/
theorem block_of_exact (h : DerivedResiduals foldSet blocks observedTargets targets)
    (hexact : List.Forall₂ (FoldResidual foldSet blocks port observedTargets)
      targets.sampleIds targets.values) (hfold : fold ∈ foldSet.folds) :
    ∃ block, blocks.filter (·.foldId = some fold.foldId) = [block] ∧
      block.producerPort = port := by
  obtain ⟨s, hs⟩ := List.exists_mem_of_ne_nil _ (h.folds.folds_valid fold hfold).validation_ne
  have hsample : s ∈ targets.sampleIds := by
    rw [h.samples]
    exact (h.folds.folds_valid fold hfold).validation_known s hs
  obtain ⟨residual, -, rows, hrows, -⟩ := exists_right_of_mem hexact hsample
  have hvalidating : fold ∈ foldSet.validating s := List.mem_filter.mpr ⟨hfold, by simpa using hs⟩
  obtain ⟨row, -, block, hfilter, hport, -⟩ := exists_right_of_mem hrows hvalidating
  refine ⟨block, ?_, hport⟩
  rw [← hfilter]
  refine List.filter_congr fun b hb => ?_
  by_cases hid : b.foldId = some fold.foldId
  · simp [hid, (h.mem_block hb hfold hid).mpr hs]
  · simp [hid]

theorem oneBlockPerFold_of_exact (h : DerivedResiduals foldSet blocks observedTargets targets)
    (hexact : ResidualsExact foldSet blocks observedTargets targets) :
    OneBlockPerFold foldSet blocks := by
  obtain ⟨-, port, hexact⟩ := hexact
  have hfolds := h.folds.nodup_folds
  have hblocks : (blocks.map (·.foldId)).Nodup := by
    rw [List.nodup_iff_count_le_one]
    intro id
    by_cases hid : id ∈ blocks.map (·.foldId)
    · obtain ⟨b, hb, rfl⟩ := List.mem_map.mp hid
      obtain ⟨fold, hfold, hfoldId, -⟩ := (h.gated b hb).2
      obtain ⟨block, hone, -⟩ := h.block_of_exact hexact hfold
      rw [hfoldId, List.count_eq_countP, List.countP_map, List.countP_eq_length_filter]
      have hlength := congrArg List.length hone
      simp only [List.length_singleton] at hlength
      refine le_of_eq_of_le ?_ hlength.le
      congr 1
      refine List.filter_congr fun b _ => ?_
      rw [Bool.eq_iff_iff]
      simp
    · rw [List.count_eq_zero_of_not_mem hid]
      exact Nat.zero_le _
  constructor
  case folds =>
    rw [List.perm_ext_iff_of_nodup hblocks hfolds]
    intro id
    simp only [List.mem_map]
    constructor
    · rintro ⟨b, hb, rfl⟩
      obtain ⟨fold, hfold, hfoldId, -⟩ := (h.gated b hb).2
      exact ⟨fold, hfold, hfoldId.symm⟩
    · rintro ⟨fold, hfold, rfl⟩
      obtain ⟨block, hone, -⟩ := h.block_of_exact hexact hfold
      have hmem : block ∈ blocks.filter (·.foldId = some fold.foldId) :=
        hone ▸ List.mem_singleton_self block
      obtain ⟨hb, hid⟩ := List.mem_filter.mp hmem
      exact ⟨block, hb, by simpa using hid⟩
  case port =>
    refine ⟨port, fun b hb => ?_⟩
    obtain ⟨fold, hfold, hfoldId, -⟩ := (h.gated b hb).2
    obtain ⟨block, hone, hport⟩ := h.block_of_exact hexact hfold
    have hmem : b ∈ blocks.filter (·.foldId = some fold.foldId) :=
      List.mem_filter.mpr ⟨hb, by simp [hfoldId]⟩
    rw [hone, List.mem_singleton] at hmem
    exact hmem ▸ hport

/-- The block of each fold. -/
theorem exists_blockOf (hone : OneBlockPerFold foldSet blocks) (hv : foldSet.Valid) :
    ∃ blockOf : FoldAssignment → PredictionBlock,
      (∀ fold ∈ foldSet.folds, (blockOf fold).foldId = some fold.foldId) ∧
      blocks.Perm (foldSet.folds.map blockOf) := by
  have hexists (fold : FoldAssignment) : ∃ block, fold ∈ foldSet.folds →
      block ∈ blocks ∧ block.foldId = some fold.foldId := by
    by_cases hfold : fold ∈ foldSet.folds
    · have hid := hone.folds.mem_iff.mpr (List.mem_map_of_mem hfold)
      obtain ⟨block, hblock, hid⟩ := List.mem_map.mp hid
      exact ⟨block, fun _ => ⟨hblock, hid⟩⟩
    · have hne : blocks ≠ [] := by
        rintro rfl
        exact hv.folds_ne (by simpa using hone.folds.length_eq.symm)
      obtain ⟨block, -⟩ := List.exists_mem_of_ne_nil _ hne
      exact ⟨block, fun h => absurd h hfold⟩
  choose blockOf hblockOf using hexists
  have hids := hv.nodup_folds
  have hkeys := hone.nodup hv
  have himage : ((foldSet.folds.map blockOf).map (·.foldId)).Nodup := by
    rw [List.map_map]
    refine (List.map_congr_left fun fold hfold => ?_).symm ▸ hids
    exact (hblockOf fold hfold).2
  refine ⟨blockOf, fun fold hfold => (hblockOf fold hfold).2, ?_⟩
  rw [List.perm_ext_iff_of_nodup hkeys.of_map himage.of_map]
  intro b
  rw [List.mem_map]
  constructor
  · intro hb
    have hid := hone.folds.mem_iff.mp (List.mem_map_of_mem hb)
    obtain ⟨fold, hfold, hid⟩ := List.mem_map.mp hid
    refine ⟨fold, hfold, ?_⟩
    obtain ⟨hmem, hown⟩ := hblockOf fold hfold
    exact List.inj_on_of_nodup_map hkeys hmem hb (hown.trans hid)
  · rintro ⟨fold, hfold, rfl⟩
    exact (hblockOf fold hfold).1

end DerivedResiduals

end

/-- An element is the only one under its key. -/
theorem filter_key_of_nodup {α κ : Type} [DecidableEq κ] {key : α → κ} {l : List α} {a : α}
    (hn : (l.map key).Nodup) (ha : a ∈ l) : l.filter (key · = key a) = [a] := by
  induction l with
  | nil => cases ha
  | cons b l ih =>
    obtain ⟨hb, hl⟩ := List.nodup_cons.mp hn
    rcases List.mem_cons.mp ha with rfl | ha
    · have hnone : l.filter (key · = key a) = [] := by
        rw [List.filter_eq_nil_iff]
        intro c hc heq
        exact hb (List.mem_map.mpr ⟨c, hc, by simpa using heq⟩)
      simp [hnone]
    · have hne : key b ≠ key a := fun heq => hb (List.mem_map.mpr ⟨a, ha, heq.symm⟩)
      simpa [hne] using ih hl ha

theorem flatMap_if {α β : Type} {p : α → Prop} [DecidablePred p] {f : α → β} {l : List α} :
    (l.flatMap fun a => if p a then [f a] else []) = (l.filter p).map f := by
  induction l with
  | nil => rfl
  | cons a l ih =>
    by_cases ha : p a
    · simp [ha, ih]
    · simp [ha, ih]

/-- The row of a sample in a block. -/
def PredictionBlock.heldRow (b : PredictionBlock) (s : SampleId) : List Binary64 :=
  (b.rows.lookup s).getD []

theorem PredictionBlock.Content.mem_heldRow {b : PredictionBlock} (h : b.Content)
    (hs : s ∈ b.sampleIds) : (s, b.heldRow s) ∈ b.rows := by
  obtain ⟨row, hrow⟩ := h.mem_rows.mp hs
  rw [heldRow, (Keyed.lookup_eq_some h.nodup_fst).mpr hrow]
  exact hrow

/-- A block that holds a sample holds one row for it, any other none. -/
theorem PredictionBlock.Content.rows_filter {b : PredictionBlock} (h : b.Content) (s : SampleId) :
    (b.rows.filter (·.1 = s)).map Prod.snd = if s ∈ b.sampleIds then [b.heldRow s] else [] := by
  by_cases hs : s ∈ b.sampleIds
  · have hone := filter_key_of_nodup h.nodup_fst (h.mem_heldRow hs)
    rw [if_pos hs]
    simpa using congrArg (List.map Prod.snd) hone
  · have hnone : b.rows.filter (·.1 = s) = [] := by
      rw [List.filter_eq_nil_iff]
      intro e he heq
      refine hs (h.mem_rows.mpr ⟨e.2, ?_⟩)
      rwa [← of_decide_eq_true heq]
    rw [if_neg hs, hnone, List.map_nil]

section

variable {foldSet : FoldSet} {blocks : List PredictionBlock}
  {observedTargets : BTreeMap SampleId (List Binary64)} {targets : ResidualTargetSet K}

theorem columnSum_perm {rows rows' : List (List Binary64)} (h : rows.Perm rows') (j : Nat) :
    (columnSum rows j : K) = columnSum rows' j := (h.map _).sum_eq

/-- With one block for each fold, the rows of a sample are those of its folds. -/
theorem DerivedResiduals.pooledRows_perm
    (h : DerivedResiduals foldSet blocks observedTargets targets)
    {blockOf : FoldAssignment → PredictionBlock}
    (hown : ∀ fold ∈ foldSet.folds, (blockOf fold).foldId = some fold.foldId)
    (hperm : blocks.Perm (foldSet.folds.map blockOf)) (s : SampleId) :
    (pooledRows blocks s).Perm ((foldSet.validating s).map fun fold => (blockOf fold).heldRow s) := by
  have hmem (fold : FoldAssignment) (hfold : fold ∈ foldSet.folds) : blockOf fold ∈ blocks :=
    hperm.mem_iff.mpr (List.mem_map_of_mem hfold)
  have hrows : ((foldSet.folds.map blockOf).flatMap (·.rows)).filter (·.1 = s) =
      foldSet.folds.flatMap fun fold => (blockOf fold).rows.filter (·.1 = s) := by
    rw [List.flatMap_map, List.filter_flatMap]
  have hpooled : (pooledRows (foldSet.folds.map blockOf) s) =
      (foldSet.validating s).map fun fold => (blockOf fold).heldRow s := by
    rw [pooledRows, hrows, List.map_flatMap, FoldSet.validating]
    rw [← flatMap_if]
    refine List.flatMap_congr fun fold hfold => ?_
    rw [(h.gated _ (hmem fold hfold)).1.rows_filter]
    simp only [h.mem_block (hmem fold hfold) hfold (hown fold hfold)]
  rw [← hpooled]
  exact ((hperm.flatMap_right _).filter _).map _

theorem DerivedResiduals.exact_of_oneBlockPerFold
    (h : DerivedResiduals foldSet blocks observedTargets targets)
    (hone : OneBlockPerFold foldSet blocks) :
    ResidualsExact foldSet blocks observedTargets targets := by
  obtain ⟨blockOf, hown, hperm⟩ := exists_blockOf hone h.folds
  obtain ⟨port, hport⟩ := hone.port
  have hkeys := hone.nodup h.folds
  refine ⟨h.samples, port, h.residuals.imp fun s residual hpooled => ?_⟩
  obtain ⟨observed, hobserved, hlength, hentry⟩ := hpooled.formula
  have hrows := h.pooledRows_perm hown hperm s
  refine ⟨(foldSet.validating s).map fun fold => (blockOf fold).heldRow s, ?_, observed, hobserved,
    hlength, fun j => ?_⟩
  · rw [List.forall₂_map_right_iff, List.forall₂_same]
    intro fold hvalidating
    obtain ⟨hfold, hs⟩ := List.mem_filter.mp hvalidating
    have hblock : blockOf fold ∈ blocks := hperm.mem_iff.mpr (List.mem_map_of_mem hfold)
    have hsample : s ∈ (blockOf fold).sampleIds :=
      (h.mem_block hblock hfold (hown fold hfold)).mpr (by simpa using hs)
    refine ⟨blockOf fold, ?_, hport _ hblock, (h.gated _ hblock).1.mem_heldRow hsample⟩
    rw [← filter_key_of_nodup hkeys hblock]
    refine List.filter_congr fun b hb => ?_
    rw [hown fold hfold]
    by_cases hid : b.foldId = some fold.foldId
    · simp [hid, (h.mem_block hb hfold hid).mpr (by simpa using hs)]
    · simp [hid]
  · rw [hentry j, columnSum_perm hrows j, hrows.length_eq]

/-- Lists related to one list by relations that agree on each element are equal. -/
theorem eq_of_forall₂ {α β : Type} {R R' : α → β → Prop} {l : List α} {bs bs' : List β}
    (hagree : ∀ a b b', R a b → R' a b' → b' = b) (h : List.Forall₂ R l bs)
    (h' : List.Forall₂ R' l bs') : bs' = bs := by
  induction h generalizing bs' with
  | nil =>
    cases h'
    rfl
  | cons hab _ ih =>
    cases h' with
    | cons hab' hrest => rw [hagree _ _ _ hab hab', ih hrest]

/-- The residuals depend on the rows of the blocks alone, in whatever order they come. -/
theorem DerivedResiduals.values_eq {blocks' : List PredictionBlock} {targets' : ResidualTargetSet K}
    (h : DerivedResiduals foldSet blocks observedTargets targets)
    (h' : DerivedResiduals foldSet blocks' observedTargets targets')
    (hrows : (blocks.flatMap (·.rows)).Perm (blocks'.flatMap (·.rows))) :
    targets'.values = targets.values := by
  have hpooled (s : SampleId) : (pooledRows blocks s).Perm (pooledRows blocks' s) :=
    (hrows.filter _).map _
  have hresiduals := h'.residuals
  rw [h'.samples, ← h.samples] at hresiduals
  refine eq_of_forall₂ (fun s residual residual' hr hr' => ?_) h.residuals hresiduals
  obtain ⟨observed, hobserved, hlength, hentry⟩ := hr.formula
  obtain ⟨observed', hobserved', hlength', hentry'⟩ := hr'.formula
  obtain rfl : observed' = observed := Option.some.inj (hobserved'.symm.trans hobserved)
  refine ext_entry (hlength'.trans hlength.symm) fun j => ?_
  rw [hentry j, hentry' j, columnSum_perm (hpooled s) j, (hpooled s).length_eq]

end

-- ---------------------------------------------------------------------------
-- Pooled errors
-- ---------------------------------------------------------------------------

/-- The targets of all samples next to the learner's predictions for them. -/
def gateRows (targets : ResidualTargetSet K) (learner : BTreeMap SampleId (List K)) :
    List (K × K) :=
  (targets.sampleIds.zip targets.values).flatMap fun e => e.2.zip (learner.getD e.1 [])

/-- The targets are what these base rows leave of these observed rows. -/
def ResidualTargetSet.LeftBy (targets : ResidualTargetSet K)
    (observed base : BTreeMap SampleId (List K)) : Prop :=
  ∀ e ∈ targets.sampleIds.zip targets.values, ∃ o b, observed[e.1]? = some o ∧
    base[e.1]? = some b ∧ o.length = b.length ∧ e.2 = List.zipWith (fun o b => o - b) o b

/-- The squared residual of predictions, pooled over these samples. -/
def pooledError (samples : List SampleId) (observed predicted : BTreeMap SampleId (List K)) : K :=
  (samples.map fun s => (List.zipWith (fun o p => (o - p) ^ 2) (observed.getD s [])
    (predicted.getD s [])).sum).sum

omit [Field K] in
/-- The two lists of the loop over the samples, next to each other. -/
theorem pushGateRow_loop {learner : BTreeMap SampleId (List K)} {entries : List (SampleId × List K)}
    (h : loop (pushGateRow learner width) ([], []) entries = .ok pooled) :
    pooled.1.length = pooled.2.length ∧
      pooled.1.zip pooled.2 = entries.flatMap fun e => e.2.zip (learner.getD e.1 []) := by
  refine loop_invariant (fun done (pooled : List K × List K) =>
    pooled.1.length = pooled.2.length ∧
      pooled.1.zip pooled.2 = done.flatMap fun e => e.2.zip (learner.getD e.1 [])) (by simp) ?_ h
  intro done e pooled pooled' hdone hstep
  obtain ⟨hlength, hzip⟩ := hdone
  simp only [pushGateRow, bind_ok, need_ok, refuseIf_ok, not_or, not_not, pure_ok] at hstep
  obtain ⟨prediction, hprediction, _, ⟨htarget, hwidth⟩, rfl⟩ := hstep
  constructor
  · simp [hlength, htarget, hwidth]
  · rw [List.zip_append hlength, hzip, List.flatMap_append, List.flatMap_singleton,
      Std.ExtTreeMap.getD_eq_getD_getElem?, hprediction, Option.getD_some]

theorem sum_zipWith {f : K → K → K} {residual learner : List K} :
    (List.zipWith f residual learner).sum =
      ((residual.zip learner).map fun r => f r.1 r.2).sum := by
  rw [List.map_zip_eq_zipWith]
  rfl

theorem fuseResidualPredictions_ok {base learner fused : BTreeMap SampleId (List K)} {lambda : K}
    {gate : ExactGateResult K} {s : SampleId} {b : List K}
    (h : fuseResidualPredictions base learner lambda gate = .ok fused) (hs : base[s]? = some b) :
    ∃ l, learner[s]? = some l ∧ b.length = l.length ∧
      fused[s]? = some
        (List.zipWith (fun base learned => base + lambda * gate.gate * learned) b l) := by
  simp only [fuseResidualPredictions, bind_ok, refuseIf_ok, collect_ok, pure_ok] at h
  obtain ⟨_, -, entries, hentries, rfl⟩ := h
  have hkeys : entries.map Prod.fst = base.toList.map Prod.fst := by
    refine map_of_collect (collect_ok.mpr hentries) fun e e' he => ?_
    simp only [fuseSample, bind_ok, pure_ok] at he
    obtain ⟨_, -, _, -, rfl⟩ := he
    rfl
  have hnodup : (entries.map Prod.fst).Nodup := hkeys ▸ BTreeMap.nodup_keys_toList base
  have hmem : (s, b) ∈ base.toList := BTreeMap.mem_toList.mpr hs
  obtain ⟨e, he, hfuse⟩ := exists_right_of_mem hentries hmem
  simp only [fuseSample, bind_ok, need_ok, refuseIf_ok, not_or, not_not, pure_ok] at hfuse
  obtain ⟨l, hl, _, ⟨-, hlength⟩, rfl⟩ := hfuse
  exact ⟨l, hl, hlength,
    (BTreeMap.getElem?_collect (BTreeMap.functional_of_nodup hnodup)).mpr he⟩

/-- The squared error of one sample under a scaled correction. -/
theorem rowError_fused (o b l : List K) (scale : K) :
    (List.zipWith (fun o p => (o - p) ^ 2) o
      (List.zipWith (fun base learned => base + scale * learned) b l)).sum =
    LeastSquares.squaredError ((List.zipWith (fun o b => o - b) o b).zip l) scale := by
  induction o generalizing b l with
  | nil => simp [LeastSquares.squaredError]
  | cons x o ih =>
    cases b with
    | nil => simp [LeastSquares.squaredError]
    | cons y b =>
      cases l with
      | nil => simp [LeastSquares.squaredError]
      | cons z l =>
        have hrest := ih b l
        simp only [LeastSquares.squaredError] at hrest ⊢
        simp only [List.zipWith_cons_cons, List.zip_cons_cons, List.map_cons, List.sum_cons, hrest]
        ring

/-- The squared error of one sample under the base alone. -/
theorem rowError_base {o b l : List K} (hlength : b.length = l.length) :
    (List.zipWith (fun o p => (o - p) ^ 2) o b).sum =
      LeastSquares.squaredError ((List.zipWith (fun o b => o - b) o b).zip l) 0 := by
  have hbase : List.zipWith (fun base learned => base + 0 * learned) b l = b :=
    List.ext_getElem (by simp [hlength]) fun i _ _ => by simp
  rw [← rowError_fused o b l 0, hbase]

/-- Errors that agree sample by sample with those of a scaled correction. -/
theorem pooledError_eq {targets : ResidualTargetSet K}
    {learner observed predicted : BTreeMap SampleId (List K)} {scale : K}
    (hlength : targets.values.length = targets.sampleIds.length)
    (hrow : ∀ e ∈ targets.sampleIds.zip targets.values,
      (List.zipWith (fun o p => (o - p) ^ 2) (observed.getD e.1 []) (predicted.getD e.1 [])).sum =
        LeastSquares.squaredError (e.2.zip (learner.getD e.1 [])) scale) :
    pooledError targets.sampleIds observed predicted =
      LeastSquares.squaredError (gateRows targets learner) scale := by
  have hsum (entries : List (SampleId × List K)) :
      LeastSquares.squaredError (entries.flatMap fun e => e.2.zip (learner.getD e.1 [])) scale =
        (entries.map fun e =>
          LeastSquares.squaredError (e.2.zip (learner.getD e.1 [])) scale).sum := by
    induction entries with
    | nil => rfl
    | cons e entries ih =>
      rw [List.flatMap_cons, LeastSquares.squaredError_append, ih, List.map_cons, List.sum_cons]
  rw [gateRows, hsum, ← List.map_congr_left hrow, pooledError]
  conv_lhs => rw [← List.map_fst_zip hlength.ge, List.map_map]
  rfl

section

variable {targets : ResidualTargetSet K} {learner observed base fused : BTreeMap SampleId (List K)}
  {lambda : K} {result : ExactGateResult K}

theorem pooledError_fused (hlength : targets.values.length = targets.sampleIds.length)
    (hleft : targets.LeftBy observed base)
    (h : fuseResidualPredictions base learner lambda result = .ok fused) :
    pooledError targets.sampleIds observed fused =
      LeastSquares.squaredError (gateRows targets learner) (lambda * result.gate) := by
  refine pooledError_eq hlength fun e he => ?_
  obtain ⟨o, b, ho, hb, -, hresidual⟩ := hleft e he
  obtain ⟨l, hl, -, hfused⟩ := fuseResidualPredictions_ok h hb
  simp only [Std.ExtTreeMap.getD_eq_getD_getElem?, ho, hl, hfused, Option.getD_some, hresidual]
  exact rowError_fused o b l _

theorem pooledError_base (hlength : targets.values.length = targets.sampleIds.length)
    (hleft : targets.LeftBy observed base)
    (h : fuseResidualPredictions base learner lambda result = .ok fused) :
    pooledError targets.sampleIds observed base =
      LeastSquares.squaredError (gateRows targets learner) 0 := by
  refine pooledError_eq hlength fun e he => ?_
  obtain ⟨o, b, ho, hb, -, hresidual⟩ := hleft e he
  obtain ⟨l, hl, hwidth, -⟩ := fuseResidualPredictions_ok h hb
  simp only [Std.ExtTreeMap.getD_eq_getD_getElem?, ho, hl, hb, Option.getD_some, hresidual]
  exact rowError_base hwidth

end

-- ---------------------------------------------------------------------------
-- The gate
-- ---------------------------------------------------------------------------

section Gate

variable [LinearOrder K]

/-- A gate between zero and one, with which the stage is no worse than its base under any
`lambda` up to one, and with which it is the best of all such gates under `lambda` one
where the learner is worth it. -/
structure GateOptimal (targets : ResidualTargetSet K) (learner : BTreeMap SampleId (List K))
    (rliThreshold : K) (result : ExactGateResult K) : Prop where
  nonneg : 0 ≤ result.gate
  le_one : result.gate ≤ 1
  noWorse : ∀ observed base, targets.LeftBy observed base → ∀ lambda fused, 0 ≤ lambda →
    lambda ≤ 1 → fuseResidualPredictions base learner lambda result = .ok fused →
    pooledError targets.sampleIds observed fused ≤ pooledError targets.sampleIds observed base
  best : rliThreshold < result.rli → 1 / 10 ^ 12 < LeastSquares.energy (gateRows targets learner) →
    ∀ observed base, targets.LeftBy observed base → ∀ other, 0 ≤ other → other ≤ 1 →
    ∀ fused fused', fuseResidualPredictions base learner 1 result = .ok fused →
    fuseResidualPredictions base learner 1 ⟨other, result.rli⟩ = .ok fused' →
    pooledError targets.sampleIds observed fused ≤ pooledError targets.sampleIds observed fused'

variable [IsStrictOrderedRing K]

theorem clamp_eq (x : K) : clamp x 0 1 = max 0 (min 1 x) := by
  rw [clamp]
  split
  · rename_i hx
    exact (max_eq_left ((min_le_right _ _).trans hx.le)).symm
  · rename_i hx
    split
    · rename_i hone
      rw [min_eq_left hone.le, max_eq_right zero_le_one]
    · rename_i hone
      rw [min_eq_right (not_lt.mp hone), max_eq_right (not_lt.mp hx)]

theorem automaticGate_eq {residual learner : List K} (hlength : residual.length = learner.length)
    (rli rliThreshold : K) : automaticGate residual learner rli rliThreshold =
      if rli ≤ rliThreshold then 0
      else if 1 / 10 ^ 12 < LeastSquares.energy (residual.zip learner) then
        LeastSquares.clamped (residual.zip learner)
      else 0 := by
  have henergy : (learner.map fun value => value * value).sum =
      LeastSquares.energy (residual.zip learner) := by
    rw [LeastSquares.energy, ← List.map_snd_zip hlength.ge, List.map_map]
    rw [List.map_snd_zip hlength.ge]
    rfl
  rw [automaticGate, henergy, sum_zipWith, clamp_eq]
  split
  · rfl
  · split
    · rfl
    · simp

theorem calibrateResidualGate_ok {sqrt : K → K} {targets : ResidualTargetSet K}
    {learner : BTreeMap SampleId (List K)} {rliThreshold : K} {result : ExactGateResult K}
    (h : calibrateResidualGate sqrt targets learner (.automatic rliThreshold) = .ok result) :
    targets.values.length = targets.sampleIds.length ∧
      result.gate = if result.rli ≤ rliThreshold then 0
        else if 1 / 10 ^ 12 < LeastSquares.energy (gateRows targets learner) then
          LeastSquares.clamped (gateRows targets learner)
        else 0 := by
  simp only [calibrateResidualGate, bind_ok, refuseIf_ok, not_or, not_not, pure_ok] at h
  obtain ⟨_, -, _, ⟨-, hlength⟩, pooled, hloop, rfl⟩ := h
  obtain ⟨hpooled, hrows⟩ := pushGateRow_loop hloop
  refine ⟨hlength, ?_⟩
  rw [automaticGate_eq hpooled, hrows]
  rfl

/-- The gate is closed, or the clamped least-squares coefficient of a learner that is not
numerically null. -/
theorem gate_cases {energy clamped rli rliThreshold gate : K}
    (h : gate = if rli ≤ rliThreshold then 0 else if 1 / 10 ^ 12 < energy then clamped else 0) :
    gate = 0 ∨ 0 < energy ∧ gate = clamped := by
  rw [h]
  split
  · exact .inl rfl
  · split
    · rename_i henergy
      have hpos : (0 : K) < 1 / 10 ^ 12 := by positivity
      exact .inr ⟨hpos.trans henergy, rfl⟩
    · exact .inl rfl

theorem calibrateResidualGate_optimal {sqrt : K → K} {targets : ResidualTargetSet K}
    {learner : BTreeMap SampleId (List K)} {rliThreshold : K} {result : ExactGateResult K}
    (h : calibrateResidualGate sqrt targets learner (.automatic rliThreshold) = .ok result) :
    GateOptimal targets learner rliThreshold result := by
  obtain ⟨hlength, hgate⟩ := calibrateResidualGate_ok h
  have hcases := gate_cases hgate
  constructor
  case nonneg =>
    rcases hcases with hzero | ⟨-, hclamped⟩
    · exact hzero.ge
    · exact hclamped ▸ LeastSquares.clamped_nonneg
  case le_one =>
    rcases hcases with hzero | ⟨-, hclamped⟩
    · exact hzero ▸ zero_le_one
    · exact hclamped ▸ LeastSquares.clamped_le_one
  case noWorse =>
    intro observed base hleft lambda fused hlambda hle hfused
    rw [pooledError_fused hlength hleft hfused, pooledError_base hlength hleft hfused]
    rcases hcases with hzero | ⟨henergy, hclamped⟩
    · rw [hzero, mul_zero]
    · rw [hclamped]
      exact LeastSquares.squaredError_part_le henergy hlambda hle
  case best =>
    intro hthreshold henergy observed base hleft other hother hle fused fused' hfused hfused'
    rw [pooledError_fused hlength hleft hfused, pooledError_fused hlength hleft hfused', one_mul,
      one_mul, hgate, if_neg hthreshold.not_ge, if_pos henergy]
    have hpos : (0 : K) < 1 / 10 ^ 12 := by positivity
    exact LeastSquares.squaredError_clamped_le (hpos.trans henergy) hother hle

end Gate

-- ---------------------------------------------------------------------------
-- The stage
-- ---------------------------------------------------------------------------

/-- The derived residuals are those of the folds exactly where the blocks are one for each
fold and from one output port; the order of blocks and rows does not matter; and every
automatic gate is optimal on its calibration rows. -/
theorem residualStage_exact_iff [LinearOrder K] [IsStrictOrderedRing K] (sqrt : K → K)
    (foldSet : FoldSet) (baseProducer : NodeId) (blocks : List PredictionBlock)
    (observedTargets : BTreeMap SampleId (List Binary64)) (targets : ResidualTargetSet K)
    (h : deriveResidualTargets foldSet baseProducer blocks observedTargets = .ok targets) :
    (ResidualsExact foldSet blocks observedTargets targets ↔ OneBlockPerFold foldSet blocks) ∧
    (∀ blocks' targets', (blocks.flatMap (·.rows)).Perm (blocks'.flatMap (·.rows)) →
      deriveResidualTargets foldSet baseProducer blocks' observedTargets = .ok targets' →
      targets'.values = targets.values) ∧
    ∀ (targets : ResidualTargetSet K) learner rliThreshold result,
      calibrateResidualGate sqrt targets learner (.automatic rliThreshold) = .ok result →
      GateOptimal targets learner rliThreshold result := by
  have hderived := deriveResidualTargets_ok h
  refine ⟨⟨hderived.oneBlockPerFold_of_exact, hderived.exact_of_oneBlockPerFold⟩, ?_, ?_⟩
  · intro blocks' targets' hrows h'
    exact hderived.values_eq (deriveResidualTargets_ok h') hrows
  · intro targets learner rliThreshold result hresult
    exact calibrateResidualGate_optimal hresult

-- ---------------------------------------------------------------------------
-- A fold with two ports
-- ---------------------------------------------------------------------------

def stagedProducer : NodeId := ⟨"model:staged", by decide⟩
def stagedX : SampleId := ⟨"staged:x", by decide⟩
def stagedY : SampleId := ⟨"staged:y", by decide⟩
def stagedFoldX : FoldId := ⟨"fold:staged.x", by decide⟩
def stagedFoldY : FoldId := ⟨"fold:staged.y", by decide⟩

def stagedFolds : FoldSet where
  id := "staged"
  sampleIds := [stagedX, stagedY]
  folds := [⟨stagedFoldX, [stagedY], [stagedX], ∅⟩, ⟨stagedFoldY, [stagedX], [stagedY], ∅⟩]
  sampleGroups := ∅
  partitionMode := .resampled
  trainExclusion := .relations
  targetMissingSampleIds := []

def stagedBlock (port : String) (foldId : FoldId) (s : SampleId) (value : Binary64) :
    PredictionBlock where
  predictionId := none
  producerNode := stagedProducer
  producerPort := some port
  partition := .validation
  foldId := some foldId
  sampleIds := [s]
  values := [[value]]
  targetNames := []

/-- The float `1.0`. -/
def stagedOne : Binary64 := .make false 0x3ff0000000000000

def stagedBlocks : List PredictionBlock :=
  [stagedBlock "mean" stagedFoldX stagedX .zero, stagedBlock "mean" stagedFoldY stagedY .zero]

def stagedObserved : BTreeMap SampleId (List Binary64) :=
  .collect [(stagedX, [stagedOne]), (stagedY, [stagedOne])]

/-- Of the two rows that a fold holds for a sample under two ports both are counted. -/
theorem residual_counts_ports :
    ¬ ∀ (foldSet : FoldSet) (baseProducer : NodeId) (blocks : List PredictionBlock)
      (observedTargets : BTreeMap SampleId (List Binary64)) (targets : ResidualTargetSet ℚ),
      deriveResidualTargets foldSet baseProducer blocks observedTargets = .ok targets →
        ResidualsExact foldSet blocks observedTargets targets := by
  intro h
  let blocks := stagedBlock "scale" stagedFoldX stagedX stagedOne :: stagedBlocks
  let derived : Result (ResidualTargetSet ℚ) :=
    deriveResidualTargets stagedFolds stagedProducer blocks stagedObserved
  have haccepted : derived.isOk = true := by decide +kernel
  have hok := eq_ok_valueOf haccepted
  have hone := (deriveResidualTargets_ok hok).oneBlockPerFold_of_exact (h _ _ _ _ _ hok)
  have hlength := hone.folds.length_eq
  revert hlength
  decide

theorem staged_accepted :
    (deriveResidualTargets stagedFolds stagedProducer stagedBlocks stagedObserved :
      Result (ResidualTargetSet ℚ)).isOk = true := by
  decide +kernel

/-- With one block for each fold the residuals are those of the folds, and the gate of a
learner is optimal. -/
theorem residualStage_exact_iff_staged :
    ∃ targets : ResidualTargetSet ℚ,
      deriveResidualTargets stagedFolds stagedProducer stagedBlocks stagedObserved = .ok targets ∧
      ResidualsExact stagedFolds stagedBlocks stagedObserved targets ∧
      ∃ result, calibrateResidualGate Rat.sqrt targets
        (.collect [(stagedX, [1]), (stagedY, [1])]) (.automatic 0) = .ok result ∧
        GateOptimal targets (.collect [(stagedX, [1]), (stagedY, [1])]) 0 result := by
  have hok := eq_ok_valueOf staged_accepted
  have hone : OneBlockPerFold stagedFolds stagedBlocks := by
    constructor
    · decide
    · exact ⟨some "mean", by decide⟩
  obtain ⟨hexact, -, hgate⟩ := residualStage_exact_iff Rat.sqrt stagedFolds stagedProducer
    stagedBlocks stagedObserved _ hok
  refine ⟨_, hok, hexact.mpr hone, ?_⟩
  have hcalibrated : (calibrateResidualGate Rat.sqrt (valueOf _ staged_accepted)
      (.collect [(stagedX, [1]), (stagedY, [1])]) (.automatic 0)).isOk = true := by decide +kernel
  exact ⟨_, eq_ok_valueOf hcalibrated, hgate _ _ _ _ (eq_ok_valueOf hcalibrated)⟩

end DagMl

import DagMl.Aggregation.FusionOrder

/-!
# The fusing reducers

What every reducer gives, on whatever it accepts: weighted means over the
blocks that hold a sample, the same for every order of blocks and rows.
-/

namespace DagMl

open Checked WeightedRows

variable {K : Type}

theorem foldsAgree_ok {first block : ExactBlock K} : foldsAgree first block = .ok u ↔
    block.producerNode = first.producerNode ∧ block.partition = first.partition := by
  rw [foldsAgree, refuseIf_ok, not_or, not_not, not_not]

theorem branchesAgree_ok {first block : ExactBlock K} : branchesAgree first block = .ok u ↔
    block.partition = first.partition ∧ block.targetNames = first.targetNames := by
  simp only [branchesAgree, bind_ok, refuseIf_ok, not_not, exists_const]

theorem checkBranchModel_ok {first block : ExactBlock K} : checkBranchModel first block = .ok u ↔
    block.Content ∧ block.partition = first.partition ∧ block.foldId = first.foldId ∧
      block.sampleIds.toFinset = first.sampleIds.toFinset := by
  simp only [checkBranchModel, bind_ok, ExactBlock.validateContent_ok, refuseIf_ok, not_or, not_not,
    exists_const]
  constructor
  · rintro ⟨_, ⟨hcontent, -⟩, ⟨hpartition, hfold⟩, hsamples⟩
    exact ⟨hcontent, hpartition, hfold, hsamples⟩
  · rintro ⟨hcontent, hpartition, hfold, hsamples⟩
    exact ⟨_, ⟨hcontent, rfl⟩, ⟨hpartition, hfold⟩, hsamples⟩

variable [Field K] [LinearOrder K]

/-- A reducer that averages each sample over the blocks that hold it. -/
structure FusionLaw (reduce : List (ExactBlock K) → Option (List K) → Result (ExactBlock K)) :
    Prop where
  means : ∀ blocks weights out, reduce blocks weights = .ok out →
    ∃ width, WeightedMeans width (weighted blocks weights) out.sampleIds out.values
  shuffle : ∀ blocks weights blocks' weights' out, reduce blocks weights = .ok out →
    Shuffled blocks weights blocks' weights' →
    ∃ out', reduce blocks' weights' = .ok out' ∧ ∀ s, out'.rowOf s = out.rowOf s

variable {blocks blocks' : List (ExactBlock K)} {weights weights' : Option (List K)}
  {out : ExactBlock K}

omit [LinearOrder K] in
/-- Whatever order, the first block is one of the weighted blocks, reordered. -/
theorem Shuffled.first {first : ExactBlock K} (h : Shuffled blocks weights blocks' weights')
    (hfirst : blocks.head? = some first) :
    ∃ first', blocks'.head? = some first' ∧ ∃ p ∈ weighted blocks weights, Reordered p.1 first' := by
  cases hblocks' : blocks' with
  | nil =>
    have hlength := h.length_eq
    rw [hblocks', List.length_nil, List.length_eq_zero_iff] at hlength
    rw [hlength] at hfirst
    cases hfirst
  | cons first' rest =>
    obtain ⟨b, hb, hbb'⟩ := h.exists_left (hblocks' ▸ List.mem_cons_self)
    rw [← map_fst_weighted h.length_weights_left] at hb
    obtain ⟨p, hp, rfl⟩ := List.mem_map.mp hb
    exact ⟨first', rfl, p, hp, hbb'⟩

/-- What is fused from reordered blocks has the same rows, if agreeing with the first block
does not depend on the order. -/
theorem Shuffled.fused {texts : FusionTexts} {agrees : ExactBlock K → ExactBlock K → Result Unit}
    {first : ExactBlock K} {order : List SampleId} {values : List (List K)}
    (h : Shuffled blocks weights blocks' weights') (hfirst : blocks.head? = some first)
    (hfuse : fuse texts (agrees first) first.width (weighted blocks weights) = .ok (order, values))
    (hagrees : ∀ p b first' b', agrees first p = .ok () → agrees first b = .ok () →
      Reordered p first' → Reordered b b' → agrees first' b' = .ok ()) :
    ∃ first', blocks'.head? = some first' ∧ first'.Content ∧ first'.width = first.width ∧
      ∃ order' values', fuse texts (agrees first') first'.width (weighted blocks' weights') =
          .ok (order', values') ∧
        ∀ s, (order'.zip values').lookup s = (order.zip values).lookup s := by
  obtain ⟨hfusible, hmeans⟩ := fuse_ok hfuse
  obtain ⟨first', hfirst', p, hp, hpf⟩ := h.first hfirst
  have hmember := hfusible.member p hp
  have hwidth : first'.width = first.width := (hpf.width hmember.content).trans hmember.width
  have hfusible' : Fusible (agrees first') first.width (weighted blocks' weights') :=
    hfusible.shuffled h.sameWeighted fun b hb b' hbb' =>
      hagrees p.1 b.1 first' b' hmember.agrees (hfusible.member b hb).agrees hpf hbb'
  obtain ⟨order', values', hfuse'⟩ : ∃ order' values', fuse texts (agrees first') first.width
      (weighted blocks' weights') = .ok (order', values') := hfusible'.fuse
  exact ⟨first', hfirst', hpf.content hmember.content, hwidth, order', values', hwidth ▸ hfuse',
    hmeans.rowOf_eq (fuse_ok hfuse').2 h.sameWeighted hfusible.content⟩

-- ---------------------------------------------------------------------------
-- Folds and branches
-- ---------------------------------------------------------------------------

theorem reducePredictionsAcrossFolds_ok {foldLabel : String} :
    reducePredictionsAcrossFolds blocks weights foldLabel = .ok out ↔
      ∃ first, blocks.head? = some first ∧ (∀ ws ∈ weights, ws.length = blocks.length) ∧
        first.width ≠ 0 ∧ ∃ order values, fuse crossFold (foldsAgree first) first.width
          (weighted blocks weights) = .ok (order, values) ∧
        ∃ foldId : FoldId, Id.new foldLabel = .ok foldId ∧
          ExactBlock.mk none first.producerNode first.producerPort first.partition (some foldId)
            order values first.targetNames = out := by
  simp only [reducePredictionsAcrossFolds, bind_ok, need_ok, whenSome_ok, refuseIf_ok, pure_ok,
    not_not, exists_const, Prod.exists]
  rfl

theorem fusionLaw_folds (foldLabel : String) :
    FusionLaw (K := K) (reducePredictionsAcrossFolds · · foldLabel) := by
  constructor
  · intro blocks weights out h
    obtain ⟨first, -, -, -, order, values, hfuse, foldId, -, rfl⟩ :=
      reducePredictionsAcrossFolds_ok.mp h
    exact ⟨first.width, (fuse_ok hfuse).2⟩
  · intro blocks weights blocks' weights' out h hshuffled
    obtain ⟨first, hfirst, -, hwidth, order, values, hfuse, foldId, hlabel, rfl⟩ :=
      reducePredictionsAcrossFolds_ok.mp h
    have hagrees : ∀ p b first' b', foldsAgree first p = .ok () → foldsAgree first b = .ok () →
        Reordered p first' → Reordered b b' → foldsAgree first' b' = .ok () := by
      intro p b first' b' hp hb hpf hbb'
      have hp_agrees := foldsAgree_ok.mp hp
      have hb_agrees := foldsAgree_ok.mp hb
      refine foldsAgree_ok.mpr ⟨?_, ?_⟩
      · rw [hbb'.producerNode, hpf.producerNode, hb_agrees.1, hp_agrees.1]
      · rw [hbb'.partition, hpf.partition, hb_agrees.2, hp_agrees.2]
    obtain ⟨first', hfirst', -, hwidth', order', values', hfuse', hrows⟩ :=
      hshuffled.fused hfirst hfuse hagrees
    exact ⟨_, reducePredictionsAcrossFolds_ok.mpr ⟨first', hfirst', hshuffled.length_weights,
      by rwa [hwidth'], order', values', hfuse', foldId, hlabel, rfl⟩, hrows⟩

theorem reducePredictionsAcrossBranches_ok {mergeNode : NodeId} :
    reducePredictionsAcrossBranches blocks weights mergeNode = .ok out ↔
      ∃ first, blocks.head? = some first ∧ (∀ ws ∈ weights, ws.length = blocks.length) ∧
        first.validateShape = .ok first.width ∧
        ∃ order values, fuse crossBranch (branchesAgree first) first.width
          (weighted blocks weights) = .ok (order, values) ∧
        ExactBlock.mk none mergeNode none first.partition first.foldId order values
          first.targetNames = out := by
  simp only [reducePredictionsAcrossBranches, bind_ok, need_ok, whenSome_ok, refuseIf_ok, pure_ok,
    not_not, exists_const, Prod.exists]
  constructor
  · rintro ⟨first, hfirst, hweights, w, hshape, order, values, hfuse, rfl⟩
    obtain rfl : w = first.width := (ExactBlock.validateShape_ok.mp hshape).2.2.2.2
    exact ⟨first, hfirst, hweights, hshape, order, values, hfuse, rfl⟩
  · rintro ⟨first, hfirst, hweights, hshape, order, values, hfuse, rfl⟩
    exact ⟨first, hfirst, hweights, _, hshape, order, values, hfuse, rfl⟩

theorem fusionLaw_branches (mergeNode : NodeId) :
    FusionLaw (K := K) (reducePredictionsAcrossBranches · · mergeNode) := by
  constructor
  · intro blocks weights out h
    obtain ⟨first, -, -, -, order, values, hfuse, rfl⟩ := reducePredictionsAcrossBranches_ok.mp h
    exact ⟨first.width, (fuse_ok hfuse).2⟩
  · intro blocks weights blocks' weights' out h hshuffled
    obtain ⟨first, hfirst, -, -, order, values, hfuse, rfl⟩ :=
      reducePredictionsAcrossBranches_ok.mp h
    have hagrees : ∀ p b first' b', branchesAgree first p = .ok () → branchesAgree first b = .ok () →
        Reordered p first' → Reordered b b' → branchesAgree first' b' = .ok () := by
      intro p b first' b' hp hb hpf hbb'
      have hp_agrees := branchesAgree_ok.mp hp
      have hb_agrees := branchesAgree_ok.mp hb
      refine branchesAgree_ok.mpr ⟨?_, ?_⟩
      · rw [hbb'.partition, hpf.partition, hb_agrees.1, hp_agrees.1]
      · rw [hbb'.targetNames, hpf.targetNames, hb_agrees.2, hp_agrees.2]
    obtain ⟨first', hfirst', hcontent', -, order', values', hfuse', hrows⟩ :=
      hshuffled.fused hfirst hfuse hagrees
    exact ⟨_, reducePredictionsAcrossBranches_ok.mpr ⟨first', hfirst', hshuffled.length_weights,
      ExactBlock.validateShape_ok.mpr ⟨hcontent'.length_eq, hcontent'.width_pos,
        hcontent'.rows_width, hcontent'.targets, rfl⟩, order', values', hfuse', rfl⟩, hrows⟩

theorem reduceMeanWithinBranch_ok {branchNode : NodeId} :
    reduceMeanWithinBranch blocks weights branchNode = .ok out ↔
      (∃ first, blocks.head? = some first ∧ ∀ b ∈ blocks, checkBranchModel first b = .ok ()) ∧
        reducePredictionsAcrossBranches blocks weights branchNode = .ok out := by
  simp only [reduceMeanWithinBranch, bind_ok, need_ok, each_ok, exists_const, ← and_assoc,
    exists_and_right]

theorem fusionLaw_meanWithin (branchNode : NodeId) :
    FusionLaw (K := K) (reduceMeanWithinBranch · · branchNode) := by
  constructor
  · intro blocks weights out h
    exact (fusionLaw_branches branchNode).means _ _ _ (reduceMeanWithinBranch_ok.mp h).2
  · intro blocks weights blocks' weights' out h hshuffled
    obtain ⟨⟨first, hfirst, hmodels⟩, hreduce⟩ := reduceMeanWithinBranch_ok.mp h
    obtain ⟨out', hreduce', hrows⟩ :=
      (fusionLaw_branches branchNode).shuffle _ _ _ _ _ hreduce hshuffled
    obtain ⟨first', hfirst', -⟩ := hshuffled.first hfirst
    have hmodel : ∀ b' ∈ blocks', b'.Content ∧ b'.partition = first.partition ∧
        b'.foldId = first.foldId ∧ b'.sampleIds.toFinset = first.sampleIds.toFinset := by
      intro b' hb'
      obtain ⟨b, hb, hbb'⟩ := hshuffled.exists_left hb'
      obtain ⟨hcontent, hpartition, hfold, hsamples⟩ := checkBranchModel_ok.mp (hmodels b hb)
      refine ⟨hbb'.content hcontent, hbb'.partition.trans hpartition, hbb'.foldId.trans hfold, ?_⟩
      rw [List.toFinset_eq_of_perm _ _ (hbb'.sampleIds hcontent), hsamples]
    obtain ⟨-, hpartition, hfold, hsamples⟩ := hmodel first' (List.mem_of_mem_head? hfirst')
    refine ⟨out', reduceMeanWithinBranch_ok.mpr ⟨⟨first', hfirst', fun b' hb' => ?_⟩, hreduce'⟩, hrows⟩
    obtain ⟨hcontent, hpartition', hfold', hsamples'⟩ := hmodel b' hb'
    exact checkBranchModel_ok.mpr ⟨hcontent, hpartition'.trans hpartition.symm,
      hfold'.trans hfold.symm, hsamples'.trans hsamples.symm⟩

end DagMl

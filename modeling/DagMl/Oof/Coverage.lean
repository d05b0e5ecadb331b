import Mathlib
import DagMl.Fold.Basic
import DagMl.Oof.Block

/-!
# Out-of-fold coverage

The two gates in front of a producer's pooled validation predictions:
`validateProducerOofCoverage` on the scoring path and
`validateStackingOofRefitContract` before a stacking refit. Both count
samples over all blocks, whatever fold a block names.
-/

namespace DagMl

open Checked

/-- `if !covered.insert(s) && mode == Partition { return Err(dup(s)) }`. -/
def coverSample (dup : SampleId → DagMlError) (mode : FoldPartitionMode)
    (covered : Finset SampleId) (s : SampleId) : Result (Finset SampleId) :=
  if s ∈ covered ∧ mode = .partition then .error (dup s) else .ok (insert s covered)

theorem coverSample_ok {covered : Finset SampleId} :
    coverSample dup mode covered s = .ok covered' ↔
      (mode = .partition → s ∉ covered) ∧ covered' = insert s covered := by
  unfold coverSample
  split
  · rename_i h
    simp [h]
  · rename_i h
    simp only [Except.ok.injEq, eq_comm (a := covered')]
    exact ⟨fun h' => ⟨fun hm hs => h ⟨hs, hm⟩, h'⟩, And.right⟩

theorem coverSample_loop {covered : Finset SampleId} :
    loop (coverSample dup mode) covered l = .ok covered' ↔
      (mode = .partition → l.Nodup ∧ ∀ s ∈ l, s ∉ covered) ∧ covered' = covered ∪ l.toFinset := by
  induction l generalizing covered with
  | nil => simp [eq_comm]
  | cons x xs ih =>
    have hunion : insert x covered ∪ xs.toFinset = covered ∪ (x :: xs).toFinset := by
      ext; simp
    simp only [loop_cons, coverSample_ok, ih, List.nodup_cons, List.forall_mem_cons]
    constructor
    · rintro ⟨_, ⟨hx, rfl⟩, hxs, rfl⟩
      refine ⟨fun hm => ?_, hunion⟩
      obtain ⟨hn, hs⟩ := hxs hm
      simp only [Finset.mem_insert, not_or] at hs
      exact ⟨⟨fun h => (hs x h).1 rfl, hn⟩, hx hm, fun s h => (hs s h).2⟩
    · rintro ⟨h, rfl⟩
      refine ⟨_, ⟨fun hm => (h hm).2.1, rfl⟩, fun hm => ?_, hunion.symm⟩
      obtain ⟨⟨hx, hn⟩, -, hs⟩ := h hm
      refine ⟨hn, fun s h => ?_⟩
      rw [Finset.mem_insert, not_or]
      exact ⟨fun he => hx (he ▸ h), hs s h⟩

/-- The validation predictions of a list of blocks, as sample ids. -/
def validationSamples (blocks : List PredictionBlock) : List SampleId :=
  (blocks.filter (·.partition = .validation)).flatMap (·.sampleIds)

-- ---------------------------------------------------------------------------
-- The scoring path
-- ---------------------------------------------------------------------------

def coverBlock (producerNode : NodeId) (mode : FoldPartitionMode) (covered : Finset SampleId)
    (block : PredictionBlock) : Result (Finset SampleId) :=
  if block.partition ≠ .validation then .ok covered
  else do
    let _ ← block.validateContent
    loop (coverSample (fun s => .oofValidation
      s!"producer `{producerNode}` emitted more than one validation prediction for sample `{s}` — the OOF set is not unique (a duplicated fold, or a run context that mixed several variants); concatenate exactly one validation prediction per sample")
      mode) covered block.sampleIds

def validateProducerOofCoverage (producerNode : NodeId) (blocks : List PredictionBlock)
    (partitionMode : FoldPartitionMode) (requestedSamples : Option (Finset SampleId)) :
    Result Unit := do
  let covered ← loop (coverBlock producerNode partitionMode) ∅ blocks
  match requestedSamples with
  | none => pure ()
  | some requested =>
    let missing := (requested \ covered).card
    let extra := (covered \ requested).card
    let expectation := match partitionMode with
      | .partition => "exactly one validation prediction per requested sample is required"
      | .resampled =>
        "every requested sample needs at least one validation prediction and no extra sample may appear"
    refuseIf (covered ≠ requested) (.oofValidation
      s!"producer `{producerNode}` OOF coverage is not exact: {missing} requested sample(s) missing, {extra} unexpected sample(s) present — {expectation}")

theorem validationSamples_cons (b : PredictionBlock) (bs : List PredictionBlock) :
    validationSamples (b :: bs) = validationSamples [b] ++ validationSamples bs := by
  unfold validationSamples
  rw [List.filter_cons]
  split <;> simp [*]

theorem coverBlock_ok {covered : Finset SampleId} :
    coverBlock producerNode mode covered b = .ok covered' ↔
      (b.partition = .validation → b.Content) ∧
      (mode = .partition →
        (validationSamples [b]).Nodup ∧ ∀ s ∈ validationSamples [b], s ∉ covered) ∧
      covered' = covered ∪ (validationSamples [b]).toFinset := by
  unfold coverBlock validationSamples
  by_cases hb : b.partition = .validation
  · simp only [hb, ne_eq, not_true_eq_false, if_false, bind_ok, coverSample_loop,
      PredictionBlock.validateContent_ok]
    simp [hb]
  · have hnil : [b].filter (·.partition = .validation) = [] := by simp [hb]
    simp only [hb, ne_eq, not_false_eq_true, if_true, Except.ok.injEq, hnil]
    simp [eq_comm]

theorem coverBlock_loop {covered : Finset SampleId} :
    loop (coverBlock producerNode mode) covered blocks = .ok covered' ↔
      (∀ b ∈ blocks, b.partition = .validation → b.Content) ∧
      (mode = .partition →
        (validationSamples blocks).Nodup ∧ ∀ s ∈ validationSamples blocks, s ∉ covered) ∧
      covered' = covered ∪ (validationSamples blocks).toFinset := by
  induction blocks generalizing covered with
  | nil => simp [validationSamples, eq_comm]
  | cons b bs ih =>
    simp only [loop_cons, coverBlock_ok, ih, List.forall_mem_cons]
    rw [validationSamples_cons b bs, List.toFinset_append, ← Finset.union_assoc]
    constructor
    · rintro ⟨_, ⟨hb, hn, rfl⟩, hbs, hns, rfl⟩
      refine ⟨⟨hb, hbs⟩, fun hm => ?_, rfl⟩
      obtain ⟨h₁, h₂⟩ := hn hm
      obtain ⟨h₃, h₄⟩ := hns hm
      simp only [Finset.mem_union, List.mem_toFinset, not_or] at h₄
      refine ⟨List.nodup_append'.mpr ⟨h₁, h₃, fun s hs hs' => (h₄ s hs').2 hs⟩, fun s hs => ?_⟩
      rcases List.mem_append.mp hs with hs | hs
      · exact h₂ s hs
      · exact (h₄ s hs).1
    · rintro ⟨⟨hb, hbs⟩, hn, rfl⟩
      refine ⟨_, ⟨hb, fun hm => ?_, rfl⟩, hbs, fun hm => ?_, rfl⟩
      · obtain ⟨h, hs⟩ := hn hm
        exact ⟨h.of_append_left, fun s h => hs s (List.mem_append_left _ h)⟩
      · obtain ⟨h, hs⟩ := hn hm
        refine ⟨h.of_append_right, fun s hr => ?_⟩
        simp only [Finset.mem_union, List.mem_toFinset, not_or]
        exact ⟨hs s (List.mem_append_right _ hr),
          fun hl => (List.nodup_append'.mp h).2.2 hl hr⟩

theorem validateProducerOofCoverage_ok :
    validateProducerOofCoverage producerNode blocks mode requested = .ok u ↔
      (∀ b ∈ blocks, b.partition = .validation → b.Content) ∧
      (mode = .partition → (validationSamples blocks).Nodup) ∧
      ∀ r ∈ requested, (validationSamples blocks).toFinset = r := by
  simp only [validateProducerOofCoverage, bind_ok, coverBlock_loop, Finset.notMem_empty,
    not_false_eq_true, implies_true, and_true, Finset.empty_union]
  cases requested with
  | none => simp [pure_ok]
  | some r =>
    simp only [refuseIf_ok, not_not, Option.mem_some, forall_eq']
    constructor
    · rintro ⟨_, ⟨hc, hn, rfl⟩, hr⟩
      exact ⟨hc, hn, hr⟩
    · rintro ⟨hc, hn, hr⟩
      exact ⟨_, ⟨hc, hn, rfl⟩, hr⟩

-- ---------------------------------------------------------------------------
-- The refit path
-- ---------------------------------------------------------------------------

inductive StackingOofRefitPolicy
  | requireFullCoverage
  | cvOnly
  | skipRefitOnIncompleteOof
  deriving DecidableEq

structure StackingOofRefitContract where
  policy : StackingOofRefitPolicy
  deriving DecidableEq

inductive StackingOofRefitCause
  | fullCoverage
  | cvOnly
  | incompleteOofCoverage
  | partialOofWithoutPolicy
  | missingFoldId
  | unknownFold
  | foldCoverageMismatch
  | duplicateValidationSample
  | nonValidationPartition
  deriving DecidableEq

def StackingOofRefitCause.asStr : StackingOofRefitCause → String
  | .fullCoverage => "full_coverage"
  | .cvOnly => "cv_only"
  | .incompleteOofCoverage => "incomplete_oof_coverage"
  | .partialOofWithoutPolicy => "partial_oof_without_policy"
  | .missingFoldId => "missing_fold_id"
  | .unknownFold => "unknown_fold"
  | .foldCoverageMismatch => "fold_coverage_mismatch"
  | .duplicateValidationSample => "duplicate_validation_sample"
  | .nonValidationPartition => "non_validation_partition"

structure StackingOofRefitCoverageDiagnostic where
  policy : StackingOofRefitPolicy
  cause : StackingOofRefitCause
  requestedSampleCount : Nat
  coveredSampleCount : Nat
  missingSampleIds : List SampleId
  extraSampleIds : List SampleId
  deriving DecidableEq

inductive StackingOofRefitDecision
  | refitAllowed (diagnostic : StackingOofRefitCoverageDiagnostic)
  | skipRefit (diagnostic : StackingOofRefitCoverageDiagnostic)
  deriving DecidableEq

def stackingRefitContractError (producerNode : NodeId) (cause : StackingOofRefitCause)
    (detail : String) : DagMlError :=
  .oofValidation
    s!"stacking OOF refit contract violation for producer `{producerNode}`: cause={cause.asStr}; {detail}"

def validateStackingBlockMatchesFold (producerNode : NodeId) (block : PredictionBlock)
    (fold : FoldAssignment) : Result Unit :=
  refuseIf (block.sampleIds.toFinset ≠ fold.validationSampleIds.toFinset)
    (stackingRefitContractError producerNode .foldCoverageMismatch
      s!"fold `{fold.foldId}` OOF samples do not match the fold validation samples")

def coverRefitBlock (producerNode : NodeId) (foldSet : FoldSet) (covered : Finset SampleId)
    (block : PredictionBlock) : Result (Finset SampleId) := do
  refuseIf (block.partition ≠ .validation)
    (stackingRefitContractError producerNode .nonValidationPartition
      s!"selected {block.partition.debug} predictions for REFIT stacking; only validation OOF may train a meta-model")
  let _ ← block.validateContent
  let foldId ← need block.foldId (stackingRefitContractError producerNode .missingFoldId
    "validation OOF block is missing fold_id")
  let fold ← need foldSet.foldsById[foldId]? (stackingRefitContractError producerNode .unknownFold
    s!"validation OOF block references unknown fold `{foldId}`")
  validateStackingBlockMatchesFold producerNode block fold
  loop (coverSample (fun s => stackingRefitContractError producerNode .duplicateValidationSample
    s!"sample `{s}` appears in validation OOF for more than one fold") foldSet.partitionMode)
    covered block.sampleIds

def validateStackingOofRefitContract (producerNode : NodeId) (blocks : List PredictionBlock)
    (foldSet : FoldSet) (contract : StackingOofRefitContract) :
    Result StackingOofRefitDecision := do
  foldSet.validate
  if contract.policy = .cvOnly then
    pure (.skipRefit {
      policy := contract.policy, cause := .cvOnly
      requestedSampleCount := foldSet.sampleIds.length, coveredSampleCount := 0
      missingSampleIds := foldSet.sampleIds, extraSampleIds := [] })
  else
    let covered ← loop (coverRefitBlock producerNode foldSet) ∅ blocks
    let requested := foldSet.sampleIds.toFinset
    if covered = requested then
      pure (.refitAllowed {
        policy := contract.policy, cause := .fullCoverage
        requestedSampleCount := requested.card, coveredSampleCount := covered.card
        missingSampleIds := [], extraSampleIds := [] })
    else
      let diagnostic : StackingOofRefitCoverageDiagnostic := {
        policy := contract.policy
        cause := match contract.policy with
          | .skipRefitOnIncompleteOof => .incompleteOofCoverage
          | .requireFullCoverage => .partialOofWithoutPolicy
          | .cvOnly => .cvOnly
        requestedSampleCount := requested.card, coveredSampleCount := covered.card
        missingSampleIds := ascending (requested \ covered)
        extraSampleIds := ascending (covered \ requested) }
      if contract.policy = .skipRefitOnIncompleteOof then pure (.skipRefit diagnostic)
      else .error (stackingRefitContractError producerNode diagnostic.cause
        s!"OOF predictions do not cover the refit sample universe: {diagnostic.requestedSampleCount} requested sample(s), {diagnostic.coveredSampleCount} covered, {diagnostic.missingSampleIds.length} missing, {diagnostic.extraSampleIds.length} extra")

/-- A validation block whose samples are those of the fold it names. -/
structure FillsFold (foldSet : FoldSet) (block : PredictionBlock) : Prop where
  validation : block.partition = .validation
  content : block.Content
  fold : ∃ fold ∈ foldSet.folds, block.foldId = some fold.foldId ∧
    block.sampleIds.toFinset = fold.validationSampleIds.toFinset

/-- The refit gate asks everything of a block that the scoring gate asks. -/
theorem coverRefitBlock_ok (hv : foldSet.Valid) {covered : Finset SampleId}
    (h : coverRefitBlock producerNode foldSet covered b = .ok covered') :
    FillsFold foldSet b ∧
      coverBlock producerNode foldSet.partitionMode covered b = .ok covered' := by
  simp only [coverRefitBlock, validateStackingBlockMatchesFold, bind_ok, refuseIf_ok, need_ok,
    PredictionBlock.validateContent_ok, hv.foldsById_get, coverSample_loop, not_not] at h
  obtain ⟨_, hp, _, ⟨hc, -⟩, foldId, hf, fold, ⟨hm, rfl⟩, _, hs, hn, rfl⟩ := h
  refine ⟨⟨hp, hc, fold, hm, hf, hs⟩, coverBlock_ok.mpr ⟨fun _ => hc, ?_, ?_⟩⟩ <;>
    simp_all [validationSamples]

theorem refitAllowed_ok
    (h : validateStackingOofRefitContract producerNode blocks foldSet contract =
      .ok (.refitAllowed d)) :
    foldSet.Valid ∧ (∀ b ∈ blocks, FillsFold foldSet b) ∧
      validateProducerOofCoverage producerNode blocks foldSet.partitionMode
        (some foldSet.sampleIds.toFinset) = .ok () := by
  simp only [validateStackingOofRefitContract, bind_ok, FoldSet.validate_ok] at h
  obtain ⟨_, hv, h⟩ := h
  split at h
  · cases h
  · obtain ⟨covered, hloop, h⟩ := bind_ok.mp h
    refine ⟨hv, loop_forall (fun _ _ _ hb => (coverRefitBlock_ok hv hb).1) hloop, ?_⟩
    split at h
    · rename_i hc
      have hcover := loop_mono (fun _ _ _ hb => (coverRefitBlock_ok hv hb).2) hloop
      simp [validateProducerOofCoverage, bind_ok, hcover, refuseIf_ok, hc]
    · split at h <;> cases h

theorem coverRefitBlock_of_fills (hv : foldSet.Valid) (hfill : FillsFold foldSet b)
    {covered : Finset SampleId}
    (h : coverBlock producerNode foldSet.partitionMode covered b = .ok covered') :
    coverRefitBlock producerNode foldSet covered b = .ok covered' := by
  obtain ⟨fold, hm, hf, hs⟩ := hfill.fold
  obtain ⟨-, hn, rfl⟩ := coverBlock_ok.mp h
  have hsamples : validationSamples [b] = b.sampleIds := by
    simp [validationSamples, hfill.validation]
  rw [hsamples] at hn ⊢
  simp only [coverRefitBlock, validateStackingBlockMatchesFold, bind_ok, refuseIf_ok, need_ok,
    PredictionBlock.validateContent_ok, hv.foldsById_get, coverSample_loop, not_not]
  exact ⟨(), hfill.validation, _, ⟨hfill.content, rfl⟩, fold.foldId, hf, fold, ⟨hm, rfl⟩, (), hs, hn,
    trivial⟩

/-- When a refit is allowed, in terms that do not depend on the order of the blocks. -/
theorem refitAllowed_iff :
    (∃ d, validateStackingOofRefitContract producerNode blocks foldSet contract =
        .ok (.refitAllowed d)) ↔
      contract.policy ≠ .cvOnly ∧ foldSet.Valid ∧ (∀ b ∈ blocks, FillsFold foldSet b) ∧
        validateProducerOofCoverage producerNode blocks foldSet.partitionMode
          (some foldSet.sampleIds.toFinset) = .ok () := by
  constructor
  · rintro ⟨d, h⟩
    refine ⟨fun hpolicy => ?_, refitAllowed_ok h⟩
    simp only [validateStackingOofRefitContract, hpolicy, if_true, bind_ok] at h
    obtain ⟨_, -, h⟩ := h
    cases h
  · rintro ⟨hpolicy, hv, hfills, hcovered⟩
    simp only [validateProducerOofCoverage, bind_ok, refuseIf_ok, not_not] at hcovered
    obtain ⟨covered, hloop, rfl⟩ := hcovered
    have hrefit : loop (coverRefitBlock producerNode foldSet) ∅ blocks =
        .ok foldSet.sampleIds.toFinset := by
      clear hpolicy
      revert hloop
      generalize (∅ : Finset SampleId) = start
      induction blocks generalizing start with
      | nil => exact id
      | cons b bs ih =>
        intro hloop
        obtain ⟨next, hb, hbs⟩ := loop_cons.mp hloop
        rw [List.forall_mem_cons] at hfills
        exact loop_cons.mpr ⟨next, coverRefitBlock_of_fills hv hfills.1 hb, ih hfills.2 next hbs⟩
    let requested := foldSet.sampleIds.toFinset
    refine ⟨⟨contract.policy, .fullCoverage, requested.card, requested.card, [], []⟩, ?_⟩
    simp only [validateStackingOofRefitContract, hpolicy, if_false, bind_ok, FoldSet.validate_ok]
    refine ⟨(), hv, _, hrefit, ?_⟩
    rw [if_pos rfl]
    rfl

/-- A refit is allowed whatever the order of its blocks. -/
theorem refitAllowed_perm (hperm : blocks.Perm blocks')
    (h : validateStackingOofRefitContract producerNode blocks foldSet contract =
      .ok (.refitAllowed d)) :
    ∃ d', validateStackingOofRefitContract producerNode blocks' foldSet contract =
      .ok (.refitAllowed d') := by
  obtain ⟨hpolicy, hv, hfills, hcovered⟩ := refitAllowed_iff.mp ⟨d, h⟩
  refine refitAllowed_iff.mpr ⟨hpolicy, hv, fun b hb => hfills b (hperm.mem_iff.mpr hb), ?_⟩
  have hsamples : (validationSamples blocks).Perm (validationSamples blocks') :=
    (hperm.filter _).flatMap_right _
  rw [validateProducerOofCoverage_ok] at hcovered ⊢
  obtain ⟨hc, hn, hr⟩ := hcovered
  refine ⟨fun b hb => hc b (hperm.mem_iff.mpr hb), fun hm => hsamples.nodup_iff.mp (hn hm), ?_⟩
  rwa [← List.toFinset_eq_of_perm _ _ hsamples]

-- ---------------------------------------------------------------------------
-- One prediction for each fold and sample
-- ---------------------------------------------------------------------------

/-- The validation predictions made in one fold, as sample ids. -/
def foldPredictions (blocks : List PredictionBlock) (foldId : FoldId) : List SampleId :=
  validationSamples (blocks.filter (·.foldId = some foldId))

/-- No fold holds two validation predictions of one sample. -/
def OnePerFold (blocks : List PredictionBlock) : Prop :=
  ∀ foldId s, (foldPredictions blocks foldId).count s ≤ 1

/-- Any two validation blocks of one fold have no sample in common. -/
def FoldBlocksDisjoint (blocks : List PredictionBlock) : Prop :=
  (blocks.filter (·.partition = .validation)).Pairwise fun a b =>
    a.foldId = b.foldId → a.foldId ≠ none → a.sampleIds.Disjoint b.sampleIds

theorem onePerFold_iff (hc : ∀ b ∈ blocks, b.partition = .validation → b.Content) :
    OnePerFold blocks ↔ FoldBlocksDisjoint blocks := by
  have hfold (foldId : FoldId) : (∀ s, (foldPredictions blocks foldId).count s ≤ 1) ↔
      blocks.Pairwise fun a b => a.foldId = some foldId → b.foldId = some foldId →
        a.partition = .validation → b.partition = .validation →
          a.sampleIds.Disjoint b.sampleIds := by
    rw [← List.nodup_iff_count_le_one, foldPredictions, validationSamples, List.nodup_flatMap]
    simp only [List.pairwise_filter, decide_eq_true_eq, Function.onFun]
    refine and_iff_right fun b hb => (hc b ?_ ?_).nodup
    · exact List.mem_of_mem_filter (List.mem_of_mem_filter hb)
    · simpa using List.of_mem_filter hb
  simp only [OnePerFold, hfold, FoldBlocksDisjoint, List.pairwise_filter, decide_eq_true_eq]
  simp only [List.pairwise_iff_forall_sublist]
  constructor
  · intro h a b hab ha hb hf hne
    obtain ⟨foldId, hfa⟩ := Option.ne_none_iff_exists'.mp hne
    exact h foldId hab hfa (hf ▸ hfa) ha hb
  · intro h foldId a b hab hfa hfb ha hb
    exact h hab ha hb (hfa.trans hfb.symm) (by simp [hfa])

theorem onePerFold_of_nodup (h : (validationSamples blocks).Nodup) : OnePerFold blocks := by
  intro foldId s
  refine List.nodup_iff_count_le_one.mp (h.sublist ?_) s
  exact ((List.filter_sublist).filter _).flatMap _

/-- Blocks that fill their folds overlap as soon as they name one fold. -/
theorem foldBlocksDisjoint_iff (hv : foldSet.Valid) (hfill : ∀ b ∈ blocks, FillsFold foldSet b) :
    FoldBlocksDisjoint blocks ↔ (blocks.map (·.foldId)).Nodup := by
  have hall : blocks.filter (·.partition = .validation) = blocks :=
    List.filter_eq_self.mpr fun b hb => by simpa using (hfill b hb).validation
  rw [FoldBlocksDisjoint, hall, List.Nodup, List.pairwise_map]
  refine List.Pairwise.iff_of_mem fun {a b} ha hb => ?_
  constructor
  · intro h hf
    obtain ⟨fold, hm, hid, hs⟩ := (hfill a ha).fold
    obtain ⟨fold', hm', hid', hs'⟩ := (hfill b hb).fold
    have heq : fold = fold' := by
      refine List.inj_on_of_nodup_map hv.foldIds_nodup hm hm' ?_
      simpa [hid, hid'] using hf
    obtain ⟨s, hsv⟩ := List.exists_mem_of_ne_nil _ (hv.folds_valid fold hm).validation_ne
    have hsa : s ∈ a.sampleIds := by simpa using hs.symm.subset (List.mem_toFinset.mpr hsv)
    have hsb : s ∈ b.sampleIds := by
      simpa using hs'.symm.subset (List.mem_toFinset.mpr (heq ▸ hsv))
    exact h hf (by simp [hid]) hsa hsb
  · exact fun hne hf => absurd hf hne

/-- Accepted pooled predictions hold one prediction for each fold and sample
exactly when the mode is `partition` or no two blocks of one fold overlap; a
refit is allowed on them exactly when the mode is `partition` or the blocks
name distinct folds. -/
theorem coverage_onePerFold_iff (producerNode : NodeId) (blocks : List PredictionBlock) :
    (∀ mode requested,
      validateProducerOofCoverage producerNode blocks mode requested = .ok () →
        (OnePerFold blocks ↔ mode = .partition ∨ FoldBlocksDisjoint blocks)) ∧
    (∀ foldSet contract d,
      validateStackingOofRefitContract producerNode blocks foldSet contract =
          .ok (.refitAllowed d) →
        (OnePerFold blocks ↔
          foldSet.partitionMode = .partition ∨ (blocks.map (·.foldId)).Nodup)) := by
  have hscore (mode : FoldPartitionMode) (requested : Option (Finset SampleId))
      (h : validateProducerOofCoverage producerNode blocks mode requested = .ok ()) :
      OnePerFold blocks ↔ mode = .partition ∨ FoldBlocksDisjoint blocks := by
    obtain ⟨hc, hn, -⟩ := validateProducerOofCoverage_ok.mp h
    rw [onePerFold_iff hc]
    refine ⟨Or.inr, fun h => h.elim (fun hm => ?_) id⟩
    exact (onePerFold_iff hc).mp (onePerFold_of_nodup (hn hm))
  refine ⟨hscore, fun foldSet contract d h => ?_⟩
  obtain ⟨hv, hfill, hcov⟩ := refitAllowed_ok h
  rw [hscore _ _ hcov, foldBlocksDisjoint_iff hv hfill]

/-- One fold that validates one sample, in `resampled` mode. -/
def singleFoldSet : FoldSet where
  id := "folds"
  sampleIds := [⟨"s1", by decide⟩]
  folds := [⟨⟨"fold0", by decide⟩, [], [⟨"s1", by decide⟩], ∅⟩]
  sampleGroups := ∅
  partitionMode := .resampled
  trainExclusion := .relations
  targetMissingSampleIds := []

def singleBlock : PredictionBlock where
  predictionId := none
  producerNode := ⟨"model:base", by decide⟩
  producerPort := none
  partition := .validation
  foldId := some ⟨"fold0", by decide⟩
  sampleIds := [⟨"s1", by decide⟩]
  values := [[.zero]]
  targetNames := []

/-- The same block twice passes both gates in `resampled` mode. -/
theorem repeated_block_accepted :
    validateProducerOofCoverage singleBlock.producerNode [singleBlock, singleBlock]
        singleFoldSet.partitionMode none = .ok () ∧
      (∃ d, validateStackingOofRefitContract singleBlock.producerNode [singleBlock, singleBlock]
        singleFoldSet ⟨.requireFullCoverage⟩ = .ok (.refitAllowed d)) ∧
      ¬OnePerFold [singleBlock, singleBlock] := by
  refine ⟨by decide, ⟨⟨.requireFullCoverage, .fullCoverage, 1, 1, [], []⟩, by decide⟩, ?_⟩
  intro h
  exact absurd (h ⟨"fold0", by decide⟩ ⟨"s1", by decide⟩) (by decide)

/-- Both halves at an accepted pair: one block, of one fold. -/
theorem coverage_onePerFold_iff_single :
    OnePerFold [singleBlock] ∧ (OnePerFold [singleBlock] ↔
      singleFoldSet.partitionMode = .partition ∨ ([singleBlock].map (·.foldId)).Nodup) := by
  have h := coverage_onePerFold_iff singleBlock.producerNode [singleBlock]
  refine ⟨(h.1 .partition none (by decide)).mpr (.inl rfl), h.2 singleFoldSet
    ⟨.requireFullCoverage⟩ ⟨.requireFullCoverage, .fullCoverage, 1, 1, [], []⟩ (by decide)⟩

end DagMl

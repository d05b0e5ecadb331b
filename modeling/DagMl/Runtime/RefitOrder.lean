import DagMl.Runtime.Oof

/-!
# The order of refit evidence

`validateRefitOofEdge` accepts an edge whatever the order in which the store
holds its blocks.
-/

namespace DagMl

open Checked

-- ---------------------------------------------------------------------------
-- Signed availability
-- ---------------------------------------------------------------------------

/-- The loop over the samples of a block is `insertUnique`. -/
theorem insertSamples_eq (e : DagMlError) (seen : Finset SampleId) (l : List SampleId) :
    loop (fun (seen : Finset SampleId) s => do
      refuseIf (s ∈ seen) e
      pure (insert s seen)) seen l = insertUnique (fun _ => e) seen l := by
  induction l generalizing seen with
  | nil => rfl
  | cons x xs ih =>
    rw [insertUnique, loop]
    by_cases hx : x ∈ seen
    · simp [refuseIf, hx, bind, Except.bind]
    · simp [refuseIf, hx, bind, Except.bind, pure, Except.pure, ← ih]

/-- The fold a block is filed under, and the samples it adds to it. -/
structure Gathers (foldSet : FoldSet) (byFold : BTreeMap FoldId (Finset SampleId))
    (block : PredictionBlock) (foldId : FoldId) : Prop where
  content : block.Content
  validation : block.partition = .validation
  fold : block.foldId.filter (· ∈ foldSet.foldsById) = some foldId
  fresh : ∀ s ∈ block.sampleIds, s ∉ byFold.getD foldId ∅

theorem gatherAvailableBlock_ok {byFold : BTreeMap FoldId (Finset SampleId)} :
    gatherAvailableBlock foldSet byFold block = .ok byFold' ↔
      ∃ foldId, Gathers foldSet byFold block foldId ∧
        byFold' = byFold.insert foldId (byFold.getD foldId ∅ ∪ block.sampleIds.toFinset) := by
  simp only [gatherAvailableBlock, bind_ok, PredictionBlock.validateContent_ok, refuseIf_ok,
    need_ok, insertSamples_eq, insertUnique_ok, pure_ok, not_not]
  constructor
  · rintro ⟨_, ⟨hcontent, -⟩, _, hvalidation, foldId, hfold, _, ⟨-, hfresh, rfl⟩, rfl⟩
    exact ⟨foldId, ⟨hcontent, hvalidation, hfold, hfresh⟩, rfl⟩
  · rintro ⟨foldId, h, rfl⟩
    exact ⟨_, ⟨h.content, rfl⟩, (), h.validation, foldId, h.fold, _,
      ⟨h.content.nodup, h.fresh, rfl⟩, rfl⟩

theorem getD_insert {byFold : BTreeMap FoldId (Finset SampleId)} {a b : FoldId} :
    (byFold.insert a v).getD b ∅ = if a = b then v else byFold.getD b ∅ := by
  simp only [Std.ExtTreeMap.getD_insert, Std.LawfulEqCmp.compare_eq_iff_eq]

theorem gatherAvailableBlock_comm {m m₁ m₂ : BTreeMap FoldId (Finset SampleId)}
    (hx : gatherAvailableBlock foldSet m x = .ok m₁)
    (hy : gatherAvailableBlock foldSet m₁ y = .ok m₂) :
    ∃ m', gatherAvailableBlock foldSet m y = .ok m' ∧
      gatherAvailableBlock foldSet m' x = .ok m₂ := by
  obtain ⟨f, hxf, rfl⟩ := gatherAvailableBlock_ok.mp hx
  obtain ⟨g, hyg, rfl⟩ := gatherAvailableBlock_ok.mp hy
  have hfresh := hyg.fresh
  simp only [getD_insert] at hfresh
  refine ⟨_, gatherAvailableBlock_ok.mpr ⟨g, ⟨hyg.content, hyg.validation, hyg.fold, ?_⟩, rfl⟩,
    gatherAvailableBlock_ok.mpr ⟨f, ⟨hxf.content, hxf.validation, hxf.fold, ?_⟩, ?_⟩⟩
  · intro s hs
    have hnew := hfresh s hs
    by_cases hfg : f = g
    · subst hfg
      simp only [if_true, Finset.mem_union, not_or] at hnew
      exact hnew.1
    · simpa [hfg] using hnew
  · intro s hs
    rw [getD_insert]
    by_cases hgf : g = f
    · subst hgf
      simp only [if_true, Finset.mem_union, not_or, List.mem_toFinset] at hfresh ⊢
      exact ⟨hxf.fresh s hs, fun hsy => (hfresh s hsy).2 hs⟩
    · simpa [hgf] using hxf.fresh s hs
  · refine BTreeMap.ext fun k => ?_
    simp only [getD_insert, BTreeMap.getElem?_insert]
    by_cases hfg : f = g
    · subst hfg
      by_cases hk : f = k
      · simp [hk, Finset.union_left_comm, Finset.union_comm]
      · simp [hk]
    · by_cases hk : f = k
      · subst hk
        simp [Ne.symm hfg]
      · simp [hk, hfg]

theorem validateAvailableOofBlocks_perm (hperm : blocks.Perm blocks')
    (h : validateAvailableOofBlocks signed source foldSet blocks = .ok ()) :
    validateAvailableOofBlocks signed source foldSet blocks' = .ok () := by
  obtain ⟨byFold, hloop, heach⟩ := bind_ok.mp h
  refine bind_ok.mpr ⟨byFold, loop_perm ?_ hperm hloop, heach⟩
  exact fun _ _ _ _ _ hx hy => gatherAvailableBlock_comm hx hy

-- ---------------------------------------------------------------------------
-- The declared policy
-- ---------------------------------------------------------------------------

theorem validateDeclaredStackingMissingPolicy_perm {plan : ExecutionPlan} {edge : EdgeSpec}
    (hperm : blocks.Perm blocks')
    (h : validateDeclaredStackingMissingPolicy plan edge blocks requested = .ok ()) :
    validateDeclaredStackingMissingPolicy plan edge blocks' requested = .ok () := by
  simp only [validateDeclaredStackingMissingPolicy, bind_ok, whenSome_ok,
    StackingMissingPredictionPolicy.validateCompleteInput, each_ok, refuseIf_ok, not_not] at h ⊢
  obtain ⟨node, hnode, policy, hpolicy, hcomplete⟩ := h
  refine ⟨node, hnode, policy, hpolicy, fun p hp => ?_⟩
  obtain ⟨_, hcontent, hcovered⟩ := hcomplete p hp
  refine ⟨(), fun block hblock => hcontent block (hperm.mem_iff.mpr hblock), ?_⟩
  rwa [← List.toFinset_eq_of_perm _ _ (hperm.flatMap_right _)]

-- ---------------------------------------------------------------------------
-- The edge
-- ---------------------------------------------------------------------------

/-- Two stores that give an edge the same evidence, up to order, give it the
same acceptance. -/
theorem validateRefitOofEdge_perm {externals : Externals} {plan : ExecutionPlan} {edge : EdgeSpec}
    {ctx ctx' : RunContext} (hperm : blocks.Perm blocks')
    (hevidence : refitEvidence externals plan edge ctx.predictionStore = .ok (pool, blocks))
    (hevidence' : refitEvidence externals plan edge ctx'.predictionStore = .ok (pool, blocks'))
    (h : validateRefitOofEdge externals plan edge ctx = .ok (some accepted)) :
    accepted = blocks ∧ validateRefitOofEdge externals plan edge ctx' = .ok (some blocks') := by
  simp only [validateRefitOofEdge, hevidence, hevidence', bind_ok] at h ⊢
  obtain ⟨contract, hcontract, evidence, hpool, signed, hsigned, h⟩ := h
  cases hpool
  cases signed with
  | some signed =>
    simp only [bind_ok, pure_ok] at h
    obtain ⟨source, hsource, name, hname, _, hcover, h⟩ := h
    cases h
    refine ⟨rfl, contract, hcontract, _, rfl, _, hsigned, ?_⟩
    simp only [bind_ok, pure_ok]
    exact ⟨source, hsource, name, hname, (), validateAvailableOofBlocks_perm hperm hcover, trivial⟩
  | none =>
    simp only [bind_ok, refuseIf_ok] at h
    obtain ⟨_, hdeclared, _, hempty, decision, hdecision, h⟩ := h
    cases decision with
    | skipRefit d => cases h
    | refitAllowed d =>
      cases h
      obtain ⟨d', hdecision'⟩ := refitAllowed_perm hperm hdecision
      refine ⟨rfl, contract, hcontract, _, rfl, _, hsigned, ?_⟩
      simp only [bind_ok, refuseIf_ok]
      refine ⟨(), validateDeclaredStackingMissingPolicy_perm hperm hdeclared, (), ?_, _,
        hdecision', rfl⟩
      rintro ⟨rfl, hpolicy⟩
      exact hempty ⟨hperm.eq_nil, hpolicy⟩

end DagMl

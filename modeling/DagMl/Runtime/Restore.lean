import DagMl.Bundle.Builders
import DagMl.Runtime.OofEvidence
import DagMl.Runtime.RefitOrder

/-!
# Restored evidence

What the prediction store of a replay holds after the preload, against the
store of the run that was bundled: for every sample-level contract the blocks
of its requirement's port and folds, appended whether or not another contract
brought the same ones.
-/

namespace DagMl

open Checked

-- ---------------------------------------------------------------------------
-- Contracts and scopes
-- ---------------------------------------------------------------------------

namespace ExecutionBundle

variable {Sections : Type} (bundle : ExecutionBundle Sections)

/-- Every cache record with the requirement it names. -/
def contracts : List ReplayPredictionCacheContract :=
  bundle.predictionCaches.filterMap fun cache =>
    (bundle.predictionRequirements.find? (·.key = cache.requirementKey)).map (⟨·, cache⟩)

/-- The contracts whose blocks are appended to the store. -/
def sampleContracts : List ReplayPredictionCacheContract :=
  bundle.contracts.filter (·.requirement.predictionLevel = .sample)

end ExecutionBundle

namespace BundlePredictionRequirement

/-- Two requirements on one output port, whoever consumes it. -/
def SameSource (self other : BundlePredictionRequirement) : Prop :=
  self.producerNode = other.producerNode ∧ self.sourcePort = other.sourcePort

instance (self other : BundlePredictionRequirement) : Decidable (self.SameSource other) :=
  inferInstanceAs (Decidable (_ ∧ _))

/-- The requirement of an edge. -/
def Serves (self : BundlePredictionRequirement) (edge : EdgeSpec) : Prop :=
  self.producerNode = edge.source.nodeId ∧ self.sourcePort = edge.source.portName ∧
    self.consumerNode = edge.target.nodeId ∧ self.targetPort = edge.target.portName

/-- A validation block of the requirement's port, in one of the folds it lists. -/
def InScope (self : BundlePredictionRequirement) (block : PredictionBlock) : Prop :=
  block.producerNode = self.producerNode ∧ block.partition = .validation ∧
    block.producerPort = some self.sourcePort ∧ ∃ foldId ∈ self.foldIds, block.foldId = some foldId

instance (self : BundlePredictionRequirement) (block : PredictionBlock) :
    Decidable (self.InScope block) :=
  inferInstanceAs (Decidable (_ ∧ _ ∧ _ ∧ ∃ foldId ∈ self.foldIds, _))

/-- The blocks a store holds for the requirement's port in a fold. -/
def heldIn (self : BundlePredictionRequirement) (foldId : FoldId)
    (store : InMemoryPredictionStore) : List PredictionBlock :=
  (store.find (some self.producerNode) (some .validation) (some foldId)).filter
    (·.producerPort = some self.sourcePort)

end BundlePredictionRequirement

/-- The cache store hands out what each requirement selects from the original run. -/
def Faithful {Sections : Type} (bundle : ExecutionBundle Sections)
    (cacheStore : RuntimePredictionCacheStore) (original : InMemoryPredictionStore) : Prop :=
  ∀ r ∈ bundle.predictionRequirements, r.predictionLevel = .sample →
    ∃ loaded, cacheStore.loadBlocks r.key = .ok loaded ∧
      loaded.Perm (original.blocks.filter (selects sampleKind r original.blocks))

section

variable {Sections : Type} {checks : SectionChecks Sections} {bundle : ExecutionBundle Sections}
  {externals : Externals} {cacheStore : RuntimePredictionCacheStore}

theorem mem_contracts (h : contract ∈ bundle.contracts) :
    contract.requirement ∈ bundle.predictionRequirements ∧
      contract.requirement.key = contract.cache.requirementKey := by
  obtain ⟨cache, -, h⟩ := List.mem_filterMap.mp h
  obtain ⟨r, hr, rfl⟩ := Option.map_eq_some_iff.mp h
  exact ⟨List.mem_of_find?_eq_some hr, by simpa using List.find?_some hr⟩

/-- The contract map lists the contracts of the bundle in the order of their keys. -/
theorem replayPredictionCacheContracts_perm (hvalid : bundle.Contracts)
    (h : replayPredictionCacheContracts checks bundle = .ok contracts) :
    (contracts.toList.map Prod.snd).Perm bundle.contracts := by
  simp only [replayPredictionCacheContracts, bind_ok, pure_ok] at h
  obtain ⟨_, -, entries, hentries, rfl⟩ := h
  have hindex := BTreeMap.indexOf_collect hvalid.keys_nodup
  have hlists (caches : List BundlePredictionCacheRecord)
      (entries : List (String × ReplayPredictionCacheContract))
      (hentries : collect caches (pairContract (.collect
        (bundle.predictionRequirements.map fun r => (r.key, r)))) = .ok entries) :
      entries.map Prod.fst = caches.map (·.requirementKey) ∧
        entries.map Prod.snd = caches.filterMap fun cache =>
          (bundle.predictionRequirements.find? (·.key = cache.requirementKey)).map (⟨·, cache⟩) := by
    induction collect_ok.mp hentries with
    | nil => exact ⟨rfl, rfl⟩
    | @cons cache entry caches entries hentry hrest ih =>
      obtain ⟨hkeys, hcontracts⟩ := ih (collect_ok.mpr hrest)
      simp only [pairContract, hindex.getElem?_eq_find?, bind_ok, need_ok, pure_ok] at hentry
      obtain ⟨r, hfind, rfl⟩ := hentry
      exact ⟨by simp [hkeys], by simp [hfind, hcontracts]⟩
  obtain ⟨hkeys, hcontracts⟩ := hlists _ _ hentries
  rw [ExecutionBundle.contracts, ← hcontracts]
  refine (BTreeMap.toList_collect_perm ?_).map _
  rw [hkeys]
  exact hvalid.cacheKeys_nodup

-- ---------------------------------------------------------------------------
-- One contract
-- ---------------------------------------------------------------------------

theorem selectPredictionCacheBlocks_perm {r : BundlePredictionRequirement}
    (h : selectPredictionCacheBlocks r blocks = .ok selected) :
    selected.Perm (blocks.filter (selects sampleKind r blocks)) := by
  simp only [selectPredictionCacheBlocks, selectBlocks, bind_ok, pure_ok] at h
  obtain ⟨_, -, _, -, rfl⟩ := h
  exact List.perm_insertionSort _ _

/-- The V2 family asks every block for its port. -/
theorem producerPort_of_validate {payload : BundlePredictionCachePayload}
    (hformat : payload.format = bundlePredictionCacheFormat)
    (h : payload.validate externals = .ok ()) (hblock : block ∈ payload.blocks) :
    block.producerPort ≠ none := by
  simp only [BundlePredictionCachePayload.validate, bind_ok] at h
  obtain ⟨_, -, _, -, _, -, _, -, _, -, version, hversion, h⟩ := h
  obtain ⟨_, -, _, -, _, -, _, -, _, -, _, -, _, hfamily, -⟩ := h
  simp only [BundlePredictionCachePayload.validateBlockFamily, bind_ok, each_ok] at hfamily
  obtain ⟨_, hfamily, -⟩ := hfamily
  have hblock := hfamily block hblock
  have hversion : version = predictionCachePayloadSchemaVersion := by
    simpa [predictionCacheSchemaVersionForFormat, hformat, bundlePredictionCacheFormat,
      legacyBundlePredictionCacheFormat, eq_comm] using hversion
  subst hversion
  rw [validatePredictionBlockPortFamily, if_neg (by decide), if_pos rfl] at hblock
  obtain ⟨port, hport, -⟩ := bind_ok.mp hblock
  simp [need_ok.mp hport]

/-- A payload holds the blocks its requirement selects, each with its port. -/
theorem buildPredictionCachePayload_ok {r : BundlePredictionRequirement}
    (h : buildPredictionCachePayload externals r blocks = .ok payload) :
    payload.predictionLevel = r.predictionLevel ∧
      payload.blocks.Perm (blocks.filter (selects sampleKind r blocks)) ∧
      ∀ block ∈ payload.blocks, block.producerPort ≠ none := by
  simp only [buildPredictionCachePayload, bind_ok, pure_ok] at h
  obtain ⟨selected, hselected, _, hvalid, _, -, _, -, rfl⟩ := h
  exact ⟨rfl, selectPredictionCacheBlocks_perm hselected,
    fun block hblock => producerPort_of_validate rfl hvalid hblock⟩

/-- The loaded payload of a contract is the one its record describes, block by block. -/
theorem loadPayload_ok {contract : ReplayPredictionCacheContract}
    (hlevel : contract.requirement.predictionLevel = .sample)
    (h : loadPayload externals cacheStore contract = .ok payload) :
    ∃ loaded, cacheStore.loadBlocks contract.cache.requirementKey = .ok loaded ∧
      payload.blocks.Perm
        (loaded.filter (selects sampleKind contract.requirement loaded)) ∧
      (∀ block ∈ payload.blocks, block.producerPort ≠ none) ∧
      payload.blocks.map (blockRecord externals sampleKind) = contract.cache.blocks := by
  simp only [loadPayload, bind_ok, pure_ok] at h
  obtain ⟨loaded, hloaded, _, -, built, hbuilt, _, hmatch, rfl⟩ := h
  obtain ⟨hbuiltLevel, hperm, hports⟩ := buildPredictionCachePayload_ok hbuilt
  simp only [validatePredictionCachePayloadMatchesRecord, bind_ok, refuseIf_ok, not_not] at hmatch
  obtain ⟨_, -, _, -, _, -, hrecords⟩ := hmatch
  rw [if_pos (hbuiltLevel.trans hlevel)] at hrecords
  exact ⟨loaded, hloaded, hperm, hports, hrecords⟩

theorem selects_iff {r : BundlePredictionRequirement} (hport : block.producerPort ≠ none)
    (hpartition : r.partition = .validation) :
    selects sampleKind r blocks block = true ↔ r.InScope block := by
  obtain ⟨port, hsome⟩ := Option.ne_none_iff_exists'.mp hport
  have hfold : (block.foldId.any (r.foldIds.contains ·)) = true ↔
      ∃ foldId ∈ r.foldIds, block.foldId = some foldId := by
    cases block.foldId with
    | none => simp
    | some foldId => simp
  simp only [selects, inCohort, Bool.and_eq_true, Bool.or_eq_true, decide_eq_true_eq]
  simp only [sampleKind, hsome, hpartition, hfold, Option.isNone_some, Bool.false_eq_true, false_and,
    or_false, BundlePredictionRequirement.InScope]
  tauto

/-- The blocks of the original run that a contract brings back. -/
def ReplayPredictionCacheContract.restored (self : ReplayPredictionCacheContract)
    (original : InMemoryPredictionStore) : List PredictionBlock :=
  original.blocks.filter (self.requirement.InScope ·)

/-- The record of a contract names the fold of every block it brings back. -/
def Described (original : InMemoryPredictionStore) (contract : ReplayPredictionCacheContract) :
    Prop :=
  (contract.cache.blocks.map (·.foldId)).Perm ((contract.restored original).map (·.foldId))

theorem requirement_partition {r : BundlePredictionRequirement} (h : r.validate = .ok ()) :
    r.partition = .validation := by
  simp only [BundlePredictionRequirement.validate, bind_ok, refuseIf_ok, not_not] at h
  obtain ⟨_, -, _, -, _, hpartition, -⟩ := h
  exact hpartition

theorem loadPayload_restored {contract : ReplayPredictionCacheContract}
    (hvalid : bundle.Contracts) (hfaithful : Faithful bundle cacheStore original)
    (hcontract : contract ∈ bundle.contracts)
    (hlevel : contract.requirement.predictionLevel = .sample)
    (h : loadPayload externals cacheStore contract = .ok payload) :
    payload.blocks.Perm (contract.restored original) ∧ Described original contract := by
  obtain ⟨hmem, hkey⟩ := mem_contracts hcontract
  obtain ⟨loaded, hloaded, hselected⟩ := hfaithful _ hmem hlevel
  obtain ⟨loaded', hloaded', hperm, hports, hrecords⟩ := loadPayload_ok hlevel h
  rw [← hkey, hloaded] at hloaded'
  cases hloaded'
  rw [filter_selects_selected hselected] at hperm
  have hperm := hperm.trans hselected
  have hpartition := requirement_partition (hvalid.requirements _ hmem)
  have hscope : original.blocks.filter (selects sampleKind contract.requirement original.blocks) =
      contract.restored original := by
    refine List.filter_congr fun block hblock => Bool.eq_iff_iff.mpr ?_
    rw [decide_eq_true_eq]
    constructor
    · intro hselects
      have hport := hports block (hperm.mem_iff.mpr (List.mem_filter.mpr ⟨hblock, hselects⟩))
      exact (selects_iff hport hpartition).mp hselects
    · intro hin
      exact (selects_iff (by simp [hin.2.2.1]) hpartition).mpr hin
  rw [hscope] at hperm
  refine ⟨hperm, ?_⟩
  have hfolds : contract.cache.blocks.map (·.foldId) = payload.blocks.map (·.foldId) := by
    rw [← hrecords, List.map_map]
    rfl
  rw [Described, hfolds]
  exact hperm.map _

-- ---------------------------------------------------------------------------
-- The whole preload
-- ---------------------------------------------------------------------------

/-- What the store holds after the preload, up to order. -/
def ExecutionBundle.restored (bundle : ExecutionBundle Sections)
    (original : InMemoryPredictionStore) : List PredictionBlock :=
  bundle.sampleContracts.flatMap (·.restored original)

theorem append_loop {store store' : InMemoryPredictionStore} {blocks : List PredictionBlock}
    (h : loop InMemoryPredictionStore.append store blocks = .ok store') :
    store'.blocks = store.blocks ++ blocks := by
  refine loop_invariant (fun done (store' : InMemoryPredictionStore) =>
    store'.blocks = store.blocks ++ done) (by simp) ?_ h
  rintro done block store₁ store₂ hdone hblock
  simp only [InMemoryPredictionStore.append, bind_ok, pure_ok] at hblock
  obtain ⟨_, -, rfl⟩ := hblock
  simp [hdone]

/-- One contract adds what it brings back. -/
theorem preloadContract_ok {store store' : InMemoryPredictionStore}
    (hvalid : bundle.Contracts) (hfaithful : Faithful bundle cacheStore original)
    (hcontract : contract ∈ bundle.contracts)
    (h : preloadContract externals cacheStore store contract = .ok store') :
    store'.blocks.Perm (store.blocks ++
      ([contract].filter (·.requirement.predictionLevel = .sample)).flatMap (·.restored original)) ∧
    (contract.requirement.predictionLevel = .sample → Described original contract) := by
  unfold preloadContract at h
  split at h
  · rename_i hlevel
    obtain ⟨payload, hpayload, h⟩ := bind_ok.mp h
    obtain ⟨hperm, hdescribed⟩ := loadPayload_restored hvalid hfaithful hcontract hlevel hpayload
    refine ⟨?_, fun _ => hdescribed⟩
    rw [append_loop h]
    simpa [hlevel] using hperm.append_left store.blocks
  · rename_i hlevel
    obtain ⟨_, -, h⟩ := bind_ok.mp h
    cases h
    exact ⟨by simp [hlevel], fun h => absurd h hlevel⟩

/-- A run of the preload, contract after contract. -/
theorem preloadContracts_ok {contracts : List ReplayPredictionCacheContract}
    {store store' : InMemoryPredictionStore}
    (hvalid : bundle.Contracts) (hfaithful : Faithful bundle cacheStore original)
    (hcontracts : ∀ contract ∈ contracts, contract ∈ bundle.contracts)
    (h : loop (preloadContract externals cacheStore) store contracts = .ok store') :
    store'.blocks.Perm (store.blocks ++
      (contracts.filter (·.requirement.predictionLevel = .sample)).flatMap (·.restored original)) ∧
    ∀ contract ∈ contracts, contract.requirement.predictionLevel = .sample →
      Described original contract := by
  induction contracts generalizing store with
  | nil =>
    cases h
    simp
  | cons contract rest ih =>
    obtain ⟨next, hcontract, hrest⟩ := loop_cons.mp h
    rw [List.forall_mem_cons] at hcontracts
    obtain ⟨hperm, hdescribed⟩ := preloadContract_ok hvalid hfaithful hcontracts.1 hcontract
    obtain ⟨hpermRest, hdescribedRest⟩ := ih hcontracts.2 hrest
    refine ⟨?_, List.forall_mem_cons.mpr ⟨hdescribed, hdescribedRest⟩⟩
    rw [← List.singleton_append, List.filter_append, List.flatMap_append, ← List.append_assoc]
    exact hpermRest.trans (hperm.append_right _)

theorem validate_of_preload (hrequirements : bundle.predictionRequirements ≠ [])
    (h : preloadReplayPredictionCacheStore checks bundle externals (some cacheStore) ctx =
      .ok ctx') : bundle.validate checks = .ok () := by
  rw [preloadReplayPredictionCacheStore, if_neg (by simpa using hrequirements)] at h
  simp only [replayPredictionCacheContracts, bind_ok] at h
  obtain ⟨_, -, _, -, _, ⟨_, hvalid, -⟩, -⟩ := h
  exact hvalid

/-- After a preload the store holds the restored blocks of the bundle. -/
theorem preload_restored (hvalid : bundle.validate checks = .ok ())
    (hfaithful : Faithful bundle cacheStore original)
    (hrequirements : bundle.predictionRequirements ≠ [])
    (h : preloadReplayPredictionCacheStore checks bundle externals (some cacheStore) ctx =
      .ok ctx') :
    ctx'.predictionStore.blocks.Perm (bundle.restored original) ∧
      ∀ contract ∈ bundle.sampleContracts, Described original contract := by
  have hvalid := ExecutionBundle.validate_contracts hvalid
  rw [preloadReplayPredictionCacheStore, if_neg (by simpa using hrequirements)] at h
  simp only [bind_ok, need_ok, Option.some.injEq, refuseIf_ok, pure_ok, not_not] at h
  obtain ⟨_, rfl, _, hempty, contracts, hcontracts, store, hstore, rfl⟩ := h
  have hperm := replayPredictionCacheContracts_perm hvalid hcontracts
  obtain ⟨hblocks, hdescribed⟩ := preloadContracts_ok hvalid hfaithful
    (fun contract hcontract => hperm.mem_iff.mp hcontract) hstore
  rw [hempty, List.nil_append] at hblocks
  refine ⟨hblocks.trans ((hperm.filter _).flatMap_right _), fun contract hcontract => ?_⟩
  obtain ⟨hmem, hlevel⟩ := List.mem_filter.mp hcontract
  exact hdescribed contract (hperm.mem_iff.mpr hmem) (by simpa using hlevel)

end

-- ---------------------------------------------------------------------------
-- Counting restored blocks
-- ---------------------------------------------------------------------------

section

variable {Sections : Type} {bundle : ExecutionBundle Sections}

/-- The folds of the blocks that the cache records describe for a port, one
entry for each record of a block. -/
def ExecutionBundle.cachedFolds (bundle : ExecutionBundle Sections)
    (r : BundlePredictionRequirement) : List (Option FoldId) :=
  (bundle.sampleContracts.filter (·.requirement.SameSource r)).flatMap
    (·.cache.blocks.map (·.foldId))

theorem mem_heldIn {r : BundlePredictionRequirement} {store : InMemoryPredictionStore} :
    block ∈ r.heldIn foldId store ↔ block ∈ store.blocks ∧ block.producerNode = r.producerNode ∧
      block.partition = .validation ∧ block.producerPort = some r.sourcePort ∧
      block.foldId = some foldId := by
  simp only [BundlePredictionRequirement.heldIn, List.mem_filter, mem_find, Option.some.injEq,
    forall_eq', decide_eq_true_eq]
  tauto

/-- Of one contract, a fold's blocks are those its record describes in the fold. -/
theorem length_heldIn_restored {contract : ReplayPredictionCacheContract}
    {r : BundlePredictionRequirement} (hdescribed : Described original contract) :
    (r.heldIn foldId ⟨contract.restored original⟩).length =
      if contract.requirement.SameSource r then
        (contract.cache.blocks.map (·.foldId)).count (some foldId)
      else 0 := by
  by_cases hsource : contract.requirement.SameSource r
  · have hfilter : r.heldIn foldId ⟨contract.restored original⟩ =
        (contract.restored original).filter (·.foldId = some foldId) := by
      simp only [BundlePredictionRequirement.heldIn, InMemoryPredictionStore.find,
        List.filter_filter]
      refine List.filter_congr fun block hblock => Bool.eq_iff_iff.mpr ?_
      obtain ⟨-, hin⟩ := List.mem_filter.mp hblock
      obtain ⟨hproducer, hvalidation, hport, -⟩ := of_decide_eq_true hin
      simp [InMemoryPredictionStore.requests, hproducer, hvalidation, hport, hsource.1, hsource.2]
    rw [if_pos hsource, hdescribed.count_eq, hfilter, List.count, List.countP_map,
      List.countP_eq_length_filter]
    refine congrArg List.length (List.filter_congr fun block _ => Bool.eq_iff_iff.mpr ?_)
    simp
  · rw [if_neg hsource, List.length_eq_zero_iff, List.eq_nil_iff_forall_not_mem]
    intro block hblock
    obtain ⟨hmem, hproducer, -, hport, -⟩ := mem_heldIn.mp hblock
    obtain ⟨hproducer', -, hport', -⟩ := of_decide_eq_true (List.mem_filter.mp hmem).2
    exact hsource ⟨hproducer'.symm.trans hproducer, Option.some.inj (hport'.symm.trans hport)⟩

/-- A restored store holds as many blocks for a port and fold as the records describe. -/
theorem length_heldIn {store original : InMemoryPredictionStore} {r : BundlePredictionRequirement}
    (hblocks : store.blocks.Perm (bundle.restored original))
    (hdescribed : ∀ contract ∈ bundle.sampleContracts, Described original contract) :
    (r.heldIn foldId store).length = (bundle.cachedFolds r).count (some foldId) := by
  have hperm : (r.heldIn foldId store).Perm (r.heldIn foldId ⟨bundle.restored original⟩) :=
    (hblocks.filter _).filter _
  rw [hperm.length_eq]
  unfold ExecutionBundle.restored ExecutionBundle.cachedFolds
  revert hdescribed
  induction bundle.sampleContracts with
  | nil => simp [BundlePredictionRequirement.heldIn, InMemoryPredictionStore.find]
  | cons contract contracts ih =>
    intro hdescribed
    rw [List.forall_mem_cons] at hdescribed
    have hsplit : r.heldIn foldId ⟨(contract :: contracts).flatMap (·.restored original)⟩ =
        r.heldIn foldId ⟨contract.restored original⟩ ++
          r.heldIn foldId ⟨contracts.flatMap (·.restored original)⟩ := by
      simp [BundlePredictionRequirement.heldIn, InMemoryPredictionStore.find]
    rw [hsplit, List.length_append, length_heldIn_restored hdescribed.1, ih hdescribed.2]
    by_cases hsource : contract.requirement.SameSource r
    · simp [hsource]
    · simp [hsource]

/-- How often a block is restored: once for every contract it is in scope of. -/
theorem count_restored {original : InMemoryPredictionStore} :
    (bundle.restored original).count block =
      bundle.sampleContracts.countP (·.requirement.InScope block) * original.blocks.count block := by
  unfold ExecutionBundle.restored
  induction bundle.sampleContracts with
  | nil => simp
  | cons contract contracts ih =>
    rw [List.flatMap_cons, List.count_append, ih, List.countP_cons, Nat.add_mul]
    by_cases hin : contract.requirement.InScope block
    · rw [ReplayPredictionCacheContract.restored, List.count_filter (by simpa using hin)]
      simp [hin, Nat.add_comm]
    · have hnone : block ∉ contract.restored original := by
        simp [ReplayPredictionCacheContract.restored, hin]
      simp [hin, List.count_eq_zero_of_not_mem hnone]

end

-- ---------------------------------------------------------------------------
-- One block for each port and fold
-- ---------------------------------------------------------------------------

section

variable {Sections : Type}

/-- For every sample-level requirement and each of its folds the store holds one
block of the port, one that the cache store has for the requirement. -/
def HeldOnce (bundle : ExecutionBundle Sections) (cacheStore : RuntimePredictionCacheStore)
    (store : InMemoryPredictionStore) : Prop :=
  ∀ r ∈ bundle.predictionRequirements, r.predictionLevel = .sample → ∀ foldId ∈ r.foldIds,
    ∃ block loaded, r.heldIn foldId store = [block] ∧
      cacheStore.loadBlocks r.key = .ok loaded ∧ block ∈ loaded

/-- For every sample-level requirement and each of its folds one block record in
all, over the cache records of every requirement on the same port. -/
def CachedOnce (bundle : ExecutionBundle Sections) : Prop :=
  ∀ r ∈ bundle.predictionRequirements, r.predictionLevel = .sample → ∀ foldId ∈ r.foldIds,
    (bundle.cachedFolds r).count (some foldId) = 1

/-- Every edge of a sample-level requirement that the original run accepted is
accepted on the restored store, with the same blocks. -/
def AcceptsAsBefore (externals : Externals) (plan : ExecutionPlan)
    (bundle : ExecutionBundle Sections) (original restored : RunContext) : Prop :=
  ∀ r ∈ bundle.predictionRequirements, r.predictionLevel = .sample → ∀ edge, r.Serves edge →
    ∀ blocks, validateRefitOofEdge externals plan edge original = .ok (some blocks) →
      ∃ blocks', validateRefitOofEdge externals plan edge restored = .ok (some blocks') ∧
        blocks'.Perm blocks

/-- Every block that such an edge read in the original run is in the scope of a
sample-level requirement. -/
def ListsEvidence (externals : Externals) (plan : ExecutionPlan)
    (bundle : ExecutionBundle Sections) (original : RunContext) : Prop :=
  ∀ r ∈ bundle.predictionRequirements, r.predictionLevel = .sample → ∀ edge, r.Serves edge →
    ∀ blocks, validateRefitOofEdge externals plan edge original = .ok (some blocks) →
      ∀ block ∈ blocks, ∃ r' ∈ bundle.predictionRequirements, r'.predictionLevel = .sample ∧
        r'.InScope block

variable {bundle : ExecutionBundle Sections} {externals : Externals} {plan : ExecutionPlan}
  {cacheStore : RuntimePredictionCacheStore}

theorem mem_restored {original : InMemoryPredictionStore} :
    block ∈ bundle.restored original ↔ block ∈ original.blocks ∧
      ∃ contract ∈ bundle.sampleContracts, contract.requirement.InScope block := by
  simp only [ExecutionBundle.restored, ReplayPredictionCacheContract.restored, List.mem_flatMap,
    List.mem_filter, decide_eq_true_eq]
  constructor
  · rintro ⟨contract, hcontract, hmem, hin⟩
    exact ⟨hmem, contract, hcontract, hin⟩
  · rintro ⟨hmem, contract, hcontract, hin⟩
    exact ⟨contract, hcontract, hmem, hin⟩

theorem heldOnce_iff {store original : InMemoryPredictionStore} (hvalid : bundle.Contracts)
    (hfaithful : Faithful bundle cacheStore original)
    (hblocks : store.blocks.Perm (bundle.restored original))
    (hdescribed : ∀ contract ∈ bundle.sampleContracts, Described original contract) :
    HeldOnce bundle cacheStore store ↔ CachedOnce bundle := by
  constructor
  · intro hheld r hr hlevel foldId hfold
    obtain ⟨block, loaded, hsingle, -⟩ := hheld r hr hlevel foldId hfold
    rw [← length_heldIn hblocks hdescribed, hsingle, List.length_singleton]
  · intro hcached r hr hlevel foldId hfold
    have hlength := hcached r hr hlevel foldId hfold
    rw [← length_heldIn hblocks hdescribed] at hlength
    obtain ⟨block, hsingle⟩ := List.length_eq_one_iff.mp hlength
    obtain ⟨loaded, hloaded, hperm⟩ := hfaithful r hr hlevel
    refine ⟨block, loaded, hsingle, hloaded, hperm.mem_iff.mpr (List.mem_filter.mpr ?_)⟩
    obtain ⟨hmem, hproducer, hvalidation, hport, hnamed⟩ :=
      mem_heldIn.mp (hsingle ▸ List.mem_singleton_self block)
    refine ⟨(mem_restored.mp (hblocks.mem_iff.mp hmem)).1, ?_⟩
    exact (selects_iff (by simp [hport]) (requirement_partition (hvalid.requirements r hr))).mpr
      ⟨hproducer, hvalidation, hport, foldId, hfold, hnamed⟩

/-- A block in scope of a requirement is restored as often as the original run held it. -/
theorem count_restored_of_cachedOnce {store original : InMemoryPredictionStore}
    {r : BundlePredictionRequirement} (hcached : CachedOnce bundle)
    (hblocks : store.blocks.Perm (bundle.restored original))
    (hdescribed : ∀ contract ∈ bundle.sampleContracts, Described original contract)
    (hr : r ∈ bundle.predictionRequirements) (hlevel : r.predictionLevel = .sample)
    (hin : r.InScope block) (hmem : block ∈ original.blocks) :
    (bundle.restored original).count block = original.blocks.count block := by
  obtain ⟨hproducer, hvalidation, hport, foldId, hfold, hnamed⟩ := hin
  have hlength := hcached r hr hlevel foldId hfold
  rw [← length_heldIn hblocks hdescribed] at hlength
  obtain ⟨other, hsingle⟩ := List.length_eq_one_iff.mp hlength
  have hother := mem_heldIn.mp (hsingle ▸ List.mem_singleton_self other)
  obtain ⟨-, contract, hcontract, hscope⟩ := mem_restored.mp (hblocks.mem_iff.mp hother.1)
  have hblock : contract.requirement.InScope block := by
    obtain ⟨hproducer', hvalidation', hport', foldId', hfold', hnamed'⟩ := hscope
    refine ⟨?_, hvalidation, ?_, foldId', hfold', ?_⟩
    · rw [hproducer, ← hproducer', hother.2.1]
    · rw [hport, ← hport', hother.2.2.2.1]
    · rw [hnamed, ← hnamed', hother.2.2.2.2]
  -- The port and fold hold one block in all, so no second contract restores this one.
  have hheld : (r.heldIn foldId store).count block = store.blocks.count block := by
    rw [BundlePredictionRequirement.heldIn, InMemoryPredictionStore.find,
      List.count_filter (by simp [hport]), List.count_filter]
    simp [InMemoryPredictionStore.requests, hproducer, hvalidation, hnamed]
  have hbound : (bundle.restored original).count block ≤ 1 := by
    rw [← hblocks.count_eq, ← hheld]
    exact List.count_le_length.trans hlength.le
  have hheldPos : 0 < original.blocks.count block := List.count_pos_iff.mpr hmem
  have hscopes : 0 < bundle.sampleContracts.countP (·.requirement.InScope block) :=
    List.countP_pos_iff.mpr ⟨contract, hcontract, by simpa using hblock⟩
  rw [count_restored] at hbound ⊢
  have hone : bundle.sampleContracts.countP (·.requirement.InScope block) = 1 :=
    Nat.le_antisymm ((Nat.le_mul_of_pos_right _ hheldPos).trans hbound) hscopes
  rw [hone, Nat.one_mul]

-- ---------------------------------------------------------------------------
-- The refit of an edge
-- ---------------------------------------------------------------------------

/-- The blocks of a store that a refit filters an edge's evidence from. -/
def refitCandidates (edge : EdgeSpec) (nested : Option NestedStackingCampaignPlan)
    (pool : FoldSet) (store : InMemoryPredictionStore) : List PredictionBlock :=
  (store.find (some edge.source.nodeId) (some .validation) none).filter (inRefitPool nested pool)

theorem refitEvidence_ok {edge : EdgeSpec} {store : InMemoryPredictionStore} :
    refitEvidence externals plan edge store = .ok (pool, blocks) ↔
      ∃ nested, nestedForEdge externals plan edge = .ok nested ∧
        refitPool plan edge nested = .ok pool ∧
        filterPredictionBlocksForEdgeSourcePort plan edge externals
          (refitCandidates edge nested pool store) = .ok blocks := by
  simp only [refitEvidence, refitCandidates, bind_ok, pure_ok, Prod.mk.injEq]
  constructor
  · rintro ⟨nested, hnested, _, hpool, _, hblocks, rfl, rfl⟩
    exact ⟨nested, hnested, hpool, hblocks⟩
  · rintro ⟨nested, hnested, hpool, hblocks⟩
    exact ⟨nested, hnested, pool, hpool, blocks, hblocks, rfl, rfl⟩

/-- The port filter refuses nothing in a part of a list that it passed. -/
theorem filterPredictionBlocksForEdgeSourcePort_subset {edge : EdgeSpec}
    {blocks fewer : List PredictionBlock}
    (h : filterPredictionBlocksForEdgeSourcePort plan edge externals blocks = .ok kept)
    (hsubset : fewer ⊆ blocks) :
    filterPredictionBlocksForEdgeSourcePort plan edge externals fewer =
      .ok (fewer.filter (OnSourcePort plan edge ·.producerPort)) := by
  obtain ⟨options, hcollect, -⟩ := bind_ok.mp h
  have hkeep (block : PredictionBlock) (hblock : block ∈ blocks) :
      keepForEdge plan edge externals block =
        .ok (if OnSourcePort plan edge block.producerPort then some block else none) := by
    obtain ⟨option, -, hoption⟩ := exists_right_of_mem (collect_ok.mp hcollect) hblock
    rw [hoption, keepForEdge_ok hoption]
  have hfewer : collect fewer (keepForEdge plan edge externals) = .ok (fewer.map fun block =>
      if OnSourcePort plan edge block.producerPort then some block else none) := by
    rw [collect_ok, List.forall₂_map_right_iff, List.forall₂_same]
    exact fun block hblock => hkeep block (hsubset hblock)
  have hok : filterPredictionBlocksForEdgeSourcePort plan edge externals fewer = .ok
      (fewer.map fun block =>
        if OnSourcePort plan edge block.producerPort then some block else none).reduceOption :=
    bind_ok.mpr ⟨_, hfewer, rfl⟩
  rw [hok, filterPredictionBlocksForEdgeSourcePort_ok hok]

/-- Equal counts of the blocks that pass two filters alike are equal selections. -/
theorem filter_perm_of_count {blocks blocks' : List PredictionBlock} {p : PredictionBlock → Bool}
    (h : ∀ block, p block = true → blocks.count block = blocks'.count block) :
    (blocks.filter p).Perm (blocks'.filter p) := by
  rw [List.perm_iff_count]
  intro block
  by_cases hp : p block = true
  · rw [List.count_filter hp, List.count_filter hp, h block hp]
  · rw [List.count_eq_zero_of_not_mem fun hm => hp (List.of_mem_filter hm),
      List.count_eq_zero_of_not_mem fun hm => hp (List.of_mem_filter hm)]

/-- An accepted edge passes on its whole evidence. -/
theorem validateRefitOofEdge_evidence {edge : EdgeSpec} {ctx : RunContext}
    (h : validateRefitOofEdge externals plan edge ctx = .ok (some blocks)) :
    ∃ pool, refitEvidence externals plan edge ctx.predictionStore = .ok (pool, blocks) := by
  have hevidence := h
  simp only [validateRefitOofEdge, bind_ok] at hevidence
  obtain ⟨_, -, ⟨pool, read⟩, hevidence, -⟩ := hevidence
  obtain ⟨rfl, -⟩ := validateRefitOofEdge_perm (.refl read) hevidence hevidence h
  exact ⟨pool, hevidence⟩

theorem acceptsAsBefore_of_cachedOnce {original restored : RunContext}
    (hcached : CachedOnce bundle) (hlists : ListsEvidence externals plan bundle original)
    (hblocks : restored.predictionStore.blocks.Perm (bundle.restored original.predictionStore))
    (hdescribed : ∀ contract ∈ bundle.sampleContracts,
      Described original.predictionStore contract) :
    AcceptsAsBefore externals plan bundle original restored := by
  intro r hr hlevel edge hserves blocks haccepted
  obtain ⟨pool, hevidence⟩ := validateRefitOofEdge_evidence haccepted
  obtain ⟨nested, hnested, hpool, hread⟩ := refitEvidence_ok.mp hevidence
  have hsubset : refitCandidates edge nested pool restored.predictionStore ⊆
      refitCandidates edge nested pool original.predictionStore := by
    intro block hblock
    obtain ⟨hfound, hin⟩ := List.mem_filter.mp hblock
    obtain ⟨hmem, hfound⟩ := mem_find.mp hfound
    refine List.mem_filter.mpr ⟨mem_find.mpr ⟨?_, hfound⟩, hin⟩
    exact (mem_restored.mp (hblocks.mem_iff.mp hmem)).1
  have hread' := filterPredictionBlocksForEdgeSourcePort_subset hread hsubset
  have hevidence' := refitEvidence_ok.mpr ⟨nested, hnested, hpool, hread'⟩
  have hperm : blocks.Perm ((refitCandidates edge nested pool restored.predictionStore).filter
      (OnSourcePort plan edge ·.producerPort)) := by
    have hblocksEq := filterPredictionBlocksForEdgeSourcePort_ok hread
    have hscope (block : PredictionBlock) (hblock : block ∈ blocks) :=
      hlists r hr hlevel edge hserves blocks haccepted block hblock
    rw [hblocksEq] at hscope ⊢
    simp only [refitCandidates, InMemoryPredictionStore.find, List.filter_filter] at hscope ⊢
    refine filter_perm_of_count fun block hp => ?_
    rw [hblocks.count_eq]
    by_cases hmem : block ∈ original.predictionStore.blocks
    · obtain ⟨r', hr', hlevel', hin⟩ := hscope block (List.mem_filter.mpr ⟨hmem, hp⟩)
      exact (count_restored_of_cachedOnce hcached hblocks hdescribed hr' hlevel' hin hmem).symm
    · rw [List.count_eq_zero_of_not_mem hmem, List.count_eq_zero_of_not_mem fun hm =>
        hmem (mem_restored.mp hm).1]
  obtain ⟨-, haccepted'⟩ := validateRefitOofEdge_perm hperm hevidence hevidence' haccepted
  exact ⟨_, haccepted', hperm.symm⟩

theorem listsEvidence_of_acceptsAsBefore {original restored : RunContext}
    (haccepts : AcceptsAsBefore externals plan bundle original restored)
    (hblocks : restored.predictionStore.blocks.Perm (bundle.restored original.predictionStore)) :
    ListsEvidence externals plan bundle original := by
  intro r hr hlevel edge hserves blocks haccepted block hblock
  obtain ⟨blocks', haccepted', hperm⟩ := haccepts r hr hlevel edge hserves blocks haccepted
  obtain ⟨pool, hevidence⟩ := validateRefitOofEdge_evidence haccepted'
  obtain ⟨nested, -, -, hread⟩ := refitEvidence_ok.mp hevidence
  have hblock := hperm.mem_iff.mpr hblock
  rw [filterPredictionBlocksForEdgeSourcePort_ok hread] at hblock
  have hfound := List.mem_of_mem_filter (List.mem_of_mem_filter hblock)
  obtain ⟨-, contract, hcontract, hin⟩ :=
    mem_restored.mp (hblocks.mem_iff.mp (mem_find.mp hfound).1)
  obtain ⟨hcontract, hlevel'⟩ := List.mem_filter.mp hcontract
  exact ⟨contract.requirement, (mem_contracts hcontract).1, by simpa using hlevel', hin⟩

/-- A preload restores the evidence of the original run exactly when every port
and fold of the requirements is cached once and the requirements list what the
accepted edges read. -/
theorem preloadReplayPredictionCacheStore_restores_iff (checks : SectionChecks Sections)
    (bundle : ExecutionBundle Sections) (externals : Externals) (plan : ExecutionPlan)
    (cacheStore : RuntimePredictionCacheStore) (original ctx restored : RunContext)
    (hvalid : bundle.validate checks = .ok ())
    (hfaithful : Faithful bundle cacheStore original.predictionStore)
    (h : preloadReplayPredictionCacheStore checks bundle externals (some cacheStore) ctx =
      .ok restored) :
    HeldOnce bundle cacheStore restored.predictionStore ∧
        AcceptsAsBefore externals plan bundle original restored ↔
      CachedOnce bundle ∧ ListsEvidence externals plan bundle original := by
  by_cases hrequirements : bundle.predictionRequirements = []
  · simp [HeldOnce, AcceptsAsBefore, CachedOnce, ListsEvidence, hrequirements]
  · obtain ⟨hblocks, hdescribed⟩ := preload_restored hvalid hfaithful hrequirements h
    have hcontracts := ExecutionBundle.validate_contracts hvalid
    rw [heldOnce_iff hcontracts hfaithful hblocks hdescribed]
    refine and_congr_right fun hcached => ⟨fun haccepts => ?_, fun hlists => ?_⟩
    · exact listsEvidence_of_acceptsAsBefore haccepts hblocks
    · exact acceptsAsBefore_of_cachedOnce hcached hlists hblocks hdescribed

end

-- ---------------------------------------------------------------------------
-- Two consumers of one port
-- ---------------------------------------------------------------------------

def portedBlock : PredictionBlock :=
  { singleBlock with producerPort := some "oof", targetNames := ["y"] }

def consumerRequirement (consumerNode : NodeId) : BundlePredictionRequirement where
  producerNode := portedBlock.producerNode
  sourcePort := "oof"
  consumerNode
  targetPort := "features"
  partition := .validation
  predictionLevel := .sample
  foldIds := portedBlock.foldId.toList
  unitIds := []
  sampleIds := portedBlock.sampleIds
  predictionWidth := 1
  targetNames := ["y"]

def consumerCache (externals : Externals) (r : BundlePredictionRequirement) :
    BundlePredictionCacheRecord where
  requirementKey := r.key
  cacheId := s!"prediction-cache:{r.key}"
  cacheNamespaceFingerprints := []
  format := bundlePredictionCacheFormat
  partition := .validation
  predictionLevel := .sample
  foldIds := r.foldIds
  unitIds := []
  sampleIds := r.sampleIds
  predictionWidth := 1
  targetNames := ["y"]
  blockCount := 1
  rowCount := 1
  contentFingerprint := stableJsonFingerprint externals (.array [portedBlock.toValue])
  blocks := [blockRecord externals sampleKind portedBlock]

/-- A bundle of one base model with the given consumers of its port. -/
def consumersBundle (externals : Externals) (consumers : List NodeId) : ExecutionBundle Unit where
  bundleId := ⟨"bundle:shared", by decide⟩
  schemaVersion := 2
  planId := "plan:shared"
  graphFingerprint := String.ofList (List.replicate 64 '0')
  campaignFingerprint := String.ofList (List.replicate 64 '0')
  controllerFingerprint := String.ofList (List.replicate 64 '0')
  selectedVariantId := none
  predictionRequirements := consumers.map consumerRequirement
  predictionCaches := consumers.map fun consumer =>
    consumerCache externals (consumerRequirement consumer)
  sections := ()

def openChecks : SectionChecks Unit := ⟨fun _ => .ok (), fun _ => .ok (), fun _ => .ok ()⟩

/-- Every requirement is answered with the one block there is. -/
def portedCache : RuntimePredictionCacheStore where
  loadBlocks _ := .ok [portedBlock]
  loadAggregatedBlocks _ := .ok []
  materialize _ := .error (.runtimeValidation "")

def consumerA : NodeId := ⟨"model:meta.a", by decide⟩
def consumerB : NodeId := ⟨"model:meta.b", by decide⟩

def replayContext : RunContext := .new ⟨"run:replay", by decide⟩ none

theorem consumersBundle_faithful {consumers : List NodeId} :
    Faithful (consumersBundle stackExternals consumers) portedCache ⟨[portedBlock]⟩ := by
  intro r hr _
  obtain ⟨consumer, -, rfl⟩ := List.mem_map.mp hr
  exact ⟨[portedBlock], rfl, .refl _⟩

/-- Two requirements on one port, one fold each: the block is restored twice. -/
theorem shared_port_restored_twice :
    ¬ ∀ (checks : SectionChecks Unit) (bundle : ExecutionBundle Unit) (externals : Externals)
        (plan : ExecutionPlan) (cacheStore : RuntimePredictionCacheStore)
        (original ctx restored : RunContext),
      bundle.validate checks = .ok () → Faithful bundle cacheStore original.predictionStore →
      preloadReplayPredictionCacheStore checks bundle externals (some cacheStore) ctx =
        .ok restored →
      HeldOnce bundle cacheStore restored.predictionStore ∧
        AcceptsAsBefore externals plan bundle original restored := by
  intro h
  have hloaded : (preloadReplayPredictionCacheStore openChecks
      (consumersBundle stackExternals [consumerA, consumerB]) stackExternals (some portedCache)
      replayContext).isOk = true := by decide +kernel
  have hrestored := eq_ok_valueOf hloaded
  have hvalid := validate_of_preload (by simp [consumersBundle]) hrestored
  have horiginal : Faithful (consumersBundle stackExternals [consumerA, consumerB]) portedCache
      ⟨[portedBlock]⟩ := consumersBundle_faithful
  obtain ⟨hheld, -⟩ := h openChecks _ stackExternals stackPlan portedCache
    { replayContext with predictionStore := ⟨[portedBlock]⟩ } replayContext _ hvalid horiginal
    hrestored
  obtain ⟨hblocks, hdescribed⟩ := preload_restored hvalid horiginal (by simp [consumersBundle])
    hrestored
  have hcached := (heldOnce_iff (ExecutionBundle.validate_contracts hvalid) horiginal hblocks
    hdescribed).mp hheld
  have hone := hcached (consumerRequirement consumerA) (by simp [consumersBundle]) rfl
    ⟨"fold0", by decide⟩ (by decide)
  revert hone
  decide +kernel

/-- With a single consumer the block is cached once. -/
theorem single_consumer_restored :
    ∃ restored, preloadReplayPredictionCacheStore openChecks
        (consumersBundle stackExternals [consumerA]) stackExternals (some portedCache)
        replayContext = .ok restored ∧
      (HeldOnce (consumersBundle stackExternals [consumerA]) portedCache
          restored.predictionStore ∧
        AcceptsAsBefore stackExternals stackPlan (consumersBundle stackExternals [consumerA])
          { replayContext with predictionStore := ⟨[portedBlock]⟩ } restored ↔
      CachedOnce (consumersBundle stackExternals [consumerA]) ∧
        ListsEvidence stackExternals stackPlan (consumersBundle stackExternals [consumerA])
          { replayContext with predictionStore := ⟨[portedBlock]⟩ }) := by
  have hloaded : (preloadReplayPredictionCacheStore openChecks
      (consumersBundle stackExternals [consumerA]) stackExternals (some portedCache)
      replayContext).isOk = true := by decide +kernel
  have hrestored := eq_ok_valueOf hloaded
  have hvalid := validate_of_preload (by simp [consumersBundle]) hrestored
  exact ⟨_, hrestored, preloadReplayPredictionCacheStore_restores_iff openChecks _
    stackExternals stackPlan portedCache { replayContext with predictionStore := ⟨[portedBlock]⟩ }
    replayContext _ hvalid consumersBundle_faithful hrestored⟩

end DagMl

import DagMl.Bundle.Builders
import DagMl.Runtime.CacheShelf
import DagMl.Training.OofCaches

/-!
# The caches of a run hold its evidence

A requirement and its cache are made from the same blocks by two selections.
`requirementFrom` describes the evidence of an edge, and the cache keeps what
of it names its port and its fold, in the order of the folds.
-/

namespace DagMl

open Checked

section

variable {β : Type} {plan : ExecutionPlan} {kind : BlockKind β} {edge : EdgeSpec}
  {level : PredictionLevel} {report : Option (List FoldId)} {r : BundlePredictionRequirement}
  {blocks selected : List β}

-- ---------------------------------------------------------------------------
-- What a requirement says of its evidence
-- ---------------------------------------------------------------------------

/-- The requirement of an edge describes the selected blocks. -/
structure Describes (kind : BlockKind β) (edge : EdgeSpec) (level : PredictionLevel)
    (selected : List β) (r : BundlePredictionRequirement) : Prop where
  ne_nil : selected ≠ []
  valid : r.Valid
  producer : r.producerNode = edge.source.nodeId
  sourcePort : r.sourcePort = edge.source.portName
  key : r.key = edge.requirementKey
  level : r.predictionLevel = level
  shape : ∀ block ∈ selected, kind.validateShape block = .ok r.predictionWidth
  targets : ∀ block ∈ selected, kind.normalizedTargets block r.predictionWidth = r.targetNames
  folds : r.foldIds = ascending (selected.filterMap kind.foldId).toFinset
  samples : r.sampleIds = ascending (selected.flatMap kind.sampleIds).toFinset
  units : r.unitIds = ascending (selected.flatMap kind.unitIds).toFinset

theorem gatherShape_ok {expected shape : Option (Nat × List String)} {block : β} :
    gatherShape kind edge expected block = .ok shape ↔ ∃ k : Nat × List String,
      (kind.validateShape block = .ok k.1 ∧ kind.normalizedTargets block k.1 = k.2) ∧
        (∀ k' ∈ expected, k' = k) ∧ shape = some k := by
  simp only [gatherShape, mergeOofShape, bind_ok, refuseIf_ok, pure_ok, not_exists, not_and,
    not_not]
  constructor
  · rintro ⟨width, hshape, _, hwidth, _, hnames, rfl⟩
    exact ⟨(width, _), ⟨hshape, rfl⟩,
      fun expected h => Prod.ext (hwidth expected h) (hnames expected h), rfl⟩
  · rintro ⟨⟨width, names⟩, ⟨hshape, hnames⟩, hexpected, rfl⟩
    obtain rfl : kind.normalizedTargets block width = names := hnames
    exact ⟨width, hshape, (), fun expected h => congrArg Prod.fst (hexpected expected h), (),
      fun expected h => congrArg Prod.snd (hexpected expected h), rfl⟩

theorem describes_of_requirementFrom
    (h : requirementFrom plan kind edge level report word blocks = .ok r) :
    Describes kind edge level (blocks.filter (isEvidence plan kind edge level report)) r := by
  simp only [requirementFrom, bind_ok, refuseIf_ok, pure_ok, List.isEmpty_iff,
    BundlePredictionRequirement.validate_ok] at h
  obtain ⟨_, hne, shape, hloop, _, hvalid, rfl⟩ := h
  have step : ∀ block ∈ blocks.filter (isEvidence plan kind edge level report), ∀ expected shape,
      gatherShape kind edge expected block = .ok shape ↔ ∃ k : Nat × List String,
        (kind.validateShape block = .ok k.1 ∧ kind.normalizedTargets block k.1 = k.2) ∧
          (∀ k' ∈ expected, k' = k) ∧ shape = some k := fun _ _ _ _ => gatherShape_ok
  obtain ⟨k, rfl, hagree⟩ := (loop_agree_none hne step).mp hloop
  constructor
  case ne_nil => exact hne
  case valid => exact hvalid
  case shape => exact fun block hblock => (hagree block hblock).1
  case targets => exact fun block hblock => (hagree block hblock).2
  all_goals rfl

-- ---------------------------------------------------------------------------
-- What the cache keeps of it
-- ---------------------------------------------------------------------------

/-- The level test of a scope is that of the requirement. -/
def BlockKind.AtLevel (kind : BlockKind β) (level : PredictionLevel) : Prop :=
  ∀ r : BundlePredictionRequirement, r.predictionLevel = level →
    ∀ block, kind.inLevel r block = decide (kind.level block = level)

theorem sampleKind_atLevel : sampleKind.AtLevel .sample := fun _ _ _ => rfl

theorem aggregatedKind_atLevel : aggregatedKind.AtLevel level := by
  rintro r rfl block
  rfl

/-- Evidence that names its port and its fold. -/
def isKept (plan : ExecutionPlan) (kind : BlockKind β) (edge : EdgeSpec) (level : PredictionLevel)
    (report : Option (List FoldId)) (block : β) : Bool :=
  isEvidence plan kind edge level report block &&
    kind.producerPort block = some edge.source.portName && (kind.foldId block).isSome

/-- The blocks in the order of their folds, and of their names in one fold. -/
def kept (plan : ExecutionPlan) (kind : BlockKind β) (edge : EdgeSpec) (level : PredictionLevel)
    (report : Option (List FoldId)) (blocks : List β) : List β :=
  (blocks.filter (isKept plan kind edge level report)).insertionSort (beforeInCache kind)

theorem filter_onPort_eq (hlevel : kind.AtLevel level)
    (h : Describes kind edge level (blocks.filter (isEvidence plan kind edge level report)) r) :
    blocks.filter (onPort kind r) = blocks.filter (isKept plan kind edge level report) := by
  have hfold (foldId : FoldId) : foldId ∈ r.foldIds ↔
      ∃ block ∈ blocks, isEvidence plan kind edge level report block = true ∧
        kind.foldId block = some foldId := by
    simp [h.folds, and_assoc]
  refine List.filter_congr fun block hblock => Bool.eq_iff_iff.mpr ?_
  simp only [onPort, isKept, inCohort, h.producer, h.valid.partition_eq, h.sourcePort,
    hlevel r h.level block, Bool.and_eq_true, decide_eq_true_eq]
  constructor
  · rintro ⟨⟨⟨⟨hproducer, hpartition⟩, hat⟩, hany⟩, hport⟩
    obtain ⟨foldId, hfoldId⟩ : ∃ foldId, kind.foldId block = some foldId := by
      cases hnone : kind.foldId block with
      | none => simp [hnone] at hany
      | some foldId => exact ⟨foldId, rfl⟩
    have hmem : r.foldIds.contains foldId = true := by simpa [hfoldId] using hany
    obtain ⟨other, -, hother, hsame⟩ := (hfold foldId).mp (List.contains_iff_mem.mp hmem)
    refine ⟨⟨?_, hport⟩, by simp [hfoldId]⟩
    simp only [isEvidence, Bool.and_eq_true, decide_eq_true_eq, hsame] at hother
    simp only [isEvidence, Bool.and_eq_true, decide_eq_true_eq, hfoldId]
    refine ⟨⟨⟨⟨hproducer, ?_⟩, hpartition⟩, hat⟩, hother.2⟩
    simp [hport, ExecutionPlan.producerPortMatchesGraphOutput]
  · rintro ⟨⟨hevidence, hport⟩, hsome⟩
    obtain ⟨foldId, hfoldId⟩ := Option.isSome_iff_exists.mp hsome
    have hmem : foldId ∈ r.foldIds := (hfold foldId).mpr ⟨block, hblock, hevidence, hfoldId⟩
    simp only [isEvidence, Bool.and_eq_true, decide_eq_true_eq] at hevidence
    obtain ⟨⟨⟨⟨hproducer, -⟩, hpartition⟩, hat⟩, -⟩ := hevidence
    exact ⟨⟨⟨⟨hproducer, hpartition⟩, hat⟩, by simpa [hfoldId] using hmem⟩, hport⟩

/-- What the builders go on with, when every block of it names its port. -/
theorem chosen_eq_kept (hlevel : kind.AtLevel level)
    (h : Describes kind edge level (blocks.filter (isEvidence plan kind edge level report)) r)
    (hports : ∀ block ∈ chosen kind r blocks, kind.producerPort block ≠ none) :
    chosen kind r blocks = kept plan kind edge level report blocks := by
  rw [chosen, kept, ← filter_onPort_eq hlevel h, filter_selects_eq_onPort]
  exact fun block hblock => hports block (chosen_perm.mem_iff.mpr hblock)

-- ---------------------------------------------------------------------------
-- When a cache can be built
-- ---------------------------------------------------------------------------

/-- The scheduler has put a port to every block, and cross-validation a fold to
every validation block. -/
def Named (kind : BlockKind β) (blocks : List β) : Prop :=
  ∀ block ∈ blocks, kind.producerPort block ≠ none ∧
    (kind.partition block = .validation → kind.foldId block ≠ none)

/-- No blank prediction id, and no row twice in one fold. -/
structure Cacheable (kind : BlockKind β) (selected : List β) : Prop where
  predictionId_ne : ∀ block ∈ selected, ∀ predictionId ∈ kind.predictionId block,
    isBlank predictionId = false
  samples_nodup :
    (selected.flatMap fun block => (kind.sampleIds block).map (kind.foldId block, ·)).Nodup
  units_nodup :
    (selected.flatMap fun block => (kind.unitIds block).map (kind.foldId block, ·)).Nodup

theorem filter_isKept_eq (hnamed : Named kind blocks) :
    blocks.filter (isKept plan kind edge level report) =
      blocks.filter (isEvidence plan kind edge level report) := by
  refine List.filter_congr fun block hblock => Bool.eq_iff_iff.mpr ⟨fun hkept => ?_, fun h => ?_⟩
  · simp only [isKept, Bool.and_eq_true] at hkept
    exact hkept.1.1
  · obtain ⟨hport, hfold⟩ := hnamed block hblock
    have hevidence := h
    simp only [isEvidence, Bool.and_eq_true, decide_eq_true_eq] at h
    obtain ⟨⟨⟨⟨-, hmatch⟩, hpartition⟩, -⟩, -⟩ := h
    obtain ⟨port, hport⟩ := Option.ne_none_iff_exists'.mp hport
    have heq : port = edge.source.portName := by
      simpa [ExecutionPlan.producerPortMatchesGraphOutput, hport] using hmatch
    simp [isKept, hevidence, hport, heq, Option.isSome_iff_ne_none.mpr (hfold hpartition)]

theorem port_ne_none_of_chosen (hnamed : Named kind blocks)
    (hblock : block ∈ chosen kind r blocks) : kind.producerPort block ≠ none :=
  (hnamed block (List.mem_of_mem_filter (chosen_perm.mem_iff.mp hblock))).1

/-- The builders go on with all the evidence. -/
theorem chosen_eq_evidence (hlevel : kind.AtLevel level) (hnamed : Named kind blocks)
    (h : Describes kind edge level (blocks.filter (isEvidence plan kind edge level report)) r) :
    chosen kind r blocks = (blocks.filter (isEvidence plan kind edge level report)).insertionSort
      (beforeInCache kind) := by
  rw [chosen_eq_kept hlevel h fun _ hblock => port_ne_none_of_chosen hnamed hblock, kept,
    filter_isKept_eq hnamed]

/-- A requirement made from the blocks always fits the cache made from them. -/
theorem recordable_iff (hlevel : kind.AtLevel level) (hnamed : Named kind blocks)
    (h : Describes kind edge level (blocks.filter (isEvidence plan kind edge level report)) r) :
    Recordable kind r (chosen kind r blocks) ↔
      Cacheable kind (blocks.filter (isEvidence plan kind edge level report)) := by
  rw [chosen_eq_evidence hlevel hnamed h, recordable_perm (List.perm_insertionSort _ _)]
  constructor
  · intro hrecordable
    exact ⟨hrecordable.predictionId_ne, hrecordable.samples_nodup, hrecordable.units_nodup⟩
  · intro hcacheable
    constructor
    case requirement => exact h.valid
    case ne_nil => exact h.ne_nil
    case level =>
      intro block hblock
      have hevidence := List.of_mem_filter hblock
      simp only [isEvidence, Bool.and_eq_true, decide_eq_true_eq] at hevidence
      rw [h.level, hevidence.1.2]
    case shape => exact h.shape
    case targets => exact h.targets
    case predictionId_ne => exact hcacheable.predictionId_ne
    case folds => exact h.folds.symm
    case samples => exact h.samples.symm
    case units => exact fun _ => h.units.symm
    case samples_nodup => exact hcacheable.samples_nodup
    case units_nodup => exact hcacheable.units_nodup

end

end DagMl

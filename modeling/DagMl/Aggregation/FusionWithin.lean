import DagMl.Aggregation.FusionProba

/-!
# The models of one branch

Equal-weight means of the models of one branch, which all cover the same
samples. A model without a class adds nothing to its column.
-/

namespace DagMl

open Checked WeightedRows BTreeMap

variable {K : Type} [Field K] {blocks blocks' : List (ExactBlock K)} {out : ExactBlock K}

/-- The sums of the samples after some rows, each added with weight one. -/
structure SumsHold (width : Nat) (samples : List SampleId)
    (entries : List (SampleId × (List K × K))) (sums : BTreeMap SampleId (List K)) : Prop where
  mem : ∀ s, s ∈ sums ↔ s ∈ samples
  slot : ∀ s acc, sums[s]? = some acc →
    acc.length = width ∧ ∀ j, entry acc j = weightedSum (bucket entries s) j

namespace SumsHold

variable {width : Nat} {samples : List SampleId} {entries : List (SampleId × (List K × K))}
  {sums : BTreeMap SampleId (List K)}

theorem zeros (width : Nat) (samples : List SampleId) :
    SumsHold width samples [] (tabulate samples fun _ => List.replicate width (0 : K)) := by
  constructor
  · intro s
    simp [mem_iff, getElem?_tabulate]
  · intro s acc hacc
    simp only [getElem?_tabulate, Option.ite_none_right_eq_some, Option.some.injEq] at hacc
    obtain ⟨-, rfl⟩ := hacc
    simp [bucket, weightedSum]

theorem addRow (h : SumsHold width samples entries sums) {e : SampleId × List K}
    (hs : e.1 ∈ samples) (hwidth : e.2.length ≤ width) :
    ∃ output, sums[e.1]? = some output ∧
      SumsHold width samples (entries ++ [(e.1, e.2, 1)])
        (sums.insert e.1 (WeightedRows.addRow id output e.2)) := by
  obtain ⟨output, houtput⟩ := mem_iff.mp ((h.mem e.1).mpr hs)
  obtain ⟨hlength, hsum⟩ := h.slot e.1 output houtput
  refine ⟨output, houtput, fun s => ?_, fun s acc hacc => ?_⟩
  · rw [mem_iff, getElem?_insert]
    split
    · next heq => simpa [← heq] using hs
    · rw [← mem_iff, h.mem]
  · rw [getElem?_insert] at hacc
    rw [bucket_append, bucket_singleton]
    split at hacc
    · next heq =>
      rw [Option.some.injEq] at hacc
      rw [← hacc, ← heq]
      refine ⟨by rw [length_addRow, hlength], fun j => ?_⟩
      rw [entry_addRow rfl (hlength ▸ hwidth), hsum, weightedSum_append]
      simp [weightedSum]
    · next hne =>
      simpa [hne] using h.slot s acc hacc

theorem addRows (h : SumsHold width samples entries sums) {rows : List (SampleId × List K)}
    (hrows : ∀ e ∈ rows, e.1 ∈ samples ∧ e.2.length ≤ width) :
    ∃ sums', loop addModelRow sums rows = .ok sums' ∧
      SumsHold width samples (entries ++ rows.map fun e => (e.1, e.2, 1)) sums' := by
  induction rows generalizing entries sums with
  | nil => exact ⟨sums, rfl, by simpa using h⟩
  | cons e rows ih =>
    rw [List.forall_mem_cons] at hrows
    obtain ⟨output, houtput, hnext⟩ := h.addRow hrows.1.1 hrows.1.2
    obtain ⟨sums', hloop, hholds⟩ := ih hnext hrows.2
    refine ⟨sums', loop_cons.mpr ⟨_, ?_, hloop⟩, by simpa using hholds⟩
    simp only [addModelRow, bind_ok, need_ok, pure_ok]
    exact ⟨output, houtput, rfl⟩

/-- Models that cover the samples add up. -/
theorem addModels (h : SumsHold width samples entries sums) {first : ExactBlock K}
    (hfirst : first.sampleIds = samples)
    (hblocks : ∀ b ∈ blocks, b.Content ∧ b.sampleIds.toFinset = samples.toFinset ∧ b.width ≤ width) :
    ∃ sums', loop (addModel first) sums blocks = .ok sums' ∧
      SumsHold width samples (entries ++ contributions (blocks.map (·, 1))) sums' := by
  induction blocks generalizing entries sums with
  | nil => exact ⟨sums, rfl, by simpa [contributions] using h⟩
  | cons b blocks ih =>
    rw [List.forall_mem_cons] at hblocks
    obtain ⟨⟨hcontent, hsamples, hwidth⟩, hblocks⟩ := hblocks
    have hrows : ∀ e ∈ b.rows, e.1 ∈ samples ∧ e.2.length ≤ width := by
      intro e he
      obtain ⟨hid, hvalue⟩ := List.of_mem_zip he
      refine ⟨?_, (hcontent.rows_width e.2 hvalue).trans_le hwidth⟩
      rw [← List.mem_toFinset, ← hsamples, List.mem_toFinset]
      exact hid
    obtain ⟨next, hnext, hholds⟩ := h.addRows hrows
    obtain ⟨sums', hloop, hholds'⟩ := ih hholds hblocks
    refine ⟨sums', loop_cons.mpr ⟨next, ?_, hloop⟩, ?_⟩
    · simp only [addModel, bind_ok, refuseIf_ok, not_not]
      exact ⟨(), by rw [hfirst, hsamples], hnext⟩
    · simpa [contributions, weightedRows] using hholds'

end SumsHold

/-- The means of the sums. -/
def branchValues (sums : BTreeMap SampleId (List K)) (samples : List SampleId) (count : Nat) :
    List (List K) :=
  samples.map fun s => (sums.getD s []).map (· / (count : K))

/-- A sample that every model covers weighs as much as there are models. -/
theorem weightSum_coverage (hcontent : ∀ b ∈ blocks, b.Content) {s : SampleId}
    (hs : ∀ b ∈ blocks, s ∈ b.sampleIds) :
    weightSum (coverage (blocks.map (·, (1 : K))) s) = blocks.length := by
  induction blocks with
  | nil => simp [coverage, weightSum]
  | cons b blocks ih =>
    rw [List.forall_mem_cons] at hcontent hs
    obtain ⟨row, hrow⟩ := Option.isSome_iff_exists.mp (hcontent.1.rowOf_isSome.mpr hs.1)
    have hcons : coverage ((b :: blocks).map (·, (1 : K))) s =
        (row, 1) :: coverage (blocks.map (·, (1 : K))) s := by
      simp [coverage, hrow]
    have hrest := ih hcontent.2 hs.2
    simp only [weightSum] at hrest
    rw [hcons, weightSum, List.map_cons, List.sum_cons, hrest, List.length_cons]
    push_cast
    ring

/-- The models of one branch, which all cover the samples of the first. -/
structure BranchModels (first : ExactBlock K) (blocks : List (ExactBlock K)) : Prop where
  head : blocks.head? = some first
  content : ∀ b ∈ blocks, b.Content
  partition : ∀ b ∈ blocks, b.partition = first.partition
  foldId : ∀ b ∈ blocks, b.foldId = first.foldId
  samples : ∀ b ∈ blocks, b.sampleIds.toFinset = first.sampleIds.toFinset

/-- The width of the widest model. -/
def widest (blocks : List (ExactBlock K)) : Nat := (blocks.map ExactBlock.width).foldl max 0

omit [Field K] in
theorem width_le_widest (hb : b ∈ blocks) : b.width ≤ widest blocks := by
  have general (widths : List Nat) (start : Nat) : start ≤ widths.foldl max start ∧
      ∀ w ∈ widths, w ≤ widths.foldl max start := by
    induction widths generalizing start with
    | nil => simp
    | cons w widths ih =>
      obtain ⟨hstart, hall⟩ := ih (max start w)
      refine ⟨(le_max_left _ _).trans hstart, ?_⟩
      rw [List.forall_mem_cons]
      exact ⟨(le_max_right _ _).trans hstart, hall⟩
  exact (general _ 0).2 _ (List.mem_map_of_mem hb)

omit [Field K] in
theorem checkModel_ok {first block : ExactBlock K} : checkModel first block = .ok w ↔
    block.Content ∧ block.partition = first.partition ∧ block.foldId = first.foldId ∧
      w = block.width := by
  simp only [checkModel, bind_ok, ExactBlock.validateContent_ok, refuseIf_ok, pure_ok, not_or,
    not_not, exists_const]
  constructor
  · rintro ⟨_, ⟨hcontent, rfl⟩, ⟨hpartition, hfold⟩, rfl⟩
    exact ⟨hcontent, hpartition, hfold, rfl⟩
  · rintro ⟨hcontent, hpartition, hfold, rfl⟩
    exact ⟨_, ⟨hcontent, rfl⟩, ⟨hpartition, hfold⟩, rfl⟩

theorem BranchModels.sums {first : ExactBlock K} (h : BranchModels first blocks) :
    ∃ sums, loop (addModel first)
        (tabulate first.sampleIds fun _ => List.replicate (widest blocks) 0) blocks = .ok sums ∧
      SumsHold (widest blocks) first.sampleIds (contributions (blocks.map (·, 1))) sums := by
  simpa using (SumsHold.zeros (widest blocks) first.sampleIds).addModels rfl
    fun b hb => ⟨h.content b hb, h.samples b hb, width_le_widest hb⟩

theorem reduceProbaMeanWithinBranch_ok {branchNode : NodeId} :
    reduceProbaMeanWithinBranch blocks branchNode = .ok out ↔
      ∃ first, BranchModels first blocks ∧
        (∀ b ∈ blocks, checkTargetNames (widestTargetNames (widest blocks) blocks) b = .ok ()) ∧
        ∃ sums, loop (addModel first)
            (tabulate first.sampleIds fun _ => List.replicate (widest blocks) 0) blocks = .ok sums ∧
          ExactBlock.mk none branchNode none first.partition first.foldId first.sampleIds
            (branchValues sums first.sampleIds blocks.length)
            (widestTargetNames (widest blocks) blocks) = out := by
  simp only [reduceProbaMeanWithinBranch, bind_ok, need_ok, each_ok, pure_ok, exists_const]
  constructor
  · rintro ⟨first, hfirst, widths, hwidths, sums, hsums, hnames, rfl⟩
    have hrows := collect_ok.mp hwidths
    have hmap : widths = blocks.map ExactBlock.width := by
      simpa using map_of_collect (g := id) hwidths fun b w h => (checkModel_ok.mp h).2.2.2
    subst hmap
    have hmodel : ∀ b ∈ blocks, b.Content ∧ b.partition = first.partition ∧
        b.foldId = first.foldId := by
      intro b hb
      obtain ⟨w, -, hw⟩ := exists_right_of_mem hrows hb
      obtain ⟨hcontent, hpartition, hfold, -⟩ := checkModel_ok.mp hw
      exact ⟨hcontent, hpartition, hfold⟩
    have hsamples : ∀ b ∈ blocks, b.sampleIds.toFinset = first.sampleIds.toFinset := by
      refine loop_forall (fun sums b sums' hb => ?_) hsums
      simp only [addModel, bind_ok, refuseIf_ok, not_not] at hb
      exact hb.choose_spec.1
    exact ⟨first, ⟨hfirst, fun b hb => (hmodel b hb).1, fun b hb => (hmodel b hb).2.1,
      fun b hb => (hmodel b hb).2.2, hsamples⟩, hnames, sums, hsums, rfl⟩
  · rintro ⟨first, h, hnames, sums, hsums, rfl⟩
    refine ⟨first, h.head, blocks.map ExactBlock.width, ?_, sums, hsums, hnames, rfl⟩
    rw [collect_ok, List.forall₂_map_right_iff, List.forall₂_same]
    exact fun b hb => checkModel_ok.mpr ⟨h.content b hb, h.partition b hb, h.foldId b hb, rfl⟩

variable [LinearOrder K] [IsStrictOrderedRing K]

/-- The means of the models are the means of the branch. -/
theorem BranchModels.weightedMeans {first : ExactBlock K} (h : BranchModels first blocks)
    {sums : BTreeMap SampleId (List K)}
    (hholds : SumsHold (widest blocks) first.sampleIds (contributions (blocks.map (·, 1))) sums) :
    WeightedMeans (widest blocks) (weighted blocks none) first.sampleIds
      (branchValues sums first.sampleIds blocks.length) := by
  have hfirst : first ∈ blocks := List.mem_of_mem_head? h.head
  have hmem (b : ExactBlock K) (hb : b ∈ blocks) (s : SampleId) :
      s ∈ b.sampleIds ↔ s ∈ first.sampleIds := by
    rw [← List.mem_toFinset, h.samples b hb, List.mem_toFinset]
  have hpairs : ∀ b ∈ blocks.map (·, (1 : K)), b.1.Content := by simpa using h.content
  have hcount : ∀ s ∈ first.sampleIds,
      weightSum (coverage (blocks.map (·, (1 : K))) s) = blocks.length :=
    fun s hs => weightSum_coverage h.content fun b hb => (hmem b hb s).mpr hs
  have hslot : ∀ s ∈ first.sampleIds, (sums.getD s []).length = widest blocks ∧
      ∀ j, entry (sums.getD s []) j = weightedSum (coverage (blocks.map (·, 1)) s) j := by
    intro s hs
    obtain ⟨acc, hacc⟩ := mem_iff.mp ((hholds.mem s).mpr hs)
    rw [Std.ExtTreeMap.getD_eq_getD_getElem?, hacc, ← bucket_contributions hpairs]
    exact hholds.slot s acc hacc
  rw [weighted_none]
  refine ⟨?_, (h.content first hfirst).nodup, fun s => ?_, ?_, fun s hs => ?_, ?_⟩
  · simp [branchValues]
  · constructor
    · exact fun hs => ⟨(first, 1), List.mem_map_of_mem hfirst, hs⟩
    · rintro ⟨p, hp, hs⟩
      obtain ⟨b, hb, rfl⟩ := List.mem_map.mp hp
      exact (hmem b hb s).mp hs
  · intro row hrow
    obtain ⟨s, hs, rfl⟩ := List.mem_map.mp hrow
    rw [List.length_map, (hslot s hs).1]
  · rw [hcount s hs, Nat.cast_pos]
    exact List.length_pos_of_mem hfirst
  · intro s row hrow j
    have hzip : first.sampleIds.zip (branchValues sums first.sampleIds blocks.length) =
        first.sampleIds.map fun s => (s, (sums.getD s []).map (· / (blocks.length : K))) := by
      rw [branchValues, ← List.zip_map', List.map_id']
    rw [hzip] at hrow
    obtain ⟨s', hs, heq⟩ := List.mem_map.mp hrow
    obtain ⟨rfl, rfl⟩ := Prod.mk.inj heq
    rw [entry_map (by simp), (hslot s' hs).2, weightedMean, hcount s' hs]

omit [LinearOrder K] [IsStrictOrderedRing K] in
theorem widest_eq (hcontent : ∀ b ∈ blocks, b.Content) (h : Shuffled blocks none blocks' none) :
    widest blocks' = widest blocks := by
  obtain ⟨between, hperm, hrel⟩ := h.sameWeighted
  rw [weighted_none] at hperm hrel
  have hwidths : blocks'.map ExactBlock.width = between.map fun p => p.1.width := by
    have hbetween : ∀ p ∈ between, p.1.Content := by
      intro p hp
      obtain ⟨b, hb, rfl⟩ := List.mem_map.mp (hperm.mem_iff.mpr hp)
      exact hcontent b hb
    have hlist : blocks'.map ExactBlock.width =
        (blocks'.map (·, (1 : K))).map fun p => p.1.width := by
      rw [List.map_map]
      rfl
    rw [hlist]
    clear hperm hlist
    generalize blocks'.map (·, (1 : K)) = pairs' at hrel
    induction hrel with
    | nil => rfl
    | cons hp hrest ih =>
      rw [List.forall_mem_cons] at hbetween
      rw [List.map_cons, List.map_cons, hp.1.width hbetween.1, ih hbetween.2]
  have hperm' : (between.map fun p => p.1.width).Perm (blocks.map ExactBlock.width) := by
    have hmap := hperm.symm.map fun p => p.1.width
    rwa [List.map_map] at hmap
  rw [widest, widest, hwidths]
  exact hperm'.foldl_eq 0

omit [Field K] [LinearOrder K] [IsStrictOrderedRing K] in
theorem checkTargetNames_ok {targetNames : List String} {block : ExactBlock K} :
    checkTargetNames targetNames block = .ok u ↔
      (block.targetNames ≠ [] → targetNames ≠ [] →
        block.targetNames = targetNames.take block.targetNames.length) := by
  rw [checkTargetNames, refuseIf_ok, not_and, not_and]
  simp only [not_not]

omit [Field K] [LinearOrder K] [IsStrictOrderedRing K] in
/-- Compatible class names are the names of any model of full width. -/
theorem widestTargetNames_eq {width : Nat} (hwidth : 0 < width)
    (hnames : ∀ b ∈ blocks, checkTargetNames (widestTargetNames width blocks) b = .ok ())
    (hb : b ∈ blocks) (hlength : b.targetNames.length = width) :
    b.targetNames = widestTargetNames width blocks := by
  have hfound : (blocks.find? fun block => block.targetNames.length = width).isSome :=
    List.find?_isSome.mpr ⟨b, hb, by simpa using hlength⟩
  obtain ⟨found, hfind⟩ := Option.isSome_iff_exists.mp hfound
  have hfound_length : found.targetNames.length = width := by
    simpa using List.find?_some hfind
  have heq : widestTargetNames width blocks = found.targetNames := by
    rw [widestTargetNames, hfind]
  have hnil (names : List String) (h : names.length = width) : names ≠ [] := by
    rintro rfl
    exact hwidth.ne h
  have htake := checkTargetNames_ok.mp (hnames b hb) (hnil _ hlength)
    (heq ▸ hnil _ hfound_length)
  rw [htake, heq, hlength, ← hfound_length, List.take_length]

theorem probaLaw_within (branchNode : NodeId) :
    ProbaLaw (K := K) id (reduceProbaMeanWithinBranch · branchNode) := by
  have hmeans (blocks : List (ExactBlock K)) (out : ExactBlock K)
      (h : reduceProbaMeanWithinBranch blocks branchNode = .ok out) :
      (∀ b ∈ blocks, b.Content) ∧
        WeightedMeans (widest blocks) (weighted blocks none) out.sampleIds out.values := by
    obtain ⟨first, hmodels, -, sums, hsums, rfl⟩ := reduceProbaMeanWithinBranch_ok.mp h
    obtain ⟨sums', hsums', hholds⟩ := hmodels.sums
    rw [hsums, Except.ok.injEq] at hsums'
    exact ⟨hmodels.content, hmodels.weightedMeans (hsums' ▸ hholds)⟩
  constructor
  · intro blocks out h
    exact ⟨widest blocks, out.values, (hmeans blocks out h).2, (List.map_id _).symm⟩
  · intro blocks out h hdist
    obtain ⟨hcontent, hvalues⟩ := hmeans blocks out h
    exact ⟨hvalues.distribution hcontent (fun b hb => width_le_widest hb) hdist,
      widest blocks, hvalues⟩
  · intro blocks blocks' out h hshuffled
    obtain ⟨first, hmodels, hnames, sums, hsums, hout⟩ := reduceProbaMeanWithinBranch_ok.mp h
    obtain ⟨first', hfirst', -⟩ := hshuffled.first hmodels.head
    have hwidest := widest_eq hmodels.content hshuffled
    have hpos : 0 < widest blocks := by
      have hfirst := List.mem_of_mem_head? hmodels.head
      exact (hmodels.content first hfirst).width_pos.trans_le (width_le_widest hfirst)
    have hmodel : ∀ b' ∈ blocks', b'.Content ∧ b'.partition = first.partition ∧
        b'.foldId = first.foldId ∧ b'.sampleIds.toFinset = first.sampleIds.toFinset := by
      intro b' hb'
      obtain ⟨b, hb, hbb'⟩ := hshuffled.exists_left hb'
      have hcontent := hmodels.content b hb
      refine ⟨hbb'.content hcontent, hbb'.partition.trans (hmodels.partition b hb),
        hbb'.foldId.trans (hmodels.foldId b hb), ?_⟩
      rw [List.toFinset_eq_of_perm _ _ (hbb'.sampleIds hcontent), hmodels.samples b hb]
    obtain ⟨-, hpartition, hfold, hsamples⟩ := hmodel first' (List.mem_of_mem_head? hfirst')
    have hmodels' : BranchModels first' blocks' := ⟨hfirst', fun b' hb' => (hmodel b' hb').1,
      fun b' hb' => (hmodel b' hb').2.1.trans hpartition.symm,
      fun b' hb' => (hmodel b' hb').2.2.1.trans hfold.symm,
      fun b' hb' => (hmodel b' hb').2.2.2.trans hsamples.symm⟩
    have hnames' : widestTargetNames (widest blocks) blocks' =
        widestTargetNames (widest blocks) blocks := by
      cases hfind : blocks'.find? fun block => block.targetNames.length = widest blocks with
      | some b' =>
        obtain ⟨b, hb, hbb'⟩ := hshuffled.exists_left (List.mem_of_find?_eq_some hfind)
        have hlength : b.targetNames.length = widest blocks := by
          rw [← hbb'.targetNames]
          simpa using List.find?_some hfind
        rw [← widestTargetNames_eq hpos hnames hb hlength, widestTargetNames, hfind]
        exact hbb'.targetNames
      | none =>
        have hnone : blocks.find? (fun block => block.targetNames.length = widest blocks) = none := by
          rw [List.find?_eq_none] at hfind ⊢
          intro b hb
          obtain ⟨b', hb', hbb'⟩ := hshuffled.exists_right hb
          rw [← hbb'.targetNames]
          exact hfind b' hb'
        rw [widestTargetNames, widestTargetNames, hfind, hnone]
    obtain ⟨sums', hsums', -⟩ := hmodels'.sums
    have hnames'' : ∀ b' ∈ blocks',
        checkTargetNames (widestTargetNames (widest blocks') blocks') b' = .ok () := by
      intro b' hb'
      obtain ⟨b, hb, hbb'⟩ := hshuffled.exists_left hb'
      rw [hwidest, hnames', checkTargetNames_ok, hbb'.targetNames]
      exact checkTargetNames_ok.mp (hnames b hb)
    obtain ⟨out', h'⟩ : ∃ out', reduceProbaMeanWithinBranch blocks' branchNode = .ok out' :=
      ⟨_, reduceProbaMeanWithinBranch_ok.mpr ⟨first', hmodels', hnames'', sums', hsums', rfl⟩⟩
    refine ⟨out', h', fun s => ?_⟩
    obtain ⟨hcontent, hvalues⟩ := hmeans blocks out h
    have hvalues' := (hmeans blocks' out' h').2
    rw [hwidest] at hvalues'
    refine hvalues.rowOf_eq hvalues' hshuffled.sameWeighted (fun p hp => ?_) s
    rw [weighted_none] at hp
    obtain ⟨b, hb, rfl⟩ := List.mem_map.mp hp
    exact hcontent b hb

-- ---------------------------------------------------------------------------
-- All reducers
-- ---------------------------------------------------------------------------

/-- The reducers across folds, across branches and within a branch average
each sample over the blocks that hold it, whatever their order; the probability
reducers keep distributions. -/
theorem fusion_laws [ToString K] (foldLabel : String) (node : NodeId) :
    FusionLaw (K := K) (reducePredictionsAcrossFolds · · foldLabel) ∧
    FusionLaw (K := K) (reducePredictionsAcrossBranches · · node) ∧
    FusionLaw (K := K) (reduceMeanWithinBranch · · node) ∧
    ProbaLaw (K := K) normalized (reduceProbaMeanAcrossBranches · node) ∧
    ProbaLaw (K := K) id (reduceProbaMeanWithinBranch · node) :=
  ⟨fusionLaw_folds foldLabel, fusionLaw_branches node, fusionLaw_meanWithin node,
    probaLaw_across node, probaLaw_within node⟩

/-- Two folds that share one of their samples. -/
def sharedFold (samples : List SampleId) (values : List (List ℚ)) : ExactBlock ℚ where
  predictionId := none
  producerNode := ⟨"model:fused", by decide⟩
  producerPort := none
  partition := .validation
  foldId := none
  sampleIds := samples
  values := values
  targetNames := ["y"]

def sharedFolds : List (ExactBlock ℚ) :=
  [sharedFold [⟨"fused:1", by decide⟩, ⟨"fused:2", by decide⟩] [[1], [2]],
    sharedFold [⟨"fused:2", by decide⟩, ⟨"fused:3", by decide⟩] [[6], [3]]]

def sharedFused : ExactBlock ℚ :=
  { sharedFold [⟨"fused:1", by decide⟩, ⟨"fused:2", by decide⟩, ⟨"fused:3", by decide⟩]
      [[1], [5], [3]] with
    foldId := some ⟨"avg", valid_avg⟩ }

theorem fusion_laws_shared :
    reducePredictionsAcrossFolds sharedFolds (some [1, 3]) "avg" = .ok sharedFused ∧
      ∃ width, WeightedMeans width (weighted sharedFolds (some [1, 3])) sharedFused.sampleIds
        sharedFused.values := by
  have hok : reducePredictionsAcrossFolds sharedFolds (some [1, 3]) "avg" = .ok sharedFused := by
    decide +kernel
  exact ⟨hok, (fusion_laws (K := ℚ) "avg" ⟨"merge:fused", by decide⟩).1.means _ _ _ hok⟩

end DagMl

import DagMl.Runtime.OofEvidence
import DagMl.Runtime.StackingColumns

/-!
# The columns agree across suffixes

A meta-model reads its inputs under a suffix in the order of their keys, one
column for each source. It reads the same columns in every use when the
selectors keep the same sources under each suffix, and no suffix reorders their
keys. The selectors compare the suffixes by the number of inputs only.
-/

namespace DagMl

open Checked Entries

-- ---------------------------------------------------------------------------
-- Keys
-- ---------------------------------------------------------------------------

namespace PredictionSource

variable {source : PredictionSource}

theorem key_eq : source.key suffix = source.key "" ++ suffix := by
  simp [key, toString]

/-- The key of a source tells its suffix. -/
theorem key_inj : source.key suffix = source.key other ↔ suffix = other := by
  simp [key, toString, ← String.toList_inj]

end PredictionSource

theorem stripLead_ok {lead text rest : String} :
    stripLead lead text = some rest ↔ text = lead ++ rest := by
  unfold stripLead
  split
  · rename_i hlead
    obtain ⟨tail, htail⟩ := hlead
    have htext : text = lead ++ String.ofList tail := by simp [← String.toList_inj, htail]
    subst htext
    simp [String.append_right_inj]
  · rename_i hlead
    simp only [reduceCtorEq, false_iff]
    rintro rfl
    exact hlead ⟨rest.toList, by simp⟩

-- ---------------------------------------------------------------------------
-- Columns
-- ---------------------------------------------------------------------------

/-- An input of the source stands under its key. -/
def CarriesColumn (m : PredictionInputs) (suffix : String) (source : PredictionSource) : Prop :=
  ∃ spec, m[source.key suffix]? = some spec ∧ spec.source = source

/-- The sources under a suffix, in the order of their keys: the columns. -/
def columnsAt (m : PredictionInputs) (suffix : String) : List PredictionSource :=
  (m.toList.filter fun entry => entry.1 = entry.2.source.key suffix).map fun entry => entry.2.source

theorem mem_columnsAt {m : PredictionInputs} :
    source ∈ columnsAt m suffix ↔ CarriesColumn m suffix source := by
  simp only [columnsAt, List.mem_map, List.mem_filter, decide_eq_true_eq, BTreeMap.mem_toList]
  constructor
  · rintro ⟨⟨key, spec⟩, ⟨hget, hkey⟩, rfl⟩
    exact ⟨spec, hkey ▸ hget, rfl⟩
  · rintro ⟨spec, hget, rfl⟩
    exact ⟨(spec.source.key suffix, spec), ⟨hget, rfl⟩, rfl⟩

theorem columnsAt_ordered (m : PredictionInputs) (suffix : String) :
    (columnsAt m suffix).Pairwise fun x y => x.key suffix < y.key suffix := by
  refine List.pairwise_map.mpr (((ordered_toList m).filter _).imp_of_mem fun ha hb hlt => ?_)
  have hkey := of_decide_eq_true (List.mem_filter.mp ha).2
  have hkey' := of_decide_eq_true (List.mem_filter.mp hb).2
  rwa [← hkey, ← hkey']

/-- Every suffix that has columns has the same ones in the same order. -/
def SameColumns (m : PredictionInputs) : Prop :=
  ∀ suffix ∈ stackingSuffixes, ∀ other ∈ stackingSuffixes,
    columnsAt m suffix ≠ [] → columnsAt m other ≠ [] → columnsAt m suffix = columnsAt m other

/-- Suffixes with sources have the same ones, and order their keys alike. -/
def Aligned (kept : String → PredictionSource → Prop) : Prop :=
  ∀ suffix ∈ stackingSuffixes, ∀ other ∈ stackingSuffixes,
    (∃ source, kept suffix source) → (∃ source, kept other source) →
    (∀ source, kept suffix source ↔ kept other source) ∧
      ∀ x, kept suffix x → ∀ y, kept suffix y → x.key suffix < y.key suffix →
        x.key other < y.key other

theorem sameColumns_iff {m : PredictionInputs} {kept : String → PredictionSource → Prop}
    (h : ∀ suffix source, CarriesColumn m suffix source ↔ kept suffix source) :
    SameColumns m ↔ Aligned kept := by
  have hne (suffix : String) : columnsAt m suffix ≠ [] ↔ ∃ source, kept suffix source := by
    simp only [← h, ← mem_columnsAt, ne_eq, List.eq_nil_iff_forall_not_mem, not_forall, not_not]
  simp only [SameColumns, Aligned, hne, ← h, ← mem_columnsAt,
    eq_iff_of_ordered (columnsAt_ordered m _) (columnsAt_ordered m _)]

/-- Entering an input under its key adds one column. -/
theorem carries_enter {m m' : PredictionInputs} {spec : PredictionInputSpec} {taken : DagMlError}
    (h : enter m (spec.source.key suffix) spec taken = .ok m') :
    CarriesColumn m' other source ↔
      CarriesColumn m other source ∨ other = suffix ∧ source = spec.source := by
  obtain ⟨hfree, rfl⟩ := enter_ok.mp h
  constructor
  · rintro ⟨found, hget, rfl⟩
    rw [BTreeMap.getElem?_insert] at hget
    split at hget
    · rename_i hkey
      cases hget
      exact .inr ⟨(PredictionSource.key_inj.mp hkey).symm, rfl⟩
    · exact .inl ⟨found, hget, rfl⟩
  · rintro (⟨found, hget, rfl⟩ | ⟨rfl, rfl⟩)
    · refine ⟨found, ?_, rfl⟩
      rw [BTreeMap.getElem?_insert, if_neg]
      · exact hget
      · intro hkey
        exact hfree (BTreeMap.mem_iff.mpr ⟨found, hkey ▸ hget⟩)
    · exact ⟨spec, by simp, rfl⟩

-- ---------------------------------------------------------------------------
-- What a selector is offered
-- ---------------------------------------------------------------------------

section

variable (plan : ExecutionPlan) (nodePlan : NodePlan) (candidates : CandidateScores)
  (inputs : PredictionInputs) (selectors : List PipelineDslMergeSelector)
  (selector : PipelineDslMergeSelector)

/-- An input under a suffix that a selector reads. -/
def Offers (suffix : String) (entry : String × PredictionInputSpec) : Bool :=
  entry.1 = entry.2.source.key suffix &&
    (plan.findNode entry.2.producerNode).any (selector.reads · entry.2.producerNode)

/-- The inputs a selector is offered under a suffix, in key order. -/
def offered (suffix : String) : List (String × PredictionInputSpec) :=
  inputs.toList.filter (Offers plan selector suffix)

/-- The columns of a selector: of the sources it is offered those it chooses, or
its aggregate where it is offered any. -/
inductive StackingColumn (suffix : String) : PredictionSource → Prop
  | single {entry : String × PredictionInputSpec} : selector.aggregate = none →
      entry ∈ offered plan inputs selector suffix →
      (∀ select, selector.select = some select → ∃ nodes,
        chosenProducers plan candidates selector select
          ((offered plan inputs selector suffix).map (·.2.producerNode)) = .ok nodes ∧
        entry.2.producerNode ∈ nodes) →
      StackingColumn suffix entry.2.source
  | aggregate {name : String} {producer : NodeId} : selector.aggregate = some name →
      offered plan inputs selector suffix ≠ [] →
      virtualProducer nodePlan selector = .ok producer → StackingColumn suffix (producer, "oof")

/-- The columns of the selectors; without selectors every input is one. -/
inductive KeptColumn (suffix : String) (source : PredictionSource) : Prop
  | input : selectors = [] → CarriesColumn inputs suffix source → KeptColumn suffix source
  | selected {selector : PipelineDslMergeSelector} : selector ∈ selectors →
      StackingColumn plan nodePlan candidates inputs selector suffix source →
      KeptColumn suffix source

end

section

variable {plan : ExecutionPlan} {nodePlan : NodePlan} {candidates : CandidateScores}
  {inputs : PredictionInputs} {selectors : List PipelineDslMergeSelector}
  {selector : PipelineDslMergeSelector} {reducers : BranchReducers}

theorem matchInput_ok {entry : String × PredictionInputSpec} {found : Option MatchedInput}
    (h : matchInput plan selector entry = .ok found) :
    found.toList.filter (·.1 = suffix) =
      if Offers plan selector suffix entry then [(suffix, entry)] else [] := by
  simp only [matchInput, bind_ok, need_ok] at h
  obtain ⟨source, hsource, h⟩ := h
  split at h
  · rename_i hreads
    simp only [bind_ok, need_ok, stripLead_ok, refuseIf_ok, pure_ok] at h
    obtain ⟨own, hkey, _, -, rfl⟩ := h
    rw [← PredictionSource.key_eq] at hkey
    by_cases hsame : own = suffix
    · subst hsame
      simp [Offers, hkey, hsource, hreads]
    · simp [Offers, hkey, PredictionSource.key_inj, hsame]
  · rename_i hreads
    cases h
    simp [Offers, hsource, hreads]

/-- What is matched under a suffix is what is offered there. -/
theorem matchInputs_ok {found : List MatchedInput}
    (h : matchInputs plan selector inputs = .ok found) :
    found.filter (·.1 = suffix) = (offered plan inputs selector suffix).map (suffix, ·) := by
  simp only [matchInputs, bind_ok, collect_ok, pure_ok] at h
  obtain ⟨results, hresults, rfl⟩ := h
  unfold offered
  generalize inputs.toList = entries at hresults
  induction hresults with
  | nil => rfl
  | @cons entry result entries results hentry _ ih =>
    have hsplit : (result :: results).reduceOption = result.toList ++ results.reduceOption := by
      cases result <;> rfl
    rw [hsplit, List.filter_append, matchInput_ok hentry, ih, List.filter_cons]
    split <;> rfl

/-- Who is chosen is offered under a name of its own. -/
theorem selectedProducerNodes_nodup {request : StackingProducerSelectionRequest}
    (h : request.selectedProducerNodes = .ok nodes) : request.producerNodes.Nodup := by
  unfold StackingProducerSelectionRequest.selectedProducerNodes at h
  rw [bind_ok] at h
  obtain ⟨_, hrefuse, -⟩ := h
  have hdistinct := (not_or.mp (refuseIf_ok.mp hrefuse)).2
  exact card_toFinset_eq_length.mp (not_not.mp hdistinct)

theorem mem_selectStackingInputs {offers chosen : List (String × PredictionInputSpec)}
    (h : selectStackingInputs plan candidates selector offers = .ok chosen) :
    entry ∈ chosen ↔ entry ∈ offers ∧ ∀ select, selector.select = some select → ∃ nodes,
      chosenProducers plan candidates selector select (offers.map (·.2.producerNode)) = .ok nodes ∧
        entry.2.producerNode ∈ nodes := by
  unfold selectStackingInputs at h
  cases hselect : selector.select with
  | none =>
    rw [hselect] at h
    cases h
    simp
  | some select =>
    simp only [hselect, bind_ok, pure_ok] at h
    obtain ⟨nodes, hnodes, rfl⟩ := h
    have hnodup : (offers.map (·.2.producerNode)).Nodup := by
      have hrequest := hnodes
      simp only [chosenProducers, bind_ok] at hrequest
      obtain ⟨classes, -, hrequest⟩ := hrequest
      exact selectedProducerNodes_nodup hrequest
    simp only [List.mem_filterMap, Option.some.injEq, forall_eq', hnodes, Except.ok.injEq,
      exists_eq_left']
    constructor
    · rintro ⟨producer, hproducer, hfind⟩
      have hname := List.find?_some hfind
      obtain rfl := of_decide_eq_true hname
      exact ⟨List.mem_of_find?_eq_some hfind, hproducer⟩
    · rintro ⟨hentry, hproducer⟩
      refine ⟨_, hproducer, ?_⟩
      have hsome : (offers.find? fun offer =>
          offer.2.producerNode = entry.2.producerNode).isSome = true :=
        List.find?_isSome.mpr ⟨entry, hentry, by simp⟩
      obtain ⟨found, hfound⟩ := Option.isSome_iff_exists.mp hsome
      have hname := List.find?_some hfound
      have hsame := of_decide_eq_true hname
      rw [hfound, List.inj_on_of_nodup_map hnodup (List.mem_of_find?_eq_some hfound) hentry hsame]

-- ---------------------------------------------------------------------------
-- What a run keeps
-- ---------------------------------------------------------------------------

theorem loop_enter_carries {reduced out : PredictionInputs}
    {chosen : List (String × PredictionInputSpec)}
    {taken : String × PredictionInputSpec → DagMlError}
    (hkeys : ∀ entry ∈ chosen, entry.1 = entry.2.source.key suffix)
    (h : loop (fun reduced entry => enter reduced entry.1 entry.2 (taken entry)) reduced chosen =
      .ok out) :
    CarriesColumn out other source ↔ CarriesColumn reduced other source ∨
      other = suffix ∧ ∃ entry ∈ chosen, entry.2.source = source := by
  rw [loop_adds h (H := fun m => CarriesColumn m other source)
    (Q := fun entry => other = suffix ∧ source = entry.2.source)]
  · simp only [← exists_and_left, and_left_comm, eq_comm (a := source)]
  · intro m entry m' hentry henter
    rw [hkeys entry hentry] at henter
    exact carries_enter henter

theorem reduceSuffix_carries {reduced out : PredictionInputs} {producer : NodeId}
    {group : String × List MatchedInput}
    (hgroup : group.2.map Prod.snd = offered plan inputs selector group.1)
    (hvirtual : virtualProducer nodePlan selector = .ok producer)
    (h : reduceSuffix plan candidates reducers selector producer expected reduced group = .ok out) :
    CarriesColumn out suffix source ↔ CarriesColumn reduced suffix source ∨
      suffix = group.1 ∧
        StackingColumn plan nodePlan candidates inputs selector suffix source := by
  simp only [reduceSuffix, bind_ok, need_ok, hgroup] at h
  obtain ⟨_, -, first, hfirst, _, -, chosen, hchosen, h⟩ := h
  have hsome : offered plan inputs selector group.1 ≠ [] := by
    intro hnil
    rw [hnil] at hfirst
    cases hfirst
  cases haggregate : selector.aggregate with
  | none =>
    simp only [haggregate] at h
    have hkeys : ∀ entry ∈ chosen, entry.1 = entry.2.source.key group.1 := by
      intro entry hentry
      have hoffered := ((mem_selectStackingInputs hchosen).mp hentry).1
      have hoffers := (List.mem_filter.mp hoffered).2
      rw [Offers, Bool.and_eq_true, decide_eq_true_eq] at hoffers
      exact hoffers.1
    rw [loop_enter_carries hkeys h]
    refine or_congr_right (and_congr_right ?_)
    rintro rfl
    constructor
    · rintro ⟨entry, hentry, rfl⟩
      obtain ⟨hoffered, hselect⟩ := (mem_selectStackingInputs hchosen).mp hentry
      exact .single haggregate hoffered hselect
    · rintro (⟨-, hoffered, hselect⟩ | ⟨hsome, -, -⟩)
      · exact ⟨_, (mem_selectStackingInputs hchosen).mpr ⟨hoffered, hselect⟩, rfl⟩
      · cases haggregate.symm.trans hsome
  | some name =>
    simp only [haggregate, bind_ok] at h
    obtain ⟨block, -, henter⟩ := h
    rw [carries_enter henter]
    refine or_congr_right (and_congr_right ?_)
    rintro rfl
    constructor
    · rintro rfl
      exact .aggregate haggregate hsome hvirtual
    · rintro (⟨hnone, -, -⟩ | ⟨-, -, hproducer⟩)
      · cases haggregate.symm.trans hnone
      · cases hvirtual.symm.trans hproducer
        rfl

theorem StackingColumn.offered_ne
    (h : StackingColumn plan nodePlan candidates inputs selector suffix source) :
    offered plan inputs selector suffix ≠ [] := by
  cases h with
  | single _ hentry _ => exact List.ne_nil_of_mem hentry
  | aggregate _ hsome _ => exact hsome

theorem reduceSelector_carries {reduced out : PredictionInputs}
    (h : reduceSelector plan nodePlan candidates reducers inputs reduced selector = .ok out) :
    CarriesColumn out suffix source ↔ CarriesColumn reduced suffix source ∨
      StackingColumn plan nodePlan candidates inputs selector suffix source := by
  simp only [reduceSelector, bind_ok] at h
  obtain ⟨found, hfound, _, -, producer, hvirtual, h⟩ := h
  have hgroup : ∀ group, group ∈ (BTreeMap.groupBy Prod.fst found).toList ↔
      group.2 ≠ [] ∧ group.2 = (offered plan inputs selector group.1).map (group.1, ·) := by
    intro group
    rw [BTreeMap.mem_toList, BTreeMap.getElem?_groupBy, matchInputs_ok hfound]
    split
    · rename_i hnil
      simp only [reduceCtorEq, hnil, false_iff, not_and]
      exact fun hne heq => hne heq
    · rename_i hne
      rw [Option.some.injEq, eq_comm]
      exact ⟨fun heq => ⟨heq ▸ hne, heq⟩, And.right⟩
  have hstep : ∀ m group m', group ∈ (BTreeMap.groupBy Prod.fst found).toList →
      reduceSuffix plan candidates reducers selector producer
        ((((BTreeMap.groupBy Prod.fst found).toList.map (·.2.length)).max?).getD 0) m group =
          .ok m' →
      (CarriesColumn m' suffix source ↔ CarriesColumn m suffix source ∨
        suffix = group.1 ∧
          StackingColumn plan nodePlan candidates inputs selector suffix source) := by
    intro m group m' hmem hreduce
    refine reduceSuffix_carries ?_ hvirtual hreduce
    rw [((hgroup group).mp hmem).2, List.map_map]
    exact List.map_id _
  rw [loop_adds h hstep]
  refine or_congr_right ⟨?_, fun hcolumn => ?_⟩
  · rintro ⟨group, -, -, hcolumn⟩
    exact hcolumn
  · refine ⟨(suffix, (offered plan inputs selector suffix).map (suffix, ·)),
      (hgroup _).mpr ⟨?_, rfl⟩, rfl, hcolumn⟩
    simpa using hcolumn.offered_ne

variable {readSelectors : JsonValue → Except String (List PipelineDslMergeSelector)}

/-- An accepted run carries the columns of its selectors and no others. -/
theorem applyStackingPredictionAggregations_carries {out : PredictionInputs}
    (hselectors : stackingSelectors plan nodePlan readSelectors = .ok selectors)
    (h : applyStackingPredictionAggregations plan nodePlan candidates reducers readSelectors inputs =
      .ok out) :
    CarriesColumn out suffix source ↔
      KeptColumn plan nodePlan candidates inputs selectors suffix source := by
  simp only [applyStackingPredictionAggregations, bind_ok, hselectors, Except.ok.injEq,
    exists_eq_left'] at h
  cases selectors with
  | nil =>
    cases h
    constructor
    · exact .input rfl
    · rintro (⟨-, hcarries⟩ | ⟨hmem, -⟩)
      · exact hcarries
      · cases hmem
  | cons first rest =>
    rw [loop_adds h fun m selector m' _ hreduce => reduceSelector_carries hreduce]
    constructor
    · rintro (⟨_, hget, -⟩ | ⟨selector, hselector, hcolumn⟩)
      · simp at hget
      · exact .selected hselector hcolumn
    · rintro (⟨hnil, -⟩ | ⟨hselector, hcolumn⟩)
      · cases hnil
      · exact .inr ⟨_, hselector, hcolumn⟩

/-- The columns of an accepted run agree exactly when its selectors keep the
same sources under every suffix, in one order of their keys. -/
theorem applyStackingPredictionAggregations_columns_iff {out : PredictionInputs}
    (hselectors : stackingSelectors plan nodePlan readSelectors = .ok selectors)
    (h : applyStackingPredictionAggregations plan nodePlan candidates reducers readSelectors inputs =
      .ok out) :
    SameColumns out ↔ Aligned (KeptColumn plan nodePlan candidates inputs selectors) :=
  sameColumns_iff fun _ _ => applyStackingPredictionAggregations_carries hselectors h

end

-- ---------------------------------------------------------------------------
-- A column that is not served
-- ---------------------------------------------------------------------------

/-- Two branches of one model each, under a meta-model that selects both. -/
def spunPlan : ExecutionPlan :=
  let port : PortSpec := ⟨"oof", .prediction, none, .one, none, none, none⟩
  let base (id : NodeId) (branch : String) : NodeSpec :=
    ⟨id, .model, none, ⟨[], [port]⟩, .collect [("dsl_branch", .string branch)]⟩
  let selector (branch : String) : JsonValue := .object [("branch", .string branch)]
  let stack : NodeSpec := ⟨⟨"meta:spun", by decide⟩, .model, none, ⟨[port], []⟩, .collect
    [("merge_mode", .string "stack"), ("selectors", .array [selector "left", selector "right"])]⟩
  { stackPlan with
    graphPlan.graph.nodes := [base ⟨"model:spun.a", by decide⟩ "left",
      base ⟨"model:spun.b", by decide⟩ "right", stack] }

def spunNodePlan : NodePlan where
  nodeId := ⟨"meta:spun", by decide⟩
  kind := .model
  controllerId := ⟨"controller:spun", by decide⟩
  controllerVersion := "1"
  supportedPhases := {.fitCv, .refit}
  trainingLosses := []
  inputNodes := []
  shapePlan := none
  dataBindings := []
  innerCv := none
  paramsFingerprint := ""

/-- Both models validated the training samples; the first alone has predicted
the test samples. -/
def spunInputs : PredictionInputs :=
  let input (producerNode : NodeId) (partition : PredictionPartition) : PredictionInputSpec := {
    producerNode, sourcePort := "oof", targetPort := "oof", partition, predictionLevel := .sample
    foldId := none, foldIds := [], unitIds := [], sampleIds := [], values := []
    featureValidityMasks := none, sourcePresence := none, predictionWidth := 1, targetNames := [] }
  .collect [("model:spun.a.oof", input ⟨"model:spun.a", by decide⟩ .validation),
    ("model:spun.a.oof:test", input ⟨"model:spun.a", by decide⟩ .test),
    ("model:spun.b.oof", input ⟨"model:spun.b", by decide⟩ .validation)]

/-- No branch is aggregated here. -/
def spunReducers : BranchReducers where
  reduceProbaMeanWithinBranch _ _ := throw (.oofValidation "no predictions to reduce")
  reduceMeanWithinBranch _ _ _ := throw (.oofValidation "no predictions to reduce")

/-- The selectors as they are read from the node. -/
def spunSelectors : JsonValue → Except String (List PipelineDslMergeSelector) :=
  fun _ => .ok [{ branch := some "left" }, { branch := some "right" }]

def spunRun : Result PredictionInputs :=
  applyStackingPredictionAggregations spunPlan spunNodePlan ⟨[], none, none⟩ spunReducers
    spunSelectors spunInputs

/-- The condition decides the columns of this run too. -/
theorem applyStackingPredictionAggregations_columns_iff_spun : ∃ selectors out,
    stackingSelectors spunPlan spunNodePlan spunSelectors = .ok selectors ∧ spunRun = .ok out ∧
      (SameColumns out ↔
        Aligned (KeptColumn spunPlan spunNodePlan ⟨[], none, none⟩ spunInputs selectors)) := by
  have hselectors : (stackingSelectors spunPlan spunNodePlan spunSelectors).isOk = true := by
    decide +kernel
  have hrun : spunRun.isOk = true := by decide +kernel
  exact ⟨_, _, eq_ok_valueOf hselectors, eq_ok_valueOf hrun,
    applyStackingPredictionAggregations_columns_iff (eq_ok_valueOf hselectors)
      (eq_ok_valueOf hrun)⟩

/-- The meta-model is fitted on two columns and tested on one. -/
theorem applyStackingPredictionAggregations_drops_column :
    ¬∀ plan nodePlan candidates reducers readSelectors inputs out,
      applyStackingPredictionAggregations plan nodePlan candidates reducers readSelectors inputs =
        .ok out → SameColumns out := by
  intro h
  have hcolumns : spunRun.toOption.any (fun out =>
      columnsAt out "" = [(⟨"model:spun.a", by decide⟩, "oof"), (⟨"model:spun.b", by decide⟩, "oof")] &&
        columnsAt out ":test" = [(⟨"model:spun.a", by decide⟩, "oof")]) = true := by
    decide +kernel
  obtain ⟨out, hrun, hboth⟩ := toOption_any.mp hcolumns
  simp only [Bool.and_eq_true, decide_eq_true_eq] at hboth
  have hsame := h _ _ _ _ _ _ out hrun "" (by decide) ":test" (by decide)
  rw [hboth.1, hboth.2] at hsame
  exact absurd (hsame (by simp) (by simp)) (by simp)

end DagMl

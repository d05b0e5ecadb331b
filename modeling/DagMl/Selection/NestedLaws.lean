import DagMl.Selection.Nested

/-!
# What a nested selection returns

One step is `selectInFold`; `SelectedIn` is what its success says, and both
main results read it fold by fold. A sample's prediction comes from the one
fold that validates it, and what was chosen there was chosen by candidates
that never saw the fold's validation samples.
-/

namespace DagMl

open Checked Sorting

-- ---------------------------------------------------------------------------
-- Inner folds
-- ---------------------------------------------------------------------------

theorem FoldSet.nestedFoldSet_ok {foldSet : FoldSet} {spec : NestedCvSpec} {nested : NestedFoldSet}
    (hv : foldSet.Valid) (hm : outer ∈ foldSet.folds)
    (h : foldSet.nestedFoldSet sha256 spec outer = .ok nested) :
    NestedIn outer foldSet.sampleGroups nested := by
  simp only [nestedFoldSet, bind_ok, validate_ok, pure_ok] at h
  obtain ⟨built, hbuilt, _, hvalid, rfl⟩ := h
  exact { NestedCvSpec.buildNestedFoldSet_ok (hv.groupsFor hm) hbuilt with valid := hvalid }

-- ---------------------------------------------------------------------------
-- Rows
-- ---------------------------------------------------------------------------

namespace FitCvRows

/-- A validation row with the fold of its block. -/
abbrev ValidationRow := Option FoldId × SampleId × List Binary64

def blockRows (block : PredictionBlock) : List ValidationRow := block.rows.map (block.foldId, ·)

/-- The rows that the target node validated, in the order of the results. -/
def validated (targetNode : NodeId) (results : List NodeResult) : List ValidationRow :=
  (results.filter (·.nodeId = targetNode)).flatMap fun result =>
    (validationBlocks result).flatMap blockRows

/-- An accepted row names its fold and has one column. -/
def insertRow (predictions : BTreeMap SampleId (FoldId × Binary64)) :
    ValidationRow → BTreeMap SampleId (FoldId × Binary64)
  | (some foldId, id, [value]) => predictions.insert id (foldId, value)
  | _ => predictions

theorem addTarget_predictions {rows rows' : FitCvRows} (h : rows.addTarget entry = .ok rows') :
    rows'.predictions = rows.predictions ∧ rows'.nFits = rows.nFits := by
  unfold addTarget at h
  split at h
  · simp only [bind_ok, pure_ok] at h
    obtain ⟨_, -, rfl⟩ := h
    exact ⟨rfl, rfl⟩
  · cases h

theorem addTargets_predictions {rows rows' : FitCvRows} (h : rows.addTargets block = .ok rows') :
    rows'.predictions = rows.predictions ∧ rows'.nFits = rows.nFits := by
  simp only [addTargets, bind_ok] at h
  obtain ⟨_, -, hloop⟩ := h
  refine loop_invariant (fun _ (r : FitCvRows) =>
    r.predictions = rows.predictions ∧ r.nFits = rows.nFits) ⟨rfl, rfl⟩ ?_ hloop
  intro done entry r r' hr hstep
  obtain ⟨hp, hn⟩ := addTarget_predictions hstep
  exact ⟨hp.trans hr.1, hn.trans hr.2⟩

theorem addPredictions_ok {rows rows' : FitCvRows} (h : rows.addPredictions block = .ok rows') :
    rows'.predictions = (blockRows block).foldl insertRow rows.predictions ∧
      rows'.nFits = rows.nFits := by
  simp only [addPredictions, bind_ok, need_ok] at h
  obtain ⟨foldId, hfold, hloop⟩ := h
  simp only [blockRows, hfold]
  refine loop_invariant (fun done (r : FitCvRows) =>
    r.predictions = (done.map (some foldId, ·)).foldl insertRow rows.predictions ∧
      r.nFits = rows.nFits) ⟨rfl, rfl⟩ ?_ hloop
  intro done entry r r' hr hstep
  unfold addPrediction at hstep
  split at hstep
  · simp only [bind_ok, pure_ok] at hstep
    obtain ⟨_, -, rfl⟩ := hstep
    simp [insertRow, hr.1, hr.2]
  · cases hstep

theorem addResult_ok {rows rows' : FitCvRows} (h : rows.addResult result = .ok rows') :
    rows'.predictions =
        ((validationBlocks result).flatMap blockRows).foldl insertRow rows.predictions ∧
      rows'.nFits = rows.nFits + 1 := by
  simp only [addResult, bind_ok] at h
  obtain ⟨targeted, htargets, hloop⟩ := h
  have hkept : targeted.predictions = rows.predictions ∧ targeted.nFits = rows.nFits + 1 := by
    refine loop_invariant (fun _ (r : FitCvRows) =>
      r.predictions = rows.predictions ∧ r.nFits = rows.nFits + 1) ?_ ?_ htargets
    · exact ⟨rfl, rfl⟩
    · intro done block r r' hr hstep
      obtain ⟨hp, hn⟩ := addTargets_predictions hstep
      exact ⟨hp.trans hr.1, hn.trans hr.2⟩
  rw [← hkept.1, ← hkept.2]
  refine loop_invariant (fun done (r : FitCvRows) =>
    r.predictions = (done.flatMap blockRows).foldl insertRow targeted.predictions ∧
      r.nFits = targeted.nFits) ⟨rfl, rfl⟩ ?_ hloop
  intro done block r r' hr hstep
  obtain ⟨hp, hn⟩ := addPredictions_ok hstep
  rw [List.flatMap_append, List.foldl_append, hp, hn, hr.1, hr.2]
  simp

/-- What is collected: the rows validated, and one fit for each result. -/
theorem ofResults_ok (h : ofResults targetNode results = .ok rows) :
    rows.predictions = (validated targetNode results).foldl insertRow ∅ ∧
      rows.nFits = results.countP (·.nodeId = targetNode) := by
  rw [List.countP_eq_length_filter]
  refine loop_invariant (fun done (r : FitCvRows) =>
    r.predictions = (done.flatMap fun result =>
        (validationBlocks result).flatMap blockRows).foldl insertRow ∅ ∧
      r.nFits = done.length) ⟨rfl, rfl⟩ ?_ h
  intro done result r r' hr hstep
  obtain ⟨hp, hn⟩ := addResult_ok hstep
  rw [List.flatMap_append, List.foldl_append, hp, hn, hr.1, hr.2]
  simp

end FitCvRows

-- ---------------------------------------------------------------------------
-- Candidates
-- ---------------------------------------------------------------------------

variable {P : Type} {services : NestedSelectionServices} {host : NestedSelectionHost P}
  {request : NestedSelectionRequest}

theorem mapError_ok {x : Result α} {f : DagMlError → DagMlError} :
    Except.mapError f x = .ok a ↔ x = .ok a := by
  cases x <;> simp [Except.mapError]

theorem fitCandidate_ok {candidate : NestedSelectionCandidate} {foldSet : FoldSet} :
    fitCandidate host request candidate foldSet run scope = .ok rows ↔
      ∃ results, host.fitCv (request.plan candidate foldSet) run = .ok results ∧
        FitCvRows.ofResults request.targetNode results = .ok rows := by
  simp only [fitCandidate, mapError_ok, bind_ok]

theorem nestedScore_ok {rows : List (Binary64 × Binary64)}
    (h : nestedScore services kind rows = .ok value) :
    value.isFinite = true ∧ Binary64.zero.le value = true := by
  simp only [nestedScore, bind_ok, refuseIf_ok, pure_ok, not_not] at h
  obtain ⟨_, -, _, hvalue, rfl⟩ := h
  exact hvalue

/-- A candidate is evaluated on the whole training pool of its fold. -/
theorem evaluateCandidate_ok {fold : FoldAssignment} {nested : NestedFoldSet}
    {candidate : NestedSelectionCandidate} {run : CandidateRun}
    (h : evaluateCandidate services host request fold nested candidate = .ok run) :
    run.evaluation.candidateId = candidate.candidateId ∧
      run.evaluation.nSamples = fold.trainSampleIds.toFinset.card ∧
      run.evaluation.score.isFinite = true ∧ Binary64.zero.le run.evaluation.score = true := by
  simp only [evaluateCandidate, bind_ok, refuseIf_ok, mapError_ok, pure_ok, not_or, not_not] at h
  obtain ⟨rows, -, _, ⟨hkeys, -⟩, scored, -, value, hvalue, rfl⟩ := h
  refine ⟨rfl, ?_, nestedScore_ok hvalue⟩
  show rows.predictions.size = _
  rw [← hkeys, List.toFinset_card_of_nodup Std.ExtTreeMap.nodup_keys,
    Std.ExtTreeMap.length_keys]

-- ---------------------------------------------------------------------------
-- The decision
-- ---------------------------------------------------------------------------

/-- Without a requested rank the first of the sorted candidates is selected. -/
theorem rankCandidates_first {policy : SelectionPolicy} {sorted : List (String × Binary64)}
    {decision : SelectionDecision} (hrank : policy.requestedRank = none)
    (h : rankCandidates policy sorted = .ok decision) :
    ∃ rest, sorted = (decision.selectedCandidateId, decision.selectedScore) :: rest := by
  simp only [rankCandidates, bind_ok, need_ok, pure_ok, hrank, Option.getD_none, Nat.sub_self,
    List.getElem?_mapIdx, Option.map_eq_some_iff] at h
  obtain ⟨_, ⟨first, hfirst, rfl⟩, _, -, rfl⟩ := h
  cases sorted with
  | nil => cases hfirst
  | cons head rest =>
    cases hfirst
    exact ⟨rest, rfl⟩

/-- `entry` is among `scored`, and before every other one where that is a matter of order. -/
structure Best (objective : MetricObjective) (scored : List (String × Binary64))
    (entry : String × Binary64) : Prop where
  mem : entry ∈ scored
  first : ¬Crossing scored → ∀ other ∈ scored, NotAfter (compareScores objective) entry other

theorem Selects.best {policy : SelectionPolicy} {candidates : List CandidateScore}
    {decision : SelectionDecision} (hrank : policy.requestedRank = none)
    (h : Selects policy candidates (.ok decision)) :
    Best policy.metric.objective (entries policy candidates)
      (decision.selectedCandidateId, decision.selectedScore) := by
  generalize hr : (Except.ok decision : Result SelectionDecision) = r at h
  cases h with
  | refused => cases hr
  | @ranked scored sorted hscored hs =>
    obtain ⟨-, rfl⟩ := scoreCandidates_iff.mp hscored
    cases sorted with
    | error e => cases hr
    | ok sorted =>
      obtain ⟨rest, rfl⟩ := rankCandidates_first hrank hr.symm
      have hperm := hs.perm
      refine ⟨hperm.mem_iff.mp List.mem_cons_self, fun hcross other hother => ?_⟩
      have htotal : TotalOn (compareScores policy.metric.objective) (entries policy candidates) :=
        totalOn_iff.mpr hcross
      have hpairwise := htotal.pairwise_insertionSort
      rw [← Except.ok.inj (hs.of_total htotal), List.pairwise_cons] at hpairwise
      rcases List.mem_cons.mp (hperm.mem_iff.mpr hother) with rfl | hrest
      · have hself := htotal.notAfter_total hother hother
        simpa using hself
      · exact hpairwise.1 other hrest

/-- The entries of candidates with one metric each. -/
theorem entries_toScore (runs : List CandidateRun) :
    entries request.policy (runs.map (·.toScore request.selectionMetric.name)) =
      runs.map fun run => (run.evaluation.candidateId, run.evaluation.score) := by
  induction runs with
  | nil => rfl
  | cons run runs ih =>
    have hget : (run.toScore request.selectionMetric.name).metrics[request.policy.metric.name]? =
        some run.evaluation.score := by
      simp [CandidateRun.toScore, NestedSelectionRequest.policy]
    rw [List.map_cons, List.map_cons, ← ih, entries, List.filterMap_cons, hget]
    rfl

-- ---------------------------------------------------------------------------
-- One fold
-- ---------------------------------------------------------------------------

/-- What the success of one fold says. -/
structure SelectedIn (services : NestedSelectionServices) (host : NestedSelectionHost P)
    (request : NestedSelectionRequest) (outer : FoldSet) (fold : FoldAssignment)
    (nested : NestedFoldSet) (selection : FoldSelection) : Prop where
  fold_id : selection.scope.outerFoldId = fold.foldId
  inner : selection.scope.innerFoldSet = nested
  candidates : ∃ runs,
    collect request.candidates (evaluateCandidate services host request fold nested) = .ok runs ∧
      selection.scope.candidates = runs.map (·.evaluation) ∧
      services.selectCandidate request.policy
          (runs.map (·.toScore request.selectionMetric.name)) = .ok selection.scope.decision
  evaluated : ∃ winner, request.candidates.find?
      (·.candidateId = selection.scope.decision.selectedCandidateId) = some winner ∧
    ∃ results rows, host.fitCv (request.plan winner (outer.evaluation fold))
        s!"run:{request.id}:{fold.foldId}:selected" = .ok results ∧
      FitCvRows.ofResults request.targetNode results = .ok rows ∧
      (∀ s, s ∈ rows.predictions ↔ s ∈ fold.validationSampleIds) ∧
      outerRows fold winner rows = .ok selection.oof

theorem selectInFold_ok {outer : FoldSet} {fold : FoldAssignment} {nested : NestedFoldSet}
    {selection : FoldSelection}
    (h : selectInFold services host request outer (fold, nested) = .ok selection) :
    SelectedIn services host request outer fold nested selection := by
  simp only [selectInFold, bind_ok, refuseIf_ok, need_ok, pure_ok, fitCandidate_ok, not_or,
    not_not] at h
  obtain ⟨_, -, runs, hruns, decision, hdecision, winner, hwinner, rows, ⟨results, hresults,
    hrows⟩, _, ⟨hkeys, -⟩, oof, hoof, rfl⟩ := h
  refine ⟨rfl, rfl, ⟨runs, hruns, rfl, hdecision⟩, winner, hwinner, results, rows, hresults, hrows,
    fun s => ?_, hoof⟩
  rw [← Std.ExtTreeMap.mem_keys, ← List.mem_toFinset, hkeys, List.mem_toFinset]

namespace SelectedIn

variable {outer : FoldSet} {fold : FoldAssignment} {nested : NestedFoldSet}
  {selection : FoldSelection}

/-- The rows of a fold: its validation samples in order, under its id and its winner. -/
theorem rows (h : SelectedIn services host request outer fold nested selection) :
    (selection.oof.map (·.sampleId)).Pairwise (· < ·) ∧
      (∀ s, s ∈ selection.oof.map (·.sampleId) ↔ s ∈ fold.validationSampleIds) ∧
      ∀ row ∈ selection.oof, row.outerFoldId = fold.foldId ∧
        row.selectedCandidateId = selection.scope.decision.selectedCandidateId := by
  obtain ⟨winner, hwinner, results, rows, -, -, hkeys, hoof⟩ := h.evaluated
  have hsamples : selection.oof.map (·.sampleId) = rows.predictions.keys := by
    rw [← Std.ExtTreeMap.map_fst_toList_eq_keys]
    refine map_of_collect hoof fun entry row hrow => ?_
    simp only [bind_ok, pure_ok] at hrow
    obtain ⟨_, -, rfl⟩ := hrow
    rfl
  refine ⟨?_, ?_, ?_⟩
  · rw [hsamples]
    exact Std.ExtTreeMap.ordered_keys.imp fun hlt => compare_lt_iff_lt.mp hlt
  · intro s
    rw [hsamples, Std.ExtTreeMap.mem_keys, hkeys]
  · intro row hrow
    obtain ⟨entry, -, hentry⟩ := exists_left_of_mem (collect_ok.mp hoof) hrow
    simp only [bind_ok, pure_ok] at hentry
    obtain ⟨_, -, rfl⟩ := hentry
    exact ⟨rfl, by simpa using List.find?_some hwinner⟩

end SelectedIn

-- ---------------------------------------------------------------------------
-- All folds
-- ---------------------------------------------------------------------------

/-- Related first to second and in pairs to third, lists are related first to third. -/
theorem forall₂_of_zip {R : α → β → Prop} {S : α × β → γ → Prop} {as : List α} {bs : List β}
    {cs : List γ} (h : List.Forall₂ R as bs) (h' : List.Forall₂ S (as.zip bs) cs) :
    List.Forall₂ (fun a c => ∃ b, R a b ∧ S (a, b) c) as cs := by
  induction h generalizing cs with
  | nil =>
    cases h'
    exact .nil
  | cons hab _ ih =>
    cases h' with
    | cons hs hrest => exact .cons ⟨_, hab, hs⟩ (ih hrest)

/-- What a success says of the folds it went through. -/
structure SelectionRun (services : NestedSelectionServices) (host : NestedSelectionHost P)
    (request : NestedSelectionRequest) (outcome : NestedSelectionOutcome)
    (selections : List FoldSelection) : Prop where
  outer : request.outer.splitWithTargetMissing s!"{request.id}.outer" request.sampleGroups
    request.targetMissingSampleIds = .ok outcome.outerFoldSet
  folds : List.Forall₂ (fun fold selection => ∃ nested,
      outcome.outerFoldSet.nestedFoldSet services.sha256 (.groupKFold request.inner) fold =
        .ok nested ∧
      SelectedIn services host request outcome.outerFoldSet fold nested selection)
    outcome.outerFoldSet.folds selections
  scopes : outcome.scopes = selections.map (·.scope)
  oof : outcome.oof = Keyed.sortBy (·.sampleId) (selections.flatMap (·.oof))
  complete : outcome.oof.map (·.sampleId) = outcome.outerFoldSet.sampleIds

theorem execute_ok {outcome : NestedSelectionOutcome}
    (h : executeNestedSelectionWithMetrics services host request = .ok outcome) :
    ∃ selections, SelectionRun services host request outcome selections := by
  simp only [executeNestedSelectionWithMetrics, bind_ok, refuseIf_ok, pure_ok, collect_ok,
    not_not] at h
  obtain ⟨_, -, outer, houter, nested, hnested, selections, hselections, _, hcomplete, metrics, -,
    rfl⟩ := h
  exact ⟨selections, houter, forall₂_of_zip hnested (hselections.imp fun _ _ => selectInFold_ok),
    rfl, rfl, hcomplete⟩

/-- What is recorded of an outer fold: its inner folds are its own, every candidate was scored on
its whole training pool, and the best score is selected, the smaller id among equals. -/
structure ScopeOf (request : NestedSelectionRequest) (outer : FoldSet) (fold : FoldAssignment)
    (scope : NestedSelectionScope) : Prop where
  fold_id : scope.outerFoldId = fold.foldId
  inner : NestedIn fold outer.sampleGroups scope.innerFoldSet
  candidates : scope.candidates.map (·.candidateId) = request.candidates.map (·.candidateId)
  n_samples : ∀ evaluation ∈ scope.candidates,
    evaluation.nSamples = fold.trainSampleIds.toFinset.card
  scores : ∀ evaluation ∈ scope.candidates,
    evaluation.score.isFinite = true ∧ Binary64.zero.le evaluation.score = true
  best : Best request.selectionMetric.objective
    (scope.candidates.map fun evaluation => (evaluation.candidateId, evaluation.score))
    (scope.decision.selectedCandidateId, scope.decision.selectedScore)

theorem SelectedIn.scopeOf {outer : FoldSet} {fold : FoldAssignment} {nested : NestedFoldSet}
    {selection : FoldSelection}
    (hselect : ∀ scores decision, services.selectCandidate request.policy scores = .ok decision →
      Selects request.policy scores (.ok decision))
    (h : SelectedIn services host request outer fold nested selection)
    (hnested : NestedIn fold outer.sampleGroups nested) :
    ScopeOf request outer fold selection.scope := by
  obtain ⟨runs, hruns, hcandidates, hdecision⟩ := h.candidates
  have hevaluated (evaluation : NestedCandidateEvaluation) (hm : evaluation ∈ selection.scope.candidates) :
      evaluation.nSamples = fold.trainSampleIds.toFinset.card ∧
        evaluation.score.isFinite = true ∧ Binary64.zero.le evaluation.score = true := by
    rw [hcandidates] at hm
    obtain ⟨run, hrun, rfl⟩ := List.mem_map.mp hm
    obtain ⟨candidate, -, hstep⟩ := exists_left_of_mem (collect_ok.mp hruns) hrun
    exact (evaluateCandidate_ok hstep).2
  refine ⟨h.fold_id, h.inner ▸ hnested, ?_, fun e he => (hevaluated e he).1,
    fun e he => (hevaluated e he).2, ?_⟩
  · rw [hcandidates, List.map_map]
    exact map_of_collect hruns fun _ _ hstep => (evaluateCandidate_ok hstep).1
  · have hbest := (hselect _ _ hdecision).best rfl
    rw [entries_toScore] at hbest
    rw [hcandidates, List.map_map]
    exact hbest

/-- A row without the target it is scored against. -/
structure BlindRow where
  sampleId : SampleId
  outerFoldId : FoldId
  selectedCandidateId : String
  prediction : Binary64

def NestedOofRow.blind (row : NestedOofRow) : BlindRow :=
  ⟨row.sampleId, row.outerFoldId, row.selectedCandidateId, row.prediction⟩

/-- A host of the targets `T` reads those of the samples its fold set names, and its predictions
depend on those of the training samples only. -/
structure Causal (targetNode : NodeId) (host : (SampleId → Binary64) → NestedSelectionHost P) :
    Prop where
  reads : ∀ T T' planned run, (∀ s ∈ planned.foldSet.sampleIds, T s = T' s) →
    (host T).fitCv planned run = (host T').fitCv planned run
  blind : ∀ T T' planned run results results',
    (∀ fold ∈ planned.foldSet.folds, ∀ s ∈ fold.trainSampleIds, T s = T' s) →
    (host T).fitCv planned run = .ok results → (host T').fitCv planned run = .ok results' →
    FitCvRows.validated targetNode results = FitCvRows.validated targetNode results'

section

variable {host : (SampleId → Binary64) → NestedSelectionHost P} {T T' : SampleId → Binary64}
  {fold : FoldAssignment} {nested : NestedFoldSet}

/-- Candidates are evaluated on training samples alone. -/
theorem evaluateCandidate_blind (hcausal : Causal request.targetNode host)
    (hnested : NestedIn fold groups nested) (hsame : ∀ s ∈ fold.trainSampleIds, T s = T' s) :
    evaluateCandidate services (host T) request fold nested =
      evaluateCandidate services (host T') request fold nested := by
  funext candidate
  have hfit (run : String) := hcausal.reads T T' (request.plan candidate nested.innerFoldSet) run
    fun s hs => hsame s (hnested.samples_train s hs)
  simp only [evaluateCandidate, fitCandidate, hfit]

theorem SelectedIn.blind {outer : FoldSet} {selection selection' : FoldSelection}
    (hcausal : Causal request.targetNode host) (hnested : NestedIn fold groups nested)
    (hsame : ∀ s ∈ fold.trainSampleIds, T s = T' s)
    (h : SelectedIn services (host T) request outer fold nested selection)
    (h' : SelectedIn services (host T') request outer fold nested selection') :
    selection.scope = selection'.scope ∧
      selection.oof.map (·.blind) = selection'.oof.map (·.blind) := by
  obtain ⟨runs, hruns, hcandidates, hdecision⟩ := h.candidates
  obtain ⟨runs', hruns', hcandidates', hdecision'⟩ := h'.candidates
  have hequal : runs = runs' := by
    rw [evaluateCandidate_blind hcausal hnested hsame, hruns'] at hruns
    exact (Except.ok.inj hruns).symm
  subst hequal
  have hscope : selection.scope = selection'.scope := by
    have hsameDecision := Except.ok.inj (hdecision.symm.trans hdecision')
    have hfold := h.fold_id.trans h'.fold_id.symm
    have hinner := h.inner.trans h'.inner.symm
    have hcandidates := hcandidates.trans hcandidates'.symm
    cases hs : selection.scope
    cases hs' : selection'.scope
    simp_all
  refine ⟨hscope, ?_⟩
  obtain ⟨winner, hwinner, results, rows, hresults, hrows, -, hoof⟩ := h.evaluated
  obtain ⟨winner', hwinner', results', rows', hresults', hrows', -, hoof'⟩ := h'.evaluated
  rw [hscope, hwinner'] at hwinner
  obtain rfl := Option.some.inj hwinner
  have hpredictions : rows.predictions = rows'.predictions := by
    rw [(FitCvRows.ofResults_ok hrows).1, (FitCvRows.ofResults_ok hrows').1]
    refine congrArg _ (hcausal.blind T T' _ _ results results' ?_ hresults hresults')
    simpa [NestedSelectionRequest.plan, FoldSet.evaluation] using hsame
  have hblind {rows : FitCvRows} {oof : List NestedOofRow}
      (hoof : outerRows fold winner' rows = .ok oof) : oof.map (·.blind) =
        rows.predictions.toList.map fun entry =>
          ⟨entry.1, fold.foldId, winner'.candidateId, entry.2.2⟩ := by
    refine map_of_collect hoof fun entry row hrow => ?_
    simp only [bind_ok, pure_ok] at hrow
    obtain ⟨_, -, rfl⟩ := hrow
    rfl
  rw [hblind hoof, hblind hoof', hpredictions]

end

/-- Under distinct keys, what one element is related to is alone under its key. -/
theorem filter_key_of_forall₂ {α β κ : Type} [DecidableEq κ] {R : α → β → Prop} (key : α → κ)
    (key' : β → κ) {a : α} {as : List α} {bs : List β} (hkey : ∀ a b, R a b → key' b = key a)
    (hn : (as.map key).Nodup) (h : List.Forall₂ R as bs) (ha : a ∈ as) :
    ∃ b, R a b ∧ bs.filter (key' · = key a) = [b] := by
  induction h with
  | nil => cases ha
  | @cons x y xs ys hxy hrest ih =>
    rw [List.map_cons, List.nodup_cons] at hn
    rcases List.mem_cons.mp ha with rfl | ha
    · refine ⟨y, hxy, ?_⟩
      have hothers : ys.filter (key' · = key a) = [] := by
        rw [List.filter_eq_nil_iff]
        intro b hb heq
        obtain ⟨c, hc, hr⟩ := exists_left_of_mem hrest hb
        rw [decide_eq_true_eq, hkey c b hr] at heq
        exact hn.1 (heq ▸ List.mem_map_of_mem hc)
      rw [List.filter_cons_of_pos (by simpa using hkey a y hxy), hothers]
    · obtain ⟨b, hr, hfilter⟩ := ih hn.2 ha
      refine ⟨b, hr, ?_⟩
      have hne : ¬key' y = key a := by
        rw [hkey x y hxy]
        exact fun heq => hn.1 (heq ▸ List.mem_map_of_mem ha)
      rw [List.filter_cons_of_neg (by simpa using hne), hfilter]

namespace SelectionRun

variable {outcome : NestedSelectionOutcome} {selections : List FoldSelection}
  {fold : FoldAssignment}

/-- The rows made for a fold are its own, in their own order. -/
theorem oof_of_fold (hrun : SelectionRun services host request outcome selections)
    {selection : FoldSelection} {nested : NestedFoldSet}
    (hselected : SelectedIn services host request outcome.outerFoldSet fold nested selection)
    (hfilter : selections.filter (·.scope.outerFoldId = fold.foldId) = [selection]) :
    outcome.oof.filter (·.outerFoldId = fold.foldId) = selection.oof := by
  have hparts : (selections.flatMap (·.oof)).filter (·.outerFoldId = fold.foldId) =
      selection.oof := by
    have hall (part : FoldSelection) (hpart : part ∈ selections) (row : NestedOofRow)
        (hrow : row ∈ part.oof) : row.outerFoldId = part.scope.outerFoldId := by
      obtain ⟨other, -, inner, -, h⟩ := exists_left_of_mem hrun.folds hpart
      rw [(h.rows.2.2 row hrow).1, h.fold_id]
    have hkept : (selections.flatMap (·.oof)).filter (·.outerFoldId = fold.foldId) =
        (selections.filter (·.scope.outerFoldId = fold.foldId)).flatMap (·.oof) := by
      clear hrun hfilter
      induction selections with
      | nil => rfl
      | cons part parts ih =>
        rw [List.forall_mem_cons] at hall
        rw [List.flatMap_cons, List.filter_append, ih hall.2]
        by_cases hid : part.scope.outerFoldId = fold.foldId
        · rw [List.filter_cons_of_pos (by simpa using hid), List.flatMap_cons,
            List.filter_eq_self.mpr]
          intro row hrow
          simp [hall.1 row hrow, hid]
        · rw [List.filter_cons_of_neg (by simpa using hid), List.filter_eq_nil_iff.mpr]
          · rfl
          · intro row hrow
            simp [hall.1 row hrow, hid]
    rw [hkept, hfilter, List.flatMap_singleton]
  have hperm : (outcome.oof.filter (·.outerFoldId = fold.foldId)).Perm selection.oof := by
    rw [hrun.oof, ← hparts]
    exact (Keyed.perm_sortBy _ _).filter _
  have hlt : selection.oof.Pairwise fun a b => a.sampleId < b.sampleId :=
    List.pairwise_map.mp hselected.rows.1
  have hle : (outcome.oof.filter (·.outerFoldId = fold.foldId)).Pairwise
      fun a b => a.sampleId ≤ b.sampleId := by
    rw [hrun.oof]
    exact (Keyed.pairwise_sortBy _ _).sublist List.filter_sublist
  have hnodup : (selection.oof.map (·.sampleId)).Nodup := hselected.rows.1.imp ne_of_lt
  refine hperm.eq_of_pairwise (fun a b ha hb hab hba => ?_) hle (hlt.imp le_of_lt)
  exact List.inj_on_of_nodup_map hnodup (hperm.mem_iff.mp ha) hb (le_antisymm hab hba)

/-- What a run records of one of its folds. -/
theorem at_fold (hrun : SelectionRun services host request outcome selections)
    (hvalid : outcome.outerFoldSet.Valid) (hfold : fold ∈ outcome.outerFoldSet.folds) :
    ∃ nested selection,
      outcome.outerFoldSet.nestedFoldSet services.sha256 (.groupKFold request.inner) fold =
        .ok nested ∧
      SelectedIn services host request outcome.outerFoldSet fold nested selection ∧
      outcome.scopes.filter (·.outerFoldId = fold.foldId) = [selection.scope] ∧
      outcome.oof.filter (·.outerFoldId = fold.foldId) = selection.oof := by
  obtain ⟨selection, ⟨nested, hnested, hselected⟩, hfilter⟩ := filter_key_of_forall₂
    (·.foldId) (fun selection : FoldSelection => selection.scope.outerFoldId)
    (fun _ _ ⟨_, _, h⟩ => h.fold_id) hvalid.foldIds_nodup hrun.folds hfold
  refine ⟨nested, selection, hnested, hselected, ?_, hrun.oof_of_fold hselected hfilter⟩
  rw [hrun.scopes, List.filter_map]
  exact congrArg (List.map _) hfilter

end SelectionRun

/-- Targets that differ outside the training samples of an outer fold, its validation samples
included, change nothing of what was recorded or selected for the fold, and none of its
predictions, as long as the host is causal. -/
theorem nestedSelection_blind {host : (SampleId → Binary64) → NestedSelectionHost P}
    (hcausal : Causal request.targetNode host)
    (h : executeNestedSelectionWithMetrics services (host T) request = .ok outcome)
    (h' : executeNestedSelectionWithMetrics services (host T') request = .ok outcome')
    (hfold : fold ∈ outcome.outerFoldSet.folds)
    (hsame : ∀ s ∈ fold.trainSampleIds, T s = T' s) :
    outcome.outerFoldSet = outcome'.outerFoldSet ∧
      outcome.scopes.filter (·.outerFoldId = fold.foldId) =
        outcome'.scopes.filter (·.outerFoldId = fold.foldId) ∧
      (outcome.oof.filter (·.outerFoldId = fold.foldId)).map (·.blind) =
        (outcome'.oof.filter (·.outerFoldId = fold.foldId)).map (·.blind) := by
  obtain ⟨selections, hrun⟩ := execute_ok h
  obtain ⟨selections', hrun'⟩ := execute_ok h'
  have houter : outcome.outerFoldSet = outcome'.outerFoldSet :=
    Except.ok.inj (hrun.outer.symm.trans hrun'.outer)
  have hvalid := (GroupKFoldSpec.splitWithTargetMissing_ok hrun.outer).valid
  obtain ⟨nested, selection, hnested, hselected, hscopes, hoof⟩ := hrun.at_fold hvalid hfold
  obtain ⟨nested', selection', hnested', hselected', hscopes', hoof'⟩ :=
    hrun'.at_fold (houter ▸ hvalid) (houter ▸ hfold)
  rw [← houter, hnested] at hnested'
  cases hnested'
  rw [← houter] at hselected'
  have hinner := FoldSet.nestedFoldSet_ok hvalid hfold hnested
  obtain ⟨hscope, hrows⟩ := hselected.blind hcausal hinner hsame hselected'
  rw [hscopes, hscopes', hoof, hoof', hscope, hrows]
  exact ⟨houter, rfl, rfl⟩

-- ---------------------------------------------------------------------------
-- A host
-- ---------------------------------------------------------------------------

/-- The sort of the candidates, run on whatever order the comparator gives. -/
def selectBySorting (policy : SelectionPolicy) (candidates : List CandidateScore) :
    Result SelectionDecision := do
  let scored ← scoreCandidates policy candidates
  rankCandidates policy (scored.insertionSort (NotAfter (compareScores policy.metric.objective)))

theorem selectBySorting_selects {policy : SelectionPolicy} {candidates : List CandidateScore}
    {decision : SelectionDecision} (h : selectBySorting policy candidates = .ok decision) :
    Selects policy candidates (.ok decision) := by
  obtain ⟨scored, hscored, hranked⟩ := bind_ok.mp h
  rw [← hranked]
  by_cases ht : TotalOn (compareScores policy.metric.objective) scored
  · exact .ranked hscored (.sorted ht)
  · exact .ranked hscored (.unspecified ht (List.perm_insertionSort _ _))

def plainServices : NestedSelectionServices where
  sha256 _ := .replicate 32 0
  regressionMetric kind yTrue yPred := .ok (metricForColumn kind (yPred.zip yTrue))
  selectCandidate := selectBySorting
  display _ := ""

def regressor : NodeId := ⟨"model:regressor", by decide⟩

/-- Every validation sample is predicted the target of the first training sample; rows that the
fold set does not name are not there. -/
def firstTarget (T : SampleId → Binary64) (foldSet : FoldSet) (fold : FoldAssignment) :
    NodeResult :=
  let train := fold.trainSampleIds.filter (· ∈ foldSet.sampleIds)
  let validation := fold.validationSampleIds.filter (· ∈ foldSet.sampleIds)
  { nodeId := regressor
    predictions := [{
      predictionId := none, producerNode := regressor, producerPort := none
      partition := .validation, foldId := some fold.foldId, sampleIds := validation
      values := validation.map fun _ => [(train.head?.map T).getD .zero], targetNames := [] }]
    artifacts := []
    artifactHandles := ∅
    regressionTargets := [{
      level := .sample, unitIds := validation.map .sample, values := validation.map fun s => [T s]
      validityMasks := none, targetNames := [] }]
    lineage := {
      recordId := ⟨"lineage:0", by decide⟩, runId := ⟨"run:0", by decide⟩, nodeId := regressor
      phase := .fitCv, controllerId := ⟨"controller:0", by decide⟩, controllerVersion := "1"
      variantId := none, foldId := some fold.foldId, inputLineage := [], paramsFingerprint := "" } }

def firstTargetHost (T : SampleId → Binary64) : NestedSelectionHost FoldSet where
  buildExecutionPlan planned := .ok planned.foldSet
  executeFitCv foldSet _ := .ok (foldSet.folds.map (firstTarget T foldSet))

theorem firstTargetHost_fitCv {T : SampleId → Binary64} {planned : PlannedCandidate}
    (h : (firstTargetHost T).fitCv planned run = .ok results) :
    results = planned.foldSet.folds.map (firstTarget T planned.foldSet) := by
  simp only [NestedSelectionHost.fitCv, firstTargetHost, bind_ok] at h
  obtain ⟨foldSet, hfoldSet, runId, -, hresults⟩ := h
  cases hfoldSet
  exact (Except.ok.inj hresults).symm

theorem firstTargetHost_causal : Causal regressor firstTargetHost where
  reads T T' planned run h := by
    have hresult (fold : FoldAssignment) :
        firstTarget T planned.foldSet fold = firstTarget T' planned.foldSet fold := by
      have hknown (l : List SampleId) : (l.filter (· ∈ planned.foldSet.sampleIds)).map T =
          (l.filter (· ∈ planned.foldSet.sampleIds)).map T' := by
        refine List.map_congr_left fun s hs => h s ?_
        simpa using (List.mem_filter.mp hs).2
      have hhead := congrArg List.head? (hknown fold.trainSampleIds)
      have hvalues := congrArg (List.map fun v => [v]) (hknown fold.validationSampleIds)
      simp only [List.head?_map, List.map_map, Function.comp_def] at hhead hvalues
      simp only [firstTarget, hhead, hvalues]
    show ((Id.new run : Result RunId) >>= fun _ =>
      .ok (planned.foldSet.folds.map (firstTarget T planned.foldSet))) = _
    rw [funext hresult]
    rfl
  blind T T' planned run results results' h hresults hresults' := by
    rw [firstTargetHost_fitCv hresults, firstTargetHost_fitCv hresults']
    have hkept (T : SampleId → Binary64) : (planned.foldSet.folds.map
        (firstTarget T planned.foldSet)).filter (·.nodeId = regressor) =
          planned.foldSet.folds.map (firstTarget T planned.foldSet) := by
      simp [firstTarget]
    rw [FitCvRows.validated, FitCvRows.validated, hkept, hkept, List.flatMap_map, List.flatMap_map]
    refine List.flatMap_congr fun fold hfold => ?_
    have hhead : ((fold.trainSampleIds.filter (· ∈ planned.foldSet.sampleIds)).head?).map T =
        ((fold.trainSampleIds.filter (· ∈ planned.foldSet.sampleIds)).head?).map T' := by
      refine Option.map_congr fun s hs => h fold hfold s ?_
      exact (List.mem_filter.mp (List.mem_of_head? hs)).1
    simp only [FitCvRows.validationBlocks, firstTarget, hhead]

/-- Four samples, each in a group of its own. -/
def fourSamples : List (SampleId × GroupId) :=
  [(⟨"n1", by decide⟩, ⟨"h1", by decide⟩), (⟨"n2", by decide⟩, ⟨"h2", by decide⟩),
    (⟨"n3", by decide⟩, ⟨"h3", by decide⟩), (⟨"n4", by decide⟩, ⟨"h4", by decide⟩)]

def twoCandidates : NestedSelectionRequest where
  id := "nested"
  graph := {
    id := "graph", interface := ⟨[], []⟩
    nodes := [⟨regressor, .model, none, ⟨[], []⟩, ∅⟩]
    edges := [], searchSpaceFingerprint := none, metadata := ∅ }
  campaign := ⟨none, none⟩
  targetNode := regressor
  candidates := [⟨"b", ∅⟩, ⟨"a", ∅⟩]
  sampleGroups := BTreeMap.collect fourSamples
  targetMissingSampleIds := ∅
  outer := ⟨2⟩
  inner := ⟨2⟩
  selectionMetric := .mae

/-- The targets of the four samples, up to that of the first. -/
def targetsWith (first : Binary64) (s : SampleId) : Binary64 :=
  if s.value = "n1" then first else if s.value = "n2" then .ofNat 2 else .ofNat 3

/-- The target of a validation sample is changed, and the fold's scope stays. -/
theorem nestedSelection_blind_four : ∃ outcome outcome', ∃ fold ∈ outcome.outerFoldSet.folds,
    executeNestedSelectionWithMetrics plainServices (firstTargetHost (targetsWith .zero))
      twoCandidates = .ok outcome ∧
    executeNestedSelectionWithMetrics plainServices (firstTargetHost (targetsWith (.ofNat 7)))
      twoCandidates = .ok outcome' ∧
    outcome.scopes.filter (·.outerFoldId = fold.foldId) =
      outcome'.scopes.filter (·.outerFoldId = fold.foldId) := by
  have hfold : (executeNestedSelectionWithMetrics plainServices
      (firstTargetHost (targetsWith .zero)) twoCandidates).toOption.any (fun outcome =>
        outcome.outerFoldSet.folds.any fun fold =>
          fold.trainSampleIds.all fun s => s.value ≠ "n1") = true := by decide +kernel
  have hok : (executeNestedSelectionWithMetrics plainServices
      (firstTargetHost (targetsWith (.ofNat 7))) twoCandidates).isOk = true := by decide +kernel
  obtain ⟨outcome, hrun, hany⟩ := toOption_any.mp hfold
  obtain ⟨fold, hm, htrain⟩ := List.any_eq_true.mp hany
  have hsame : ∀ s ∈ fold.trainSampleIds, targetsWith .zero s = targetsWith (.ofNat 7) s := by
    intro s hs
    have hne : s.value ≠ "n1" := by simpa using List.all_eq_true.mp htrain s hs
    simp [targetsWith, hne]
  exact ⟨outcome, _, fold, hm, hrun, eq_ok_valueOf hok,
    (nestedSelection_blind firstTargetHost_causal hrun
      (eq_ok_valueOf hok) hm hsame).2.1⟩

end DagMl

import DagMl.Dsl.FanoutClones

/-!
# A run of the fan-out

The values a template is expanded for, the shape of the steps a run leaves,
and what it records, as facts about the parts.
-/

namespace DagMl

open Checked PipelineDslStep

-- ---------------------------------------------------------------------------
-- Values
-- ---------------------------------------------------------------------------

/-- A value that occurs in the records. -/
def PartitionCriterion.Discovers (criterion : PartitionCriterion) (relations : SampleRelationSet)
    (value : JsonValue) : Prop :=
  match criterion with
  | .byMetadata key => ∃ record ∈ relations.records, record.metadata[key]? = some value
  | .byTag => ∃ record ∈ relations.records, ∃ tag ∈ record.tags, value = .string tag

section

variable {Cohort : Type} {floats : FloatWriter} {envelope : ExternalDataPlanEnvelope Cohort}

theorem text_injective {v w : JsonValue} (hv : v.Valid) (hw : w.Valid)
    (h : v.text floats = w.text floats) : v = w := by
  have htext := String.ofList_inj.mp h
  have hcancel : Framing.Cancels JsonValue.Valid JsonValue.Follows (JsonValue.render floats) v :=
    JsonValue.render_cancels hv
  refine (hcancel w [] [] hw ?_ ?_ (by simpa using htext)).1
  · simp [JsonValue.Follows]
  · simp [JsonValue.Follows]

theorem metadataValues_text {relations : SampleRelationSet} {key : String}
    (h : ∀ record ∈ relations.records, ∀ (key : String) value,
      record.metadata[key]? = some value → value.Valid) :
    ∀ a ∈ relations.records.filterMap fun record => record.metadata[key]?,
      ∀ b ∈ relations.records.filterMap fun record => record.metadata[key]?,
        a.text floats = b.text floats → a = b := by
  intro a ha b hb
  obtain ⟨record, hrecord, hget⟩ := List.mem_filterMap.mp ha
  obtain ⟨record', hrecord', hget'⟩ := List.mem_filterMap.mp hb
  exact text_injective (h _ hrecord _ _ hget) (h _ hrecord' _ _ hget')

/-- The values of a template are those that occur, each once. -/
theorem values_ok {relations : SampleRelationSet} {criterion : PartitionCriterion}
    (h : ∀ record ∈ relations.records, ∀ (key : String) value,
      record.metadata[key]? = some value → value.Valid) :
    (criterion.values floats relations).Nodup ∧
      ∀ value, value ∈ criterion.values floats relations ↔ criterion.Discovers relations value := by
  cases criterion with
  | byMetadata key =>
    refine ⟨Keyed.nodup_sortDedup, fun value => ?_⟩
    rw [PartitionCriterion.values, sortDedupJsonValues,
      Keyed.mem_sortDedup (metadataValues_text h), List.mem_filterMap]
    rfl
  | byTag =>
    refine ⟨Keyed.nodup_sortDedup.map fun a b hab => ?_, fun value => ?_⟩
    · cases hab
      rfl
    · have hmem (tag : String) : tag ∈ Keyed.sortDedup id (relations.records.flatMap (·.tags)) ↔
          tag ∈ relations.records.flatMap (·.tags) :=
        Keyed.mem_sortDedup fun _ _ _ _ heq => heq
      simp only [PartitionCriterion.values, List.mem_map, hmem, List.mem_flatMap,
        PartitionCriterion.Discovers]
      constructor
      · rintro ⟨tag, ⟨record, hrecord, htag⟩, rfl⟩
        exact ⟨record, hrecord, tag, htag, rfl⟩
      · rintro ⟨record, hrecord, tag, htag, rfl⟩
        exact ⟨tag, ⟨record, hrecord, htag⟩, rfl⟩

theorem values_perm {relations relations' : SampleRelationSet} {criterion : PartitionCriterion}
    (h : ∀ record ∈ relations.records, ∀ (key : String) value,
      record.metadata[key]? = some value → value.Valid)
    (hperm : relations.records.Perm relations'.records) :
    criterion.values floats relations' = criterion.values floats relations := by
  cases criterion with
  | byMetadata key =>
    refine (Keyed.sortDedup_congr (metadataValues_text h) fun a => ?_).symm
    exact (hperm.filterMap _).mem_iff
  | byTag =>
    have hsame : Keyed.sortDedup id (relations.records.flatMap (·.tags)) =
        Keyed.sortDedup id (relations'.records.flatMap (·.tags)) :=
      Keyed.sortDedup_congr (fun _ _ _ _ => id) fun a => (hperm.flatMap_right _).mem_iff
    rw [PartitionCriterion.values, PartitionCriterion.values, hsame]

end

-- ---------------------------------------------------------------------------
-- Order of the records
-- ---------------------------------------------------------------------------

/-- The same relations, their records in another order. -/
structure ReordersRecords {Cohort : Type} (envelope envelope' : ExternalDataPlanEnvelope Cohort) :
    Prop where
  relationFingerprint : envelope'.relationFingerprint = envelope.relationFingerprint
  records : Option.Rel (fun relations relations' => relations.records.Perm relations'.records)
    envelope.coordinatorRelations envelope'.coordinatorRelations

section

variable {Cohort : Type} {floats : FloatWriter}
  {envelope envelope' : ExternalDataPlanEnvelope Cohort}

theorem expand_reordered (h : ReordersRecords envelope envelope') {state : FanoutState}
    {step : PipelineDslBranchStep PipelineDslStep} {template : PipelineDslBranch PipelineDslStep} :
    expandAutoSeparationBranch floats envelope' state step template =
      expandAutoSeparationBranch floats envelope state step template := by
  have hvalid := envelope.metadataValid
  have hrecords := h.records
  unfold expandAutoSeparationBranch
  revert hrecords hvalid
  generalize envelope.coordinatorRelations = relations
  generalize envelope'.coordinatorRelations = relations'
  rintro hvalid (hperm | -)
  · rename_i relations relations'
    have hsame : discoverPartitionValues floats step template relations' =
        discoverPartitionValues floats step template relations := by
      simp only [discoverPartitionValues, values_perm (hvalid _ rfl) hperm]
    simp only [need, bind, Except.bind, hsame]
  · rfl

mutual

theorem fanOutStep_reordered (h : ReordersRecords envelope envelope') {state : FanoutState}
    {step : PipelineDslStep} :
    fanOutStep floats envelope' state step = fanOutStep floats envelope state step := by
  match step with
  | .branch ⟨mode, selector, metadata, branches⟩ =>
    rw [fanOutStep, fanOutStep]
    split
    · rw [expand_reordered h]
    · rw [fanOutBranches_reordered h]
  | .sequential ⟨id, metadata, steps⟩ => rw [fanOutStep, fanOutStep, fanOutSteps_reordered h]
  | .operator _ _ | .concatTransform _ | .generator _ | .merge _ | .mergeModel _ => rfl

theorem fanOutSteps_reordered (h : ReordersRecords envelope envelope') {state : FanoutState}
    {steps : List PipelineDslStep} :
    fanOutSteps floats envelope' state steps = fanOutSteps floats envelope state steps := by
  match steps with
  | [] => rfl
  | step :: steps =>
    have hrest (state : FanoutState) :
        fanOutSteps floats envelope' state steps = fanOutSteps floats envelope state steps :=
      fanOutSteps_reordered h
    simp only [fanOutSteps, fanOutStep_reordered h, hrest]

theorem fanOutBranches_reordered (h : ReordersRecords envelope envelope') {state : FanoutState}
    {branches : List (PipelineDslBranch PipelineDslStep)} :
    fanOutBranches floats envelope' state branches =
      fanOutBranches floats envelope state branches := by
  match branches with
  | [] => rfl
  | ⟨_, _, _, steps⟩ :: branches =>
    have hrest (state : FanoutState) : fanOutBranches floats envelope' state branches =
        fanOutBranches floats envelope state branches := fanOutBranches_reordered h
    simp only [fanOutBranches, fanOutSteps_reordered h, hrest]

end

end

-- ---------------------------------------------------------------------------
-- Shape
-- ---------------------------------------------------------------------------

section

variable {Cohort : Type} (floats : FloatWriter) (envelope : ExternalDataPlanEnvelope Cohort)

/-- An expanded template: one branch for each value that occurs. -/
structure TemplateFanned (step : PipelineDslBranchStep PipelineDslStep)
    (template : PipelineDslBranch PipelineDslStep) (out : PipelineDslBranchStep PipelineDslStep)
    (criterion : PartitionCriterion) (relations : SampleRelationSet) : Prop where
  resolved : resolveCriterion step template = .ok criterion
  coordinator : envelope.coordinatorRelations = some relations
  nodup : (partitionValues floats envelope step template).Nodup
  discovered : ∀ value, value ∈ partitionValues floats envelope step template ↔
    criterion.Discovers relations value
  expanded : ExpandedStep floats criterion (partitionValues floats envelope step template) step
    template out

mutual

/-- Every template is replaced by its expansion, and nothing else changes. -/
def StepFanned : PipelineDslStep → PipelineDslStep → Prop
  | .branch ⟨mode, selector, metadata, branches⟩, after =>
    match autoTemplate ⟨mode, selector, metadata, branches⟩ with
    | some template => ∃ out criterion relations, after = .branch out ∧
      TemplateFanned floats envelope ⟨mode, selector, metadata, branches⟩ template out criterion
        relations
    | none => ∃ branches', after = .branch ⟨mode, selector, metadata, branches'⟩ ∧
      BranchesFanned branches branches'
  | .sequential ⟨id, metadata, steps⟩, after =>
    ∃ steps', after = .sequential ⟨id, metadata, steps'⟩ ∧ StepsFanned steps steps'
  | step, after => after = step

def StepsFanned : List PipelineDslStep → List PipelineDslStep → Prop
  | [], after => after = []
  | step :: steps, after =>
    ∃ step' steps', after = step' :: steps' ∧ StepFanned step step' ∧ StepsFanned steps steps'

def BranchesFanned : List (PipelineDslBranch PipelineDslStep) →
    List (PipelineDslBranch PipelineDslStep) → Prop
  | [], after => after = []
  | ⟨id, selector, metadata, steps⟩ :: branches, after => ∃ steps' branches',
    after = ⟨id, selector, metadata, steps'⟩ :: branches' ∧ StepsFanned steps steps' ∧
      BranchesFanned branches branches'

end

end

section

variable {Cohort : Type} {floats : FloatWriter} {envelope : ExternalDataPlanEnvelope Cohort}

theorem templateFanned_of_expand {state : FanoutState}
    {step : PipelineDslBranchStep PipelineDslStep} {template : PipelineDslBranch PipelineDslStep}
    {out : FanoutState × PipelineDslBranchStep PipelineDslStep}
    (h : expandAutoSeparationBranch floats envelope state step template = .ok out) :
    ∃ criterion relations,
      TemplateFanned floats envelope step template out.2 criterion relations := by
  obtain ⟨criterion, relations, hcriterion, hrelations, hvalues, hexpanded, -⟩ :=
    expandAutoSeparationBranch_ok h
  obtain ⟨hnodup, hmem⟩ := values_ok (envelope.metadataValid relations hrelations)
  refine ⟨criterion, relations, hcriterion, hrelations, ?_, ?_, hexpanded⟩
  · rw [hvalues]
    exact hnodup
  · rw [hvalues]
    exact hmem

mutual

theorem fanOutStep_fanned {state state' : FanoutState} {step step' : PipelineDslStep}
    (h : fanOutStep floats envelope state step = .ok (state', step')) :
    StepFanned floats envelope step step' := by
  match step with
  | .branch ⟨mode, selector, metadata, branches⟩ =>
    cases hauto : autoTemplate ⟨mode, selector, metadata, branches⟩ with
    | some template =>
      simp only [fanOutStep, hauto, bind_ok, pure_ok, Prod.mk.injEq] at h
      obtain ⟨out, hout, -, rfl⟩ := h
      obtain ⟨criterion, relations, hfanned⟩ := templateFanned_of_expand hout
      simp only [StepFanned, hauto]
      exact ⟨out.2, criterion, relations, rfl, hfanned⟩
    | none =>
      simp only [fanOutStep, hauto, bind_ok, pure_ok, Prod.mk.injEq] at h
      obtain ⟨out, hout, -, rfl⟩ := h
      simp only [StepFanned, hauto]
      exact ⟨out.2, rfl, fanOutBranches_fanned hout⟩
  | .sequential ⟨id, metadata, steps⟩ =>
    simp only [fanOutStep, bind_ok, pure_ok, Prod.mk.injEq] at h
    obtain ⟨out, hout, -, rfl⟩ := h
    exact ⟨out.2, rfl, fanOutSteps_fanned hout⟩
  | .operator _ _ | .concatTransform _ | .generator _ | .merge _ | .mergeModel _ =>
    cases h
    rfl

theorem fanOutSteps_fanned {state state' : FanoutState} {steps steps' : List PipelineDslStep}
    (h : fanOutSteps floats envelope state steps = .ok (state', steps')) :
    StepsFanned floats envelope steps steps' := by
  match steps with
  | [] =>
    cases h
    rfl
  | step :: steps =>
    simp only [fanOutSteps, bind_ok, pure_ok, Prod.mk.injEq] at h
    obtain ⟨step', hstep, steps', hsteps, -, rfl⟩ := h
    exact ⟨_, _, rfl, fanOutStep_fanned hstep, fanOutSteps_fanned hsteps⟩

theorem fanOutBranches_fanned {state state' : FanoutState}
    {branches branches' : List (PipelineDslBranch PipelineDslStep)}
    (h : fanOutBranches floats envelope state branches = .ok (state', branches')) :
    BranchesFanned floats envelope branches branches' := by
  match branches with
  | [] =>
    cases h
    rfl
  | ⟨_, _, _, steps⟩ :: branches =>
    simp only [fanOutBranches, bind_ok, pure_ok, Prod.mk.injEq] at h
    obtain ⟨steps', hsteps, branches', hbranches, -, rfl⟩ := h
    exact ⟨_, _, rfl, fanOutSteps_fanned hsteps, fanOutBranches_fanned hbranches⟩

end

end

-- ---------------------------------------------------------------------------
-- Parts of a run
-- ---------------------------------------------------------------------------

section

variable {Cohort : Type} (floats : FloatWriter) (envelope : ExternalDataPlanEnvelope Cohort)

/-- What a part leaves. -/
def PartLeft : FanoutPart → FanoutPart → Prop
  | .template step template, after => ∃ out criterion relations, after = .other (.branch out) ∧
    TemplateFanned floats envelope step template out criterion relations
  | part, after => after = part

/-- The suffixes of the clones of a template. -/
def suffixes (step : PipelineDslBranchStep PipelineDslStep)
    (template : PipelineDslBranch PipelineDslStep) : List String :=
  (partitionValues floats envelope step template).map (fanoutValueSuffix floats)

/-- The ids a part has cloned, each with the name of its clone. -/
def FanoutPart.events : FanoutPart → List (NodeId × String)
  | .template step body => (suffixes floats envelope step body).flatMap fun suffix =>
    (clonedIds body.steps).map fun id => (id, cloneName id suffix)
  | _ => []

end

section

variable {Cohort : Type} {floats : FloatWriter} {envelope : ExternalDataPlanEnvelope Cohort}

theorem fanOutPart_left {state state' : FanoutState} {part after : FanoutPart}
    (h : fanOutPart floats envelope state part = .ok (state', after)) :
    PartLeft floats envelope part after := by
  cases part with
  | template step template =>
    simp only [fanOutPart, bind_ok, pure_ok, Prod.mk.injEq] at h
    obtain ⟨out, hout, -, rfl⟩ := h
    obtain ⟨criterion, relations, hfanned⟩ := templateFanned_of_expand hout
    exact ⟨out.2, criterion, relations, rfl, hfanned⟩
  | sequence id =>
    cases h
    rfl
  | other step =>
    cases h
    rfl

theorem fanOutPart_records {state state' : FanoutState} {part after : FanoutPart}
    {events : List (NodeId × NodeId)}
    (h : fanOutPart floats envelope state part = .ok (state', after))
    (hrecords : Records state.idMap events) :
    ∃ added, Records state'.idMap (events ++ added) ∧
      added.map eventName = part.events floats envelope := by
  cases part with
  | template step template =>
    simp only [fanOutPart, bind_ok, pure_ok, Prod.mk.injEq] at h
    obtain ⟨out, hout, rfl, -⟩ := h
    obtain ⟨added, hadded, hnames⟩ := expandAutoSeparationBranch_records hout hrecords
    refine ⟨added, hadded, ?_⟩
    rw [hnames, FanoutPart.events, suffixes, List.flatMap_map]
  | sequence id =>
    cases h
    exact ⟨[], by simpa using hrecords, rfl⟩
  | other step =>
    cases h
    exact ⟨[], by simpa using hrecords, rfl⟩

theorem fanOutParts_records {ps after : List FanoutPart} {state' : FanoutState}
    (h : thread (fanOutPart floats envelope) {} ps = .ok (state', after)) :
    ∃ events, Records state'.idMap events ∧
      events.map eventName = ps.flatMap (FanoutPart.events floats envelope) := by
  refine thread_invariant (fun done _ state => ∃ events, Records state.idMap events ∧
    events.map eventName = done.flatMap (FanoutPart.events floats envelope))
    ⟨[], fun _ => by simp, rfl⟩ ?_ h
  rintro done before state part state' left ⟨events, hevents, hnames⟩ hstep
  obtain ⟨added, hadded, hmore⟩ := fanOutPart_records hstep hevents
  refine ⟨events ++ added, hadded, ?_⟩
  rw [List.map_append, hnames, hmore, List.flatMap_append, List.flatMap_singleton]

/-- Without a fan-out there is no template. -/
theorem no_template_of_fanouts {ps after : List FanoutPart} {state' : FanoutState}
    (h : thread (fanOutPart floats envelope) {} ps = .ok (state', after))
    (hnil : state'.fanouts = []) (step : PipelineDslBranchStep PipelineDslStep)
    (template : PipelineDslBranch PipelineDslStep) : .template step template ∉ ps := by
  refine thread_invariant (fun (done _ : List FanoutPart) (state : FanoutState) =>
    state.fanouts = [] → .template step template ∉ done) (by simp) ?_ h hnil
  intro done before state part state' left hdone hstep hnil hmem
  rcases List.mem_append.mp hmem with hmem | hmem
  · refine hdone ?_ hmem
    cases part with
    | template own template =>
      simp only [fanOutPart, bind_ok, pure_ok, Prod.mk.injEq] at hstep
      obtain ⟨out, hout, rfl, -⟩ := hstep
      obtain ⟨_, _, -, -, -, -, hne⟩ := expandAutoSeparationBranch_ok hout
      exact absurd hnil hne
    | sequence id =>
      cases hstep
      exact hnil
    | other step =>
      cases hstep
      exact hnil
  · rw [← List.mem_singleton.mp hmem] at hstep
    simp only [fanOutPart, bind_ok, pure_ok, Prod.mk.injEq] at hstep
    obtain ⟨out, hout, rfl, -⟩ := hstep
    obtain ⟨_, _, -, -, -, -, hne⟩ := expandAutoSeparationBranch_ok hout
    exact absurd hnil hne

end

end DagMl

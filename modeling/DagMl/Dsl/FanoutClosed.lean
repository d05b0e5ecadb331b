import DagMl.Dsl.FanoutRun

/-!
# Fan-out is complete and closed

What a fan-out should leave: no template, distinct ids, and every reference to
a template node on its clones. `fannedOut_iff` says on which specs it does.
-/

namespace DagMl

open Checked PipelineDslStep

-- ---------------------------------------------------------------------------
-- Parts by name
-- ---------------------------------------------------------------------------

namespace FanoutPart

/-- The ids a part holds outside templates. -/
def outerIds : FanoutPart → List NodeId
  | .sequence id => id.toList
  | .other step => (slots false step).map (·.id)
  | .template _ _ => []

def ids : FanoutPart → List NodeId
  | .template _ body => (stepSlots false body.steps).map (·.id)
  | part => part.outerIds

/-- The auto-separation steps inside a part. -/
def nested : FanoutPart → List (PipelineDslBranchStep PipelineDslStep)
  | .sequence _ => []
  | .other step => autos step
  | .template _ body => stepAutos body.steps

def refs : FanoutPart → List MergeRefs
  | .sequence _ => []
  | .other step => mergeRefs false step
  | .template _ body => stepMergeRefs false body.steps

def asTemplate : FanoutPart →
    Option (PipelineDslBranchStep PipelineDslStep × PipelineDslBranch PipelineDslStep)
  | .template step body => some (step, body)
  | _ => none

end FanoutPart

/-- The templates a fan-out meets. -/
def templates (steps : List PipelineDslStep) :
    List (PipelineDslBranchStep PipelineDslStep × PipelineDslBranch PipelineDslStep) :=
  (stepParts steps).filterMap (·.asTemplate)

/-- The nodes that clones replace. -/
def templateIds (steps : List PipelineDslStep) : List NodeId :=
  (templates steps).flatMap fun t => clonedIds t.2.steps

def outerIds (steps : List PipelineDslStep) : List NodeId :=
  (stepParts steps).flatMap (·.outerIds)

section

variable {Cohort : Type} (floats : FloatWriter) (envelope : ExternalDataPlanEnvelope Cohort)

/-- The names of the places a part leaves. -/
def FanoutPart.names : FanoutPart → List String
  | .template step body => (suffixes floats envelope step body).flatMap fun suffix =>
    (stepSlots false body.steps).map (placeName suffix)
  | part => part.outerIds.map (·.value)

/-- The names of the nodes that stand for a node after the fan-out. -/
def imageNames (steps : List PipelineDslStep) (id : NodeId) : List String :=
  match (templates steps).find? fun t => id ∈ clonedIds t.2.steps with
  | some t => (suffixes floats envelope t.1 t.2).map (cloneName id)
  | none => [id.value]

/-- Inside a clone a template node stands for its own copy there. -/
def cloneImageNames (steps : List PipelineDslStep) (body : PipelineDslBranch PipelineDslStep)
    (suffix : String) (id : NodeId) : List String :=
  if id ∈ clonedIds body.steps then [cloneName id suffix] else imageNames floats envelope steps id

/-- The references each merge of the outcome is held against, with what a node
stands for where the merge is. -/
def FanoutPart.expectedRefs (steps : List PipelineDslStep) :
    FanoutPart → List (MergeRefs × (NodeId → List String))
  | .template step body => (suffixes floats envelope step body).flatMap fun suffix =>
    (stepMergeRefs false body.steps).map fun refs =>
      (refs, cloneImageNames floats envelope steps body suffix)
  | part => part.refs.map fun refs => (refs, imageNames floats envelope steps)

end

/-- A merge refers to a node. -/
def PipelineDslStep.MergeRefs.Names (refs : MergeRefs) (id : NodeId) : Prop :=
  some id ∈ refs.selectors ∨ id ∈ refs.sources ∨ id ∈ refs.sourcePorts

/-- Every reference of a merge names exactly what it should stand for. -/
structure PipelineDslStep.MergeRefs.Follows (images : NodeId → List String)
    (before after : MergeRefs) : Prop where
  selectors : ∀ id, some id ∈ after.selectors ↔
    ∃ source, some source ∈ before.selectors ∧ id.value ∈ images source
  sources : ∀ id, id ∈ after.sources ↔ ∃ source ∈ before.sources, id.value ∈ images source
  sourcePorts : ∀ id, id ∈ after.sourcePorts ↔
    ∃ source, source ∈ before.sourcePorts ∧ id.value ∈ images source

/-- A reference of the spec outside the steps' own ids. -/
def PipelineDslSpec.Mentions (spec : PipelineDslSpec) (id : NodeId) : Prop :=
  (∃ binding ∈ spec.dataBindings, binding.nodeId = id) ∨
  (∃ dimension ∈ spec.generationDimensions, ∃ choice ∈ dimension.choices,
    ∃ overrideSpec ∈ choice.paramOverrides, overrideSpec.nodeId = id) ∨
  ∃ refs ∈ stepMergeRefs false spec.steps, refs.Names id

/-- A choice with every override applied to what its node stands for. -/
def PipelineDslGenerationChoice.retarget (clones : NodeId → List NodeId)
    (choice : PipelineDslGenerationChoice) : PipelineDslGenerationChoice :=
  { choice with
    paramOverrides := choice.paramOverrides.flatMap fun overrideSpec =>
      (clones overrideSpec.nodeId).map fun nodeId => { overrideSpec with nodeId } }

def PipelineDslGenerationDimension.retarget (clones : NodeId → List NodeId)
    (dimension : PipelineDslGenerationDimension) : PipelineDslGenerationDimension :=
  { dimension with choices := dimension.choices.map (·.retarget clones) }

section

variable {Cohort : Type} (externals : Externals)
  (checkCohort : Cohort → Option SampleRelationSet → Result Unit)
  (envelope : ExternalDataPlanEnvelope Cohort)

/-- A complete and closed fan-out; `clones` is what each node stands for. -/
structure FannedOut (spec expanded : PipelineDslSpec) (clones : NodeId → List NodeId) : Prop where
  noAutos : stepAutos expanded.steps = []
  rerun : fanOutDataAwareBranches externals checkCohort expanded envelope = .ok expanded
  steps : StepsFanned externals.floats envelope spec.steps expanded.steps
  distinct : ((stepSlots false expanded.steps).map (·.id)).Nodup
  images : ∀ id, (clones id).map (·.value) = imageNames externals.floats envelope spec.steps id
  bindings : expanded.dataBindings = spec.dataBindings.flatMap fun binding =>
    (clones binding.nodeId).map fun nodeId => { binding with nodeId }
  overrides : expanded.generationDimensions =
    spec.generationDimensions.map (·.retarget clones)
  merges : List.Forall₂ (fun expected refs => expected.1.Follows expected.2 refs)
    ((stepParts spec.steps).flatMap
      (FanoutPart.expectedRefs externals.floats envelope spec.steps))
    (stepMergeRefs false expanded.steps)
  settled : ∀ id ∈ templateIds spec.steps, expanded.Mentions id →
    id ∈ (stepSlots false expanded.steps).map (·.id)
  orderFree : ∀ envelope', ReordersRecords envelope envelope' →
    envelope'.validate checkCohort = .ok () →
      fanOutDataAwareBranches externals checkCohort spec envelope' = .ok expanded

end

section

variable {Cohort : Type} (floats : FloatWriter) (envelope : ExternalDataPlanEnvelope Cohort)

/-- The clones of a spec are told apart from one another and from the rest. -/
structure ClonesApart (steps : List PipelineDslStep) : Prop where
  told : ∀ t ∈ templates steps, ∀ t' ∈ templates steps,
    ∀ slot ∈ stepSlots false t.2.steps, ∀ slot' ∈ stepSlots false t'.2.steps,
    ∀ suffix ∈ suffixes floats envelope t.1 t.2, ∀ suffix' ∈ suffixes floats envelope t'.1 t'.2,
      placeName suffix slot = placeName suffix' slot' → slot.id = slot'.id ∧ suffix = suffix'
  fresh : ∀ t ∈ templates steps, ∀ slot ∈ stepSlots false t.2.steps,
    ∀ suffix ∈ suffixes floats envelope t.1 t.2, ∀ id ∈ outerIds steps,
      placeName suffix slot ≠ id.value

/-- The specs a fan-out is complete on: no auto-separation step inside a
template or a generator, no merge that names a template node, and clones that
are told apart. -/
structure Separable (steps : List PipelineDslStep) : Prop where
  flat : ∀ part ∈ stepParts steps, part.nested = []
  unreferenced : ∀ refs ∈ stepMergeRefs false steps, ∀ id, refs.Names id → id ∉ templateIds steps
  apart : ClonesApart floats envelope steps

end

-- ---------------------------------------------------------------------------
-- What the parts leave
-- ---------------------------------------------------------------------------

section

variable {Cohort : Type} {floats : FloatWriter} {envelope : ExternalDataPlanEnvelope Cohort}
  {steps : List PipelineDslStep}

theorem branchSlots_names {criterion : PartitionCriterion}
    {body : PipelineDslBranch PipelineDslStep} {values : List JsonValue}
    {branches : List (PipelineDslBranch PipelineDslStep)}
    (h : List.Forall₂ (ClonedBranch floats criterion body) values branches) :
    (branchSlots false branches).map (·.id.value) =
      (values.map (fanoutValueSuffix floats)).flatMap fun suffix =>
        (stepSlots false body.steps).map (placeName suffix) := by
  induction h with
  | nil => rfl
  | cons hbranch hrest ih =>
    obtain ⟨idMap, idMap', hsteps⟩ := hbranch.steps
    rw [branchSlots, List.map_append, ih, rewriteBranchStepIds_names hsteps, List.map_cons, List.flatMap_cons]

theorem branchRefs_eq {criterion : PartitionCriterion}
    {body : PipelineDslBranch PipelineDslStep} {values : List JsonValue}
    {branches : List (PipelineDslBranch PipelineDslStep)}
    (h : List.Forall₂ (ClonedBranch floats criterion body) values branches) :
    branchMergeRefs false branches = (values.map (fanoutValueSuffix floats)).flatMap fun _ =>
      stepMergeRefs false body.steps := by
  induction h with
  | nil => rfl
  | cons hbranch hrest ih =>
    obtain ⟨idMap, idMap', hsteps⟩ := hbranch.steps
    rw [branchMergeRefs, ih, rewriteStepIds_mergeRefs hsteps, List.map_cons, List.flatMap_cons]

theorem branchAutos_eq_nil {criterion : PartitionCriterion}
    {body : PipelineDslBranch PipelineDslStep} {values : List JsonValue}
    {branches : List (PipelineDslBranch PipelineDslStep)}
    (h : List.Forall₂ (ClonedBranch floats criterion body) values branches) (hne : values ≠ []) :
    branchAutos branches = [] ↔ stepAutos body.steps = [] := by
  have hclone (value : JsonValue) (branch : PipelineDslBranch PipelineDslStep)
      (hbranch : ClonedBranch floats criterion body value branch) :
      stepAutos branch.steps = [] ↔ stepAutos body.steps = [] := by
    obtain ⟨idMap, idMap', hsteps⟩ := hbranch.steps
    exact rewriteStepIds_autos hsteps
  induction h with
  | nil => exact absurd rfl hne
  | @cons value branch values branches hbranch hrest ih =>
    rw [branchAutos, List.append_eq_nil_iff, hclone _ _ hbranch]
    by_cases hvalues : values = []
    · subst hvalues
      cases hrest
      simp [branchAutos]
    · exact ⟨fun hboth => hboth.1, fun hbody => ⟨hbody, (ih hvalues).mpr hbody⟩⟩

theorem not_auto_of_expanded {criterion : PartitionCriterion} {values : List JsonValue}
    {step out : PipelineDslBranchStep PipelineDslStep} {body : PipelineDslBranch PipelineDslStep}
    (h : ExpandedStep floats criterion values step body out) :
    isAutoSeparationBranch out = false := by
  have hmarker : out.metadata["auto_separate"]? = none := by
    rw [h.metadata]
    exact Std.ExtTreeMap.getElem?_erase_self
  simp [isAutoSeparationBranch, hmarker]

theorem names_of_left {part after : FanoutPart} (h : PartLeft floats envelope part after) :
    (slotListing.ofPart after).map (·.id.value) = part.names floats envelope := by
  cases part with
  | template step body =>
    obtain ⟨out, criterion, relations, rfl, hfanned⟩ := h
    exact branchSlots_names hfanned.expanded.branches
  | sequence id =>
    obtain rfl : after = .sequence id := h
    cases id <;> rfl
  | other step =>
    obtain rfl : after = .other step := h
    exact (List.map_map ..).symm

theorem refs_of_left {part after : FanoutPart} (h : PartLeft floats envelope part after) :
    mergeListing.ofPart after = (part.expectedRefs floats envelope steps).map Prod.fst := by
  cases part with
  | template step body =>
    obtain ⟨out, criterion, relations, rfl, hfanned⟩ := h
    refine (branchRefs_eq hfanned.expanded.branches).trans ?_
    rw [FanoutPart.expectedRefs, List.map_flatMap]
    simp [suffixes, Function.comp_def]
  | sequence id =>
    obtain rfl : after = .sequence id := h
    rfl
  | other step =>
    obtain rfl : after = .other step := h
    simp [FanoutPart.expectedRefs, FanoutPart.refs, Listing.ofPart, mergeListing,
      Function.comp_def]

theorem autos_of_left {part after : FanoutPart} (h : PartLeft floats envelope part after) :
    autoListing.ofPart after = [] ↔ part.nested = [] := by
  cases part with
  | template step body =>
    obtain ⟨out, criterion, relations, rfl, hfanned⟩ := h
    have hauto := not_auto_of_expanded hfanned.expanded
    change autos (.branch out) = [] ↔ _
    rw [autos_branch, hauto, if_neg (by decide)]
    exact branchAutos_eq_nil hfanned.expanded.branches hfanned.expanded.nonempty
  | sequence id =>
    obtain rfl : after = .sequence id := h
    simp [FanoutPart.nested, Listing.ofPart, autoListing]
  | other step =>
    obtain rfl : after = .other step := h
    rfl

theorem flatMap_names {ps after : List FanoutPart}
    (h : List.Forall₂ (PartLeft floats envelope) ps after) :
    (after.flatMap slotListing.ofPart).map (·.id.value) =
      ps.flatMap (FanoutPart.names floats envelope) := by
  induction h with
  | nil => rfl
  | cons hpart hrest ih =>
    rw [List.flatMap_cons, List.map_append, ih, names_of_left hpart, List.flatMap_cons]

theorem flatMap_refs {ps after : List FanoutPart}
    (h : List.Forall₂ (PartLeft floats envelope) ps after) : after.flatMap mergeListing.ofPart =
      (ps.flatMap (FanoutPart.expectedRefs floats envelope steps)).map Prod.fst := by
  induction h with
  | nil => rfl
  | cons hpart hrest ih =>
    rw [List.flatMap_cons, List.flatMap_cons, List.map_append, ← ih, ← refs_of_left hpart]

theorem flatMap_autos {ps after : List FanoutPart}
    (h : List.Forall₂ (PartLeft floats envelope) ps after) :
    after.flatMap autoListing.ofPart = [] ↔ ∀ part ∈ ps, part.nested = [] := by
  induction h with
  | nil => simp
  | cons hpart hrest ih =>
    rw [List.flatMap_cons, List.append_eq_nil_iff, ih, autos_of_left hpart, List.forall_mem_cons]

-- ---------------------------------------------------------------------------
-- The spec by its parts
-- ---------------------------------------------------------------------------

theorem ofPart_slots {part : FanoutPart} (h : part ∈ stepParts steps) :
    (slotListing.ofPart part).map (·.id) = part.ids := by
  cases part with
  | template step body =>
    obtain ⟨-, hbranches⟩ := autoTemplate_some (template_of_mem_stepParts h)
    change (branchSlots false step.branches).map _ = _
    rw [hbranches, branchSlots, branchSlots, List.append_nil]
    rfl
  | sequence id => cases id <;> rfl
  | other step => rfl

theorem ofPart_refs {part : FanoutPart} (h : part ∈ stepParts steps) :
    mergeListing.ofPart part = part.refs := by
  cases part with
  | template step body =>
    obtain ⟨-, hbranches⟩ := autoTemplate_some (template_of_mem_stepParts h)
    change branchMergeRefs false step.branches = _
    rw [hbranches, branchMergeRefs, branchMergeRefs, List.append_nil]
    rfl
  | sequence id => rfl
  | other step => rfl

theorem slotIds_parts :
    (stepSlots false steps).map (·.id) = (stepParts steps).flatMap FanoutPart.ids := by
  rw [stepSlots_eq]
  refine (congrArg _ (stepParts_listing (L := slotListing))).trans ?_
  rw [List.map_flatMap]
  exact List.flatMap_congr fun part hpart => ofPart_slots hpart

theorem mergeRefs_parts : stepMergeRefs false steps = (stepParts steps).flatMap FanoutPart.refs := by
  rw [stepMergeRefs_eq]
  refine (stepParts_listing (L := mergeListing)).trans ?_
  exact List.flatMap_congr fun part hpart => ofPart_refs hpart

theorem mem_templates {t : PipelineDslBranchStep PipelineDslStep × PipelineDslBranch PipelineDslStep} :
    t ∈ templates steps ↔ .template t.1 t.2 ∈ stepParts steps := by
  simp only [templates, List.mem_filterMap]
  constructor
  · rintro ⟨part, hpart, heq⟩
    cases part with
    | template step body =>
      cases heq
      exact hpart
    | sequence id => cases heq
    | other step => cases heq
  · exact fun h => ⟨_, h, rfl⟩

theorem template_mem_templates {step : PipelineDslBranchStep PipelineDslStep}
    {body : PipelineDslBranch PipelineDslStep} (h : .template step body ∈ stepParts steps) :
    (step, body) ∈ templates steps := mem_templates.mpr h

-- ---------------------------------------------------------------------------
-- Distinct names
-- ---------------------------------------------------------------------------

theorem disjoint_of_pairwise {α β : Type} {f : α → List β} {l : List α} {a b : α}
    (h : l.Pairwise (Function.onFun List.Disjoint f)) (ha : a ∈ l) (hb : b ∈ l) (hne : a ≠ b) :
    (f a).Disjoint (f b) := by
  have : Std.Symm (Function.onFun List.Disjoint f) := ⟨fun _ _ h => List.Disjoint.symm h⟩
  exact h.forall ha hb hne

theorem mem_names {part : FanoutPart} {name : String} :
    name ∈ part.names floats envelope ↔ (∃ id ∈ part.outerIds, id.value = name) ∨
      ∃ step body, part = .template step body ∧ ∃ suffix ∈ suffixes floats envelope step body,
        ∃ slot ∈ stepSlots false body.steps, placeName suffix slot = name := by
  cases part with
  | template step body => simp [FanoutPart.names, FanoutPart.outerIds]
  | sequence id => simp [FanoutPart.names]
  | other step => simp [FanoutPart.names]

theorem outerIds_subset {part : FanoutPart} {id : NodeId} (h : id ∈ part.outerIds) :
    id ∈ part.ids := by
  cases part with
  | template step body => cases h
  | sequence id => exact h
  | other step => exact h

theorem value_injective : Function.Injective (fun id : NodeId => id.value) :=
  fun _ _ h => Id.value_inj.mp h

theorem mem_outerIds {part : FanoutPart} {id : NodeId} (hpart : part ∈ stepParts steps)
    (h : id ∈ part.outerIds) : id ∈ outerIds steps :=
  List.mem_flatMap.mpr ⟨part, hpart, h⟩

/-- The names of one part are distinct when those of its clones are told apart. -/
theorem nodup_names_part {part : FanoutPart} (hpart : part ∈ stepParts steps)
    (hids : part.ids.Nodup)
    (hsuffixes : ∀ step body, part = .template step body →
      (suffixes floats envelope step body).Nodup)
    (hapart : ClonesApart floats envelope steps) : (part.names floats envelope).Nodup := by
  cases part with
  | sequence id => exact hids.map value_injective
  | other step => exact hids.map value_injective
  | template step body =>
    have ht := template_mem_templates hpart
    refine List.nodup_flatMap.mpr ⟨fun suffix hsuffix => ?_, ?_⟩
    · refine (List.Nodup.of_map _ hids).map_on fun slot hslot slot' hslot' heq => ?_
      have hid := (hapart.told _ ht _ ht slot hslot slot' hslot' suffix hsuffix suffix hsuffix heq).1
      exact List.inj_on_of_nodup_map hids hslot hslot' hid
    · refine (hsuffixes step body rfl).imp_of_mem fun {suffix suffix'} hsuffix hsuffix' hne => ?_
      intro name hname hname'
      obtain ⟨slot, hslot, rfl⟩ := List.mem_map.mp hname
      obtain ⟨slot', hslot', heq⟩ := List.mem_map.mp hname'
      exact hne (hapart.told _ ht _ ht slot hslot slot' hslot' suffix hsuffix suffix' hsuffix'
        heq.symm).2

theorem disjoint_names {part part' : FanoutPart} (hpart : part ∈ stepParts steps)
    (hpart' : part' ∈ stepParts steps) (hids : part.ids.Disjoint part'.ids)
    (hapart : ClonesApart floats envelope steps) :
    (part.names floats envelope).Disjoint (part'.names floats envelope) := by
  intro name hname hname'
  rcases mem_names.mp hname with ⟨id, hid, rfl⟩ | ⟨step, body, rfl, suffix, hsuffix, slot, hslot, rfl⟩
  · rcases mem_names.mp hname' with ⟨id', hid', heq⟩ |
      ⟨step', body', rfl, suffix', hsuffix', slot', hslot', heq⟩
    · obtain rfl := Id.value_inj.mp heq
      exact hids (outerIds_subset hid) (outerIds_subset hid')
    · exact hapart.fresh _ (template_mem_templates hpart') slot' hslot' suffix' hsuffix' id
        (mem_outerIds hpart hid) heq
  · rcases mem_names.mp hname' with ⟨id', hid', heq⟩ |
      ⟨step', body', rfl, suffix', hsuffix', slot', hslot', heq⟩
    · exact hapart.fresh _ (template_mem_templates hpart) slot hslot suffix hsuffix id'
        (mem_outerIds hpart' hid') heq.symm
    · have hid := (hapart.told _ (template_mem_templates hpart) _ (template_mem_templates hpart') slot hslot
        slot' hslot' suffix hsuffix suffix' hsuffix' heq.symm).1
      exact hids (List.mem_map_of_mem hslot) (hid ▸ List.mem_map_of_mem hslot')

/-- The clones of two places with one name are the same clone of one place. -/
theorem told_of_nodup (hnodup : ((stepParts steps).flatMap
      (FanoutPart.names floats envelope)).Nodup) : ClonesApart floats envelope steps := by
  obtain ⟨heach, hpairs⟩ := List.nodup_flatMap.mp hnodup
  constructor
  · intro t ht t' ht' slot hslot slot' hslot' suffix hsuffix suffix' hsuffix' heq
    by_cases hsame : t = t'
    · subst hsame
      obtain ⟨hplaces, hclones⟩ := List.nodup_flatMap.mp (heach _ (mem_templates.mp ht))
      have hname : placeName suffix slot ∈ (stepSlots false t.2.steps).map (placeName suffix) :=
        List.mem_map_of_mem hslot
      by_cases hsuffixes : suffix = suffix'
      · subst hsuffixes
        exact ⟨congrArg _ (List.inj_on_of_nodup_map (hplaces suffix hsuffix) hslot hslot' heq), rfl⟩
      · have hname' : placeName suffix slot ∈
            (stepSlots false t.2.steps).map (placeName suffix') :=
          heq ▸ List.mem_map_of_mem hslot'
        exact absurd hname' (disjoint_of_pairwise hclones hsuffix hsuffix' hsuffixes hname)
    · have hparts : FanoutPart.template t.1 t.2 ≠ .template t'.1 t'.2 := by
        intro hpart
        obtain ⟨hstep, hbody⟩ := FanoutPart.template.inj hpart
        exact hsame (Prod.ext hstep hbody)
      have hname : placeName suffix slot ∈ (FanoutPart.template t.1 t.2).names floats envelope :=
        mem_names.mpr (.inr ⟨_, _, rfl, suffix, hsuffix, slot, hslot, rfl⟩)
      have hname' : placeName suffix slot ∈ (FanoutPart.template t'.1 t'.2).names floats envelope :=
        mem_names.mpr (.inr ⟨_, _, rfl, suffix', hsuffix', slot', hslot', heq.symm⟩)
      exact absurd hname'
        (disjoint_of_pairwise hpairs (mem_templates.mp ht) (mem_templates.mp ht') hparts hname)
  · intro t ht slot hslot suffix hsuffix id hid heq
    obtain ⟨part, hpart, hid⟩ := List.mem_flatMap.mp hid
    have hparts : FanoutPart.template t.1 t.2 ≠ part := by
      rintro rfl
      cases hid
    have hname : placeName suffix slot ∈ (FanoutPart.template t.1 t.2).names floats envelope :=
      mem_names.mpr (.inr ⟨_, _, rfl, suffix, hsuffix, slot, hslot, rfl⟩)
    have hname' : placeName suffix slot ∈ part.names floats envelope :=
      mem_names.mpr (.inl ⟨id, hid, heq.symm⟩)
    exact disjoint_of_pairwise hpairs (mem_templates.mp ht) hpart hparts hname hname'

theorem nodup_names_iff (hids : ((stepSlots false steps).map (·.id)).Nodup)
    (hsuffixes : ∀ t ∈ templates steps, (suffixes floats envelope t.1 t.2).Nodup) :
    ((stepParts steps).flatMap (FanoutPart.names floats envelope)).Nodup ↔
      ClonesApart floats envelope steps := by
  refine ⟨told_of_nodup, fun hapart => ?_⟩
  rw [slotIds_parts] at hids
  obtain ⟨heach, hpairs⟩ := List.nodup_flatMap.mp hids
  refine List.nodup_flatMap.mpr ⟨fun part hpart => ?_, ?_⟩
  · refine nodup_names_part hpart (heach part hpart) ?_ hapart
    rintro step body rfl
    exact hsuffixes _ (template_mem_templates hpart)
  · exact hpairs.imp_of_mem fun hpart hpart' hdisjoint =>
      disjoint_names hpart hpart' hdisjoint hapart

-- ---------------------------------------------------------------------------
-- Images
-- ---------------------------------------------------------------------------

theorem length_cloneName (id : NodeId) (suffix : String) :
    id.value.length < (cloneName id suffix).length := by
  have hname : cloneName id suffix = id.value ++ "__" ++ suffix := rfl
  rw [hname, String.length_append, String.length_append]
  have hbar : "__".length = 2 := by decide
  omega

theorem mem_templateIds {id : NodeId} :
    id ∈ templateIds steps ↔ ∃ t ∈ templates steps, id ∈ clonedIds t.2.steps :=
  List.mem_flatMap

/-- A template node stands for longer names, every other node for itself. -/
theorem imageNames_longer {id : NodeId} (hid : id ∈ templateIds steps) :
    ∀ name ∈ imageNames floats envelope steps id, id.value.length < name.length := by
  obtain ⟨t, ht, hmem⟩ := mem_templateIds.mp hid
  intro name hname
  unfold imageNames at hname
  split at hname
  · obtain ⟨suffix, -, rfl⟩ := List.mem_map.mp hname
    exact length_cloneName id suffix
  · rename_i hnone
    have := List.find?_eq_none.mp hnone t ht
    simp [hmem] at this

theorem imageNames_self {id : NodeId} (hid : id ∉ templateIds steps) :
    imageNames floats envelope steps id = [id.value] := by
  have hnone : (templates steps).find? (fun t => id ∈ clonedIds t.2.steps) = none := by
    rw [List.find?_eq_none]
    intro t ht hmem
    exact hid (mem_templateIds.mpr ⟨t, ht, by simpa using hmem⟩)
  rw [imageNames, hnone]

theorem cloneImageNames_longer {body : PipelineDslBranch PipelineDslStep} {suffix : String}
    {id : NodeId} (hid : id ∈ templateIds steps) :
    ∀ name ∈ cloneImageNames floats envelope steps body suffix id,
      id.value.length < name.length := by
  intro name hname
  unfold cloneImageNames at hname
  split at hname
  · rw [List.mem_singleton.mp hname]
    exact length_cloneName id suffix
  · exact imageNames_longer hid name hname

theorem cloneImageNames_self {step : PipelineDslBranchStep PipelineDslStep}
    {body : PipelineDslBranch PipelineDslStep} {suffix : String} {id : NodeId}
    (hbody : (step, body) ∈ templates steps) (hid : id ∉ templateIds steps) :
    cloneImageNames floats envelope steps body suffix id = [id.value] := by
  rw [cloneImageNames, if_neg, imageNames_self hid]
  exact fun hmem => hid (mem_templateIds.mpr ⟨_, hbody, hmem⟩)

-- ---------------------------------------------------------------------------
-- References
-- ---------------------------------------------------------------------------

/-- Where template nodes stand for longer names a merge that is left as it is
follows exactly when it names none of them. -/
theorem follows_self_iff {images : NodeId → List String} {refs : MergeRefs}
    (hlonger : ∀ id ∈ templateIds steps, ∀ name ∈ images id, id.value.length < name.length)
    (hself : ∀ id, id ∉ templateIds steps → images id = [id.value]) :
    refs.Follows images refs ↔ ∀ id, refs.Names id → id ∉ templateIds steps := by
  constructor
  · intro h
    -- a field that holds a template node holds a shorter one
    have general (P : NodeId → Prop)
        (hP : ∀ id, P id ↔ ∃ source, P source ∧ id.value ∈ images source) :
        ∀ n, ∀ id, id.value.length = n → P id → id ∉ templateIds steps := by
      intro n
      induction n using Nat.strong_induction_on with
      | _ n ih =>
        intro id hlength hid hmem
        obtain ⟨source, hsource, hname⟩ := (hP id).mp hid
        by_cases htemplate : source ∈ templateIds steps
        · have hlt := hlonger source htemplate _ hname
          exact ih _ (hlength ▸ hlt) source rfl hsource htemplate
        · rw [hself source htemplate, List.mem_singleton] at hname
          exact htemplate (Id.value_inj.mp hname ▸ hmem)
    rintro id (hid | hid | hid)
    · exact general (fun id => some id ∈ refs.selectors) h.selectors _ id rfl hid
    · exact general (fun id => id ∈ refs.sources) h.sources _ id rfl hid
    · exact general (fun id => id ∈ refs.sourcePorts) h.sourcePorts _ id rfl hid
  · intro h
    have general (P : NodeId → Prop) (hP : ∀ id, P id → refs.Names id) (id : NodeId) :
        P id ↔ ∃ source, P source ∧ id.value ∈ images source := by
      constructor
      · intro hid
        exact ⟨id, hid, by rw [hself id (h id (hP id hid)), List.mem_singleton]⟩
      · rintro ⟨source, hsource, hname⟩
        rw [hself source (h source (hP source hsource)), List.mem_singleton] at hname
        exact Id.value_inj.mp hname ▸ hsource
    exact ⟨general _ fun _ => .inl, general _ fun _ h => .inr (.inl h),
      general _ fun _ h => .inr (.inr h)⟩

theorem mem_expectedRefs {part : FanoutPart} (hpart : part ∈ stepParts steps)
    (hsuffixes : ∀ t ∈ templates steps, suffixes floats envelope t.1 t.2 ≠ []) {refs : MergeRefs} :
    refs ∈ part.refs ↔ ∃ images, (refs, images) ∈ part.expectedRefs floats envelope steps := by
  cases part with
  | template step body =>
    have hne := hsuffixes _ (template_mem_templates hpart)
    obtain ⟨suffix, hsuffix⟩ := List.exists_mem_of_ne_nil _ hne
    simp only [FanoutPart.expectedRefs, FanoutPart.refs, List.mem_flatMap, List.mem_map,
      Prod.mk.injEq]
    constructor
    · exact fun hrefs => ⟨_, suffix, hsuffix, refs, hrefs, rfl, rfl⟩
    · rintro ⟨_, _, -, _, hrefs, rfl, -⟩
      exact hrefs
  | sequence id => simp [FanoutPart.expectedRefs, FanoutPart.refs]
  | other step => simp [FanoutPart.expectedRefs, FanoutPart.refs]

theorem expected_images {part : FanoutPart} (hpart : part ∈ stepParts steps)
    {expected : MergeRefs × (NodeId → List String)}
    (h : expected ∈ part.expectedRefs floats envelope steps) :
    (∀ id ∈ templateIds steps, ∀ name ∈ expected.2 id, id.value.length < name.length) ∧
      ∀ id, id ∉ templateIds steps → expected.2 id = [id.value] := by
  cases part with
  | template step body =>
    simp only [FanoutPart.expectedRefs, List.mem_flatMap, List.mem_map] at h
    obtain ⟨suffix, -, refs, -, rfl⟩ := h
    exact ⟨fun id hid => cloneImageNames_longer hid, fun id hid =>
      cloneImageNames_self (template_mem_templates hpart) hid⟩
  | sequence id => cases h
  | other step =>
    simp only [FanoutPart.expectedRefs, List.mem_map] at h
    obtain ⟨refs, -, rfl⟩ := h
    exact ⟨fun id hid => imageNames_longer hid, fun id hid => imageNames_self hid⟩

/-- Merges are left as they are, so they follow when they name no template node. -/
theorem merges_follow_iff (hsuffixes : ∀ t ∈ templates steps, suffixes floats envelope t.1 t.2 ≠ []) :
    List.Forall₂ (fun expected refs => MergeRefs.Follows expected.2 expected.1 refs)
        ((stepParts steps).flatMap (FanoutPart.expectedRefs floats envelope steps))
        (((stepParts steps).flatMap (FanoutPart.expectedRefs floats envelope steps)).map Prod.fst) ↔
      ∀ refs ∈ stepMergeRefs false steps, ∀ id, refs.Names id → id ∉ templateIds steps := by
  rw [List.forall₂_map_right_iff, List.forall₂_same, mergeRefs_parts]
  constructor
  · intro h refs hrefs
    obtain ⟨part, hpart, hrefs⟩ := List.mem_flatMap.mp hrefs
    obtain ⟨images, himages⟩ := (mem_expectedRefs hpart hsuffixes).mp hrefs
    obtain ⟨hlonger, hself⟩ := expected_images hpart himages
    exact (follows_self_iff hlonger hself).mp (h _ (List.mem_flatMap.mpr ⟨part, hpart, himages⟩))
  · intro h expected hexpected
    obtain ⟨part, hpart, hexpected⟩ := List.mem_flatMap.mp hexpected
    obtain ⟨hlonger, hself⟩ := expected_images hpart hexpected
    refine (follows_self_iff hlonger hself).mpr (h _ (List.mem_flatMap.mpr ⟨part, hpart, ?_⟩))
    exact (mem_expectedRefs hpart hsuffixes).mpr ⟨_, hexpected⟩

-- ---------------------------------------------------------------------------
-- Recorded clones
-- ---------------------------------------------------------------------------

/-- The clones of one template, each with the name it gets. -/
def templateEvents (floats : FloatWriter) (envelope : ExternalDataPlanEnvelope Cohort)
    (t : PipelineDslBranchStep PipelineDslStep × PipelineDslBranch PipelineDslStep) :
    List (NodeId × String) :=
  (suffixes floats envelope t.1 t.2).flatMap fun suffix =>
    (clonedIds t.2.steps).map fun id => (id, cloneName id suffix)

theorem parts_events {ps : List FanoutPart} : ps.flatMap (FanoutPart.events floats envelope) =
    (ps.filterMap (·.asTemplate)).flatMap (templateEvents floats envelope) := by
  induction ps with
  | nil => rfl
  | cons part ps ih =>
    rw [List.flatMap_cons, ih]
    cases part with
    | template step body => rfl
    | sequence id => rfl
    | other step => rfl

theorem clonedIds_sublist {ps : List FanoutPart} :
    ((ps.filterMap (·.asTemplate)).flatMap fun t => clonedIds t.2.steps).Sublist
      (ps.flatMap FanoutPart.ids) := by
  induction ps with
  | nil => exact .slnil
  | cons part ps ih =>
    rw [List.flatMap_cons]
    cases part with
    | template step body => exact (List.filter_sublist.map _).append ih
    | sequence id => exact ih.trans (List.sublist_append_right _ _)
    | other step => exact ih.trans (List.sublist_append_right _ _)

theorem nodup_templateIds (hids : ((stepSlots false steps).map (·.id)).Nodup) :
    (templateIds steps).Nodup := by
  rw [slotIds_parts] at hids
  exact hids.sublist clonedIds_sublist

theorem filter_templateEvents
    {t : PipelineDslBranchStep PipelineDslStep × PipelineDslBranch PipelineDslStep} {id : NodeId}
    (hn : (clonedIds t.2.steps).Nodup) :
    (templateEvents floats envelope t).filter (·.1 = id) =
      if id ∈ clonedIds t.2.steps then
        (suffixes floats envelope t.1 t.2).map fun suffix => (id, cloneName id suffix)
      else [] := by
  have hone (suffix : String) :
      ((clonedIds t.2.steps).map fun id => (id, cloneName id suffix)).filter (·.1 = id) =
        if id ∈ clonedIds t.2.steps then [(id, cloneName id suffix)] else [] := by
    have hfilter : (clonedIds t.2.steps).filter (· = id) =
        if id ∈ clonedIds t.2.steps then [id] else [] := by
      rw [List.filter_eq, hn.count]
      split <;> rfl
    rw [List.filter_map, Function.comp_def, hfilter]
    split <;> rfl
  rw [templateEvents, List.filter_flatMap]
  simp only [hone]
  split
  · exact List.map_eq_flatMap.symm
  · simp

theorem filter_events
    {ts : List (PipelineDslBranchStep PipelineDslStep × PipelineDslBranch PipelineDslStep)}
    {id : NodeId} (hn : (ts.flatMap fun t => clonedIds t.2.steps).Nodup) :
    (ts.flatMap (templateEvents floats envelope)).filter (·.1 = id) =
      match ts.find? fun t => id ∈ clonedIds t.2.steps with
      | some t => (suffixes floats envelope t.1 t.2).map fun suffix => (id, cloneName id suffix)
      | none => [] := by
  induction ts with
  | nil => rfl
  | cons t ts ih =>
    rw [List.flatMap_cons, List.nodup_append'] at hn
    rw [List.flatMap_cons, List.filter_append, ih hn.2.1, filter_templateEvents hn.1]
    by_cases hmem : id ∈ clonedIds t.2.steps
    · have hnone : ts.find? (fun t => id ∈ clonedIds t.2.steps) = none := by
        rw [List.find?_eq_none]
        intro t' ht' hmem'
        exact hn.2.2 hmem (List.mem_flatMap.mpr ⟨t', ht', by simpa using hmem'⟩)
      rw [hnone, List.find?_cons_of_pos (by simpa using hmem), if_pos hmem, List.append_nil]
    · rw [List.find?_cons_of_neg (by simpa using hmem), if_neg hmem, List.nil_append]

/-- The recorded clones of a node are what it stands for. -/
theorem cloneIds_names {idMap : NodeIdRewriteMap} {events : List (NodeId × NodeId)}
    (hids : ((stepSlots false steps).map (·.id)).Nodup)
    (hsuffixes : ∀ t ∈ templates steps, suffixes floats envelope t.1 t.2 ≠ [])
    (hrecords : Records idMap events)
    (hevents : events.map eventName = (stepParts steps).flatMap (FanoutPart.events floats envelope))
    (id : NodeId) : (cloneIds idMap id).map (·.value) = imageNames floats envelope steps id := by
  have hfilter : (events.filter (·.1 = id)).map eventName =
      match (templates steps).find? fun t => id ∈ clonedIds t.2.steps with
      | some t => (suffixes floats envelope t.1 t.2).map fun suffix => (id, cloneName id suffix)
      | none => [] := by
    rw [← filter_events (nodup_templateIds hids), templates, ← parts_events, ← hevents,
      List.filter_map]
    rfl
  rw [cloneIds, hrecords, imageNames]
  cases hfind : (templates steps).find? fun t => id ∈ clonedIds t.2.steps with
  | none =>
    rw [hfind, List.map_eq_nil_iff] at hfilter
    rw [hfilter]
    rfl
  | some t =>
    rw [hfind] at hfilter
    have hne : events.filter (·.1 = id) ≠ [] := by
      intro hnil
      rw [hnil] at hfilter
      exact hsuffixes t (List.mem_of_find?_eq_some hfind) (List.map_eq_nil_iff.mp hfilter.symm)
    have hvalues := congrArg (List.map Prod.snd) hfilter
    rw [List.map_map, List.map_map] at hvalues
    rw [if_neg hne, Option.getD_some, List.map_map]
    exact hvalues

end

-- ---------------------------------------------------------------------------
-- Complete and closed
-- ---------------------------------------------------------------------------

section

variable {Cohort : Type} {externals : Externals}
  {checkCohort : Cohort → Option SampleRelationSet → Result Unit}
  {envelope : ExternalDataPlanEnvelope Cohort} {spec expanded : PipelineDslSpec}

theorem rewriteChoiceOverrides_ok {dimension : PipelineDslGenerationDimension}
    {idMap : NodeIdRewriteMap} {choice choice' : PipelineDslGenerationChoice}
    (h : rewriteChoiceOverrides dimension idMap choice = .ok choice') :
    choice' = choice.retarget (cloneIds idMap) := by
  simp only [rewriteChoiceOverrides, bind_ok, pure_ok] at h
  obtain ⟨_, -, rfl⟩ := h
  rw [List.map_flatMap]
  simp [targetOverrides, PipelineDslGenerationChoice.retarget, Function.comp_def]

theorem rewriteGenerationOverrides_ok {dimensions dimensions' : List PipelineDslGenerationDimension}
    {idMap : NodeIdRewriteMap}
    (h : rewriteGenerationOverridesForFannedNodes dimensions idMap = .ok dimensions') :
    dimensions' = dimensions.map (·.retarget (cloneIds idMap)) := by
  refine (List.map_id _).symm.trans (map_of_collect h fun dimension dimension' hrun => ?_)
  simp only [bind_ok, pure_ok] at hrun
  obtain ⟨choices, hchoices, rfl⟩ := hrun
  have hmap : choices.map id = dimension.choices.map (·.retarget (cloneIds idMap)) :=
    map_of_collect hchoices fun choice choice' hchoice => rewriteChoiceOverrides_ok hchoice
  rw [List.map_id] at hmap
  rw [hmap]
  rfl

theorem retarget_self {clones : NodeId → List NodeId} (h : ∀ id, clones id = [id])
    (dimension : PipelineDslGenerationDimension) : dimension.retarget clones = dimension := by
  have hchoice (choice : PipelineDslGenerationChoice) : choice.retarget clones = choice := by
    simp [PipelineDslGenerationChoice.retarget, h]
  simp [PipelineDslGenerationDimension.retarget, hchoice]

/-- What a fan-out leaves, through the parts of the spec. -/
structure FanoutRun (externals : Externals) (envelope : ExternalDataPlanEnvelope Cohort)
    (spec expanded : PipelineDslSpec) (idMap : NodeIdRewriteMap) : Prop where
  steps : StepsFanned externals.floats envelope spec.steps expanded.steps
  left : ∃ after, List.Forall₂ (PartLeft externals.floats envelope) (stepParts spec.steps) after ∧
    ∀ {β : Type} (L : Listing β), expanded.steps.flatMap L.ofStep = after.flatMap L.ofPart
  records : ∃ events, Records idMap events ∧ events.map eventName =
    (stepParts spec.steps).flatMap (FanoutPart.events externals.floats envelope)
  bindings : expanded.dataBindings = rewriteTopLevelDataBindings spec.dataBindings idMap
  overrides : expanded.generationDimensions =
    spec.generationDimensions.map (·.retarget (cloneIds idMap))

theorem fanoutRun_of_ok
    (h : fanOutDataAwareBranches externals checkCohort spec envelope = .ok expanded) :
    ∃ idMap, FanoutRun externals envelope spec expanded idMap := by
  simp only [fanOutDataAwareBranches, bind_ok] at h
  obtain ⟨_, -, fanned, hfanned, h⟩ := h
  obtain ⟨after, hthread, hlisting⟩ := fanOutSteps_parts hfanned
  have hleft : List.Forall₂ (PartLeft externals.floats envelope) (stepParts spec.steps) after :=
    thread_forall₂ (fun _ _ _ _ hstep => fanOutPart_left hstep) hthread
  have hrecords := fanOutParts_records hthread
  refine ⟨fanned.1.idMap, ?_⟩
  split at h
  · rename_i hnil
    cases h
    have hself (id : NodeId) : cloneIds fanned.1.idMap id = [id] := by
      obtain ⟨events, hevents, hnames⟩ := hrecords
      have hnone : (stepParts spec.steps).flatMap
          (FanoutPart.events externals.floats envelope) = [] := by
        rw [List.flatMap_eq_nil_iff]
        intro part hpart
        cases part with
        | template step body => exact absurd hpart (no_template_of_fanouts hthread hnil step body)
        | sequence id => rfl
        | other step => rfl
      rw [hnone, List.map_eq_nil_iff] at hnames
      rw [cloneIds, hevents, hnames]
      rfl
    refine ⟨fanOutSteps_fanned hfanned, ⟨after, hleft, hlisting⟩, hrecords, ?_, ?_⟩
    · simp [rewriteTopLevelDataBindings, hself]
    · simp [retarget_self hself]
  · simp only [bind_ok, pure_ok] at h
    obtain ⟨dimensions, hdimensions, rfl⟩ := h
    exact ⟨fanOutSteps_fanned hfanned, ⟨after, hleft, hlisting⟩, hrecords, rfl,
      rewriteGenerationOverrides_ok hdimensions⟩

theorem fanOut_of_noAutos (hvalid : envelope.validate checkCohort = .ok ())
    (h : stepAutos spec.steps = []) :
    fanOutDataAwareBranches externals checkCohort spec envelope = .ok spec := by
  simp only [fanOutDataAwareBranches, bind_ok]
  refine ⟨(), hvalid, _, fanOutSteps_of_noAutos h, ?_⟩
  rw [if_pos rfl]
  rfl

theorem fanOut_reordered {envelope' : ExternalDataPlanEnvelope Cohort}
    (h : fanOutDataAwareBranches externals checkCohort spec envelope = .ok expanded)
    (hsame : ReordersRecords envelope envelope')
    (hvalid : envelope'.validate checkCohort = .ok ()) :
    fanOutDataAwareBranches externals checkCohort spec envelope' = .ok expanded := by
  have hmetadata (fanouts : List DataAwareFanoutRecord) :
      fanoutMetadata externals envelope' fanouts = fanoutMetadata externals envelope fanouts := by
    simp only [fanoutMetadata, hsame.relationFingerprint]
  simp only [fanOutDataAwareBranches, bind_ok, fanOutSteps_reordered hsame, hmetadata] at h ⊢
  obtain ⟨_, -, h⟩ := h
  exact ⟨(), hvalid, h⟩

section

variable {idMap : NodeIdRewriteMap}

theorem FanoutRun.suffixes_ok (h : FanoutRun externals envelope spec expanded idMap) :
    ∀ t ∈ templates spec.steps, (suffixes externals.floats envelope t.1 t.2).Nodup ∧
      suffixes externals.floats envelope t.1 t.2 ≠ [] := by
  intro t ht
  obtain ⟨after, hleft, -⟩ := h.left
  obtain ⟨part, -, out, criterion, relations, -, hfanned⟩ :=
    exists_right_of_mem hleft (mem_templates.mp ht)
  constructor
  · have hids : out.branches.map (·.id) =
        (suffixes externals.floats envelope t.1 t.2).map fun suffix => s!"{t.2.id}__{suffix}" := by
      rw [suffixes, List.map_map, ← List.forall₂_eq_eq_eq, List.forall₂_map_left_iff,
        List.forall₂_map_right_iff]
      exact (List.Forall₂.flip hfanned.expanded.branches).imp fun _ _ hbranch => hbranch.id
    exact (hids ▸ hfanned.expanded.ids).of_map _
  · intro hnil
    exact hfanned.expanded.nonempty (List.map_eq_nil_iff.mp hnil)

theorem FanoutRun.names (h : FanoutRun externals envelope spec expanded idMap) :
    (stepSlots false expanded.steps).map (·.id.value) =
      (stepParts spec.steps).flatMap (FanoutPart.names externals.floats envelope) := by
  obtain ⟨after, hleft, hlisting⟩ := h.left
  rw [stepSlots_eq, ← flatMap_names hleft]
  exact congrArg _ (hlisting slotListing)

theorem FanoutRun.merges (h : FanoutRun externals envelope spec expanded idMap) :
    stepMergeRefs false expanded.steps = ((stepParts spec.steps).flatMap
      (FanoutPart.expectedRefs externals.floats envelope spec.steps)).map Prod.fst := by
  obtain ⟨after, hleft, hlisting⟩ := h.left
  rw [stepMergeRefs_eq, ← flatMap_refs hleft]
  exact hlisting mergeListing

theorem FanoutRun.autos (h : FanoutRun externals envelope spec expanded idMap) :
    stepAutos expanded.steps = [] ↔ ∀ part ∈ stepParts spec.steps, part.nested = [] := by
  obtain ⟨after, hleft, hlisting⟩ := h.left
  rw [stepAutos_eq, ← flatMap_autos hleft]
  exact Iff.of_eq (congrArg (· = []) (hlisting autoListing))

theorem FanoutRun.distinct_iff (h : FanoutRun externals envelope spec expanded idMap)
    (hids : ((stepSlots false spec.steps).map (·.id)).Nodup) :
    ((stepSlots false expanded.steps).map (·.id)).Nodup ↔
      ClonesApart externals.floats envelope spec.steps := by
  rw [← nodup_names_iff hids fun t ht => (h.suffixes_ok t ht).1, ← h.names,
    ← List.nodup_map_iff value_injective, List.map_map]
  rfl

theorem FanoutRun.images (h : FanoutRun externals envelope spec expanded idMap)
    (hids : ((stepSlots false spec.steps).map (·.id)).Nodup) (id : NodeId) :
    (cloneIds idMap id).map (·.value) = imageNames externals.floats envelope spec.steps id := by
  obtain ⟨events, hrecords, hevents⟩ := h.records
  exact cloneIds_names hids (fun t ht => (h.suffixes_ok t ht).2) hrecords hevents id

/-- What a template node stands for is a node of the outcome. -/
theorem FanoutRun.image_mem (h : FanoutRun externals envelope spec expanded idMap)
    (hids : ((stepSlots false spec.steps).map (·.id)).Nodup) {source id : NodeId}
    (hid : id ∈ templateIds spec.steps) (hclone : id ∈ cloneIds idMap source) :
    id ∈ (stepSlots false expanded.steps).map (·.id) := by
  have hname : id.value ∈ imageNames externals.floats envelope spec.steps source := by
    rw [← h.images hids]
    exact List.mem_map_of_mem hclone
  have hmem : id.value ∈ (stepSlots false expanded.steps).map (·.id.value) := by
    rw [h.names, List.mem_flatMap]
    unfold imageNames at hname
    split at hname
    · rename_i t hfind
      obtain ⟨suffix, hsuffix, heq⟩ := List.mem_map.mp hname
      have hsource : source ∈ clonedIds t.2.steps := by simpa using List.find?_some hfind
      obtain ⟨slot, hslot, rfl⟩ := List.mem_map.mp hsource
      obtain ⟨hslot, hcovers⟩ := List.mem_filter.mp hslot
      refine ⟨_, mem_templates.mp (List.mem_of_find?_eq_some hfind),
        mem_names.mpr (.inr ⟨_, _, rfl, suffix, hsuffix, slot, hslot, ?_⟩)⟩
      rw [placeName, if_pos hcovers, heq]
    · rename_i hnone
      obtain rfl := Id.value_inj.mp (List.mem_singleton.mp hname)
      obtain ⟨t, ht, hmem⟩ := mem_templateIds.mp hid
      have hfalse := List.find?_eq_none.mp hnone t ht
      simp [hmem] at hfalse
  obtain ⟨slot, hslot, heq⟩ := List.mem_map.mp hmem
  exact List.mem_map.mpr ⟨slot, hslot, Id.value_inj.mp heq⟩

end

theorem mentions_of_retarget {clones : NodeId → List NodeId} {id : NodeId}
    (hbindings : expanded.dataBindings = spec.dataBindings.flatMap fun binding =>
      (clones binding.nodeId).map fun nodeId => { binding with nodeId })
    (hoverrides : expanded.generationDimensions =
      spec.generationDimensions.map (·.retarget clones))
    (h : expanded.Mentions id) : (∃ source, id ∈ clones source) ∨
      ∃ refs ∈ stepMergeRefs false expanded.steps, refs.Names id := by
  rcases h with ⟨binding, hbinding, rfl⟩ |
    ⟨dimension, hdimension, choice, hchoice, overrideSpec, hoverride, rfl⟩ | hrefs
  · rw [hbindings] at hbinding
    obtain ⟨source, -, hbinding⟩ := List.mem_flatMap.mp hbinding
    obtain ⟨nodeId, hnode, rfl⟩ := List.mem_map.mp hbinding
    exact .inl ⟨_, hnode⟩
  · rw [hoverrides] at hdimension
    obtain ⟨dimension, -, rfl⟩ := List.mem_map.mp hdimension
    obtain ⟨choice, -, rfl⟩ := List.mem_map.mp hchoice
    obtain ⟨source, -, hoverride⟩ := List.mem_flatMap.mp hoverride
    obtain ⟨nodeId, hnode, rfl⟩ := List.mem_map.mp hoverride
    exact .inl ⟨_, hnode⟩
  · exact .inr hrefs

theorem mem_merges_of_run {idMap : NodeIdRewriteMap}
    (h : FanoutRun externals envelope spec expanded idMap) {refs : MergeRefs}
    (hrefs : refs ∈ stepMergeRefs false expanded.steps) :
    refs ∈ stepMergeRefs false spec.steps := by
  rw [h.merges] at hrefs
  obtain ⟨expected, hexpected, rfl⟩ := List.mem_map.mp hrefs
  obtain ⟨part, hpart, hexpected⟩ := List.mem_flatMap.mp hexpected
  rw [mergeRefs_parts]
  exact List.mem_flatMap.mpr ⟨part, hpart,
    (mem_expectedRefs hpart fun t ht => (h.suffixes_ok t ht).2).mpr ⟨_, hexpected⟩⟩

/-- A fan-out is complete and closed on the separable specs, and on no others. -/
theorem fannedOut_iff (hids : ((stepSlots false spec.steps).map (·.id)).Nodup)
    (h : fanOutDataAwareBranches externals checkCohort spec envelope = .ok expanded) :
    (∃ clones, FannedOut externals checkCohort envelope spec expanded clones) ↔
      Separable externals.floats envelope spec.steps := by
  obtain ⟨idMap, hrun⟩ := fanoutRun_of_ok h
  have hsuffixes := fun t ht => (hrun.suffixes_ok t ht).2
  constructor
  · rintro ⟨clones, hfanned⟩
    refine ⟨hrun.autos.mp hfanned.noAutos, ?_, (hrun.distinct_iff hids).mp hfanned.distinct⟩
    have hmerges := hfanned.merges
    rw [hrun.merges] at hmerges
    exact (merges_follow_iff hsuffixes).mp hmerges
  · intro hseparable
    have hnone := hrun.autos.mpr hseparable.flat
    refine ⟨cloneIds idMap, ?_⟩
    constructor
    case noAutos => exact hnone
    case rerun =>
      simp only [fanOutDataAwareBranches, bind_ok] at h
      exact fanOut_of_noAutos h.choose_spec.1 hnone
    case steps => exact hrun.steps
    case distinct => exact (hrun.distinct_iff hids).mpr hseparable.apart
    case images => exact hrun.images hids
    case bindings => exact hrun.bindings
    case overrides => exact hrun.overrides
    case merges =>
      rw [hrun.merges]
      exact (merges_follow_iff hsuffixes).mpr hseparable.unreferenced
    case settled =>
      intro id hid hmentions
      rcases mentions_of_retarget hrun.bindings hrun.overrides hmentions with
        ⟨source, hclone⟩ | ⟨refs, hrefs, hnames⟩
      · exact hrun.image_mem hids hid hclone
      · exact absurd hid (hseparable.unreferenced refs (mem_merges_of_run hrun hrefs) id hnames)
    case orderFree => exact fun envelope' hsame hvalid => fanOut_reordered h hsame hvalid

end

-- ---------------------------------------------------------------------------
-- A merge after a template
-- ---------------------------------------------------------------------------

/-- One observation with two tags. -/
def taggedEnvelope : ExternalDataPlanEnvelope Unit where
  schemaFingerprint := String.ofList (.replicate 64 'a')
  planFingerprint := String.ofList (.replicate 64 'b')
  coordinatorRelations := some { records := [
    { SampleRelation.new ⟨"obs:tagged", by decide⟩ ⟨"tagged", by decide⟩ with
      tags := ["north", "south"] }] }
  metadataValid := by
    rintro relations ⟨⟩ record hrecord key value hvalue
    rw [List.mem_singleton.mp hrecord] at hvalue
    simp [SampleRelation.new] at hvalue

def regionStep : PipelineDslBranchStep PipelineDslStep where
  mode := .byTag
  metadata := BTreeMap.collect [("auto_separate", ⟨.bool true, trivial⟩)]
  branches := [{ id := "region", steps := [.operator .model { id := ⟨"ridge", by decide⟩ }] }]

/-- A template with one model, and what follows it. -/
def regionSpec (rest : List PipelineDslStep) : PipelineDslSpec where
  steps := .branch regionStep :: rest

def regionMerge : PipelineDslStep :=
  .merge { id := ⟨"blend", by decide⟩, selectors := [{ model := some ⟨"ridge", by decide⟩ }] }

theorem autoTemplate_regionStep : autoTemplate regionStep =
    some { id := "region", steps := [.operator .model { id := ⟨"ridge", by decide⟩ }] } := by
  have hauto : isAutoSeparationBranch regionStep = true := by decide +kernel
  rw [autoTemplate, hauto]
  rfl

theorem stepParts_regionSpec (rest : List PipelineDslStep) : stepParts (regionSpec rest).steps =
    .template regionStep
      { id := "region", steps := [.operator .model { id := ⟨"ridge", by decide⟩ }] } ::
        stepParts rest := by
  change parts (.branch regionStep) ++ stepParts rest = _
  rw [regionStep, parts, ← regionStep, autoTemplate_regionStep]
  rfl

def acceptCohort : Unit → Option SampleRelationSet → Result Unit := fun _ _ => .ok ()

theorem fannedOut_iff_region : ∃ expanded clones,
    fanOutDataAwareBranches plainExternals acceptCohort (regionSpec []) taggedEnvelope =
      .ok expanded ∧
    FannedOut plainExternals acceptCohort taggedEnvelope (regionSpec []) expanded clones := by
  have hok : (fanOutDataAwareBranches plainExternals acceptCohort (regionSpec [])
      taggedEnvelope).toBool = true := by decide +kernel
  have hseparable : Separable plainExternals.floats taggedEnvelope (regionSpec []).steps := by
    constructor
    case flat =>
      rw [stepParts_regionSpec]
      intro part hpart
      rw [List.mem_singleton.mp hpart]
      rfl
    case unreferenced =>
      intro refs hrefs
      cases hrefs
    case apart => constructor <;> decide +kernel
  cases hrun : fanOutDataAwareBranches plainExternals acceptCohort (regionSpec [])
      taggedEnvelope with
  | error e =>
    rw [hrun] at hok
    cases hok
  | ok expanded =>
    obtain ⟨clones, hfanned⟩ := (fannedOut_iff (by decide) hrun).mpr hseparable
    exact ⟨expanded, clones, rfl, hfanned⟩

/-- A merge that selects the template's model still names it when it is gone. -/
theorem merge_names_template : ∃ expanded,
    ((stepSlots false (regionSpec [regionMerge]).steps).map (·.id)).Nodup ∧
    fanOutDataAwareBranches plainExternals acceptCohort (regionSpec [regionMerge])
      taggedEnvelope = .ok expanded ∧
    ¬∃ clones, FannedOut plainExternals acceptCohort taggedEnvelope (regionSpec [regionMerge])
      expanded clones := by
  have hok : (fanOutDataAwareBranches plainExternals acceptCohort (regionSpec [regionMerge])
      taggedEnvelope).toBool = true := by decide +kernel
  cases hrun : fanOutDataAwareBranches plainExternals acceptCohort (regionSpec [regionMerge])
      taggedEnvelope with
  | error e =>
    rw [hrun] at hok
    cases hok
  | ok expanded =>
    refine ⟨expanded, by decide, rfl, fun hfanned => ?_⟩
    have hids : ((stepSlots false (regionSpec [regionMerge]).steps).map (·.id)).Nodup := by decide
    have hseparable := (fannedOut_iff hids hrun).mp hfanned
    have htemplate : (⟨"ridge", by decide⟩ : NodeId) ∈
        templateIds (regionSpec [regionMerge]).steps := by decide +kernel
    exact hseparable.unreferenced _ (List.mem_singleton.mpr rfl) ⟨"ridge", by decide⟩
      (.inl (List.mem_singleton.mpr rfl)) htemplate

end DagMl

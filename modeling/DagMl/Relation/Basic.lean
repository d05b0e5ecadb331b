import DagMl.Json
import DagMl.Ids
import DagMl.Lib.Checked
import DagMl.Lib.Collections

/-!
# Sample relations

Records that tie observations to samples, targets, groups and origins.
`SampleRelationSet.validate` is a loop over the records followed by a check
of the combos; `Valid` says what it decides, without reference to an order.
-/

namespace DagMl

open Checked

inductive EntityUnitLevel
  | physicalSample
  | sourceSample
  | observation
  | combo
  deriving DecidableEq

structure SampleRelation where
  unitLevel : EntityUnitLevel
  unitId : Option String
  observationId : ObservationId
  sampleId : SampleId
  sourceId : Option String
  repId : Option String
  targetId : Option TargetId
  groupId : Option GroupId
  originSampleId : Option SampleId
  derivedUnitId : Option String
  componentObservationIds : List ObservationId
  sampleInfluenceWeight : Option Binary64
  qualityFlag : Option String
  isAugmented : Bool
  excluded : Bool := false
  metadata : BTreeMap String JsonValue
  tags : List String

structure SampleRelationSet where
  records : List SampleRelation

-- ---------------------------------------------------------------------------
-- One record
-- ---------------------------------------------------------------------------

def nonEmptyOptional (field : String) (observationId : ObservationId) (value : Option String) :
    Result (Option String) :=
  match value with
  | none => .ok none
  | some v =>
    if isBlank v then
      .error (.campaignValidation s!"relation `{observationId}` has empty {field}")
    else .ok (some v)

def validateOptionalIdentifier (field : String) (observationId : ObservationId)
    (value : Option String) : Result Unit := do
  let value ← nonEmptyOptional field observationId value
  whenSome value fun v =>
    refuseIf (128 < v.utf8ByteSize ∨ !v.toList.all isIdentifierChar)
      (.campaignValidation s!"relation `{observationId}` has invalid {field}")

namespace SampleRelation

/-- `SampleRelation::new`. -/
def new (observationId : ObservationId) (sampleId : SampleId) : SampleRelation where
  unitLevel := .observation
  unitId := none
  observationId := observationId
  sampleId := sampleId
  sourceId := none
  repId := none
  targetId := none
  groupId := none
  originSampleId := none
  derivedUnitId := none
  componentObservationIds := []
  sampleInfluenceWeight := none
  qualityFlag := none
  isAugmented := false
  excluded := false
  metadata := ∅
  tags := []

def effectiveUnitId (self : SampleRelation) : Result String := do
  match ← nonEmptyOptional "unit_id" self.observationId self.unitId with
  | some unitId => pure unitId
  | none =>
    match self.unitLevel with
    | .physicalSample => pure self.sampleId.value
    | .sourceSample =>
      let sourceId ← nonEmptyOptional "source_id" self.observationId self.sourceId
      let sourceId ← need sourceId (.campaignValidation
        s!"source-sample relation `{self.observationId}` requires source_id")
      pure s!"{self.sampleId}::{sourceId}"
    | .observation => pure self.observationId.value
    | .combo =>
      let derivedUnitId ←
        nonEmptyOptional "derived_unit_id" self.observationId self.derivedUnitId
      need derivedUnitId (.campaignValidation
        s!"combo relation `{self.observationId}` requires derived_unit_id")

def validate (self : SampleRelation) : Result Unit := do
  let _ ← nonEmptyOptional "unit_id" self.observationId self.unitId
  let _ ← nonEmptyOptional "source_id" self.observationId self.sourceId
  let _ ← nonEmptyOptional "derived_unit_id" self.observationId self.derivedUnitId
  let _ ← nonEmptyOptional "quality_flag" self.observationId self.qualityFlag
  validateOptionalIdentifier "rep_id" self.observationId self.repId
  whenSome self.sampleInfluenceWeight fun weight =>
    refuseIf (!weight.isFinite ∨ weight.le .zero) (.campaignValidation
      s!"relation `{self.observationId}` has invalid sample_influence_weight")
  refuseIf (self.unitLevel ≠ .combo ∧ self.componentObservationIds ≠ []) (.campaignValidation
    s!"relation `{self.observationId}` has component_observation_ids but is not a combo")
  let _ ← self.effectiveUnitId
  pure ()

end SampleRelation

-- ---------------------------------------------------------------------------
-- The set
-- ---------------------------------------------------------------------------

/-- What the loop over the records threads. -/
structure RelationProgress where
  observations : Finset ObservationId
  observationSamples : BTreeMap ObservationId SampleId
  unitIds : BTreeMap String ObservationId
  sampleTargets : BTreeMap SampleId TargetId
  sampleGroups : BTreeMap SampleId GroupId

/-- Records the value a sample names, which may not differ from an earlier one. -/
def assignOnce [DecidableEq V] (conflict : DagMlError) (m : BTreeMap SampleId V) (s : SampleId)
    (value : Option V) : Result (BTreeMap SampleId V) :=
  match value with
  | none => .ok m
  | some v =>
    match m[s]? with
    | some previous => if previous ≠ v then .error conflict else .ok m
    | none => .ok (m.insert s v)

def validateRecord (progress : RelationProgress) (record : SampleRelation) :
    Result RelationProgress := do
  record.validate
  refuseIf (record.observationId ∈ progress.observations)
    (.campaignValidation s!"duplicate observation relation `{record.observationId}`")
  let effectiveUnitId ← record.effectiveUnitId
  vacant progress.unitIds[effectiveUnitId]? fun previous => .campaignValidation
    s!"relations `{previous}` and `{record.observationId}` share effective unit id `{effectiveUnitId}`"
  let sampleTargets ← assignOnce
    (.campaignValidation s!"sample `{record.sampleId}` maps to multiple targets")
    progress.sampleTargets record.sampleId record.targetId
  let sampleGroups ← assignOnce
    (.campaignValidation s!"sample `{record.sampleId}` maps to multiple groups")
    progress.sampleGroups record.sampleId record.groupId
  pure {
    observations := insert record.observationId progress.observations
    observationSamples :=
      progress.observationSamples.insert record.observationId record.sampleId
    unitIds := progress.unitIds.insert effectiveUnitId record.observationId
    sampleTargets, sampleGroups }

def validateComponent (record : SampleRelation)
    (observationSamples : BTreeMap ObservationId SampleId) (components : Finset ObservationId)
    (component : ObservationId) : Result (Finset ObservationId) := do
  refuseIf (component = record.observationId) (.campaignValidation
    s!"combo relation `{record.observationId}` cannot list itself as a component")
  refuseIf (component ∈ components) (.campaignValidation
    s!"combo relation `{record.observationId}` repeats component observation `{component}`")
  let componentSample ← need observationSamples[component]? (.campaignValidation
    s!"combo relation `{record.observationId}` references missing component observation `{component}`")
  refuseIf (componentSample ≠ record.sampleId) (.campaignValidation
    s!"combo relation `{record.observationId}` component observation `{component}` belongs to sample `{componentSample}` not `{record.sampleId}`")
  pure (insert component components)

def validateComboRecord (record : SampleRelation)
    (observationSamples : BTreeMap ObservationId SampleId) : Result Unit :=
  if record.unitLevel ≠ .combo then .ok ()
  else do
    refuseIf (record.componentObservationIds = []) (.campaignValidation
      s!"combo relation `{record.observationId}` has no component observations")
    refuseIf (record.derivedUnitId = none) (.campaignValidation
      s!"combo relation `{record.observationId}` requires derived_unit_id")
    whenSome record.originSampleId fun origin =>
      refuseIf (origin ≠ record.sampleId) (.campaignValidation
        s!"combo relation `{record.observationId}` origin sample `{origin}` differs from sample `{record.sampleId}`")
    let _ ← loop (validateComponent record observationSamples) ∅ record.componentObservationIds
    pure ()

def SampleRelationSet.validate (self : SampleRelationSet) : Result Unit := do
  let progress ← loop validateRecord ⟨∅, ∅, ∅, ∅, ∅⟩ self.records
  each self.records fun record => validateComboRecord record progress.observationSamples

-- ---------------------------------------------------------------------------
-- The rule
-- ---------------------------------------------------------------------------

/-- Two records that name the same thing name one thing. -/
def SameValue (a b : Option V) : Prop := ∀ x, a = some x → ∀ y, b = some y → x = y

/-- Two records that may stand in one set. -/
structure Compatible (a b : SampleRelation) : Prop where
  observation : a.observationId ≠ b.observationId
  unit : a.effectiveUnitId ≠ b.effectiveUnitId
  target : a.sampleId = b.sampleId → SameValue a.targetId b.targetId
  group : a.sampleId = b.sampleId → SameValue a.groupId b.groupId

theorem SameValue.symm {a b : Option V} (h : SameValue a b) : SameValue b a :=
  fun y hy x hx => (h x hx y hy).symm

theorem Compatible.symm (h : Compatible a b) : Compatible b a where
  observation := h.observation.symm
  unit := h.unit.symm
  target he := (h.target he.symm).symm
  group he := (h.group he.symm).symm

instance : Std.Symm Compatible := ⟨fun _ _ => Compatible.symm⟩

/-- A combo names components, all of its own sample. -/
structure ComboValid (records : List SampleRelation) (r : SampleRelation) : Prop where
  components_ne : r.componentObservationIds ≠ []
  derived : r.derivedUnitId ≠ none
  origin : ∀ o, r.originSampleId = some o → o = r.sampleId
  components_nodup : r.componentObservationIds.Nodup
  components : ∀ c ∈ r.componentObservationIds, c ≠ r.observationId ∧
    ∃ r' ∈ records, r'.observationId = c ∧ r'.sampleId = r.sampleId

structure SampleRelationSet.Valid (relations : SampleRelationSet) : Prop where
  records_valid : ∀ r ∈ relations.records, r.validate = .ok ()
  compatible : relations.records.Pairwise Compatible
  combos : ∀ r ∈ relations.records, r.unitLevel = .combo → ComboValid relations.records r

/-- The rule does not look at the order of the records. -/
theorem SampleRelationSet.Valid.perm {a b : SampleRelationSet} (h : a.Valid)
    (hp : a.records.Perm b.records) : b.Valid where
  records_valid r hr := h.records_valid r (hp.mem_iff.mpr hr)
  compatible := (hp.pairwise_iff Compatible.symm).mp h.compatible
  combos r hr hl :=
    { h.combos r (hp.mem_iff.mpr hr) hl with
      components := fun c hc => by
        obtain ⟨hne, r', hr', hc'⟩ := (h.combos r (hp.mem_iff.mpr hr) hl).components c hc
        exact ⟨hne, r', hp.mem_iff.mp hr', hc'⟩ }

-- ---------------------------------------------------------------------------
-- The checker decides the rule
-- ---------------------------------------------------------------------------

/-- The loop state that accounts for the records already visited. -/
structure Seen (done : List SampleRelation) (progress : RelationProgress) : Prop where
  observations : ∀ o, o ∈ progress.observations ↔ ∃ r ∈ done, r.observationId = o
  observationSamples : ∀ o s, progress.observationSamples[o]? = some s ↔
    ∃ r ∈ done, r.observationId = o ∧ r.sampleId = s
  unitIds : ∀ u, u ∈ progress.unitIds ↔ ∃ r ∈ done, r.effectiveUnitId = .ok u
  sampleTargets : ∀ s t, progress.sampleTargets[s]? = some t ↔
    ∃ r ∈ done, r.sampleId = s ∧ r.targetId = some t
  sampleGroups : ∀ s g, progress.sampleGroups[s]? = some g ↔
    ∃ r ∈ done, r.sampleId = s ∧ r.groupId = some g

theorem Seen.start : Seen [] ⟨∅, ∅, ∅, ∅, ∅⟩ := by
  constructor <;> simp

theorem assignOnce_ok [DecidableEq V] {m : BTreeMap SampleId V}
    (h : assignOnce conflict m s value = .ok m') :
    SameValue m[s]? value ∧
      ∀ t v, m'[t]? = some v ↔ m[t]? = some v ∨ t = s ∧ value = some v := by
  cases value with
  | none =>
    cases h
    simp [SameValue]
  | some v =>
    cases hm : m[s]? with
    | none =>
      simp only [assignOnce, hm, Except.ok.injEq] at h
      subst h
      refine ⟨by simp [SameValue], fun t w => ?_⟩
      rw [BTreeMap.getElem?_insert]
      by_cases ht : s = t
      · subst ht
        simp [hm]
      · simp [ht, Ne.symm ht]
    | some previous =>
      simp only [assignOnce, hm, ne_eq, ite_not] at h
      split at h
      · rename_i he
        cases h
        subst he
        refine ⟨by simp [SameValue], fun t w => ⟨.inl, ?_⟩⟩
        rintro (h | ⟨rfl, h⟩)
        · exact h
        · exact hm.trans h
      · cases h

theorem assignOnce_exists [DecidableEq V] {m : BTreeMap SampleId V}
    (h : SameValue m[s]? value) : ∃ m', assignOnce conflict m s value = .ok m' := by
  cases value with
  | none => exact ⟨m, rfl⟩
  | some v =>
    cases hm : m[s]? with
    | none => exact ⟨m.insert s v, by simp [assignOnce, hm]⟩
    | some previous =>
      have he : previous = v := h previous hm v rfl
      exact ⟨m, by simp [assignOnce, hm, he]⟩

theorem validateRecord_ok (hs : Seen done progress)
    (h : validateRecord progress r = .ok progress') :
    r.validate = .ok () ∧ (∀ d ∈ done, Compatible d r) ∧ Seen (done ++ [r]) progress' := by
  simp only [validateRecord, bind_ok, refuseIf_ok, vacant_ok, pure_ok] at h
  obtain ⟨_, hr, _, hobs, u, hu, _, hunit, targets, htargets, groups, hgroups, rfl⟩ := h
  obtain ⟨ht, htget⟩ := assignOnce_ok htargets
  obtain ⟨hg, hgget⟩ := assignOnce_ok hgroups
  refine ⟨hr, fun d hd => ⟨?_, ?_, ?_, ?_⟩, ?_⟩
  · intro he
    exact hobs ((hs.observations _).mpr ⟨d, hd, he⟩)
  · intro he
    obtain ⟨o, ho⟩ := BTreeMap.mem_iff.mp ((hs.unitIds u).mpr ⟨d, hd, he.trans hu⟩)
    cases hunit.symm.trans ho
  · exact fun he x hx => ht x ((hs.sampleTargets _ x).mpr ⟨d, hd, he, hx⟩)
  · exact fun he x hx => hg x ((hs.sampleGroups _ x).mpr ⟨d, hd, he, hx⟩)
  · constructor
    · intro o
      rw [Finset.mem_insert, hs.observations]
      simp [or_comm, eq_comm]
    · intro o s
      rw [BTreeMap.getElem?_insert]
      split
      · rename_i ho
        have hnone (d : SampleRelation) (hd : d ∈ done) : d.observationId ≠ o :=
          fun he => hobs ((hs.observations _).mpr ⟨d, hd, he.trans ho.symm⟩)
        have hskip : ∀ d ∈ done, d.observationId = o → d.sampleId = s → r.sampleId = s :=
          fun d hd he => absurd he (hnone d hd)
        simpa [ho] using hskip
      · rename_i ho
        simp [hs.observationSamples, ho]
    · intro u'
      simp [hs.unitIds, hu, or_comm]
    · intro s t
      rw [htget, hs.sampleTargets]
      simp [eq_comm]
    · intro s g
      rw [hgget, hs.sampleGroups]
      simp [eq_comm]

theorem effectiveUnitId_of_validate {r : SampleRelation} (h : r.validate = .ok ()) :
    ∃ u, r.effectiveUnitId = .ok u := by
  simp only [SampleRelation.validate, bind_ok] at h
  obtain ⟨_, -, _, -, _, -, _, -, _, -, _, -, _, -, u, hu, -⟩ := h
  exact ⟨u, hu⟩

theorem validateRecord_exists (hs : Seen done progress) (hr : r.validate = .ok ())
    (hc : ∀ d ∈ done, Compatible d r) : ∃ progress', validateRecord progress r = .ok progress' := by
  obtain ⟨u, hu⟩ := effectiveUnitId_of_validate hr
  have hobs : r.observationId ∉ progress.observations := by
    intro hm
    obtain ⟨d, hd, he⟩ := (hs.observations _).mp hm
    exact (hc d hd).observation he
  have hunit : progress.unitIds[u]? = none := by
    cases h : progress.unitIds[u]? with
    | none => rfl
    | some o =>
      obtain ⟨d, hd, he⟩ := (hs.unitIds u).mp (BTreeMap.mem_iff.mpr ⟨o, h⟩)
      exact absurd (he.trans hu.symm) (hc d hd).unit
  have htarget : SameValue progress.sampleTargets[r.sampleId]? r.targetId := by
    intro x hx
    obtain ⟨d, hd, he, hx⟩ := (hs.sampleTargets _ x).mp hx
    exact (hc d hd).target he x hx
  have hgroup : SameValue progress.sampleGroups[r.sampleId]? r.groupId := by
    intro x hx
    obtain ⟨d, hd, he, hx⟩ := (hs.sampleGroups _ x).mp hx
    exact (hc d hd).group he x hx
  obtain ⟨targets, htargets⟩ := assignOnce_exists htarget
  obtain ⟨groups, hgroups⟩ := assignOnce_exists hgroup
  simp only [validateRecord, bind_ok, refuseIf_ok, vacant_ok, pure_ok]
  exact ⟨_, (), hr, (), hobs, u, hu, (), hunit, targets, htargets, groups, hgroups, rfl⟩

theorem validateRecord_loop (hs : Seen done progress)
    (h : loop validateRecord progress rest = .ok progress') :
    (∀ r ∈ rest, r.validate = .ok ()) ∧ rest.Pairwise Compatible ∧
      (∀ d ∈ done, ∀ r ∈ rest, Compatible d r) ∧ Seen (done ++ rest) progress' := by
  induction rest generalizing done progress with
  | nil =>
    cases h
    simpa using hs
  | cons r rest ih =>
    obtain ⟨p, hstep, hrest⟩ := loop_cons.mp h
    obtain ⟨hr, hc, hs'⟩ := validateRecord_ok hs hstep
    obtain ⟨hv, hp, hd, hseen⟩ := ih hs' hrest
    refine ⟨List.forall_mem_cons.mpr ⟨hr, hv⟩, List.pairwise_cons.mpr ⟨hd r (by simp), hp⟩, ?_, ?_⟩
    · exact fun d hm => List.forall_mem_cons.mpr ⟨hc d hm, hd d (by simp [hm])⟩
    · simpa using hseen

theorem validateRecord_loop_exists (hs : Seen done progress)
    (hv : ∀ r ∈ rest, r.validate = .ok ()) (hp : rest.Pairwise Compatible)
    (hd : ∀ d ∈ done, ∀ r ∈ rest, Compatible d r) :
    ∃ progress', loop validateRecord progress rest = .ok progress' := by
  induction rest generalizing done progress with
  | nil => exact ⟨progress, rfl⟩
  | cons r rest ih =>
    rw [List.forall_mem_cons] at hv
    rw [List.pairwise_cons] at hp
    obtain ⟨p, hstep⟩ := validateRecord_exists hs hv.1 fun d hm => hd d hm r (by simp)
    obtain ⟨-, -, hs'⟩ := validateRecord_ok hs hstep
    obtain ⟨progress', hrest⟩ := ih hs' hv.2 hp.2 (by
      intro d hm r' hr'
      rcases List.mem_append.mp hm with hm | hm
      · exact hd d hm r' (by simp [hr'])
      · rw [List.mem_singleton.mp hm]
        exact hp.1 r' hr')
    exact ⟨progress', loop_cons.mpr ⟨p, hstep, hrest⟩⟩

theorem validateComponent_ok {observationSamples : BTreeMap ObservationId SampleId} :
    validateComponent r observationSamples components c = .ok components' ↔
      (c ≠ r.observationId ∧ observationSamples[c]? = some r.sampleId) ∧ c ∉ components ∧
        components' = insert c components := by
  simp only [validateComponent, bind_ok, refuseIf_ok, need_ok, pure_ok, not_not]
  constructor
  · rintro ⟨_, hne, _, hnew, _, hs, _, rfl, rfl⟩
    exact ⟨⟨hne, hs⟩, hnew, rfl⟩
  · rintro ⟨⟨hne, hs⟩, hnew, rfl⟩
    exact ⟨(), hne, (), hnew, _, hs, (), rfl, rfl⟩

theorem validateComponent_loop {observationSamples : BTreeMap ObservationId SampleId} :
    (∃ c, loop (validateComponent r observationSamples) components l = .ok c) ↔
      (∀ c ∈ l, c ≠ r.observationId ∧ observationSamples[c]? = some r.sampleId) ∧
        (∀ c ∈ l, c ∉ components) ∧ l.Nodup := by
  induction l generalizing components with
  | nil => simp
  | cons c cs ih =>
    simp only [loop_cons, validateComponent_ok, List.forall_mem_cons, List.nodup_cons]
    constructor
    · rintro ⟨t, _, ⟨hc, hnew, rfl⟩, hrest⟩
      obtain ⟨hcs, hnews, hn⟩ := ih.mp ⟨t, hrest⟩
      simp only [Finset.mem_insert, not_or] at hnews
      exact ⟨⟨hc, hcs⟩, ⟨hnew, fun x hx => (hnews x hx).2⟩, fun hm => (hnews c hm).1 rfl, hn⟩
    · rintro ⟨⟨hc, hcs⟩, ⟨hnew, hnews⟩, hcm, hn⟩
      have hfresh : ∀ x ∈ cs, x ∉ insert c components := by
        intro x hx
        rw [Finset.mem_insert, not_or]
        exact ⟨fun he => hcm (he ▸ hx), hnews x hx⟩
      obtain ⟨t, hrest⟩ := ih.mpr ⟨hcs, hfresh, hn⟩
      exact ⟨t, _, ⟨hc, hnew, rfl⟩, hrest⟩

theorem validateComboRecord_ok (hs : Seen records progress) :
    validateComboRecord r progress.observationSamples = .ok u ↔
      (r.unitLevel = .combo → ComboValid records r) := by
  unfold validateComboRecord
  split
  · rename_i hl
    simp [hl]
  · rename_i hl
    rw [not_not] at hl
    simp only [bind_ok, refuseIf_ok, whenSome_ok, pure_ok, not_not, hl, forall_const]
    constructor
    · rintro ⟨_, hne, _, hd, _, ho, components, hloop, -⟩
      obtain ⟨hc, -, hn⟩ := validateComponent_loop.mp ⟨components, hloop⟩
      exact ⟨hne, hd, ho, hn, fun c hm => ⟨(hc c hm).1, (hs.observationSamples _ _).mp (hc c hm).2⟩⟩
    · intro h
      obtain ⟨components, hloop⟩ := validateComponent_loop.mpr ⟨fun c hm =>
        ⟨(h.components c hm).1, (hs.observationSamples _ _).mpr (h.components c hm).2⟩,
        fun c _ => Finset.notMem_empty c, h.components_nodup⟩
      exact ⟨(), h.components_ne, (), h.derived, (), h.origin, components, hloop, trivial⟩

theorem SampleRelationSet.validate_ok {self : SampleRelationSet} :
    self.validate = .ok u ↔ self.Valid := by
  simp only [validate, bind_ok, each_ok]
  constructor
  · rintro ⟨p, hloop, hcombos⟩
    obtain ⟨hv, hp, -, hs⟩ := validateRecord_loop Seen.start hloop
    exact ⟨hv, hp, fun r hr => (validateComboRecord_ok hs).mp (hcombos r hr)⟩
  · intro h
    obtain ⟨p, hloop⟩ := validateRecord_loop_exists Seen.start h.records_valid h.compatible (by simp)
    obtain ⟨-, -, -, hs⟩ := validateRecord_loop Seen.start hloop
    exact ⟨p, hloop, fun r hr => (validateComboRecord_ok hs).mpr (h.combos r hr)⟩

end DagMl

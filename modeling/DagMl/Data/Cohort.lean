import DagMl.Dsl.Fanout
import DagMl.Relation.Fingerprint

/-!
# Predict cohorts

A cohort is a set of relation records outside cross-validation, with the
identities and the fingerprints that are derived from them. An envelope accepts
an external test cohort when none of its identities occurs in the coordinator's
relations.
-/

namespace DagMl

open Checked JsonValue

inductive PredictCohortRole
  | externalTest
  | inference
  deriving DecidableEq

def PredictCohortRole.toValue : PredictCohortRole → JsonValue
  | .externalTest => .string "external_test"
  | .inference => .string "inference"

structure PredictCohort where
  role : PredictCohortRole
  physicalSampleIds : List SampleId
  originSampleIds : List SampleId
  targetNames : List String
  relationFingerprint : String
  relations : SampleRelationSet
  dataContentFingerprint : String
  targetContentFingerprint : Option String
  cohortFingerprint : String
  documents : relations.Documents

structure PredictCohortConstructionRequest where
  role : PredictCohortRole
  relations : SampleRelationSet
  targetNames : List String
  dataContentFingerprint : String
  targetContentFingerprint : Option String
  documents : relations.Documents

def SampleRelation.origin (self : SampleRelation) : SampleId :=
  self.originSampleId.getD self.sampleId

namespace SampleRelationSet

def physicalSamples (self : SampleRelationSet) : Finset SampleId :=
  (self.records.map (·.sampleId)).toFinset

def originSamples (self : SampleRelationSet) : Finset SampleId :=
  (self.records.map (·.origin)).toFinset

/-- Every sample and origin that the records name. -/
def identityClosure (self : SampleRelationSet) : Finset SampleId :=
  (self.records.flatMap fun record => record.sampleId :: record.originSampleId.toList).toFinset

end SampleRelationSet

def validateSortedUniqueSampleIds (label : String) (values : List SampleId) : Result Unit := do
  refuseIf (values = []) (.campaignValidation s!"{label} must not be empty")
  each (values.zip values.tail) fun (left, right) =>
    refuseIf (right ≤ left) (.campaignValidation s!"{label} must be strictly sorted and unique")

def validateNonEmptyList (label : String) (values : List String) : Result Unit := do
  refuseIf (values = []) (.campaignValidation s!"{label} must be a non-empty list")
  eachIdx values fun index value => refuseIf (isBlank value = true)
    (.campaignValidation s!"{label}[{index}] must be a non-empty string")

def validateUniqueStrings (label : String) (values : List String) : Result Unit := do
  let _ ← unique (fun value => DagMlError.campaignValidation
    s!"{label} contains duplicate value `{value}`") values

/-- The cohort of a request before its fingerprint. -/
def PredictCohortConstructionRequest.unsealed (self : PredictCohortConstructionRequest)
    (relationFingerprint : String) : PredictCohort where
  role := self.role
  physicalSampleIds := ascending self.relations.physicalSamples
  originSampleIds := ascending self.relations.originSamples
  targetNames := self.targetNames
  relationFingerprint := relationFingerprint
  relations := self.relations
  dataContentFingerprint := self.dataContentFingerprint
  targetContentFingerprint := self.targetContentFingerprint
  cohortFingerprint := ""
  documents := self.documents

namespace PredictCohort

/-- The checks of `validate_members` in front of the relations. -/
def validateLists (self : PredictCohort) : Result Unit := do
  validateSortedUniqueSampleIds "predict cohort physical_sample_ids" self.physicalSampleIds
  validateSortedUniqueSampleIds "predict cohort origin_sample_ids" self.originSampleIds
  validateNonEmptyList "predict cohort target_names" self.targetNames
  validateUniqueStrings "predict cohort target_names" self.targetNames
  validateFingerprint "predict cohort relation" self.relationFingerprint
  validateFingerprint "predict cohort data content" self.dataContentFingerprint
  whenSome self.targetContentFingerprint (validateFingerprint "predict cohort target content")
  refuseIf (self.role = .externalTest ∧ self.targetContentFingerprint.isNone) (.campaignValidation
    "external_test predict cohort requires target_content_fingerprint")
  refuseIf (self.role = .inference ∧ self.targetContentFingerprint.isSome) (.campaignValidation
    "inference predict cohort must not carry target_content_fingerprint")

variable (externals : Externals)

def validateMembers (self : PredictCohort) : Result Unit := do
  self.validateLists
  self.relations.validate
  let relationFingerprint ← self.relations.fingerprint externals
  refuseIf (self.relationFingerprint ≠ relationFingerprint) (.campaignValidation
    "predict cohort relation_fingerprint does not match relations")
  refuseIf (self.relations.physicalSamples ≠ self.physicalSampleIds.toFinset) (.campaignValidation
    "predict cohort physical_sample_ids do not exactly cover relation samples")
  refuseIf (self.relations.originSamples ≠ self.originSampleIds.toFinset) (.campaignValidation
    "predict cohort origin_sample_ids do not exactly cover relation origins")

/-- `PredictCohortFingerprintInput`. -/
def fingerprintInput (self : PredictCohort) : JsonValue :=
  record [
    ("role", some self.role.toValue),
    ("physical_sample_ids", some (idsValue self.physicalSampleIds)),
    ("origin_sample_ids", some (idsValue self.originSampleIds)),
    ("target_names", some (namesValue self.targetNames)),
    ("relation_fingerprint", some (.string self.relationFingerprint)),
    ("relations", some self.relations.toValue),
    ("data_content_fingerprint", some (.string self.dataContentFingerprint)),
    ("target_content_fingerprint", some (optionValue self.targetContentFingerprint))]

def fingerprint (self : PredictCohort) : Result String := do
  self.validateMembers externals
  pure (stableJsonFingerprint externals self.fingerprintInput)

def fromRelations (request : PredictCohortConstructionRequest) : Result PredictCohort := do
  request.relations.validate
  let relationFingerprint ← request.relations.fingerprint externals
  let cohort := request.unsealed relationFingerprint
  cohort.validateMembers externals
  let cohortFingerprint ← cohort.fingerprint externals
  pure { cohort with cohortFingerprint }

def validate (self : PredictCohort) : Result Unit := do
  self.validateMembers externals
  validateFingerprint "predict cohort" self.cohortFingerprint
  let fingerprint ← self.fingerprint externals
  refuseIf (self.cohortFingerprint ≠ fingerprint)
    (.campaignValidation "predict cohort fingerprint does not match canonical content")

def validateAgainstCvRelations (self : PredictCohort) (cvRelations : SampleRelationSet) :
    Result Unit := do
  self.validate externals
  cvRelations.validate
  if self.role = .inference then pure ()
  else each (self.physicalSampleIds ++ self.originSampleIds) fun sampleId =>
    refuseIf (sampleId ∈ cvRelations.identityClosure) (.campaignValidation
      s!"external_test predict cohort overlaps CV relation identity closure `{sampleId}`")

/-- What an envelope checks of its cohort. -/
def checkEnveloped (self : PredictCohort) (coordinatorRelations : Option SampleRelationSet) :
    Result Unit := do
  self.validate externals
  if self.role = .externalTest then do
    let cvRelations ← need coordinatorRelations (.campaignValidation
      "external_test predict cohort requires coordinator_relations to prove CV disjointness")
    self.validateAgainstCvRelations externals cvRelations
  else pure ()

end PredictCohort

def PredictCohortConstructionRequest.derive (externals : Externals)
    (self : PredictCohortConstructionRequest) : Result PredictCohort :=
  PredictCohort.fromRelations externals self

-- ---------------------------------------------------------------------------
-- Isolation
-- ---------------------------------------------------------------------------

/-- A record gives `origin` as the origin of `sample`. -/
def NamesOrigin (records : List SampleRelation) (sample origin : SampleId) : Prop :=
  ∃ record ∈ records, record.sampleId = sample ∧ record.originSampleId = some origin

/-- A chain of origin references, read in either direction. -/
def LinkedBy (records : List SampleRelation) : SampleId → SampleId → Prop :=
  Relation.EqvGen (NamesOrigin records)

theorem mem_of_linkedBy {records : List SampleRelation} {closed : Finset SampleId}
    (h : ∀ sample origin, NamesOrigin records sample origin → (sample ∈ closed ↔ origin ∈ closed))
    (hlinked : LinkedBy records a b) : a ∈ closed ↔ b ∈ closed := by
  induction hlinked with
  | rel sample origin hnames => exact h sample origin hnames
  | refl => exact Iff.rfl
  | symm _ _ _ ih => exact ih.symm
  | trans _ _ _ _ _ ih ih' => exact ih.trans ih'

/-- No sample of the cohort is linked to one of the cross-validation records. -/
def IsolatedFrom (cohort cvRelations : SampleRelationSet) : Prop :=
  ∀ sample ∈ cohort.physicalSamples, ∀ cvSample ∈ cvRelations.physicalSamples,
    ¬LinkedBy (cohort.records ++ cvRelations.records) sample cvSample

section

variable {relations cvRelations : SampleRelationSet}

theorem mem_identityClosure : s ∈ relations.identityClosure ↔
    ∃ record ∈ relations.records, record.sampleId = s ∨ record.originSampleId = some s := by
  simp [SampleRelationSet.identityClosure, eq_comm]

theorem identityClosure_eq :
    relations.identityClosure = relations.physicalSamples ∪ relations.originSamples := by
  ext s
  simp only [mem_identityClosure, SampleRelationSet.physicalSamples,
    SampleRelationSet.originSamples, Finset.mem_union, List.mem_toFinset, List.mem_map,
    ← exists_or, ← and_or_left]
  refine exists_congr fun record => and_congr_right fun _ => ?_
  cases horigin : record.originSampleId with
  | none => simp [SampleRelation.origin, horigin]
  | some origin => simp [SampleRelation.origin, horigin]

/-- Disjoint identities rule out every chain: no record leads out of its own side. -/
theorem isolatedFrom_of_disjoint
    (h : Disjoint relations.identityClosure cvRelations.identityClosure) :
    IsolatedFrom relations cvRelations := by
  intro sample hsample cvSample hcv hlinked
  have hclosed : sample ∈ relations.identityClosure ↔ cvSample ∈ relations.identityClosure := by
    refine mem_of_linkedBy (fun s o hnames => ?_) hlinked
    obtain ⟨record, hrecord, rfl, horigin⟩ := hnames
    rcases List.mem_append.mp hrecord with hrecord | hrecord
    · exact iff_of_true (mem_identityClosure.mpr ⟨record, hrecord, .inl rfl⟩)
        (mem_identityClosure.mpr ⟨record, hrecord, .inr horigin⟩)
    · exact iff_of_false
        (Finset.disjoint_right.mp h (mem_identityClosure.mpr ⟨record, hrecord, .inl rfl⟩))
        (Finset.disjoint_right.mp h (mem_identityClosure.mpr ⟨record, hrecord, .inr horigin⟩))
  have hmem : sample ∈ relations.identityClosure := by
    rw [identityClosure_eq]
    exact Finset.mem_union_left _ hsample
  have hcvMem : cvSample ∈ cvRelations.identityClosure := by
    rw [identityClosure_eq]
    exact Finset.mem_union_left _ hcv
  exact Finset.disjoint_left.mp h (hclosed.mp hmem) hcvMem

end

namespace PredictCohort

variable {externals : Externals} {cohort : PredictCohort}

/-- What a cohort derives from its relations, and they themselves. -/
structure Derived (externals : Externals) (cohort : PredictCohort) : Prop where
  lists : cohort.validateLists = .ok ()
  valid : cohort.relations.Valid
  fingerprint : cohort.relations.fingerprint externals = .ok cohort.relationFingerprint
  physical : cohort.relations.physicalSamples = cohort.physicalSampleIds.toFinset
  origins : cohort.relations.originSamples = cohort.originSampleIds.toFinset

theorem validateMembers_ok : cohort.validateMembers externals = .ok u ↔ cohort.Derived externals := by
  simp only [validateMembers, bind_ok, SampleRelationSet.validate_ok, refuseIf_ok, not_not]
  constructor
  · rintro ⟨_, hlists, _, hvalid, digest, hdigest, _, rfl, _, hphysical, horigins⟩
    exact ⟨hlists, hvalid, hdigest, hphysical, horigins⟩
  · intro h
    exact ⟨(), h.lists, (), h.valid, _, h.fingerprint, (), rfl, (), h.physical, h.origins⟩

theorem fingerprint_ok : cohort.fingerprint externals = .ok digest ↔
    cohort.Derived externals ∧ digest = stableJsonFingerprint externals cohort.fingerprintInput := by
  simp only [fingerprint, bind_ok, validateMembers_ok, pure_ok]
  constructor
  · rintro ⟨_, h, rfl⟩
    exact ⟨h, rfl⟩
  · rintro ⟨h, rfl⟩
    exact ⟨(), h, rfl⟩

theorem disjoint_of_checkEnveloped {coordinator : Option SampleRelationSet}
    (h : cohort.checkEnveloped externals coordinator = .ok u) (hrole : cohort.role = .externalTest) :
    ∃ cvRelations, coordinator = some cvRelations ∧
      Disjoint cohort.relations.identityClosure cvRelations.identityClosure := by
  simp only [checkEnveloped, hrole, if_true, bind_ok, need_ok, validate, validateMembers_ok] at h
  obtain ⟨_, ⟨_, hderived, -⟩, cvRelations, rfl, h⟩ := h
  simp only [validateAgainstCvRelations, hrole, reduceCtorEq, if_false, bind_ok, each_ok,
    refuseIf_ok] at h
  obtain ⟨_, -, _, -, hdisjoint⟩ := h
  refine ⟨cvRelations, rfl, Finset.disjoint_left.mpr fun s hs => hdisjoint s ?_⟩
  rw [identityClosure_eq, hderived.physical, hderived.origins, ← List.toFinset_append,
    List.mem_toFinset] at hs
  exact hs

end PredictCohort

/-- The external test cohort of an accepted envelope is isolated. -/
theorem ExternalDataPlanEnvelope.validate_isolated {externals : Externals}
    {envelope : ExternalDataPlanEnvelope PredictCohort}
    (h : envelope.validate (PredictCohort.checkEnveloped externals) = .ok u)
    (hcohort : envelope.predictCohort = some cohort) (hrole : cohort.role = .externalTest) :
    ∃ cvRelations, envelope.coordinatorRelations = some cvRelations ∧
      IsolatedFrom cohort.relations cvRelations := by
  simp only [ExternalDataPlanEnvelope.validate, bind_ok, whenSome_ok] at h
  obtain ⟨-, -, _, -, _, -, _, -, _, -, _, -, _, -, _, -, _, -, hcheck⟩ := h
  obtain ⟨cvRelations, hcv, hdisjoint⟩ :=
    PredictCohort.disjoint_of_checkEnveloped (hcheck cohort hcohort) hrole
  exact ⟨cvRelations, hcv, isolatedFrom_of_disjoint hdisjoint⟩

end DagMl

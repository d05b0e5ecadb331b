import DagMl.Data.Cohort
import DagMl.Runtime.Seeds

/-!
# Identity of a predict cohort

The identities and the relation fingerprint of a cohort do not depend on the
order of its records. The cohort fingerprint does: its input holds the records
as they were given.
-/

namespace DagMl

open Checked JsonValue

/-- One request with its records in another order. -/
structure PredictCohortConstructionRequest.Reorders (a b : PredictCohortConstructionRequest) :
    Prop where
  role : a.role = b.role
  records : a.relations.records.Perm b.relations.records
  targetNames : a.targetNames = b.targetNames
  dataContent : a.dataContentFingerprint = b.dataContentFingerprint
  targetContent : a.targetContentFingerprint = b.targetContentFingerprint

namespace PredictCohort

structure SameIdentities (a b : PredictCohort) : Prop where
  physical : a.physicalSampleIds = b.physicalSampleIds
  origins : a.originSampleIds = b.originSampleIds
  relations : a.relationFingerprint = b.relationFingerprint

/-- The same role, targets and contents, and the same records in the same order. -/
structure SameContent (a b : PredictCohort) : Prop where
  role : a.role = b.role
  targetNames : a.targetNames = b.targetNames
  records : List.Forall₂ SampleRelation.SameAs a.relations.records b.relations.records
  dataContent : a.dataContentFingerprint = b.dataContentFingerprint
  targetContent : a.targetContentFingerprint = b.targetContentFingerprint

variable (externals : Externals)

/-- The bytes that the cohort fingerprint is the digest of. -/
def preimage (self : PredictCohort) : List UInt8 :=
  utf8Bytes (String.ofList (render externals.floats self.fingerprintInput))

/-- No other bytes have the digest of the cohort. -/
def Unforged (self : PredictCohort) : Prop :=
  ∀ bytes, externals.sha256 bytes = externals.sha256 (self.preimage externals) →
    bytes = self.preimage externals

/-- Any order of the records gives the same identities and the same fingerprint. -/
def OrderBlind (request : PredictCohortConstructionRequest) (cohort : PredictCohort) : Prop :=
  ∀ request', request.Reorders request' →
      ∃ cohort', request'.derive externals = .ok cohort' ∧
    SameIdentities cohort cohort' ∧ cohort'.cohortFingerprint = cohort.cohortFingerprint

/-- A cohort with the same fingerprint has the same content. -/
def Telling (cohort : PredictCohort) : Prop :=
  ∀ (request' : PredictCohortConstructionRequest) cohort', request'.derive externals = .ok cohort' →
    cohort'.cohortFingerprint = cohort.cohortFingerprint → SameContent cohort' cohort

structure Identified (request : PredictCohortConstructionRequest) (cohort : PredictCohort) :
    Prop where
  orderBlind : OrderBlind externals request cohort
  telling : Telling externals cohort

end PredictCohort

open PredictCohort

section

variable {externals : Externals} {request request' : PredictCohortConstructionRequest}
  {cohort cohort' : PredictCohort}

theorem derive_ok : request.derive externals = .ok cohort ↔ ∃ digest,
    (request.unsealed digest).Derived externals ∧ cohort = { request.unsealed digest with
      cohortFingerprint := stableJsonFingerprint externals
        (request.unsealed digest).fingerprintInput } := by
  simp only [PredictCohortConstructionRequest.derive, fromRelations, bind_ok, validateMembers_ok,
    fingerprint_ok, pure_ok, SampleRelationSet.validate_ok]
  constructor
  · rintro ⟨_, -, digest, -, _, hderived, _, ⟨-, rfl⟩, rfl⟩
    exact ⟨digest, hderived, rfl⟩
  · rintro ⟨digest, hderived, rfl⟩
    exact ⟨(), hderived.valid, digest, hderived.fingerprint, (), hderived, _, ⟨hderived, rfl⟩, rfl⟩

-- ---------------------------------------------------------------------------
-- Order
-- ---------------------------------------------------------------------------

theorem PredictCohortConstructionRequest.Reorders.samples (h : request.Reorders request') :
    request.relations.physicalSamples = request'.relations.physicalSamples ∧
      request.relations.originSamples = request'.relations.originSamples :=
  ⟨List.toFinset_eq_of_perm _ _ (h.records.map _), List.toFinset_eq_of_perm _ _ (h.records.map _)⟩

theorem PredictCohortConstructionRequest.Reorders.derived (h : request.Reorders request')
    (hderived : (request.unsealed digest).Derived externals) :
    (request'.unsealed digest).Derived externals := by
  obtain ⟨hphysical, horigins⟩ := h.samples
  have hsame : request'.unsealed digest = { request.unsealed digest with
      relations := request'.relations, documents := request'.documents } := by
    simp only [PredictCohortConstructionRequest.unsealed, h.role, h.targetNames, h.dataContent,
      h.targetContent, hphysical, horigins]
  have hlists : (request'.unsealed digest).validateLists = (request.unsealed digest).validateLists := by
    rw [hsame]
    rfl
  exact {
    lists := hlists.trans hderived.lists
    valid := hderived.valid.perm h.records
    fingerprint := SampleRelationSet.fingerprint_perm h.records hderived.fingerprint
    physical := by simp [PredictCohortConstructionRequest.unsealed]
    origins := by simp [PredictCohortConstructionRequest.unsealed] }

/-- Reordered records give the same identities. -/
theorem derive_reordered (h : request.derive externals = .ok cohort)
    (hreorders : request.Reorders request') :
    ∃ cohort', request'.derive externals = .ok cohort' ∧ SameIdentities cohort cohort' := by
  obtain ⟨digest, hderived, rfl⟩ := derive_ok.mp h
  obtain ⟨hphysical, horigins⟩ := hreorders.samples
  refine ⟨_, derive_ok.mpr ⟨digest, hreorders.derived hderived, rfl⟩, ?_, ?_, rfl⟩
  · exact congrArg ascending hphysical
  · exact congrArg ascending horigins

-- ---------------------------------------------------------------------------
-- Content
-- ---------------------------------------------------------------------------

theorem writable_of_valid {relations : SampleRelationSet} (hvalid : relations.Valid)
    (hdocuments : relations.Documents) {r : SampleRelation} (hr : r ∈ relations.records) :
    r.Writable := by
  refine ⟨fun w hw => ?_, hdocuments r hr⟩
  have hrecord := hvalid.records_valid r hr
  simp only [SampleRelation.validate, bind_ok, whenSome_ok, refuseIf_ok] at hrecord
  obtain ⟨_, -, _, -, _, -, _, -, _, -, _, hweight, -⟩ := hrecord
  have hfinite := hweight w hw
  simp only [not_or] at hfinite
  simpa using hfinite.1

theorem same_role {a b : PredictCohortRole} : Same a.toValue b.toValue ↔ a = b := by
  cases a <;> cases b <;> simp [PredictCohortRole.toValue, Same]

theorem relationsValue_valid {relations : SampleRelationSet}
    (h : ∀ r ∈ relations.records, r.Writable) : relations.toValue.Valid := by
  refine record_valid (by simp) ?_
  simp only [List.forall_mem_cons, List.not_mem_nil, false_imp_iff, implies_true, and_true,
    Option.mem_some_iff, forall_eq']
  rw [JsonValue.Valid, validItems_iff, List.forall_mem_map]
  exact fun r hr => SampleRelation.toValue_valid (h r hr)

theorem same_relationsValue {a b : SampleRelationSet} (ha : ∀ r ∈ a.records, r.Writable)
    (hb : ∀ r ∈ b.records, r.Writable) (h : Same a.toValue b.toValue) :
    List.Forall₂ SampleRelation.SameAs a.records b.records := by
  rw [SampleRelationSet.toValue, SampleRelationSet.toValue,
    same_record_iff (by simp) (by simp)] at h
  simp only [List.forall₂_cons, List.forall₂_nil_left_iff, Option.rel_some_some, and_true, Same,
    sameItems_iff, List.forall₂_map_left_iff, List.forall₂_map_right_iff] at h
  rw [List.forall₂_iff_get] at h ⊢
  refine ⟨h.1, fun i hi hi' => ?_⟩
  exact SampleRelation.sameAs_of_same (ha _ (List.get_mem _ _)) (hb _ (List.get_mem _ _)) (h.2 i hi hi')

theorem PredictCohort.Derived.input_valid (h : cohort.Derived externals) :
    cohort.fingerprintInput.Valid := by
  have hrelations : cohort.relations.toValue.Valid :=
    relationsValue_valid fun r hr => writable_of_valid h.valid cohort.documents hr
  refine record_valid (by simp) ?_
  have hids := idsValue_valid
  have hnames := SampleRelation.namesValue_valid
  have hoption := SampleRelation.optionValue_valid
  have hrole : cohort.role.toValue.Valid := by cases cohort.role <;> trivial
  simp only [List.forall_mem_cons, List.not_mem_nil, false_imp_iff, implies_true, and_true,
    Option.mem_some_iff, forall_eq']
  exact ⟨hrole, hids _, hids _, hnames _, trivial, hrelations, trivial, hoption _⟩

/-- Cohorts written alike have the same content. -/
theorem sameContent_of_input (h : cohort.Derived externals) (h' : cohort'.Derived externals)
    (hinput : cohort.fingerprintInput = cohort'.fingerprintInput) : SameContent cohort cohort' := by
  have hsame : Same cohort.fingerprintInput cohort'.fingerprintInput :=
    (sortAllObjects_eq_iff h.input_valid h'.input_valid).mp (by rw [hinput])
  rw [fingerprintInput, fingerprintInput, same_record_iff (by simp) (by simp)] at hsame
  simp only [List.forall₂_cons, List.forall₂_nil_left_iff, Option.rel_some_some, and_true, same_role,
    same_namesValue, same_optionValue, Same, string.injEq] at hsame
  obtain ⟨hrole, -, -, hnames, -, hrelations, hdata, htarget⟩ := hsame
  refine ⟨hrole, hnames, same_relationsValue ?_ ?_ hrelations, hdata.symm, htarget⟩
  · exact fun r hr => writable_of_valid h.valid cohort.documents hr
  · exact fun r hr => writable_of_valid h'.valid cohort'.documents hr

/-- The fingerprint of a cohort that is not forged tells its content. -/
theorem telling_of_unforged (h : request.derive externals = .ok cohort)
    (hunforged : Unforged externals cohort) : Telling externals cohort := by
  intro request' cohort' h' hdigest
  obtain ⟨digest, hderived, rfl⟩ := derive_ok.mp h
  obtain ⟨digest', hderived', rfl⟩ := derive_ok.mp h'
  have hbytes := hunforged _ (Vector.toList_inj.mp (toHex_injective hdigest))
  have htext := String.ofList_inj.mp (utf8Bytes_injective hbytes)
  have hinput := render_injective hderived'.input_valid hderived.input_valid htext
  obtain ⟨hrole, hnames, hrecords, hdata, htarget⟩ := sameContent_of_input hderived' hderived hinput
  exact ⟨hrole, hnames, hrecords, hdata, htarget⟩

theorem PredictCohortConstructionRequest.Reorders.eq_of_records (h : request.Reorders request')
    (hrecords : request.relations.records = request'.relations.records) : request = request' := by
  obtain ⟨hrole, -, hnames, hdata, htarget⟩ := h
  obtain ⟨role, ⟨records⟩, names, data, target, documents⟩ := request
  obtain ⟨role', ⟨records'⟩, names', data', target', documents'⟩ := request'
  cases hrole
  cases hrecords
  cases hnames
  cases hdata
  cases htarget
  rfl

/-- The request with its first two records exchanged. -/
def PredictCohortConstructionRequest.swapped (request : PredictCohortConstructionRequest)
    (h : request.relations.records = a :: b :: rest) : PredictCohortConstructionRequest :=
  have hperm : request.relations.records.Perm (b :: a :: rest) := h ▸ List.Perm.swap _ _ _
  { request with relations := ⟨b :: a :: rest⟩, documents := request.documents.perm hperm }

/-- Two records exchanged give another fingerprint. -/
theorem not_orderBlind (h : request.derive externals = .ok cohort)
    (hunforged : Unforged externals cohort) (hrecords : request.relations.records = a :: b :: rest) :
    ¬OrderBlind externals request cohort := by
  intro hfree
  have hreorders : request.Reorders (request.swapped hrecords) :=
    ⟨rfl, hrecords ▸ List.Perm.swap _ _ _, rfl, rfl, rfl⟩
  obtain ⟨cohort', hderive, -, hdigest⟩ := hfree _ hreorders
  have hcontent := (telling_of_unforged h hunforged _ cohort' hderive hdigest).records
  obtain ⟨_, hderived, rfl⟩ := derive_ok.mp h
  obtain ⟨_, -, rfl⟩ := derive_ok.mp hderive
  have hsame : b.SameAs a := by
    have hlists : List.Forall₂ SampleRelation.SameAs (b :: a :: rest) request.relations.records :=
      hcontent
    rw [hrecords] at hlists
    exact (List.forall₂_cons.mp hlists).1
  have hdistinct := hderived.valid.compatible
  rw [PredictCohortConstructionRequest.unsealed, hrecords, List.pairwise_cons] at hdistinct
  refine (hdistinct.1 b List.mem_cons_self).observation ?_
  rw [hsame.fields]

/-- Only a set of one record leaves the order no choice. -/
theorem orderBlind_iff_single (h : request.derive externals = .ok cohort)
    (hunforged : Unforged externals cohort) :
    OrderBlind externals request cohort ↔ request.relations.records.length ≤ 1 := by
  constructor
  · intro hfree
    rcases hrecords : request.relations.records with _ | ⟨a, _ | ⟨b, rest⟩⟩
    · simp
    · simp
    · exact absurd hfree (not_orderBlind h hunforged hrecords)
  · intro hshort request' hreorders
    have hrecords : request.relations.records = request'.relations.records := by
      have hperm := hreorders.records
      rcases hlist : request.relations.records with _ | ⟨a, _ | ⟨b, rest⟩⟩
      · rw [hlist] at hperm
        exact hperm.nil_eq
      · rw [hlist] at hperm
        exact (List.singleton_perm.mp hperm)
      · simp [hlist] at hshort
    rw [← hreorders.eq_of_records hrecords]
    exact ⟨cohort, h, ⟨rfl, rfl, rfl⟩, rfl⟩

theorem identified_iff_single (h : request.derive externals = .ok cohort)
    (hunforged : Unforged externals cohort) :
    Identified externals request cohort ↔ request.relations.records.length ≤ 1 := by
  rw [← orderBlind_iff_single h hunforged]
  exact ⟨Identified.orderBlind, fun hblind => ⟨hblind, telling_of_unforged h hunforged⟩⟩

end

-- ---------------------------------------------------------------------------
-- A digest without a second preimage
-- ---------------------------------------------------------------------------

/-- The digest tells `bytes` from all others. -/
def Externals.marking (self : Externals) (bytes : List UInt8) : Externals :=
  { self with sha256 := fun other => if other = bytes then .replicate 32 1 else .replicate 32 0 }

theorem stableJsonFingerprint_marking {items : List JsonValue} {cohort : PredictCohort} :
    stableJsonFingerprint (plainExternals.marking (cohort.preimage plainExternals)) (.array items) =
      stableJsonFingerprint plainExternals (.array items) := by
  have hne : utf8Bytes (String.ofList (render plainExternals.floats (.array items))) ≠
      cohort.preimage plainExternals := by
    intro h
    have htext := String.ofList_inj.mp (utf8Bytes_injective h)
    simp [fingerprintInput, record, render] at htext
  unfold stableJsonFingerprint Externals.marking
  dsimp only
  rw [if_neg hne]
  rfl

theorem exists_unforged {request : PredictCohortConstructionRequest}
    (h : request.derive plainExternals = .ok cohort) : ∃ externals cohort',
      request.derive externals = .ok cohort' ∧ Unforged externals cohort' := by
  obtain ⟨digest, hderived, rfl⟩ := derive_ok.mp h
  refine ⟨plainExternals.marking ((request.unsealed digest).preimage plainExternals), _,
    derive_ok.mpr ⟨digest, { hderived with fingerprint := ?_ }, rfl⟩, ?_⟩
  · have hfingerprint := hderived.fingerprint
    simp only [SampleRelationSet.fingerprint, bind_ok, pure_ok] at hfingerprint ⊢
    simpa only [stableJsonFingerprint_marking] using hfingerprint
  · intro bytes hbytes
    by_contra hne
    have hdigests : Vector.replicate 32 (0 : UInt8) = Vector.replicate 32 1 := by
      calc Vector.replicate 32 (0 : UInt8)
        _ = (plainExternals.marking ((request.unsealed digest).preimage plainExternals)).sha256 bytes :=
          (if_neg hne).symm
        _ = _ := hbytes
        _ = Vector.replicate 32 1 := if_pos rfl
    exact absurd hdigests (by decide)

/-- A cohort request for some of the samples. -/
def cohortRequest (records : List SampleRelation)
    (documents : (SampleRelationSet.mk records).Documents) : PredictCohortConstructionRequest where
  role := .externalTest
  relations := ⟨records⟩
  targetNames := ["cohort:target"]
  dataContentFingerprint := String.ofList (.replicate 64 '0')
  targetContentFingerprint := some (String.ofList (.replicate 64 '1'))
  documents := documents

def cohortRecord : SampleRelation := .new ⟨"obs:cohort:1", by decide⟩ ⟨"cohort:1", by decide⟩

def cohortSibling : SampleRelation := .new ⟨"obs:cohort:2", by decide⟩ ⟨"cohort:2", by decide⟩

def cohortCvRecord : SampleRelation := .new ⟨"obs:cohort:3", by decide⟩ ⟨"cohort:3", by decide⟩

theorem documents_new {records : List SampleRelation} (h : ∀ r ∈ records, r.metadata = ∅) :
    (SampleRelationSet.mk records).Documents := by
  intro r hr key value hvalue
  rw [h r hr] at hvalue
  simp at hvalue

def loneRequest : PredictCohortConstructionRequest :=
  cohortRequest [cohortRecord] (documents_new (by simp [cohortRecord, SampleRelation.new]))

def pairRequest : PredictCohortConstructionRequest :=
  cohortRequest [cohortRecord, cohortSibling]
    (documents_new (by simp [cohortRecord, cohortSibling, SampleRelation.new]))

def loneCohort : PredictCohort := valueOf (loneRequest.derive plainExternals) (by decide +kernel)

def loneEnvelope : ExternalDataPlanEnvelope PredictCohort where
  schemaVersion := 2
  schemaFingerprint := String.ofList (.replicate 64 '2')
  planFingerprint := String.ofList (.replicate 64 '3')
  coordinatorRelations := some ⟨[cohortCvRecord]⟩
  predictCohort := some loneCohort
  metadataValid := by
    rintro relations hrelations
    cases hrelations
    exact documents_new (by simp [cohortCvRecord, SampleRelation.new])

-- ---------------------------------------------------------------------------
-- Cohorts
-- ---------------------------------------------------------------------------

/-- External test cohorts are isolated from cross-validation, and the identities of
a cohort do not depend on the order of its records; its fingerprint does, as soon as
there are two. -/
theorem predictCohorts_isolated_identified_iff (externals : Externals) :
    (∀ (envelope : ExternalDataPlanEnvelope PredictCohort) (cohort : PredictCohort),
      envelope.validate (checkEnveloped externals) = .ok () →
      envelope.predictCohort = some cohort → cohort.role = .externalTest →
      ∃ cvRelations, envelope.coordinatorRelations = some cvRelations ∧
        IsolatedFrom cohort.relations cvRelations) ∧
    (∀ (request request' : PredictCohortConstructionRequest) cohort,
      request.derive externals = .ok cohort → request.Reorders request' →
      ∃ cohort', request'.derive externals = .ok cohort' ∧ SameIdentities cohort cohort') ∧
    ∀ request cohort, request.derive externals = .ok cohort → Unforged externals cohort →
      (Identified externals request cohort ↔ request.relations.records.length ≤ 1) :=
  ⟨fun _ _ h hcohort hrole => ExternalDataPlanEnvelope.validate_isolated h hcohort hrole,
    fun _ _ _ h hreorders => derive_reordered h hreorders,
    fun _ _ h hunforged => identified_iff_single h hunforged⟩

theorem loneRequest_derived : loneRequest.derive plainExternals = .ok loneCohort := eq_ok_valueOf _

/-- One record, and the envelope of its cohort. -/
theorem predictCohorts_isolated_identified_lone :
    (∃ cvRelations, loneEnvelope.coordinatorRelations = some cvRelations ∧
      IsolatedFrom loneCohort.relations cvRelations) ∧
    (∃ cohort', loneRequest.derive plainExternals = .ok cohort' ∧
      SameIdentities loneCohort cohort') ∧
    ∃ externals cohort, loneRequest.derive externals = .ok cohort ∧ Unforged externals cohort ∧
      Identified externals loneRequest cohort := by
  have haccepted : (loneEnvelope.validate (checkEnveloped plainExternals)).isOk = true := by
    decide +kernel
  obtain ⟨hisolated, hreordered, -⟩ := predictCohorts_isolated_identified_iff plainExternals
  obtain ⟨externals, cohort, hcohort, hunforged⟩ := exists_unforged loneRequest_derived
  have hiff := (predictCohorts_isolated_identified_iff externals).2.2 loneRequest cohort hcohort hunforged
  exact ⟨hisolated _ _ (eq_ok_valueOf haccepted) rfl (by decide +kernel),
    hreordered _ _ _ loneRequest_derived ⟨rfl, .refl _, rfl, rfl, rfl⟩,
    externals, cohort, hcohort, hunforged, hiff.mpr le_rfl⟩

/-- The cohort of two records has another fingerprint for each order. -/
theorem pairRequest_not_identified :
    ∃ externals cohort, pairRequest.derive externals = .ok cohort ∧ Unforged externals cohort ∧
      ¬Identified externals pairRequest cohort := by
  have hderived : (pairRequest.derive plainExternals).isOk = true := by decide +kernel
  obtain ⟨externals, cohort, hcohort, hunforged⟩ := exists_unforged (eq_ok_valueOf hderived)
  refine ⟨externals, cohort, hcohort, hunforged, fun h => ?_⟩
  exact absurd ((identified_iff_single hcohort hunforged).mp h) (by decide)

end DagMl

import DagMl.Bundle.Prediction
import DagMl.Fold.Fingerprint
import DagMl.Relation.Basic

/-!
# Relation fingerprints

A record is written with its fields in their own order, so its bytes give the
record back. The fingerprint of a set sorts the records by a key that validation
makes unique.
-/

namespace DagMl

open Checked Keyed JsonValue

-- ---------------------------------------------------------------------------
-- Serialization
-- ---------------------------------------------------------------------------

def EntityUnitLevel.toValue : EntityUnitLevel → JsonValue
  | .physicalSample => .string "physical_sample"
  | .sourceSample => .string "source_sample"
  | .observation => .string "observation"
  | .combo => .string "combo"

namespace SampleRelation

def fields (self : SampleRelation) : List (String × Option JsonValue) := [
  ("unit_level", some self.unitLevel.toValue),
  ("unit_id", some (optionValue self.unitId)),
  ("observation_id", some (.string self.observationId.value)),
  ("sample_id", some (.string self.sampleId.value)),
  ("source_id", some (optionValue self.sourceId)),
  ("rep_id", some (optionValue self.repId)),
  ("target_id", some (optionValue (self.targetId.map Id.value))),
  ("group_id", some (optionValue (self.groupId.map Id.value))),
  ("origin_sample_id", some (optionValue (self.originSampleId.map Id.value))),
  ("derived_unit_id", some (optionValue self.derivedUnitId)),
  ("component_observation_ids", some (namesValue (self.componentObservationIds.map Id.value))),
  ("sample_influence_weight", some (self.sampleInfluenceWeight.elim .null floatValue)),
  ("quality_flag", some (optionValue self.qualityFlag)),
  ("is_augmented", some (.bool self.isAugmented)),
  ("excluded", if self.excluded then some (.bool true) else none),
  ("metadata",
    if self.metadata.isEmpty then none else some (mapValue id sortAllObjects self.metadata)),
  ("tags", if self.tags = [] then none else some (namesValue self.tags))]

def toValue (self : SampleRelation) : JsonValue := record self.fields

end SampleRelation

/-- A record under its effective unit id. -/
structure CanonicalRelationRecord extends SampleRelation where
  effectiveUnit : String

def CanonicalRelationRecord.toValue (self : CanonicalRelationRecord) : JsonValue :=
  record (("effective_unit_id", some (.string self.effectiveUnit)) :: self.toSampleRelation.fields)

def CanonicalRelationRecord.sortKey (self : CanonicalRelationRecord) :
    String ×ₗ ObservationId ×ₗ SampleId :=
  toLex (self.effectiveUnit, toLex (self.observationId, self.sampleId))

namespace SampleRelationSet

def toValue (self : SampleRelationSet) : JsonValue :=
  record [("records", some (.array (self.records.map SampleRelation.toValue)))]

def canonical (self : SampleRelationSet) : Result (List CanonicalRelationRecord) :=
  collect self.records fun record => do
    let effectiveUnit ← record.effectiveUnitId
    pure { record with effectiveUnit }

def fingerprint (externals : Externals) (self : SampleRelationSet) : Result String := do
  self.validate
  let canonical ← self.canonical
  let sorted := sortBy CanonicalRelationRecord.sortKey canonical
  pure (stableJsonFingerprint externals (.array (sorted.map CanonicalRelationRecord.toValue)))

/-- What the metadata of the records holds the JSON library can build. -/
def Documents (self : SampleRelationSet) : Prop :=
  ∀ record ∈ self.records, ∀ (key : String) value, record.metadata[key]? = some value → value.Valid

end SampleRelationSet

-- ---------------------------------------------------------------------------
-- Order
-- ---------------------------------------------------------------------------

namespace SampleRelationSet

variable {relations relations' : SampleRelationSet} {written : List CanonicalRelationRecord}

theorem Documents.perm (h : relations.Documents) (hp : relations.records.Perm relations'.records) :
    relations'.Documents :=
  fun record hrecord => h record (hp.mem_iff.mpr hrecord)

theorem canonical_ok : relations.canonical = .ok written ↔
    List.Forall₂ (fun record line =>
      record.effectiveUnitId = .ok line.effectiveUnit ∧ line.toSampleRelation = record)
      relations.records written := by
  simp only [SampleRelationSet.canonical, collect_ok, bind_ok, pure_ok]
  refine ⟨fun h => h.imp ?_, fun h => h.imp ?_⟩
  · rintro record line ⟨unit, hunit, rfl⟩
    exact ⟨hunit, rfl⟩
  · rintro record line ⟨hunit, rfl⟩
    exact ⟨_, hunit, rfl⟩

theorem Valid.nodup_sortKeys (h : relations.Valid) (hc : relations.canonical = .ok written) :
    (written.map CanonicalRelationRecord.sortKey).Nodup := by
  have hobservations : written.map (·.observationId) = relations.records.map (·.observationId) := by
    rw [← List.forall₂_eq_eq_eq, List.forall₂_map_left_iff, List.forall₂_map_right_iff]
    exact (canonical_ok.mp hc).flip.imp fun line record hline => congrArg (·.observationId) hline.2
  have hnodup : (written.map (·.observationId)).Nodup := by
    rw [hobservations, List.Nodup, List.pairwise_map]
    exact h.compatible.imp Compatible.observation
  rw [List.Nodup, List.pairwise_map] at hnodup ⊢
  refine hnodup.imp fun hne hkey => hne ?_
  exact congrArg (fun key => (ofLex (ofLex key).2).1) hkey

/-- The records can be given in any order. -/
theorem fingerprint_perm {externals : Externals} (hp : relations.records.Perm relations'.records)
    (h : relations.fingerprint externals = .ok digest) :
    relations'.fingerprint externals = .ok digest := by
  simp only [fingerprint, bind_ok, pure_ok, validate_ok] at h ⊢
  obtain ⟨_, hvalid, written, hwritten, rfl⟩ := h
  obtain ⟨written', hwritten', hperm⟩ :=
    List.perm_comp_forall₂ hp.symm (canonical_ok.mp hwritten)
  refine ⟨(), hvalid.perm hp, written', canonical_ok.mpr hwritten', ?_⟩
  rw [sortBy_eq_of_perm (hvalid.nodup_sortKeys hwritten) hperm.symm]

end SampleRelationSet

-- ---------------------------------------------------------------------------
-- A record from its value
-- ---------------------------------------------------------------------------

/-- Two records with the same fields, their metadata compared as values. -/
structure SampleRelation.SameAs (a b : SampleRelation) : Prop where
  fields : a = { b with metadata := a.metadata }
  metadata : ∀ key : String, Option.Rel Same a.metadata[key]? b.metadata[key]?

/-- What a record must hold to be written faithfully. -/
structure SampleRelation.Writable (r : SampleRelation) : Prop where
  weight : ∀ w ∈ r.sampleInfluenceWeight, w.isFinite = true
  metadata : ∀ (key : String) value, r.metadata[key]? = some value → value.Valid

theorem same_optionValue {a b : Option String} :
    Same (optionValue a) (optionValue b) ↔ a = b := by
  cases a <;> cases b <;> simp [optionValue, Same, eq_comm]

theorem same_namesValue {names names' : List String} :
    Same (namesValue names) (namesValue names') ↔ names = names' := by
  rw [namesValue, namesValue, Same, sameItems_iff, List.forall₂_map_left_iff,
    List.forall₂_map_right_iff]
  simp only [Same, string.injEq]
  constructor
  · intro h
    rw [← List.forall₂_eq_eq_eq]
    exact h.imp fun _ _ => Eq.symm
  · rintro rfl
    exact List.forall₂_same.mpr fun _ _ => rfl

theorem same_unitLevel {a b : EntityUnitLevel} : Same a.toValue b.toValue ↔ a = b := by
  cases a <;> cases b <;> simp [EntityUnitLevel.toValue, Same]

theorem same_weight {a b : Option Binary64} (ha : ∀ w ∈ a, w.isFinite = true)
    (hb : ∀ w ∈ b, w.isFinite = true) :
    Same (a.elim .null floatValue) (b.elim .null floatValue) ↔ a = b := by
  cases a with
  | none =>
    cases b with
    | none => simp [Same]
    | some w => simp [Same, floatValue, hb w rfl]
  | some v =>
    cases b with
    | none => simp [Same, floatValue, ha v rfl]
    | some w => simp [Same, floatValue, ha v rfl, hb w rfl, eq_comm]

theorem same_excluded {a b : Bool} : Option.Rel Same (if a then some (.bool true) else none)
    (if b then some (.bool true) else none) ↔ a = b := by
  cases a <;> cases b <;> simp [Same]

theorem same_tags {a b : List String} : Option.Rel Same (if a = [] then none else some (namesValue a))
    (if b = [] then none else some (namesValue b)) ↔ a = b := by
  refine Iff.trans ?_ same_namesValue
  apply rel_skip
  · rintro rfl rfl
    exact same_namesValue.mpr rfl
  · intro h
    rw [same_namesValue.mp h]

theorem same_sortAllObjects {v w : JsonValue} (hv : v.Valid) (hw : w.Valid) :
    Same v.sortAllObjects w.sortAllObjects ↔ Same v w := by
  rw [← sortAllObjects_eq_iff (sortAllObjects_valid hv) (sortAllObjects_valid hw),
    sortAllObjects_sortAllObjects, sortAllObjects_sortAllObjects, sortAllObjects_eq_iff hv hw]

theorem same_metadata {m m' : BTreeMap String JsonValue}
    (hm : ∀ (key : String) value, m[key]? = some value → value.Valid)
    (hm' : ∀ (key : String) value, m'[key]? = some value → value.Valid) :
    Option.Rel Same (if m.isEmpty then none else some (mapValue id sortAllObjects m))
        (if m'.isEmpty then none else some (mapValue id sortAllObjects m')) ↔
      ∀ key : String, Option.Rel Same m[key]? m'[key]? := by
  rw [rel_skip_empty Function.injective_id]
  refine forall_congr' fun key => ?_
  cases hv : m[key]? with
  | none => cases m'[key]? <;> simp
  | some v =>
    cases hw : m'[key]? with
    | none => simp
    | some w => simp [same_sortAllObjects (hm key v hv) (hm' key w hw)]

theorem map_value_inj {kind : IdKind} {a b : Option (Id kind)} :
    a.map Id.value = b.map Id.value ↔ a = b :=
  (Option.map_injective Id.value_injective).eq_iff

theorem map_values_inj {kind : IdKind} {a b : List (Id kind)} :
    a.map Id.value = b.map Id.value ↔ a = b :=
  (List.map_injective_iff.mpr Id.value_injective).eq_iff

namespace SampleRelation

theorem sameAs_of_same {a b : SampleRelation} (ha : a.Writable) (hb : b.Writable)
    (h : Same a.toValue b.toValue) : a.SameAs b := by
  rw [toValue, toValue, same_record_iff (by simp [fields]) (by simp [fields])] at h
  simp only [SampleRelation.fields, List.forall₂_cons, List.forall₂_nil_left_iff, Option.rel_some_some,
    and_true, same_unitLevel, same_optionValue, same_namesValue, same_excluded, same_tags,
    same_weight ha.weight hb.weight, same_metadata ha.metadata hb.metadata, Same, string.injEq,
    bool.injEq, Id.value_inj, map_value_inj, map_values_inj] at h
  cases a
  cases b
  dsimp only at h
  obtain ⟨rfl, rfl, rfl, rfl, rfl, rfl, rfl, rfl, rfl, rfl, rfl, rfl, rfl, rfl, rfl, hmetadata, rfl⟩ := h
  exact ⟨rfl, hmetadata⟩

theorem optionValue_valid (value : Option String) : (optionValue value).Valid := by
  cases value <;> trivial

theorem namesValue_valid (names : List String) : (namesValue names).Valid := by
  rw [namesValue, JsonValue.Valid, validItems_iff, List.forall_mem_map]
  exact fun _ _ => trivial

theorem toValue_valid {r : SampleRelation} (h : r.Writable) : r.toValue.Valid := by
  refine record_valid (by simp [fields]) ?_
  have hlevel : r.unitLevel.toValue.Valid := by cases r.unitLevel <;> trivial
  have hweight : (r.sampleInfluenceWeight.elim .null floatValue).Valid := by
    cases hw : r.sampleInfluenceWeight with
    | none => trivial
    | some w =>
      simp only [Option.elim, floatValue, h.weight w hw, if_true]
      exact h.weight w hw
  have hmetadata : (mapValue id sortAllObjects r.metadata).Valid := by
    rw [mapValue, JsonValue.Valid, validEntries_iff, List.forall_mem_map]
    refine ⟨nodup_mapValue Function.injective_id _, fun e he => sortAllObjects_valid ?_⟩
    exact h.metadata e.1 e.2 (BTreeMap.mem_toList.mp he)
  have hoption := optionValue_valid
  have hnames := namesValue_valid
  simp only [fields, List.forall_mem_cons, List.not_mem_nil, false_imp_iff, implies_true, and_true,
    Option.mem_some_iff, forall_eq']
  refine ⟨hlevel, hoption _, trivial, trivial, hoption _, hoption _, hoption _, hoption _, hoption _,
    hoption _, hnames _, hweight, hoption _, trivial, ?_, valid_of_skip hmetadata,
    valid_of_skip (hnames _)⟩
  cases r.excluded <;> simp [JsonValue.Valid]

end SampleRelation

end DagMl

import DagMl.Bundle.Basic
import DagMl.Bundle.Payload

/-!
# Payload sets

The payloads that travel beside a bundle, one for each of its cache records.
`Sealed` is what a set accepted for a bundle guarantees.
-/

namespace DagMl

open Checked

structure BundlePredictionCachePayloadSet where
  bundleId : BundleId
  schemaVersion : Nat
  caches : List BundlePredictionCachePayload

def predictionCachePayloadSchemaMigrationPolicy : SchemaMigrationPolicy where
  artifact := "prediction_cache_payload"
  currentVersion := predictionCachePayloadSchemaVersion
  minReadableVersion := 1
  minWritableVersion := 2
  automaticMigrations :=
    .collect [(legacyPredictionCachePayloadSchemaVersion, predictionCachePayloadSchemaVersion)]

namespace BundlePredictionCachePayloadSet

variable {Sections : Type} (externals : Externals) (self : BundlePredictionCachePayloadSet)

/-- One turn of the loop over the payloads, with the requirement keys and the
cache ids seen so far. -/
def checkPayload (seen : Finset String × Finset String) (payload : BundlePredictionCachePayload) :
    Result (Finset String × Finset String) := do
  payload.validate externals
  validatePredictionCacheFormatForSchemaVersion payload.format self.schemaVersion
    s!"prediction cache payload `{payload.cacheId}` in set for bundle `{self.bundleId}`"
  payload.validateBlockFamily self.schemaVersion
  refuseIf (payload.requirementKey ∈ seen.1) (.runtimeValidation
    s!"prediction cache payload set for bundle `{self.bundleId}` has duplicate requirement `{payload.requirementKey}`")
  refuseIf (payload.cacheId ∈ seen.2) (.runtimeValidation
    s!"prediction cache payload set for bundle `{self.bundleId}` has duplicate cache id `{payload.cacheId}`")
  pure (insert payload.requirementKey seen.1, insert payload.cacheId seen.2)

def validate : Result Unit := do
  predictionCachePayloadSchemaMigrationPolicy.validateReadVersion self.schemaVersion
    s!"prediction cache payload set for bundle `{self.bundleId}`"
  let _ ← loop (self.checkPayload externals) (∅, ∅) self.caches

def validateAgainstBundle (checks : SectionChecks Sections) (bundle : ExecutionBundle Sections) :
    Result Unit := do
  self.validate externals
  bundle.validate checks
  refuseIf (self.bundleId ≠ bundle.bundleId) (.runtimeValidation
    s!"prediction cache payload set bundle `{self.bundleId}` does not match bundle `{bundle.bundleId}`")
  refuseIf (self.schemaVersion ≠ bundle.schemaVersion) (.runtimeValidation
    s!"prediction cache payload set for bundle `{self.bundleId}` uses schema_version {self.schemaVersion} but bundle uses schema_version {bundle.schemaVersion}")
  refuseIf (self.caches.length ≠ bundle.predictionCaches.length) (.runtimeValidation
    s!"prediction cache payload set for bundle `{self.bundleId}` has {self.caches.length} payload(s) for {bundle.predictionCaches.length} cache record(s)")
  let recordsByRequirement := BTreeMap.collect
    (bundle.predictionCaches.map fun record => (record.requirementKey, record))
  let payloadsByRequirement := BTreeMap.collect
    (self.caches.map fun payload => (payload.requirementKey, payload))
  each recordsByRequirement.toList fun (requirementKey, record) => do
    let payload ← need payloadsByRequirement[requirementKey]? (.runtimeValidation
      s!"prediction cache payload set for bundle `{self.bundleId}` is missing requirement `{requirementKey}`")
    validatePredictionCachePayloadMatchesRecord externals payload record
  each payloadsByRequirement.keys fun requirementKey =>
    refuseIf (!bundle.predictionCaches.any (·.requirementKey = requirementKey)) (.runtimeValidation
      s!"prediction cache payload set for bundle `{self.bundleId}` contains unknown requirement `{requirementKey}`")

end BundlePredictionCachePayloadSet

-- ---------------------------------------------------------------------------
-- What an accepted set guarantees
-- ---------------------------------------------------------------------------

/-- Both sides carry each requirement at most once, and every payload matches
the record of its requirement. -/
structure Sealed {Sections : Type} (externals : Externals) (bundle : ExecutionBundle Sections)
    (payloads : BundlePredictionCachePayloadSet) : Prop where
  contracts : bundle.Contracts
  payloads_nodup : (payloads.caches.map (·.requirementKey)).Nodup
  matched : ∀ payload ∈ payloads.caches, ∃ record ∈ bundle.predictionCaches,
    record.requirementKey = payload.requirementKey ∧
      validatePredictionCachePayloadMatchesRecord externals payload record = .ok ()
  supplied : ∀ record ∈ bundle.predictionCaches, ∃ payload ∈ payloads.caches,
    payload.requirementKey = record.requirementKey

/-- A key that was not seen is seen last. -/
theorem nodup_map_snoc {α κ : Type} [DecidableEq κ] {key : α → κ} {done : List α}
    {seen : Finset κ} {x : α} (hdone : (done.map key).Nodup ∧ seen = (done.map key).toFinset)
    (hnew : key x ∉ seen) :
    ((done ++ [x]).map key).Nodup ∧ insert (key x) seen = ((done ++ [x]).map key).toFinset := by
  obtain ⟨hn, rfl⟩ := hdone
  rw [List.mem_toFinset] at hnew
  constructor
  · rw [List.map_append, List.nodup_append']
    simp_all [List.Disjoint]
  · ext k
    simp

namespace BundlePredictionCachePayloadSet

variable {Sections : Type} {externals : Externals} {checks : SectionChecks Sections}
  {bundle : ExecutionBundle Sections} {payloads : BundlePredictionCachePayloadSet}

theorem checkPayloads_nodup {seen : Finset String × Finset String}
    (h : loop (payloads.checkPayload externals) (∅, ∅) payloads.caches = .ok seen) :
    (payloads.caches.map (·.requirementKey)).Nodup := by
  have hkeys : (payloads.caches.map (·.requirementKey)).Nodup ∧
      seen.1 = (payloads.caches.map (·.requirementKey)).toFinset := by
    refine loop_invariant
      (fun done (seen : Finset String × Finset String) =>
        (done.map (·.requirementKey)).Nodup ∧ seen.1 = (done.map (·.requirementKey)).toFinset)
      ⟨.nil, rfl⟩ ?_ h
    intro done seen payload seen' hdone hstep
    simp only [checkPayload, bind_ok, refuseIf_ok, pure_ok] at hstep
    obtain ⟨_, -, _, -, _, -, _, hnew, _, -, rfl⟩ := hstep
    exact nodup_map_snoc hdone hnew
  exact hkeys.1

theorem sealed_of_validate
    (h : payloads.validateAgainstBundle externals checks bundle = .ok ()) :
    Sealed externals bundle payloads := by
  simp only [validateAgainstBundle, validate, bind_ok, refuseIf_ok, each_ok, need_ok, pure_ok] at h
  obtain ⟨_, ⟨_, -, seen, hloop, -⟩, _, hbundle, _, -, _, -, _, -, _, hrecords, hknown⟩ := h
  have hcontracts := ExecutionBundle.validate_contracts hbundle
  have hn := checkPayloads_nodup hloop
  have hrecord := BTreeMap.indexOf_collect hcontracts.cacheKeys_nodup
  have hpayload := BTreeMap.indexOf_collect hn
  constructor
  case contracts => exact hcontracts
  case payloads_nodup => exact hn
  case matched =>
    intro payload hp
    have hkey := hknown payload.requirementKey (Std.ExtTreeMap.mem_keys.mpr
      (hpayload.mem.mpr (List.mem_map_of_mem hp)))
    simp only [Bool.not_eq_true', Bool.not_eq_false, List.any_eq_true, decide_eq_true_eq] at hkey
    obtain ⟨record, hr, heq⟩ := hkey
    obtain ⟨payload', hp', hmatch⟩ := hrecords (record.requirementKey, record)
      (BTreeMap.mem_toList.mpr ((hrecord.get _ _).mpr ⟨hr, rfl⟩))
    rw [heq, (hpayload.get _ _).mpr ⟨hp, rfl⟩] at hp'
    cases hp'
    exact ⟨record, hr, heq, hmatch⟩
  case supplied =>
    intro record hr
    obtain ⟨payload, hp, -⟩ := hrecords (record.requirementKey, record)
      (BTreeMap.mem_toList.mpr ((hrecord.get _ _).mpr ⟨hr, rfl⟩))
    obtain ⟨hmem, heq⟩ := (hpayload.get _ _).mp hp
    exact ⟨payload, hmem, heq⟩

end BundlePredictionCachePayloadSet

end DagMl

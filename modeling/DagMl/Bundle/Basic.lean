import DagMl.Bundle.Payload
import DagMl.Lib.Index

/-!
# Execution bundles

`ExecutionBundle.validate`, with every check of the prediction contracts; the
sections that no contract reads are checked by parameters. `Contracts` is what
an accepted bundle guarantees about its requirements and cache records.
-/

namespace DagMl

open Checked

-- ---------------------------------------------------------------------------
-- Schema versions
-- ---------------------------------------------------------------------------

structure SchemaMigrationPolicy where
  artifact : String
  currentVersion : Nat
  minReadableVersion : Nat
  minWritableVersion : Nat
  automaticMigrations : BTreeMap Nat Nat

namespace SchemaMigrationPolicy

def validate (self : SchemaMigrationPolicy) : Result Unit := do
  validateNonEmpty "schema migration artifact" self.artifact
  refuseIf (self.currentVersion = 0 ∨ self.minReadableVersion = 0 ∨ self.minWritableVersion = 0)
    (.runtimeValidation s!"schema migration policy `{self.artifact}` has zero version boundary")
  refuseIf (self.currentVersion < self.minReadableVersion) (.runtimeValidation
    s!"schema migration policy `{self.artifact}` min_readable_version exceeds current_version")
  refuseIf (self.currentVersion < self.minWritableVersion) (.runtimeValidation
    s!"schema migration policy `{self.artifact}` min_writable_version exceeds current_version")
  each self.automaticMigrations.toList fun (source, destination) => do
    refuseIf (source = 0 ∨ destination = 0) (.runtimeValidation
      s!"schema migration policy `{self.artifact}` contains a zero migration version")
    refuseIf (source = destination) (.runtimeValidation
      s!"schema migration policy `{self.artifact}` contains a no-op migration {source}->{destination}")
    refuseIf (self.currentVersion < destination) (.runtimeValidation
      s!"schema migration policy `{self.artifact}` migrates to unsupported future version {destination}")

def validateReadVersion (self : SchemaMigrationPolicy) (version : Nat) (owner : String) :
    Result Unit := do
  self.validate
  refuseIf (version < self.minReadableVersion) (.runtimeValidation
    s!"{owner} uses schema_version {version}, below minimum readable {self.minReadableVersion} for {self.artifact}")
  refuseIf (self.currentVersion < version) (.runtimeValidation
    s!"{owner} uses future schema_version {version}, current readable {self.currentVersion} for {self.artifact}")
  refuseIf (version ≠ self.currentVersion ∧ version ∉ self.automaticMigrations)
    (.runtimeValidation
      s!"{owner} uses schema_version {version}, but {self.artifact} declares no automatic migration to current version {self.currentVersion}")

end SchemaMigrationPolicy

def legacyExecutionBundleSchemaVersion : Nat := 1
def executionBundleSchemaVersion : Nat := 2

def executionBundleSchemaMigrationPolicy : SchemaMigrationPolicy where
  artifact := "execution_bundle"
  currentVersion := executionBundleSchemaVersion
  minReadableVersion := 1
  minWritableVersion := 2
  automaticMigrations :=
    .collect [(legacyExecutionBundleSchemaVersion, executionBundleSchemaVersion)]

def expectedPredictionCacheFormatForSchemaVersion (schemaVersion : Nat) (owner : String) :
    Result String :=
  if schemaVersion = legacyExecutionBundleSchemaVersion then .ok legacyBundlePredictionCacheFormat
  else if schemaVersion = executionBundleSchemaVersion then .ok bundlePredictionCacheFormat
  else .error (.runtimeValidation
    s!"{owner} uses unsupported cache family schema_version {schemaVersion}")

def validatePredictionCacheFormatForSchemaVersion (format : String) (schemaVersion : Nat)
    (owner : String) : Result Unit := do
  let expected ← expectedPredictionCacheFormatForSchemaVersion schemaVersion owner
  refuseIf (format ≠ expected) (.runtimeValidation
    s!"{owner} uses cache format `{format}` but schema_version {schemaVersion} requires `{expected}`")

-- ---------------------------------------------------------------------------
-- Bundles
-- ---------------------------------------------------------------------------

/-- `sections` is everything that only `validate` and the checks against a plan
read: HPO and conformal states, raw payloads, scores, selections, data
requirements, refit artifacts, flags and metadata. -/
structure ExecutionBundle (Sections : Type) where
  bundleId : BundleId
  schemaVersion : Nat
  planId : String
  graphFingerprint : String
  campaignFingerprint : String
  controllerFingerprint : String
  selectedVariantId : Option VariantId
  predictionRequirements : List BundlePredictionRequirement
  predictionCaches : List BundlePredictionCacheRecord
  sections : Sections

/-- The checks of the sections, at the three places of `validate` they stand. -/
structure SectionChecks (Sections : Type) where
  opening : ExecutionBundle Sections → Result Unit
  middle : ExecutionBundle Sections → Result Unit
  closing : ExecutionBundle Sections → Result Unit

namespace ExecutionBundle

variable {Sections : Type}

def checkRequirement (self : ExecutionBundle Sections)
    (predictionKeys : BTreeMap String BundlePredictionRequirement)
    (requirement : BundlePredictionRequirement) :
    Result (BTreeMap String BundlePredictionRequirement) := do
  requirement.validate
  refuseIf (requirement.key ∈ predictionKeys) (.runtimeValidation
    s!"bundle `{self.bundleId}` has duplicate prediction requirement `{requirement.key}`")
  pure (predictionKeys.insert requirement.key requirement)

def checkCache (self : ExecutionBundle Sections)
    (predictionKeys : BTreeMap String BundlePredictionRequirement)
    (predictionCacheKeys : BTreeMap String BundlePredictionCacheRecord)
    (cache : BundlePredictionCacheRecord) :
    Result (BTreeMap String BundlePredictionCacheRecord) := do
  cache.validate
  refuseIf (cache.cacheNamespaceFingerprints ≠ [] ∧ self.selectedVariantId.isNone)
    (.runtimeValidation
      s!"bundle `{self.bundleId}` prediction cache `{cache.cacheId}` is D10-enriched and requires selected_variant_id")
  validatePredictionCacheFormatForSchemaVersion cache.format self.schemaVersion
    s!"prediction cache `{cache.cacheId}` in bundle `{self.bundleId}`"
  let requirement ← need predictionKeys[cache.requirementKey]? (.runtimeValidation
    s!"prediction cache `{cache.cacheId}` references unknown prediction requirement `{cache.requirementKey}`")
  validatePredictionCacheMatchesRequirement cache requirement
  refuseIf (cache.requirementKey ∈ predictionCacheKeys) (.runtimeValidation
    s!"bundle `{self.bundleId}` has duplicate prediction cache for requirement `{cache.requirementKey}`")
  pure (predictionCacheKeys.insert cache.requirementKey cache)

def validate (checks : SectionChecks Sections) (self : ExecutionBundle Sections) :
    Result Unit := do
  executionBundleSchemaMigrationPolicy.validateReadVersion self.schemaVersion
    s!"bundle `{self.bundleId}`"
  checks.opening self
  refuseIf (isBlank self.planId)
    (.runtimeValidation s!"bundle `{self.bundleId}` has empty plan_id")
  validateRuntimeFingerprint "graph" self.graphFingerprint
  validateRuntimeFingerprint "campaign" self.campaignFingerprint
  validateRuntimeFingerprint "controller" self.controllerFingerprint
  checks.middle self
  let predictionKeys ← loop self.checkRequirement ∅ self.predictionRequirements
  let _ ← loop (self.checkCache predictionKeys) ∅ self.predictionCaches
  checks.closing self

-- ---------------------------------------------------------------------------
-- What an accepted bundle guarantees
-- ---------------------------------------------------------------------------

/-- Every requirement has a key of its own, and every cache record describes
the requirement it names, at most once each. -/
structure Contracts (bundle : ExecutionBundle Sections) : Prop where
  requirements : ∀ r ∈ bundle.predictionRequirements, r.validate = .ok ()
  keys_nodup : (bundle.predictionRequirements.map (·.key)).Nodup
  records : ∀ c ∈ bundle.predictionCaches, c.validate = .ok ()
  matched : ∀ c ∈ bundle.predictionCaches, ∃ r ∈ bundle.predictionRequirements,
    validatePredictionCacheMatchesRequirement c r = .ok ()
  cacheKeys_nodup : (bundle.predictionCaches.map (·.requirementKey)).Nodup

variable {bundle : ExecutionBundle Sections}

theorem checkRequirements_ok
    (h : loop bundle.checkRequirement ∅ bundle.predictionRequirements = .ok keys) :
    (∀ r ∈ bundle.predictionRequirements, r.validate = .ok ()) ∧
      BTreeMap.IndexOf (·.key) bundle.predictionRequirements keys := by
  refine BTreeMap.indexOf_loop ?_ h
  rintro keys r keys' hstep
  simp only [checkRequirement, bind_ok, refuseIf_ok, pure_ok] at hstep
  obtain ⟨_, hr, _, hnew, rfl⟩ := hstep
  exact ⟨hr, hnew, rfl⟩

/-- What the loop over the cache records checks of one of them. -/
def CacheOk (keys : BTreeMap String BundlePredictionRequirement)
    (c : BundlePredictionCacheRecord) : Prop :=
  c.validate = .ok () ∧ ∃ r, keys[c.requirementKey]? = some r ∧
    validatePredictionCacheMatchesRequirement c r = .ok ()

theorem checkCaches_ok
    (h : loop (bundle.checkCache keys) ∅ bundle.predictionCaches = .ok caches) :
    (∀ c ∈ bundle.predictionCaches, CacheOk keys c) ∧
      BTreeMap.IndexOf (·.requirementKey) bundle.predictionCaches caches := by
  refine BTreeMap.indexOf_loop ?_ h
  rintro caches c caches' hstep
  simp only [checkCache, bind_ok, refuseIf_ok, need_ok, pure_ok] at hstep
  obtain ⟨_, hc, _, -, _, -, r, hr, _, hmatch, _, hnew, rfl⟩ := hstep
  exact ⟨⟨hc, r, hr, hmatch⟩, hnew, rfl⟩

theorem validate_contracts {checks : SectionChecks Sections}
    (h : bundle.validate checks = .ok ()) : bundle.Contracts := by
  simp only [validate, bind_ok] at h
  obtain ⟨_, -, _, -, _, -, _, -, _, -, _, -, _, -, keys, hkeys, caches, hcaches, -⟩ := h
  obtain ⟨hvalid, hindex⟩ := checkRequirements_ok hkeys
  obtain ⟨hrecords, hcacheIndex⟩ := checkCaches_ok hcaches
  constructor
  case requirements => exact hvalid
  case keys_nodup => exact hindex.nodup
  case records => exact fun c hc => (hrecords c hc).1
  case matched =>
    intro c hc
    obtain ⟨-, r, hr, hmatch⟩ := hrecords c hc
    exact ⟨r, ((hindex.get _ _).mp hr).1, hmatch⟩
  case cacheKeys_nodup => exact hcacheIndex.nodup

end ExecutionBundle

end DagMl

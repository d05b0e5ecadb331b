import DagMl.Ids
import DagMl.Lib.Checked
import DagMl.Lib.Collections

/-!
# Artifacts

References to fitted artifacts, the handles they are served under, and the
checks a reference passes before a store takes it. A native descriptor is
bound to its content by a fingerprint; how that is computed is a parameter.
-/

namespace DagMl

open Checked

inductive HandleKind
  | data
  | dataView
  | model
  | artifact
  | prediction
  | relation
  deriving DecidableEq

/-- `{:?}`. -/
def HandleKind.debug : HandleKind → String
  | .data => "Data"
  | .dataView => "DataView"
  | .model => "Model"
  | .artifact => "Artifact"
  | .prediction => "Prediction"
  | .relation => "Relation"

structure HandleRef where
  handle : UInt64
  kind : HandleKind
  ownerController : ControllerId
  deriving DecidableEq

inductive ArtifactBackend
  | joblib | rds | mat | torch | tensorflow | onnx | safetensors | json | raw
  deriving DecidableEq

-- ---------------------------------------------------------------------------
-- Text checks
-- ---------------------------------------------------------------------------

/-- `value.trim()`. -/
def trim (value : String) : String :=
  String.ofList ((value.toList.dropWhile isWhitespace).reverse.dropWhile isWhitespace).reverse

/-- `char::is_control`: general category `Cc`. -/
def isControl (c : Char) : Bool := c.toNat ≤ 0x1f || (0x7f ≤ c.toNat && c.toNat ≤ 0x9f)

def isHexDigit (c : Char) : Bool :=
  ('0' ≤ c && c ≤ '9') || ('a' ≤ c && c ≤ 'f') || ('A' ≤ c && c ≤ 'F')

/-- `{:#x}`. -/
def hexDisplay (n : UInt64) : String := "0x" ++ String.ofList (Nat.toDigits 16 n.toNat)

def validateRuntimeFingerprint (label value : String) : Result Unit :=
  refuseIf (value.utf8ByteSize ≠ 64 ∨ value.toList.all isHexDigit = false)
    (.runtimeValidation s!"{label} fingerprint must be a 64-character hex digest")

def validateArtifactOptionalText (label : String) (value : Option String) (artifactId : ArtifactId) :
    Result Unit :=
  whenSome value fun value => do
    refuseIf (isBlank value = true)
      (.runtimeValidation s!"artifact `{artifactId}` has empty {label}")
    refuseIf (value.toList.any isControl = true)
      (.runtimeValidation s!"artifact `{artifactId}` has control characters in {label}")

-- ---------------------------------------------------------------------------
-- Native predictor descriptors
-- ---------------------------------------------------------------------------

structure NativePredictorWriterAbiV1 where
  major : Nat
  minor : Nat
  patch : Nat
  deriving DecidableEq

structure NativePredictorDimensionsV1 where
  trainingSamples : Int
  nFeatures : Int
  nTargets : Int
  nComponents : Int
  deriving DecidableEq

structure NativePredictorPipelineV1 where
  pipelineType : String
  schemaVersion : Nat
  operatorCount : Nat
  rawNFeatures : Int
  modelNFeatures : Int
  fingerprintAlgorithm : String
  nativeFingerprint : String
  savgolWindow : Int
  savgolPolyDegree : Int
  deriving DecidableEq

def NativePredictorPipelineV1.validate (self : NativePredictorPipelineV1) : Result Unit := do
  refuseIf (self.pipelineType ≠ "n4m.snv_savgol_smooth.v1" ∨ self.schemaVersion ≠ 1 ∨
      self.operatorCount ≠ 2)
    (.runtimeValidation "native predictor pipeline has an unsupported type or schema")
  refuseIf (self.rawNFeatures ≤ 0 ∨ self.modelNFeatures ≤ 0)
    (.runtimeValidation "native predictor pipeline has invalid feature dimensions")
  refuseIf (self.fingerprintAlgorithm ≠ "fnv1a64.v1" ∨ self.nativeFingerprint.utf8ByteSize ≠ 16 ∨
      (self.nativeFingerprint.toList.all fun c =>
        ('0' ≤ c && c ≤ '9') || ('a' ≤ c && c ≤ 'f')) = false)
    (.runtimeValidation "native predictor pipeline has an invalid native fingerprint")
  refuseIf (self.savgolWindow < 3 ∨ 501 < self.savgolWindow ∨ self.savgolWindow % 2 = 0 ∨
      self.savgolPolyDegree < 0 ∨ self.savgolWindow ≤ self.savgolPolyDegree)
    (.runtimeValidation "native predictor pipeline has invalid Savitzky-Golay parameters")

structure NativePredictorDescriptorV1 where
  descriptorType : String
  schemaVersion : Nat
  artifactSha256 : String
  ownerController : ControllerId
  format : String
  formatVersion : Nat
  writerAbi : NativePredictorWriterAbiV1
  storageAlgorithm : Int
  capabilities : UInt64
  dimensions : NativePredictorDimensionsV1
  pipeline : Option NativePredictorPipelineV1
  descriptorFingerprint : String
  deriving DecidableEq

namespace NativePredictorDescriptorV1

def capabilityPredict : UInt64 := 1
def capabilityTransform : UInt64 := 2
def capabilityAffine : UInt64 := 4
def capabilityPipeline : UInt64 := 8
def capabilitiesV1 : UInt64 :=
  capabilityPredict ||| capabilityTransform ||| capabilityAffine ||| capabilityPipeline

def methodsAbiMajor : Nat := 2
def componentResolutionMinAbiMinor : Nat := 20

/-- `match &self.pipeline` of a PLS predictor. -/
def plsPipelineSupported (self : NativePredictorDescriptorV1) : Bool :=
  let hasPipelineCapability := self.capabilities &&& capabilityPipeline != 0
  match self.pipeline with
  | none => (self.formatVersion = 1 || self.formatVersion = 3) && !hasPipelineCapability
  | some pipeline =>
    (self.formatVersion = 2 || self.formatVersion = 3) && hasPipelineCapability &&
      decide (pipeline.validate = .ok ()) &&
      pipeline.rawNFeatures = self.dimensions.nFeatures &&
      pipeline.modelNFeatures = self.dimensions.nFeatures

def productSupported (self : NativePredictorDescriptorV1) : Bool :=
  let requiredPredict := self.capabilities &&& capabilityPredict != 0
  let hasPipelineCapability := self.capabilities &&& capabilityPipeline != 0
  if self.ownerController.value = "controller:methods.pls" then
    self.storageAlgorithm = 0 && requiredPredict && 0 < self.dimensions.nComponents &&
      self.plsPipelineSupported &&
      (self.formatVersion != 3 || (self.writerAbi.major = methodsAbiMajor &&
        componentResolutionMinAbiMinor ≤ self.writerAbi.minor))
  else if self.ownerController.value = "controller:methods.ridge" then
    self.storageAlgorithm = 11 && requiredPredict &&
      self.capabilities &&& capabilityAffine != 0 && self.dimensions.nComponents = 0 &&
      self.formatVersion = 1 && !hasPipelineCapability && self.pipeline.isNone
  else false

def validate (computeFingerprint : NativePredictorDescriptorV1 → Result String)
    (self : NativePredictorDescriptorV1) : Result Unit := do
  refuseIf (self.descriptorType ≠ "dagml.native_predictor_descriptor.v1" ∨ self.schemaVersion ≠ 1)
    (.runtimeValidation
      s!"unsupported native predictor descriptor `{self.descriptorType}` schema_version {self.schemaVersion}; expected `dagml.native_predictor_descriptor.v1` schema_version 1")
  validateRuntimeFingerprint "native predictor artifact" self.artifactSha256
  validateRuntimeFingerprint "native predictor descriptor" self.descriptorFingerprint
  refuseIf (self.format ≠ "N4MM" ∨ self.formatVersion = 0) (.runtimeValidation
    s!"native predictor descriptor has unsupported format `{self.format}:{self.formatVersion}`")
  refuseIf (self.writerAbi.major = 0)
    (.runtimeValidation "native predictor descriptor writer ABI major must be non-zero")
  refuseIf (self.dimensions.trainingSamples ≤ 0 ∨ self.dimensions.nFeatures ≤ 0 ∨
      self.dimensions.nTargets ≤ 0 ∨ self.dimensions.nComponents < 0)
    (.runtimeValidation "native predictor descriptor has invalid model dimensions")
  let unsupported := hexDisplay (self.capabilities &&& ~~~capabilitiesV1)
  refuseIf (self.capabilities &&& ~~~capabilitiesV1 ≠ 0) (.runtimeValidation
    s!"native predictor descriptor uses unsupported capability bits {unsupported}")
  let capabilities := hexDisplay self.capabilities
  refuseIf (self.productSupported = false) (.runtimeValidation
    s!"native predictor storage algorithm {self.storageAlgorithm} with capabilities {capabilities} and {self.dimensions.nComponents} component(s) is not product-supported by `{self.ownerController}`")
  let fingerprint ← computeFingerprint self
  refuseIf (self.descriptorFingerprint ≠ fingerprint) (.runtimeValidation
    "native predictor descriptor fingerprint does not match TCV1 content")

end NativePredictorDescriptorV1

-- ---------------------------------------------------------------------------
-- Native estimator descriptors
-- ---------------------------------------------------------------------------

inductive N4mRole
  | transformer | selector | regressor | classifier | sampleFilter | splitter | augmenter | generic
  deriving DecidableEq

namespace N4mRole

/-- `{:?}`. -/
def debug : N4mRole → String
  | .transformer => "Transformer"
  | .selector => "Selector"
  | .regressor => "Regressor"
  | .classifier => "Classifier"
  | .sampleFilter => "SampleFilter"
  | .splitter => "Splitter"
  | .augmenter => "Augmenter"
  | .generic => "Generic"

def controllerId : N4mRole → Option String
  | .transformer => some "controller:n4m.transformer"
  | .selector => some "controller:n4m.selector"
  | .regressor => some "controller:n4m.regressor"
  | .classifier => some "controller:n4m.classifier"
  | .sampleFilter => some "controller:n4m.sample_filter"
  | .splitter => some "controller:n4m.splitter"
  | .augmenter => some "controller:n4m.augmenter"
  | .generic => none

/-- `N4M_GRAPH_ROLES`. -/
def graphRoles : List N4mRole :=
  [.transformer, .selector, .regressor, .classifier, .sampleFilter, .splitter, .augmenter]

def fromControllerId (id : String) : Option N4mRole :=
  graphRoles.find? fun role => role.controllerId = some id

end N4mRole

structure NativeEstimatorDescriptorV1 where
  descriptorType : String
  schemaVersion : Nat
  artifactSha256 : String
  ownerController : ControllerId
  format : String
  methodId : String
  roles : List N4mRole
  capabilities : List String
  descriptorFingerprint : String
  deriving DecidableEq

def NativeEstimatorDescriptorV1.validate
    (computeFingerprint : NativeEstimatorDescriptorV1 → Result String)
    (self : NativeEstimatorDescriptorV1) : Result Unit := do
  refuseIf (self.descriptorType ≠ "dagml.native_estimator_descriptor.v1" ∨ self.schemaVersion ≠ 1 ∨
      self.format ≠ "N4ME")
    (.runtimeValidation
      s!"unsupported native estimator descriptor `{self.descriptorType}` schema_version {self.schemaVersion} format `{self.format}`")
  validateRuntimeFingerprint "native estimator artifact" self.artifactSha256
  validateRuntimeFingerprint "native estimator descriptor" self.descriptorFingerprint
  refuseIf (isBlank self.methodId = true ∨ self.methodId ≠ trim self.methodId)
    (.runtimeValidation "native estimator descriptor has a blank method id")
  let roles := ", ".intercalate (self.roles.map N4mRole.debug)
  refuseIf (¬∃ role ∈ self.roles, N4mRole.fromControllerId self.ownerController.value = some role)
    (.runtimeValidation
      s!"native estimator `{self.methodId}` with roles [{roles}] cannot be owned by `{self.ownerController}`")
  refuseIf (self.capabilities = [] ∨
      (∃ pair ∈ self.capabilities.zip self.capabilities.tail, pair.2 ≤ pair.1) ∨
      ∃ capability ∈ self.capabilities, isBlank capability = true)
    (.runtimeValidation
      s!"native estimator `{self.methodId}` capabilities must be sorted, unique and non-empty")
  let fingerprint ← computeFingerprint self
  refuseIf (self.descriptorFingerprint ≠ fingerprint) (.runtimeValidation
    "native estimator descriptor fingerprint does not match TCV1 content")

-- ---------------------------------------------------------------------------
-- References
-- ---------------------------------------------------------------------------

structure ArtifactRef where
  id : ArtifactId
  kind : String
  controllerId : ControllerId
  backend : Option ArtifactBackend
  uri : Option String
  contentFingerprint : Option String
  sizeBytes : Option UInt64
  plugin : Option String
  pluginVersion : Option String
  abiMajor : Option Nat
  abiMinMinor : Option Nat
  nativePredictorDescriptor : Option NativePredictorDescriptorV1
  nativeEstimatorDescriptor : Option NativeEstimatorDescriptorV1
  deriving DecidableEq

/-- How the two kinds of descriptor are fingerprinted. -/
structure Fingerprinting where
  predictor : NativePredictorDescriptorV1 → Result String
  estimator : NativeEstimatorDescriptorV1 → Result String

variable (fingerprinting : Fingerprinting)

namespace ArtifactRef

def validate (self : ArtifactRef) : Result Unit := do
  refuseIf (isBlank self.kind = true)
    (.runtimeValidation s!"artifact `{self.id}` has empty kind")
  validateArtifactOptionalText "uri" self.uri self.id
  validateArtifactOptionalText "plugin" self.plugin self.id
  validateArtifactOptionalText "plugin_version" self.pluginVersion self.id
  refuseIf (self.pluginVersion.isSome = true ∧ self.plugin.isNone = true)
    (.runtimeValidation s!"artifact `{self.id}` has plugin_version without plugin")
  refuseIf (self.abiMajor.isSome ≠ self.abiMinMinor.isSome ∨ self.abiMajor = some 0)
    (.runtimeValidation
      s!"artifact `{self.id}` must declare a non-zero abi_major together with abi_min_minor")
  whenSome self.contentFingerprint (validateRuntimeFingerprint "artifact content")
  whenSome self.nativePredictorDescriptor fun descriptor => do
    descriptor.validate fingerprinting.predictor
    refuseIf (descriptor.ownerController ≠ self.controllerId ∨ self.backend ≠ some .raw ∨
        self.kind ≠ "n4m_model" ∨ self.contentFingerprint ≠ some descriptor.artifactSha256 ∨
        self.abiMajor ≠ some descriptor.writerAbi.major)
      (.runtimeValidation s!"artifact `{self.id}` does not match its native predictor descriptor")
  refuseIf (decide (self.kind = "n4m_estimator") ≠ self.nativeEstimatorDescriptor.isSome)
    (.runtimeValidation
      s!"artifact `{self.id}` must carry a native estimator descriptor exactly when its kind is `n4m_estimator`")
  whenSome self.nativeEstimatorDescriptor fun descriptor => do
    descriptor.validate fingerprinting.estimator
    refuseIf (descriptor.ownerController ≠ self.controllerId ∨ self.backend ≠ some .raw ∨
        self.nativePredictorDescriptor.isSome = true ∨
        self.contentFingerprint ≠ some descriptor.artifactSha256 ∨ self.abiMajor.isNone = true)
      (.runtimeValidation s!"artifact `{self.id}` does not match its native estimator descriptor")
  refuseIf (self.uri.isSome = true ∧ self.backend.isNone = true)
    (.runtimeValidation s!"artifact `{self.id}` has uri without backend")
  refuseIf (self.uri.isSome = true ∧ self.contentFingerprint.isNone = true)
    (.runtimeValidation s!"artifact `{self.id}` has uri without content_fingerprint")

end ArtifactRef

structure RefitArtifactRecord where
  nodeId : NodeId
  controllerId : ControllerId
  artifact : ArtifactRef
  paramsFingerprint : String
  trainingLossFingerprint : Option String
  dataRequirementKeys : List String
  predictionRequirementKeys : List String

/-- One of the two loops over requirement keys: none blank, none repeated. -/
def validateRequirementKeys (artifactId : ArtifactId) (label : String) (keys : List String) :
    Result Unit := do
  let _ ← loop (fun (seen : Finset String) key => do
    refuseIf (isBlank key = true) (.runtimeValidation
      s!"refit artifact `{artifactId}` has empty {label} requirement key")
    refuseIf (key ∈ seen) (.runtimeValidation
      s!"refit artifact `{artifactId}` has duplicate {label} requirement key `{key}`")
    pure (insert key seen)) ∅ keys

def RefitArtifactRecord.validate (self : RefitArtifactRecord) : Result Unit := do
  self.artifact.validate fingerprinting
  refuseIf (self.artifact.id.value.isEmpty = true)
    (.runtimeValidation s!"refit artifact for `{self.nodeId}` has empty artifact id")
  refuseIf (isBlank self.artifact.kind = true)
    (.runtimeValidation s!"refit artifact `{self.artifact.id}` has empty artifact kind")
  refuseIf (self.artifact.controllerId ≠ self.controllerId) (.runtimeValidation
    s!"refit artifact `{self.artifact.id}` controller `{self.artifact.controllerId}` does not match record controller `{self.controllerId}`")
  validateRuntimeFingerprint "params" self.paramsFingerprint
  whenSome self.trainingLossFingerprint (validateRuntimeFingerprint "training loss")
  validateRequirementKeys self.artifact.id "data" self.dataRequirementKeys
  validateRequirementKeys self.artifact.id "prediction" self.predictionRequirementKeys

structure ArtifactHandleRecord where
  handle : HandleRef
  nodeId : NodeId
  controllerId : ControllerId
  artifact : ArtifactRef
  paramsFingerprint : String
  trainingLossFingerprint : Option String

def ArtifactHandleRecord.validate (self : ArtifactHandleRecord) : Result Unit := do
  self.artifact.validate fingerprinting
  refuseIf (self.handle.kind ≠ .model ∧ self.handle.kind ≠ .artifact) (.runtimeValidation
    s!"artifact `{self.artifact.id}` is registered with non-artifact/model handle kind {self.handle.kind.debug}")
  refuseIf (self.handle.ownerController ≠ self.controllerId) (.runtimeValidation
    s!"artifact `{self.artifact.id}` handle owner `{self.handle.ownerController}` does not match controller `{self.controllerId}`")
  refuseIf (self.artifact.controllerId ≠ self.controllerId) (.runtimeValidation
    s!"artifact `{self.artifact.id}` controller `{self.artifact.controllerId}` does not match record controller `{self.controllerId}`")
  refuseIf (isBlank self.paramsFingerprint = true)
    (.runtimeValidation s!"artifact `{self.artifact.id}` has empty params fingerprint")
  whenSome self.trainingLossFingerprint (validateRuntimeFingerprint "artifact training loss")

end DagMl

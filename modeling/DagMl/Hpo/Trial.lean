import DagMl.Generation.Variant
import DagMl.Lib.Ledger

/-!
# Optimizer trials and checkpoints

What a native optimizer reports of a trial, and the envelope of its own
checkpoint bytes. Trials hold floats, so `==` on them is not reflexive.
-/

namespace DagMl

open Checked Ledger

inductive HpoDirection
  | auto | minimize | maximize
  deriving DecidableEq

inductive HpoNativeParameterKind
  | int | float | logInt | logFloat | categorical | ordinal | sortedTuple
  deriving DecidableEq

inductive HpoCategoryType
  | string | integer | float | boolean
  deriving DecidableEq

inductive HpoTrialStatus
  | running | completed | pruned | failed | cancelled
  deriving DecidableEq

/-- `matches!(status, Completed | Pruned | Failed)`. -/
def HpoTrialStatus.isTerminal : HpoTrialStatus → Bool
  | .completed | .pruned | .failed => true
  | .running | .cancelled => false

structure HpoTrialParameter where
  name : String
  value : Binary64
  nativeKind : Option HpoNativeParameterKind
  categoryType : Option HpoCategoryType
  integer : Bool
  active : Bool
  categoryIndex : Option Int
  categoryLabel : Option String

structure HpoFailure where
  code : String
  message : String
  retryable : Bool
  deriving DecidableEq

structure HpoIntermediate where
  sequence : Int
  step : Int
  score : Binary64
  shouldPrune : Bool

structure HpoTrial where
  id : Int
  askSequence : Int
  terminalSequence : Option Int
  parameters : BTreeMap String HpoTrialParameter
  parameterOrder : List String
  status : HpoTrialStatus
  score : Option Binary64
  rung : Int
  duration : Binary64
  intermediates : List HpoIntermediate
  failure : Option HpoFailure

-- ---------------------------------------------------------------------------
-- Comparing trials
-- ---------------------------------------------------------------------------

/-- `==`. -/
def HpoTrialParameter.eq (a b : HpoTrialParameter) : Bool :=
  a.name = b.name && a.value.eq b.value && a.nativeKind = b.nativeKind &&
    a.categoryType = b.categoryType && a.integer = b.integer && a.active = b.active &&
    a.categoryIndex = b.categoryIndex && a.categoryLabel = b.categoryLabel

/-- `==`. -/
def HpoIntermediate.eq (a b : HpoIntermediate) : Bool :=
  a.sequence = b.sequence && a.step = b.step && a.score.eq b.score &&
    a.shouldPrune = b.shouldPrune

/-- `==`. -/
def HpoTrial.eq (a b : HpoTrial) : Bool :=
  a.id = b.id && a.askSequence = b.askSequence && a.terminalSequence = b.terminalSequence &&
    mapEq HpoTrialParameter.eq a.parameters b.parameters &&
    a.parameterOrder = b.parameterOrder && a.status = b.status &&
    optionEq Binary64.eq a.score b.score && a.rung = b.rung && a.duration.eq b.duration &&
    a.intermediates.isEqv b.intermediates HpoIntermediate.eq && a.failure = b.failure

theorem carries_binary64 : Carries Binary64.eq := by
  intro a b c hab hbc
  simp only [Binary64.eq, Bool.and_eq_true, decide_eq_true_eq] at *
  exact ⟨⟨hab.1.1, hbc.1.2⟩, hab.2.trans hbc.2⟩

theorem HpoTrialParameter.carries : Carries HpoTrialParameter.eq := by
  intro a b c hab hbc
  simp only [HpoTrialParameter.eq, Bool.and_eq_true, decide_eq_true_eq] at *
  have hvalue := carries_binary64 _ _ _ hab.1.1.1.1.1.1.2 hbc.1.1.1.1.1.1.2
  simp_all

theorem HpoIntermediate.carries : Carries HpoIntermediate.eq := by
  intro a b c hab hbc
  simp only [HpoIntermediate.eq, Bool.and_eq_true, decide_eq_true_eq] at *
  have hscore := carries_binary64 _ _ _ hab.1.2 hbc.1.2
  simp_all

theorem HpoTrial.carries : Carries HpoTrial.eq := by
  intro a b c hab hbc
  simp only [HpoTrial.eq, Bool.and_eq_true, decide_eq_true_eq] at *
  obtain ⟨⟨⟨⟨⟨⟨⟨⟨⟨⟨hid, hask⟩, hterminal⟩, hparams⟩, horder⟩, hstatus⟩, hscore⟩, hrung⟩, hduration⟩,
    hinter⟩, hfailure⟩ := hab
  obtain ⟨⟨⟨⟨⟨⟨⟨⟨⟨⟨hid', hask'⟩, hterminal'⟩, hparams'⟩, horder'⟩, hstatus'⟩, hscore'⟩, hrung'⟩,
    hduration'⟩, hinter'⟩, hfailure'⟩ := hbc
  have hparams := HpoTrialParameter.carries.map _ _ _ hparams hparams'
  have hscore := carries_binary64.option _ _ _ hscore hscore'
  have hduration := carries_binary64 _ _ _ hduration hduration'
  have hinter := HpoIntermediate.carries.list _ _ _ hinter hinter'
  simp_all

-- ---------------------------------------------------------------------------
-- Checkpoints
-- ---------------------------------------------------------------------------

structure HpoStudyBinding where
  controllerId : String
  studyId : String
  searchSpaceFingerprint : String
  optimizerFingerprint : String
  deriving DecidableEq

structure N4moptCheckpointArtifact where
  schemaVersion : Nat
  artifactKind : String
  format : String
  abiMajor : Nat
  abiMinMinor : Nat
  binding : HpoStudyBinding
  methodsAbi : String
  opaquePayload : List UInt8
  payloadSha256 : String

/-- The HPO errors a checkpoint can be refused with. -/
inductive HpoError
  | invalidManifest (reason : String)
  | invalidCheckpoint (reason : String)

/-- `to_string()`. -/
def HpoError.text : HpoError → String
  | .invalidManifest reason => s!"invalid HPO manifest: {reason}"
  | .invalidCheckpoint reason => s!"invalid N4MOPT checkpoint: {reason}"

def HpoStudyBinding.validate (self : HpoStudyBinding) : Except HpoError Unit :=
  each [
    ("controller_id", self.controllerId), ("study_id", self.studyId),
    ("search_space_fingerprint", self.searchSpaceFingerprint),
    ("optimizer_fingerprint", self.optimizerFingerprint)] fun entry =>
      refuseIf (isBlank entry.2 = true) (.invalidManifest s!"{entry.1} must not be empty")

def n4moptCheckpointSchemaVersion : Nat := 1
def n4moptArtifactKind : String := "n4m_optimizer_checkpoint"
def n4moptFormat : String := "N4MOPT"
def methodsAbiMajor : Nat := 2
def methodsN4moptMinAbiMinor : Nat := 2
def maxN4moptCheckpointBytes : Nat := 64 * 1024 * 1024

def payloadSha256 (sha256 : Digest) (payload : List UInt8) : String :=
  toHex (sha256 payload).toList

def N4moptCheckpointArtifact.validate (sha256 : Digest) (self : N4moptCheckpointArtifact) :
    Except HpoError Unit := do
  refuseIf (self.schemaVersion ≠ n4moptCheckpointSchemaVersion ∨
    self.artifactKind ≠ n4moptArtifactKind ∨ self.format ≠ n4moptFormat ∨
    self.abiMajor ≠ methodsAbiMajor ∨ self.abiMinMinor ≠ methodsN4moptMinAbiMinor)
    (.invalidCheckpoint "checkpoint schema, kind, or format is invalid")
  self.binding.validate
  refuseIf (isBlank self.methodsAbi = true ∨ self.opaquePayload = [] ∨
    maxN4moptCheckpointBytes < self.opaquePayload.length)
    (.invalidCheckpoint "checkpoint ABI/payload is invalid or exceeds the maximum size")
  refuseIf (self.payloadSha256 ≠ DagMl.payloadSha256 sha256 self.opaquePayload)
    (.invalidCheckpoint "checkpoint payload SHA-256 differs from envelope")

end DagMl

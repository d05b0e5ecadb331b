/-!
# Errors

The crate's error type with the texts the source builds. A Rust panic is a
separate outcome that no caller may take for a returned error.
-/

namespace DagMl

structure OofLeakageViolation where
  producerNode : String
  partition : String
  foldId : Option String
  deriving DecidableEq

structure OofLeakageReport where
  nodeId : String
  violators : List OofLeakageViolation
  allowTrainPredictionsAsFeatures : Bool
  remediation : String
  deriving DecidableEq

/-- Why a missing-target exclusion was refused. -/
inductive TargetMissingRefusal
  | unknownSample
  | inCvUniverse
  | noObservedTargets
  | insufficientObservedTargets
  | emptyValidationFold
  | emptyTrainFold
  | scoredResult
  deriving DecidableEq

structure TargetMissingReport where
  reason : TargetMissingRefusal
  foldSetId : Option String
  foldId : Option String
  targetMissingCount : Nat
  observedCount : Nat
  sampleIds : List String
  detail : String
  deriving DecidableEq

inductive DagMlError
  | invalidIdentifier (value reason : String)
  | graphValidation (detail : String)
  | campaignValidation (detail : String)
  | planning (detail : String)
  | runtimeValidation (detail : String)
  | oofValidation (detail : String)
  | oofLeakage (report : OofLeakageReport)
  | targetMissing (report : TargetMissingReport)
  | serialization (detail : String)
  /-- Not a value of the source's error type: the thread panicked. -/
  | panicked (message : String)
  deriving DecidableEq

abbrev Result := Except DagMlError

instance [DecidableEq α] : DecidableEq (Result α)
  | .ok a, .ok b => decidable_of_iff (a = b) (by simp)
  | .error a, .error b => decidable_of_iff (a = b) (by simp)
  | .ok _, .error _ => .isFalse (by simp)
  | .error _, .ok _ => .isFalse (by simp)

end DagMl

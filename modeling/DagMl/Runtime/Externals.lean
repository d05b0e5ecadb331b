import DagMl.Generation.Variant

/-!
# Code outside the crate

What the runtime takes from its dependencies: the digest, the printer of
floats, and the derived decoders of the two signed documents it reads out of
graph metadata.
-/

namespace DagMl

/-- The class vocabulary an operator signs. -/
structure MethodsClassVocabulary where
  schemaVersion : Nat
  classLabels : List Nat
  labelNames : List JsonValue

/-- Signed observation availability: which sample each source was seen on. -/
structure PredictionAvailability where
  schemaVersion : Nat
  sampleIds : List SampleId
  sourcePresence : BTreeMap String (List Bool)
  targetNames : List String
  targetValidityMasks : List (List Bool)
  classLabels : Option (List Binary64)
  sampleLabels : Option (List (Option Binary64))

/-- A decoder refuses with a message of its own. -/
structure Externals where
  sha256 : Digest
  floats : FloatWriter
  decodeClassVocabulary : JsonValue → Except String MethodsClassVocabulary
  decodeAvailability : JsonValue → Except String PredictionAvailability

/-- The externals of the concrete runs: every digest is the same. -/
def plainExternals : Externals where
  sha256 _ := .replicate 32 0
  floats := .ofBits
  decodeClassVocabulary _ := .error ""
  decodeAvailability _ := .error ""

/-- The digest of a value written with its fields in their own order. -/
def stableJsonFingerprint (externals : Externals) (value : JsonValue) : String :=
  toHex (externals.sha256
    (utf8Bytes (String.ofList (JsonValue.render externals.floats value)))).toList

namespace JsonValue

/-- `value.get(key)`. -/
def get (key : String) : JsonValue → Option JsonValue
  | .object entries => (entries.find? (·.1 = key)).map Prod.snd
  | _ => none

def asI64 : JsonValue → Option Int
  | .number (.posInt n) => if n.toNat < 2 ^ 63 then some n.toNat else none
  | .number (.negInt n) => some n.toInt
  | _ => none

def asU64 : JsonValue → Option Nat
  | .number (.posInt n) => some n.toNat
  | _ => none

end JsonValue

end DagMl

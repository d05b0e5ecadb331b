import Mathlib
import DagMl.Fold.Splitters
import DagMl.Generation.Spec
import DagMl.Json.Text

/-!
# Variants

A variant is a choice in every dimension, named by the fingerprint of the
choices and seeded from that name.
-/

namespace DagMl

open Checked JsonValue

/-- The choice taken in each dimension, by the dimension's name. -/
abbrev Choices := BTreeMap String GenerationChoice

structure VariantPlan where
  variantId : VariantId
  choices : Choices
  fingerprint : String
  seed : Option UInt64

namespace VariantPlan

/-- What the loop over the overrides threads: the overrides by node, and which
choice set each parameter. -/
abbrev Overrides :=
  BTreeMap NodeId (BTreeMap String JsonDocument) × BTreeMap (NodeId ×ₗ String) String

/-- Keys of a node and a name compare by the node first. -/
instance transOrd_nodeKey : Std.TransOrd (NodeId ×ₗ String) := inferInstance

/-- One parameter of one override. -/
def addOverride (self : VariantPlan) (dimensionName : String) (choice : GenerationChoice)
    (node : NodeId) (overrides : Overrides) (param : String × JsonDocument) :
    Result Overrides := do
  let ownerKey := toLex (node, param.1)
  vacant overrides.2[ownerKey]? fun previous => .campaignValidation
    s!"variant `{self.variantId}` has conflicting generation overrides for `{node}.{param.1}` from `{previous}` and `{dimensionName}:{choice.label}`"
  let owners := overrides.2.insert ownerKey s!"{dimensionName}:{choice.label}"
  let params := (overrides.1[node]?.getD ∅).insert param.1 param.2
  pure (overrides.1.insert node params, owners)

def paramOverridesByNode (self : VariantPlan) :
    Result (BTreeMap NodeId (BTreeMap String JsonDocument)) := do
  let overrides ← loop (fun overrides entry =>
    loop (fun overrides spec =>
      loop (self.addOverride entry.1 entry.2 spec.nodeId) overrides spec.params.toList)
      overrides entry.2.paramOverrides) ((∅, ∅) : Overrides) self.choices.toList
  pure overrides.1

def validate (self : VariantPlan) : Result Unit := do
  refuseIf (isBlank self.fingerprint)
    (.planning s!"variant `{self.variantId}` has an empty fingerprint")
  each self.choices.toList fun entry => entry.2.validate entry.1
  let _ ← self.paramOverridesByNode
  pure ()

end VariantPlan

-- ---------------------------------------------------------------------------
-- Fingerprints
-- ---------------------------------------------------------------------------

/-- A map as the stable serializer writes it, keys ascending. -/
def stableMap (params : BTreeMap String JsonDocument) : JsonValue :=
  .object (params.toList.map fun param => (param.1, param.2.value.sortAllObjects))

/-- Fields keep their order, the values inside them do not. -/
def GenerationParamOverride.toValue (self : GenerationParamOverride) : JsonValue :=
  record [
    ("node_id", some (.string self.nodeId.value)),
    ("params", some (stableMap self.params))]

def GenerationChoice.toValue (self : GenerationChoice) : JsonValue :=
  record [
    ("label", some (.string self.label)),
    ("value", some self.value.value.sortAllObjects),
    ("param_overrides", if self.paramOverrides = [] then none
      else some (.array (self.paramOverrides.map (·.toValue)))),
    ("active_subsequence", self.activeSubsequence.map .string)]

def choicesValue (choices : Choices) : JsonValue :=
  .object (choices.toList.map fun entry => (entry.1, entry.2.toValue))

/-- `to_hex(bytes)`. -/
def toHex (bytes : List UInt8) : String :=
  String.ofList (bytes.flatMap fun byte =>
    [Nat.digitChar (byte.toNat / 16), Nat.digitChar (byte.toNat % 16)])

theorem digitChar_injOn : ∀ m < 16, ∀ n < 16, Nat.digitChar m = Nat.digitChar n → m = n := by decide

theorem toHex_injective : Function.Injective toHex := by
  intro bytes bytes' h
  rw [toHex, toHex, String.ofList_inj] at h
  induction bytes generalizing bytes' with
  | nil =>
    cases bytes' with
    | nil => rfl
    | cons _ _ => simp at h
  | cons b bs ih =>
    cases bytes' with
    | nil => simp at h
    | cons b' bs' =>
      simp only [List.flatMap_cons, List.cons_append, List.nil_append, List.cons.injEq] at h
      obtain ⟨hhigh, hlow, hrest⟩ := h
      have hb := b.toNat_lt
      have hb' := b'.toNat_lt
      have hhigh := digitChar_injOn _ (by omega) _ (by omega) hhigh
      have hlow := digitChar_injOn _ (Nat.mod_lt _ (by decide)) _ (Nat.mod_lt _ (by decide)) hlow
      have hsame : b.toNat = b'.toNat := by omega
      rw [UInt8.toNat_inj.mp hsame, ih hrest]

section

variable (floats : FloatWriter) (sha256 : Digest)

def choicesFingerprint (choices : Choices) : String :=
  toHex (sha256 (utf8Bytes (String.ofList (render floats (choicesValue choices))))).toList

def variantFromChoices (rootSeed : Option UInt64) (choices : Choices) : Result VariantPlan := do
  let fingerprint := choicesFingerprint floats sha256 choices
  let suffix := if choices.isEmpty then "base" else String.ofList (fingerprint.toList.take 16)
  let variantId ← Id.new s!"variant:{suffix}"
  let seed := rootSeed.map fun seed =>
    ((SeedContext.root seed).child s!"variant:{variantId}").deriveU64 sha256 "variant"
  let variant : VariantPlan := { variantId, choices, fingerprint, seed }
  variant.validate
  pure variant

variable {floats sha256}

/-- A variant carries the choices it was made from. -/
theorem variantFromChoices_choices (h : variantFromChoices floats sha256 rootSeed choices = .ok v) :
    v.choices = choices := by
  simp only [variantFromChoices, bind_ok, pure_ok] at h
  obtain ⟨_, -, _, -, rfl⟩ := h
  rfl

end

end DagMl

import Mathlib
import DagMl.Error

/-!
# Identifiers

The thirteen identifier types of the crate share one grammar, so they are
one type indexed by what the identifier names. Order is the order of the
underlying strings.
-/

namespace DagMl

/-- `char::is_whitespace`: the Unicode `White_Space` property. -/
def isWhitespace (c : Char) : Bool :=
  (0x09 ≤ c.toNat && c.toNat ≤ 0x0d) || c.toNat = 0x20 || c.toNat = 0x85 || c.toNat = 0xa0 ||
    c.toNat = 0x1680 || (0x2000 ≤ c.toNat && c.toNat ≤ 0x200a) || c.toNat = 0x2028 ||
    c.toNat = 0x2029 || c.toNat = 0x202f || c.toNat = 0x205f || c.toNat = 0x3000

/-- `value.trim().is_empty()`. -/
def isBlank (s : String) : Bool := s.toList.all isWhitespace

/-- The byte class of an identifier; every member is ASCII. -/
def isIdentifierChar (c : Char) : Bool :=
  c.isAlphanum || c = '_' || c = '-' || c = '.' || c = ':'

def validateIdentifier (value : String) : Result Unit :=
  if value.isEmpty then
    .error (.invalidIdentifier value "identifier is empty")
  else if 128 < value.utf8ByteSize then
    .error (.invalidIdentifier value "identifier is longer than 128 bytes")
  else if !value.toList.all isIdentifierChar then
    .error (.invalidIdentifier value "identifier contains unsupported characters")
  else .ok ()

inductive IdKind
  | node | observation | sample | fold | target | group | controller | variant | run | bundle
  | artifact | lineage | branch
  deriving DecidableEq

/-- `define_id!`: a string the identifier grammar accepts. -/
structure Id (kind : IdKind) where
  value : String
  valid : validateIdentifier value = .ok ()

namespace Id

variable {kind : IdKind}

theorem value_injective : Function.Injective (value : Id kind → String) := by
  rintro ⟨a, ha⟩ ⟨b, hb⟩ h
  cases h
  rfl

theorem value_inj {a b : Id kind} : a.value = b.value ↔ a = b := value_injective.eq_iff

instance : LinearOrder (Id kind) := LinearOrder.lift' value value_injective

instance (priority := high) transCmp : Std.TransCmp (compare : Id kind → Id kind → Ordering) :=
  inferInstance

instance lawfulBEq : LawfulBEq (Id kind) := inferInstance

instance : ToString (Id kind) := ⟨value⟩

/-- `T::new(value)`. -/
def new (value : String) : Result (Id kind) :=
  match h : validateIdentifier value with
  | .ok () => .ok ⟨value, h⟩
  | .error e => .error e

theorem new_ok {value : String} {id : Id kind} : new value = .ok id ↔ id.value = value := by
  unfold new
  split
  · rename_i h
    rw [Except.ok.injEq, ← value_inj, eq_comm]
  · rename_i e h
    constructor
    · intro h; cases h
    · rintro rfl
      rw [id.valid] at h
      cases h

end Id

abbrev NodeId := Id .node
abbrev ObservationId := Id .observation
abbrev SampleId := Id .sample
abbrev FoldId := Id .fold

/-- `avg` names the fold of the average over folds. -/
theorem valid_avg : validateIdentifier "avg" = .ok () := by decide

abbrev TargetId := Id .target
abbrev GroupId := Id .group
abbrev ControllerId := Id .controller
abbrev VariantId := Id .variant
abbrev RunId := Id .run
abbrev LineageId := Id .lineage
abbrev ArtifactId := Id .artifact
abbrev BundleId := Id .bundle

end DagMl

import DagMl.Generation.Variant

/-!
# Typed canonical values

JSON values that keep integers apart from floats, and their binary encoding.
Text is hashed in its normal form, object keys in the order of theirs.
-/

namespace DagMl

open Checked

inductive Tcv1Error
  | invalidJson (offset : Nat) (message : String)
  | duplicateObjectKey (key : String) (offset : Nat)
  | nfcKeyCollision (first second : String) (offset : Nat)
  | integerOutOfRange (offset : Nat) (domain : String)
  | binary64OutOfRange (offset : Nat)
  | nestingTooDeep
  | nonFiniteBinary64
  | expectedObject
  | missingObjectKey (key : String)
  | ambiguousObjectKey (key : String)
  deriving DecidableEq

abbrev Tcv1Result := Except Tcv1Error

def maxNestingDepth : Nat := 128

inductive CanonicalInteger
  | signed (value : Int64)
  | unsigned (value : UInt64)
  deriving DecidableEq

def CanonicalInteger.decimal : CanonicalInteger → String
  | .signed value => toString value.toInt
  | .unsigned value => toString value.toNat

inductive TypedCanonicalValue
  | null
  | bool (value : Bool)
  | integer (value : CanonicalInteger)
  | binary64 (value : Binary64)
  | string (value : String)
  | array (values : List TypedCanonicalValue)
  | object (entries : List (String × TypedCanonicalValue))

namespace TypedCanonicalValue

mutual
/-- The number of values in a value, itself included. -/
def nodes : TypedCanonicalValue → Nat
  | .array values => 1 + nodesOfValues values
  | .object entries => 1 + nodesOfEntries entries
  | _ => 1

def nodesOfValues : List TypedCanonicalValue → Nat
  | [] => 0
  | value :: values => value.nodes + nodesOfValues values

def nodesOfEntries : List (String × TypedCanonicalValue) → Nat
  | [] => 0
  | (_, value) :: entries => value.nodes + nodesOfEntries entries
end

theorem nodesOfValues_append (values values' : List TypedCanonicalValue) :
    nodesOfValues (values ++ values') = nodesOfValues values + nodesOfValues values' := by
  induction values with
  | nil => simp [nodesOfValues]
  | cons value values ih => rw [List.cons_append, nodesOfValues, nodesOfValues, ih, Nat.add_assoc]

theorem nodesOfEntries_append (entries entries' : List (String × TypedCanonicalValue)) :
    nodesOfEntries (entries ++ entries') = nodesOfEntries entries + nodesOfEntries entries' := by
  induction entries with
  | nil => simp [nodesOfEntries]
  | cons entry entries ih =>
    rw [List.cons_append, nodesOfEntries, nodesOfEntries, ih, Nat.add_assoc]

end TypedCanonicalValue

-- ---------------------------------------------------------------------------
-- Encoding
-- ---------------------------------------------------------------------------

/-- An ASCII byte. -/
def byteOf (c : Char) : UInt8 := UInt8.ofNat c.toNat

/-- `n.to_be_bytes()` of a `u64`. -/
def toBeBytes (n : UInt64) : List UInt8 := (toLeBytes n).reverse

/-- A length is a `usize`, which always fits. -/
def encodeLength (length : Nat) : List UInt8 := toBeBytes (UInt64.ofNat length)

def encodeNormalizedString (payload : List UInt8) : List UInt8 :=
  byteOf 'S' :: encodeLength payload.length ++ payload

section Encode

variable (nfc : String → String)

/-- The normal form; ASCII is its own. -/
def normalizeText (value : String) : String :=
  if value.toList.all fun c => c.toNat < 128 then value else nfc value

/-- One key; the map takes the normal forms seen to the keys they came from. -/
def checkKey (offset : Nat) (normalizedKeys : BTreeMap String String) (key : String) :
    Tcv1Result (BTreeMap String String) :=
  match normalizedKeys[normalizeText nfc key]? with
  | some first => .error
    (if first = key then .duplicateObjectKey key offset else .nfcKeyCollision first key offset)
  | none => .ok (normalizedKeys.insert (normalizeText nfc key) key)

/-- An object, its members encoded: a member that fails does so in its turn. -/
def encodeObject (members : List (String × Tcv1Result (List UInt8))) : Tcv1Result (List UInt8) := do
  let _ ← loop (checkKey nfc 0) ∅ (members.map Prod.fst)
  let sorted := Keyed.sortBy Prod.fst (members.map fun (key, value) => (normalizeText nfc key, value))
  let parts ← collect sorted fun (normalizedKey, value) => do
    let bytes ← value
    pure (encodeNormalizedString (utf8Bytes normalizedKey) ++ bytes)
  pure (byteOf 'O' :: encodeLength members.length ++ parts.flatten)

mutual
def encodeValue (value : TypedCanonicalValue) (depth : Nat) : Tcv1Result (List UInt8) := do
  refuseIf (maxNestingDepth < depth) .nestingTooDeep
  match value with
  | .null => pure [byteOf 'N']
  | .bool false => pure [byteOf 'F']
  | .bool true => pure [byteOf 'T']
  | .integer value =>
    let payload := utf8Bytes value.decimal
    pure (byteOf 'I' :: encodeLength payload.length ++ payload)
  | .binary64 value => do
    refuseIf (value.isFinite = false) .nonFiniteBinary64
    let normalized := if value.isZero then .zero else value
    pure (byteOf 'D' :: toBeBytes normalized.bits)
  | .string value => pure (encodeNormalizedString (utf8Bytes (normalizeText nfc value)))
  | .array values => do
    let items ← encodeItems values (depth + 1)
    pure (byteOf 'A' :: encodeLength values.length ++ items)
  | .object entries => encodeObject nfc (encodeMembers entries (depth + 1))

def encodeItems (values : List TypedCanonicalValue) (depth : Nat) : Tcv1Result (List UInt8) :=
  match values with
  | [] => .ok []
  | value :: values => do
    let bytes ← encodeValue value depth
    let rest ← encodeItems values depth
    pure (bytes ++ rest)

def encodeMembers (entries : List (String × TypedCanonicalValue)) (depth : Nat) :
    List (String × Tcv1Result (List UInt8)) :=
  match entries with
  | [] => []
  | (key, value) :: entries => (key, encodeValue value depth) :: encodeMembers entries depth
end

def tcv1Encode (value : TypedCanonicalValue) : Tcv1Result (List UInt8) := encodeValue nfc value 0

/-- `b"DAGML-TCV1\0"`. -/
def tcv1Prefix : List UInt8 := "DAGML-TCV1".toList.map byteOf ++ [0]

def tcv1Preimage (value : TypedCanonicalValue) : Tcv1Result (List UInt8) := do
  let bytes ← encodeValue nfc value 0
  pure (tcv1Prefix ++ bytes)

def tcv1Sha256 (sha256 : Digest) (value : TypedCanonicalValue) : Tcv1Result String := do
  let preimage ← tcv1Preimage nfc value
  pure (toHex (sha256 preimage).toList)

-- ---------------------------------------------------------------------------
-- What can be encoded
-- ---------------------------------------------------------------------------

/-- The value encodes at a depth. -/
def Encodes (value : TypedCanonicalValue) (depth : Nat) : Prop :=
  ∃ bytes, encodeValue nfc value depth = .ok bytes

variable {nfc}

section

-- its equations are derived here once, for all the lemmas below
attribute [local simp] encodeValue

theorem encodeMembers_eq (entries : List (String × TypedCanonicalValue)) (depth : Nat) :
    encodeMembers nfc entries depth = entries.map fun e => (e.1, encodeValue nfc e.2 depth) := by
  induction entries with
  | nil => rfl
  | cons e entries ih => rw [encodeMembers, ih, List.map_cons]

theorem encodeItems_ok {values : List TypedCanonicalValue} {depth : Nat}
    (h : ∀ value ∈ values, Encodes nfc value depth) :
    ∃ bytes, encodeItems nfc values depth = .ok bytes := by
  induction values with
  | nil => exact ⟨[], rfl⟩
  | cons value values ih =>
    rw [List.forall_mem_cons] at h
    obtain ⟨⟨bytes, hbytes⟩, hrest⟩ := h
    obtain ⟨rest, hrest⟩ := ih hrest
    rw [encodeItems, hbytes, hrest]
    exact ⟨_, rfl⟩

/-- Keys of distinct normal forms pass. -/
theorem checkKey_loop {keys : List String} {seen : BTreeMap String String}
    (hnodup : (keys.map (normalizeText nfc)).Nodup)
    (hnew : ∀ key ∈ keys, seen[normalizeText nfc key]? = none) :
    ∃ seen', loop (checkKey nfc 0) seen keys = .ok seen' := by
  induction keys generalizing seen with
  | nil => exact ⟨seen, rfl⟩
  | cons key keys ih =>
    rw [List.map_cons, List.nodup_cons] at hnodup
    rw [List.forall_mem_cons] at hnew
    have hstep : checkKey nfc 0 seen key = .ok (seen.insert (normalizeText nfc key) key) := by
      rw [checkKey, hnew.1]
    have hnext : ∀ other ∈ keys,
        (seen.insert (normalizeText nfc key) key)[normalizeText nfc other]? = none := by
      intro other hother
      have hne : normalizeText nfc key ≠ normalizeText nfc other := fun heq =>
        hnodup.1 (heq ▸ List.mem_map_of_mem hother)
      rw [BTreeMap.getElem?_insert, if_neg hne]
      exact hnew.2 other hother
    obtain ⟨seen', hrest⟩ := ih hnodup.2 hnext
    exact ⟨seen', loop_cons.mpr ⟨_, hstep, hrest⟩⟩

/-- Objects whose members encode and whose keys differ in normal form encode. -/
theorem encodeObject_ok {members : List (String × Tcv1Result (List UInt8))}
    (hnodup : (members.map fun e => normalizeText nfc e.1).Nodup)
    (h : ∀ e ∈ members, ∃ bytes, e.2 = .ok bytes) :
    ∃ bytes, encodeObject nfc members = .ok bytes := by
  have hkeys : ((members.map Prod.fst).map (normalizeText nfc)).Nodup := by rwa [List.map_map]
  have hempty : ∀ key ∈ members.map Prod.fst,
      (∅ : BTreeMap String String)[normalizeText nfc key]? = none := by simp
  obtain ⟨seen, hseen⟩ := checkKey_loop hkeys hempty
  obtain ⟨parts, hparts⟩ : ∃ parts, collect (Keyed.sortBy Prod.fst (members.map
      fun (key, value) => (normalizeText nfc key, value))) (fun (normalizedKey, value) => do
        let bytes ← value
        pure (encodeNormalizedString (utf8Bytes normalizedKey) ++ bytes)) = .ok parts := by
    refine exists_collect fun e he => ?_
    obtain ⟨member, hmember, rfl⟩ := List.mem_map.mp (Keyed.mem_sortBy.mp he)
    obtain ⟨bytes, hbytes⟩ := h member hmember
    simp only [hbytes]
    exact ⟨_, rfl⟩
  simp only [encodeObject, bind_ok]
  exact ⟨_, seen, hseen, parts, hparts, rfl⟩

variable {depth : Nat}

theorem encodes_null (h : depth ≤ maxNestingDepth) : Encodes nfc .null depth := by
  simp only [Encodes, encodeValue, bind_ok, refuseIf_ok]
  exact ⟨_, (), not_lt.mpr h, rfl⟩

theorem encodes_bool (h : depth ≤ maxNestingDepth) (b : Bool) : Encodes nfc (.bool b) depth := by
  cases b <;> simp only [Encodes, encodeValue, bind_ok, refuseIf_ok] <;>
    exact ⟨_, (), not_lt.mpr h, rfl⟩

theorem encodes_integer (h : depth ≤ maxNestingDepth) (n : CanonicalInteger) :
    Encodes nfc (.integer n) depth := by
  simp only [Encodes, encodeValue, bind_ok, refuseIf_ok]
  exact ⟨_, (), not_lt.mpr h, rfl⟩

theorem encodes_binary64 (h : depth ≤ maxNestingDepth) {x : Binary64} (hx : x.isFinite = true) :
    Encodes nfc (.binary64 x) depth := by
  simp only [Encodes, encodeValue, bind_ok, refuseIf_ok]
  exact ⟨_, (), not_lt.mpr h, (), by simp [hx], rfl⟩

theorem encodes_string (h : depth ≤ maxNestingDepth) (text : String) :
    Encodes nfc (.string text) depth := by
  simp only [Encodes, encodeValue, bind_ok, refuseIf_ok]
  exact ⟨_, (), not_lt.mpr h, rfl⟩

theorem encodes_array (h : depth ≤ maxNestingDepth) {values : List TypedCanonicalValue}
    (hvalues : ∀ value ∈ values, Encodes nfc value (depth + 1)) :
    Encodes nfc (.array values) depth := by
  obtain ⟨items, hitems⟩ := encodeItems_ok hvalues
  simp only [Encodes, encodeValue, bind_ok, refuseIf_ok]
  exact ⟨_, (), not_lt.mpr h, items, hitems, rfl⟩

theorem encodes_object (h : depth ≤ maxNestingDepth)
    {entries : List (String × TypedCanonicalValue)}
    (hnodup : (entries.map fun e => normalizeText nfc e.1).Nodup)
    (hentries : ∀ e ∈ entries, Encodes nfc e.2 (depth + 1)) :
    Encodes nfc (.object entries) depth := by
  have hkeys : ((encodeMembers nfc entries (depth + 1)).map fun e => normalizeText nfc e.1).Nodup := by
    rw [encodeMembers_eq, List.map_map]
    exact hnodup
  have hmembers : ∀ e ∈ encodeMembers nfc entries (depth + 1), ∃ bytes, e.2 = .ok bytes := by
    rw [encodeMembers_eq, List.forall_mem_map]
    exact hentries
  obtain ⟨bytes, hbytes⟩ := encodeObject_ok hkeys hmembers
  simp only [Encodes, encodeValue, bind_ok, refuseIf_ok]
  exact ⟨bytes, (), not_lt.mpr h, hbytes⟩

end

theorem tcv1Sha256_ok {sha256 : Digest} {value : TypedCanonicalValue} (h : Encodes nfc value 0) :
    ∃ fingerprint, tcv1Sha256 nfc sha256 value = .ok fingerprint := by
  obtain ⟨bytes, hbytes⟩ := h
  simp only [tcv1Sha256, tcv1Preimage, bind_ok, pure_ok]
  exact ⟨_, _, ⟨bytes, hbytes, rfl⟩, rfl⟩

end Encode

end DagMl

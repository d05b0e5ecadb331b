import DagMl.Canonical.Value
import DagMl.Lib.Framing
import DagMl.Runtime.Seeds

/-!
# What a typed canonical value says

The form of a value forgets what the encoding forgets: the domain an integer
was read in, the sign of a zero, how a text was composed and the order of the
members of an object. The encoding writes the form and nothing else, and no
form's bytes begin another's.
-/

namespace DagMl

open Checked Framing

inductive CanonicalForm
  | null
  | bool (value : Bool)
  | integer (value : Int)
  | binary64 (value : Binary64)
  | string (value : String)
  | array (values : List CanonicalForm)
  | object (entries : List (String × CanonicalForm))

def CanonicalInteger.toInt : CanonicalInteger → Int
  | .signed value => value.toInt
  | .unsigned value => value.toNat

theorem CanonicalInteger.decimal_eq (n : CanonicalInteger) : n.decimal = toString n.toInt := by
  cases n <;> rfl

namespace TypedCanonicalValue

variable (nfc : String → String)

mutual
/-- Members in the order of their normal keys. -/
def form : TypedCanonicalValue → CanonicalForm
  | .null => .null
  | .bool value => .bool value
  | .integer value => .integer value.toInt
  | .binary64 value => .binary64 (if value.isZero then .zero else value)
  | .string value => .string (normalizeText nfc value)
  | .array values => .array (formOfValues values)
  | .object entries => .object (Keyed.sortBy Prod.fst (formOfEntries entries))

def formOfValues : List TypedCanonicalValue → List CanonicalForm
  | [] => []
  | value :: values => value.form :: formOfValues values

def formOfEntries : List (String × TypedCanonicalValue) → List (String × CanonicalForm)
  | [] => []
  | (key, value) :: entries => (normalizeText nfc key, value.form) :: formOfEntries entries
end

variable {nfc}

theorem formOfValues_eq (values : List TypedCanonicalValue) :
    formOfValues nfc values = values.map (form nfc) := by
  induction values with
  | nil => rfl
  | cons value values ih => rw [formOfValues, ih, List.map_cons]

theorem formOfEntries_eq (entries : List (String × TypedCanonicalValue)) :
    formOfEntries nfc entries = entries.map fun e => (normalizeText nfc e.1, e.2.form nfc) := by
  induction entries with
  | nil => rfl
  | cons e entries ih => rw [formOfEntries, ih, List.map_cons]

/-- A value is reached from the values it is made of. -/
theorem byParts {motive : TypedCanonicalValue → Prop} (null : motive .null)
    (bool : ∀ b, motive (.bool b)) (integer : ∀ n, motive (.integer n))
    (binary64 : ∀ x, motive (.binary64 x)) (string : ∀ s, motive (.string s))
    (array : ∀ values, (∀ value ∈ values, motive value) → motive (.array values))
    (object : ∀ entries, (∀ e ∈ entries, motive e.2) → motive (.object entries)) :
    ∀ value, motive value
  | .null => null
  | .bool b => bool b
  | .integer n => integer n
  | .binary64 x => binary64 x
  | .string s => string s
  | .array values => array values fun value _ =>
    byParts null bool integer binary64 string array object value
  | .object entries => object entries fun e he =>
    have : sizeOf e.2 < 1 + sizeOf entries := by
      have := List.sizeOf_lt_of_mem he
      cases e
      simp only [Prod.mk.sizeOf_spec] at this ⊢
      omega
    byParts null bool integer binary64 string array object e.2

end TypedCanonicalValue

namespace CanonicalForm

theorem byParts {motive : CanonicalForm → Prop} (null : motive .null)
    (bool : ∀ b, motive (.bool b)) (integer : ∀ n, motive (.integer n))
    (binary64 : ∀ x, motive (.binary64 x)) (string : ∀ s, motive (.string s))
    (array : ∀ values, (∀ value ∈ values, motive value) → motive (.array values))
    (object : ∀ entries, (∀ e ∈ entries, motive e.2) → motive (.object entries)) :
    ∀ value, motive value
  | .null => null
  | .bool b => bool b
  | .integer n => integer n
  | .binary64 x => binary64 x
  | .string s => string s
  | .array values => array values fun value _ =>
    byParts null bool integer binary64 string array object value
  | .object entries => object entries fun e he =>
    have : sizeOf e.2 < 1 + sizeOf entries := by
      have := List.sizeOf_lt_of_mem he
      cases e
      simp only [Prod.mk.sizeOf_spec] at this ⊢
      omega
    byParts null bool integer binary64 string array object e.2

-- ---------------------------------------------------------------------------
-- The bytes of a form
-- ---------------------------------------------------------------------------

def tag : CanonicalForm → Char
  | .null => 'N'
  | .bool false => 'F'
  | .bool true => 'T'
  | .integer _ => 'I'
  | .binary64 _ => 'D'
  | .string _ => 'S'
  | .array _ => 'A'
  | .object _ => 'O'

def lengthPrefixed (payload : List UInt8) : List UInt8 := encodeLength payload.length ++ payload

mutual
def body : CanonicalForm → List UInt8
  | .null | .bool _ => []
  | .integer value => lengthPrefixed (utf8Bytes (toString value))
  | .binary64 value => toBeBytes value.bits
  | .string value => lengthPrefixed (utf8Bytes value)
  | .array values => encodeLength values.length ++ bytesOfValues values
  | .object entries => encodeLength entries.length ++ bytesOfEntries entries

def bytesOfValues : List CanonicalForm → List UInt8
  | [] => []
  | value :: values => byteOf value.tag :: value.body ++ bytesOfValues values

def bytesOfEntries : List (String × CanonicalForm) → List UInt8
  | [] => []
  | (key, value) :: entries =>
    encodeNormalizedString (utf8Bytes key) ++ (byteOf value.tag :: value.body) ++
      bytesOfEntries entries
end

def bytes (value : CanonicalForm) : List UInt8 := byteOf value.tag :: value.body

def entryBytes (entry : String × CanonicalForm) : List UInt8 :=
  encodeNormalizedString (utf8Bytes entry.1) ++ entry.2.bytes

theorem bytesOfValues_eq (values : List CanonicalForm) :
    bytesOfValues values = values.flatMap bytes := by
  induction values with
  | nil => rfl
  | cons value values ih => rw [bytesOfValues, ih, List.flatMap_cons, bytes, List.cons_append]

theorem bytesOfEntries_eq (entries : List (String × CanonicalForm)) :
    bytesOfEntries entries = entries.flatMap entryBytes := by
  induction entries with
  | nil => rfl
  | cons e entries ih => rw [bytesOfEntries, ih, List.flatMap_cons, entryBytes, bytes]

/-- Every length in it is a `usize`. -/
inductive Sized : CanonicalForm → Prop
  | null : Sized .null
  | bool (b) : Sized (.bool b)
  | integer : (utf8Bytes (toString n)).length < 2 ^ 64 → Sized (.integer n)
  | binary64 (x) : Sized (.binary64 x)
  | string : (utf8Bytes s).length < 2 ^ 64 → Sized (.string s)
  | array : values.length < 2 ^ 64 → (∀ value ∈ values, Sized value) → Sized (.array values)
  | object : entries.length < 2 ^ 64 → (∀ e ∈ entries, (utf8Bytes e.1).length < 2 ^ 64) →
      (∀ e ∈ entries, Sized e.2) → Sized (.object entries)

theorem length_header : Header encodeLength 8 (2 ^ 64) where
  length_eq n := by rw [encodeLength, toBeBytes, List.length_reverse, length_toLeBytes]
  inj m n hm hn h := by
    have hwords := toLeBytes_injective (List.reverse_inj.mp h)
    have hnat := congrArg UInt64.toNat hwords
    rwa [UInt64.toNat_ofNat_of_lt' hm, UInt64.toNat_ofNat_of_lt' hn] at hnat

/-- A text led by its length, whatever follows. -/
theorem lengthPrefixed_cancel {s s' : String} {r r' : List UInt8}
    (hs : (utf8Bytes s).length < 2 ^ 64) (hs' : (utf8Bytes s').length < 2 ^ 64)
    (h : lengthPrefixed (utf8Bytes s) ++ r = lengthPrefixed (utf8Bytes s') ++ r') :
    s = s' ∧ r = r' := by
  obtain ⟨hbytes, hrest⟩ := length_header.cancel_part hs hs' h
  exact ⟨utf8Bytes_injective hbytes, hrest⟩

theorem entryBytes_cancels {entry : String × CanonicalForm}
    (hkey : (utf8Bytes entry.1).length < 2 ^ 64)
    (h : Cancels Sized (fun _ => True) bytes entry.2) :
    Cancels (fun e => (utf8Bytes e.1).length < 2 ^ 64 ∧ Sized e.2) (fun _ => True) entryBytes
      entry := by
  rintro ⟨key', value'⟩ r r' ⟨hkey', hvalue'⟩ - - heq
  have hparts : lengthPrefixed (utf8Bytes entry.1) ++ (entry.2.bytes ++ r) =
      lengthPrefixed (utf8Bytes key') ++ (value'.bytes ++ r') := by
    simpa [entryBytes, encodeNormalizedString, lengthPrefixed] using heq
  obtain ⟨hsame, hrest⟩ := lengthPrefixed_cancel hkey hkey' hparts
  obtain ⟨hvalue, hrest⟩ := h value' _ _ hvalue' trivial trivial hrest
  exact ⟨Prod.ext hsame hvalue, hrest⟩

/-- No form's bytes begin another's. -/
theorem bytes_cancels {value : CanonicalForm} (hvalue : value.Sized) :
    Cancels Sized (fun _ => True) bytes value := by
  induction value using byParts with
  | null =>
    intro value' r r' hvalue' _ _ heq
    obtain ⟨htag, hbody⟩ := List.cons.inj heq
    cases value' with
    | null => exact ⟨rfl, hbody⟩
    | bool b => cases b <;> simp [tag, byteOf] at htag
    | _ => simp [tag, byteOf] at htag
  | bool b =>
    intro value' r r' hvalue' _ _ heq
    obtain ⟨htag, hbody⟩ := List.cons.inj heq
    cases value' with
    | bool b' => cases b <;> cases b' <;> simp [tag, byteOf] at htag <;> exact ⟨rfl, hbody⟩
    | _ => cases b <;> simp [tag, byteOf] at htag
  | integer n =>
    intro value' r r' hvalue' _ _ heq
    obtain ⟨htag, hbody⟩ := List.cons.inj heq
    cases hvalue with
    | integer hn =>
      cases hvalue' with
      | integer hn' =>
        obtain ⟨hsame, hrest⟩ := lengthPrefixed_cancel hn hn' hbody
        exact ⟨congrArg integer (Int.repr_injective hsame), hrest⟩
      | bool b => cases b <;> simp [tag, byteOf] at htag
      | _ => simp [tag, byteOf] at htag
  | binary64 x =>
    intro value' r r' hvalue' _ _ heq
    obtain ⟨htag, hbody⟩ := List.cons.inj heq
    cases value' with
    | binary64 y =>
      obtain ⟨hbits, hrest⟩ := List.append_inj hbody (by simp [body, toBeBytes, length_toLeBytes])
      have hbits := toLeBytes_injective (List.reverse_inj.mp hbits)
      exact ⟨congrArg binary64 (Binary64.ext hbits), hrest⟩
    | bool b => cases b <;> simp [tag, byteOf] at htag
    | _ => simp [tag, byteOf] at htag
  | string s =>
    intro value' r r' hvalue' _ _ heq
    obtain ⟨htag, hbody⟩ := List.cons.inj heq
    cases hvalue with
    | string hs =>
      cases hvalue' with
      | string hs' =>
        obtain ⟨hsame, hrest⟩ := lengthPrefixed_cancel hs hs' hbody
        exact ⟨congrArg string hsame, hrest⟩
      | bool b => cases b <;> simp [tag, byteOf] at htag
      | _ => simp [tag, byteOf] at htag
  | array values ih =>
    intro value' r r' hvalue' _ _ heq
    obtain ⟨htag, hbody⟩ := List.cons.inj heq
    cases hvalue with
    | array hlength hsized =>
      cases hvalue' with
      | array hlength' hsized' =>
        rw [body, body, bytesOfValues_eq, bytesOfValues_eq] at hbody
        obtain ⟨rfl, hrest⟩ := length_header.cancel_parts hlength hlength'
          (fun value h => ih value h (hsized value h)) hsized' hbody
        exact ⟨rfl, hrest⟩
      | bool b => cases b <;> simp [tag, byteOf] at htag
      | _ => simp [tag, byteOf] at htag
  | object entries ih =>
    intro value' r r' hvalue' _ _ heq
    obtain ⟨htag, hbody⟩ := List.cons.inj heq
    cases hvalue with
    | object hlength hkeys hsized =>
      cases hvalue' with
      | object hlength' hkeys' hsized' =>
        rw [body, body, bytesOfEntries_eq, bytesOfEntries_eq] at hbody
        obtain ⟨rfl, hrest⟩ := length_header.cancel_parts hlength hlength'
          (fun e h => entryBytes_cancels (hkeys e h) (ih e h (hsized e h)))
          (fun e h => ⟨hkeys' e h, hsized' e h⟩) hbody
        exact ⟨rfl, hrest⟩
      | bool b => cases b <;> simp [tag, byteOf] at htag
      | _ => simp [tag, byteOf] at htag

theorem bytes_inj {value value' : CanonicalForm} (h : value.Sized) (h' : value'.Sized) :
    value.bytes = value'.bytes ↔ value = value' := by
  constructor
  · intro heq
    exact (bytes_cancels h value' [] [] h' trivial trivial (by rw [heq])).1
  · rintro rfl
    rfl

end CanonicalForm

-- ---------------------------------------------------------------------------
-- The encoding writes the form
-- ---------------------------------------------------------------------------

namespace TypedCanonicalValue

variable {nfc : String → String}

theorem encodeItems_bytes {values : List TypedCanonicalValue} {depth : Nat} {bytes : List UInt8}
    (ih : ∀ value ∈ values, ∀ bytes, encodeValue nfc value depth = .ok bytes →
      bytes = (value.form nfc).bytes) (h : encodeItems nfc values depth = .ok bytes) :
    bytes = (values.map (form nfc)).flatMap CanonicalForm.bytes := by
  induction values generalizing bytes with
  | nil =>
    cases h
    rfl
  | cons value values ihs =>
    rw [List.forall_mem_cons] at ih
    simp only [encodeItems, bind_ok, pure_ok] at h
    obtain ⟨head, hhead, rest, hrest, rfl⟩ := h
    rw [ih.1 head hhead, ihs ih.2 hrest, List.map_cons, List.flatMap_cons]

theorem form_object (entries : List (String × TypedCanonicalValue)) :
    form nfc (.object entries) = .object ((Keyed.sortBy (fun e => normalizeText nfc e.1) entries).map
      fun e => (normalizeText nfc e.1, e.2.form nfc)) := by
  rw [form, formOfEntries_eq, Keyed.sortBy_map]

theorem encodeObject_bytes {entries : List (String × TypedCanonicalValue)} {depth : Nat}
    {bytes : List UInt8}
    (ih : ∀ e ∈ entries, ∀ bytes, encodeValue nfc e.2 depth = .ok bytes →
      bytes = (e.2.form nfc).bytes)
    (h : encodeObject nfc (encodeMembers nfc entries depth) = .ok bytes) :
    bytes = (form nfc (.object entries)).bytes := by
  rw [encodeMembers_eq] at h
  simp only [encodeObject, bind_ok, pure_ok, collect_ok, List.map_map, Function.comp_def,
    Keyed.sortBy_map, List.forall₂_map_left_iff] at h
  obtain ⟨-, -, parts, hparts, rfl⟩ := h
  have hentries : parts = (Keyed.sortBy (fun e => normalizeText nfc e.1) entries).map fun e =>
      CanonicalForm.entryBytes (normalizeText nfc e.1, e.2.form nfc) := by
    have hsorted := (List.forall₂_and_left _ _).mpr ⟨fun e he => Keyed.mem_sortBy.mp he, hparts⟩
    have heq : List.Forall₂ (· = ·) ((Keyed.sortBy (fun e => normalizeText nfc e.1) entries).map
        fun e => CanonicalForm.entryBytes (normalizeText nfc e.1, e.2.form nfc)) parts := by
      refine List.forall₂_map_left_iff.mpr (hsorted.imp ?_)
      rintro e part ⟨he, bytes, hbytes, rfl⟩
      rw [CanonicalForm.entryBytes, ih e he bytes hbytes]
    exact (List.forall₂_eq_eq_eq ▸ heq).symm
  rw [form_object, CanonicalForm.bytes, CanonicalForm.body, CanonicalForm.bytesOfEntries_eq,
    hentries, List.flatMap_map, List.length_map, List.length_map,
    (Keyed.perm_sortBy _ entries).length_eq]
  simp [List.flatMap_def, CanonicalForm.tag]

/-- What the encoding writes is the form. -/
theorem encodeValue_bytes {value : TypedCanonicalValue} {depth : Nat} {bytes : List UInt8}
    (h : encodeValue nfc value depth = .ok bytes) : bytes = (value.form nfc).bytes := by
  induction value using byParts generalizing depth bytes with
  | null =>
    simp only [encodeValue, bind_ok, pure_ok] at h
    obtain ⟨_, -, rfl⟩ := h
    rfl
  | bool b =>
    cases b <;> simp only [encodeValue, bind_ok, pure_ok] at h <;> obtain ⟨_, -, rfl⟩ := h <;> rfl
  | integer n =>
    simp only [encodeValue, bind_ok, pure_ok, CanonicalInteger.decimal_eq] at h
    obtain ⟨_, -, rfl⟩ := h
    rfl
  | binary64 x =>
    simp only [encodeValue, bind_ok, pure_ok] at h
    obtain ⟨_, -, _, -, rfl⟩ := h
    rfl
  | string s =>
    simp only [encodeValue, bind_ok, pure_ok] at h
    obtain ⟨_, -, rfl⟩ := h
    rfl
  | array values ih =>
    simp only [encodeValue, bind_ok, pure_ok] at h
    obtain ⟨_, -, items, hitems, rfl⟩ := h
    rw [encodeItems_bytes (fun value hvalue bytes => ih value hvalue) hitems, form, formOfValues_eq,
      CanonicalForm.bytes, CanonicalForm.body, CanonicalForm.bytesOfValues_eq, List.length_map]
    rfl
  | object entries ih =>
    simp only [encodeValue, bind_ok] at h
    obtain ⟨_, -, hobject⟩ := h
    exact encodeObject_bytes (fun e he bytes => ih e he) hobject

end TypedCanonicalValue

end DagMl

import DagMl.Canonical.Form

/-!
# Documents that carry their own fingerprint

The fingerprint of an object without one of its members. The member is found
by the normal form of its key among the keys of the object itself, and must be
there exactly once.
-/

namespace DagMl

open Checked

namespace TypedCanonicalValue

abbrev Entries := List (String × TypedCanonicalValue)

section

variable (nfc : String → String)

/-- One member: counted under the key, kept under any other. -/
def takeMember (normalizedKey : String) (state : Nat × Entries)
    (entry : String × TypedCanonicalValue) : Nat × Entries :=
  if normalizeText nfc entry.1 = normalizedKey then (state.1 + 1, state.2)
  else (state.1, state.2 ++ [entry])

/-- The bytes `fingerprint_without` hashes. -/
def preimageWithout (value : TypedCanonicalValue) (key : String) : Tcv1Result (List UInt8) :=
  match value with
  | .object entries =>
    let normalizedKey := normalizeText nfc key
    let state := entries.foldl (takeMember nfc normalizedKey) (0, [])
    match state.1 with
    | 0 => .error (.missingObjectKey normalizedKey)
    | 1 => do
      let bytes ← encodeObject nfc (encodeMembers nfc state.2 1)
      pure (tcv1Prefix ++ bytes)
    | _ => .error (.ambiguousObjectKey normalizedKey)
  | _ => .error .expectedObject

def fingerprintWithout (sha256 : Digest) (value : TypedCanonicalValue) (key : String) :
    Tcv1Result String := do
  let preimage ← value.preimageWithout nfc key
  pure (toHex (sha256 preimage).toList)

end

variable {nfc : String → String}

-- ---------------------------------------------------------------------------
-- The member that is taken out
-- ---------------------------------------------------------------------------

/-- The members under a key, up to normal form. -/
def membersAt (nfc : String → String) (key : String) (entries : Entries) : Entries :=
  entries.filter fun e => normalizeText nfc e.1 = normalizeText nfc key

def withoutKey (nfc : String → String) (key : String) (entries : Entries) : Entries :=
  entries.filter fun e => normalizeText nfc e.1 ≠ normalizeText nfc key

theorem foldl_takeMember (key : String) (entries : Entries) (removed : Nat) (filtered : Entries) :
    entries.foldl (takeMember nfc (normalizeText nfc key)) (removed, filtered) =
      (removed + (membersAt nfc key entries).length, filtered ++ withoutKey nfc key entries) := by
  induction entries generalizing removed filtered with
  | nil => simp [membersAt, withoutKey]
  | cons e entries ih =>
    rw [List.foldl_cons]
    by_cases h : normalizeText nfc e.1 = normalizeText nfc key
    · rw [takeMember, if_pos h, ih]
      simp [membersAt, withoutKey, h, Nat.add_assoc, Nat.add_comm]
    · rw [takeMember, if_neg h, ih]
      simp [membersAt, withoutKey, h]

theorem preimageWithout_missing {entries : Entries} {key : String}
    (h : (membersAt nfc key entries).length = 0) :
    preimageWithout nfc (.object entries) key = .error (.missingObjectKey (normalizeText nfc key)) := by
  rw [preimageWithout, foldl_takeMember, h]
  rfl

theorem preimageWithout_once {entries : Entries} {key : String}
    (h : (membersAt nfc key entries).length = 1) :
    preimageWithout nfc (.object entries) key =
      tcv1Preimage nfc (.object (withoutKey nfc key entries)) := by
  rw [preimageWithout, foldl_takeMember, h, tcv1Preimage, encodeValue]
  rfl

theorem preimageWithout_ambiguous {entries : Entries} {key : String}
    (h : 1 < (membersAt nfc key entries).length) :
    preimageWithout nfc (.object entries) key =
      .error (.ambiguousObjectKey (normalizeText nfc key)) := by
  obtain ⟨n, hn⟩ := Nat.exists_eq_add_of_le' h
  rw [preimageWithout, foldl_takeMember, hn, Nat.zero_add]
  rfl

theorem once_of_preimageWithout {entries : Entries} {key : String} {bytes : List UInt8}
    (h : preimageWithout nfc (.object entries) key = .ok bytes) :
    (membersAt nfc key entries).length = 1 := by
  rcases Nat.lt_trichotomy (membersAt nfc key entries).length 1 with hlt | honce | hgt
  · rw [preimageWithout_missing (Nat.lt_one_iff.mp hlt)] at h
    cases h
  · exact honce
  · rw [preimageWithout_ambiguous hgt] at h
    cases h

/-- Hashed bytes are told apart by the form of what is hashed. -/
theorem tcv1Preimage_inj {value value' : TypedCanonicalValue} {bytes bytes' : List UInt8}
    (hsized : (value.form nfc).Sized) (hsized' : (value'.form nfc).Sized)
    (h : tcv1Preimage nfc value = .ok bytes) (h' : tcv1Preimage nfc value' = .ok bytes') :
    bytes = bytes' ↔ value.form nfc = value'.form nfc := by
  simp only [tcv1Preimage, bind_ok, pure_ok] at h h'
  obtain ⟨encoded, hencoded, rfl⟩ := h
  obtain ⟨encoded', hencoded', rfl⟩ := h'
  rw [List.append_cancel_left_eq, encodeValue_bytes hencoded, encodeValue_bytes hencoded',
    CanonicalForm.bytes_inj hsized hsized']

theorem membersAt_insert {before after : Entries} {key k : String} {value : TypedCanonicalValue}
    (h : normalizeText nfc k = normalizeText nfc key) :
    (membersAt nfc key (before ++ (k, value) :: after)).length =
      (membersAt nfc key (before ++ after)).length + 1 := by
  simp [membersAt, h, Nat.add_assoc]

theorem withoutKey_insert {before after : Entries} {key k : String} {value : TypedCanonicalValue}
    (h : normalizeText nfc k = normalizeText nfc key) :
    withoutKey nfc key (before ++ (k, value) :: after) = withoutKey nfc key (before ++ after) := by
  simp [withoutKey, h]

/-- The value of a member under the key plays no part, whatever the outcome. -/
theorem preimageWithout_value {before after : Entries} {key k : String}
    (h : normalizeText nfc k = normalizeText nfc key) (value value' : TypedCanonicalValue) :
    preimageWithout nfc (.object (before ++ (k, value) :: after)) key =
      preimageWithout nfc (.object (before ++ (k, value') :: after)) key := by
  simp only [preimageWithout, foldl_takeMember, membersAt_insert h, withoutKey_insert h]

/-- The fingerprint without a key that is there once is that of the object without the member,
whatever its value; the bytes hashed for two such objects are the same exactly when what is left
of them says the same. A key that is not there once is refused. -/
theorem fingerprintWithout_laws (nfc : String → String) (sha256 : Digest) :
    (∀ (entries : Entries) (key : String), (membersAt nfc key entries).length = 1 →
      fingerprintWithout nfc sha256 (.object entries) key =
        tcv1Sha256 nfc sha256 (.object (withoutKey nfc key entries))) ∧
    (∀ (before after : Entries) (key k : String) (value value' : TypedCanonicalValue),
      normalizeText nfc k = normalizeText nfc key →
      fingerprintWithout nfc sha256 (.object (before ++ (k, value) :: after)) key =
        fingerprintWithout nfc sha256 (.object (before ++ (k, value') :: after)) key) ∧
    (∀ (entries entries' : Entries) (key key' : String) (bytes bytes' : List UInt8),
      (form nfc (.object (withoutKey nfc key entries))).Sized →
      (form nfc (.object (withoutKey nfc key' entries'))).Sized →
      preimageWithout nfc (.object entries) key = .ok bytes →
      preimageWithout nfc (.object entries') key' = .ok bytes' →
      (bytes = bytes' ↔ form nfc (.object (withoutKey nfc key entries)) =
        form nfc (.object (withoutKey nfc key' entries')))) ∧
    ∀ (entries : Entries) (key : String), (membersAt nfc key entries).length ≠ 1 →
      fingerprintWithout nfc sha256 (.object entries) key =
        .error (if membersAt nfc key entries = [] then .missingObjectKey (normalizeText nfc key)
          else .ambiguousObjectKey (normalizeText nfc key)) := by
  refine ⟨?_, ?_, ?_, ?_⟩
  · intro entries key honce
    rw [fingerprintWithout, preimageWithout_once honce, tcv1Sha256]
  · intro before after key k value value' hkey
    rw [fingerprintWithout, preimageWithout_value hkey value value', fingerprintWithout]
  · intro entries entries' key key' bytes bytes' hsized hsized' h h'
    rw [preimageWithout_once (once_of_preimageWithout h)] at h
    rw [preimageWithout_once (once_of_preimageWithout h')] at h'
    exact tcv1Preimage_inj hsized hsized' h h'
  · intro entries key honce
    cases hmembers : membersAt nfc key entries with
    | nil =>
      rw [fingerprintWithout, preimageWithout_missing (List.length_eq_zero_iff.mpr hmembers)]
      rfl
    | cons member members =>
      have hmany : 1 < (membersAt nfc key entries).length := by
        rw [hmembers, List.length_cons] at honce ⊢
        omega
      rw [fingerprintWithout, preimageWithout_ambiguous hmany]
      rfl

theorem fingerprintWithout_laws_self :
    fingerprintWithout (fun s => s) (fun _ => Vector.replicate 32 0)
        (.object [("payload", .null), ("fingerprint", .string "pending")]) "fingerprint" =
      tcv1Sha256 (fun s => s) (fun _ => Vector.replicate 32 0) (.object [("payload", .null)]) :=
  (fingerprintWithout_laws (fun s => s) fun _ => Vector.replicate 32 0).1
    [("payload", .null), ("fingerprint", .string "pending")] "fingerprint" (by decide +kernel)

/-- An object without the member is refused, so its presence matters. -/
theorem fingerprintWithout_needs_member :
    ¬∀ (nfc : String → String) (sha256 : Digest) (entries : Entries) (key : String)
      (value : TypedCanonicalValue), membersAt nfc key entries = [] →
      fingerprintWithout nfc sha256 (.object entries) key =
        fingerprintWithout nfc sha256 (.object (entries ++ [(key, value)])) key := by
  intro hall
  have h := hall (fun s => s) (fun _ => Vector.replicate 32 0) [] "fingerprint" .null rfl
  have hempty : Encodes (fun s => s) (.object []) 0 := encodes_object (by decide) (by simp) (by simp)
  let zeros : Digest := fun _ => Vector.replicate 32 0
  obtain ⟨fingerprint, hok⟩ : ∃ fingerprint, tcv1Sha256 _ zeros _ = .ok fingerprint :=
    tcv1Sha256_ok hempty
  have honce : (membersAt (fun s => s) "fingerprint" [("fingerprint", .null)]).length = 1 := by
    decide +kernel
  rw [fingerprintWithout, preimageWithout_missing rfl, fingerprintWithout, List.nil_append,
    preimageWithout_once honce] at h
  have hrest : withoutKey (fun s => s) "fingerprint" [("fingerprint", .null)] = [] := by
    simp [withoutKey]
  rw [hrest] at h
  exact absurd (h.trans hok) (by simp [bind, Except.bind])

end TypedCanonicalValue

end DagMl

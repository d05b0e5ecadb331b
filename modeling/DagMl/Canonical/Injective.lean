import DagMl.Canonical.Bounded
import DagMl.Canonical.Form

/-!
# The encoding tells values apart

Two values are `Alike` when they differ only in what no reader can tell apart:
the composition of texts, the order of members, the domain of an integer and
the sign of a zero. Encoded values have equal bytes exactly then, and the
bytes of one are never the beginning of another's.
-/

namespace DagMl

open Checked

namespace TypedCanonicalValue

/-- Members may be listed in any order on either side. -/
inductive Alike (nfc : String → String) : TypedCanonicalValue → TypedCanonicalValue → Prop
  | null : Alike nfc .null .null
  | bool (value : Bool) : Alike nfc (.bool value) (.bool value)
  | integer {m n : CanonicalInteger} : m.toInt = n.toInt → Alike nfc (.integer m) (.integer n)
  | binary64 : x = y ∨ x.isZero = true ∧ y.isZero = true → Alike nfc (.binary64 x) (.binary64 y)
  | string : normalizeText nfc s = normalizeText nfc t → Alike nfc (.string s) (.string t)
  | array {values values' : List TypedCanonicalValue} : values.length = values'.length →
      (∀ (i : Nat) v v', values[i]? = some v → values'[i]? = some v' → Alike nfc v v') →
      Alike nfc (.array values) (.array values')
  | object {entries members entries' members' : List (String × TypedCanonicalValue)} :
      members.Perm entries → members'.Perm entries' →
      (members.map fun e => normalizeText nfc e.1) = (members'.map fun e => normalizeText nfc e.1) →
      (∀ (i : Nat) e e', members[i]? = some e → members'[i]? = some e' → Alike nfc e.2 e'.2) →
      Alike nfc (.object entries) (.object entries')

variable {nfc : String → String}

-- ---------------------------------------------------------------------------
-- Values that encode
-- ---------------------------------------------------------------------------

theorem nodup_of_checkKey_loop {keys : List String} {seen seen' : BTreeMap String String}
    (h : loop (checkKey nfc 0) seen keys = .ok seen') :
    (keys.map (normalizeText nfc)).Nodup ∧ ∀ key ∈ keys, seen[normalizeText nfc key]? = none := by
  induction keys generalizing seen with
  | nil => simp
  | cons key keys ih =>
    obtain ⟨next, hstep, hrest⟩ := loop_cons.mp h
    obtain ⟨hnew, rfl⟩ := Parser.checkKey_ok.mp hstep
    obtain ⟨hnodup, hfresh⟩ := ih hrest
    have hother (other : String) (hm : other ∈ keys) :
        normalizeText nfc key ≠ normalizeText nfc other ∧ seen[normalizeText nfc other]? = none := by
      have h := hfresh other hm
      rw [BTreeMap.getElem?_insert] at h
      split at h
      · cases h
      · exact ⟨‹_›, h⟩
    refine ⟨?_, List.forall_mem_cons.mpr ⟨hnew, fun other hm => (hother other hm).2⟩⟩
    rw [List.map_cons, List.nodup_cons, List.mem_map]
    refine ⟨?_, hnodup⟩
    rintro ⟨other, hm, heq⟩
    exact (hother other hm).1 heq.symm

theorem encodes_values {values : List TypedCanonicalValue} {depth : Nat}
    (h : Encodes nfc (.array values) depth) : ∀ value ∈ values, Encodes nfc value (depth + 1) := by
  obtain ⟨bytes, h⟩ := h
  simp only [encodeValue, bind_ok] at h
  obtain ⟨_, -, items, hitems, -⟩ := h
  clear bytes
  induction values generalizing items with
  | nil => simp
  | cons value values ih =>
    simp only [encodeItems, bind_ok] at hitems
    obtain ⟨head, hhead, rest, hrest, -⟩ := hitems
    exact List.forall_mem_cons.mpr ⟨⟨head, hhead⟩, ih rest hrest⟩

theorem encodes_members {entries : List (String × TypedCanonicalValue)} {depth : Nat}
    (h : Encodes nfc (.object entries) depth) :
    (entries.map fun e => normalizeText nfc e.1).Nodup ∧
      ∀ e ∈ entries, Encodes nfc e.2 (depth + 1) := by
  obtain ⟨bytes, h⟩ := h
  simp only [encodeValue, encodeObject, encodeMembers_eq, bind_ok, collect_ok, List.map_map] at h
  obtain ⟨_, -, seen, hseen, parts, hparts, -⟩ := h
  constructor
  · have hnodup := (nodup_of_checkKey_loop hseen).1
    rwa [List.map_map] at hnodup
  · intro e he
    obtain ⟨part, -, value, hvalue, -⟩ :=
      exists_right_of_mem hparts (Keyed.mem_sortBy.mpr (List.mem_map_of_mem he))
    exact ⟨value, hvalue⟩

-- ---------------------------------------------------------------------------
-- Alike values have one form
-- ---------------------------------------------------------------------------

/-- What an entry says. -/
def formEntry (nfc : String → String) (e : String × TypedCanonicalValue) : String × CanonicalForm :=
  (normalizeText nfc e.1, e.2.form nfc)

theorem form_object_sorted (entries : List (String × TypedCanonicalValue)) :
    form nfc (.object entries) = .object (Keyed.sortBy Prod.fst (entries.map (formEntry nfc))) := by
  rw [form, formOfEntries_eq]
  rfl

/-- Listings with equal keys and one form under each are one listing of forms. -/
theorem map_formEntry_eq {members members' : List (String × TypedCanonicalValue)}
    (hkeys : (members.map fun e => normalizeText nfc e.1) =
      (members'.map fun e => normalizeText nfc e.1))
    (hforms : ∀ (i : Nat) e e', members[i]? = some e → members'[i]? = some e' →
      e.2.form nfc = e'.2.form nfc) :
    members.map (formEntry nfc) = members'.map (formEntry nfc) := by
  apply List.ext_getElem?
  intro i
  have hkey := congrArg (·[i]?) hkeys
  simp only [List.getElem?_map] at hkey ⊢
  cases hm : members[i]? with
  | none =>
    cases hm' : members'[i]? with
    | none => rfl
    | some e' => simp [hm, hm'] at hkey
  | some e =>
    cases hm' : members'[i]? with
    | none => simp [hm, hm'] at hkey
    | some e' =>
      simp only [hm, hm', Option.map_some, Option.some.injEq] at hkey
      simp [formEntry, hkey, hforms i e e' hm hm']

theorem Alike.form_eq {a b : TypedCanonicalValue} {depth depth' : Nat} (h : Alike nfc a b)
    (ha : Encodes nfc a depth) (hb : Encodes nfc b depth') : a.form nfc = b.form nfc := by
  induction h generalizing depth depth' with
  | null => rfl
  | bool value => rfl
  | integer heq => simp only [form, heq]
  | binary64 heq =>
    rcases heq with rfl | ⟨hx, hy⟩
    · rfl
    · simp [form, hx, hy]
  | string heq => simp only [form, heq]
  | @array values values' hlength _ ih =>
    simp only [form, formOfValues_eq, CanonicalForm.array.injEq]
    apply List.ext_getElem?
    intro i
    simp only [List.getElem?_map]
    cases hv : values[i]? with
    | none =>
      have hnone : values'[i]? = none := by
        rw [List.getElem?_eq_none_iff] at hv ⊢
        rwa [← hlength]
      rw [hnone]
    | some v =>
      obtain ⟨v', hv'⟩ : ∃ v', values'[i]? = some v' := by
        obtain ⟨hi, -⟩ := List.getElem?_eq_some_iff.mp hv
        exact ⟨_, List.getElem?_eq_getElem (hlength ▸ hi)⟩
      have hforms := ih i v v' hv hv' (encodes_values ha v (List.mem_of_getElem? hv))
        (encodes_values hb v' (List.mem_of_getElem? hv'))
      simp [hv', hforms]
  | @object entries members entries' members' hperm hperm' hkeys _ ih =>
    have hforms : members.map (formEntry nfc) = members'.map (formEntry nfc) := by
      refine map_formEntry_eq hkeys fun i e e' he he' => ?_
      have hvalue := (encodes_members ha).2 e (hperm.mem_iff.mp (List.mem_of_getElem? he))
      have hvalue' := (encodes_members hb).2 e' (hperm'.mem_iff.mp (List.mem_of_getElem? he'))
      exact ih i e e' he he' hvalue hvalue'
    have hsame : (entries.map (formEntry nfc)).Perm (entries'.map (formEntry nfc)) :=
      (hperm.symm.map _).trans (hforms ▸ hperm'.map _)
    rw [form_object_sorted, form_object_sorted, Keyed.sortBy_eq_of_perm ?_ hsame]
    rw [List.map_map]
    exact (encodes_members ha).1

-- ---------------------------------------------------------------------------
-- One form is alike
-- ---------------------------------------------------------------------------

theorem form_inj_binary64 {x y : Binary64}
    (h : (if x.isZero then Binary64.zero else x) = if y.isZero then Binary64.zero else y) :
    x = y ∨ x.isZero = true ∧ y.isZero = true := by
  have hzero : Binary64.zero.isZero = true := by decide
  by_cases hx : x.isZero = true <;> by_cases hy : y.isZero = true
  · exact .inr ⟨hx, hy⟩
  · rw [if_pos hx, if_neg hy] at h
    exact absurd (h ▸ hzero) hy
  · rw [if_neg hx, if_pos hy] at h
    exact absurd (h ▸ hzero) hx
  · rw [if_neg hx, if_neg hy] at h
    exact .inl h

theorem alike_of_form_eq {a b : TypedCanonicalValue} (h : a.form nfc = b.form nfc) :
    Alike nfc a b := by
  induction a using byParts generalizing b with
  | null =>
    cases b <;> simp only [form, reduceCtorEq] at h
    exact .null
  | bool value =>
    cases b <;> simp only [form, reduceCtorEq, CanonicalForm.bool.injEq] at h
    exact h ▸ .bool value
  | integer m =>
    cases b <;> simp only [form, reduceCtorEq, CanonicalForm.integer.injEq] at h
    exact .integer h
  | binary64 x =>
    cases b <;> simp only [form, reduceCtorEq, CanonicalForm.binary64.injEq] at h
    exact .binary64 (form_inj_binary64 h)
  | string s =>
    cases b <;> simp only [form, reduceCtorEq, CanonicalForm.string.injEq] at h
    exact .string h
  | array values ih =>
    cases b <;> simp only [form, formOfValues_eq, reduceCtorEq, CanonicalForm.array.injEq] at h
    rename_i values'
    refine .array (by simpa using congrArg List.length h) fun i v v' hv hv' => ?_
    have heq := congrArg (·[i]?) h
    simp only [List.getElem?_map, hv, hv', Option.map_some, Option.some.injEq] at heq
    exact ih v (List.mem_of_getElem? hv) heq
  | object entries ih =>
    cases b with
    | object entries' =>
      rw [form_object, form_object, CanonicalForm.object.injEq] at h
      have hsorted := Keyed.perm_sortBy (fun e => normalizeText nfc e.1) entries
      have hsorted' := Keyed.perm_sortBy (fun e => normalizeText nfc e.1) entries'
      refine .object hsorted hsorted' ?_ fun i e e' he he' => ?_
      · have hkeys := congrArg (List.map Prod.fst) h
        simpa only [List.map_map, Function.comp_def] using hkeys
      · have heq := congrArg (·[i]?) h
        simp only [List.getElem?_map, he, he', Option.map_some, Option.some.injEq,
          Prod.mk.injEq] at heq
        exact ih e (hsorted.mem_iff.mp (List.mem_of_getElem? he)) heq.2
    | _ => simp only [form, reduceCtorEq] at h

theorem alike_iff_form_eq {a b : TypedCanonicalValue} {depth depth' : Nat}
    (ha : Encodes nfc a depth) (hb : Encodes nfc b depth') :
    Alike nfc a b ↔ a.form nfc = b.form nfc :=
  ⟨fun h => h.form_eq ha hb, alike_of_form_eq⟩

/-- Encodings of values whose texts and lists are no longer than a `usize` counts: equal bytes
are alike values, and an encoding that begins another one is all of it. -/
theorem tcv1Encode_injective {a b : TypedCanonicalValue} {bytes bytes' : List UInt8}
    (ha : (a.form nfc).Sized) (hb : (b.form nfc).Sized) (h : tcv1Encode nfc a = .ok bytes)
    (h' : tcv1Encode nfc b = .ok bytes') :
    (bytes = bytes' ↔ Alike nfc a b) ∧ (bytes <+: bytes' → bytes = bytes') := by
  have hbytes : bytes = (a.form nfc).bytes := encodeValue_bytes h
  have hbytes' : bytes' = (b.form nfc).bytes := encodeValue_bytes h'
  constructor
  · rw [alike_iff_form_eq ⟨bytes, h⟩ ⟨bytes', h'⟩, hbytes, hbytes',
      CanonicalForm.bytes_inj ha hb]
  · rintro ⟨rest, hrest⟩
    rw [hbytes, hbytes'] at hrest ⊢
    have hsame := CanonicalForm.bytes_cancels ha (b.form nfc) rest [] hb trivial trivial
      (by rw [hrest, List.append_nil])
    rw [hsame.1]

/-- Zeros of either sign in either order of members, in either integer domain. -/
theorem tcv1Encode_injective_zeros : ∃ bytes,
    tcv1Encode id (.object [("b", .integer (.signed 1)), ("a", .binary64 .negZero)]) = .ok bytes ∧
      tcv1Encode id (.object [("a", .binary64 .zero), ("b", .integer (.unsigned 1))]) =
        .ok bytes := by
  have hab : Encodes id (.object [("b", .integer (.signed 1)), ("a", .binary64 .negZero)]) 0 := by
    refine encodes_object (by decide) (by decide) ?_
    simp only [List.forall_mem_cons, List.not_mem_nil, false_implies, implies_true, and_true]
    exact ⟨encodes_integer (by decide) _, encodes_binary64 (by decide) (by decide)⟩
  have hba : Encodes id (.object [("a", .binary64 .zero), ("b", .integer (.unsigned 1))]) 0 := by
    refine encodes_object (by decide) (by decide) ?_
    simp only [List.forall_mem_cons, List.not_mem_nil, false_implies, implies_true, and_true]
    exact ⟨encodes_binary64 (by decide) (by decide), encodes_integer (by decide) _⟩
  have hform : form id (.object [("b", .integer (.signed 1)), ("a", .binary64 .negZero)]) =
      .object [("a", .binary64 .zero), ("b", .integer 1)] := by
    rw [form_object_sorted]
    rfl
  have hform' : form id (.object [("a", .binary64 .zero), ("b", .integer (.unsigned 1))]) =
      .object [("a", .binary64 .zero), ("b", .integer 1)] := by
    rw [form_object_sorted]
    rfl
  have hsized : CanonicalForm.Sized (.object [("a", .binary64 .zero), ("b", .integer 1)]) := by
    refine .object (by decide) ?_ ?_
    · simp only [List.forall_mem_cons, List.not_mem_nil, false_implies, implies_true, and_true]
      exact ⟨by decide +kernel, by decide +kernel⟩
    · simp only [List.forall_mem_cons, List.not_mem_nil, false_implies, implies_true, and_true]
      exact ⟨.binary64 _, .integer (by decide +kernel)⟩
  obtain ⟨bytes, h⟩ := hab
  obtain ⟨bytes', h'⟩ := hba
  have hsame := (tcv1Encode_injective (hform ▸ hsized) (hform' ▸ hsized) h h').1.mpr
    (alike_of_form_eq (hform.trans hform'.symm))
  exact ⟨bytes, h, hsame ▸ h'⟩

end TypedCanonicalValue

end DagMl

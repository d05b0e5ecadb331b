import DagMl.Json
import DagMl.Lib.Keyed

/-!
# Sorted JSON values

An object is a map: two values are the same when their objects have the same
keys and the same values under them, in whatever order the entries are held.
`sortAllObjects` gives the same values one form.
-/

namespace DagMl.JsonValue

open Keyed

mutual
/-- `value.sort_all_objects()`. -/
def sortAllObjects : JsonValue → JsonValue
  | .null => .null
  | .bool b => .bool b
  | .number n => .number n
  | .string s => .string s
  | .array items => .array (sortItems items)
  | .object entries => .object (sortBy Prod.fst (sortEntries entries))

def sortItems : List JsonValue → List JsonValue
  | [] => []
  | v :: vs => sortAllObjects v :: sortItems vs

def sortEntries : List (String × JsonValue) → List (String × JsonValue)
  | [] => []
  | (k, v) :: es => (k, sortAllObjects v) :: sortEntries es
end

/-- An entry with its value sorted. -/
def sortEntry (e : String × JsonValue) : String × JsonValue := (e.1, sortAllObjects e.2)

theorem sortItems_eq (items : List JsonValue) : sortItems items = items.map sortAllObjects := by
  induction items with
  | nil => rfl
  | cons v vs ih => rw [sortItems, ih, List.map_cons]

theorem sortEntries_eq (entries : List (String × JsonValue)) :
    sortEntries entries = entries.map sortEntry := by
  induction entries with
  | nil => rfl
  | cons e es ih => rw [sortEntries, ih, List.map_cons, sortEntry]

@[simp] theorem sortAllObjects_array :
    sortAllObjects (.array items) = .array (items.map sortAllObjects) := by
  rw [sortAllObjects, sortItems_eq]

@[simp] theorem sortAllObjects_object :
    sortAllObjects (.object entries) = .object (sortBy Prod.fst (entries.map sortEntry)) := by
  rw [sortAllObjects, sortEntries_eq]

theorem map_fst_sortEntry (entries : List (String × JsonValue)) :
    (entries.map sortEntry).map Prod.fst = entries.map Prod.fst := by
  rw [List.map_map]
  rfl

theorem sortAllObjects_sortAllObjects (v : JsonValue) :
    sortAllObjects (sortAllObjects v) = sortAllObjects v := by
  induction v using childInduction with
  | null => rfl
  | bool b => rfl
  | number n => rfl
  | string s => rfl
  | array items ih =>
    simp only [sortAllObjects_array, List.map_map, array.injEq]
    exact List.map_congr_left ih
  | object entries ih =>
    simp only [sortAllObjects_object, object.injEq]
    have hmap : (sortBy Prod.fst (entries.map sortEntry)).map sortEntry =
        sortBy Prod.fst (entries.map sortEntry) := by
      refine (List.map_congr_left fun e he => ?_).trans (List.map_id _)
      obtain ⟨e', he', rfl⟩ := List.mem_map.mp (mem_sortBy.mp he)
      rw [sortEntry, sortEntry, ih e' he', id]
    rw [hmap, sortBy_sortBy]

theorem sortAllObjects_valid {v : JsonValue} (h : v.Valid) : v.sortAllObjects.Valid := by
  induction v using childInduction with
  | null => trivial
  | bool b => trivial
  | number n => exact h
  | string s => trivial
  | array items ih =>
    simp only [sortAllObjects_array, Valid, validItems_iff, List.forall_mem_map] at h ⊢
    exact fun v hv => ih v hv (h v hv)
  | object entries ih =>
    simp only [sortAllObjects_object, Valid, validEntries_iff] at h ⊢
    refine ⟨?_, fun e he => ?_⟩
    · rw [((perm_sortBy _ _).map Prod.fst).nodup_iff, map_fst_sortEntry]
      exact h.1
    · obtain ⟨e', he', rfl⟩ := List.mem_map.mp (mem_sortBy.mp he)
      exact ih e' he' (h.2 e' he')

-- ---------------------------------------------------------------------------
-- The same value
-- ---------------------------------------------------------------------------

mutual
/-- `==` on values, which compares objects as maps. Floats are compared by
their bits. -/
def Same : JsonValue → JsonValue → Prop
  | .array xs, .array ys => SameItems xs ys
  | .object xs, .object ys => xs.length = ys.length ∧ SameEntries xs ys
  | .null, w => w = .null
  | .bool b, w => w = .bool b
  | .number n, w => w = .number n
  | .string s, w => w = .string s
  | _, _ => False

def SameItems : List JsonValue → List JsonValue → Prop
  | [], [] => True
  | v :: vs, w :: ws => Same v w ∧ SameItems vs ws
  | _, _ => False

/-- Every entry has one under its key in `ys` with the same value. -/
def SameEntries : List (String × JsonValue) → List (String × JsonValue) → Prop
  | [], _ => True
  | (k, v) :: es, ys => (∃ w, ys.lookup k = some w ∧ Same v w) ∧ SameEntries es ys
end

theorem sameItems_iff {xs ys : List JsonValue} : SameItems xs ys ↔ List.Forall₂ Same xs ys := by
  induction xs generalizing ys with
  | nil => cases ys <;> simp [SameItems]
  | cons v vs ih => cases ys <;> simp [SameItems, ih]

theorem sameEntries_iff {xs ys : List (String × JsonValue)} :
    SameEntries xs ys ↔ ∀ e ∈ xs, ∃ w, ys.lookup e.1 = some w ∧ Same e.2 w := by
  induction xs with
  | nil => simp [SameEntries]
  | cons e es ih => rw [SameEntries, ih, List.forall_mem_cons]

theorem same_of_sortEntry_perm {xs ys : List (String × JsonValue)}
    (ih : ∀ e ∈ xs, ∀ e' ∈ ys, sortAllObjects e.2 = sortAllObjects e'.2 → Same e.2 e'.2)
    (hn : (ys.map Prod.fst).Nodup) (h : (xs.map sortEntry).Perm (ys.map sortEntry)) :
    xs.length = ys.length ∧ SameEntries xs ys := by
  refine ⟨by simpa using h.length_eq, sameEntries_iff.mpr fun e he => ?_⟩
  obtain ⟨e', he', heq⟩ := List.mem_map.mp (h.mem_iff.mp (List.mem_map_of_mem he))
  obtain ⟨hkey, hvalue⟩ := Prod.ext_iff.mp heq
  exact ⟨e'.2, (lookup_eq_some hn).mpr (hkey ▸ he'), ih e he e' he' hvalue.symm⟩

theorem sortEntry_perm_of_same {xs ys : List (String × JsonValue)}
    (ih : ∀ e ∈ xs, ∀ e' ∈ ys, Same e.2 e'.2 → sortAllObjects e.2 = sortAllObjects e'.2)
    (hx : (xs.map Prod.fst).Nodup) (hy : (ys.map Prod.fst).Nodup)
    (h : xs.length = ys.length ∧ SameEntries xs ys) :
    (xs.map sortEntry).Perm (ys.map sortEntry) := by
  have hnodup : (xs.map sortEntry).Nodup :=
    List.Nodup.of_map Prod.fst (map_fst_sortEntry xs ▸ hx)
  have hsub : xs.map sortEntry ⊆ ys.map sortEntry := by
    intro p hp
    obtain ⟨e, he, rfl⟩ := List.mem_map.mp hp
    obtain ⟨w, hw, hs⟩ := sameEntries_iff.mp h.2 e he
    have hmem := (lookup_eq_some hy).mp hw
    refine List.mem_map.mpr ⟨(e.1, w), hmem, ?_⟩
    rw [sortEntry, sortEntry, ih e he _ hmem hs]
  exact (hnodup.subperm hsub).perm_of_length_le (by simp [h.1])

theorem rel_isSome {R : α → β → Prop} {a : Option α} {b : Option β} (h : Option.Rel R a b) :
    a.isSome = b.isSome := by
  cases h <;> rfl

/-- Objects are the same when they agree under every key. -/
theorem same_object_iff {xs ys : List (String × JsonValue)} (hx : (xs.map Prod.fst).Nodup)
    (hy : (ys.map Prod.fst).Nodup) :
    Same (.object xs) (.object ys) ↔ ∀ k, Option.Rel Same (xs.lookup k) (ys.lookup k) := by
  rw [Same, sameEntries_iff]
  constructor
  · rintro ⟨hlength, h⟩ k
    have hsub : xs.map Prod.fst ⊆ ys.map Prod.fst := by
      intro key hkey
      obtain ⟨e, he, rfl⟩ := List.mem_map.mp hkey
      obtain ⟨w, hw, -⟩ := h e he
      exact lookup_isSome.mp (by rw [hw]; rfl)
    have hkeys : (xs.map Prod.fst).Perm (ys.map Prod.fst) :=
      (hx.subperm hsub).perm_of_length_le (by simp [hlength])
    cases hv : xs.lookup k with
    | some v =>
      obtain ⟨w, hw, hs⟩ := h (k, v) ((lookup_eq_some hx).mp hv)
      rw [show ys.lookup k = some w from hw]
      exact .some hs
    | none =>
      have hnot : k ∉ ys.map Prod.fst := by
        rw [← hkeys.mem_iff, ← lookup_isSome, hv]
        simp
      rw [← lookup_isSome, Option.not_isSome_iff_eq_none] at hnot
      rw [hnot]
      exact .none
  · intro h
    have hkeys (k : String) : k ∈ xs.map Prod.fst ↔ k ∈ ys.map Prod.fst := by
      rw [← lookup_isSome, ← lookup_isSome, rel_isSome (h k)]
    refine ⟨by simpa using ((List.perm_ext_iff_of_nodup hx hy).mpr hkeys).length_eq, ?_⟩
    intro e he
    have hrel := h e.1
    rw [(lookup_eq_some (v := e.2) hx).mpr he] at hrel
    cases hw : ys.lookup e.1 with
    | none => rw [hw] at hrel; cases hrel
    | some w =>
      rw [hw] at hrel
      exact ⟨w, rfl, Option.rel_some_some.mp hrel⟩

-- ---------------------------------------------------------------------------
-- Records
-- ---------------------------------------------------------------------------

/-- A serialized struct; a skipped field is `none`. -/
def record (fields : List (String × Option JsonValue)) : JsonValue :=
  .object (fields.filterMap fun (key, value) => value.map (key, ·))

section Record

variable {fields fields' : List (String × Option JsonValue)}

theorem recordKeys_sublist (fields : List (String × Option JsonValue)) :
    ((fields.filterMap fun (key, value) => value.map (key, ·)).map Prod.fst).Sublist
      (fields.map Prod.fst) := by
  induction fields with
  | nil => simp
  | cons field fields ih =>
    obtain ⟨key, value⟩ := field
    cases value with
    | none => exact ih.cons _
    | some v => exact ih.cons_cons _

theorem lookup_record (hn : (fields.map Prod.fst).Nodup) (k : String) :
    (fields.filterMap fun (key, value) => value.map (key, ·)).lookup k =
      (fields.lookup k).join := by
  induction fields with
  | nil => rfl
  | cons field fields ih =>
    obtain ⟨key, value⟩ := field
    rw [List.map_cons, List.nodup_cons] at hn
    by_cases hk : k = key
    · subst hk
      have hnone : (fields.filterMap fun (key, value) => value.map (key, ·)).lookup k = none := by
        rw [← Option.not_isSome_iff_eq_none, lookup_isSome]
        exact fun hm => hn.1 ((recordKeys_sublist fields).subset hm)
      cases value with
      | none => simpa using hnone
      | some v => simp
    · have hbeq : (k == key) = false := by simpa using hk
      cases value with
      | none => simpa [List.lookup_cons, hbeq] using ih hn.2
      | some v => simpa [List.lookup_cons, hbeq] using ih hn.2

/-- Records with the same field names are the same field by field. -/
theorem same_record_iff (hkeys : fields.map Prod.fst = fields'.map Prod.fst)
    (hn : (fields.map Prod.fst).Nodup) :
    Same (record fields) (record fields') ↔
      List.Forall₂ (fun f f' => Option.Rel Same f.2 f'.2) fields fields' := by
  have hn' : (fields'.map Prod.fst).Nodup := hkeys ▸ hn
  rw [record, record, same_object_iff ((recordKeys_sublist _).nodup hn)
    ((recordKeys_sublist _).nodup hn')]
  simp only [lookup_record hn, lookup_record hn']
  induction fields generalizing fields' with
  | nil => cases fields' <;> simp at hkeys ⊢
  | cons field fields ih =>
    cases fields' with
    | nil => simp at hkeys
    | cons field' fields' =>
      obtain ⟨key, value⟩ := field
      obtain ⟨key', value'⟩ := field'
      obtain ⟨rfl, hrest⟩ := List.cons.inj hkeys
      rw [List.map_cons, List.nodup_cons] at hn hn'
      have hfields : (∀ k, Option.Rel Same (fields.lookup k).join (fields'.lookup k).join) ↔
          List.Forall₂ (fun f f' => Option.Rel Same f.2 f'.2) fields fields' :=
        ih hrest hn.2 hn'.2
      rw [List.forall₂_cons, ← hfields]
      constructor
      · intro h
        refine ⟨by simpa using h key, fun k => ?_⟩
        by_cases hk : k = key
        · subst hk
          have hnone (l : List (String × Option JsonValue)) (hl : k ∉ l.map Prod.fst) :
              l.lookup k = none := by
            rwa [← Option.not_isSome_iff_eq_none, lookup_isSome]
          rw [hnone fields hn.1, hnone fields' hn'.1]
          exact .none
        · have hbeq : (k == key) = false := by simpa using hk
          simpa [List.lookup_cons, hbeq] using h k
      · rintro ⟨hvalue, h⟩ k
        by_cases hk : k = key
        · subst hk
          simpa using hvalue
        · have hbeq : (k == key) = false := by simpa using hk
          simpa [List.lookup_cons, hbeq] using h k

end Record

theorem record_valid {fields : List (String × Option JsonValue)} (hn : (fields.map Prod.fst).Nodup)
    (h : ∀ f ∈ fields, ∀ v ∈ f.2, v.Valid) : (record fields).Valid := by
  refine ⟨(recordKeys_sublist fields).nodup hn, validEntries_iff.mpr fun e he => ?_⟩
  obtain ⟨⟨key, value⟩, hf, hv⟩ := List.mem_filterMap.mp he
  obtain ⟨v, hvalue, rfl⟩ := Option.map_eq_some_iff.mp hv
  exact h _ hf v hvalue

theorem valid_of_skip {p : Prop} [Decidable p] {w : JsonValue} (h : w.Valid) :
    ∀ v ∈ (if p then none else some w : Option JsonValue), v.Valid := by
  by_cases hp : p <;> simp [hp, h]

/-- A field skipped when `p` holds, where `p` can be read off the value. -/
theorem rel_skip {p q : Prop} [Decidable p] [Decidable q] {v w : JsonValue}
    (hskip : p → q → Same v w) (hsame : Same v w → (p ↔ q)) :
    Option.Rel Same (if p then none else some v) (if q then none else some w) ↔ Same v w := by
  by_cases hp : p <;> by_cases hq : q
  · simp [hp, hq, hskip hp hq]
  · simp only [hp, hq, if_true, if_false]
    exact ⟨nofun, fun h => (hq ((hsame h).mp hp)).elim⟩
  · simp only [hp, hq, if_true, if_false]
    exact ⟨nofun, fun h => (hp ((hsame h).mpr hq)).elim⟩
  · simp [hp, hq]

/-- On valid values, sorting every object decides sameness. -/
theorem sortAllObjects_eq_iff {v w : JsonValue} (hv : v.Valid) (hw : w.Valid) :
    sortAllObjects v = sortAllObjects w ↔ Same v w := by
  induction v using childInduction generalizing w with
  | null => cases w <;> simp [sortAllObjects, Same]
  | bool b => cases w <;> simp [sortAllObjects, Same, eq_comm]
  | number n => cases w <;> simp [sortAllObjects, Same, eq_comm]
  | string s => cases w <;> simp [sortAllObjects, Same, eq_comm]
  | array items ih =>
    cases w with
    | array items' =>
      simp only [sortAllObjects_array, array.injEq, Same, sameItems_iff]
      simp only [Valid, validItems_iff] at hv hw
      induction items generalizing items' with
      | nil => cases items' <;> simp
      | cons x xs ihx =>
        cases items' with
        | nil => simp
        | cons y ys =>
          rw [List.forall_mem_cons] at ih hv hw
          rw [List.map_cons, List.map_cons, List.cons.injEq, List.forall₂_cons, ih.1 hv.1 hw.1,
            ihx ih.2 ys hv.2 hw.2]
    | _ => simp [sortAllObjects, Same]
  | object entries ih =>
    cases w with
    | object entries' =>
      simp only [Valid, validEntries_iff] at hv hw
      simp only [sortAllObjects_object, object.injEq, Same]
      rw [sortBy_eq_iff (by rw [map_fst_sortEntry]; exact hv.1)]
      constructor
      · exact same_of_sortEntry_perm
          (fun e he e' he' => (ih e he (hv.2 e he) (hw.2 e' he')).mp) hw.1
      · exact sortEntry_perm_of_same (fun e he e' he' => (ih e he (hv.2 e he) (hw.2 e' he')).mpr)
          hv.1 hw.1
    | _ => simp [sortAllObjects, Same]

end DagMl.JsonValue

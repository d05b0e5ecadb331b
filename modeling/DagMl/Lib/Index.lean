import DagMl.Lib.Checked
import DagMl.Lib.Collections
import DagMl.Lib.Keyed

/-!
# Indexing by a key

A map built by a loop that refuses a repeated key is an index: it holds each
element under its own key and nothing else. A map built by pushing values
holds the values of each key, in order.
-/

namespace BTreeMap

open Checked

variable {ε β K V : Type} [LinearOrder K]

/-- `m` holds exactly the elements of `l`, each under its key. -/
structure IndexOf (key : β → K) (l : List β) (m : BTreeMap K β) : Prop where
  nodup : (l.map key).Nodup
  get : ∀ k x, m[k]? = some x ↔ x ∈ l ∧ key x = k

namespace IndexOf

variable {key : β → K} {l : List β} {m : BTreeMap K β}

theorem empty : IndexOf key [] (∅ : BTreeMap K β) where
  nodup := .nil
  get := by simp

theorem mem (h : IndexOf key l m) : k ∈ m ↔ k ∈ l.map key := by
  simp only [mem_iff, h.get, List.mem_map]

theorem insert (h : IndexOf key l m) (hnew : key x ∉ m) :
    IndexOf key (l ++ [x]) (m.insert (key x) x) := by
  have hfresh (y : β) (hy : y ∈ l) : key y ≠ key x := by
    rintro heq
    exact hnew (h.mem.mpr (heq ▸ List.mem_map_of_mem hy))
  constructor
  · rw [List.map_append, List.nodup_append']
    refine ⟨h.nodup, by simp, ?_⟩
    simpa [List.Disjoint] using hfresh
  · intro k y
    rw [getElem?_insert]
    split
    · rename_i heq
      subst heq
      simp only [Option.some.injEq, List.mem_append, List.mem_singleton]
      constructor
      · rintro rfl
        exact ⟨.inr rfl, rfl⟩
      · rintro ⟨hy | rfl, heq⟩
        · exact absurd heq (hfresh y hy)
        · rfl
    · rename_i hne
      simp only [h.get, List.mem_append, List.mem_singleton]
      constructor
      · rintro ⟨hy, hkey⟩
        exact ⟨.inl hy, hkey⟩
      · rintro ⟨hy | rfl, hkey⟩
        · exact ⟨hy, hkey⟩
        · exact absurd hkey hne

/-- Looking a key up is searching the list for it. -/
theorem getElem?_eq_find? (h : IndexOf key l m) {k : K} : m[k]? = l.find? (key · = k) := by
  ext x
  rw [h.get]
  constructor
  · rintro ⟨hx, rfl⟩
    have hsome : (l.find? (key · = key x)).isSome := List.find?_isSome.mpr ⟨x, hx, by simp⟩
    obtain ⟨y, hy⟩ := Option.isSome_iff_exists.mp hsome
    have hkey : key y = key x := by simpa using List.find?_some hy
    rw [hy, List.inj_on_of_nodup_map h.nodup (List.mem_of_find?_eq_some hy) hx hkey]
  · exact fun hx => ⟨List.mem_of_find?_eq_some hx, by simpa using List.find?_some hx⟩

end IndexOf

/-- A loop each of whose steps checks its element and files it under a new key. -/
theorem indexOf_loop {f : BTreeMap K β → β → Except ε (BTreeMap K β)} {key : β → K}
    {P : β → Prop} {l : List β}
    (step : ∀ m x m', f m x = .ok m' → P x ∧ key x ∉ m ∧ m' = m.insert (key x) x)
    (h : loop f ∅ l = .ok m) : (∀ x ∈ l, P x) ∧ IndexOf key l m := by
  refine ⟨loop_forall (fun m x m' hx => (step m x m' hx).1) h, ?_⟩
  refine loop_invariant (IndexOf key · ·) .empty ?_ h
  rintro done x m m' hindex hx
  obtain ⟨-, hnew, rfl⟩ := step m x m' hx
  exact hindex.insert hnew

/-- A loop that checks each element and files its value under a key not yet
held succeeds exactly on checked elements with distinct keys, and collects them. -/
theorem collect_loop_ok {f : BTreeMap K V → β → Except ε (BTreeMap K V)} {key : β → K}
    {value : β → V} {P : β → Prop} {l : List β}
    (step : ∀ m x m', f m x = .ok m' ↔ P x ∧ key x ∉ m ∧ m' = m.insert (key x) (value x)) :
    loop f ∅ l = .ok m ↔ (∀ x ∈ l, P x) ∧ (l.map key).Nodup ∧
      m = collect (l.map fun x => (key x, value x)) := by
  have general (m₀ : BTreeMap K V) : loop f m₀ l = .ok m ↔
      (∀ x ∈ l, P x ∧ key x ∉ m₀) ∧ (l.map key).Nodup ∧
        m = (l.map fun x => (key x, value x)).foldl (fun m e => m.insert e.1 e.2) m₀ := by
    induction l generalizing m₀ with
    | nil => simp [eq_comm]
    | cons x xs ih =>
      have hinsert (k : K) (v : V) (k' : K) : k' ∉ m₀.insert k v ↔ k ≠ k' ∧ k' ∉ m₀ := by
        simp
      simp only [loop_cons, step, ih, List.map_cons, List.nodup_cons, List.forall_mem_cons,
        List.foldl_cons]
      constructor
      · rintro ⟨_, ⟨hx, hnew, rfl⟩, hxs, hn, rfl⟩
        simp only [hinsert] at hxs
        refine ⟨⟨⟨hx, hnew⟩, fun y hy => ⟨(hxs y hy).1, (hxs y hy).2.2⟩⟩, ⟨?_, hn⟩, rfl⟩
        rintro hm
        obtain ⟨y, hy, heq⟩ := List.mem_map.mp hm
        exact (hxs y hy).2.1 heq.symm
      · rintro ⟨⟨⟨hx, hnew⟩, hxs⟩, ⟨hfresh, hn⟩, rfl⟩
        refine ⟨_, ⟨hx, hnew, rfl⟩, ?_, hn, rfl⟩
        simp only [hinsert]
        refine fun y hy => ⟨(hxs y hy).1, fun heq => hfresh ?_, (hxs y hy).2⟩
        exact heq ▸ List.mem_map_of_mem hy
  simpa [collect] using general ∅

/-- The values listed under a key, in list order. -/
def bucket (entries : List (K × V)) (k : K) : List V :=
  (entries.filter (·.1 = k)).map Prod.snd

theorem mem_bucket {entries : List (K × V)} : v ∈ bucket entries k ↔ (k, v) ∈ entries := by
  simp [bucket]

theorem bucket_ne_nil {entries : List (K × V)} :
    bucket entries k ≠ [] ↔ k ∈ entries.map Prod.fst := by
  simp [bucket]

theorem bucket_append {entries more : List (K × V)} :
    bucket (entries ++ more) k = bucket entries k ++ bucket more k := by
  simp [bucket]

theorem bucket_singleton {entry : K × V} :
    bucket [entry] k = if entry.1 = k then [entry.2] else [] := by
  by_cases h : entry.1 = k <;> simp [bucket, h]

/-- A key that is listed once has one value. -/
theorem bucket_of_nodup {entries : List (K × V)} (h : (entries.map Prod.fst).Nodup)
    (hk : k ∈ entries.map Prod.fst) : ∃ v, bucket entries k = [v] := by
  induction entries with
  | nil => cases hk
  | cons e es ih =>
    rw [List.map_cons, List.nodup_cons] at h
    by_cases he : e.1 = k
    · subst he
      have hrest : bucket es e.1 = [] := by
        by_contra hne
        exact h.1 (bucket_ne_nil.mp hne)
      exact ⟨e.2, by simpa [bucket] using hrest⟩
    · have hes : k ∈ es.map Prod.fst := by simpa [Ne.symm he] using hk
      obtain ⟨v, hv⟩ := ih h.2 hes
      exact ⟨v, by simpa [bucket, he] using hv⟩

/-- `m` holds the values of each listed key, and no other key. -/
def GroupsOf (entries : List (K × V)) (m : BTreeMap K (List V)) : Prop :=
  ∀ k vs, m[k]? = some vs ↔ vs ≠ [] ∧ vs = bucket entries k

namespace GroupsOf

variable {entries : List (K × V)} {m : BTreeMap K (List V)} {k a : K}

theorem empty : GroupsOf [] (∅ : BTreeMap K (List V)) := by
  intro k vs
  simp [bucket]

theorem getD (h : GroupsOf entries m) : m.getD k [] = bucket entries k := by
  rw [Std.ExtTreeMap.getD_eq_getD_getElem?]
  cases hm : m[k]? with
  | some vs => exact ((h k vs).mp hm).2
  | none =>
    by_contra hne
    have hsome := (h k (bucket entries k)).mpr ⟨Ne.symm hne, rfl⟩
    rw [hm] at hsome
    cases hsome

theorem push (h : GroupsOf entries m) : GroupsOf (entries ++ [(a, v)]) (m.pushEntry a v) := by
  intro k vs
  rw [pushEntry, getElem?_insert, bucket_append, bucket_singleton,
    ← Std.ExtTreeMap.getD_eq_getD_getElem?, h.getD]
  by_cases hk : a = k
  · subst hk
    simp only [if_true, Option.some.injEq]
    constructor
    · rintro rfl
      simp
    · exact fun hv => hv.2.symm
  · simp only [hk, if_false, List.append_nil]
    exact h k vs

theorem foldl (key : β → K) (value : β → V) (l : List β) :
    GroupsOf (l.map fun x => (key x, value x))
      (l.foldl (fun m x => m.pushEntry (key x) (value x)) ∅) := by
  induction l using List.reverseRecOn with
  | nil => exact .empty
  | append_singleton l x ih => simpa using ih.push

/-- The buckets of distinct values are those values, arranged by key. -/
theorem perm_flatMap (h : GroupsOf entries m) (hn : (entries.map Prod.snd).Nodup) :
    (m.toList.flatMap Prod.snd).Perm (entries.map Prod.snd) := by
  have hbucket (e : K × List V) (he : e ∈ m.toList) : e.2 = bucket entries e.1 :=
    ((h e.1 e.2).mp (mem_toList.mp he)).2
  have hnodup : (m.toList.flatMap Prod.snd).Nodup := by
    rw [List.nodup_flatMap]
    constructor
    · intro e he
      rw [hbucket e he]
      exact (List.filter_sublist.map Prod.snd).nodup hn
    · refine List.Pairwise.imp_of_mem ?_ (List.pairwise_map.mp (nodup_keys_toList m))
      intro e e' he he' hne v hv hv'
      rw [hbucket e he, mem_bucket] at hv
      rw [hbucket e' he', mem_bucket] at hv'
      have heq := List.inj_on_of_nodup_map hn hv hv' rfl
      exact hne (Prod.mk.inj heq).1
  rw [List.perm_ext_iff_of_nodup hnodup hn]
  intro v
  simp only [List.mem_flatMap, List.mem_map, Prod.exists, exists_eq_right]
  constructor
  · rintro ⟨k, vs, he, hv⟩
    have hvs : vs = bucket entries k := hbucket _ he
    rw [hvs, mem_bucket] at hv
    exact ⟨k, hv⟩
  · rintro ⟨k, hv⟩
    have hmem : v ∈ bucket entries k := mem_bucket.mpr hv
    exact ⟨k, _, mem_toList.mpr ((h k _).mpr ⟨List.ne_nil_of_mem hmem, rfl⟩), hmem⟩

/-- The bucket of a key is a block of the values, arranged by key. -/
theorem exists_block (h : GroupsOf entries m) (k : K) :
    ∃ before after, m.toList.flatMap Prod.snd = before ++ bucket entries k ++ after ∧
      ∀ v ∈ before ++ after, ∃ a ≠ k, (a, v) ∈ entries := by
  have hother (e : K × List V) (he : e ∈ m.toList) (hne : e.1 ≠ k) (v : V) (hv : v ∈ e.2) :
      ∃ a ≠ k, (a, v) ∈ entries := by
    rw [((h e.1 e.2).mp (mem_toList.mp he)).2, mem_bucket] at hv
    exact ⟨e.1, hne, hv⟩
  by_cases hk : bucket entries k = []
  · refine ⟨m.toList.flatMap Prod.snd, [], by simp [hk], ?_⟩
    intro v hv
    rw [List.append_nil, List.mem_flatMap] at hv
    obtain ⟨e, he, hv⟩ := hv
    refine hother e he ?_ v hv
    rintro rfl
    obtain ⟨hne, hbucket⟩ := (h e.1 e.2).mp (mem_toList.mp he)
    exact hne (hbucket.trans hk)
  · have hmem : (k, bucket entries k) ∈ m.toList := mem_toList.mpr ((h k _).mpr ⟨hk, rfl⟩)
    obtain ⟨before, after, hsplit⟩ := List.append_of_mem hmem
    have hkeys := nodup_keys_toList m
    rw [hsplit, List.map_append, List.map_cons, List.nodup_middle, List.nodup_cons] at hkeys
    refine ⟨before.flatMap Prod.snd, after.flatMap Prod.snd, by simp [hsplit], ?_⟩
    intro v hv
    rw [← List.flatMap_append, List.mem_flatMap] at hv
    obtain ⟨e, he, hv⟩ := hv
    refine hother e ?_ ?_ v hv
    · rw [hsplit]
      rcases List.mem_append.mp he with he | he
      · exact List.mem_append_left _ he
      · exact List.mem_append_right _ (List.mem_cons_of_mem _ he)
    · rintro rfl
      rw [← List.map_append] at hkeys
      exact hkeys.1 (List.mem_map.mpr ⟨e, he, rfl⟩)

end GroupsOf

/-- The values of a map, in the order of their keys. -/
theorem values_eq (m : BTreeMap K V) : m.values = m.toList.map Prod.snd := by
  obtain ⟨⟨m⟩⟩ := m
  induction m using Quotient.inductionOn with
  | h m =>
    change m.inner.values = (Std.DTreeMap.Internal.Impl.Const.toList m.inner).map Prod.snd
    rw [Std.DTreeMap.Internal.Impl.values_eq_map_snd,
      Std.DTreeMap.Internal.Impl.Const.toList_eq_toListModel_map, List.map_map]
    rfl

/-- Collecting elements with distinct keys is indexing them. -/
theorem indexOf_collect {key : β → K} {l : List β} (h : (l.map key).Nodup) :
    IndexOf key l (collect (l.map fun x => (key x, x))) where
  nodup := h
  get k x := by
    have hkeys : ((l.map fun x => (key x, x)).map Prod.fst).Nodup := by
      rw [List.map_map]
      exact h
    rw [getElem?_collect (functional_of_nodup hkeys)]
    simp [and_comm]

/-- Entries with distinct keys are listed in the order of their keys. -/
theorem toList_collect {entries : List (K × V)} (h : (entries.map Prod.fst).Nodup) :
    (collect entries).toList = Keyed.sortBy Prod.fst entries := by
  have hperm := toList_collect_perm h
  have hsorted : (collect entries).toList.Pairwise fun a b => a.1 ≤ b.1 :=
    Std.ExtTreeMap.ordered_keys_toList.imp fun hlt => (compare_lt_iff_lt.mp hlt).le
  rw [← Keyed.sortBy_of_sorted hsorted]
  exact Keyed.sortBy_eq_of_perm (hperm.map Prod.fst |>.nodup_iff.mpr h) hperm

end BTreeMap

import Mathlib

/-!
# Ordered maps and sets

A map is extensional, so equal contents are equal maps; its iteration order
is the order of its keys. A set is a `Finset`, listed in order by `ascending`.
-/

abbrev BTreeMap (K V : Type) [LinearOrder K] := Std.ExtTreeMap K V compare

instance BTreeMap.transCmp {K : Type} [LinearOrder K] :
    Std.TransCmp (compare : K → K → Ordering) := inferInstance

section Ascending

variable {K : Type} [LinearOrder K]

/-- The elements of a set in increasing order, as iteration yields them. -/
def ascending (s : Finset K) : List K :=
  Quot.liftOn s.val (List.insertionSort (· ≤ ·)) fun l₁ l₂ h =>
    List.Perm.eq_of_pairwise' (List.pairwise_insertionSort _ _) (List.pairwise_insertionSort _ _)
      ((List.perm_insertionSort _ l₁).trans (h.trans (List.perm_insertionSort _ l₂).symm))

theorem coe_ascending (s : Finset K) : (ascending s : Multiset K) = s.val := by
  obtain ⟨m, hn⟩ := s
  induction m using Quot.inductionOn with
  | h l => exact Multiset.coe_eq_coe.mpr (List.perm_insertionSort _ l)

@[simp] theorem mem_ascending {s : Finset K} : x ∈ ascending s ↔ x ∈ s := by
  rw [← Multiset.mem_coe, coe_ascending, Finset.mem_val]

theorem nodup_ascending (s : Finset K) : (ascending s).Nodup := by
  rw [← Multiset.coe_nodup, coe_ascending]
  exact s.nodup

theorem ascending_le (s : Finset K) : (ascending s).Pairwise (· ≤ ·) := by
  obtain ⟨m, hn⟩ := s
  induction m using Quot.inductionOn with
  | h l => exact List.pairwise_insertionSort _ _

theorem ascending_lt (s : Finset K) : (ascending s).Pairwise (· < ·) :=
  ((ascending_le s).and (nodup_ascending s)).imp fun ⟨hle, hne⟩ => lt_of_le_of_ne hle hne

@[simp] theorem toFinset_ascending (s : Finset K) : (ascending s).toFinset = s := by
  ext x
  simp

@[simp] theorem length_ascending (s : Finset K) : (ascending s).length = s.card := by
  rw [← Multiset.coe_card, coe_ascending, Finset.card_def]

theorem count_ascending_toFinset {l : List K} (h : l.Nodup) (x : K) :
    (ascending l.toFinset).count x = l.count x := by
  rw [(nodup_ascending _).count, h.count]
  simp

/-- The listing is the only strictly increasing one. -/
theorem ascending_unique {s : Finset K} {l : List K} (hl : l.Pairwise (· < ·))
    (h : ∀ x, x ∈ l ↔ x ∈ s) : ascending s = l := by
  have hle : l.Pairwise (· ≤ ·) := hl.imp le_of_lt
  refine List.Perm.eq_of_pairwise' (ascending_le s) hle ?_
  rw [List.perm_ext_iff_of_nodup (nodup_ascending s) (hl.imp ne_of_lt)]
  simp [h]

end Ascending

/-- `l.iter().collect::<BTreeSet<_>>().len() == l.len()`. -/
theorem card_toFinset_eq_length [DecidableEq α] {l : List α} :
    l.toFinset.card = l.length ↔ l.Nodup :=
  Multiset.toFinset_card_eq_card_iff_nodup (m := (l : Multiset α))

/-- Where a value without repetition stands in a concatenation of selected
lists: which list, and which place in it. -/
theorem flatMap_filter_position {l : List α} {q : α → Bool} {f : α → List β} {i i' j j' : Nat}
    (h : ((l.filter q).flatMap f).Nodup) (hi : l[i]? = some a) (ha : q a) (hj : (f a)[j]? = some x)
    (hi' : l[i']? = some a') (ha' : q a') (hj' : (f a')[j']? = some x) : i = i' ∧ j = j' := by
  obtain ⟨hn, hd⟩ := List.nodup_flatMap.mp h
  rw [List.pairwise_filter, List.pairwise_iff_getElem] at hd
  obtain ⟨hil, rfl⟩ := List.getElem?_eq_some_iff.mp hi
  obtain ⟨hil', rfl⟩ := List.getElem?_eq_some_iff.mp hi'
  have hx := List.mem_of_getElem? hj
  have hx' := List.mem_of_getElem? hj'
  have heq : i = i' := by
    rcases lt_trichotomy i i' with hlt | heq | hlt
    · exact (hd i i' hil hil' hlt ha ha' hx hx').elim
    · exact heq
    · exact (hd i' i hil' hil hlt ha' ha hx' hx).elim
  subst heq
  refine ⟨rfl, ?_⟩
  have hnodup := hn _ (List.mem_filter.mpr ⟨List.getElem_mem hil, ha⟩)
  obtain ⟨hjl, hje⟩ := List.getElem?_eq_some_iff.mp hj
  obtain ⟨hjl', hje'⟩ := List.getElem?_eq_some_iff.mp hj'
  exact (hnodup.getElem_inj_iff).mp (hje.trans hje'.symm)

namespace BTreeMap

variable {K V : Type} [LinearOrder K]

theorem getElem?_insert {m : BTreeMap K V} {k a : K} :
    (m.insert k v)[a]? = if k = a then some v else m[a]? := by
  simp only [Std.ExtTreeMap.getElem?_insert, Std.LawfulEqCmp.compare_eq_iff_eq]

theorem mem_iff {m : BTreeMap K V} {k : K} : k ∈ m ↔ ∃ v, m[k]? = some v := by
  rw [Std.ExtTreeMap.mem_iff_isSome_getElem?, Option.isSome_iff_exists]

theorem ext {m₁ m₂ : BTreeMap K V} (h : ∀ k : K, m₁[k]? = m₂[k]?) : m₁ = m₂ :=
  Std.ExtTreeMap.ext_getElem? fun k => h k

theorem eq_iff {m₁ m₂ : BTreeMap K V} :
    m₁ = m₂ ↔ ∀ (k : K) (v : V), m₁[k]? = some v ↔ m₂[k]? = some v :=
  ⟨fun h _ _ => by rw [h], fun h => ext fun k => Option.ext fun v => h k v⟩

theorem mem_toList {m : BTreeMap K V} {p : K × V} : p ∈ m.toList ↔ m[p.1]? = some p.2 :=
  Std.ExtTreeMap.mem_toList_iff_getElem?_eq_some

/-- `entries.collect::<BTreeMap<_, _>>()`: a later entry replaces an earlier one. -/
def collect (entries : List (K × V)) : BTreeMap K V :=
  entries.foldl (fun m e => m.insert e.1 e.2) ∅

/-- No key is listed with two values. -/
def Functional (entries : List (K × V)) : Prop :=
  ∀ k v w, (k, v) ∈ entries → (k, w) ∈ entries → v = w

omit [LinearOrder K] in
theorem functional_of_nodup {entries : List (K × V)} (h : (entries.map Prod.fst).Nodup) :
    Functional entries :=
  fun _ _ _ hv hw => congrArg Prod.snd (List.inj_on_of_nodup_map h hv hw rfl)

theorem getElem?_foldl_insert {entries : List (K × V)} {m : BTreeMap K V} {k : K}
    (h : Functional entries) :
    (entries.foldl (fun m e => m.insert e.1 e.2) m)[k]? = some v ↔
      (k, v) ∈ entries ∨ k ∉ entries.map Prod.fst ∧ m[k]? = some v := by
  induction entries generalizing m with
  | nil => simp
  | cons e es ih =>
    have htail : Functional es := fun k v w hv hw =>
      h k v w (List.mem_cons_of_mem _ hv) (List.mem_cons_of_mem _ hw)
    rw [List.foldl_cons, ih htail, getElem?_insert]
    by_cases hk : e.1 = k
    · subst hk
      have hself (w : V) (hw : (e.1, w) ∈ es) : w = e.2 :=
        h e.1 w e.2 (List.mem_cons_of_mem _ hw) List.mem_cons_self
      simp only [if_true, Option.some.injEq, List.mem_cons, List.map_cons, true_or, not_true_eq_false,
        false_and, or_false]
      constructor
      · rintro (hv | ⟨-, rfl⟩)
        · exact .inr hv
        · exact .inl rfl
      · rintro (he | hv)
        · have hv : e.2 = v := (congrArg Prod.snd he).symm
          by_cases hm : e.1 ∈ es.map Prod.fst
          · obtain ⟨⟨k, w⟩, hw, hk⟩ := List.mem_map.mp hm
            cases hk
            exact .inl (hv ▸ hself w hw ▸ hw)
          · exact .inr ⟨hm, hv⟩
        · exact .inl hv
    · simp [hk, Ne.symm hk, Prod.ext_iff]

/-- Without conflicting entries nothing is lost. -/
theorem getElem?_collect {entries : List (K × V)} {k : K} (h : Functional entries) :
    (collect entries)[k]? = some v ↔ (k, v) ∈ entries := by
  simp [collect, getElem?_foldl_insert h]

theorem mem_collect {entries : List (K × V)} (h : (entries.map Prod.fst).Nodup) :
    k ∈ collect entries ↔ k ∈ entries.map Prod.fst := by
  simp only [mem_iff, getElem?_collect (functional_of_nodup h), List.mem_map, Prod.exists,
    exists_and_right, exists_eq_right]

theorem nodup_keys_toList (m : BTreeMap K V) : (m.toList.map Prod.fst).Nodup := by
  rw [Std.ExtTreeMap.map_fst_toList_eq_keys]
  exact Std.ExtTreeMap.nodup_keys

/-- Collecting entries with distinct keys only sorts them. -/
theorem toList_collect_perm {entries : List (K × V)} (h : (entries.map Prod.fst).Nodup) :
    (collect entries).toList.Perm entries := by
  rw [List.perm_ext_iff_of_nodup (nodup_keys_toList _).of_map h.of_map]
  rintro ⟨k, v⟩
  rw [mem_toList, getElem?_collect (functional_of_nodup h)]

/-- `m.iter().filter(|(k, _)| p(k)).collect::<BTreeMap<_, _>>()`. -/
def restrict (m : BTreeMap K V) (p : K → Bool) : BTreeMap K V :=
  collect (m.toList.filter fun e => p e.1)

theorem getElem?_restrict {m : BTreeMap K V} {p : K → Bool} {k : K} :
    (restrict m p)[k]? = if p k then m[k]? else none := by
  have hn : ((m.toList.filter fun e => p e.1).map Prod.fst).Nodup :=
    (nodup_keys_toList m).sublist (List.filter_sublist.map _)
  ext v
  rw [restrict, getElem?_collect (functional_of_nodup hn), List.mem_filter, mem_toList]
  cases p k <;> simp

/-- `keys.map(|k| (k, f(k))).collect::<BTreeMap<_, _>>()`. -/
def tabulate (keys : List K) (f : K → V) : BTreeMap K V :=
  keys.foldl (fun m k => m.insert k (f k)) ∅

theorem getElem?_tabulate {keys : List K} {f : K → V} {k : K} :
    (tabulate keys f)[k]? = if k ∈ keys then some (f k) else none := by
  have general (m : BTreeMap K V) :
      (keys.foldl (fun m k => m.insert k (f k)) m)[k]? = if k ∈ keys then some (f k) else m[k]? := by
    induction keys generalizing m with
    | nil => simp
    | cons x xs ih =>
      rw [List.foldl_cons, ih, getElem?_insert]
      by_cases hk : k ∈ xs
      · simp [hk]
      · by_cases hx : x = k
        · simp [hx]
        · simp [hk, hx, Ne.symm hx]
  simpa [tabulate] using general ∅

/-- `map.entry(key).or_default().push(value)`. -/
def pushEntry (m : BTreeMap K (List V)) (k : K) (v : V) : BTreeMap K (List V) :=
  m.insert k ((m[k]?).getD [] ++ [v])

/-- A list indexed by a key, each bucket in list order. -/
def groupBy (key : V → K) (l : List V) : BTreeMap K (List V) :=
  l.foldl (fun m x => m.pushEntry (key x) x) ∅

theorem getElem?_foldl_pushEntry {α : Type} (key : α → K) (value : α → V) {l : List α}
    {m : BTreeMap K (List V)} {k : K} :
    (l.foldl (fun m x => m.pushEntry (key x) (value x)) m)[k]? =
      if l.filter (key · = k) = [] then m[k]?
      else some ((m[k]?).getD [] ++ (l.filter (key · = k)).map value) := by
  induction l generalizing m with
  | nil => simp
  | cons x xs ih =>
    rw [List.foldl_cons, ih, pushEntry, getElem?_insert]
    by_cases hx : key x = k
    · by_cases hxs : xs.filter (key · = k) = [] <;> simp [hx, hxs]
    · simp [hx]

theorem getElem?_groupBy {key : V → K} {l : List V} {k : K} :
    (groupBy key l)[k]? = if l.filter (key · = k) = [] then none else some (l.filter (key · = k)) := by
  simpa [groupBy] using getElem?_foldl_pushEntry key (fun x : V => x) (l := l) (m := ∅) (k := k)

end BTreeMap

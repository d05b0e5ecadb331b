import DagMl.Lib.Checked
import DagMl.Lib.Collections

/-!
# Entries of a map

Values of several sources are entered into one map, each source under its own
key. A guarded source refuses a key that is taken, an unguarded one replaces
what is there; `Recorded` says what the map holds after a list of entries.
-/

namespace Entries

open Checked

variable {K V S ε : Type} [LinearOrder K]

/-- `if map.insert(key, value).is_some() { return Err(taken) }`. -/
def enter (m : BTreeMap K V) (k : K) (v : V) (taken : ε) : Except ε (BTreeMap K V) := do
  refuseIf (k ∈ m) taken
  pure (m.insert k v)

theorem enter_ok {m m' : BTreeMap K V} {taken : ε} :
    enter m k v taken = .ok m' ↔ k ∉ m ∧ m' = m.insert k v := by
  simp only [enter, bind_ok, refuseIf_ok, pure_ok]
  constructor
  · rintro ⟨_, hfree, rfl⟩
    exact ⟨hfree, rfl⟩
  · rintro ⟨hfree, rfl⟩
    exact ⟨(), hfree, rfl⟩

/-- The entries of a list of sources, in order; a guarded one found its key free. -/
structure Recorded (key : S → K) (guarded : S → Prop) (offers : List (S × V)) (m : BTreeMap K V) :
    Prop where
  entries : m = BTreeMap.collect (offers.map fun o => (key o.1, o.2))
  free : offers.Pairwise fun o o' => guarded o'.1 → key o.1 ≠ key o'.1

section

variable {key : S → K} {guarded : S → Prop} {offers : List (S × V)} {m m' : BTreeMap K V} {s : S}

theorem Recorded.nil : Recorded key guarded ([] : List (S × V)) ∅ := ⟨rfl, .nil⟩

theorem collect_append_singleton {l : List (K × V)} {e : K × V} :
    BTreeMap.collect (l ++ [e]) = (BTreeMap.collect l).insert e.1 e.2 := by
  rw [BTreeMap.collect, List.foldl_append]
  rfl

/-- What is collected was listed. -/
theorem mem_of_getElem?_collect {l : List (K × V)} (h : (BTreeMap.collect l)[k]? = some v) :
    (k, v) ∈ l := by
  induction l using List.reverseRecOn with
  | nil => simp [BTreeMap.collect] at h
  | append_singleton l e ih =>
    rw [collect_append_singleton, BTreeMap.getElem?_insert] at h
    rw [List.mem_append, List.mem_singleton]
    split at h
    · rename_i hk
      cases h
      exact .inr (by rw [← hk])
    · exact .inl (ih h)

theorem mem_collect_iff {l : List (K × V)} : k ∈ BTreeMap.collect l ↔ k ∈ l.map Prod.fst := by
  induction l using List.reverseRecOn with
  | nil => simp [BTreeMap.collect]
  | append_singleton l e ih =>
    rw [collect_append_singleton, Std.ExtTreeMap.mem_insert, compare_eq_iff_eq, ih, List.map_append,
      List.mem_append, List.map_singleton, List.mem_singleton, or_comm, eq_comm]

/-- The keys of the map are those of the entries. -/
theorem Recorded.mem (h : Recorded key guarded offers m) : k ∈ m ↔ ∃ o ∈ offers, key o.1 = k := by
  rw [h.entries, mem_collect_iff, List.map_map, List.mem_map]
  rfl

theorem Recorded.insert (h : Recorded key guarded offers m) (hfree : guarded s → key s ∉ m) :
    Recorded key guarded (offers ++ [(s, v)]) (m.insert (key s) v) where
  entries := by rw [h.entries, List.map_append, List.map_singleton, collect_append_singleton]
  free := by
    refine List.pairwise_append.mpr ⟨h.free, List.pairwise_singleton _ _, fun o ho o' ho' => ?_⟩
    obtain rfl := List.mem_singleton.mp ho'
    exact fun hguard heq => hfree hguard (h.mem.mpr ⟨o, ho, heq⟩)

theorem Recorded.enter {taken : ε} (h : Recorded key guarded offers m)
    (henter : enter m (key s) v taken = .ok m') :
    Recorded key guarded (offers ++ [(s, v)]) m' := by
  obtain ⟨hfree, rfl⟩ := enter_ok.mp henter
  exact h.insert fun _ => hfree

theorem Recorded.replace (h : Recorded key guarded offers m) (hs : ¬guarded s) :
    Recorded key guarded (offers ++ [(s, v)]) (m.insert (key s) v) :=
  h.insert fun hguard => absurd hguard hs

theorem Recorded.replaceAll (h : Recorded key guarded offers m)
    (hs : ∀ o ∈ more, ¬guarded o.1) :
    Recorded key guarded (offers ++ more) (more.foldl (fun m o => m.insert (key o.1) o.2) m) := by
  induction more generalizing offers m with
  | nil => simpa using h
  | cons o more ih =>
    obtain ⟨ho, hmore⟩ := List.forall_mem_cons.mp hs
    simpa using ih (h.replace (v := o.2) ho) hmore

/-- What the map holds was offered under its key. -/
theorem Recorded.origin (h : Recorded key guarded offers m) (hm : m[k]? = some v) :
    ∃ s, (s, v) ∈ offers ∧ key s = k := by
  rw [h.entries] at hm
  obtain ⟨⟨s, v⟩, hs, he⟩ := List.mem_map.mp (mem_of_getElem?_collect hm)
  cases he
  exact ⟨s, hs, rfl⟩

/-- With every key offered one value, each is found under its key. -/
theorem Recorded.getElem? (h : Recorded key guarded offers m)
    (hkeys : ∀ o ∈ offers, ∀ o' ∈ offers, key o.1 = key o'.1 → o.2 = o'.2)
    (hs : (s, v) ∈ offers) : m[key s]? = some v := by
  have hmem : key s ∈ m := h.mem.mpr ⟨_, hs, rfl⟩
  obtain ⟨w, hw⟩ := BTreeMap.mem_iff.mp hmem
  obtain ⟨s', hs', hkey⟩ := h.origin hw
  obtain rfl : w = v := hkeys _ hs' _ hs hkey
  exact hw

/-- Of two entries with one key one is unguarded. -/
theorem Recorded.unguarded (h : Recorded key guarded offers m) (ho : o ∈ offers)
    (ho' : o' ∈ offers) (hne : o ≠ o') (hkey : key o.1 = key o'.1) :
    ¬guarded o.1 ∨ ¬guarded o'.1 := by
  have hfree : offers.Pairwise fun o o' => key o.1 = key o'.1 → ¬guarded o.1 ∨ ¬guarded o'.1 :=
    h.free.imp fun hfree hkey => .inr fun hguard => hfree hguard hkey
  have : Std.Symm fun o o' : S × V => key o.1 = key o'.1 → ¬guarded o.1 ∨ ¬guarded o'.1 :=
    ⟨fun o o' h hkey => (h hkey.symm).symm⟩
  exact hfree.forall ho ho' hne hkey

end

-- ---------------------------------------------------------------------------
-- Loops that add
-- ---------------------------------------------------------------------------

/-- A fact that each step adds to, the loop adds to. -/
theorem loop_adds {σ α : Type} {f : σ → α → Except ε σ} {l : List α} {s t : σ} {H : σ → Prop}
    {Q : α → Prop} (hrun : loop f s l = .ok t)
    (hstep : ∀ s x t, x ∈ l → f s x = .ok t → (H t ↔ H s ∨ Q x)) :
    H t ↔ H s ∨ ∃ x ∈ l, Q x := by
  induction l generalizing s with
  | nil =>
    cases hrun
    simp
  | cons x l ih =>
    obtain ⟨mid, hmid, hrun⟩ := loop_cons.mp hrun
    rw [ih hrun fun s y t hy => hstep s y t (List.mem_cons_of_mem _ hy),
      hstep s x mid List.mem_cons_self hmid]
    simp [or_assoc]

-- ---------------------------------------------------------------------------
-- Lists in the order of a key
-- ---------------------------------------------------------------------------

theorem ordered_toList (m : BTreeMap K V) : m.toList.Pairwise fun a b => a.1 < b.1 :=
  m.ordered_keys_toList.imp compare_lt_iff_lt.mp

/-- Two lists in the order of two keys are one list when they have the same
members and the keys order them alike. -/
theorem eq_iff_of_ordered {α : Type} {l l' : List α} {f g : α → K}
    (hl : l.Pairwise fun x y => f x < f y) (hl' : l'.Pairwise fun x y => g x < g y) :
    l = l' ↔ (∀ x, x ∈ l ↔ x ∈ l') ∧ ∀ x ∈ l, ∀ y ∈ l, f x < f y → g x < g y := by
  constructor
  · rintro rfl
    refine ⟨fun _ => .rfl, fun x hx y hy hlt => ?_⟩
    have hboth : l.Pairwise fun x y => f x < f y → g x < g y :=
      hl'.imp fun {x y} (hg : g x < g y) (_ : f x < f y) => hg
    have hback : l.Pairwise fun x y => f y < f x → g y < g x :=
      hl.imp fun {x y} (hf : f x < f y) (hf' : f y < f x) => absurd hf' (not_lt_of_gt hf)
    exact List.Pairwise.forall_of_forall_of_flip (fun _ _ h => absurd h (lt_irrefl _)) hboth hback
      hx hy hlt
  · rintro ⟨hmem, horder⟩
    have hsorted : l.Pairwise fun x y => g x < g y :=
      hl.imp_of_mem fun hx hy hlt => horder _ hx _ hy hlt
    have : Std.Irrefl fun x y : α => g x < g y := ⟨fun x => lt_irrefl (g x)⟩
    have : Std.Antisymm fun x y : α => g x < g y := ⟨fun x y h h' => absurd h' (not_lt_of_gt h)⟩
    exact hsorted.eq_of_mem_iff hl' hmem

-- ---------------------------------------------------------------------------
-- Joined names
-- ---------------------------------------------------------------------------

/-- Two names joined at a mark are one text when the parts agree, or when a
part of one name runs into the mark of the other. -/
theorem joined_eq_iff {α : Type} {mark : α} {a b p q : List α} :
    a ++ mark :: p = b ++ mark :: q ↔ a = b ∧ p = q ∨
      (∃ middle, b = a ++ mark :: middle ∧ p = middle ++ mark :: q) ∨
      ∃ middle, a = b ++ mark :: middle ∧ q = middle ++ mark :: p := by
  rw [List.append_eq_append_iff]
  constructor
  · rintro (⟨_ | ⟨c, rest⟩, hb, hp⟩ | ⟨_ | ⟨c, rest⟩, ha, hq⟩)
    · simp only [List.nil_append, List.cons.injEq, true_and] at hp
      exact .inl ⟨by simpa using hb.symm, hp⟩
    · simp only [List.cons_append, List.cons.injEq] at hp
      obtain ⟨rfl, hp⟩ := hp
      exact .inr (.inl ⟨rest, hb, hp⟩)
    · simp only [List.nil_append, List.cons.injEq, true_and] at hq
      exact .inl ⟨by simpa using ha, hq.symm⟩
    · simp only [List.cons_append, List.cons.injEq] at hq
      obtain ⟨rfl, hq⟩ := hq
      exact .inr (.inr ⟨rest, ha, hq⟩)
  · rintro (⟨rfl, rfl⟩ | ⟨rest, rfl, rfl⟩ | ⟨rest, rfl, rfl⟩)
    · exact .inl ⟨[], by simp, by simp⟩
    · exact .inl ⟨mark :: rest, by simp, by simp⟩
    · exact .inr ⟨mark :: rest, by simp, by simp⟩

end Entries

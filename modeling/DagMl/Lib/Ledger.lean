import DagMl.Lib.Checked
import DagMl.Lib.Collections
import DagMl.Lib.Keyed

/-!
# Append-only ledgers

A ledger grows at its end, and whether it did is asked with a comparison that
need not be reflexive; `Grows` says what was added. A list in strict key order holds each key once, so a
merge that ends in strict order has lost and repeated nothing.
-/

namespace Ledger

variable {α K V : Type}

-- ---------------------------------------------------------------------------
-- Partial comparisons
-- ---------------------------------------------------------------------------

/-- `a == b` of two options. -/
def optionEq (eq : α → α → Bool) : Option α → Option α → Bool
  | none, none => true
  | some a, some b => eq a b
  | _, _ => false

/-- `a == b` of two ordered maps. -/
def mapEq [LinearOrder K] (eq : V → V → Bool) (m m' : BTreeMap K V) : Bool :=
  m.toList.isEqv m'.toList fun entry entry' => entry.1 = entry'.1 && eq entry.2 entry'.2

/-- `l.starts_with(needle)`. -/
def startsWith (eq : α → α → Bool) (l needle : List α) : Bool :=
  needle.length ≤ l.length && needle.isEqv (l.take needle.length) eq

/-- The comparison may be passed on; nothing says that a value equals itself. -/
def Carries (eq : α → α → Bool) : Prop := ∀ a b c, eq a b = true → eq b c = true → eq a c = true

variable {eq : α → α → Bool}

theorem isEqv_iff {l l' : List α} :
    l.isEqv l' eq = true ↔ List.Forall₂ (fun a b => eq a b = true) l l' := by
  induction l generalizing l' with
  | nil => cases l' <;> simp [List.isEqv]
  | cons a l ih => cases l' <;> simp [List.isEqv, ih]

theorem Carries.option (h : Carries eq) : Carries (optionEq eq) := by
  rintro (_ | a) (_ | b) (_ | c) hab hbc
  all_goals simp_all only [optionEq, Bool.false_eq_true]
  exact h _ _ _ hab hbc

theorem Carries.list (h : Carries eq) : Carries fun l l' : List α => l.isEqv l' eq := by
  intro a b c hab hbc
  simp only [isEqv_iff] at *
  induction hab generalizing c with
  | nil => exact hbc
  | cons hxy _ ih =>
    cases hbc with
    | cons hyz hrest => exact .cons (h _ _ _ hxy hyz) (ih _ hrest)

theorem Carries.map [LinearOrder K] {eq : V → V → Bool} (h : Carries eq) :
    Carries (mapEq (K := K) eq) := by
  intro a b c
  refine Carries.list ?_ _ _ _
  intro x y z hxy hyz
  simp only [Bool.and_eq_true, decide_eq_true_eq] at *
  exact ⟨hxy.1.trans hyz.1, h _ _ _ hxy.2 hyz.2⟩

theorem Carries.startsWith (h : Carries eq) {l m n : List α} (hlm : startsWith eq l m = true)
    (hmn : startsWith eq m n = true) : startsWith eq l n = true := by
  simp only [Ledger.startsWith, Bool.and_eq_true, decide_eq_true_eq] at *
  obtain ⟨hle, hlm⟩ := hlm
  obtain ⟨hle', hmn⟩ := hmn
  refine ⟨hle'.trans hle, h.list _ _ _ hmn ?_⟩
  have htake := List.forall₂_take n.length (isEqv_iff.mp hlm)
  rw [List.take_take, min_eq_left hle'] at htake
  exact isEqv_iff.mpr htake

-- ---------------------------------------------------------------------------
-- Growth
-- ---------------------------------------------------------------------------

/-- `l'` is `l` with entries added at the end, each of which has `P`. -/
def Grows (P : α → Prop) (l l' : List α) : Prop := ∃ added, l' = l ++ added ∧ ∀ a ∈ added, P a

namespace Grows

variable {P Q : α → Prop} {l l' l'' : List α}

theorem refl (l : List α) : Grows P l l := ⟨[], by simp, by simp⟩

theorem snoc (ha : P a) : Grows P l (l ++ [a]) := ⟨[a], rfl, by simpa using ha⟩

theorem trans (h : Grows P l l') (h' : Grows P l' l'') : Grows P l l'' := by
  obtain ⟨added, rfl, hadded⟩ := h
  obtain ⟨more, rfl, hmore⟩ := h'
  refine ⟨added ++ more, List.append_assoc _ _ _, fun a ha => ?_⟩
  rcases List.mem_append.mp ha with ha | ha
  · exact hadded a ha
  · exact hmore a ha

theorem mono (h : Grows P l l') (hpq : ∀ a, P a → Q a) : Grows Q l l' := by
  obtain ⟨added, rfl, hadded⟩ := h
  exact ⟨added, rfl, fun a ha => hpq a (hadded a ha)⟩

theorem loop {β ε : Type} {f : List α → β → Except ε (List α)} {xs : List β}
    (step : ∀ l x l', f l x = .ok l' → Grows P l l') (h : Checked.loop f l xs = .ok l') :
    Grows P l l' := by
  refine Checked.loop_invariant (fun _ s => Grows P l s) (.refl l) ?_ h
  intro _ x s s' hs hx
  exact hs.trans (step s x s' hx)

/-- An entry that lacks `P` is as frequent as before. -/
theorem count_eq [DecidableEq α] (h : Grows P l l') (ha : ¬P a) : l'.count a = l.count a := by
  obtain ⟨added, rfl, hadded⟩ := h
  rw [List.count_append, List.count_eq_zero_of_not_mem fun hm => ha (hadded a hm), Nat.add_zero]

end Grows

-- ---------------------------------------------------------------------------
-- Strict key order
-- ---------------------------------------------------------------------------

variable [LinearOrder K] {key : α → K}

/-- The keys are strictly ascending. -/
def Ascends (key : α → K) (l : List α) : Prop := l.Pairwise fun a b => key a < key b

instance (key : α → K) (l : List α) : Decidable (Ascends key l) :=
  inferInstanceAs (Decidable (l.Pairwise _))

/-- `l.windows(2)`. -/
def windows (l : List α) : List (α × α) := l.zip l.tail

theorem forall_windows {l : List α} : (∀ pair ∈ windows l, key pair.1 < key pair.2) ↔
    Ascends key l := by
  have : IsTrans α (fun a b => key a < key b) := ⟨fun _ _ _ => lt_trans⟩
  rw [Ascends, ← List.isChain_iff_pairwise]
  induction l with
  | nil => simp [windows]
  | cons a l ih =>
    cases l with
    | nil => simp [windows]
    | cons b l =>
      simp only [windows, List.tail_cons, List.zip_cons_cons, List.forall_mem_cons,
        List.isChain_cons_cons] at ih ⊢
      exact and_congr Iff.rfl ih

namespace Ascends

variable {l l' : List α}

theorem nodup (h : Ascends key l) : (l.map key).Nodup :=
  List.Pairwise.map key (fun _ _ hab => ne_of_lt hab) h

/-- An entry is the only one under its key. -/
theorem filter_key [DecidableEq K] (h : Ascends key l) (ha : a ∈ l) :
    l.filter (key · = key a) = [a] := by
  induction l with
  | nil => cases ha
  | cons b l ih =>
    obtain ⟨hb, hl⟩ := List.pairwise_cons.mp h
    rcases List.mem_cons.mp ha with rfl | ha
    · have hnone : l.filter (key · = key a) = [] := by
        rw [List.filter_eq_nil_iff]
        intro c hc
        simpa using (hb c hc).ne'
      simp [hnone]
    · have hne : key b ≠ key a := (hb a ha).ne
      simpa [hne] using ih hl ha

/-- Two ledgers in strict order with the same entries are the same. -/
theorem eq_of_mem_iff (h : Ascends key l) (h' : Ascends key l') (hmem : ∀ a, a ∈ l ↔ a ∈ l') :
    l = l' := by
  have hperm := (List.perm_ext_iff_of_nodup h.nodup.of_map h'.nodup.of_map).mpr hmem
  exact hperm.eq_of_pairwise (fun _ _ _ _ hab hba => (lt_asymm hab hba).elim) h h'

end Ascends

end Ledger

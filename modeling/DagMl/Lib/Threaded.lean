import DagMl.Lib.Checked

/-!
# Rewriting in place

Loops that replace each element of a list and thread a state through the
replacements. A rewriting of a tree is such a loop over the places it visits.
-/

namespace Checked

variable {ε α β σ : Type}

/-- `for x in xs.iter_mut() { rewrite(x, state)?; }`. -/
def thread (f : σ → α → Except ε (σ × β)) (s : σ) : List α → Except ε (σ × List β)
  | [] => .ok (s, [])
  | x :: xs => do
    let y ← f s x
    let ys ← thread f y.1 xs
    pure (ys.1, y.2 :: ys.2)

variable {f : σ → α → Except ε (σ × β)}

@[simp] theorem thread_nil : thread f s [] = .ok (t, ys) ↔ s = t ∧ ys = [] := by
  simp [thread, eq_comm]

theorem thread_cons : thread f s (x :: xs) = .ok (t, ys) ↔
    ∃ s' y ys', f s x = .ok (s', y) ∧ thread f s' xs = .ok (t, ys') ∧ ys = y :: ys' := by
  simp only [thread, bind_ok, pure_ok, Prod.exists, Prod.mk.injEq]
  constructor
  · rintro ⟨s', y, hx, t', ys', hxs, rfl, rfl⟩
    exact ⟨s', y, ys', hx, hxs, rfl⟩
  · rintro ⟨s', y, ys', hx, hxs, rfl⟩
    exact ⟨s', y, hx, t, ys', hxs, rfl, rfl⟩

theorem thread_append {xs xs' : List α} {ys ys' : List β} (h : thread f s xs = .ok (t, ys))
    (h' : thread f t xs' = .ok (u, ys')) : thread f s (xs ++ xs') = .ok (u, ys ++ ys') := by
  induction xs generalizing s ys with
  | nil =>
    obtain ⟨rfl, rfl⟩ := thread_nil.mp h
    exact h'
  | cons x xs ih =>
    obtain ⟨s', y, zs, hx, hxs, rfl⟩ := thread_cons.mp h
    exact thread_cons.mpr ⟨s', y, zs ++ ys', hx, ih hxs, rfl⟩

/-- What every turn keeps, with the elements read and written so far. -/
theorem thread_invariant {xs : List α} {ys : List β} (I : List α → List β → σ → Prop)
    (start : I [] [] s)
    (step : ∀ read written s x s' y, I read written s → f s x = .ok (s', y) →
      I (read ++ [x]) (written ++ [y]) s')
    (h : thread f s xs = .ok (t, ys)) : I xs ys t := by
  have general (read : List α) (written : List β) (s : σ) (ys : List β) (h₀ : I read written s)
      (hrun : thread f s xs = .ok (t, ys)) : I (read ++ xs) (written ++ ys) t := by
    clear start h
    induction xs generalizing read written s ys with
    | nil =>
      obtain ⟨rfl, rfl⟩ := thread_nil.mp hrun
      simpa using h₀
    | cons x xs ih =>
      obtain ⟨s', y, ys', hx, hxs, rfl⟩ := thread_cons.mp hrun
      have hrest := ih (read ++ [x]) (written ++ [y]) s' ys' (step _ _ _ _ _ _ h₀ hx) hxs
      simpa using hrest
  exact general [] [] s ys start h

/-- A relation that every turn establishes. -/
theorem thread_forall₂ {R : α → β → Prop} {xs : List α} {ys : List β}
    (step : ∀ s x s' y, f s x = .ok (s', y) → R x y) (h : thread f s xs = .ok (t, ys)) :
    List.Forall₂ R xs ys := by
  induction xs generalizing s ys with
  | nil =>
    obtain ⟨-, rfl⟩ := thread_nil.mp h
    exact .nil
  | cons x xs ih =>
    obtain ⟨s', y, ys', hx, hxs, rfl⟩ := thread_cons.mp h
    exact .cons (step _ _ _ _ hx) (ih hxs)

end Checked

import Mathlib

/-!
# Fallible steps

Reading a checked computation backwards: what its success says about each
step. The loops here are the three a validator is made of: run a check on
every element, collect the results, and refuse the first repeated key.
-/

namespace Checked

variable {ε ε' α β γ σ : Type}

theorem bind_ok {x : Except ε α} {f : α → Except ε β} :
    x >>= f = .ok b ↔ ∃ a, x = .ok a ∧ f a = .ok b := by
  cases x <;> simp [bind, Except.bind]

theorem bind_error {x : Except ε α} {f : α → Except ε β} :
    x >>= f = .error e ↔ x = .error e ∨ ∃ a, x = .ok a ∧ f a = .error e := by
  cases x <;> simp [bind, Except.bind]

/-- The value of a computation that is known to succeed. -/
def valueOf : (x : Except ε α) → x.isOk = true → α
  | .ok a, _ => a

theorem eq_ok_valueOf {x : Except ε α} (h : x.isOk = true) : x = .ok (valueOf x h) := by
  cases x with
  | ok a => rfl
  | error e => cases h

theorem toOption_any {x : Except ε α} {p : α → Bool} :
    x.toOption.any p = true ↔ ∃ a, x = .ok a ∧ p a = true := by
  cases x with
  | ok a => simp [Except.toOption]
  | error e => simp [Except.toOption]

theorem pure_ok {a b : α} : (pure a : Except ε α) = .ok b ↔ a = b := by
  simp [pure, Except.pure]

@[simp] theorem throw_ok {e : ε} {a : α} : (throw e : Except ε α) = .ok a ↔ False :=
  ⟨fun h => (nomatch h), fun h => h.elim⟩

@[simp] theorem error_ok {e : ε} {a : α} : (Except.error e : Except ε α) = .ok a ↔ False :=
  ⟨fun h => (nomatch h), fun h => h.elim⟩

/-- `if cond { return Err(e) }`. -/
def refuseIf (cond : Prop) [Decidable cond] (e : ε) : Except ε Unit :=
  if cond then .error e else .ok ()

theorem refuseIf_ok {cond : Prop} [Decidable cond] {e : ε} :
    refuseIf cond e = .ok u ↔ ¬cond := by
  unfold refuseIf
  split <;> simp_all

theorem refuseIf_error {cond : Prop} [Decidable cond] {e e' : ε} :
    refuseIf cond e = .error e' ↔ cond ∧ e = e' := by
  unfold refuseIf
  split <;> simp_all

/-- `if cond { check()? }`. -/
def checkIf (cond : Prop) [Decidable cond] (check : Except ε Unit) : Except ε Unit :=
  if cond then check else .ok ()

theorem checkIf_ok {cond : Prop} [Decidable cond] {check : Except ε Unit} :
    checkIf cond check = .ok u ↔ (cond → check = .ok ()) := by
  unfold checkIf
  split <;> simp_all

/-- `option.ok_or(e)?`. -/
def need (o : Option α) (e : ε) : Except ε α :=
  match o with
  | some a => .ok a
  | none => .error e

theorem need_ok {o : Option α} {e : ε} : need o e = .ok a ↔ o = some a := by
  cases o <;> simp [need]

/-- `if let Some(a) = option { return Err(e(a)) }`. -/
def vacant (o : Option α) (e : α → ε) : Except ε Unit :=
  match o with
  | none => .ok ()
  | some a => .error (e a)

theorem vacant_ok {o : Option α} {e : α → ε} : vacant o e = .ok u ↔ o = none := by
  cases o <;> simp [vacant]

/-- `if let Some(a) = option { check(a)? }`. -/
def whenSome (o : Option α) (check : α → Except ε Unit) : Except ε Unit :=
  match o with
  | none => .ok ()
  | some a => check a

theorem whenSome_ok {o : Option α} {check : α → Except ε Unit} :
    whenSome o check = .ok u ↔ ∀ a, o = some a → check a = .ok () := by
  cases o <;> simp [whenSome]

-- ---------------------------------------------------------------------------
-- Loops
-- ---------------------------------------------------------------------------

/-- `for x in xs { check(x)?; }`. -/
def each (l : List α) (f : α → Except ε Unit) : Except ε Unit :=
  match l with
  | [] => .ok ()
  | x :: xs => f x >>= fun _ => each xs f

@[simp] theorem each_nil {f : α → Except ε Unit} : each [] f = .ok () := rfl

theorem each_ok {l : List α} {f : α → Except ε Unit} :
    each l f = .ok u ↔ ∀ x ∈ l, f x = .ok () := by
  induction l with
  | nil => simp
  | cons x xs ih =>
    simp only [each, bind_ok, ih, List.forall_mem_cons]
    exact ⟨fun ⟨_, h, hs⟩ => ⟨h, hs⟩, fun ⟨h, hs⟩ => ⟨(), h, hs⟩⟩

theorem exists_of_each_error {l : List α} {f : α → Except ε Unit} (h : each l f = .error e) :
    ∃ x ∈ l, f x = .error e := by
  induction l with
  | nil => cases h
  | cons x xs ih =>
    rcases bind_error.mp h with hx | ⟨_, -, hxs⟩
    · exact ⟨x, List.mem_cons_self, hx⟩
    · obtain ⟨y, hy, he⟩ := ih hxs
      exact ⟨y, List.mem_cons_of_mem _ hy, he⟩

/-- `for (i, x) in xs.iter().enumerate() { check(i, x)?; }`. -/
def eachIdx (l : List α) (f : Nat → α → Except ε Unit) : Except ε Unit :=
  each l.zipIdx fun e => f e.2 e.1

theorem eachIdx_ok {l : List α} {f : Nat → α → Except ε Unit} :
    eachIdx l f = .ok u ↔ ∀ i x, l[i]? = some x → f i x = .ok () := by
  rw [eachIdx, each_ok]
  constructor
  · exact fun h i x hx => h (x, i) (List.mem_zipIdx_iff_getElem?.mpr hx)
  · exact fun h e he => h e.2 e.1 (List.mem_zipIdx_iff_getElem?.mp he)

/-- `xs.iter().map(f).collect::<Result<Vec<_>>>()`. -/
def collect (l : List α) (f : α → Except ε β) : Except ε (List β) :=
  match l with
  | [] => .ok []
  | x :: xs => do
    let y ← f x
    let ys ← collect xs f
    pure (y :: ys)

theorem collect_ok {l : List α} {f : α → Except ε β} :
    collect l f = .ok ys ↔ List.Forall₂ (fun x y => f x = .ok y) l ys := by
  induction l generalizing ys with
  | nil => cases ys <;> simp [collect]
  | cons x xs ih =>
    simp only [collect, bind_ok, pure_ok, List.forall₂_cons_left_iff]
    constructor
    · rintro ⟨y, hy, ys, hys, rfl⟩
      exact ⟨y, ys, hy, ih.mp hys, rfl⟩
    · rintro ⟨y, ys, hy, hys, rfl⟩
      exact ⟨y, hy, ys, ih.mpr hys, rfl⟩

theorem exists_collect {l : List α} {f : α → Except ε β} (h : ∀ x ∈ l, ∃ y, f x = .ok y) :
    ∃ ys, collect l f = .ok ys := by
  induction l with
  | nil => exact ⟨[], rfl⟩
  | cons x xs ih =>
    rw [List.forall_mem_cons] at h
    obtain ⟨⟨y, hy⟩, hxs⟩ := h
    obtain ⟨ys, hys⟩ := ih hxs
    exact ⟨y :: ys, collect_ok.mpr (.cons hy (collect_ok.mp hys))⟩

theorem map_of_collect {l : List α} {f : α → Except ε β} {g : β → γ} {g' : α → γ}
    (h : collect l f = .ok ys) (hf : ∀ x y, f x = .ok y → g y = g' x) :
    ys.map g = l.map g' := by
  induction collect_ok.mp h with
  | nil => rfl
  | cons hxy hrest ih =>
    rw [List.map_cons, List.map_cons, hf _ _ hxy, ih (collect_ok.mpr hrest)]

/-- `collect` over `enumerate()`. -/
def collectIdx (l : List α) (f : Nat → α → Except ε β) : Except ε (List β) :=
  collect l.zipIdx fun e => f e.2 e.1

theorem collectIdx_ok {l : List α} {f : Nat → α → Except ε β} :
    collectIdx l f = .ok ys ↔ l.length = ys.length ∧
      ∀ i x y, l[i]? = some x → ys[i]? = some y → f i x = .ok y := by
  rw [collectIdx, collect_ok, List.forall₂_iff_get]
  refine and_congr (by rw [List.length_zipIdx]) ⟨fun h i x y hx hy => ?_, fun h i hi hi' => ?_⟩
  · obtain ⟨hi, rfl⟩ := List.getElem?_eq_some_iff.mp hx
    obtain ⟨hi', rfl⟩ := List.getElem?_eq_some_iff.mp hy
    simpa using h i (by simpa using hi) hi'
  · apply h
    · simp
    · simp

/-- What an element of the second list is related to. -/
theorem exists_left_of_mem {R : α → β → Prop} {l : List α} {l' : List β}
    (h : List.Forall₂ R l l') (hb : b ∈ l') : ∃ a ∈ l, R a b := by
  induction h with
  | nil => cases hb
  | cons hab _ ih =>
    rcases List.mem_cons.mp hb with rfl | hb
    · exact ⟨_, List.mem_cons_self, hab⟩
    · obtain ⟨a, ha, hr⟩ := ih hb
      exact ⟨a, List.mem_cons_of_mem _ ha, hr⟩

theorem exists_right_of_mem {R : α → β → Prop} {l : List α} {l' : List β}
    (h : List.Forall₂ R l l') (ha : a ∈ l) : ∃ b ∈ l', R a b :=
  exists_left_of_mem h.flip ha

/-- A loop that threads a state through fallible steps. -/
def loop (f : σ → α → Except ε σ) (s : σ) (l : List α) : Except ε σ :=
  match l with
  | [] => .ok s
  | x :: xs => f s x >>= fun s => loop f s xs

@[simp] theorem loop_nil {f : σ → α → Except ε σ} : loop f s [] = .ok s := rfl

theorem loop_cons {f : σ → α → Except ε σ} :
    loop f s (x :: xs) = .ok t ↔ ∃ s', f s x = .ok s' ∧ loop f s' xs = .ok t := bind_ok

theorem loop_append {f : σ → α → Except ε σ} {xs ys : List α} :
    loop f s (xs ++ ys) = .ok t ↔ ∃ s', loop f s xs = .ok s' ∧ loop f s' ys = .ok t := by
  induction xs generalizing s with
  | nil => simp
  | cons x xs ih =>
    simp only [List.cons_append, loop_cons, ih]
    constructor
    · rintro ⟨s₁, h₁, s₂, h₂, h₃⟩
      exact ⟨s₂, ⟨s₁, h₁, h₂⟩, h₃⟩
    · rintro ⟨s₂, ⟨s₁, h₁, h₂⟩, h₃⟩
      exact ⟨s₁, h₁, s₂, h₂, h₃⟩

theorem loop_flatMap {f : σ → β → Except ε σ} {g : α → List β} {l : List α} :
    loop f s (l.flatMap g) = .ok t ↔ loop (fun s x => loop f s (g x)) s l = .ok t := by
  induction l generalizing s with
  | nil => rfl
  | cons x xs ih => simp only [List.flatMap_cons, loop_append, loop_cons, ih]

/-- What every step keeps, with the elements consumed so far, a whole run
keeps: `I done s` relates the state to the prefix already folded in. -/
theorem loop_invariant {f : σ → α → Except ε σ} {l : List α} (I : List α → σ → Prop)
    (start : I [] s) (step : ∀ done x s s', I done s → f s x = .ok s' → I (done ++ [x]) s')
    (h : loop f s l = .ok t) : I l t := by
  have general (done : List α) (s' : σ) (h₀ : I done s') (h' : loop f s' l = .ok t) :
      I (done ++ l) t := by
    clear h
    induction l generalizing s' done with
    | nil =>
      cases h'
      simpa using h₀
    | cons x xs ih =>
      obtain ⟨s₁, hx, hr⟩ := loop_cons.mp h'
      simpa using ih (done ++ [x]) s₁ (step done x s' s₁ h₀ hx) hr
  exact general [] s start h

/-- A loop whose steps all succeed under a second step function runs under it. -/
theorem loop_mono {f g : σ → α → Except ε σ}
    (step : ∀ s x s', f s x = .ok s' → g s x = .ok s') (h : loop f s l = .ok t) :
    loop g s l = .ok t := by
  induction l generalizing s with
  | nil => exact h
  | cons x xs ih =>
    obtain ⟨s', hx, hr⟩ := loop_cons.mp h
    exact loop_cons.mpr ⟨s', step s x s' hx, ih hr⟩

theorem loop_forall {f : σ → α → Except ε σ} {P : α → Prop}
    (step : ∀ s x s', f s x = .ok s' → P x) (h : loop f s l = .ok t) : ∀ x ∈ l, P x := by
  refine loop_invariant (fun done _ => ∀ x ∈ done, P x) (by simp) ?_ h
  intro done x s s' hd hx y hy
  rcases List.mem_append.mp hy with hy | hy
  · exact hd y hy
  · rw [List.mem_singleton.mp hy]
    exact step s x s' hx

/-- A loop of pure steps with a check each is the fold, if all checks pass. -/
theorem loop_foldl {f : σ → α → Except ε σ} {g : σ → α → σ} {P : α → Prop} {l : List α}
    (step : ∀ s x s', f s x = .ok s' ↔ P x ∧ g s x = s') :
    loop f s l = .ok t ↔ (∀ x ∈ l, P x) ∧ l.foldl g s = t := by
  induction l generalizing s with
  | nil => simp
  | cons x xs ih => simp [loop_cons, step, ih, and_assoc]

/-- Steps that commute make the order of a run irrelevant. -/
theorem loop_perm {f : σ → α → Except ε σ} {l l' : List α}
    (comm : ∀ s x y s₁ s₂, f s x = .ok s₁ → f s₁ y = .ok s₂ →
      ∃ s₁', f s y = .ok s₁' ∧ f s₁' x = .ok s₂)
    (hl : l.Perm l') (h : loop f s l = .ok t) : loop f s l' = .ok t := by
  induction hl generalizing s with
  | nil => exact h
  | cons x _ ih =>
    obtain ⟨s₁, hx, hrest⟩ := loop_cons.mp h
    exact loop_cons.mpr ⟨s₁, hx, ih hrest⟩
  | swap x y l =>
    obtain ⟨s₁, hy, hrest⟩ := loop_cons.mp h
    obtain ⟨s₂, hx, hrest⟩ := loop_cons.mp hrest
    obtain ⟨s₁', hx', hy'⟩ := comm s y x s₁ s₂ hy hx
    exact loop_cons.mpr ⟨s₁', hx', loop_cons.mpr ⟨s₂, hy', hrest⟩⟩
  | trans _ _ ih₁ ih₂ => exact ih₂ (ih₁ h)

-- ---------------------------------------------------------------------------
-- Refusing a repeated key
-- ---------------------------------------------------------------------------

variable [DecidableEq α]

/-- `if !seen.insert(x) { return Err(dup(x)) }` over a list. -/
def insertUnique (dup : α → ε) (seen : Finset α) : List α → Except ε (Finset α)
  | [] => .ok seen
  | x :: xs => if x ∈ seen then .error (dup x) else insertUnique dup (insert x seen) xs

theorem insertUnique_ok {dup : α → ε} {seen : Finset α} {l : List α} :
    insertUnique dup seen l = .ok s ↔ l.Nodup ∧ (∀ x ∈ l, x ∉ seen) ∧ s = seen ∪ l.toFinset := by
  induction l generalizing seen with
  | nil => simp [insertUnique, eq_comm]
  | cons x xs ih =>
    unfold insertUnique
    split
    · simp_all
    · rename_i hx
      rw [ih, List.nodup_cons]
      constructor
      · rintro ⟨hn, hs, rfl⟩
        refine ⟨⟨fun hm => hs x hm (by simp), hn⟩, ?_, ?_⟩
        · rintro y hy hys
          rcases List.mem_cons.mp hy with rfl | hy
          · exact hx hys
          · exact hs y hy (by simp [hys])
        · ext y; simp
      · rintro ⟨⟨hxm, hn⟩, hs, rfl⟩
        refine ⟨hn, ?_, ?_⟩
        · intro y hy hys
          rcases Finset.mem_insert.mp hys with rfl | hys
          · exact hxm hy
          · exact hs y (by simp [hy]) hys
        · ext y; simp

/-- `unique(xs)?`: the set of the elements, or the first one seen twice. -/
def unique (dup : α → ε) (l : List α) : Except ε (Finset α) := insertUnique dup ∅ l

theorem unique_ok {dup : α → ε} {l : List α} :
    unique dup l = .ok s ↔ l.Nodup ∧ s = l.toFinset := by
  simp [unique, insertUnique_ok]

/-- Steps that count one list and collect another without repetition: the run
counts and collects over the whole. `mk` is how the state holds the two. -/
theorem loop_gather {f : σ → β → Except ε σ} {mk : Nat → Finset α → σ} {P : β → Prop}
    {size : β → Nat} {rows : β → List α} {l : List β} {n : Nat} {seen : Finset α}
    (step : ∀ n seen x s, f (mk n seen) x = .ok s ↔ P x ∧ (rows x).Nodup ∧
      (∀ y ∈ rows x, y ∉ seen) ∧ s = mk (n + size x) (seen ∪ (rows x).toFinset)) :
    loop f (mk n seen) l = .ok s ↔ (∀ x ∈ l, P x) ∧ (l.flatMap rows).Nodup ∧
      (∀ y ∈ l.flatMap rows, y ∉ seen) ∧
      s = mk (n + (l.map size).sum) (seen ∪ (l.flatMap rows).toFinset) := by
  induction l generalizing n seen with
  | nil => simp [eq_comm]
  | cons x xs ih =>
    simp only [loop_cons, step, List.forall_mem_cons, List.flatMap_cons, List.map_cons,
      List.sum_cons, List.toFinset_append, List.nodup_append', List.mem_append, List.disjoint_left]
    rw [← Nat.add_assoc, ← Finset.union_assoc]
    constructor
    · rintro ⟨_, ⟨hx, hn, hs, rfl⟩, hrest⟩
      obtain ⟨hxs, hns, hss, rfl⟩ := ih.mp hrest
      simp only [Finset.mem_union, List.mem_toFinset, not_or] at hss
      refine ⟨⟨hx, hxs⟩, ⟨hn, hns, fun y hy hy' => (hss y hy').2 hy⟩, ?_, rfl⟩
      rintro y (hy | hy)
      · exact hs y hy
      · exact (hss y hy).1
    · rintro ⟨⟨hx, hxs⟩, ⟨hn, hns, hd⟩, hs, rfl⟩
      refine ⟨_, ⟨hx, hn, fun y hy => hs y (.inl hy), rfl⟩, ih.mpr ⟨hxs, hns, ?_, rfl⟩⟩
      intro y hy
      simp only [Finset.mem_union, List.mem_toFinset, not_or]
      exact ⟨hs y (.inr hy), fun hy' => hd hy' hy⟩

/-- A loop that checks each element and refuses a repeated key runs exactly on
checked elements with distinct keys. -/
theorem loop_unique_ok {f : Finset α → β → Except ε (Finset α)} {key : β → α} {P : β → Prop}
    {l : List β}
    (step : ∀ seen x s, f seen x = .ok s ↔ P x ∧ key x ∉ seen ∧ s = insert (key x) seen) :
    (∃ s, loop f ∅ l = .ok s) ↔ (∀ x ∈ l, P x) ∧ (l.map key).Nodup := by
  have general (seen : Finset α) : (∃ s, loop f seen l = .ok s) ↔
      (∀ x ∈ l, P x ∧ key x ∉ seen) ∧ (l.map key).Nodup := by
    induction l generalizing seen with
    | nil => simp
    | cons x xs ih =>
      simp only [loop_cons, step, List.forall_mem_cons, List.map_cons, List.nodup_cons]
      constructor
      · rintro ⟨s, _, ⟨hx, hnew, rfl⟩, hrest⟩
        obtain ⟨hxs, hn⟩ := (ih _).mp ⟨s, hrest⟩
        simp only [Finset.mem_insert, not_or] at hxs
        refine ⟨⟨⟨hx, hnew⟩, fun y hy => ⟨(hxs y hy).1, (hxs y hy).2.2⟩⟩, fun hm => ?_, hn⟩
        obtain ⟨y, hy, heq⟩ := List.mem_map.mp hm
        exact (hxs y hy).2.1 heq
      · rintro ⟨⟨⟨hx, hnew⟩, hxs⟩, hfresh, hn⟩
        have hrest : (∀ y ∈ xs, P y ∧ key y ∉ insert (key x) seen) ∧ (xs.map key).Nodup := by
          refine ⟨fun y hy => ⟨(hxs y hy).1, ?_⟩, hn⟩
          rw [Finset.mem_insert, not_or]
          exact ⟨fun heq => hfresh (heq ▸ List.mem_map_of_mem hy), (hxs y hy).2⟩
        obtain ⟨s, hs⟩ := (ih _).mpr hrest
        exact ⟨s, _, ⟨hx, hnew, rfl⟩, hs⟩
  simpa using general ∅

/-- `for x in xs { check(x)?; if !seen.insert(key(x)) { return Err(dup(x)) } }`. -/
def eachUnique (key : β → α) (check : β → Except ε Unit) (dup : β → ε) (l : List β) :
    Except ε Unit := do
  let _ ← loop (fun seen x => do
    check x
    refuseIf (key x ∈ seen) (dup x)
    pure (insert (key x) seen)) (∅ : Finset α) l

theorem eachUnique_iff {key : β → α} {check : β → Except ε Unit} {dup : β → ε} {l : List β} :
    eachUnique key check dup l = .ok u ↔ (∀ x ∈ l, check x = .ok ()) ∧ (l.map key).Nodup := by
  rw [← loop_unique_ok (f := fun seen x => do
    check x
    refuseIf (key x ∈ seen) (dup x)
    pure (insert (key x) seen)) fun seen x s => ?_]
  · simp only [eachUnique, bind_ok, pure_ok, and_true]
  · simp only [bind_ok, refuseIf_ok, pure_ok]
    constructor
    · rintro ⟨_, hx, _, hnew, rfl⟩
      exact ⟨hx, hnew, rfl⟩
    · rintro ⟨hx, hnew, rfl⟩
      exact ⟨(), hx, (), hnew, rfl⟩

theorem eachUnique_ok {key : β → α} {check : β → Except ε Unit} {dup : β → ε} {l : List β}
    (h : eachUnique key check dup l = .ok u) :
    (∀ x ∈ l, check x = .ok ()) ∧ (l.map key).Nodup := eachUnique_iff.mp h

section

variable {κ : Type} {f : Option κ → β → Except ε (Option κ)} {l : List β}

/-- A loop that remembers one key goes on while the elements agree with it. -/
theorem loop_agree_some {R : β → κ → Prop} {k : κ} (step : ∀ x ∈ l, ∀ seen s,
      f seen x = .ok s ↔ ∃ k, R x k ∧ (∀ k' ∈ seen, k' = k) ∧ s = some k) :
    loop f (some k) l = .ok s ↔ (∀ x ∈ l, R x k) ∧ s = some k := by
  induction l with
  | nil => simp [eq_comm]
  | cons x xs ih =>
    rw [List.forall_mem_cons] at step
    simp only [loop_cons, step.1, Option.mem_def, Option.some.injEq, forall_eq', List.forall_mem_cons]
    constructor
    · rintro ⟨_, ⟨_, hx, rfl, rfl⟩, hrest⟩
      obtain ⟨hxs, rfl⟩ := (ih step.2).mp hrest
      exact ⟨⟨hx, hxs⟩, rfl⟩
    · rintro ⟨⟨hx, hxs⟩, rfl⟩
      exact ⟨_, ⟨k, hx, rfl, rfl⟩, (ih step.2).mpr ⟨hxs, rfl⟩⟩

/-- The first element fixes the key. -/
theorem loop_agree_none {R : β → κ → Prop} (hne : l ≠ []) (step : ∀ x ∈ l, ∀ seen s,
      f seen x = .ok s ↔ ∃ k, R x k ∧ (∀ k' ∈ seen, k' = k) ∧ s = some k) :
    loop f none l = .ok s ↔ ∃ k, s = some k ∧ ∀ x ∈ l, R x k := by
  cases l with
  | nil => exact absurd rfl hne
  | cons x xs =>
    rw [List.forall_mem_cons] at step
    simp only [loop_cons, step.1, List.forall_mem_cons]
    constructor
    · rintro ⟨_, ⟨k, hx, -, rfl⟩, hrest⟩
      obtain ⟨hxs, rfl⟩ := (loop_agree_some step.2).mp hrest
      exact ⟨k, rfl, hx, hxs⟩
    · rintro ⟨k, rfl, hx, hxs⟩
      exact ⟨_, ⟨k, hx, by simp, rfl⟩, (loop_agree_some step.2).mpr ⟨hxs, rfl⟩⟩

/-- A loop that remembers the last key and refuses another one accepts a list of one key. -/
theorem loop_sameKey_ok {key : β → κ} {P : β → Prop}
    (step : ∀ seen x s, f seen x = .ok s ↔ P x ∧ (∀ k ∈ seen, k = key x) ∧ s = some (key x)) :
    (∃ s, loop f none l = .ok s) ↔ (∀ x ∈ l, P x) ∧ ∀ x ∈ l, ∀ y ∈ l, key x = key y := by
  have agree (x : β) (seen s : Option κ) : f seen x = .ok s ↔
      ∃ k, (P x ∧ key x = k) ∧ (∀ k' ∈ seen, k' = k) ∧ s = some k := by
    rw [step]
    constructor
    · rintro ⟨hx, hseen, rfl⟩
      exact ⟨_, ⟨hx, rfl⟩, hseen, rfl⟩
    · rintro ⟨_, ⟨hx, rfl⟩, hseen, rfl⟩
      exact ⟨hx, hseen, rfl⟩
  cases l with
  | nil => simp
  | cons x xs =>
    simp only [loop_agree_none (List.cons_ne_nil x xs) fun y _ => agree y]
    constructor
    · rintro ⟨_, k, -, hall⟩
      exact ⟨fun y hy => (hall y hy).1, fun y hy z hz => (hall y hy).2.trans (hall z hz).2.symm⟩
    · rintro ⟨hP, hsame⟩
      exact ⟨_, key x, rfl, fun y hy => ⟨hP y hy, hsame y hy x List.mem_cons_self⟩⟩

end

-- ---------------------------------------------------------------------------
-- Two runs with the same outcome
-- ---------------------------------------------------------------------------

omit [DecidableEq α]

/-- Both succeed with one value, or both fail; the errors may differ. -/
def Agree : Except ε α → Except ε' α → Prop
  | .ok a, .ok b => a = b
  | .error _, .error _ => True
  | _, _ => False

theorem agree_iff {x : Except ε α} {y : Except ε' α} :
    Agree x y ↔ ∀ a, x = .ok a ↔ y = .ok a := by
  cases x <;> cases y <;> simp [Agree]

@[simp] theorem Agree.rfl {x : Except ε α} : Agree x x := agree_iff.mpr fun _ => Iff.rfl

theorem Agree.symm {x : Except ε α} {y : Except ε' α} (h : Agree x y) : Agree y x :=
  agree_iff.mpr fun a => (agree_iff.mp h a).symm

theorem Agree.trans {x : Except ε α} {y : Except ε' α} {z : Except ε α} (h : Agree x y)
    (h' : Agree y z) : Agree x z :=
  agree_iff.mpr fun a => (agree_iff.mp h a).trans (agree_iff.mp h' a)

theorem agree_of_errors {x : Except ε α} {y : Except ε' α} (hx : ∃ e, x = .error e)
    (hy : ∃ e, y = .error e) : Agree x y := by
  obtain ⟨e, rfl⟩ := hx
  obtain ⟨e', rfl⟩ := hy
  exact trivial

theorem Agree.bind {x : Except ε α} {y : Except ε' α} {f : α → Except ε β} {g : α → Except ε' β}
    (h : Agree x y) (hf : ∀ a, x = .ok a → Agree (f a) (g a)) : Agree (x >>= f) (y >>= g) := by
  rw [agree_iff]
  intro b
  rw [bind_ok, bind_ok]
  constructor
  · rintro ⟨a, hx, hb⟩
    exact ⟨a, (agree_iff.mp h a).mp hx, (agree_iff.mp (hf a hx) b).mp hb⟩
  · rintro ⟨a, hy, hb⟩
    have hx := (agree_iff.mp h a).mpr hy
    exact ⟨a, hx, (agree_iff.mp (hf a hx) b).mpr hb⟩

theorem loop_agree {f : σ → α → Except ε σ} {g : σ → α → Except ε' σ} {l : List α}
    (h : ∀ s x, x ∈ l → Agree (f s x) (g s x)) : Agree (loop f s l) (loop g s l) := by
  induction l generalizing s with
  | nil => exact agree_iff.mpr fun _ => by simp
  | cons x xs ih =>
    exact (h s x (by simp)).bind fun s' _ => ih fun s x hx => h s x (by simp [hx])

end Checked

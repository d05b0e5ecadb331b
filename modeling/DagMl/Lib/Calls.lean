import DagMl.Lib.Stateful

/-!
# Recorded calls

A procedure that drives a partner it does not own is judged by the calls it
makes. `Recording` puts a log of calls, each with its answer, beside a state
about which nothing is known; the rules below describe what a procedure adds
to the log from the log of its parts alone.
-/

structure Recording (σ κ : Type) where
  state : σ
  calls : List κ

namespace Method

variable {ε σ κ α β ι : Type}

instance : Monad (Method ε σ) where
  pure a := lift (.ok a)
  bind := Method.bind

/-- `match self.m() { Ok(..) => .., Err(..) => .. }`: the caller handles the error. -/
def attempt (m : Method ε σ α) : Method ε σ (Except ε α) := fun s => (.ok (m s).1, (m s).2)

/-- A step outside the conversation. -/
def silent (m : Method ε σ α) : Method ε (Recording σ κ) α := fun s =>
  ((m s.state).1, { s with state := (m s.state).2 })

/-- A call, recorded with its answer. -/
def recorded (entry : Except ε α → κ) (m : Method ε σ α) : Method ε (Recording σ κ) α := fun s =>
  ((m s.state).1, ⟨(m s.state).2, s.calls ++ [entry (m s.state).1]⟩)

-- ---------------------------------------------------------------------------
-- What a procedure adds to the log
-- ---------------------------------------------------------------------------

/-- Whatever the state, the calls made and the result are related by `P`. -/
def Emits (m : Method ε (Recording σ κ) α) (P : Except ε α → List κ → Prop) : Prop :=
  ∀ s, ∃ made, (m s).2.calls = s.calls ++ made ∧ P (m s).1 made

/-- The same for the calls of a success. -/
def EmitsOk (m : Method ε (Recording σ κ) α) (P : α → List κ → Prop) : Prop :=
  m.Emits fun r made => ∀ a, r = .ok a → P a made

variable {m : Method ε (Recording σ κ) α} {f : α → Method ε (Recording σ κ) β}
  {P Q : Except ε α → List κ → Prop}

theorem Emits.mono (h : m.Emits P) (hPQ : ∀ r made, P r made → Q r made) : m.Emits Q := by
  intro s
  obtain ⟨made, hcalls, hmade⟩ := h s
  exact ⟨made, hcalls, hPQ _ _ hmade⟩

theorem EmitsOk.mono {P Q : α → List κ → Prop} (h : m.EmitsOk P)
    (hPQ : ∀ a made, P a made → Q a made) : m.EmitsOk Q :=
  Emits.mono h fun _ _ hP a hr => hPQ a _ (hP a hr)

theorem emits_lift (r : Except ε α) :
    (lift r : Method ε (Recording σ κ) α).Emits fun r' made => r' = r ∧ made = [] := by
  intro s
  exact ⟨[], (List.append_nil _).symm, rfl, rfl⟩

theorem emits_silent (m : Method ε σ α) :
    (silent m : Method ε (Recording σ κ) α).Emits fun _ made => made = [] := by
  intro s
  exact ⟨[], (List.append_nil _).symm, rfl⟩

theorem emits_recorded (entry : Except ε α → κ) (m : Method ε σ α) :
    (recorded entry m).Emits fun r made => made = [entry r] := by
  intro s
  exact ⟨_, rfl, rfl⟩

theorem bind_run (m : Method ε σ α) (f : α → Method ε σ β) (s : σ) :
    (m >>= f) s = match m s with
      | (.ok a, s') => f a s'
      | (.error e, s') => (.error e, s') := rfl

/-- An error of the first part is the result and ends the log. -/
theorem Emits.bind {R : Except ε β → List κ → Prop} (hm : m.Emits P)
    (hf : ∀ a first, P (.ok a) first → (f a).Emits fun r rest => R r (first ++ rest))
    (failed : ∀ e made, P (.error e) made → R (.error e) made) : Emits (m >>= f) R := by
  intro s
  obtain ⟨made, hcalls, hmade⟩ := hm s
  rw [bind_run]
  rcases hrun : m s with ⟨_ | a, s'⟩
  · rw [hrun] at hcalls hmade
    exact ⟨made, hcalls, failed _ _ hmade⟩
  · rw [hrun] at hcalls hmade
    obtain ⟨rest, hcalls', hrest⟩ := hf a made hmade s'
    refine ⟨made ++ rest, ?_, hrest⟩
    rw [hcalls', hcalls, List.append_assoc]

theorem EmitsOk.bind {P : α → List κ → Prop} {R : β → List κ → Prop} (hm : m.EmitsOk P)
    (hf : ∀ a first, P a first → (f a).EmitsOk fun b rest => R b (first ++ rest)) :
    EmitsOk (m >>= f) R :=
  Emits.bind hm (fun a first h => hf a first (h a rfl)) fun _ _ _ _ h => nomatch h

/-- A first part outside the conversation leaves it to the second. -/
theorem Emits.quiet_bind {R : Except ε β → List κ → Prop} (hm : m.Emits fun _ made => made = [])
    (hf : ∀ a, (f a).Emits R) (failed : ∀ e, R (.error e) []) : Emits (m >>= f) R := by
  refine Emits.bind hm ?_ ?_
  · rintro a _ rfl
    exact hf a
  · rintro e _ rfl
    exact failed e

theorem EmitsOk.quiet_bind {R : β → List κ → Prop} (hm : m.Emits fun _ made => made = [])
    (hf : ∀ a, (f a).EmitsOk R) : EmitsOk (m >>= f) R :=
  Emits.quiet_bind hm hf fun _ _ h => nomatch h

theorem Emits.lift_bind {r : Except ε α} {R : Except ε β → List κ → Prop}
    (hf : ∀ a, r = .ok a → (f a).Emits R) (failed : ∀ e, R (.error e) []) :
    Emits (lift r >>= f) R := by
  cases r with
  | ok a => exact hf a rfl
  | error e =>
    intro s
    exact ⟨[], (List.append_nil _).symm, failed e⟩

theorem EmitsOk.lift_bind {r : Except ε α} {R : β → List κ → Prop}
    (hf : ∀ a, r = .ok a → (f a).EmitsOk R) : EmitsOk (lift r >>= f) R :=
  Emits.lift_bind hf fun _ _ h => nomatch h

theorem emitsOk_lift (r : Except ε α) :
    (lift r : Method ε (Recording σ κ) α).EmitsOk fun a made => r = .ok a ∧ made = [] :=
  (emits_lift r).mono fun _ _ h _ ha => ⟨h.1.symm.trans ha, h.2⟩

theorem emitsOk_pure (a : α) :
    (pure a : Method ε (Recording σ κ) α).EmitsOk fun b made => b = a ∧ made = [] :=
  (emitsOk_lift (.ok a)).mono fun _ _ h => ⟨(Except.ok.inj h.1).symm, h.2⟩

theorem emitsOk_recorded (entry : Except ε α → κ) (m : Method ε σ α) :
    (recorded entry m).EmitsOk fun a made => made = [entry (.ok a)] :=
  (emits_recorded entry m).mono fun _ _ h _ ha => by rw [h, ha]

theorem emitsOk_error (e : ε) (P : α → List κ → Prop) :
    (lift (.error e) : Method ε (Recording σ κ) α).EmitsOk P :=
  (emitsOk_lift (.error e)).mono fun _ _ h => nomatch h.1

theorem Emits.attempt (h : m.Emits P) : m.attempt.EmitsOk P := by
  intro s
  obtain ⟨made, hcalls, hmade⟩ := h s
  refine ⟨made, hcalls, ?_⟩
  rintro r ⟨rfl⟩
  exact hmade

/-- A success read as the calls it made. -/
theorem EmitsOk.run {P : α → List κ → Prop} {state : σ} (h : m.EmitsOk P)
    (hrun : m ⟨state, []⟩ = (.ok a, ⟨state', calls⟩)) : P a calls := by
  obtain ⟨made, hcalls, hmade⟩ := h ⟨state, []⟩
  rw [hrun] at hcalls hmade
  rw [show calls = made from hcalls]
  exact hmade a rfl

end Method

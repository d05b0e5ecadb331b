import DagMl.Results.Writer

/-!
# What every interleaving of writers and readers keeps
-/

namespace DagMl

variable {W R : Type}

-- ---------------------------------------------------------------------------
-- What one call can do to the destinations
-- ---------------------------------------------------------------------------

/-- A call of the writer `w` that takes its own destinations from `own` to
`own'`. -/
inductive FileChange (w : W) (dir dir' : RunDir W) : List ResultFile → List ResultFile → Prop
  | same {own own'} (hsame : dir'.destination = dir.destination) (hown : own' <:+ own) :
    FileChange w dir dir' own own'
  | create {own} (file : ResultFile) (whole : Bool) (hfree : dir.destination file = none)
    (hput : dir'.destination =
      Function.update dir.destination file (some ⟨.writer w, whole⟩)) :
    FileChange w dir dir' own (file :: own)
  | complete {own} (file : ResultFile)
    (hput : dir'.destination = Function.update dir.destination file (some ⟨.writer w, true⟩)) :
    FileChange w dir dir' (file :: own) (file :: own)
  | remove {own} (file : ResultFile)
    (hremove : dir'.destination = Function.update dir.destination file none) :
    FileChange w dir dir' (file :: own) own

namespace WriterStage

variable [DecidableEq W] (w : W) (answer : CallAnswer) (dir : RunDir W) (stage : WriterStage)

theorem fileChange : FileChange w dir (stage.step w answer dir).2 stage.published
    (stage.step w answer dir).1.published := by
  cases stage with
  | publishing todo published =>
    cases todo with
    | nil => exact .same rfl (List.nil_suffix)
    | cons file todo =>
      simp only [step]
      split_ifs with hrefused hlink
      · exact .same rfl (List.suffix_refl _)
      · exact .create file false (by simpa using fun h => hrefused (.inr h)) rfl
      · exact .create file true (by simpa using fun h => hrefused (.inr h)) rfl
  | copying file todo published =>
    simp only [step]
    split_ifs
    · exact .same rfl (List.suffix_refl _)
    · exact .complete file rfl
    · exact .complete file rfl
  | undoing todo =>
    cases todo with
    | nil => exact .same rfl (List.suffix_refl _)
    | cons file todo =>
      simp only [step]
      split_ifs
      · exact .same rfl (List.suffix_cons file todo)
      · exact .remove file rfl
  | probing todo =>
    cases todo with
    | nil => exact .same rfl (List.suffix_refl _)
    | cons file todo => simp only [step]; split_ifs <;> exact .same rfl (List.suffix_refl _)
  | preparing todo =>
    cases todo with
    | nil => exact .same rfl (List.suffix_refl _)
    | cons file todo => simp only [step]; split_ifs <;> exact .same rfl (List.suffix_refl _)
  | sweeping ok todo =>
    cases todo with
    | nil => exact .same rfl (List.suffix_refl _)
    | cons file todo => simp only [step]; split_ifs <;> exact .same rfl (List.suffix_refl _)
  | start => simp only [step]; split_ifs <;> exact .same rfl (List.suffix_refl _)
  | noting => simp only [step]; split_ifs <;> exact .same rfl (List.suffix_refl _)
  | releasing ok => simp only [step]; split_ifs <;> exact .same rfl (List.suffix_refl _)
  | finished ok => exact .same rfl (List.suffix_refl _)

variable {w answer dir stage}

/-- Without the reservation no destination changes. -/
theorem destination_of_not_holds (h : stage.holds = false) :
    (stage.step w answer dir).2.destination = dir.destination := by
  cases stage with
  | start => simp only [step]; split_ifs <;> rfl
  | finished ok => rfl
  | _ => cases h

/-- Only to reserve and to release touches the reservation. -/
theorem reservation_step (h : stage.holds = true → dir.reservation = some (.writer w)) :
    (stage.step w answer dir).2.reservation = dir.reservation ∨
      dir.reservation = none ∨ dir.reservation = some (.writer w) := by
  cases hholds : stage.holds with
  | true => exact .inr (.inr (h hholds))
  | false =>
    cases stage with
    | start =>
      simp only [step]
      split_ifs with hrefused
      · exact .inl rfl
      · exact .inr (.inl (by simpa using fun h => hrefused (.inr h)))
    | finished ok => exact .inl rfl
    | _ => cases hholds

theorem reservation_of_holds (h : stage.holds = true → dir.reservation = some (.writer w))
    (hnext : (stage.step w answer dir).1.holds = true) :
    (stage.step w answer dir).2.reservation = some (.writer w) := by
  cases stage with
  | start =>
    simp only [step] at hnext ⊢
    split_ifs at hnext ⊢
    · cases hnext
    · rfl
  | noting => simp only [step]; split_ifs <;> exact h rfl
  | probing todo =>
    cases todo with
    | nil => exact h rfl
    | cons file todo => simp only [step]; split_ifs <;> exact h rfl
  | preparing todo =>
    cases todo with
    | nil => exact h rfl
    | cons file todo => simp only [step]; split_ifs <;> exact h rfl
  | publishing todo published =>
    cases todo with
    | nil => exact h rfl
    | cons file todo => simp only [step]; split_ifs <;> exact h rfl
  | copying file todo published => simp only [step]; split_ifs <;> exact h rfl
  | undoing todo =>
    cases todo with
    | nil => exact h rfl
    | cons file todo => simp only [step]; split_ifs <;> exact h rfl
  | sweeping ok todo =>
    cases todo with
    | nil => exact h rfl
    | cons file todo => simp only [step]; split_ifs <;> exact h rfl
  | releasing ok => cases hnext
  | finished ok => cases hnext

end WriterStage

-- ---------------------------------------------------------------------------
-- One writer at a time, and only its own files
-- ---------------------------------------------------------------------------

/-- The destinations that a writer would take back are its own. -/
structure RunDir.Owned (w : W) (dir : RunDir W) (own : List ResultFile) : Prop where
  nodup : own.Nodup
  stored : ∀ file ∈ own, ∃ stored, dir.destination file = some stored ∧ stored.origin = .writer w

namespace FileChange

variable {w w' : W} {dir dir' : RunDir W} {own own' others : List ResultFile}
  {file : ResultFile} {stored : StoredFile W}

theorem owned (h : FileChange w dir dir' own own') (hown : dir.Owned w own) :
    dir'.Owned w own' := by
  cases h with
  | same hsame hsuffix =>
    refine ⟨hown.nodup.sublist hsuffix.sublist, fun file hfile => ?_⟩
    rw [hsame]
    exact hown.stored file (hsuffix.mem hfile)
  | create file whole hfree hput =>
    have hnew : file ∉ own := fun hmem => by
      obtain ⟨stored, hstored, -⟩ := hown.stored file hmem
      cases hfree.symm.trans hstored
    refine ⟨List.nodup_cons.mpr ⟨hnew, hown.nodup⟩, fun other hother => ?_⟩
    rw [hput]
    cases hother with
    | head => exact ⟨⟨.writer w, whole⟩, by simp, rfl⟩
    | tail _ hother =>
      have hne : other ≠ file := fun heq => hnew (heq ▸ hother)
      simpa [hne] using hown.stored other hother
  | complete file hput =>
    refine ⟨hown.nodup, fun other hother => ?_⟩
    rw [hput]
    by_cases hsame : other = file
    · exact ⟨⟨.writer w, true⟩, by simp [hsame], rfl⟩
    · simpa [hsame] using hown.stored other hother
  | remove file hremove =>
    have hnodup := List.nodup_cons.mp hown.nodup
    refine ⟨hnodup.2, fun other hother => ?_⟩
    have hne : other ≠ file := fun heq => hnodup.1 (heq ▸ hother)
    rw [hremove]
    simpa [hne] using hown.stored other (List.mem_cons_of_mem _ hother)

/-- A file that is not the writer's own stays as it is. -/
theorem foreign (h : FileChange w dir dir' own own') (hown : dir.Owned w own)
    (hfile : dir.destination file = some stored) (hforeign : stored.origin ≠ .writer w) :
    dir'.destination file = some stored := by
  have hne : ∀ other ∈ own, file ≠ other := by
    rintro other hother rfl
    obtain ⟨mine, hmine, horigin⟩ := hown.stored file hother
    cases hfile.symm.trans hmine
    exact hforeign horigin
  cases h with
  | same hsame _ => rwa [hsame]
  | create other whole hfree hput =>
    have hother : file ≠ other := by
      rintro rfl
      cases hfree.symm.trans hfile
    simpa [hput, hother] using hfile
  | complete other hput => simpa [hput, hne other List.mem_cons_self] using hfile
  | remove other hremove => simpa [hremove, hne other List.mem_cons_self] using hfile

theorem owned_other (h : FileChange w dir dir' own own') (hown : dir.Owned w own)
    (hothers : dir.Owned w' others) (hne : w' ≠ w) : dir'.Owned w' others := by
  refine ⟨hothers.nodup, fun file hfile => ?_⟩
  obtain ⟨stored, hstored, horigin⟩ := hothers.stored file hfile
  refine ⟨stored, h.foreign hown hstored ?_, horigin⟩
  rw [horigin]
  exact fun heq => hne (FileOrigin.writer.inj heq)

end FileChange

namespace ResultsSystem

variable {sys : ResultsSystem W R}

/-- Who holds the directory has reserved it, and owns what it would take back. -/
structure Guarded (sys : ResultsSystem W R) : Prop where
  held : ∀ w, (sys.stage w).holds = true → sys.dir.reservation = some (.writer w)
  owned : ∀ w, sys.dir.Owned w (sys.stage w).published

theorem Guarded.initial (dir : RunDir W) : (initial dir : ResultsSystem W R).Guarded where
  held _ h := nomatch h
  owned _ := ⟨.nil, fun _ h => nomatch h⟩

theorem Guarded.unique (h : sys.Guarded) {w w' : W} (hw : (sys.stage w).holds = true)
    (hw' : (sys.stage w').holds = true) : w = w' := by
  have heq := (h.held w hw).symm.trans (h.held w' hw')
  cases heq
  rfl

variable [DecidableEq W] [DecidableEq R]

theorem Guarded.step (h : sys.Guarded) (action : ResultsAction W R) : (sys.step action).Guarded := by
  cases action with
  | read r answer => exact ⟨h.held, h.owned⟩
  | write w answer =>
    have hchange := (sys.stage w).fileChange w answer sys.dir
    constructor
    · intro w' hholds
      by_cases hsame : w' = w
      · subst hsame
        simp only [ResultsSystem.step, Function.update_self] at hholds ⊢
        exact WriterStage.reservation_of_holds (h.held w') hholds
      · simp only [ResultsSystem.step, Function.update_of_ne hsame] at hholds ⊢
        have hheld := h.held w' hholds
        have hcases : ((sys.stage w).step w answer sys.dir).2.reservation = sys.dir.reservation ∨
            sys.dir.reservation = none ∨ sys.dir.reservation = some (.writer w) :=
          WriterStage.reservation_step (h.held w)
        rcases hcases with heq | hnone | hown
        · exact heq.trans hheld
        · cases hnone.symm.trans hheld
        · cases hown.symm.trans hheld
          exact absurd rfl hsame
    · intro w'
      by_cases hsame : w' = w
      · subst hsame
        simpa only [ResultsSystem.step, Function.update_self] using hchange.owned (h.owned w')
      · simpa only [ResultsSystem.step, Function.update_of_ne hsame] using
          hchange.owned_other (h.owned w) (h.owned w') hsame

theorem Guarded.run (h : sys.Guarded) (actions : List (ResultsAction W R)) :
    (sys.run actions).Guarded := by
  induction actions generalizing sys with
  | nil => exact h
  | cons action actions ih => exact ih (h.step action)

theorem Guarded.run_keeps (h : sys.Guarded) {actions : List (ResultsAction W R)}
    {file : ResultFile} {stored : StoredFile W} (hfile : sys.dir.destination file = some stored)
    (hforeign : ∀ w answer, .write w answer ∈ actions → stored.origin ≠ .writer w) :
    (sys.run actions).dir.destination file = some stored := by
  induction actions generalizing sys with
  | nil => exact hfile
  | cons action actions ih =>
    refine ih (h.step action) ?_ fun w answer hmem =>
      hforeign w answer (List.mem_cons_of_mem _ hmem)
    cases action with
    | read r answer => exact hfile
    | write w answer =>
      exact ((sys.stage w).fileChange w answer sys.dir).foreign (h.owned w) hfile
        (hforeign w answer List.mem_cons_self)

end ResultsSystem

/-- However the calls of writers and readers interleave and whatever they
answer, one writer at most holds the directory, and a file in place changes
through the writer that created it and no other. -/
theorem resultsWriter_exclusive [DecidableEq W] [DecidableEq R] (dir : RunDir W)
    (actions : List (ResultsAction W R)) :
    let sys := (ResultsSystem.initial dir).run actions
    (∀ w w', (sys.stage w).holds = true → (sys.stage w').holds = true → w = w') ∧
      ∀ more file stored, sys.dir.destination file = some stored →
        (∀ w answer, .write w answer ∈ more → stored.origin ≠ .writer w) →
        (sys.run more).dir.destination file = some stored := by
  intro sys
  have hguarded : sys.Guarded := (ResultsSystem.Guarded.initial dir).run actions
  exact ⟨fun w w' hw hw' => hguarded.unique hw hw',
    fun more file stored hfile hforeign => hguarded.run_keeps hfile hforeign⟩

end DagMl

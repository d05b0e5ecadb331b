import DagMl.Results.WriterLaws

/-!
# The manifest as commit marker
-/

namespace DagMl

variable {W R : Type}

open ResultFile (publishOrder)

/-- Neither a file that `exists` overlooks nor an error after the last byte. -/
def CallAnswer.Plain (answer : CallAnswer) : Prop := answer ≠ .unseen ∧ answer ≠ .unsynced

/-- The file system serves the call. -/
def CallAnswer.Served (answer : CallAnswer) : Prop := answer = .done ∨ answer = .unsupported

namespace CallAnswer

variable {answer : CallAnswer}

theorem Served.plain (h : answer.Served) : answer.Plain := by
  cases h with
  | inl h => simp [h, Plain]
  | inr h => simp [h, Plain]

theorem Served.ne_failed (h : answer.Served) : answer ≠ .failed := by
  cases h with
  | inl h => simp [h]
  | inr h => simp [h]

end CallAnswer

namespace RunDir

variable {dir : RunDir W}

def Empty (dir : RunDir W) : Prop := ∀ file, dir.destination file = none

/-- Readers can accept the directory. -/
def Committed (dir : RunDir W) : Prop :=
  ∃ stored, dir.destination .manifest = some stored ∧ stored.whole = true

def Complete (w : W) (dir : RunDir W) : Prop :=
  ∀ file, dir.destination file = some ⟨.writer w, true⟩

theorem Complete.committed {w : W} (h : dir.Complete w) : dir.Committed := ⟨_, h .manifest, rfl⟩

/-- The `published` files of `w` and no others. -/
def Holds (w : W) (published : List ResultFile) (dir : RunDir W) : Prop :=
  ∀ file, dir.destination file = if file ∈ published then some ⟨.writer w, true⟩ else none

/-- All files are of one origin, and with a writer's manifest they are whole. -/
structure Coherent (dir : RunDir W) : Prop where
  origin : ∀ file other stored stored', dir.destination file = some stored →
    dir.destination other = some stored' → stored.origin = stored'.origin
  whole : ∀ w, dir.destination .manifest = some ⟨.writer w, true⟩ → dir.Complete w

end RunDir

/-- The manifest comes last. -/
theorem ResultFile.all_published {published todo : List ResultFile}
    (h : published.reverse ++ todo = publishOrder) (hmanifest : .manifest ∈ published) :
    todo = [] ∧ ∀ file, file ∈ published := by
  have hlast : todo = [] := by
    cases todo using List.reverseRecOn with
    | nil => rfl
    | append_singleton todo last _ =>
      have hsplit : (published.reverse ++ todo) ++ [last] =
          [ResultFile.scoreSet, .predictions] ++ [.manifest] := by
        rw [List.append_assoc]
        exact h
      have hfront := (List.append_inj' hsplit rfl).1
      have hmem : ResultFile.manifest ∈ published.reverse ++ todo :=
        List.mem_append_left _ (List.mem_reverse.mpr hmanifest)
      rw [hfront] at hmem
      simp at hmem
  refine ⟨hlast, fun file => ?_⟩
  rw [← List.mem_reverse, ← List.append_nil published.reverse, ← hlast, h]
  cases file <;> simp [publishOrder]

theorem ResultFile.fresh {published todo : List ResultFile} {file : ResultFile}
    (h : published.reverse ++ file :: todo = publishOrder) : file ∉ published := by
  have hnodup : (published.reverse ++ file :: todo).Nodup := h ▸ by decide
  intro hmem
  exact (List.nodup_append.mp hnodup).2.2 file (List.mem_reverse.mpr hmem) file
    List.mem_cons_self rfl

namespace WriterStage

/-- What the writer knows of the destinations. -/
def Knows (w : W) (dir : RunDir W) : WriterStage → Prop
  | .probing todo => ∀ file, file ∈ todo ∨ dir.destination file = none
  | .preparing _ => dir.Empty
  | .publishing todo published =>
    published.reverse ++ todo = publishOrder ∧ dir.Holds w published
  | .copying file todo published =>
    published.reverse ++ file :: todo = publishOrder ∧
      ∃ old, RunDir.Holds w published old ∧ dir.destination =
        Function.update old.destination file (some ⟨.writer w, false⟩)
  | .undoing _ =>
    (∀ file stored, dir.destination file = some stored → stored.origin = .writer w) ∧
      ¬ dir.Committed
  | .sweeping ok _ => ok = true → dir.Complete w
  | .releasing ok => ok = true → dir.Complete w
  | .finished ok => ok = true → dir.Complete w
  | _ => True

variable {w : W} {dir dir' : RunDir W} {stage : WriterStage} {answer : CallAnswer}

theorem Knows.congr (h : stage.Knows w dir) (hsame : dir'.destination = dir.destination) :
    stage.Knows w dir' := by
  cases dir
  cases dir'
  cases hsame
  cases stage <;> exact h

end WriterStage

namespace RunDir

variable {w : W} {dir : RunDir W} {published todo : List ResultFile} {file : ResultFile}

theorem Holds.own (h : dir.Holds w published) {file : ResultFile} {stored : StoredFile W}
    (hstored : dir.destination file = some stored) : stored = ⟨.writer w, true⟩ := by
  rw [h file] at hstored
  split_ifs at hstored
  cases hstored
  rfl

theorem Holds.put (h : dir.Holds w published) :
    (dir.put file ⟨.writer w, true⟩).Holds w (file :: published) := by
  intro other
  by_cases hsame : other = file
  · simp [RunDir.put, hsame]
  · simp [RunDir.put, hsame, h other]

theorem Holds.complete (h : dir.Holds w published) (hall : ∀ file, file ∈ published) :
    dir.Complete w := fun file => (h file).trans (if_pos (hall file))

/-- Before the manifest there is nothing to accept. -/
theorem Holds.not_committed (h : dir.Holds w published)
    (horder : published.reverse ++ file :: todo = publishOrder) : ¬ dir.Committed := by
  rintro ⟨stored, hstored, -⟩
  rw [h .manifest] at hstored
  split_ifs at hstored with hmanifest
  cases (ResultFile.all_published horder hmanifest).1

theorem Holds.coherent (h : dir.Holds w published)
    (horder : published.reverse ++ todo = publishOrder) : dir.Coherent where
  origin file other stored stored' hstored hstored' := by
    rw [h.own hstored, h.own hstored']
  whole w' hmanifest := by
    have hown := h.own hmanifest
    cases hown
    rw [h .manifest] at hmanifest
    split_ifs at hmanifest with hmem
    exact h.complete (ResultFile.all_published horder hmem).2

/-- With a file that is being copied. -/
theorem Holds.copying (h : dir.Holds w published)
    (horder : published.reverse ++ file :: todo = publishOrder) :
    ¬ (dir.put file ⟨.writer w, false⟩).Committed ∧
      ∀ other stored, (dir.put file ⟨.writer w, false⟩).destination other = some stored →
        stored.origin = .writer w := by
  constructor
  · rintro ⟨stored, hstored, hwhole⟩
    by_cases hsame : ResultFile.manifest = file
    · subst hsame
      simp only [RunDir.put, Function.update_self, Option.some.injEq] at hstored
      subst hstored
      cases hwhole
    · simp only [RunDir.put, Function.update_of_ne hsame] at hstored
      exact h.not_committed horder ⟨stored, hstored, hwhole⟩
  · intro other stored hstored
    by_cases hsame : other = file
    · subst hsame
      simp only [RunDir.put, Function.update_self, Option.some.injEq] at hstored
      subst hstored
      rfl
    · simp only [RunDir.put, Function.update_of_ne hsame] at hstored
      rw [h.own hstored]

theorem coherent_of_own
    (hown : ∀ file stored, dir.destination file = some stored → stored.origin = .writer w)
    (hopen : ¬ dir.Committed) : dir.Coherent where
  origin file other stored stored' hstored hstored' :=
    (hown file stored hstored).trans (hown other stored' hstored').symm
  whole _ hmanifest := absurd ⟨_, hmanifest, rfl⟩ hopen

theorem Coherent.congr {dir' : RunDir W} (h : dir.Coherent)
    (hsame : dir'.destination = dir.destination) : dir'.Coherent := by
  cases dir
  cases dir'
  cases hsame
  exact ⟨h.origin, h.whole⟩

end RunDir

namespace WriterStage

variable [DecidableEq W] {w : W} {dir : RunDir W} {stage : WriterStage} {answer : CallAnswer}

theorem Knows.step (h : stage.Knows w dir) (hplain : answer.Plain) :
    (stage.step w answer dir).1.Knows w (stage.step w answer dir).2 := by
  cases stage with
  | start => simp only [WriterStage.step]; split_ifs <;> simp [Knows]
  | noting =>
    simp only [WriterStage.step]
    split_ifs
    · simp [Knows]
    · exact fun file => .inl (by cases file <;> simp [ResultFile.all])
  | probing todo =>
    cases todo with
    | nil => exact fun file => (h file).resolve_left (List.not_mem_nil)
    | cons file todo =>
      simp only [WriterStage.step]
      split_ifs with hseen
      · simp [Knows]
      · intro other
        have hfree : dir.destination file = none := by
          simpa using fun h => hseen ⟨hplain.1, h⟩
        rcases h other with hmem | hnone
        · cases hmem with
          | head => exact .inr hfree
          | tail _ hmem => exact .inl hmem
        · exact .inr hnone
  | preparing todo =>
    cases todo with
    | nil => exact ⟨rfl, fun file => h file⟩
    | cons file todo =>
      simp only [WriterStage.step]
      split_ifs
      · simp [Knows]
      · simp [Knows]
      · exact h
  | publishing todo published =>
    obtain ⟨horder, hholds⟩ := h
    cases todo with
    | nil =>
      refine fun _ => hholds.complete fun file => ?_
      rw [← List.mem_reverse, ← List.append_nil published.reverse, horder]
      cases file <;> simp [publishOrder]
    | cons file todo =>
      have hnext : (file :: published).reverse ++ todo = publishOrder := by simpa using horder
      simp only [WriterStage.step]
      split_ifs
      · refine ⟨fun other stored hstored => ?_, hholds.not_committed horder⟩
        rw [hholds.own hstored]
      · exact ⟨horder, dir, hholds, rfl⟩
      · exact ⟨hnext, hholds.put⟩
  | copying file todo published =>
    obtain ⟨horder, old, hholds, hdestination⟩ := h
    have hnext : (file :: published).reverse ++ todo = publishOrder := by simpa using horder
    have hcopying := hholds.copying horder
    simp only [WriterStage.step]
    split_ifs with hfailed hunsynced
    · refine ⟨fun other stored hstored => ?_, ?_⟩
      · rw [hdestination] at hstored
        exact hcopying.2 other stored hstored
      · rintro ⟨stored, hstored, hwhole⟩
        rw [hdestination] at hstored
        exact hcopying.1 ⟨stored, hstored, hwhole⟩
    · exact absurd hunsynced hplain.2
    · refine ⟨hnext, fun other => ?_⟩
      rw [← hholds.put other]
      simp [RunDir.put, hdestination]
  | undoing todo =>
    cases todo with
    | nil => simp [WriterStage.step, Knows]
    | cons file todo =>
      simp only [WriterStage.step]
      split_ifs
      · exact h
      · obtain ⟨hown, hopen⟩ := h
        refine ⟨fun other stored hstored => ?_, ?_⟩
        · by_cases hsame : other = file
          · simp [RunDir.remove, hsame] at hstored
          · simp only [RunDir.remove, Function.update_of_ne hsame] at hstored
            exact hown other stored hstored
        · rintro ⟨stored, hstored, hwhole⟩
          by_cases hsame : ResultFile.manifest = file
          · simp [RunDir.remove, hsame] at hstored
          · simp only [RunDir.remove, Function.update_of_ne hsame] at hstored
            exact hopen ⟨stored, hstored, hwhole⟩
  | sweeping ok todo =>
    cases todo with
    | nil => exact h
    | cons file todo => simp only [WriterStage.step]; split_ifs <;> exact h
  | releasing ok => simp only [WriterStage.step]; split_ifs <;> exact h
  | finished ok => exact h

/-- A directory that can be accepted changes no more. -/
theorem Knows.frozen (h : stage.Knows w dir) (hcommitted : dir.Committed) :
    (stage.step w answer dir).2.destination = dir.destination := by
  cases stage with
  | publishing todo published =>
    cases todo with
    | nil => rfl
    | cons file todo => exact absurd hcommitted (h.2.not_committed h.1)
  | copying file todo published =>
    obtain ⟨horder, old, hholds, hdestination⟩ := h
    obtain ⟨stored, hstored, hwhole⟩ := hcommitted
    rw [hdestination] at hstored
    exact absurd ⟨stored, hstored, hwhole⟩ (hholds.copying horder).1
  | undoing todo => exact absurd hcommitted h.2
  | probing todo =>
    cases todo with
    | nil => rfl
    | cons file todo => simp only [WriterStage.step]; split_ifs <;> rfl
  | preparing todo =>
    cases todo with
    | nil => rfl
    | cons file todo => simp only [WriterStage.step]; split_ifs <;> rfl
  | sweeping ok todo =>
    cases todo with
    | nil => rfl
    | cons file todo => simp only [WriterStage.step]; split_ifs <;> rfl
  | start => simp only [WriterStage.step]; split_ifs <;> rfl
  | noting => simp only [WriterStage.step]; split_ifs <;> rfl
  | releasing ok => simp only [WriterStage.step]; split_ifs <;> rfl
  | finished ok => rfl

theorem Knows.coherent (h : stage.Knows w dir) (hplain : answer.Plain) (hdir : dir.Coherent) :
    (stage.step w answer dir).2.Coherent := by
  by_cases hcommitted : dir.Committed
  · exact hdir.congr (h.frozen hcommitted)
  cases hholds : stage.holds with
  | false => exact hdir.congr (destination_of_not_holds hholds)
  | true =>
    have hnext := h.step hplain
    cases stage with
    | publishing todo published =>
      cases todo with
      | nil => exact hdir
      | cons file todo =>
        simp only [WriterStage.step] at hnext ⊢
        split_ifs at hnext ⊢
        · exact hdir
        · exact RunDir.coherent_of_own (h.2.copying h.1).2 (h.2.copying h.1).1
        · exact hnext.2.coherent hnext.1
    | copying file todo published =>
      simp only [WriterStage.step] at hnext ⊢
      split_ifs at hnext ⊢ with hfailed hunsynced
      · exact hdir
      · exact absurd hunsynced hplain.2
      · exact hnext.2.coherent hnext.1
    | undoing todo =>
      cases todo with
      | nil => exact hdir
      | cons file todo => exact RunDir.coherent_of_own hnext.1 hnext.2
    | probing todo =>
      cases todo with
      | nil => exact hdir
      | cons file todo => simp only [WriterStage.step]; split_ifs <;> exact hdir
    | preparing todo =>
      cases todo with
      | nil => exact hdir
      | cons file todo => simp only [WriterStage.step]; split_ifs <;> exact hdir.congr rfl
    | sweeping ok todo =>
      cases todo with
      | nil => exact hdir
      | cons file todo => simp only [WriterStage.step]; split_ifs <;> exact hdir.congr rfl
    | noting => simp only [WriterStage.step]; split_ifs <;> exact hdir
    | releasing ok => simp only [WriterStage.step]; split_ifs <;> exact hdir.congr rfl
    | start => cases hholds
    | finished ok => cases hholds

end WriterStage

-- ---------------------------------------------------------------------------
-- Readers
-- ---------------------------------------------------------------------------

/-- What the reader has read is what is in place. -/
def ReaderStage.Seen (dir : RunDir W) : ReaderStage W → Prop
  | .manifest => True
  | .scoreSet first => first.whole = true ∧ dir.destination .manifest = some first
  | .predictions first second =>
    first.whole = true ∧ dir.destination .manifest = some first ∧
      dir.destination .scoreSet = some second
  | .finished none => True
  | .finished (some (first, second, third)) =>
    first.whole = true ∧ dir.destination .manifest = some first ∧
      dir.destination .scoreSet = some second ∧ dir.destination .predictions = some third

namespace ReaderStage

variable {dir dir' : RunDir W} {stage : ReaderStage W}

theorem Seen.step (h : stage.Seen dir) (answer : CallAnswer) : (stage.step answer dir).Seen dir := by
  cases stage with
  | manifest =>
    cases hstored : dir.destination .manifest with
    | none => simp [ReaderStage.step, hstored, Seen]
    | some stored =>
      simp only [ReaderStage.step, hstored]
      split_ifs with hrefused
      · exact trivial
      · exact ⟨by simpa using fun h => hrefused (.inr h), hstored⟩
  | scoreSet first =>
    cases hstored : dir.destination .scoreSet with
    | none => simp [ReaderStage.step, hstored, Seen]
    | some stored =>
      simp only [ReaderStage.step, hstored]
      split_ifs
      · exact trivial
      · exact ⟨h.1, h.2, hstored⟩
  | predictions first second =>
    cases hstored : dir.destination .predictions with
    | none => simp [ReaderStage.step, hstored, Seen]
    | some stored =>
      simp only [ReaderStage.step, hstored]
      split_ifs
      · exact trivial
      · exact ⟨h.1, h.2.1, h.2.2, hstored⟩
  | finished view => exact h

/-- Before it can be accepted nothing of a directory has been. -/
theorem Seen.carry (h : stage.Seen dir)
    (hsame : dir.Committed → dir'.destination = dir.destination) : stage.Seen dir' := by
  have hcarry : ∀ {first}, first.whole = true ∧ dir.destination .manifest = some first →
      dir'.destination = dir.destination := fun hfirst => hsame ⟨_, hfirst.2, hfirst.1⟩
  cases stage with
  | manifest => trivial
  | scoreSet first => rwa [Seen, hcarry h]
  | predictions first second => rwa [Seen, hcarry ⟨h.1, h.2.1⟩]
  | finished view =>
    cases view with
    | none => trivial
    | some view => rwa [Seen, hcarry ⟨h.1, h.2.1⟩]

end ReaderStage

-- ---------------------------------------------------------------------------
-- Runs
-- ---------------------------------------------------------------------------

namespace ResultsSystem

variable {sys : ResultsSystem W R}

structure Orderly (sys : ResultsSystem W R) : Prop extends sys.Guarded where
  knows : ∀ w, (sys.stage w).Knows w sys.dir
  coherent : sys.dir.Coherent
  seen : ∀ r, (sys.reading r).Seen sys.dir

theorem Orderly.initial {dir : RunDir W}
    (h : ∀ file stored, dir.destination file = some stored → stored.origin = .prior) :
    (initial dir : ResultsSystem W R).Orderly where
  toGuarded := .initial dir
  knows _ := trivial
  coherent := {
    origin := fun file other stored stored' hstored hstored' =>
      (h file stored hstored).trans (h other stored' hstored').symm
    whole := fun _ hmanifest => nomatch h _ _ hmanifest }
  seen _ := trivial

variable [DecidableEq W] [DecidableEq R]

theorem Orderly.frozen (h : sys.Orderly) (hcommitted : sys.dir.Committed)
    (action : ResultsAction W R) : (sys.step action).dir.destination = sys.dir.destination := by
  cases action with
  | read r answer => rfl
  | write w answer => exact (h.knows w).frozen hcommitted

theorem Orderly.step (h : sys.Orderly) {action : ResultsAction W R}
    (hplain : ∀ w answer, action = .write w answer → answer.Plain) : (sys.step action).Orderly := by
  cases action with
  | read r answer =>
    refine ⟨h.toGuarded.step _, h.knows, h.coherent, fun r' => ?_⟩
    by_cases hsame : r' = r
    · subst hsame
      simpa only [ResultsSystem.step, Function.update_self] using (h.seen r').step answer
    · simpa only [ResultsSystem.step, Function.update_of_ne hsame] using h.seen r'
  | write w answer =>
    have hanswer := hplain w answer rfl
    refine ⟨h.toGuarded.step _, fun w' => ?_, (h.knows w).coherent hanswer h.coherent,
      fun r => (h.seen r).carry fun hcommitted => (h.knows w).frozen hcommitted⟩
    by_cases hsame : w' = w
    · subst hsame
      simpa only [ResultsSystem.step, Function.update_self] using (h.knows w').step hanswer
    · simp only [ResultsSystem.step, Function.update_of_ne hsame]
      cases hholds : (sys.stage w).holds with
      | false => exact (h.knows w').congr (WriterStage.destination_of_not_holds hholds)
      | true =>
        have hknows := h.knows w'
        have hfree : (sys.stage w').holds ≠ true := fun hw' => hsame (h.unique hw' hholds)
        cases hstage : sys.stage w' with
        | start => trivial
        | finished ok =>
          rw [hstage] at hknows
          intro hok
          have hcomplete := hknows hok
          intro file
          rw [(h.knows w).frozen hcomplete.committed]
          exact hcomplete file
        | _ => exact absurd (by rw [hstage]; rfl) hfree

theorem Orderly.run (h : sys.Orderly) {actions : List (ResultsAction W R)}
    (hplain : ∀ w answer, .write w answer ∈ actions → answer.Plain) :
    (sys.run actions).Orderly := by
  induction actions generalizing sys with
  | nil => exact h
  | cons action actions ih =>
    refine ih (h.step ?_) fun w answer hmem => hplain w answer (List.mem_cons_of_mem _ hmem)
    rintro w answer rfl
    exact hplain w answer List.mem_cons_self

theorem Orderly.run_frozen (h : sys.Orderly) (hcommitted : sys.dir.Committed)
    {actions : List (ResultsAction W R)}
    (hplain : ∀ w answer, .write w answer ∈ actions → answer.Plain) :
    (sys.run actions).dir.destination = sys.dir.destination := by
  induction actions generalizing sys with
  | nil => rfl
  | cons action actions ih =>
    have hsame := h.frozen hcommitted action
    have hstep : (sys.step action).Orderly := h.step (by
      rintro w answer rfl
      exact hplain w answer List.mem_cons_self)
    have hstill : (sys.step action).dir.Committed := by
      obtain ⟨stored, hstored, hwhole⟩ := hcommitted
      exact ⟨stored, hsame ▸ hstored, hwhole⟩
    exact (ih hstep hstill fun w answer hmem =>
      hplain w answer (List.mem_cons_of_mem _ hmem)).trans hsame

end ResultsSystem

/-- Files of one write are never read with those of another: a view that a
reader was given is in place, of one origin, whole where a writer made it, and
stays. So does what a writer has reported written. -/
theorem resultsReader_consistent [DecidableEq W] [DecidableEq R] (dir : RunDir W)
    (hdir : ∀ file stored, dir.destination file = some stored → stored.origin = .prior)
    (actions : List (ResultsAction W R))
    (hplain : ∀ w answer, .write w answer ∈ actions → answer.Plain) :
    let sys := (ResultsSystem.initial dir).run actions
    (∀ w, sys.stage w = .finished true → sys.dir.Complete w) ∧
      (∀ r first second third, sys.reading r = .finished (some (first, second, third)) →
        (sys.dir.destination .manifest = some first ∧
          sys.dir.destination .scoreSet = some second ∧
          sys.dir.destination .predictions = some third) ∧
        first.whole = true ∧ second.origin = first.origin ∧ third.origin = first.origin ∧
        (first.origin ≠ .prior → second.whole = true ∧ third.whole = true)) ∧
      (sys.dir.Committed → ∀ more, (∀ w answer, .write w answer ∈ more → answer.Plain) →
        (sys.run more).dir.destination = sys.dir.destination) := by
  intro sys
  have horderly : sys.Orderly := (ResultsSystem.Orderly.initial hdir).run hplain
  refine ⟨fun w hw => ?_, fun r first second third hr => ?_,
    fun hcommitted more hmore => horderly.run_frozen hcommitted hmore⟩
  · have hknows := horderly.knows w
    rw [hw] at hknows
    exact hknows rfl
  · have hseen := horderly.seen r
    rw [hr] at hseen
    obtain ⟨hwhole, hfirst, hsecond, hthird⟩ := hseen
    refine ⟨⟨hfirst, hsecond, hthird⟩, hwhole,
      horderly.coherent.origin _ _ _ _ hsecond hfirst,
      horderly.coherent.origin _ _ _ _ hthird hfirst, fun hwritten => ?_⟩
    obtain ⟨w, hw⟩ : ∃ w, first = ⟨.writer w, true⟩ := by
      obtain ⟨origin, whole⟩ := first
      cases origin with
      | prior => exact absurd rfl hwritten
      | writer w => exact ⟨w, congrArg _ hwhole⟩
    subst hw
    have hcomplete := horderly.coherent.whole w hfirst
    rw [hcomplete] at hsecond hthird
    cases hsecond
    cases hthird
    exact ⟨rfl, rfl⟩

-- ---------------------------------------------------------------------------
-- Two writers and a reader
-- ---------------------------------------------------------------------------

def emptyDir : RunDir Bool := ⟨none, fun _ => none, fun _ _ => false⟩

/-- One writer links and the other would copy; the reader comes last. -/
def raceActions : List (ResultsAction Bool Unit) :=
  (List.replicate 26 [.write true .unsupported, .write false .done]).flatten ++
    List.replicate 3 (.read () .done)

theorem served_raceActions (w : Bool) (answer : CallAnswer)
    (h : .write w answer ∈ raceActions) : answer.Served := by
  rcases List.mem_append.mp h with hwrite | hread
  · obtain ⟨round, hround, hmem⟩ := List.mem_flatten.mp hwrite
    rw [List.eq_of_mem_replicate hround] at hmem
    simp only [List.mem_cons, ResultsAction.write.injEq, List.not_mem_nil, or_false] at hmem
    rcases hmem with ⟨-, rfl⟩ | ⟨-, rfl⟩
    · exact .inr rfl
    · exact .inl rfl
  · cases List.eq_of_mem_replicate hread

theorem resultsReader_consistent_race :
    let sys := (ResultsSystem.initial emptyDir).run raceActions
    ∃ first second third, sys.reading () = .finished (some (first, second, third)) ∧
      first.origin = .writer true ∧ second.origin = first.origin ∧
      third.origin = first.origin := by
  intro sys
  have hread : sys.reading () =
      .finished (some (⟨.writer true, true⟩, ⟨.writer true, true⟩, ⟨.writer true, true⟩)) := by
    decide +kernel
  obtain ⟨-, -, hsecond, hthird, -⟩ := (resultsReader_consistent emptyDir (fun _ _ h => nomatch h)
    raceActions fun w answer h => (served_raceActions w answer h).plain).2.1 () _ _ _ hread
  exact ⟨_, _, _, hread, rfl, hsecond, hthird⟩

end DagMl

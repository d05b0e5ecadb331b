import Mathlib

/-!
# Writing a results directory

Writers of one run directory reserve it, prepare their files beside the
destinations, and publish them with the manifest last; readers open the
manifest first. A step is one call of the file system, and the steps of all
writers and readers interleave freely. A writer that is killed takes no more
steps.
-/

namespace DagMl

/-- The three fixed files. -/
inductive ResultFile
  | manifest
  | scoreSet
  | predictions
  deriving DecidableEq

namespace ResultFile

def all : List ResultFile := [.manifest, .scoreSet, .predictions]

/-- `for index in [1, 2, 0]`: the manifest is the commit marker. -/
def publishOrder : List ResultFile := [.scoreSet, .predictions, .manifest]

end ResultFile

/-- Whose file it is: a writer's, or that of whoever had the directory before. -/
inductive FileOrigin (W : Type)
  | prior
  | writer (w : W)
  deriving DecidableEq

/-- A file that is still being copied is not `whole`. -/
structure StoredFile (W : Type) where
  origin : FileOrigin W
  whole : Bool
  deriving DecidableEq

/-- The names of temporary files carry a nonce of their writer. -/
structure RunDir (W : Type) where
  reservation : Option (FileOrigin W)
  destination : ResultFile → Option (StoredFile W)
  temporary : W → ResultFile → Bool

namespace RunDir

variable {W : Type} (dir : RunDir W)

def put (file : ResultFile) (stored : StoredFile W) : RunDir W :=
  { dir with destination := Function.update dir.destination file (some stored) }

def remove (file : ResultFile) : RunDir W :=
  { dir with destination := Function.update dir.destination file none }

def setTemporary [DecidableEq W] (w : W) (file : ResultFile) (there : Bool) : RunDir W :=
  { dir with
    temporary := Function.update dir.temporary w (Function.update (dir.temporary w) file there) }

end RunDir

/-- What the file system answers. `unsupported` is a refusal to link, and
`unseen` an error that `exists` takes for absence; after `unsynced` all bytes
are written and the call still fails. Other calls take them for `done`. -/
inductive CallAnswer
  | done
  | failed
  | unsupported
  | unseen
  | unsynced
  deriving DecidableEq

-- ---------------------------------------------------------------------------
-- The writer
-- ---------------------------------------------------------------------------

/-- Where `write_native_results` is, its payload already validated. -/
inductive WriterStage
  | start
  /-- The reservation is made; the process id is written into it. -/
  | noting
  | probing (todo : List ResultFile)
  | preparing (todo : List ResultFile)
  | publishing (todo published : List ResultFile)
  /-- The exclusive-create copy in place of a link. -/
  | copying (file : ResultFile) (todo published : List ResultFile)
  | undoing (todo : List ResultFile)
  | sweeping (ok : Bool) (todo : List ResultFile)
  | releasing (ok : Bool)
  | finished (ok : Bool)
  deriving DecidableEq

namespace WriterStage

variable {W : Type} [DecidableEq W] (w : W) (answer : CallAnswer) (dir : RunDir W)

/-- The next call of the writer `w`, and what it leaves. -/
def step : WriterStage → WriterStage × RunDir W
  | .start =>
    if answer = .failed ∨ dir.reservation.isSome then (.finished false, dir)
    else (.noting, { dir with reservation := some (.writer w) })
  | .noting =>
    if answer = .failed ∨ answer = .unsynced then (.releasing false, dir)
    else (.probing ResultFile.all, dir)
  | .probing [] => (.preparing ResultFile.all, dir)
  | .probing (file :: todo) =>
    if answer ≠ .unseen ∧ (dir.destination file).isSome then (.releasing false, dir)
    else (.probing todo, dir)
  | .preparing [] => (.publishing ResultFile.publishOrder [], dir)
  | .preparing (file :: todo) =>
    if answer = .failed ∨ dir.temporary w file then (.sweeping false ResultFile.all, dir)
    else if answer = .unsynced then
      (.sweeping false ResultFile.all, dir.setTemporary w file true)
    else (.preparing todo, dir.setTemporary w file true)
  | .publishing [] _ => (.sweeping true ResultFile.all, dir)
  | .publishing (file :: todo) published =>
    -- neither a link nor an exclusive creation replaces a file
    if answer = .failed ∨ (dir.destination file).isSome then (.undoing published, dir)
    else if answer = .unsupported then
      (.copying file todo published, dir.put file ⟨.writer w, false⟩)
    else (.publishing todo (file :: published), dir.put file ⟨.writer w, true⟩)
  | .copying file todo published =>
    if answer = .failed then (.undoing (file :: published), dir)
    else if answer = .unsynced then
      (.undoing (file :: published), dir.put file ⟨.writer w, true⟩)
    else (.publishing todo (file :: published), dir.put file ⟨.writer w, true⟩)
  | .undoing [] => (.sweeping false ResultFile.all, dir)
  | .undoing (file :: todo) =>
    -- `let _ = remove_file(..)`, here and in the two below
    (.undoing todo, if answer = .failed then dir else dir.remove file)
  | .sweeping ok [] => (.releasing ok, dir)
  | .sweeping ok (file :: todo) =>
    (.sweeping ok todo, if answer = .failed then dir else dir.setTemporary w file false)
  | .releasing ok =>
    (.finished ok, if answer = .failed then dir else { dir with reservation := none })
  | .finished ok => (.finished ok, dir)

/-- The reservation is the writer's. -/
def holds : WriterStage → Bool
  | .start => false
  | .finished _ => false
  | _ => true

/-- The destinations that the writer has created and not taken back. -/
def published : WriterStage → List ResultFile
  | .publishing _ published => published
  | .copying file _ published => file :: published
  | .undoing todo => todo
  | _ => []

end WriterStage

-- ---------------------------------------------------------------------------
-- The reader
-- ---------------------------------------------------------------------------

/-- Where `read_native_results` is, with the files it has read. -/
inductive ReaderStage (W : Type)
  | manifest
  | scoreSet (manifest : StoredFile W)
  | predictions (manifest scoreSet : StoredFile W)
  | finished (view : Option (StoredFile W × StoredFile W × StoredFile W))
  deriving DecidableEq

/-- `failed` stands for a file that is not read and for contents that are
refused. A manifest that is not whole is no JSON document. -/
def ReaderStage.step {W : Type} (answer : CallAnswer) (dir : RunDir W) :
    ReaderStage W → ReaderStage W
  | .manifest =>
    match dir.destination .manifest with
    | some stored =>
      if answer = .failed ∨ stored.whole = false then .finished none else .scoreSet stored
    | none => .finished none
  | .scoreSet first =>
    match dir.destination .scoreSet with
    | some stored => if answer = .failed then .finished none else .predictions first stored
    | none => .finished none
  | .predictions first second =>
    match dir.destination .predictions with
    | some stored =>
      if answer = .failed then .finished none else .finished (some (first, second, stored))
    | none => .finished none
  | .finished view => .finished view

-- ---------------------------------------------------------------------------
-- All of them
-- ---------------------------------------------------------------------------

structure ResultsSystem (W R : Type) where
  dir : RunDir W
  stage : W → WriterStage
  reading : R → ReaderStage W

inductive ResultsAction (W R : Type)
  | write (w : W) (answer : CallAnswer)
  | read (r : R) (answer : CallAnswer)

namespace ResultsSystem

variable {W R : Type}

def initial (dir : RunDir W) : ResultsSystem W R := ⟨dir, fun _ => .start, fun _ => .manifest⟩

variable [DecidableEq W] [DecidableEq R]

def step (sys : ResultsSystem W R) : ResultsAction W R → ResultsSystem W R
  | .write w answer =>
    let next := (sys.stage w).step w answer sys.dir
    { sys with dir := next.2, stage := Function.update sys.stage w next.1 }
  | .read r answer =>
    { sys with reading := Function.update sys.reading r ((sys.reading r).step answer sys.dir) }

def run (sys : ResultsSystem W R) (actions : List (ResultsAction W R)) : ResultsSystem W R :=
  actions.foldl step sys

/-- How often the writer `w` takes a step. -/
def calls (w : W) (actions : List (ResultsAction W R)) : Nat :=
  actions.countP fun action =>
    match action with
    | .write w' _ => w' = w
    | .read _ _ => false

end ResultsSystem

end DagMl

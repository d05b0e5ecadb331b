import Mathlib

/-!
# Paths resolved lexically

A path text is cut at its separators and walked from a directory without a
look at the file system: empty components and `.` stay, `..` goes up, and any
other component goes one level down. An absolute text discards the directory
it is joined to.
-/

namespace LexicalPath

inductive Platform
  | posix
  | windows
  deriving DecidableEq

def Platform.isSeparator : Platform → Char → Bool
  | .posix, c => c = '/'
  | .windows, c => c = '/' || c = '\\'

/-- A drive such as `C:`; a text that starts with one is not relative on Windows. -/
def Platform.hasDrive : Platform → List Char → Bool
  | .windows, drive :: ':' :: _ => drive.isAlpha
  | _, _ => false

/-- A component that names an entry of a directory. -/
def Proper (component : List Char) : Prop :=
  component ≠ [] ∧ component ≠ ['.'] ∧ component ≠ ['.', '.']

instance (component : List Char) : Decidable (Proper component) := by
  unfold Proper; infer_instance

/-- A path from which every `.` and `..` is resolved. -/
@[ext]
structure Resolved where
  parts : List (List Char)
  proper : ∀ part ∈ parts, Proper part
  deriving DecidableEq

namespace Resolved

def parent (path : Resolved) : Resolved where
  parts := path.parts.dropLast
  proper part h := path.proper part (List.mem_of_mem_dropLast h)

def child (path : Resolved) (component : List Char) (h : Proper component) : Resolved where
  parts := path.parts ++ [component]
  proper part hpart := by
    rcases List.mem_append.mp hpart with hpart | hpart
    · exact path.proper part hpart
    · rw [List.mem_singleton.mp hpart]
      exact h

def enter (path : Resolved) (component : List Char) : Resolved :=
  if h : Proper component then path.child component h
  else if component = ['.', '.'] then path.parent else path

/-- Strictly below `root`. -/
def Within (path root : Resolved) : Prop := ∃ parts, parts ≠ [] ∧ path.parts = root.parts ++ parts

end Resolved

/-- The components of a text that name an entry. -/
def components (platform : Platform) (text : List Char) : List (List Char) :=
  (text.splitOnP platform.isSeparator).filter fun component => Proper component

/-- `text` joined to `root` and resolved; `none` where the text is absolute or names a drive, so
that `root` has no part in the result. -/
def join (platform : Platform) (root : Resolved) (text : List Char) : Option Resolved :=
  if (text.head?.any platform.isSeparator || platform.hasDrive text) = true then none
  else some ((text.splitOnP platform.isSeparator).foldl Resolved.enter root)

-- ---------------------------------------------------------------------------
-- Cutting at more separators
-- ---------------------------------------------------------------------------

/-- More separators cut the pieces further. -/
theorem splitOnP_eq_flatMap {α : Type} {p q : α → Bool} (h : ∀ x, p x = true → q x = true)
    (xs : List α) : xs.splitOnP q = (xs.splitOnP p).flatMap (List.splitOnP q) := by
  induction xs with
  | nil => simp
  | cons x xs ih =>
    obtain ⟨piece, pieces, hpieces⟩ := List.exists_cons_of_ne_nil (List.splitOnP_ne_nil p xs)
    rw [hpieces, List.flatMap_cons] at ih
    rw [List.splitOnP_cons_eq_if_modifyHead, List.splitOnP_cons_eq_if_modifyHead, hpieces, ih]
    by_cases hp : p x = true
    · simp [hp, h x hp]
    · obtain ⟨first, rest, hfirst⟩ := List.exists_cons_of_ne_nil (List.splitOnP_ne_nil q piece)
      by_cases hq : q x = true
      · simp [hp, hq, List.splitOnP_cons_eq_if_modifyHead]
      · simp [hp, hq, List.splitOnP_cons_eq_if_modifyHead, hfirst]

/-- A piece without the further separators stays a piece. -/
theorem mem_splitOnP_of_le {α : Type} {p q : α → Bool} (h : ∀ x, p x = true → q x = true)
    {piece xs : List α} (hpiece : piece ∈ xs.splitOnP p) (hq : ∀ x ∈ piece, q x = false) :
    piece ∈ xs.splitOnP q := by
  rw [splitOnP_eq_flatMap h]
  refine List.mem_flatMap.mpr ⟨piece, hpiece, ?_⟩
  rw [List.splitOnP_eq_singleton hq]
  exact List.mem_singleton_self piece

-- ---------------------------------------------------------------------------
-- Paths that never go up
-- ---------------------------------------------------------------------------

namespace Resolved

theorem parts_enter_of_proper {path : Resolved} {component : List Char} (h : Proper component) :
    (path.enter component).parts = path.parts ++ [component] := by
  simp [enter, h, child]

theorem enter_of_not_proper {path : Resolved} {component : List Char} (h : ¬Proper component)
    (hup : component ≠ ['.', '.']) : path.enter component = path := by
  simp [enter, h, hup]

/-- Without a `..` the walk goes down along the proper components. -/
theorem parts_foldl_enter {walk : List (List Char)} (hup : ['.', '.'] ∉ walk) (path : Resolved) :
    (walk.foldl enter path).parts
      = path.parts ++ walk.filter fun component => Proper component := by
  induction walk generalizing path with
  | nil => simp
  | cons component walk ih =>
    obtain ⟨hcomponent, hwalk⟩ := not_or.mp (mt List.mem_cons.mpr hup)
    rw [List.foldl_cons, ih hwalk]
    by_cases h : Proper component
    · simp [parts_enter_of_proper h, h]
    · simp [enter_of_not_proper h (Ne.symm hcomponent), h]

theorem within_iff {path root : Resolved} {parts : List (List Char)}
    (h : path.parts = root.parts ++ parts) : path.Within root ↔ parts ≠ [] := by
  constructor
  · rintro ⟨below, hbelow, heq⟩
    rwa [List.append_cancel_left (h.symm.trans heq)]
  · intro hparts
    exact ⟨parts, hparts, h⟩

end Resolved

variable {platform : Platform} {root : Resolved}

/-- A relative text without a `..` stays below the root, along its proper components. -/
theorem exists_join {text : List Char} (hhead : text.head?.any platform.isSeparator = false)
    (hdrive : platform.hasDrive text = false)
    (hup : ['.', '.'] ∉ text.splitOnP platform.isSeparator) :
    ∃ path, join platform root text = some path ∧
      path.parts = root.parts ++ components platform text := by
  refine ⟨(text.splitOnP platform.isSeparator).foldl Resolved.enter root, ?_, ?_⟩
  · simp [join, hhead, hdrive]
  · exact Resolved.parts_foldl_enter hup root

/-- A proper text without separators is the only component of its own. -/
theorem components_of_plain {text : List Char} (h : Proper text)
    (hplain : ∀ c ∈ text, platform.isSeparator c = false) : components platform text = [text] := by
  rw [components, List.splitOnP_eq_singleton hplain]
  simp [h]

/-- Paths below one root are told apart by what comes after the root. -/
theorem join_eq_iff {left right : List Char} {leftPath rightPath : Resolved}
    (hleft : join platform root left = some leftPath)
    (hleftParts : leftPath.parts = root.parts ++ components platform left)
    (hright : join platform root right = some rightPath)
    (hrightParts : rightPath.parts = root.parts ++ components platform right) :
    join platform root left = join platform root right ↔
      components platform left = components platform right := by
  rw [hleft, hright, Option.some_inj, Resolved.ext_iff, hleftParts, hrightParts,
    List.append_cancel_left_eq]

end LexicalPath

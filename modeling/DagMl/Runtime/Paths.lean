import DagMl.Lib.LexicalPath
import DagMl.Runtime.Artifact

/-!
# File names and payload paths of the stores

A prediction cache is a plain file name in its store, an artifact payload a
relative path below its store. Both checks read `/` and `\` as separators on
every platform, so a bundle that passes on one passes on all.
-/

namespace DagMl

open Checked LexicalPath

-- ---------------------------------------------------------------------------
-- The two checks
-- ---------------------------------------------------------------------------

def validatePredictionCacheFileName (fileName : String) : Result Unit :=
  refuseIf (fileName = "." ∨ fileName = ".." ∨ '/' ∈ fileName.toList ∨ '\\' ∈ fileName.toList ∨
      ':' ∈ fileName.toList ∨ fileName.isEmpty = true ∨ fileName.toList.any isControl = true)
    (.runtimeValidation s!"prediction cache file name `{fileName}` must be a plain file name")

/-- `['/', '\\']`. -/
def isEitherSeparator (c : Char) : Bool := c = '/' || c = '\\'

/-- An ASCII letter and a colon at the start. -/
def startsWithDrive : List Char → Bool
  | drive :: ':' :: _ => drive.isAlpha
  | _ => false

def validateRelativeArtifactUri (artifactId : ArtifactId) (uri : String) : Result Unit := do
  refuseIf (uri.isEmpty = true) (.runtimeValidation s!"artifact `{artifactId}` has empty uri")
  refuseIf (uri.toList.any isControl = true)
    (.runtimeValidation s!"artifact `{artifactId}` uri has control characters")
  refuseIf (uri.toList.head? = some '/' ∨ uri.toList.head? = some '\\')
    (.runtimeValidation s!"artifact `{artifactId}` uri `{uri}` must be a relative path")
  refuseIf (startsWithDrive uri.toList = true)
    (.runtimeValidation s!"artifact `{artifactId}` uri `{uri}` must be a relative path")
  let segments := uri.toList.splitOnP isEitherSeparator
  refuseIf (':' ∈ segments.headD uri.toList) (.runtimeValidation
    s!"artifact `{artifactId}` uri `{uri}` must not include a scheme or colon in its first path segment")
  each segments fun segment => refuseIf (segment = ['.', '.'])
    (.runtimeValidation s!"artifact `{artifactId}` uri `{uri}` must not contain `..` components")

/-- The file of a prediction cache. -/
def predictionCachePath (platform : Platform) (root : Resolved) (name : String) :
    Result (Option Resolved) := do
  validatePredictionCacheFileName name
  pure (join platform root name.toList)

variable (fingerprinting : Fingerprinting)

def ArtifactRef.validatePortable (self : ArtifactRef) : Result Unit := do
  self.validate fingerprinting
  let uri ← need self.uri (.runtimeValidation
    s!"artifact `{self.id}` is not portable: requires backend, uri and content_fingerprint")
  validateRelativeArtifactUri self.id uri

/-- The file of an artifact payload. -/
def artifactPayloadPath (platform : Platform) (root : Resolved) (artifact : ArtifactRef) :
    Result (Option Resolved) := do
  artifact.validatePortable fingerprinting
  pure (artifact.uri.bind fun uri => join platform root uri.toList)

-- ---------------------------------------------------------------------------
-- What passes
-- ---------------------------------------------------------------------------

theorem isEitherSeparator_of_isSeparator {platform : Platform} {c : Char}
    (h : platform.isSeparator c = true) : isEitherSeparator c = true := by
  cases platform with
  | posix => simpa [isEitherSeparator] using Or.inl (of_decide_eq_true h)
  | windows => exact h

theorem head_not_separator {platform : Platform} {text : List Char}
    (hslash : text.head? ≠ some '/') (hback : text.head? ≠ some '\\') :
    text.head?.any platform.isSeparator = false := by
  cases text with
  | nil => rfl
  | cons c rest => cases platform <;> simp_all [Platform.isSeparator]

theorem hasDrive_of_startsWithDrive {platform : Platform} {text : List Char}
    (h : startsWithDrive text = false) : platform.hasDrive text = false := by
  cases platform with
  | posix => rfl
  | windows =>
    unfold startsWithDrive at h
    unfold Platform.hasDrive
    split <;> simp_all

theorem validatePredictionCacheFileName_ok {fileName : String} {u : Unit} :
    validatePredictionCacheFileName fileName = .ok u ↔
      Proper fileName.toList ∧ '/' ∉ fileName.toList ∧ '\\' ∉ fileName.toList ∧
        ':' ∉ fileName.toList ∧ fileName.toList.any isControl = false := by
  have hdot : fileName = "." ↔ fileName.toList = ['.'] := by
    rw [← String.toList_inj]; rfl
  have hup : fileName = ".." ↔ fileName.toList = ['.', '.'] := by
    rw [← String.toList_inj]; rfl
  have hempty : fileName.isEmpty = true ↔ fileName.toList = [] := by
    rw [String.isEmpty_iff, ← String.toList_eq_nil_iff]
  simp only [validatePredictionCacheFileName, refuseIf_ok, not_or, hdot, hup, hempty, Proper,
    Bool.not_eq_true]
  tauto

/-- An accepted artifact URI is relative and never goes up, on either platform. -/
theorem validateRelativeArtifactUri_sound {artifactId : ArtifactId} {uri : String} {u : Unit}
    (h : validateRelativeArtifactUri artifactId uri = .ok u) (platform : Platform) :
    uri.toList.head?.any platform.isSeparator = false ∧
      platform.hasDrive uri.toList = false ∧
      ['.', '.'] ∉ uri.toList.splitOnP platform.isSeparator := by
  simp only [validateRelativeArtifactUri, bind_ok, refuseIf_ok, each_ok] at h
  obtain ⟨_, -, _, -, _, hhead, _, hdrive, _, -, hsegments⟩ := h
  obtain ⟨hslash, hback⟩ := not_or.mp hhead
  refine ⟨head_not_separator hslash hback, hasDrive_of_startsWithDrive (by simpa using hdrive), ?_⟩
  intro hup
  exact hsegments _
    (mem_splitOnP_of_le (fun _ => isEitherSeparator_of_isSeparator) hup
      (by simp [isEitherSeparator])) rfl

-- ---------------------------------------------------------------------------
-- Where it leads
-- ---------------------------------------------------------------------------

variable (platform : Platform) (root : Resolved)

/-- An accepted file name is an entry of the root. -/
theorem join_fileName {fileName : String} {u : Unit}
    (h : validatePredictionCacheFileName fileName = .ok u) :
    ∃ path, join platform root fileName.toList = some path ∧
      path.parts = root.parts ++ [fileName.toList] := by
  obtain ⟨hproper, hslash, hback, hcolon, -⟩ := validatePredictionCacheFileName_ok.mp h
  have hplain : ∀ c ∈ fileName.toList, platform.isSeparator c = false := by
    intro c hc
    have hne : c ≠ '/' ∧ c ≠ '\\' := ⟨fun heq => hslash (heq ▸ hc), fun heq => hback (heq ▸ hc)⟩
    cases platform <;> simp [Platform.isSeparator, hne]
  have hhead : fileName.toList.head?.any platform.isSeparator = false := by
    rw [Option.any_eq_false]
    exact fun c hc => by simpa using hplain c (List.mem_of_mem_head? hc)
  have hdrive : platform.hasDrive fileName.toList = false := by
    refine hasDrive_of_startsWithDrive ?_
    unfold startsWithDrive
    split
    · rename_i drive rest heq
      exact absurd (by simp [heq]) hcolon
    · rfl
  have hup : ['.', '.'] ∉ fileName.toList.splitOnP platform.isSeparator := by
    rw [List.splitOnP_eq_singleton hplain, List.mem_singleton]
    exact hproper.2.2.symm
  obtain ⟨path, hjoin, hparts⟩ : ∃ path, join platform root fileName.toList = some path ∧
      path.parts = root.parts ++ components platform fileName.toList :=
    exists_join hhead hdrive hup
  exact ⟨path, hjoin, by rw [hparts, components_of_plain hproper hplain]⟩

/-- An accepted artifact URI stays in the root, along its proper components. -/
theorem join_uri {artifactId : ArtifactId} {uri : String} {u : Unit}
    (h : validateRelativeArtifactUri artifactId uri = .ok u) :
    ∃ path, join platform root uri.toList = some path ∧
      path.parts = root.parts ++ components platform uri.toList := by
  obtain ⟨hhead, hdrive, hup⟩ := validateRelativeArtifactUri_sound h platform
  exact exists_join hhead hdrive hup

/-- Cache files lie strictly inside the store, each name in a file of its own. An artifact payload
never leaves its store: it lies strictly inside unless its URI has no component but empty ones
and `.`, and two URIs lead to one file exactly when they agree on their other components. -/
theorem store_paths_contained :
    (∀ (name : String) (u : Unit), validatePredictionCacheFileName name = .ok u →
      ∃ path, join platform root name.toList = some path ∧ path.Within root ∧
        ∀ (other : String) (v : Unit), validatePredictionCacheFileName other = .ok v →
          join platform root other.toList = some path → other = name) ∧
    ∀ (artifactId : ArtifactId) (uri : String) (u : Unit),
      validateRelativeArtifactUri artifactId uri = .ok u →
      ∃ path, join platform root uri.toList = some path ∧
        path.parts = root.parts ++ components platform uri.toList ∧
        (path.Within root ↔ components platform uri.toList ≠ []) ∧
        ∀ (otherId : ArtifactId) (other : String) (v : Unit),
          validateRelativeArtifactUri otherId other = .ok v →
          (join platform root other.toList = some path ↔
            components platform other.toList = components platform uri.toList) := by
  constructor
  · intro name u h
    obtain ⟨path, hjoin, hparts⟩ := join_fileName platform root h
    refine ⟨path, hjoin, (Resolved.within_iff hparts).mpr (List.cons_ne_nil _ _), ?_⟩
    intro other v hother heq
    obtain ⟨otherPath, hotherJoin, hotherParts⟩ := join_fileName platform root hother
    obtain rfl : otherPath = path := Option.some_inj.mp (hotherJoin.symm.trans heq)
    have hsame := List.append_cancel_left (hotherParts.symm.trans hparts)
    exact String.toList_inj.mp (List.singleton_inj.mp hsame)
  · intro artifactId uri u h
    obtain ⟨path, hjoin, hparts⟩ := join_uri platform root h
    refine ⟨path, hjoin, hparts, Resolved.within_iff hparts, ?_⟩
    intro otherId other v hother
    obtain ⟨otherPath, hotherJoin, hotherParts⟩ := join_uri platform root hother
    rw [← hjoin]
    exact join_eq_iff hotherJoin hotherParts hjoin hparts

/-- The root itself is accepted, and so are two spellings of one file. -/
theorem artifact_uri_not_contained :
    let root : Resolved := ⟨["store".toList], by decide⟩
    let artifactId : ArtifactId := ⟨"artifact:dot", by decide⟩
    validateRelativeArtifactUri artifactId "." = .ok () ∧
      join .posix root ".".toList = some root ∧
      validateRelativeArtifactUri artifactId "model.json" = .ok () ∧
      validateRelativeArtifactUri artifactId "./model.json" = .ok () ∧
      join .posix root "model.json".toList = join .posix root "./model.json".toList := by
  decide +kernel

theorem predictionCachePath_ok {name : String} {location : Option Resolved}
    (h : predictionCachePath platform root name = .ok location) :
    ∃ path, location = some path ∧ path.Within root := by
  simp only [predictionCachePath, bind_ok, pure_ok] at h
  obtain ⟨_, hname, rfl⟩ := h
  obtain ⟨path, hjoin, hparts⟩ := join_fileName platform root hname
  exact ⟨path, hjoin, (Resolved.within_iff hparts).mpr (List.cons_ne_nil _ _)⟩

/-- A portable artifact has its payload in the store. -/
theorem artifactPayloadPath_ok {artifact : ArtifactRef} {location : Option Resolved}
    (h : artifactPayloadPath fingerprinting platform root artifact = .ok location) :
    ∃ path, location = some path ∧ root.parts <+: path.parts := by
  simp only [artifactPayloadPath, ArtifactRef.validatePortable, bind_ok, need_ok, pure_ok] at h
  obtain ⟨_, ⟨_, -, uri, huri, hcheck⟩, rfl⟩ := h
  obtain ⟨path, hjoin, hparts⟩ := join_uri platform root hcheck
  exact ⟨path, by rw [huri]; exact hjoin, hparts ▸ List.prefix_append _ _⟩

end DagMl

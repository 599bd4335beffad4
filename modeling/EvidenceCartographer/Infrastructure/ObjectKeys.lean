import EvidenceCartographer.Application.Bronze

/-! The three object keys of a bundle, and which bundle a key belongs to.

    All bundle prefixes under one Bronze prefix have the same number of slashes, and the names of the
    three objects have none. So a key built under one bundle prefix lies under no other. -/

namespace EvidenceCartographer.Infrastructure

open Python Domain Application

structure BronzeObjectKeys where
  artifact : String
  evidenceManifest : String
  completionManifest : String
  deriving DecidableEq

/-- `text.strip("/")`. -/
def stripSlashes (text : String) : String :=
  .ofList (((text.toList.dropWhile (· == '/')).reverse.dropWhile (· == '/')).reverse)

/-- The segments of `text.split("/")`. -/
def segments (text : String) : List (List Char) := text.toList.splitOn '/'

/-- The guard of `build_bronze_object_keys` on the normalized prefix. -/
def safePrefix (normalized : String) : Bool :=
  normalized ≠ "" && (segments normalized).all (fun part => part ∉ [[], ['.'], ['.', '.']]) &&
    '\x5c' ∉ normalized.toList

/-- The bundle prefix under a normalized Bronze prefix, on a date. -/
def bundlePrefix (normalized : String) (artifact : BronzeArtifact) (retrieved : Date) : String :=
  normalized ++ "/" ++ artifact.source.value ++ "/year=" ++ zeroPad 4 retrieved.year ++ "/month=" ++
    zeroPad 2 retrieved.month ++ "/day=" ++ zeroPad 2 retrieved.day ++ "/run=" ++
    artifact.ingestionRunId.str

/-- The keys under a bundle prefix. -/
def bundleKeys (bundle extension : String) : BronzeObjectKeys where
  artifact := bundle ++ "/source." ++ extension
  evidenceManifest := bundle ++ "/records.manifest.jsonl"
  completionManifest := bundle ++ "/_SUCCESS.json"

/-- `build_bronze_object_keys`. -/
def buildBronzeObjectKeys (artifact : BronzeArtifact) (bronzePrefix : String) :
    Except Exc BronzeObjectKeys :=
  let normalized := stripSlashes bronzePrefix
  if safePrefix normalized then
    match artifact.retrievedAt.utcDate with
    | some retrieved => .ok (bundleKeys (bundlePrefix normalized artifact retrieved) artifact.extension)
    | none => .error (.other "OverflowError" "date value out of range")
  else .error (.valueError "ValueError" "bronze_prefix must contain safe non-empty path segments")

theorem buildBronzeObjectKeys_ok {artifact : BronzeArtifact} {bronzePrefix : String}
    {keys : BronzeObjectKeys} (h : buildBronzeObjectKeys artifact bronzePrefix = .ok keys) :
    ∃ retrieved, artifact.retrievedAt.utcDate = some retrieved ∧
      keys = bundleKeys (bundlePrefix (stripSlashes bronzePrefix) artifact retrieved)
        artifact.extension := by
  simp only [buildBronzeObjectKeys] at h
  split at h
  · split at h
    · rename_i retrieved hdate
      exact ⟨retrieved, hdate, (Except.ok.inj h).symm⟩
    · simp only [reduceCtorEq] at h
  · simp only [reduceCtorEq] at h

theorem buildBronzeObjectKeys_eq {artifact : BronzeArtifact} {bronzePrefix : String}
    {retrieved : Date} (hsafe : safePrefix (stripSlashes bronzePrefix) = true)
    (hdate : artifact.retrievedAt.utcDate = some retrieved) :
    buildBronzeObjectKeys artifact bronzePrefix =
      .ok (bundleKeys (bundlePrefix (stripSlashes bronzePrefix) artifact retrieved)
        artifact.extension) := by
  simp only [buildBronzeObjectKeys, hsafe, if_true, hdate]

/-- The keys depend on four fields of the artifact. -/
theorem buildBronzeObjectKeys_congr (artifact artifact' : BronzeArtifact)
    (hsource : artifact.source = artifact'.source)
    (hrun : artifact.ingestionRunId = artifact'.ingestionRunId)
    (hretrieved : artifact.retrievedAt = artifact'.retrievedAt)
    (hextension : artifact.extension = artifact'.extension) (bronzePrefix : String) :
    buildBronzeObjectKeys artifact bronzePrefix = buildBronzeObjectKeys artifact' bronzePrefix := by
  simp only [buildBronzeObjectKeys, bundlePrefix, hsource, hrun, hretrieved, hextension]

/-- The three keys of a bundle are distinct. -/
structure BronzeObjectKeys.Distinct (keys : BronzeObjectKeys) : Prop where
  artifact_evidence : keys.artifact ≠ keys.evidenceManifest
  artifact_marker : keys.artifact ≠ keys.completionManifest
  evidence_marker : keys.evidenceManifest ≠ keys.completionManifest

theorem bundleKeys_distinct (bundle extension : String) :
    (bundleKeys bundle extension).Distinct := by
  refine ⟨fun h => ?_, fun h => ?_, fun h => ?_⟩
  · have h := congrArg String.toList h
    simp only [bundleKeys, String.toList_append, List.append_assoc, List.append_cancel_left_eq] at h
    cases h
  · have h := congrArg String.toList h
    simp only [bundleKeys, String.toList_append, List.append_assoc, List.append_cancel_left_eq] at h
    cases h
  · have h := congrArg String.toList h
    simp only [bundleKeys, String.toList_append, List.append_cancel_left_eq] at h
    cases h

inductive KeyKind where | artifact | evidenceManifest | completionManifest
  deriving DecidableEq

def BronzeObjectKeys.get (keys : BronzeObjectKeys) : KeyKind → String
  | .artifact => keys.artifact
  | .evidenceManifest => keys.evidenceManifest
  | .completionManifest => keys.completionManifest

/-- The name of an object in its bundle. -/
def KeyKind.objectName (extension : String) : KeyKind → String
  | .artifact => "source." ++ extension
  | .evidenceManifest => "records.manifest.jsonl"
  | .completionManifest => "_SUCCESS.json"

theorem bundleKeys_get (bundle extension : String) (kind : KeyKind) :
    (bundleKeys bundle extension).get kind = bundle ++ "/" ++ kind.objectName extension := by
  have hartifact : "/source." = "/" ++ "source." := rfl
  have hevidence : "/records.manifest.jsonl" = "/" ++ "records.manifest.jsonl" := rfl
  have hmarker : "/_SUCCESS.json" = "/" ++ "_SUCCESS.json" := rfl
  cases kind
  · simp only [BronzeObjectKeys.get, bundleKeys, KeyKind.objectName, hartifact, String.append_assoc]
  · simp only [BronzeObjectKeys.get, bundleKeys, KeyKind.objectName, hevidence, String.append_assoc]
  · simp only [BronzeObjectKeys.get, bundleKeys, KeyKind.objectName, hmarker, String.append_assoc]

/-! ### The characters of the segments that are added to a Bronze prefix -/

def isNameChar (c : Char) : Bool := c.isAlphanum || c ∈ ['.', '_', '-', '=']

def Plain (text : String) : Prop := ∀ c ∈ text.toList, isNameChar c = true

instance (text : String) : Decidable (Plain text) :=
  decidable_of_iff (text.toList.all isNameChar = true) List.all_eq_true

theorem Plain.append {a b : String} (ha : Plain a) (hb : Plain b) : Plain (a ++ b) := by
  intro c hc
  rw [String.toList_append, List.mem_append] at hc
  rcases hc with hc | hc
  · exact ha c hc
  · exact hb c hc

theorem Plain.not_mem {text : String} {c : Char} (h : Plain text) (hc : isNameChar c = false) :
    c ∉ text.toList := by
  intro hmem
  rw [h c hmem] at hc
  cases hc

theorem zeroPad_plain (width n : Nat) : Plain (zeroPad width n) := by
  intro c hc
  rw [zeroPad, String.toList_ofList, List.mem_append] at hc
  rcases hc with hc | hc
  · rw [List.eq_of_mem_replicate hc]; decide
  · simp [isNameChar, Char.isAlphanum, Nat.isDigit_of_mem_toDigits (by decide) (by decide) hc]

theorem hex_plain (u : UUID) (i n : Nat) : ∀ c ∈ u.hex i n, isNameChar c = true := by
  intro c hc
  obtain ⟨j, -, rfl⟩ := List.mem_map.mp hc
  have hdigit : ∀ d < 16, isNameChar (Nat.digitChar d) = true := by decide
  exact hdigit _ (Nat.mod_lt _ (by decide))

theorem uuid_plain (u : UUID) : Plain u.str := by
  intro c hc
  simp only [UUID.str, String.toList_ofList, List.mem_append, List.mem_cons, List.append_assoc,
    List.cons_append] at hc
  rcases hc with hc | rfl | hc | rfl | hc | rfl | hc | rfl | hc
  all_goals first | exact hex_plain u _ _ c hc | decide

theorem source_plain (source : SourceName) : Plain source.value := by
  cases source <;> decide

theorem isNameChar_of_suffix {c : Char} (h : isSuffixChar c = true) : isNameChar c = true := by
  simp only [isSuffixChar, Bool.or_eq_true, Bool.and_eq_true, decide_eq_true_eq] at h
  rcases h with ⟨hlo, hhi⟩ | hdigit
  · have hlower : c.isLower = true :=
      Bool.and_eq_true_iff.mpr ⟨decide_eq_true hlo, decide_eq_true hhi⟩
    have halpha : c.isAlpha = (c.isUpper || c.isLower) := rfl
    simp [isNameChar, Char.isAlphanum, halpha, hlower]
  · simp [isNameChar, Char.isAlphanum, hdigit]

theorem matchExtension_plain {cs : List Char} {needChar : Bool}
    (h : matchExtension needChar cs = true) : ∀ c ∈ cs, isNameChar c = true := by
  induction cs generalizing needChar with
  | nil => simp
  | cons c cs ih =>
    rw [matchExtension] at h
    intro x hx
    rcases List.mem_cons.mp hx with rfl | hx
    · split at h
      · rename_i hsuffix
        exact isNameChar_of_suffix hsuffix
      · simp only [Bool.and_eq_true, Bool.or_eq_true, beq_iff_eq] at h
        rcases h.1.2 with (rfl | rfl) | rfl <;> decide
    · split at h
      · exact ih h x hx
      · simp only [Bool.and_eq_true] at h
        exact ih h.2 x hx

theorem objectName_plain {extension : String} (hsafe : safeExtension extension = true)
    (kind : KeyKind) : Plain (kind.objectName extension) := by
  cases kind
  · have hname : Plain "source." := by decide
    simp only [safeExtension, Bool.and_eq_true] at hsafe
    exact hname.append (matchExtension_plain hsafe.2)
  · rw [KeyKind.objectName]; decide
  · rw [KeyKind.objectName]; decide

def slashes (text : String) : Nat := text.toList.count '/'

theorem slashes_append (a b : String) : slashes (a ++ b) = slashes a + slashes b := by
  simp [slashes, String.toList_append, List.count_append]

theorem Plain.slashes {text : String} (h : Plain text) : slashes text = 0 :=
  List.count_eq_zero.mpr (h.not_mem (by decide))

/-- Five slashes more than the Bronze prefix. -/
theorem bundlePrefix_slashes (normalized : String) (artifact : BronzeArtifact) (retrieved : Date) :
    slashes (bundlePrefix normalized artifact retrieved) = slashes normalized + 5 := by
  have hslash : slashes "/" = 1 := rfl
  have hyear : slashes "/year=" = 1 := rfl
  have hmonth : slashes "/month=" = 1 := rfl
  have hday : slashes "/day=" = 1 := rfl
  have hrun : slashes "/run=" = 1 := rfl
  simp only [bundlePrefix, slashes_append, (zeroPad_plain _ _).slashes, (uuid_plain _).slashes,
    (source_plain _).slashes, hslash, hyear, hmonth, hday, hrun]

/-- The key lies under the bundle prefix. -/
def InPrefix (bundle key : String) : Prop := (bundle ++ "/").toList <+: key.toList

/-- Of two prefixes with the same number of slashes only one can be that of a key. -/
theorem InPrefix.unique {bundle bundle' name : String} (hcount : slashes bundle = slashes bundle')
    (hname : slashes name = 0) (h : InPrefix bundle (bundle' ++ "/" ++ name)) : bundle = bundle' := by
  obtain ⟨rest, heq⟩ := h
  simp only [String.toList_append, List.append_assoc] at heq
  have hrest : rest.count '/' = 0 := by
    have := congrArg (List.count '/') heq
    simp only [List.count_append] at this
    simp only [slashes] at hcount hname
    omega
  have hslash : "/".toList = ['/'] := rfl
  simp only [hslash, List.singleton_append] at heq
  -- a slash after either prefix would lie in the rest or in the name
  rcases List.append_eq_append_iff.mp heq with ⟨mid, hmid, htail⟩ | ⟨mid, hmid, htail⟩
  · cases mid with
    | nil => rw [List.append_nil] at hmid; exact String.toList_inj.mp hmid.symm
    | cons c mid =>
      obtain ⟨-, rfl⟩ := List.cons.inj htail
      simp at hrest
  · cases mid with
    | nil => rw [List.append_nil] at hmid; exact String.toList_inj.mp hmid
    | cons c mid =>
      obtain ⟨-, htail⟩ := List.cons.inj htail
      rw [slashes, htail] at hname
      simp at hname

/-- An extension that `normalize_extension` lets through. -/
abbrev SafeExtension := { extension : String // safeExtension extension = true }

def csv : SafeExtension := ⟨"csv", safeExtension_csv⟩

def json : SafeExtension := ⟨"json", by decide⟩

/-- An artifact of the Met, of this run and with this extension. -/
def sampleArtifactOf (run : UUID) (extension : SafeExtension) : BronzeArtifact where
  source := .met
  ingestionRunId := run
  retrievedAt := sampleInstant
  sourceUrl := "https://museum.example/MetObjects.csv"
  mediaType := "text/csv"
  extension := extension
  contractVersion := "1.0.0"
  localPath := "MetObjects.csv"
  expectedSha256 := none
  mediaType_ne := by decide
  extension_safe := extension.property
  contractVersion_ne := by decide

def sampleArtifact (extension : SafeExtension) : BronzeArtifact := sampleArtifactOf sampleId extension

/-- The bundle prefix of the sample artifacts of a run. -/
def samplePrefixOf (run : UUID) : String := "bronze/met/year=2026/month=07/day=27/run=" ++ run.str

def samplePrefix : String := samplePrefixOf sampleId

def sampleKeysOf (run : UUID) (extension : SafeExtension) : BronzeObjectKeys :=
  bundleKeys (samplePrefixOf run) extension

def sampleKeys (extension : SafeExtension) : BronzeObjectKeys := sampleKeysOf sampleId extension

theorem sampleInstant_date : sampleInstant.utcDate = some ⟨2026, 7, 27⟩ := by decide

theorem sampleArtifactOf_keys (run : UUID) (extension : SafeExtension) :
    buildBronzeObjectKeys (sampleArtifactOf run extension) "bronze" =
      .ok (sampleKeysOf run extension) := by
  have hdirectory : stripSlashes "bronze" ++ "/" ++ SourceName.met.value ++ "/year=" ++
      zeroPad 4 2026 ++ "/month=" ++ zeroPad 2 7 ++ "/day=" ++ zeroPad 2 27 ++ "/run=" =
        "bronze/met/year=2026/month=07/day=27/run=" := by decide +kernel
  have hsample : bundlePrefix (stripSlashes "bronze") (sampleArtifactOf run extension)
      ⟨2026, 7, 27⟩ = samplePrefixOf run := congrArg (· ++ run.str) hdirectory
  have hsafePrefix : safePrefix (stripSlashes "bronze") = true := by decide +kernel
  rw [sampleKeysOf, ← hsample]
  exact buildBronzeObjectKeys_eq hsafePrefix sampleInstant_date

theorem sampleArtifact_keys (extension : SafeExtension) :
    buildBronzeObjectKeys (sampleArtifact extension) "bronze" = .ok (sampleKeys extension) :=
  sampleArtifactOf_keys sampleId extension

end EvidenceCartographer.Infrastructure

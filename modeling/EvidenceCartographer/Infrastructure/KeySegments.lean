import EvidenceCartographer.Domain.Rendering
import EvidenceCartographer.Infrastructure.ObjectKeys

/-! The segments of the object keys.

    `build_bronze_object_keys` adds five segments to those of the Bronze prefix, and an object name
    adds one. None of the six has a slash in it, so a key splits into exactly these: read from its end
    it gives back the kind of the object, the run, the date and the source, and what remains are
    the segments of the prefix, even where these look like a bundle prefix themselves. -/

namespace EvidenceCartographer.Infrastructure

open Python Domain Application

/-- A segment that a walk along a path neither skips nor resolves. -/
def SafeSegment (part : List Char) : Prop := part ≠ [] ∧ part ≠ ['.'] ∧ part ≠ ['.', '.']

instance (part : List Char) : Decidable (SafeSegment part) :=
  inferInstanceAs (Decidable (part ≠ [] ∧ part ≠ ['.'] ∧ part ≠ ['.', '.']))

/-- A path of safe segments that has no backslash. -/
structure SafePath (text : String) : Prop where
  segment : ∀ part ∈ segments text, SafeSegment part
  backslash : '\x5c' ∉ text.toList

/-- What `build_bronze_object_keys` requires of a Bronze prefix. -/
structure SafePrefix (bronzePrefix : String) : Prop where
  nonempty : stripSlashes bronzePrefix ≠ ""
  path : SafePath (stripSlashes bronzePrefix)

theorem safePrefix_iff (bronzePrefix : String) :
    safePrefix (stripSlashes bronzePrefix) = true ↔ SafePrefix bronzePrefix := by
  simp only [safePrefix, Bool.and_eq_true, decide_eq_true_eq, List.all_eq_true]
  constructor
  · rintro ⟨⟨hne, hparts⟩, hbackslash⟩
    refine ⟨hne, fun part hpart => ?_, hbackslash⟩
    simpa [SafeSegment] using hparts part hpart
  · rintro ⟨hne, hparts, hbackslash⟩
    refine ⟨⟨hne, fun part hpart => ?_⟩, hbackslash⟩
    simpa [SafeSegment] using hparts part hpart

/-! ### Splitting a key -/

theorem segments_append (a b : String) : segments (a ++ "/" ++ b) = segments a ++ segments b := by
  have hslash : "/".toList = ['/'] := rfl
  simp only [segments, String.toList_append, hslash, List.append_assoc, List.singleton_append]
  exact List.splitOn_append_cons_self _ _

theorem segments_plain {text : String} (h : Plain text) : segments text = [text.toList] :=
  List.splitOn_eq_singleton (h.not_mem (by decide))

theorem segments_injective {a b : String} (h : segments a = segments b) : a = b := by
  have hjoin := congrArg (List.intercalate ['/']) h
  rw [segments, segments, List.intercalate_splitOn, List.intercalate_splitOn] at hjoin
  exact String.toList_inj.mp hjoin

/-- The segments of a bundle under the Bronze prefix. -/
def bundleSegments (artifact : BronzeArtifact) (retrieved : Date) : List String :=
  [artifact.source.value, "year=" ++ zeroPad 4 retrieved.year, "month=" ++ zeroPad 2 retrieved.month,
    "day=" ++ zeroPad 2 retrieved.day, "run=" ++ artifact.ingestionRunId.str]

theorem bundleSegments_length (artifact : BronzeArtifact) (retrieved : Date) :
    (bundleSegments artifact retrieved).length = 5 := rfl

theorem bundleSegments_plain (artifact : BronzeArtifact) (retrieved : Date) :
    ∀ part ∈ bundleSegments artifact retrieved, Plain part := by
  have hyear : Plain "year=" := by decide
  have hmonth : Plain "month=" := by decide
  have hday : Plain "day=" := by decide
  have hrun : Plain "run=" := by decide
  simp only [bundleSegments, List.forall_mem_cons]
  exact ⟨source_plain _, hyear.append (zeroPad_plain _ _), hmonth.append (zeroPad_plain _ _),
    hday.append (zeroPad_plain _ _), hrun.append (uuid_plain _), nofun⟩

theorem bundleSegments_safe (artifact : BronzeArtifact) (retrieved : Date) :
    ∀ part ∈ bundleSegments artifact retrieved, SafeSegment part.toList := by
  have hsource : SafeSegment artifact.source.value.toList := by
    cases artifact.source <;> decide
  simp only [bundleSegments, List.forall_mem_cons]
  refine ⟨hsource, ?_, ?_, ?_, ?_, nofun⟩ <;> simp [SafeSegment, String.toList_append]

theorem bundlePrefix_segments (normalized : String) (artifact : BronzeArtifact) (retrieved : Date) :
    segments (bundlePrefix normalized artifact retrieved) =
      segments normalized ++ (bundleSegments artifact retrieved).map String.toList := by
  have hparts := bundleSegments_plain artifact retrieved
  simp only [bundleSegments, List.forall_mem_cons] at hparts
  obtain ⟨hsource, hyear, hmonth, hday, hrun, -⟩ := hparts
  have heq : bundlePrefix normalized artifact retrieved =
      normalized ++ "/" ++ artifact.source.value ++ "/" ++ ("year=" ++ zeroPad 4 retrieved.year) ++
        "/" ++ ("month=" ++ zeroPad 2 retrieved.month) ++ "/" ++
        ("day=" ++ zeroPad 2 retrieved.day) ++ "/" ++ ("run=" ++ artifact.ingestionRunId.str) := by
    have hyear : "/year=" = "/" ++ "year=" := rfl
    have hmonth : "/month=" = "/" ++ "month=" := rfl
    have hday : "/day=" = "/" ++ "day=" := rfl
    have hrun : "/run=" = "/" ++ "run=" := rfl
    simp only [bundlePrefix, hyear, hmonth, hday, hrun, String.append_assoc]
  rw [heq, segments_append, segments_append, segments_append, segments_append, segments_append,
    segments_plain hsource, segments_plain hyear, segments_plain hmonth, segments_plain hday,
    segments_plain hrun]
  simp [bundleSegments]

/-- The segments of a key, the object name last. -/
theorem key_segments {normalized : String} {artifact : BronzeArtifact} {retrieved : Date}
    (kind : KeyKind) :
    segments ((bundleKeys (bundlePrefix normalized artifact retrieved) artifact.extension).get kind) =
      segments normalized ++ (bundleSegments artifact retrieved).map String.toList ++
        [(kind.objectName artifact.extension).toList] := by
  rw [bundleKeys_get, segments_append, bundlePrefix_segments,
    segments_plain (objectName_plain artifact.extension_safe kind)]

/-! ### Safe keys -/

theorem objectName_safe (extension : String) (kind : KeyKind) :
    SafeSegment (kind.objectName extension).toList := by
  cases kind <;> simp [KeyKind.objectName, SafeSegment, String.toList_append]

/-- A safe Bronze prefix gives safe keys. -/
theorem key_safe {normalized : String} (h : SafePath normalized) (artifact : BronzeArtifact)
    (retrieved : Date) (kind : KeyKind) :
    SafePath ((bundleKeys (bundlePrefix normalized artifact retrieved) artifact.extension).get kind) := by
  constructor
  · rw [key_segments]
    intro part hpart
    rcases List.mem_append.mp hpart with hpart | hpart
    · rcases List.mem_append.mp hpart with hpart | hpart
      · exact h.segment part hpart
      · obtain ⟨text, htext, rfl⟩ := List.mem_map.mp hpart
        exact bundleSegments_safe artifact retrieved text htext
    · rw [List.mem_singleton.mp hpart]
      exact objectName_safe artifact.extension kind
  · have hchar : isNameChar '\x5c' = false := by decide
    have hname := (objectName_plain artifact.extension_safe kind).not_mem hchar
    have hsource := (source_plain artifact.source).not_mem hchar
    have hrun := (uuid_plain artifact.ingestionRunId).not_mem hchar
    have hpad := fun width n => (zeroPad_plain width n).not_mem hchar
    rw [bundleKeys_get]
    simp [bundlePrefix, String.toList_append, h.backslash, hname, hsource, hrun, hpad]

/-! ### Equal keys -/

theorem KeyKind.objectName_injective {kind kind' : KeyKind} {extension extension' : String}
    (h : kind.objectName extension = kind'.objectName extension') :
    kind = kind' ∧ (kind = .artifact → extension = extension') := by
  have hlist := congrArg String.toList h
  cases kind <;> cases kind' <;> simp [objectName, String.toList_append] at hlist ⊢
  exact String.toList_inj.mp hlist

theorem append_injective_left {name a b : String} (h : name ++ a = name ++ b) : a = b := by
  have hlist := congrArg String.toList h
  rw [String.toList_append, String.toList_append, List.append_cancel_left_eq] at hlist
  exact String.toList_inj.mp hlist

theorem bundleSegments_injective {artifact artifact' : BronzeArtifact} {retrieved retrieved' : Date}
    (h : bundleSegments artifact retrieved = bundleSegments artifact' retrieved') :
    artifact.source = artifact'.source ∧ retrieved = retrieved' ∧
      artifact.ingestionRunId = artifact'.ingestionRunId := by
  simp only [bundleSegments, List.cons.injEq, and_true] at h
  obtain ⟨hsource, hyear, hmonth, hday, hrun⟩ := h
  refine ⟨SourceName.value_injective hsource, ?_, UUID.str_injective (append_injective_left hrun)⟩
  obtain ⟨year, month, day⟩ := retrieved
  obtain ⟨year', month', day'⟩ := retrieved'
  rw [Date.mk.injEq]
  exact ⟨zeroPad_injective (append_injective_left hyear),
    zeroPad_injective (append_injective_left hmonth), zeroPad_injective (append_injective_left hday)⟩

/-- Read from the end, a key gives back all that it was built from. -/
theorem key_injective {normalized normalized' : String} {artifact artifact' : BronzeArtifact}
    {retrieved retrieved' : Date} {kind kind' : KeyKind}
    (h : (bundleKeys (bundlePrefix normalized artifact retrieved) artifact.extension).get kind =
      (bundleKeys (bundlePrefix normalized' artifact' retrieved') artifact'.extension).get kind') :
    normalized = normalized' ∧ bundleSegments artifact retrieved = bundleSegments artifact' retrieved' ∧
      kind.objectName artifact.extension = kind'.objectName artifact'.extension := by
  have hsegments := congrArg segments h
  rw [key_segments, key_segments] at hsegments
  obtain ⟨hbundle, hname⟩ := List.append_inj' hsegments rfl
  obtain ⟨hnormal, hbundle⟩ := List.append_inj' hbundle
    (by rw [List.length_map, List.length_map, bundleSegments_length, bundleSegments_length])
  refine ⟨segments_injective hnormal, ?_, String.toList_inj.mp (List.singleton_inj.mp hname)⟩
  exact List.map_injective_iff.mpr (fun a b h => String.toList_inj.mp h) hbundle

/-! ### The key builder -/

/-- A key tells which kind of object it is for. -/
theorem buildBronzeObjectKeys_kind {artifact artifact' : BronzeArtifact}
    {bronzePrefix bronzePrefix' : String} {keys keys' : BronzeObjectKeys} {kind kind' : KeyKind}
    (hkeys : buildBronzeObjectKeys artifact bronzePrefix = .ok keys)
    (hkeys' : buildBronzeObjectKeys artifact' bronzePrefix' = .ok keys')
    (h : keys.get kind = keys'.get kind') : kind = kind' := by
  obtain ⟨retrieved, -, rfl⟩ := buildBronzeObjectKeys_ok hkeys
  obtain ⟨retrieved', -, rfl⟩ := buildBronzeObjectKeys_ok hkeys'
  exact (KeyKind.objectName_injective (key_injective h).2.2).1

/-- The two artifacts are stored in one bundle, under the two prefixes. -/
structure SameBundle (bronzePrefix bronzePrefix' : String) (artifact artifact' : BronzeArtifact) :
    Prop where
  normalized : stripSlashes bronzePrefix = stripSlashes bronzePrefix'
  source : artifact.source = artifact'.source
  utcDate : artifact.retrievedAt.utcDate = artifact'.retrievedAt.utcDate
  run : artifact.ingestionRunId = artifact'.ingestionRunId

/-- The keys of a bundle are safe paths and differ. -/
structure BronzeObjectKeys.Safe (keys : BronzeObjectKeys) : Prop where
  path : ∀ kind, SafePath (keys.get kind)
  distinct : keys.Distinct

/-- `build_bronze_object_keys` accepts exactly the safe prefixes, its keys are safe and depend on the
    instant only through its UTC date, and no key of one bundle is a key of another, or of another
    kind. -/
theorem buildBronzeObjectKeys_injective (artifact artifact' : BronzeArtifact)
    (bronzePrefix bronzePrefix' : String) (hdate : artifact.retrievedAt.utcDate ≠ none) :
    ((∃ keys, buildBronzeObjectKeys artifact bronzePrefix = .ok keys) ↔ SafePrefix bronzePrefix) ∧
    (∀ keys, buildBronzeObjectKeys artifact bronzePrefix = .ok keys → keys.Safe) ∧
    (∀ instant : AwareDatetime, instant.utcDate = artifact.retrievedAt.utcDate →
      buildBronzeObjectKeys { artifact with retrievedAt := instant } bronzePrefix =
        buildBronzeObjectKeys artifact bronzePrefix) ∧
    (∀ keys keys' kind kind', buildBronzeObjectKeys artifact bronzePrefix = .ok keys →
      buildBronzeObjectKeys artifact' bronzePrefix' = .ok keys' → keys.get kind = keys'.get kind' →
        SameBundle bronzePrefix bronzePrefix' artifact artifact' ∧ kind = kind' ∧
          (kind = .artifact → artifact.extension = artifact'.extension)) := by
  obtain ⟨retrieved, hretrieved⟩ := Option.ne_none_iff_exists'.mp hdate
  have hsafe : ∀ keys, buildBronzeObjectKeys artifact bronzePrefix = .ok keys →
      SafePrefix bronzePrefix := by
    intro keys hkeys
    rw [buildBronzeObjectKeys] at hkeys
    split at hkeys
    · rename_i hsafe
      exact (safePrefix_iff bronzePrefix).mp hsafe
    · cases hkeys
  refine ⟨⟨?_, ?_⟩, ?_, ?_, ?_⟩
  · rintro ⟨keys, hkeys⟩
    exact hsafe keys hkeys
  · intro hnormal
    exact ⟨_, buildBronzeObjectKeys_eq ((safePrefix_iff bronzePrefix).mpr hnormal) hretrieved⟩
  · intro keys hkeys
    have hpath := (hsafe keys hkeys).path
    obtain ⟨retrieved, -, rfl⟩ := buildBronzeObjectKeys_ok hkeys
    exact ⟨key_safe hpath artifact retrieved, bundleKeys_distinct _ _⟩
  · intro instant hinstant
    simp only [buildBronzeObjectKeys, hinstant, bundlePrefix]
  · intro keys keys' kind kind' hkeys hkeys' heq
    obtain ⟨retrieved, hretrieved, rfl⟩ := buildBronzeObjectKeys_ok hkeys
    obtain ⟨retrieved', hretrieved', rfl⟩ := buildBronzeObjectKeys_ok hkeys'
    obtain ⟨hnormal, hbundle, hname⟩ := key_injective heq
    obtain ⟨hsource, rfl, hrun⟩ := bundleSegments_injective hbundle
    refine ⟨⟨hnormal, hsource, hretrieved.trans hretrieved'.symm, hrun⟩, ?_⟩
    exact KeyKind.objectName_injective hname

/-- The keys of two files of one run, that differ in their extension. -/
theorem buildBronzeObjectKeys_injective_sample : SafePrefix "bronze" ∧ (sampleKeys csv).Safe ∧
    ∀ kind kind', (sampleKeys csv).get kind = (sampleKeys json).get kind' →
      kind = kind' ∧ kind ≠ .artifact := by
  have hdate : (sampleArtifact csv).retrievedAt.utcDate ≠ none := by
    rw [show (sampleArtifact csv).retrievedAt.utcDate = _ from sampleInstant_date]
    exact Option.some_ne_none _
  obtain ⟨haccept, hsafe, -, hunique⟩ := buildBronzeObjectKeys_injective (sampleArtifact csv)
    (sampleArtifact json) "bronze" "bronze" hdate
  have hcsv := sampleArtifact_keys csv
  refine ⟨haccept.mp ⟨_, hcsv⟩, hsafe _ hcsv, fun kind kind' heq => ?_⟩
  obtain ⟨-, hkind, hextension⟩ := hunique _ _ kind kind' hcsv (sampleArtifact_keys json) heq
  refine ⟨hkind, fun hartifact => ?_⟩
  have hname : "csv" = "json" := hextension hartifact
  exact absurd hname (by decide)

end EvidenceCartographer.Infrastructure

import EvidenceCartographer.Infrastructure.OccupiedKeys

/-! Several `store_bundle` calls for one bundle prefix.

    A call that fails leaves its artifact object, and possibly its evidence object, under its prefix.
    A later call for the prefix has the same evidence and marker keys, but its artifact key depends on
    the extension. With the abandoned extension, or once the evidence object exists, it always meets
    an object at one of its keys and sends nothing; with another extension it may not notice. -/

namespace EvidenceCartographer.Infrastructure

open Python Domain Application Concurrency

namespace BundleCall

/-- The keys of the call lie under this bundle prefix. -/
def Under (call : BundleCall) (bundle : String) : Prop :=
  call.keys = .ok (bundleKeys bundle call.artifact.extension)

/-- Calls on one store. -/
structure OnStore (call : BundleCall) (bucketName bronzePrefix : String) : Prop where
  bucketName : call.bucketName = bucketName
  bronzePrefix : call.bronzePrefix = bronzePrefix

theorem exists_under {call : BundleCall} {keys : BronzeObjectKeys} (hkeys : call.keys = .ok keys) :
    ∃ bundle, keys = bundleKeys bundle call.artifact.extension ∧ call.Under bundle ∧
      slashes bundle = slashes (stripSlashes call.bronzePrefix) + 5 := by
  obtain ⟨retrieved, -, rfl⟩ := buildBronzeObjectKeys_ok hkeys
  exact ⟨_, rfl, hkeys, bundlePrefix_slashes _ _ _⟩

end BundleCall

/-- A key under a bundle prefix is the prefix, a slash, and a name without one. -/
theorem bundleKeys_split {bundle extension key : String} (hsafe : safeExtension extension = true)
    (hk : key ∈ (bundleKeys bundle extension).toList) :
    ∃ name, key = bundle ++ "/" ++ name ∧ slashes name = 0 := by
  have hname := fun kind => (objectName_plain hsafe kind).slashes
  simp only [BronzeObjectKeys.toList, List.mem_cons, List.not_mem_nil, or_false] at hk
  rcases hk with rfl | rfl | rfl
  · exact ⟨_, bundleKeys_get bundle extension .artifact, hname .artifact⟩
  · exact ⟨_, bundleKeys_get bundle extension .evidenceManifest, hname .evidenceManifest⟩
  · exact ⟨_, bundleKeys_get bundle extension .completionManifest, hname .completionManifest⟩

/-- The keys under a bundle prefix lie under it. -/
theorem inPrefix_of_mem {bundle key : String} (extension : String)
    (hk : key ∈ (bundleKeys bundle extension).toList) : InPrefix bundle key := by
  obtain ⟨kind, rfl⟩ := BronzeObjectKeys.exists_kind hk
  rw [bundleKeys_get]
  exact ⟨(kind.objectName extension).toList, String.toList_append.symm⟩

/-- The artifact keys for two extensions differ, and neither is a key of the other bundle. -/
theorem artifact_mem_bundleKeys {bundle extension extension' : String}
    (h : (bundleKeys bundle extension').artifact ∈ (bundleKeys bundle extension).toList) :
    extension' = extension := by
  have hd := bundleKeys_distinct bundle extension'
  simp only [BronzeObjectKeys.toList, List.mem_cons, List.not_mem_nil, or_false] at h
  rcases h with heq | heq | heq
  · have heq := congrArg String.toList heq
    simp only [bundleKeys, String.toList_append, List.append_cancel_left_eq] at heq
    exact String.toList_inj.mp heq
  · exact absurd heq hd.artifact_evidence
  · exact absurd heq hd.artifact_marker

theorem bundleKeys_inj {bundle bundle' extension extension' : String}
    (h : (bundleKeys bundle extension).completionManifest =
      (bundleKeys bundle' extension').completionManifest) : bundle = bundle' := by
  have h := congrArg String.toList h
  simp only [bundleKeys, String.toList_append, List.append_cancel_right_eq] at h
  exact String.toList_inj.mp h

/-- A call one of whose keys lies under the prefix of a call on the same store is for that prefix. -/
theorem BundleCall.Under.of_key {call call' : BundleCall} {bundle key : String}
    {keys : BronzeObjectKeys} (hbundle : call.Under bundle)
    (hprefixes : call'.bronzePrefix = call.bronzePrefix) (hkeys : call'.keys = .ok keys)
    (hk : key ∈ keys.toList) (hin : InPrefix bundle key) : call'.Under bundle := by
  obtain ⟨bundle₁, heq, -, hslashes⟩ := exists_under hbundle
  obtain rfl := bundleKeys_inj (congrArg BronzeObjectKeys.completionManifest heq)
  obtain ⟨bundle', rfl, hunder, hslashes'⟩ := exists_under hkeys
  obtain ⟨name, rfl, hname⟩ := bundleKeys_split call'.artifact.extension_safe hk
  rw [hprefixes, ← hslashes] at hslashes'
  rw [hin.unique hslashes'.symm hname]
  exact hunder

variable {ι : Type} {call : ι → BundleCall} {bucketName bronzePrefix bundle : String}
  {c c' : Config ι httpSignature (World ι) Exc BronzeBundleReceipt}

/-- Call `i` has created an object under the prefix. -/
def CreatedUnder (w : World ι) (i : ι) (bucketName bundle : String) : Prop :=
  ∃ key o n, InPrefix bundle key ∧ w.objects (bucketName, key) = some o ∧ o.creator = some (i, n)

/-- Call `i` has raised after creating an object under the prefix, and no marker is there. -/
structure Abandoned (c : Config ι httpSignature (World ι) Exc BronzeBundleReceipt) (i : ι)
    (bucketName bundle : String) : Prop where
  raised : ∃ e, c.procs i = .raise e
  created : CreatedUnder c.shared i bucketName bundle
  unmarked : c.shared.objects (bucketName, bundle ++ "/_SUCCESS.json") = none

/-- Call `j` has not started. -/
structure Waiting (call : ι → BundleCall)
    (c : Config ι httpSignature (World ι) Exc BronzeBundleReceipt) (j : ι) : Prop where
  proc : c.procs j = (call j).run
  size : c.shared.puts.size j = 0

/-- Call `j` would meet what call `i` left under the prefix: it has the same extension, or the
    evidence object is there. -/
def Meets (call : ι → BundleCall)
    (c : Config ι httpSignature (World ι) Exc BronzeBundleReceipt) (i j : ι)
    (bucketName bundle : String) : Prop :=
  (call j).artifact.extension = (call i).artifact.extension ∨
    c.shared.objects (bucketName, bundle ++ "/records.manifest.jsonl") ≠ none

section Runs

variable [DecidableEq ι] {srv : Server}
  {objects : ObjectKey → Option (Bytes × List (String × String))}

section Reached

variable
  (hr : (storeSystem srv).Reachable ⟨World.initial objects, fun i => (call i).run⟩ c)

include hr

/-- What a call creates lies at one of its keys. -/
theorem key_of_creator {j : ι} {n : Nat} {key : ObjectKey} {o : ObjectRecord ι}
    (ho : c.shared.objects key = some o) (hc : o.creator = some (j, n)) :
    ∃ keys, (call j).keys = .ok keys ∧ ∃ name ∈ keys.toList, key = (call j).objectKey name := by
  obtain ⟨p, hp, -, rfl⟩ := c.shared.created key o j n ho hc
  exact (orderly_of_reachable hr j n p hp).key

/-- What a call on the store creates under a prefix makes it a call for that prefix. -/
theorem under_of_creator (hstore : ∀ i, (call i).OnStore bucketName bronzePrefix) {i j : ι} {n : Nat}
    {key : String} {o : ObjectRecord ι} (hbundle : (call i).Under bundle)
    (hin : InPrefix bundle key) (ho : c.shared.objects (bucketName, key) = some o)
    (hc : o.creator = some (j, n)) : (call j).Under bundle ∧
      key ∈ (bundleKeys bundle (call j).artifact.extension).toList := by
  obtain ⟨keys, hkeys, name, hname, heq⟩ := key_of_creator hr ho hc
  obtain rfl : key = name := congrArg Prod.snd heq
  have hunder : (call j).Under bundle := hbundle.of_key
    ((hstore j).bronzePrefix.trans (hstore i).bronzePrefix.symm) hkeys hname hin
  obtain rfl := Except.ok.inj (hkeys.symm.trans hunder)
  exact ⟨hunder, hname⟩

/-- A call with a PUT that has taken effect has an object at its artifact key: the later blocks only
    begin once there is one. -/
theorem artifact_of_landed (hsucc : srv.SuccessOnlyToCreator) {j : ι} {m : Nat}
    (hl : c.shared.Landed j m) : ∃ keys, (call j).keys = .ok keys ∧
      c.shared.objects ((call j).objectKey keys.artifact) ≠ none := by
  obtain ⟨p, hp, hlanded⟩ := hl
  have htruth := truthfulTo_reachable hr j
  have occupied : ∀ {plan : ArtifactPlan (call j)}, c.shared.Secured j plan.create →
      c.shared.objects plan.create.key ≠ none := by
    intro plan hsec
    obtain ⟨o, ho, -⟩ := hsec.holds hsucc htruth
    rw [ho]
    exact Option.some_ne_none o
  obtain ⟨-, hstored⟩ := c.shared.stored j m p hp hlanded
  have hallowed := orderly_of_reachable hr j m p hp
  generalize p.request = request at hallowed hstored
  cases hallowed with
  | artifact plan _ => exact ⟨plan.keys, plan.keys_eq, ne_of_eq_of_ne hstored (Option.some_ne_none _)⟩
  | evidence plan _ hsec => exact ⟨plan.keys, plan.keys_eq, occupied hsec⟩
  | marker plan _ hsec _ => exact ⟨plan.keys, plan.keys_eq, occupied hsec⟩

/-- Without other writers, what no call created was there from the start. -/
theorem initial_of_no_creator (hother : srv.NoOtherWriter) :
    ∀ key o, c.shared.objects key = some o → o.creator = none → objects key ≠ none := by
  refine hr.shared (fun w => ∀ key o, w.objects key = some o → o.creator = none →
    objects key ≠ none) ?_ ?_ ?_
  · intro w w' hs hw key o ho hc
    cases hs with
    | land i n p hp hwhole habsent _ =>
      rcases World.put_cases ho with ⟨rfl, rfl⟩ | hold
      · cases hc
      · exact hw key o hold hc
    | refuse | observe => exact hw key o ho hc
    | foreign key' data metadata habsent hf => exact absurd hf (hother _ _ _)
  · intro i o r w w' hx hw
    cases hx <;> exact hw
  · intro key o ho _
    obtain ⟨x, hx, -⟩ := Option.map_eq_some_iff.mp ho
    simp [hx]

end Reached

/-- A call that has not started while one of its keys is occupied never creates anything. -/
theorem Waiting.creates_nothing {j : ι} (hw : Waiting call c j) {keys : BronzeObjectKeys}
    (hkeys : (call j).keys = .ok keys)
    (hocc : ∃ key ∈ keys.toList, c.shared.objects ((call j).objectKey key) ≠ none)
    (hr : (storeSystem srv).Reachable c c') {key : ObjectKey} {o : ObjectRecord ι} {n : Nat}
    (ho : c'.shared.objects key = some o) : o.creator ≠ some (j, n) := by
  intro hc
  have hguarded : (storeSystem srv).Guarded j (fun w => w.puts.size j = 0)
      (fun r w => w.puts.size j = 0 ∧ ∃ e, r = .error e ∧
        ((call j).Staged keys → Refused srv j (call j) keys.toList w e)) c' :=
    hr.started hw.proc (fun _ _ hrely h => hrely.putSize.trans h) hw.size
      (safe_storeBundle_occupied hkeys hw.size hocc)
  obtain ⟨p, hp, -, -⟩ := c'.shared.created key o j n ho hc
  have hlt := Log.lt_size hp
  rw [hguarded.inv] at hlt
  exact Nat.not_lt_zero n hlt

/-- What a failed call left is in the way of every later call that would meet it. -/
theorem Abandoned.occupied (hr : (storeSystem srv).Reachable
      ⟨World.initial objects, fun i => (call i).run⟩ c)
    (hstore : ∀ i, (call i).OnStore bucketName bronzePrefix) {i j : ι}
    (habandoned : Abandoned c i bucketName bundle) (hbundle : (call i).Under bundle)
    (hmeets : Meets call c i j bucketName bundle) :
    ∃ key ∈ (bundleKeys bundle (call j).artifact.extension).toList,
      c.shared.objects ((call j).objectKey key) ≠ none := by
  obtain ⟨key, o, n, hin, ho, hc⟩ := habandoned.created
  obtain ⟨-, hk⟩ := under_of_creator hr hstore hbundle hin ho hc
  have hbucket : ∀ key, (call j).objectKey key = (bucketName, key) := fun key => by
    rw [BundleCall.objectKey, (hstore j).bucketName]
  have hmem : ∀ {key}, key ∈ (bundleKeys bundle (call j).artifact.extension).toList →
      c.shared.objects (bucketName, key) ≠ none →
      ∃ key ∈ (bundleKeys bundle (call j).artifact.extension).toList,
        c.shared.objects ((call j).objectKey key) ≠ none :=
    fun hk ho => ⟨_, hk, by rw [hbucket]; exact ho⟩
  rcases hmeets with hext | hevidence
  · rw [← hext] at hk
    exact hmem hk (by simp [ho])
  · exact hmem (by simp [BronzeObjectKeys.toList, bundleKeys]) hevidence

/-- The prefix holds exactly the three objects of the call, each for its payload. -/
def HoldsExactly (w : World ι) (call : BundleCall) (bucketName bundle : String) : Prop :=
  ∃ plan : BundlePlan call, plan.keys = bundleKeys bundle call.artifact.extension ∧
    (∀ create ∈ [plan.create, plan.evidenceCreate, plan.markerCreate],
      w.Holds create.key create.length create.sha256) ∧
    ∀ key, InPrefix bundle key → w.objects (bucketName, key) ≠ none → key ∈ plan.keys.toList

/-- A call that created something under the prefix has put an object at its artifact key. -/
theorem CreatedUnder.artifact (hr : (storeSystem srv).Reachable
      ⟨World.initial objects, fun i => (call i).run⟩ c)
    (hstore : ∀ i, (call i).OnStore bucketName bronzePrefix) (hsucc : srv.SuccessOnlyToCreator)
    {i j : ι} (hbundle : (call i).Under bundle)
    (hcreated : CreatedUnder c.shared j bucketName bundle) :
    c.shared.objects (bucketName, (bundleKeys bundle (call j).artifact.extension).artifact) ≠ none := by
  obtain ⟨key, o, m, hin, ho, hc⟩ := hcreated
  obtain ⟨hunder, -⟩ := under_of_creator hr hstore hbundle hin ho hc
  obtain ⟨p, hp, hl, -⟩ := c.shared.created _ o j m ho hc
  obtain ⟨keys, hkeys, hne⟩ := artifact_of_landed hr hsucc ⟨p, hp, hl⟩
  obtain rfl := Except.ok.inj (hkeys.symm.trans hunder)
  rw [BundleCall.objectKey, (hstore j).bucketName] at hne
  exact hne

/-- An abandoned prefix stays without a marker of a later call while the later calls for it meet what
    is there, and one that finds its keys free can commit. A committed prefix holds exactly the
    objects of the call that committed it as long as the calls that created something there have its
    extension, and then only. -/
theorem abandoned_prefix_stays_uncommitted
    (hr : (storeSystem srv).Reachable ⟨World.initial objects, fun i => (call i).run⟩ c)
    (hstore : ∀ i, (call i).OnStore bucketName bronzePrefix) (hsucc : srv.SuccessOnlyToCreator)
    (hother : srv.NoOtherWriter) {i : ι} (hbundle : (call i).Under bundle)
    (hinit : ∀ key, InPrefix bundle key → objects (bucketName, key) = none) :
    (Abandoned c i bucketName bundle →
      (∀ j, Waiting call c j → (call j).Under bundle → Meets call c i j bucketName bundle) →
      ∀ j, Waiting call c j → ∀ c', (storeSystem srv).Reachable c c' → ∀ o n,
        c'.shared.objects (bucketName, bundle ++ "/_SUCCESS.json") = some o →
        o.creator ≠ some (j, n)) ∧
    (srv.answers 200 .landed true → ∀ j (plan : BundlePlan (call j)), Waiting call c j →
      (call j).Under bundle → plan.Ready →
      (∀ key ∈ plan.keys.toList, c.shared.objects ((call j).objectKey key) = none) →
      ∃ c' o n, (storeSystem srv).Reachable c c' ∧
        c'.shared.objects (bucketName, bundle ++ "/_SUCCESS.json") = some o ∧
        o.creator = some (j, n)) ∧
    (∀ o n, c.shared.objects (bucketName, bundle ++ "/_SUCCESS.json") = some o →
      o.creator = some (i, n) →
      (HoldsExactly c.shared (call i) bucketName bundle ↔
        ∀ j, CreatedUnder c.shared j bucketName bundle →
          (call j).artifact.extension = (call i).artifact.extension)) := by
  have hmarkerKey : ∀ {j}, (call j).objectKey (bundle ++ "/_SUCCESS.json") =
      (bucketName, bundle ++ "/_SUCCESS.json") := fun {j} => by
    rw [BundleCall.objectKey, (hstore j).bucketName]
  refine ⟨fun habandoned hmeets j hw c' hr' o n ho hc => ?_,
    fun hsrv j plan hw hunder hready hfree => ?_, fun o n ho hc => ⟨fun hexact j hcreated => ?_,
      fun hext => ?_⟩⟩
  · have hin : InPrefix bundle (bundle ++ "/_SUCCESS.json") :=
      inPrefix_of_mem "csv" (by simp [BronzeObjectKeys.toList, bundleKeys])
    obtain ⟨hunder, -⟩ := under_of_creator (hr.trans hr') hstore hbundle hin ho hc
    obtain hocc := habandoned.occupied hr hstore hbundle (hmeets j hw hunder)
    exact hw.creates_nothing hunder hocc hr' ho hc
  · -- nothing is in the way: the call runs alone
    obtain ⟨w', hrun, hl⟩ := runs_storeBundle_committed (i := j) hsrv hready hfree
    have hkeys : plan.keys = bundleKeys bundle (call j).artifact.extension :=
      plan.keys_unique hunder
    have hmarker := hl.marker
    rw [show plan.markerCreate.key = (call j).objectKey plan.keys.completionManifest from rfl, hkeys,
      show (bundleKeys bundle (call j).artifact.extension).completionManifest =
        bundle ++ "/_SUCCESS.json" from rfl, hmarkerKey] at hmarker
    exact ⟨_, _, _, hrun.reachable hw.proc .refl, hmarker, rfl⟩
  · obtain ⟨plan, hkeys, -, honly⟩ := hexact
    have hne := hcreated.artifact hr hstore hsucc hbundle
    have hmem := honly _ (inPrefix_of_mem (call j).artifact.extension
      ((bundleKeys bundle (call j).artifact.extension).get_mem .artifact)) hne
    rw [hkeys] at hmem
    exact artifact_mem_bundleKeys hmem
  · rw [← hmarkerKey (j := i)] at ho
    obtain ⟨plan, hkeys, rfl, hm, hsec₁, hsec₂⟩ := secured_of_marker hr hbundle ho hc
    have hmarker : plan.markerCreate.key = (call i).objectKey (bundle ++ "/_SUCCESS.json") := by
      show (call i).objectKey plan.keys.completionManifest = _
      rw [hkeys]; rfl
    have htruth := truthfulTo_reachable hr i
    refine ⟨plan, hkeys, fun create hcreate => ?_, fun key hin hne => ?_⟩
    · simp only [List.mem_cons, List.not_mem_nil, or_false] at hcreate
      rcases hcreate with rfl | rfl | rfl
      · exact hsec₁.holds hsucc htruth
      · exact hsec₂.holds hsucc htruth
      · exact ⟨_, hmarker ▸ ho, hm⟩
    obtain ⟨o', ho'⟩ := Option.ne_none_iff_exists'.mp hne
    cases hcreator : o'.creator with
    | none => exact absurd (hinit key hin) (initial_of_no_creator hr hother _ o' ho' hcreator)
    | some creator =>
      obtain ⟨j, m⟩ := creator
      obtain ⟨hunder, hmem⟩ := under_of_creator hr hstore hbundle hin ho' hcreator
      rw [hkeys, ← hext j ⟨key, o', m, hin, ho', hcreator⟩]
      exact hmem

end Runs

/-- Two sample calls for one prefix: the first has a CSV artifact and evidence whose iterator fails
    after its last row, the second has this extension and good evidence. -/
def sampleCalls (extension : SafeExtension) : Bool → BundleCall
  | false => sampleBundle csv (some sampleTimeout)
  | true => sampleBundle extension none

/-- The first call, alone, abandons the prefix. -/
theorem sample_abandoned (extension : SafeExtension) :
    ∃ w : World Bool, (storeSystem Server.strict).Reachable
      ⟨World.initial fun _ => none, fun i => (sampleCalls extension i).run⟩
      ⟨w, Function.update (fun i => (sampleCalls extension i).run) false
        (.raise (evidenceError sampleTimeout))⟩ ∧
      w.objects = World.put (fun _ => none) ("lake", (sampleKeys csv).artifact)
        ((samplePlan csv (some sampleTimeout)).create.request.record (false, 0)) ∧
      w.puts.size true = 0 := by
  have hspooled : (sampleBundle csv (some sampleTimeout)).spooled
      (samplePlan csv (some sampleTimeout)).keys = .error sampleTimeout :=
    spoolEvidence_raised _ rfl (sampleEvidence_coherent sampleId csv) (fun _ => rfl)
      (sampleEvidence_accepted sampleId)
  obtain ⟨w, hrun, hl⟩ := runs_storeBundle_abandons (i := false)
    (w := World.initial fun _ => none) Server.strict_grants (samplePlan csv (some sampleTimeout)) rfl
    ⟨rfl, rfl, rfl, by show (4 : Nat) ≤ _; decide⟩ rfl hspooled fun _ _ => rfl
  exact ⟨w, hrun.reachable rfl .refl, hl.objects, (hrun.rely (j := true) (by decide)).putSize⟩

theorem sample_onStore (extension : SafeExtension) (i : Bool) :
    (sampleCalls extension i).OnStore "lake" "bronze" := by
  cases i <;> exact ⟨rfl, rfl⟩

/-- Only the key of the CSV artifact is taken. -/
theorem sample_free {o : ObjectRecord Bool} {key : String}
    (hne : key ≠ (sampleKeys csv).artifact) :
    World.put (fun _ => none) ("lake", (sampleKeys csv).artifact) o ("lake", key) = none := by
  rw [World.put, Function.update_of_ne]
  exact fun h => hne (congrArg Prod.snd h)

theorem sample_is_abandoned {extension : SafeExtension} {w : World Bool}
    (hobjects : w.objects = World.put (fun _ => none) ("lake", (sampleKeys csv).artifact)
      ((samplePlan csv (some sampleTimeout)).create.request.record (false, 0))) :
    Abandoned ⟨w, Function.update (fun i => (sampleCalls extension i).run) false
      (.raise (evidenceError sampleTimeout))⟩ false "lake" samplePrefix where
  raised := ⟨evidenceError sampleTimeout, by simp⟩
  created := ⟨(sampleKeys csv).artifact,
    (samplePlan csv (some sampleTimeout)).create.request.record (false, 0), 0,
    inPrefix_of_mem csv (by simp [BronzeObjectKeys.toList, sampleKeys, sampleKeysOf,
      samplePrefix]), by simp [hobjects], rfl⟩
  unmarked := by
    simp only [hobjects]
    exact sample_free (by decide +kernel)

theorem abandoned_prefix_stays_uncommitted_sample :
    (∃ c : Config Bool httpSignature (World Bool) Exc BronzeBundleReceipt,
      (storeSystem Server.strict).Reachable
        ⟨World.initial fun _ => none, fun i => (sampleCalls csv i).run⟩ c ∧
      ∀ c', (storeSystem Server.strict).Reachable c c' → ∀ o n,
        c'.shared.objects ("lake", samplePrefix ++ "/_SUCCESS.json") = some o →
        o.creator ≠ some (true, n)) ∧
    ∃ c : Config Unit httpSignature (World Unit) Exc BronzeBundleReceipt,
      (storeSystem Server.strict).Reachable ⟨World.initial fun _ => none,
        fun _ => (sampleBundle csv none).run⟩ c ∧
      HoldsExactly c.shared (sampleBundle csv none) "lake" samplePrefix := by
  constructor
  · obtain ⟨w, hr, hobjects, hsize⟩ := sample_abandoned csv
    refine ⟨_, hr, ?_⟩
    refine (abandoned_prefix_stays_uncommitted hr (sample_onStore csv)
      Server.strict_successOnlyToCreator Server.strict_noOtherWriter (i := false)
      (sample_keys csv (some sampleTimeout)) fun _ _ => rfl).1 (sample_is_abandoned hobjects) ?_ true
      ⟨by simp, hsize⟩
    intro j _ _
    cases j <;> exact .inl rfl
  · obtain ⟨c, hr, -, hobj⟩ := sample_committed
    refine ⟨c, hr, ?_⟩
    exact ((abandoned_prefix_stays_uncommitted hr (fun _ => ⟨rfl, rfl⟩)
      Server.strict_successOnlyToCreator Server.strict_noOtherWriter (i := ())
      (sample_keys csv none) fun _ _ => rfl).2.2 _ 2 hobj rfl).mpr fun _ _ => rfl

/-- A later call with another extension can commit an abandoned prefix. -/
theorem abandoned_prefix_recommitted : ¬ ∀ (srv : Server) (call : Bool → BundleCall)
    (bucketName bronzePrefix bundle : String)
    (c c' : Config Bool httpSignature (World Bool) Exc BronzeBundleReceipt),
    srv.SuccessOnlyToCreator → srv.RejectionIsFinal → srv.PreconditionMeansOccupied →
    srv.AnswersStats → srv.NoOtherWriter → (∀ i, (call i).OnStore bucketName bronzePrefix) →
    (storeSystem srv).Reachable ⟨World.initial fun _ => none, fun i => (call i).run⟩ c →
    ∀ i, (call i).Under bundle → Abandoned c i bucketName bundle → ∀ j, Waiting call c j →
      (storeSystem srv).Reachable c c' → ∀ o n,
        c'.shared.objects (bucketName, bundle ++ "/_SUCCESS.json") = some o →
        o.creator ≠ some (j, n) := by
  intro h
  obtain ⟨w, hr, hobjects, hsize⟩ := sample_abandoned json
  have hready : (sampleBundlePlan json).Ready := sampleBundlePlan_ready (by decide)
  have hfree : ∀ key ∈ (sampleBundlePlan json).keys.toList,
      w.objects ((sampleBundle json none).objectKey key) = none := by
    have hne : ∀ key ∈ (sampleKeys json).toList, key ≠ (sampleKeys csv).artifact := by decide +kernel
    intro key hk
    rw [hobjects]
    exact sample_free (hne key hk)
  obtain ⟨w', hrun, hl⟩ := runs_storeBundle_committed (i := true) Server.strict_grants hready hfree
  have hwaiting : Waiting (sampleCalls json) ⟨w, Function.update
      (fun i => (sampleCalls json i).run) false (.raise (evidenceError sampleTimeout))⟩ true :=
    ⟨by simp, hsize⟩
  exact h .strict (sampleCalls json) "lake" "bronze" samplePrefix _ _
    Server.strict_successOnlyToCreator Server.strict_rejectionIsFinal
    Server.strict_preconditionMeansOccupied Server.strict_answersStats Server.strict_noOtherWriter
    (sample_onStore json) hr false (sample_keys csv _) (sample_is_abandoned hobjects) true hwaiting
    (hrun.reachable hwaiting.proc .refl) _ _ hl.marker rfl

end EvidenceCartographer.Infrastructure

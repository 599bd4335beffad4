import EvidenceCartographer.Orchestration.Met
import EvidenceCartographer.Sources.Met.Rows

/-! What is left to a run that has not begun.

    Concurrent runs do not lock the store and take nothing from each other: their keys are their own, and
    whatever some of them have done, or stopped doing, the others can still finish. `Course` is what a
    run would meet outside the store, and `Course.Clear` says that nothing of it is in the way. -/

namespace EvidenceCartographer.Orchestration

open Python Domain Application Infrastructure Concurrency Sources.Met

/-- What a run meets on its way: the response it downloads, its header, its clock, and the artifact and
    the keys that the models make of them. -/
structure Course (service : MetSnapshotIngestionService httpSignature) (inputs : RunInputs) where
  temporary : String
  response : StreamingHttpResponse
  retrievedAt : AwareDatetime
  preflight : MetCsvPreflightResult
  artifact : BronzeArtifact
  keys : BronzeObjectKeys
  observedAt : AwareDatetime
  nonempty : (chunksRead response.body).length ≠ 0
  preflight_eq : inspect inputs.header = .ok preflight
  artifact_eq : service.artifactOf inputs (service.downloader.snapshotOf temporary response
    (chunksRead response.body) retrievedAt nonempty) = .ok artifact
  keys_eq : buildBronzeObjectKeys artifact service.bronzeStore.bronzePrefix = .ok keys
  observedAt_eq : inputs.observedAt = .ok observedAt

/-- What a plan completes is made of what its call passes. -/
theorem completion_of_plan {call : BundleCall} (plan : BundlePlan call) :
    plan.completion = call.store.completion call.staging call.artifact call.evidence
      call.contractMessages plan.keys := by
  have hsnapshot := plan.snapshot_of.eq
  have hwritten := plan.written_of.eq
  have hobject : plan.object = call.store.artifactObject call.staging plan.keys := by
    rw [ArtifactPlan.object, hsnapshot]
    rfl
  have hevidence : plan.evidenceObject = call.store.evidenceObject call.evidence plan.keys := by
    rw [BundlePlan.evidenceObject, hwritten]
    rfl
  rw [BundlePlan.completion, hobject, hevidence, hwritten]
  rfl

namespace Course

variable {service : MetSnapshotIngestionService httpSignature} {inputs : RunInputs}
  (course : Course service inputs)

def bytes : Bytes := chunksRead course.response.body

def snapshot : DownloadedMetSnapshot :=
  service.downloader.snapshotOf course.temporary course.response course.bytes course.retrievedAt
    course.nonempty

def target : BronzeBundleTarget :=
  ⟨service.bronzeStore.uri course.keys.artifact, service.bronzeStore.uri course.keys.evidenceManifest,
    service.bronzeStore.uri course.keys.completionManifest⟩

/-- The call that the run makes, with the file read back as it was received. -/
def call : BundleCall :=
  bundleCall service inputs course.snapshot course.preflight course.artifact course.target
    course.observedAt ⟨true, course.response.body⟩

/-- Nothing is in the way: the response is a whole snapshot, the scan is read to its end, the spools
    take what they are given, and the three objects fit in one PUT each. -/
structure Clear : Prop where
  status : course.response.status = 200
  readToEnd : ReadToEnd course.response.body
  fits : course.bytes.length ≤ service.downloader.ceiling
  announced : ∃ expectedLength, contentLength (normalizedHeaders course.response.headers) =
    .ok expectedLength ∧ checkLength expectedLength course.bytes.length = .ok ()
  numbered : Numbered (service.scanOf inputs course.preflight).rows
  scanned : (service.scanOf inputs course.preflight).failure = none
  artifactSpool : inputs.artifactSpool = .none
  evidenceSpool : inputs.evidenceSpool = .none
  artifact : course.bytes.length ≤ maxSinglePutSizeBytes
  evidence : (course.call.evidence.items.flatMap evidenceLine).length ≤ maxSinglePutSizeBytes
  marker : (canonicalJson (course.call.store.completion course.call.staging course.artifact
    course.call.evidence course.preflight.contractMessages course.keys).modelDump).length ≤
      maxSinglePutSizeBytes

/-- What the run returns then. -/
structure Told (result : MetSnapshotIngestionResult) : Prop where
  reports : result.Reports course.snapshot
  receipt : result.receipt = course.call.store.receipt course.call.staging course.artifact
    course.call.evidence course.keys
  totalRecords : result.totalRecords = (service.scanOf inputs course.preflight).rows.length
  outcomeCounts : result.outcomeCounts = outcomeCount course.call.evidence.items

theorem artifact_fields : course.artifact.ingestionRunId = inputs.runId ∧
    course.artifact.expectedSha256 = some (sha256 course.bytes) := by
  have hartifact := course.artifact_eq
  unfold MetSnapshotIngestionService.artifactOf at hartifact
  split at hartifact
  · have hown := Except.ok.inj hartifact
    rw [← hown]
    exact ⟨rfl, rfl⟩
  · cases hartifact

theorem call_keys : course.call.keys = .ok course.keys := course.keys_eq

variable {course}

/-- The bundle of a clear course. -/
def Clear.plan (hclear : course.Clear) : BundlePlan course.call where
  keys := course.keys
  keys_eq := course.call_keys
  snapshot := .ofBytes course.bytes
  snapshot_eq := snapshotArtifact_complete hclear.readToEnd
    (fun _ => congrArg (SpoolFaults.write · _) hclear.artifactSpool) hclear.artifact
    fun _ h => Option.some.inj (course.artifact_fields.2.symm.trans h)
  written := .ofItems course.call.evidence.items
  written_eq := spoolEvidence_complete
    (iterEvidence_ending _ _ _ hclear.numbered hclear.scanned)
    (fun _ => evidenceOf_coherent course.artifact_eq)
    (fun _ => congrArg (SpoolFaults.write · _) hclear.evidenceSpool) hclear.evidence

theorem Clear.ready (hclear : course.Clear) : hclear.plan.Ready where
  isFile := rfl
  artifactSpool := congrArg SpoolFaults.create hclear.artifactSpool
  artifactRewind := congrArg SpoolFaults.rewind hclear.artifactSpool
  evidenceSpool := congrArg SpoolFaults.create hclear.evidenceSpool
  evidenceRewind := congrArg SpoolFaults.rewind hclear.evidenceSpool
  artifact := hclear.artifact
  evidence := BundlePlan.evidence_accepted rfl hclear.evidence
  marker := hclear.marker

/-- The generator of a clear course is exhausted, so every item is counted. -/
theorem Clear.counted (hclear : course.Clear) (hstore : OverMinio service) :
    countedEvidence (spoolLoop service.bronzeStore.ceiling course.artifact
      course.target.evidenceManifestUri inputs.evidenceSpool course.call.evidence).pulled =
        outcomeCount course.call.evidence.items ∧
      (ContractOutcome.members.map (outcomeCount course.call.evidence.items)).sum =
        (service.scanOf inputs course.preflight).rows.length := by
  have houtcomes : ∀ item ∈ course.call.evidence.items,
      item.provenance.outcome = item.result.outcome :=
    fun item hitem => (evidenceOf_coherent course.artifact_eq hitem).outcome
  have hrows := (iterEvidence_complete (iterEvidence_ending service.fromisoformat
    (service.contextOf inputs course.snapshot course.target course.observedAt) inputs.recordIds
    hclear.numbered hclear.scanned)).length_eq
  have hceiling : service.bronzeStore.ceiling = maxSinglePutSizeBytes := congrArg (·.ceiling) hstore
  have hpulled := pulled_of_spooled hclear.plan.written_eq
  refine ⟨?_, (outcomeCount_sum houtcomes).trans hrows.symm⟩
  rw [hceiling]
  exact (congrArg countedEvidence hpulled).trans (countedEvidence_eq houtcomes)

end Course

section Runs

variable {ι : Type} [DecidableEq ι] {srv : Server} {i : ι}

/-- A run that meets no obstacle before its call returns what the call makes of it. -/
theorem Course.runs {service : MetSnapshotIngestionService httpSignature} {inputs : RunInputs}
    {course : Course service inputs} (hclear : course.Clear) (hstore : OverMinio service)
    (dirs : ι → MetDirectory) {w w' : World ι}
    (hrun : (storeSystem srv).Runs i course.call.run w (.ok hclear.plan.receipt) w') :
    ∃ result, course.Told result ∧ ((machineSystem ι).prod (storeSystem srv)).Runs i
      (service.run inputs) (dirs, w) (.ok result) (Function.update dirs i ⟨none, none⟩, w') := by
  obtain ⟨expectedLength, hexpected, hlength⟩ := hclear.announced
  obtain ⟨hcounted, htotal⟩ := hclear.counted hstore
  have hdownload : workingMachine.Runs () (service.downloader.download course.temporary)
      (fun _ => ⟨none, none⟩) (.ok course.snapshot) (fun _ => ⟨none, some course.bytes⟩) :=
    runs_download course.retrievedAt hclear.status hclear.readToEnd hclear.fits course.nonempty
      hexpected hlength
  have hfile : ReadsAs ⟨true, course.response.body⟩ (some course.bytes) := fun _ _ => rfl
  obtain ⟨p, hreach, hrest⟩ := reaches_run (canWork_machine i) (storeSystem srv) course.temporary
    dirs w hdownload course.preflight_eq course.artifact_eq
    (service.bronzeStore.targetFor_eq course.keys_eq) course.observedAt_eq hfile
  have hbundle : (storeSystem srv).Runs i (service.bronzeStore.storeBundle
      ⟨⟨true, course.response.body⟩, inputs.artifactSpool, inputs.evidenceSpool⟩ course.artifact
      (service.evidenceOf inputs course.preflight
        (service.contextOf inputs course.snapshot course.target course.observedAt))
      course.preflight.contractMessages) w (.ok hclear.plan.receipt) w' := by
    rw [hstore.storeBundle_eq]
    exact hrun
  obtain ⟨r, -, hok, hends⟩ := hrest (Function.update dirs i ⟨none, some course.bytes⟩) w _ w'
    (Function.update_self ..) hbundle
  obtain ⟨result, rfl, hreceipt, hreports, hcounts, hsum⟩ := hok _ rfl
  have houtcomes : result.outcomeCounts = outcomeCount course.call.evidence.items :=
    hcounts.trans hcounted
  refine ⟨result, ⟨hreports, hreceipt, ?_, houtcomes⟩, ?_⟩
  · rw [hsum, houtcomes]
    exact htotal
  · have hwhole := hreach.runs hends
    rwa [Function.update_idem] at hwhole

section Reached

variable {service : ι → MetSnapshotIngestionService httpSignature} {inputs : ι → RunInputs}
  {dirs : ι → MetDirectory} {objects : ObjectKey → Option (Bytes × List (String × String))}
  {c : Config ι (machineSignature.sum httpSignature) ((ι → MetDirectory) × World ι) Exc
    MetSnapshotIngestionResult}

/-- Run `i` has not begun. -/
structure Unbegun (service : ι → MetSnapshotIngestionService httpSignature) (inputs : ι → RunInputs)
    (c : Config ι (machineSignature.sum httpSignature) ((ι → MetDirectory) × World ι) Exc
      MetSnapshotIngestionResult) (i : ι) : Prop where
  proc : c.procs i = (service i).run (inputs i)
  size : c.shared.2.puts.size i = 0

variable (hr : ((machineSystem ι).prod (storeSystem srv)).Reachable
    ⟨(dirs, World.initial objects), fun i => (service i).run (inputs i)⟩ c)
  (hstore : ∀ i, OverMinio (service i)) (hother : srv.NoOtherWriter)

include hr hstore hother

/-- No other run creates an object under the keys of one that has not begun. -/
theorem free_of_unbegun (hsize : c.shared.2.puts.size i = 0)
    (hown : ∀ j, (inputs j).runId = (inputs i).runId → j = i) (course : Course (service i) (inputs i))
    {key : String} (hkey : key ∈ course.keys.toList)
    (hstart : objects ((service i).bronzeStore.bucketName, key) = none) :
    c.shared.2.objects ((service i).bronzeStore.bucketName, key) = none := by
  obtain ⟨log, htraced⟩ := hr.traced Log.empty
  obtain ⟨call, seen, hseen, hreached⟩ := runs_seen htraced hstore
  cases ho : c.shared.2.objects ((service i).bronzeStore.bucketName, key) with
  | none => rfl
  | some o =>
    cases hc : o.creator with
    | none => exact absurd hstart (initial_of_no_creator hreached hother _ o ho hc)
    | some creator =>
      obtain ⟨j, n⟩ := creator
      obtain ⟨keys, hkeys, name, hname, heq⟩ := key_of_creator hreached ho hc
      obtain rfl : key = name := congrArg Prod.snd heq
      obtain ⟨_, _, hcall⟩ := hseen.callFor hkeys
      obtain ⟨-, -, hrun, -⟩ := hcall.fields
      have hsame : (call j).artifact.ingestionRunId = course.artifact.ingestionRunId :=
        run_of_key hkeys course.call_keys hname hkey
      have hij : j = i := hown j (by rw [← hrun, hsame, course.artifact_fields.1])
      obtain ⟨p, hp, -⟩ := c.shared.2.created _ o j n ho hc
      have hlt := Log.lt_size hp
      rw [hij, hsize] at hlt
      omega

/-- The step: one run that has not begun finishes while the others stand still. -/
theorem finishes_one (hsrv : srv.answers 200 .landed true) (hunbegun : Unbegun service inputs c i)
    (hown : ∀ j, (inputs j).runId = (inputs i).runId → j = i)
    {course : Course (service i) (inputs i)} (hclear : course.Clear)
    (hstart : ∀ key ∈ course.keys.toList, objects ((service i).bronzeStore.bucketName, key) = none) :
    ∃ c' result, ((machineSystem ι).prod (storeSystem srv)).Reachable c c' ∧
      c'.procs i = .ret result ∧ course.Told result ∧ ∀ j, j ≠ i → c'.procs j = c.procs j ∧
        c'.shared.1 j = c.shared.1 j ∧ c'.shared.2.puts.size j = c.shared.2.puts.size j := by
  obtain ⟨w', hstored, -⟩ := runs_storeBundle_committed (i := i) hsrv hclear.ready
    fun key hkey => free_of_unbegun hr hstore hother hunbegun.size hown course hkey (hstart key hkey)
  obtain ⟨result, htold, hrun⟩ := Course.runs hclear (hstore i) c.shared.1 hstored
  refine ⟨_, result, hrun.reachable hunbegun.proc .refl, Function.update_self .., htold, ?_⟩
  intro j hij
  obtain ⟨hdir, hquiet⟩ := hrun.rely hij
  exact ⟨Function.update_of_ne hij .., hdir, hquiet.putSize⟩

/-- Whatever concurrent runs have done, those that have not begun can all still finish, one after the
    other, while the rest stand still. -/
theorem metRuns_complete (hsrv : srv.answers 200 .landed true)
    (pending : List ((i : ι) × Course (service i) (inputs i)))
    (hdistinct : (pending.map Sigma.fst).Nodup)
    (hunbegun : ∀ entry ∈ pending, Unbegun service inputs c entry.1)
    (hown : ∀ entry ∈ pending, ∀ j, (inputs j).runId = (inputs entry.1).runId → j = entry.1)
    (hclear : ∀ entry ∈ pending, entry.2.Clear)
    (hstart : ∀ entry ∈ pending, ∀ key ∈ entry.2.keys.toList,
      objects ((service entry.1).bronzeStore.bucketName, key) = none) :
    ∃ c', ((machineSystem ι).prod (storeSystem srv)).Reachable c c' ∧
      (∀ entry ∈ pending, ∃ result, c'.procs entry.1 = .ret result ∧ entry.2.Told result) ∧
      ∀ j, j ∉ pending.map Sigma.fst → c'.procs j = c.procs j ∧ c'.shared.1 j = c.shared.1 j := by
  induction pending generalizing c with
  | nil => exact ⟨c, .refl, by simp, fun j _ => ⟨rfl, rfl⟩⟩
  | cons entry pending ih =>
    simp only [List.forall_mem_cons, List.map_cons, List.nodup_cons] at hdistinct hunbegun hown ⊢
    simp only [List.forall_mem_cons] at hclear hstart
    obtain ⟨c₁, result, hr₁, hret, htold, hstill⟩ := finishes_one hr hstore hother hsrv hunbegun.1
      hown.1 hclear.1 hstart.1
    have hne : ∀ other ∈ pending, other.1 ≠ entry.1 := by
      intro other hmem heq
      exact hdistinct.1 (heq ▸ List.mem_map_of_mem hmem)
    have hunbegun₁ : ∀ other ∈ pending, Unbegun service inputs c₁ other.1 := by
      intro other hmem
      obtain ⟨hproc, -, hsize⟩ := hstill other.1 (hne other hmem)
      exact ⟨hproc.trans (hunbegun.2 other hmem).proc, hsize.trans (hunbegun.2 other hmem).size⟩
    obtain ⟨c', hr', hrets, hstill'⟩ := ih (hr.trans hr₁) hdistinct.2 hunbegun₁ hown.2 hclear.2 hstart.2
    refine ⟨c', hr₁.trans hr', ⟨⟨result, ?_, htold⟩, hrets⟩, fun j hj => ?_⟩
    · rw [(hstill' entry.1 hdistinct.1).1]
      exact hret
    · obtain ⟨hhead, htail⟩ := not_or.mp (List.mem_cons.not.mp hj)
      obtain ⟨hproc, hdir, -⟩ := hstill j hhead
      obtain ⟨hproc', hdir'⟩ := hstill' j htail
      exact ⟨hproc'.trans hproc, hdir'.trans hdir⟩

end Reached

end Runs

section Sample

/-- What is received in a sample run makes up its file. -/
theorem sample_received (order : Bool) :
    chunksRead (sampleResponse (sampleCsvChunks order)).body = sampleCsv order :=
  (sampleMet_read sampleId order).1

theorem sample_received_ne (order : Bool) :
    (chunksRead (sampleResponse (sampleCsvChunks order)).body).length ≠ 0 := by
  have hlength := (sampleCsv_length order).1
  rw [sample_received]
  omega

theorem sample_snapshotOf (order : Bool) :
    sampleDownloader.snapshotOf "/tmp/met" (sampleResponse (sampleCsvChunks order))
      (chunksRead (sampleResponse (sampleCsvChunks order)).body) sampleInstant
      (sample_received_ne order) = sampleSnapshot order := by
  have hcongr {bytes bytes' : Bytes} (h : bytes = bytes') (hne : bytes.length ≠ 0)
      (hne' : bytes'.length ≠ 0) :
      sampleDownloader.snapshotOf "/tmp/met" (sampleResponse (sampleCsvChunks order)) bytes
        sampleInstant hne = sampleDownloaded bytes' hne' := by
    subst h
    rfl
  exact hcongr (sample_received order) _ _

/-- The course of a sample run. -/
def sampleCourse (run : UUID) (order : Bool) : Course sampleService (sampleInputs run order) where
  temporary := "/tmp/met"
  response := sampleResponse (sampleCsvChunks order)
  retrievedAt := sampleInstant
  preflight := samplePreflight
  artifact := sampleMetArtifact run order
  keys := sampleKeysOf run csv
  observedAt := sampleInstant
  nonempty := sample_received_ne order
  preflight_eq := sample_preflight run order
  artifact_eq := (congrArg _ (sample_snapshotOf order)).trans (sample_artifact run order)
  keys_eq := sampleMet_keys run order
  observedAt_eq := rfl

theorem sampleCourse_call (run : UUID) (order : Bool) :
    (sampleCourse run order).call = sampleMetBundle run order := by
  have hsnapshot : (sampleCourse run order).snapshot = sampleSnapshot order := sample_snapshotOf order
  rw [Course.call, hsnapshot]
  rfl

theorem sampleCourse_clear (run : UUID) (order : Bool) : (sampleCourse run order).Clear where
  status := rfl
  readToEnd := (sampleMet_read run order).2
  fits := (congrArg List.length (sample_received order)).trans_le (sampleCsv_fits order)
  announced := ⟨none, rfl, rfl⟩
  numbered := sampleScan_numbered order
  scanned := rfl
  artifactSpool := rfl
  evidenceSpool := rfl
  artifact := (congrArg List.length (sample_received order)).trans_le (sampleCsv_fits order)
  evidence := by
    rw [sampleCourse_call]
    exact sampleMet_accepted run order
  marker := by
    have hmarker : (canonicalJson (sampleMetPlan run order).completion.modelDump).length ≤
      maxSinglePutSizeBytes := (sampleMetPlan_ready run order).marker
    rw [completion_of_plan] at hmarker
    rw [sampleCourse_call]
    exact hmarker

/-- The ids of three sample runs. -/
def sampleCrowd (i : Fin 3) : UUID := .ofNat i

/-- The first of three sample runs has finished before the other two begin; they finish too, one after
    the other, and what the first has stored and returned stays. -/
theorem metRuns_complete_sample : ∃ (c c' : Config (Fin 3) (machineSignature.sum httpSignature)
      ((Fin 3 → MetDirectory) × World (Fin 3)) Exc MetSnapshotIngestionResult)
      (result : Fin 3 → MetSnapshotIngestionResult),
    ((machineSystem (Fin 3)).prod (storeSystem Server.strict)).Reachable
      ⟨(fun _ => ⟨none, none⟩, World.initial fun _ => none),
        fun i => sampleService.run (sampleInputs (sampleCrowd i) true)⟩ c ∧
    ((machineSystem (Fin 3)).prod (storeSystem Server.strict)).Reachable c c' ∧
    c.procs 0 = .ret (result 0) ∧
    (∀ i, i ≠ 0 →
      Unbegun (fun _ => sampleService) (fun i => sampleInputs (sampleCrowd i) true) c i) ∧
    ∀ i, c'.procs i = .ret (result i) ∧ (result i).totalRecords = 4 := by
  let start : Config (Fin 3) (machineSignature.sum httpSignature)
      ((Fin 3 → MetDirectory) × World (Fin 3)) Exc MetSnapshotIngestionResult :=
    ⟨(fun _ => ⟨none, none⟩, World.initial fun _ => none),
      fun i => sampleService.run (sampleInputs (sampleCrowd i) true)⟩
  have hstore : ∀ i : Fin 3, OverMinio sampleService := fun _ => rfl
  have hown : ∀ i j, sampleCrowd j = sampleCrowd i → j = i := by decide
  have hbegun : ∀ i, Unbegun (fun _ => sampleService)
    (fun i => sampleInputs (sampleCrowd i) true) start i := fun _ => ⟨rfl, rfl⟩
  obtain ⟨c, first, hr, hfirst, htold, hstill⟩ := finishes_one
    (.refl : ((machineSystem (Fin 3)).prod (storeSystem Server.strict)).Reachable start start)
    hstore Server.strict_noOtherWriter Server.strict_grants (hbegun 0) (hown 0)
    (sampleCourse_clear (sampleCrowd 0) true) fun _ _ => rfl
  have hunbegun : ∀ i, i ≠ 0 → Unbegun (fun _ => sampleService)
      (fun i => sampleInputs (sampleCrowd i) true) c i := fun i hi =>
    ⟨(hstill i hi).1, (hstill i hi).2.2⟩
  let pending : List ((i : Fin 3) × Course sampleService (sampleInputs (sampleCrowd i) true)) :=
    [⟨1, sampleCourse (sampleCrowd 1) true⟩, ⟨2, sampleCourse (sampleCrowd 2) true⟩]
  obtain ⟨c', hr', hrets, hkept⟩ := metRuns_complete hr hstore Server.strict_noOtherWriter
    Server.strict_grants pending (by decide)
    (List.forall_mem_cons.mpr ⟨hunbegun 1 (by decide),
      List.forall_mem_singleton.mpr (hunbegun 2 (by decide))⟩)
    (fun entry _ => hown entry.1)
    (List.forall_mem_cons.mpr ⟨sampleCourse_clear _ true,
      List.forall_mem_singleton.mpr (sampleCourse_clear _ true)⟩)
    fun _ _ _ _ => rfl
  have hfour : ∀ {run : UUID} {result : MetSnapshotIngestionResult},
      (sampleCourse run true).Told result → result.totalRecords = 4 := fun h => h.totalRecords
  obtain ⟨second, hsecond, htold₂⟩ := hrets _ List.mem_cons_self
  obtain ⟨third, hthird, htold₃⟩ := hrets _ (List.mem_cons_of_mem _ List.mem_cons_self)
  refine ⟨c, c', fun | 0 => first | 1 => second | 2 => third, hr, hr', hfirst, hunbegun, fun i => ?_⟩
  match i with
  | 0 => exact ⟨(hkept 0 (by decide)).1.trans hfirst, hfour htold⟩
  | 1 => exact ⟨hsecond, hfour htold₂⟩
  | 2 => exact ⟨hthird, hfour htold₃⟩

end Sample

end EvidenceCartographer.Orchestration

import EvidenceCartographer.Concurrency.Projection
import EvidenceCartographer.Infrastructure.CompletionMarker
import EvidenceCartographer.Sources.Met.Service

/-! The Met flow: its service, put together from the settings, and any number of its runs at once.

    Seen from the store, the runs are concurrent `store_bundle` calls: a run leads to one call, decided
    by what was downloaded, and does nothing to the store before or after it. So whatever holds of
    concurrent calls holds of concurrent runs, each of which may be anywhere between its download and
    the removal of its directory. -/

namespace EvidenceCartographer.Orchestration

open Python Domain Application Infrastructure Concurrency Sources.Met

structure ObjectStoreSettings where
  bronzeBucket : String := "bronze"

structure LakeSettings where
  bronzePrefix : String := "raw"

structure ContractVersionSettings where
  metVersion : String := "1.0.0"

structure SourceEndpoints where
  metSnapshotUrl : String :=
    "https://github.com/metmuseum/openaccess/raw/refs/heads/master/MetObjects.csv"
  metCsvBatchSize : Nat := 50000
  metCsvBatchSize_pos : 0 < metCsvBatchSize

/-- The settings that the flow reads. -/
structure Settings where
  objectStore : ObjectStoreSettings := {}
  lake : LakeSettings := {}
  contracts : ContractVersionSettings := {}
  sources : SourceEndpoints

theorem metMuseumId_lt : 0xd3fe97c714b254a5a58bebed9307ae93 < 2 ^ 128 := by decide

def metMuseumId : UUID := ⟨0xd3fe97c714b254a5a58bebed9307ae93, metMuseumId_lt⟩

/-- The number of attempts that the flow gives its downloader. -/
def maxAttempts : Nat := 3

theorem maxAttempts_pos : 1 ≤ maxAttempts := by decide

/-- `build_met_snapshot_service`. -/
def buildMetSnapshotService (settings : Settings) (fromisoformat : String → Bool) :
    MetSnapshotIngestionService httpSignature where
  downloader := ⟨settings.sources.metSnapshotUrl, maxAttempts, maxSinglePutSizeBytes, maxAttempts_pos⟩
  bronzeStore := ⟨minioConditionalObjectClient maxSinglePutSizeBytes,
    settings.objectStore.bronzeBucket, settings.lake.bronzePrefix, maxSinglePutSizeBytes⟩
  museumId := metMuseumId
  contractVersion := settings.contracts.metVersion
  batchSize := settings.sources.metCsvBatchSize
  fromisoformat := fromisoformat
  batchSize_pos := settings.sources.metCsvBatchSize_pos

section Run

variable (service : MetSnapshotIngestionService httpSignature) (inputs : RunInputs)

/-- The store of the flow's services. -/
def OverMinio : Prop :=
  service.bronzeStore = ⟨minioConditionalObjectClient maxSinglePutSizeBytes,
    service.bronzeStore.bucketName, service.bronzeStore.bronzePrefix, maxSinglePutSizeBytes⟩

/-- The call of a run for what it downloaded. -/
def bundleCall (downloaded : DownloadedMetSnapshot) (preflight : MetCsvPreflightResult)
    (artifact : BronzeArtifact) (target : BronzeBundleTarget) (observedAt : AwareDatetime)
    (file : LocalFile) : BundleCall where
  bucketName := service.bronzeStore.bucketName
  bronzePrefix := service.bronzeStore.bronzePrefix
  staging := ⟨file, inputs.artifactSpool, inputs.evidenceSpool⟩
  artifact := artifact
  evidence := service.evidenceOf inputs preflight
    (service.contextOf inputs downloaded target observedAt)
  contractMessages := preflight.contractMessages

/-- The call of a run for this snapshot, once its header was accepted and it has opened the file. -/
inductive CallFor (downloaded : DownloadedMetSnapshot) (file : LocalFile) : BundleCall → Prop where
  | mk {preflight artifact target observedAt} :
      inspect inputs.header = .ok preflight →
      service.artifactOf inputs downloaded = .ok artifact →
      service.bronzeStore.targetFor artifact = .ok target →
      inputs.observedAt = .ok observedAt →
      CallFor downloaded file
        (bundleCall service inputs downloaded preflight artifact target observedAt file)

/-- What a run has done on its machine when it comes to this call: it has made its directory,
    downloaded the snapshot of the call into it, and opened the file. -/
inductive Stores {T : Signature}
    (onMachine : {α : Type} → Program machineSignature Exc α → Program T Exc α)
    (download : String → Program T Exc DownloadedMetSnapshot) : List T.Event → BundleCall → Prop where
  | mk {made downloading opened temporary downloaded file call} :
      (onMachine (.call .makeTemporary .ofExcept)).Trace made (.ok temporary) →
      (download temporary).Trace downloading (.ok downloaded) →
      (onMachine (.call .openTarget .ret)).Trace opened (.ok file) →
      CallFor service inputs downloaded file call →
      Stores onMachine download (made ++ downloading ++ opened) call

/-- The same at the client's interface. -/
abbrev ComesTo : MachineHistory → BundleCall → Prop :=
  Stores service inputs (fun p => p) service.downloader.download

/-- The result of a run, from its call and the receipt. -/
structure ResultOf (call : BundleCall) (result : MetSnapshotIngestionResult)
    (receipt : BronzeBundleReceipt) : Prop where
  receipt : result.receipt = receipt
  ingestionRunId : result.ingestionRunId = inputs.runId
  downloaded : ∃ downloaded, service.artifactOf inputs downloaded = .ok call.artifact ∧
    result.Reports downloaded
  outcomeCounts : ∀ keys, call.keys = .ok keys → result.outcomeCounts = countedEvidence (spoolLoop
    maxSinglePutSizeBytes call.artifact (call.store.uri keys.evidenceManifest)
    call.staging.evidenceSpool call.evidence).pulled
  totalRecords : result.totalRecords = (ContractOutcome.members.map result.outcomeCounts).sum
  contractMessages : result.contractMessages = call.contractMessages

variable {service inputs}

/-- The call that a run makes. -/
theorem OverMinio.storeBundle_eq (hstore : OverMinio service) (downloaded : DownloadedMetSnapshot)
    (preflight : MetCsvPreflightResult) (artifact : BronzeArtifact) (target : BronzeBundleTarget)
    (observedAt : AwareDatetime) (file : LocalFile) :
    service.bronzeStore.storeBundle ⟨file, inputs.artifactSpool, inputs.evidenceSpool⟩ artifact
      (service.evidenceOf inputs preflight (service.contextOf inputs downloaded target observedAt))
      preflight.contractMessages =
    (bundleCall service inputs downloaded preflight artifact target observedAt file).run := by
  rw [hstore]
  rfl

section Leads

variable {T : Signature}
  {onMachine : {α : Type} → Program machineSignature Exc α → Program T Exc α}
  {download : String → Program T Exc DownloadedMetSnapshot}

/-- From its snapshot on, a run makes one call and returns what the call returned. -/
theorem storing_leads (hstore : OverMinio service) {made downloading : List T.Event}
    {temporary : String} {downloaded : DownloadedMetSnapshot}
    (hmade : (onMachine (.call .makeTemporary .ofExcept)).Trace made (.ok temporary))
    (hdownload : (download temporary).Trace downloading (.ok downloaded)) :
    (service.storing inputs onMachine downloaded).Leads (Stores service inputs onMachine download)
      BundleCall.run (ResultOf service inputs) (made ++ downloading) := by
  refine .bind_ofExcept fun preflight hpreflight => .bind_ofExcept fun artifact hartifact => ?_
  generalize htarget : service.bronzeStore.targetFor artifact = targeted
  refine .bind_ofExcept fun target htargeted => .bind_ofExcept fun observedAt hobserved => ?_
  rw [htargeted] at htarget
  refine .bind_inl fun opened file hopened => ?_
  let call := bundleCall service inputs downloaded preflight artifact target observedAt file
  refine .follows call (List.prefix_refl _) (.mk hmade hdownload hopened
    (.mk hpreflight hartifact htarget hobserved)) ?_
  dsimp only
  rw [hstore.storeBundle_eq]
  refine .bind_inr fun receipt => ⟨receipt, rfl, rfl, rfl, ⟨downloaded, hartifact, rfl, rfl, rfl, rfl,
    rfl, rfl⟩, fun keys hkeys => ?_, rfl, rfl⟩
  have hceiling : service.bronzeStore.ceiling = maxSinglePutSizeBytes := congrArg (·.ceiling) hstore
  have huri : target.evidenceManifestUri = call.store.uri keys.evidenceManifest := by
    have htarget' : service.bronzeStore.targetFor artifact = .ok _ :=
      service.bronzeStore.targetFor_eq hkeys
    rw [htarget] at htarget'
    rw [Except.ok.inj htarget']
    rfl
  dsimp only
  rw [hceiling, huri]
  rfl

/-- A run does nothing to the store before its call, and returns what the call returned. -/
theorem runOn_leads (hstore : OverMinio service) :
    (service.runOn inputs onMachine download).Leads (Stores service inputs onMachine download)
      BundleCall.run (ResultOf service inputs) [] := by
  refine .bind_inl fun made temporary hmade => .ensuring (.bind_inl fun downloading downloaded
    hdownload => ?_) _
  exact storing_leads hstore hmade hdownload

end Leads

/-- The service of the flow is over the owned client. -/
theorem build_overMinio (settings : Settings) (fromisoformat : String → Bool) :
    OverMinio (buildMetSnapshotService settings fromisoformat) := rfl

/-- The artifacts of one run have the same keys, whatever was downloaded at this instant. -/
theorem keys_of_artifactOf {downloaded downloaded' : DownloadedMetSnapshot}
    {artifact artifact' : BronzeArtifact} (h : service.artifactOf inputs downloaded = .ok artifact)
    (h' : service.artifactOf inputs downloaded' = .ok artifact')
    (hretrieved : downloaded.retrievedAt = downloaded'.retrievedAt) (bronzePrefix : String) :
    buildBronzeObjectKeys artifact bronzePrefix = buildBronzeObjectKeys artifact' bronzePrefix := by
  unfold MetSnapshotIngestionService.artifactOf at h h'
  split at h
  · split at h'
    · cases h
      cases h'
      simp only [buildBronzeObjectKeys, bundlePrefix, hretrieved]
    · cases h'
  · cases h

section CallFor

variable {downloaded : DownloadedMetSnapshot} {file : LocalFile} {call : BundleCall}

/-- What the calls of a run have in common. -/
theorem CallFor.fields (h : CallFor service inputs downloaded file call) :
    call.bucketName = service.bronzeStore.bucketName ∧
      call.bronzePrefix = service.bronzeStore.bronzePrefix ∧
      call.artifact.ingestionRunId = inputs.runId ∧ call.artifact.extension = "csv" := by
  cases h with
  | mk _ hartifact =>
    unfold MetSnapshotIngestionService.artifactOf at hartifact
    split at hartifact
    · cases hartifact
      exact ⟨rfl, rfl, rfl, rfl⟩
    · cases hartifact

/-- The evidence of a run is coherent with its artifact. -/
theorem CallFor.coherent (h : CallFor service inputs downloaded file call) :
    ∀ item ∈ call.evidence.items, Coherent call.artifact item := by
  cases h with
  | mk _ hartifact => exact fun item hitem => evidenceOf_coherent hartifact hitem

end CallFor

/-- The counters of a run that returned are those of the manifest it committed. -/
theorem ResultOf.counts {call : BundleCall} {result : MetSnapshotIngestionResult}
    {receipt : BronzeBundleReceipt} (h : ResultOf service inputs call result receipt)
    {downloaded : DownloadedMetSnapshot} {file : LocalFile}
    (hcall : CallFor service inputs downloaded file call) (plan : BundlePlan call) :
    result.outcomeCounts = plan.completion.outcomeCounts ∧
      result.totalRecords = plan.completion.totalRecords := by
  have houtcomes : ∀ item ∈ call.evidence.items, item.provenance.outcome = item.result.outcome :=
    fun item hitem => (hcall.coherent item hitem).outcome
  have hcounts : result.outcomeCounts = outcomeCount call.evidence.items := by
    have hwritten : spoolEvidence maxSinglePutSizeBytes call.artifact
        (call.store.uri plan.keys.evidenceManifest) call.staging.evidenceSpool call.evidence =
        .ok plan.written := plan.written_eq
    rw [h.outcomeCounts plan.keys plan.keys_eq, pulled_of_spooled hwritten]
    exact countedEvidence_eq houtcomes
  refine ⟨hcounts.trans plan.written_of.counts.symm, ?_⟩
  rw [h.totalRecords, hcounts, outcomeCount_sum houtcomes]
  exact plan.written_of.total.symm

end Run

/-- A call without keys, for a run that has not come to its own. -/
def noCall : BundleCall := { sampleBundle csv none with bronzePrefix := "" }

theorem noCall_keys (keys : BronzeObjectKeys) : noCall.keys ≠ .ok keys := by
  have hunsafe : safePrefix (stripSlashes noCall.bronzePrefix) = false := by decide +kernel
  intro h
  simp [BundleCall.keys, buildBronzeObjectKeys, hunsafe] at h

section Runs

variable {ι : Type} [DecidableEq ι] {service : ι → MetSnapshotIngestionService httpSignature}
  {inputs : ι → RunInputs} {srv : Server}
  {objects : ObjectKey → Option (Bytes × List (String × String))} {call : ι → BundleCall}
  {seen : ι → Program httpSignature Exc BronzeBundleReceipt}

section Seen

variable {T : Signature} {τ : Type}
  {onMachine : {α : Type} → Program machineSignature Exc α → Program T Exc α}
  {download : ι → String → Program T Exc DownloadedMetSnapshot}
  {c : System.ProductConfig ι T httpSignature τ (World ι) Exc MetSnapshotIngestionResult}

/-- How far each run has come with its call, seen from the store: it is at the call that it came to, or
    has made none. What the runs do on their machines is left open. -/
structure SeenAs {T : Signature} {τ : Type}
    (onMachine : {α : Type} → Program machineSignature Exc α → Program T Exc α)
    (download : ι → String → Program T Exc DownloadedMetSnapshot)
    (service : ι → MetSnapshotIngestionService httpSignature) (inputs : ι → RunInputs)
    (call : ι → BundleCall) (seen : ι → Program httpSignature Exc BronzeBundleReceipt)
    (c : System.ProductConfig ι T httpSignature τ (World ι) Exc MetSnapshotIngestionResult) :
    Prop where
  own : ∀ i, Program.Begins (Stores (service i) (inputs i) onMachine (download i)) (c.shared.2.of i)
    (call i) ∨ call i = noCall
  returned : ∀ i result, c.procs i = .ret result → Program.Begins
    (Stores (service i) (inputs i) onMachine (download i)) (c.shared.2.of i) (call i) ∧
    ∃ receipt, seen i = .ret receipt ∧ ResultOf (service i) (inputs i) (call i) result receipt

omit [DecidableEq ι] in
/-- A call with keys is the one that its run came to. -/
theorem SeenAs.begins (h : SeenAs onMachine download service inputs call seen c) {i : ι}
    {keys : BronzeObjectKeys} (hkeys : (call i).keys = .ok keys) :
    Program.Begins (Stores (service i) (inputs i) onMachine (download i)) (c.shared.2.of i)
      (call i) := by
  rcases h.own i with hbegins | hnone
  · exact hbegins
  · exact absurd (hnone ▸ hkeys) (noCall_keys keys)

omit [DecidableEq ι] in
theorem SeenAs.callFor (h : SeenAs onMachine download service inputs call seen c) {i : ι}
    {keys : BronzeObjectKeys} (hkeys : (call i).keys = .ok keys) :
    ∃ downloaded file, CallFor (service i) (inputs i) downloaded file (call i) := by
  obtain ⟨_, _, -, hstores⟩ := h.begins hkeys
  cases hstores with
  | mk _ _ _ hcall => exact ⟨_, _, hcall⟩

omit [DecidableEq ι] in
theorem SeenAs.extension (h : SeenAs onMachine download service inputs call seen c) :
    OneExtension call := by
  intro i j keys keys' hkeys hkeys' _
  obtain ⟨_, _, hcall⟩ := h.callFor hkeys
  obtain ⟨_, _, hcall'⟩ := h.callFor hkeys'
  exact hcall.fields.2.2.2.trans hcall'.fields.2.2.2.symm

omit [DecidableEq ι] in
/-- A run with an id of its own has a call with an id of its own. -/
theorem SeenAs.ownRun (h : SeenAs onMachine download service inputs call seen c)
    (hids : ∀ i j, (inputs i).runId = (inputs j).runId → i = j) {i : ι} {keys : BronzeObjectKeys}
    (hkeys : (call i).keys = .ok keys) : OwnRun call i := by
  intro j keys' hkeys' hsame
  obtain ⟨_, _, hcall⟩ := h.callFor hkeys
  obtain ⟨_, _, hcall'⟩ := h.callFor hkeys'
  exact hids j i (by rw [← hcall'.fields.2.2.1, hsame, hcall.fields.2.2.1])

omit [DecidableEq ι] in
/-- A run is told by its marker. -/
theorem SeenAs.run_of_marker (h : SeenAs onMachine download service inputs call seen c)
    (hids : ∀ i j, (inputs i).runId = (inputs j).runId → i = j) {i j : ι}
    {keys keys' : BronzeObjectKeys} (hkeys : (call i).keys = .ok keys)
    (hkeys' : (call j).keys = .ok keys')
    (hmarker : keys.completionManifest = keys'.completionManifest) : i = j := by
  obtain ⟨-, -, hsame⟩ := keys_of_completionManifest hkeys hkeys'
    (h.extension i j keys keys' hkeys hkeys' hmarker) hmarker
  exact h.ownRun hids hkeys' i keys hkeys hsame

/-- Seen from the store, runs are concurrent calls. -/
theorem seen_of_runs {sys : System ι T τ} {t : τ}
    (hr : (sys.prod (storeSystem srv)).traced.Reachable ⟨((t, World.initial objects), Log.empty),
      fun i => (service i).runOn (inputs i) onMachine (download i)⟩ c)
    (hstore : ∀ i, OverMinio (service i)) :
    ∃ call seen, SeenAs onMachine download service inputs call seen c ∧
      (storeSystem srv).Reachable ⟨World.initial objects, fun i => (call i).run⟩
        ⟨c.shared.1.2, seen⟩ := by
  obtain ⟨call, seen, hreached, hparties⟩ :=
    hr.project (fun i => runOn_leads (hstore i)) fun _ => noCall
  refine ⟨call, seen, ⟨fun i => ?_, fun i result hret => ?_⟩, hreached⟩
  · rcases hparties i with ⟨hbegins, -⟩ | ⟨hnone, -⟩
    · exact .inl hbegins
    · exact .inr hnone
  · rcases hparties i with ⟨hbegins, hfollows⟩ | ⟨-, -, hlive⟩
    · rw [hret] at hfollows
      exact ⟨hbegins, hfollows⟩
    · exact absurd hret (hlive result)

/-- A reader restores from the marker of a run that returned the objects of its own call. -/
theorem restored_of_returned (hseen : SeenAs onMachine download service inputs call seen c)
    (hreached : (storeSystem srv).Reachable ⟨World.initial objects, fun i => (call i).run⟩
      ⟨c.shared.1.2, seen⟩)
    (hids : ∀ i j, (inputs i).runId = (inputs j).runId → i = j) (hsucc : srv.SuccessOnlyToCreator)
    (hother : srv.NoOtherWriter) {i : ι} {result : MetSnapshotIngestionResult}
    (hret : c.procs i = .ret result) :
    ∃ (plan : BundlePlan (call i)) (artifact evidence : ObjectRecord ι),
      seen i = .ret plan.receipt ∧ ResultOf (service i) (inputs i) (call i) result plan.receipt ∧
      c.shared.1.2.restore plan.markerCreate.key =
        some (plan.completion.modelDump.canonical, artifact.data, evidence.data) ∧
      c.shared.1.2.objects plan.create.key = some artifact ∧
      c.shared.1.2.objects plan.evidenceCreate.key = some evidence ∧
      Describes plan.evidenceObject evidence.data ∧ Describes plan.object artifact.data := by
  obtain ⟨-, receipt, hreturned, hof⟩ := hseen.returned i result hret
  obtain ⟨plan, ⟨publisher, artifact, evidence, marker⟩, hreceipt, hbundle, hhonest, -⟩ :=
    receipt_published hreached hsucc hother hseen.extension hreturned
  obtain ⟨plan', hname, -, hrestore, ⟨o, hobject, hdata⟩, ⟨o', hobject', hdata'⟩, hartifact,
    hevidence⟩ := restore_published hreached hsucc hbundle hhonest
  obtain rfl : i = publisher :=
    hseen.run_of_marker hids plan.keys_eq plan'.keys_eq (congrArg Prod.snd hname)
  obtain rfl := plan.eq plan'
  obtain rfl : o.data = artifact := hdata
  obtain rfl : o'.data = evidence := hdata'
  subst hreceipt
  exact ⟨plan, o, o', hreturned, hof, hrestore, hobject, hobject', hevidence, hartifact⟩

end Seen

section Reached

variable {dirs : ι → MetDirectory}

/-- These are the calls of the runs: seen from the store the runs are these concurrent calls, and what
    a run has created lies under the keys of its call, to which it came with the machine history that
    its log begins with. -/
structure Accounts (srv : Server) (objects : ObjectKey → Option (Bytes × List (String × String)))
    (service : ι → MetSnapshotIngestionService httpSignature) (inputs : ι → RunInputs)
    (call : ι → BundleCall) (c : System.ProductConfig ι machineSignature httpSignature
      (ι → MetDirectory) (World ι) Exc MetSnapshotIngestionResult) : Prop where
  reached : ∃ seen, (storeSystem srv).Reachable ⟨World.initial objects, fun i => (call i).run⟩
    ⟨c.shared.1.2, seen⟩
  created : ∀ key o i n, c.shared.1.2.objects key = some o → o.creator = some (i, n) →
    Program.Begins (ComesTo (service i) (inputs i)) (c.shared.2.of i) (call i) ∧
    ∃ keys, (call i).keys = .ok keys ∧ ∃ name ∈ keys.toList, key = (call i).objectKey name

section Traced

variable {c : System.ProductConfig ι machineSignature httpSignature (ι → MetDirectory) (World ι) Exc
    MetSnapshotIngestionResult}

theorem SeenAs.accounts (hseen : SeenAs (fun p => p) (fun i => (service i).downloader.download)
      service inputs call seen c)
    (hreached : (storeSystem srv).Reachable ⟨World.initial objects, fun i => (call i).run⟩
      ⟨c.shared.1.2, seen⟩) : Accounts srv objects service inputs call c := by
  refine ⟨⟨seen, hreached⟩, fun key o i n ho hc => ?_⟩
  obtain ⟨keys, hkeys, hname⟩ := key_of_creator hreached ho hc
  exact ⟨hseen.begins hkeys, keys, hkeys, hname⟩

variable (hr : ((machineSystem ι).prod (storeSystem srv)).traced.Reachable
    ⟨((dirs, World.initial objects), Log.empty), fun i => (service i).run (inputs i)⟩ c)
  (hstore : ∀ i, OverMinio (service i))

include hr hstore

/-- Seen from the store, concurrent runs are concurrent calls. -/
theorem runs_seen : ∃ call seen,
    SeenAs (fun p => p) (fun i => (service i).downloader.download) service inputs call seen c ∧
    (storeSystem srv).Reachable ⟨World.initial objects, fun i => (call i).run⟩
      ⟨c.shared.1.2, seen⟩ :=
  seen_of_runs hr hstore

/-- Concurrent runs publish complete bundles only, each under a name of its own, and each for the
    snapshot that the run's own downloader returned and whose header was accepted. -/
theorem metRuns_publish (hsucc : srv.SuccessOnlyToCreator) (hforeign : srv.HonestWriters)
    (hinit : ∀ key data metadata, objects key = some (data, metadata) → HonestTag data metadata) :
    ∃ (call : ι → BundleCall) (entries : List (ObjectKey × PublishedBundle ι)),
      Accounts srv objects service inputs call c ∧
      Registry.History (Complete call) (fun _ => none) entries (c.shared.1.2.published call) ∧
      ∀ entry ∈ entries, Program.Begins (ComesTo (service entry.2.publisher)
        (inputs entry.2.publisher)) (c.shared.2.of entry.2.publisher) (call entry.2.publisher) := by
  obtain ⟨call, seen, hseen, hreached⟩ := runs_seen hr hstore
  obtain ⟨entries, hentries⟩ := published_history hreached hsucc hforeign hinit
  refine ⟨call, entries, hseen.accounts hreached, hentries, fun entry hentry => ?_⟩
  obtain ⟨plan, -⟩ := hentries.admissible entry hentry
  exact hseen.begins plan.keys_eq

/-- A run that returned has left its file in the store, as it was downloaded. -/
theorem artifact_of_returned {i : ι} {result : MetSnapshotIngestionResult}
    (hret : c.procs i = .ret result) : ∃ downloaded artifact keys bytes, result.Reports downloaded ∧
      (service i).artifactOf (inputs i) downloaded = .ok artifact ∧
      buildBronzeObjectKeys artifact (service i).bronzeStore.bronzePrefix = .ok keys ∧
      SecuredBytes i ((service i).bronzeStore.bucketName, keys.artifact) bytes c.shared.1.2 ∧
      result.sizeBytes = bytes.length ∧ result.sha256 = sha256 bytes := by
  have hkeeps : (service i).bronzeStore.client.Keeps (storeSystem srv) i (SecuredBytes i)
      (fun key w => w.AllSent i fun r => r.key ≠ key) := by
    rw [hstore i]
    exact minio_keeps srv i
  obtain ⟨downloaded, preflight, artifact, target, observedAt, keys, m, hreports, -, hartifact, -, -,
    hkeys, hagrees⟩ := agreement_of_returned hkeeps hr.untraced rfl hret
  obtain ⟨bytes, hbytes, hsize, hsha⟩ := hagrees.artifact_holds
  exact ⟨downloaded, artifact, keys, bytes, hreports, hartifact, hkeys, hbytes, hsize, hsha⟩

/-- The object under the artifact's key is the file that was downloaded. -/
theorem SeenAs.downloaded (hseen : SeenAs (fun p => p) (fun i => (service i).downloader.download)
      service inputs call seen c)
    (hreached : (storeSystem srv).Reachable ⟨World.initial objects, fun i => (call i).run⟩
      ⟨c.shared.1.2, seen⟩)
    (hsucc : srv.SuccessOnlyToCreator) (hother : srv.NoOtherWriter) {i : ι}
    {result : MetSnapshotIngestionResult} (hret : c.procs i = .ret result)
    (plan : BundlePlan (call i)) {o : ObjectRecord ι}
    (hobject : c.shared.1.2.objects plan.create.key = some o) :
    o.data.length = result.sizeBytes ∧ sha256 o.data = result.sha256 := by
  obtain ⟨-, receipt, hreturned, hof⟩ := hseen.returned i result hret
  obtain ⟨_, _, hcall⟩ := hseen.callFor plan.keys_eq
  obtain ⟨hbucket, hunder, -⟩ := hcall.fields
  obtain ⟨downloaded, artifact, keys, bytes, hreports, hartifact, hkeys, ⟨create, hkey, hrest, ⟨hwhole,
    htag⟩, hsecured⟩, hsize, hsha⟩ := artifact_of_returned hr hstore hret
  obtain ⟨downloaded', hown, hreports'⟩ := hof.downloaded
  have hsame := keys_of_artifactOf hown hartifact
    (hreports'.retrievedAt.symm.trans hreports.retrievedAt) (service i).bronzeStore.bronzePrefix
  have hplan : plan.keys = keys := plan.keys_unique (by rw [BundleCall.keys, hunder, hsame, hkeys])
  have hplanKey : create.key = (call i).objectKey (plan.keys.get .artifact) := by
    rw [hkey, BundleCall.objectKey, hbucket, hplan]
    rfl
  obtain ⟨o', ho', hlength, hdigest⟩ := described hreached hsucc plan
    (honestIn_of_returned hreached hother hreturned) hsecured .artifact hplanKey
  obtain rfl : o' = o := Option.some.inj (ho'.symm.trans (hplanKey ▸ hobject))
  refine ⟨?_, ?_⟩
  · rw [hlength, ← hwhole, hrest, hsize]
  · rw [hsha, ← hrest]
    exact Sha256Hex.ext' (hdigest.trans htag.symm)

end Traced

variable {c : Config ι (machineSignature.sum httpSignature) ((ι → MetDirectory) × World ι) Exc
    MetSnapshotIngestionResult}

/-- What a run that returned says is what a reader gets who starts from its marker and knows nothing
    but the bytes of the objects; and no two runs have one marker. -/
theorem metRuns_restore
    (hr : ((machineSystem ι).prod (storeSystem srv)).Reachable
      ⟨(dirs, World.initial objects), fun i => (service i).run (inputs i)⟩ c)
    (hstore : ∀ i, OverMinio (service i))
    (hids : ∀ i j, (inputs i).runId = (inputs j).runId → i = j)
    (hsucc : srv.SuccessOnlyToCreator) (hother : srv.NoOtherWriter) :
    ∀ i result, c.procs i = .ret result → ∃ (key : String) (m : BronzeCompletionManifest)
      (artifact evidence : Bytes),
      result.receipt.completionManifestUri = (service i).bronzeStore.uri key ∧
      c.shared.2.restore ((service i).bronzeStore.bucketName, key) =
        some (m.modelDump.canonical, artifact, evidence) ∧
      artifact.length = result.sizeBytes ∧ sha256 artifact = result.sha256 ∧
      Describes m.evidenceManifest evidence ∧ m.ingestionRunId = result.ingestionRunId ∧
      m.artifact = result.receipt.artifact ∧ m.evidenceManifest = result.receipt.evidenceManifest ∧
      m.totalRecords = result.totalRecords ∧ m.outcomeCounts = result.outcomeCounts ∧
      m.contractMessages = result.contractMessages ∧
      ∀ j result', c.procs j = .ret result' →
        (service j).bronzeStore.bucketName = (service i).bronzeStore.bucketName →
        result'.receipt.completionManifestUri = result.receipt.completionManifestUri → j = i := by
  obtain ⟨log, htraced⟩ := hr.traced Log.empty
  obtain ⟨call, seen, hseen, hreached⟩ := runs_seen htraced hstore
  intro i result hret
  obtain ⟨plan, o, o', -, hof, hrestore, hobject, -, hevidence, -⟩ :=
    restored_of_returned hseen hreached hids hsucc hother hret
  obtain ⟨_, _, hcall⟩ := hseen.callFor plan.keys_eq
  obtain ⟨hbucket, -, hrun, -⟩ := hcall.fields
  obtain ⟨hsize, hsha⟩ := hseen.downloaded htraced hstore hreached hsucc hother hret plan hobject
  obtain ⟨hcounts, htotal⟩ := hof.counts hcall plan
  have huri : result.receipt.completionManifestUri =
      (service i).bronzeStore.uri plan.keys.completionManifest := by
    rw [hof.receipt]
    show objectUri (call i).bucketName _ = objectUri _ _
    rw [hbucket]
  refine ⟨plan.keys.completionManifest, plan.completion, o.data, o'.data, huri, ?_, hsize, hsha,
    hevidence, ?_, ?_, ?_, htotal.symm, hcounts.symm, hof.contractMessages.symm, ?_⟩
  · rw [← hbucket]
    exact hrestore
  · rw [hof.ingestionRunId]
    exact hrun
  · rw [hof.receipt]
    rfl
  · rw [hof.receipt]
    rfl
  · intro j result' hret' hbuckets huris
    obtain ⟨-, receipt', hreturned', hof'⟩ := hseen.returned j result' hret'
    obtain ⟨plan', -, hreceipt', -⟩ :=
      receipt_published hreached hsucc hother hseen.extension hreturned'
    obtain ⟨_, _, hcall'⟩ := hseen.callFor plan'.keys_eq
    rw [huri, hof'.receipt, hreceipt'] at huris
    have hjoined : objectUri (call j).bucketName plan'.keys.completionManifest =
        objectUri (service i).bronzeStore.bucketName plan.keys.completionManifest := huris
    rw [hcall'.fields.1, hbuckets] at hjoined
    exact hseen.run_of_marker hids plan'.keys_eq plan.keys_eq (append_injective_left hjoined)

end Reached

end Runs

/-! ### Two sample runs -/

section Sample

variable {c : System.ProductConfig Bool machineSignature httpSignature (Bool → MetDirectory)
  (World Bool) Exc MetSnapshotIngestionResult} {call : Bool → BundleCall}

/-- A reader finds the bundle of each sample run under its marker. -/
theorem sample_published (h : Accounts Server.strict (fun _ => none) (fun _ => sampleService)
      (fun b => sampleInputs (sampleRun b) b) call c) (b : Bool)
    (hbundle : c.shared.1.2.HasBundle b 0 (sampleMetPlan (sampleRun b) b)) :
    Program.Begins (ComesTo sampleService (sampleInputs (sampleRun b) b)) (c.shared.2.of b) (call b) ∧
    c.shared.1.2.published call (sampleMetPlan (sampleRun b) b).markerCreate.key =
      some ⟨b, sampleCsv b, evidenceBytes (sampleMetBundle (sampleRun b) b).evidence.items,
        canonicalJson (sampleMetPlan (sampleRun b) b).completion.modelDump⟩ := by
  obtain ⟨hbegins, keys, hkeys, name, hname, hmarker⟩ := h.created _ _ b 2 hbundle.marker rfl
  obtain ⟨_, _, -, hstores⟩ := id hbegins
  obtain ⟨seen, hreached⟩ := h.reached
  cases hstores with
  | mk _ _ _ hcall =>
    obtain ⟨hbucket, -, -, hextension⟩ := hcall.fields
    have hkey : (sampleKeysOf (sampleRun b) csv).completionManifest = name :=
      congrArg Prod.snd hmarker
    obtain ⟨rfl, -, -⟩ := keys_of_completionManifest (sampleMet_keys (sampleRun b) b) hkeys
      hextension.symm (completionManifest_of_key (sampleMet_keys (sampleRun b) b) hkeys (hkey ▸ hname))
    have hobjectKey (name : String) : (call b).objectKey name = ("lake", name) :=
      congrArg (·, name) hbucket
    have hhonest : (call b).HonestIn c.shared.1.2 :=
      honestIn_of_writers hreached (fun _ _ _ h => h.elim) (by simp) b
    obtain ⟨artifact, evidence, hartifact, hevidence, hpublished, -⟩ := published_of_creator hreached
      Server.strict_successOnlyToCreator hkeys hhonest (hobjectKey _) hbundle.marker rfl
    rw [hobjectKey] at hartifact hevidence
    obtain rfl := Option.some.inj (hartifact.symm.trans hbundle.artifact)
    obtain rfl := Option.some.inj (hevidence.symm.trans hbundle.evidence)
    refine ⟨hbegins, hpublished.trans ?_⟩
    rw [(sampleMetPlan _ _).create_honest.record_data,
      (sampleMetPlan _ _).evidenceCreate_honest.record_data,
      (sampleMetPlan _ _).markerCreate_honest.record_data]
    rfl

/-- The bundles of both sample runs are in the history. -/
theorem metRuns_publish_sample : ∃ (c : System.ProductConfig Bool machineSignature httpSignature
      (Bool → MetDirectory) (World Bool) Exc MetSnapshotIngestionResult) (call : Bool → BundleCall)
      (entries : List (ObjectKey × PublishedBundle Bool)),
    ((machineSystem Bool).prod (storeSystem Server.strict)).traced.Reachable
      ⟨((fun _ => ⟨none, none⟩, World.initial fun _ => none), Log.empty),
        fun b => sampleService.run (sampleInputs (sampleRun b) b)⟩ c ∧
    Accounts Server.strict (fun _ => none) (fun _ => sampleService)
      (fun b => sampleInputs (sampleRun b) b) call c ∧
    Registry.History (Complete call) (fun _ => none) entries (c.shared.1.2.published call) ∧
    ∀ b, ((sampleMetPlan (sampleRun b) b).markerCreate.key, ⟨b, sampleCsv b,
        evidenceBytes (sampleMetBundle (sampleRun b) b).evidence.items,
        canonicalJson (sampleMetPlan (sampleRun b) b).completion.modelDump⟩) ∈ entries ∧
      Program.Begins (ComesTo sampleService (sampleInputs (sampleRun b) b)) (c.shared.2.of b)
        (call b) := by
  obtain ⟨c, result, hr, hret⟩ := sample_runs
  obtain ⟨log, htraced⟩ := hr.traced Log.empty
  obtain ⟨call, entries, haccounts, hentries, hbegins⟩ := metRuns_publish htraced (fun _ => rfl)
    Server.strict_successOnlyToCreator (fun _ _ _ h => h.elim) (by simp)
  refine ⟨_, call, entries, htraced, haccounts, hentries, fun b => ?_⟩
  obtain ⟨-, hpublished⟩ := sample_published haccounts b (hret b).2.2
  have hlisted := (hentries.eq_some_iff _ _).mp hpublished
  simp only [reduceCtorEq, false_or] at hlisted
  exact ⟨hlisted, hbegins _ hlisted⟩

/-- From the two markers a reader gets two files, and manifests that count the four rows of each. -/
theorem metRuns_restore_sample : ∃ (c : Config Bool (machineSignature.sum httpSignature)
      ((Bool → MetDirectory) × World Bool) Exc MetSnapshotIngestionResult)
      (result : Bool → MetSnapshotIngestionResult),
    ((machineSystem Bool).prod (storeSystem Server.strict)).Reachable
      ⟨(fun _ => ⟨none, none⟩, World.initial fun _ => none),
        fun b => sampleService.run (sampleInputs (sampleRun b) b)⟩ c ∧
    (result true).receipt.completionManifestUri ≠ (result false).receipt.completionManifestUri ∧
    ∀ b, c.procs b = .ret (result b) ∧ ∃ (key : String) (m : BronzeCompletionManifest)
      (artifact evidence : Bytes),
      (result b).receipt.completionManifestUri = sampleService.bronzeStore.uri key ∧
      c.shared.2.restore ("lake", key) = some (m.modelDump.canonical, artifact, evidence) ∧
      artifact.length = (result b).sizeBytes ∧ sha256 artifact = (result b).sha256 ∧
      m.totalRecords = 4 ∧ ContractOutcome.members.map m.outcomeCounts =
        if b then [1, 1, 1, 1] else [0, 2, 1, 1] := by
  obtain ⟨c, result, hr, hret⟩ := sample_runs
  have hrestore := metRuns_restore hr (fun _ => rfl) sampleRun_injective
    Server.strict_successOnlyToCreator Server.strict_noOtherWriter
  refine ⟨c, result, hr, fun hmarker => ?_, fun b => ⟨(hret b).1, ?_⟩⟩
  · obtain ⟨key, m, artifact, evidence, -, -, -, -, -, -, -, -, -, -, -, honly⟩ :=
      hrestore false _ (hret false).1
    exact absurd (honly true _ (hret true).1 rfl hmarker) (by decide)
  · obtain ⟨key, m, artifact, evidence, huri, hread, hsize, hsha, -, -, -, -, htotal, hcounts,
      -⟩ := hrestore b _ (hret b).1
    obtain ⟨hfour, houtcomes⟩ :=
      sample_counts (agreement_of_returned (minio_keeps Server.strict b) hr rfl (hret b).1)
    refine ⟨key, m, artifact, evidence, huri, hread, hsize, hsha, htotal.trans hfour, ?_⟩
    rw [hcounts]
    exact houtcomes

end Sample

end EvidenceCartographer.Orchestration

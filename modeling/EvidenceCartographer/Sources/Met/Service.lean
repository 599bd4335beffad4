import EvidenceCartographer.Concurrency.Product
import EvidenceCartographer.Infrastructure.StoredBundle
import EvidenceCartographer.Sources.Met.Csv
import EvidenceCartographer.Sources.Met.DownloadedFile
import EvidenceCartographer.Sources.Met.Header
import Mathlib.Data.List.Induction

/-! One whole Met run: download, preflight, reading, storing.

    The run is one program over two environments, its machine and the object store. Two counters run
    along it: the service counts the items its generator hands out, the store counts the items it
    spools. The result is that a run that returns has committed a manifest which says what the
    service says, about the file that was downloaded and the rows that were scanned. -/

namespace EvidenceCartographer.Sources.Met

open Python Python.Csv Domain Application Infrastructure Concurrency

structure MetSnapshotIngestionResult where
  ingestionRunId : UUID
  retrievedAt : AwareDatetime
  receipt : BronzeBundleReceipt
  requestedUrl : String
  finalUrl : String
  mediaType : String
  sizeBytes : Nat
  sha256 : Sha256Hex
  totalRecords : Nat
  outcomeCounts : OutcomeCounts
  contractMessages : List ValidationMessage
  sizeBytes_pos : 0 < sizeBytes

/-- `MetSnapshotIngestionService`, with what its reader gets from the Python release. -/
structure MetSnapshotIngestionService (S : Signature) where
  downloader : MetSnapshotDownloader
  bronzeStore : MinioBronzeArtifactStore S
  museumId : UUID
  contractVersion : String
  batchSize : Nat
  fromisoformat : String → Bool
  batchSize_pos : 1 ≤ batchSize

/-- What one run is given: its id, its clock, the header and the scan of its file, the ids of its
    records, and the faults of its spools. -/
structure RunInputs where
  runId : UUID
  observedAt : Except Exc AwareDatetime
  header : HeaderRead
  scan : List String → Nat → CsvScan
  recordIds : Nat → UUID
  artifactSpool : SpoolFaults
  evidenceSpool : SpoolFaults

/-- The body of `counted_evidence`, for the items handed out. -/
def countedEvidence (items : List BronzeRecordEvidence) : OutcomeCounts :=
  items.foldl (fun counts item =>
    Function.update counts item.result.outcome (counts item.result.outcome + 1)) fun _ => 0

namespace MetSnapshotIngestionService

variable {S : Signature} (service : MetSnapshotIngestionService S) (inputs : RunInputs)

/-- The artifact of a run. -/
def artifactOf (downloaded : DownloadedMetSnapshot) : Except Exc BronzeArtifact :=
  if h : downloaded.mediaType ≠ "" ∧ service.contractVersion ≠ "" then
    .ok { source := .met
          ingestionRunId := inputs.runId
          retrievedAt := downloaded.retrievedAt
          sourceUrl := downloaded.requestedUrl
          mediaType := downloaded.mediaType
          extension := "csv"
          contractVersion := service.contractVersion
          localPath := downloaded.localPath
          expectedSha256 := some downloaded.sha256
          mediaType_ne := h.1
          extension_safe := safeExtension_csv
          contractVersion_ne := h.2 }
  else .error (validationError "BronzeArtifact")

/-- The context of a run. -/
def contextOf (downloaded : DownloadedMetSnapshot) (target : BronzeBundleTarget)
    (observedAt : AwareDatetime) : MetEvidenceContext where
  museumId := service.museumId
  ingestionRunId := inputs.runId
  observedAt := observedAt
  retrievedAt := downloaded.retrievedAt
  sourceUrl := downloaded.requestedUrl
  rawUri := target.artifactUri
  rawChecksum := downloaded.sha256
  contractVersion := service.contractVersion

/-- The rows of a run. -/
def scanOf (preflight : MetCsvPreflightResult) : CsvScan :=
  inputs.scan preflight.columns service.batchSize

/-- The evidence of a run. -/
def evidenceOf (preflight : MetCsvPreflightResult) (context : MetEvidenceContext) :
    EvidenceIterable :=
  iterEvidence service.fromisoformat context inputs.recordIds (service.scanOf inputs preflight)

section OnMachine

variable {T : Signature}
  (onMachine : {α : Type} → Program machineSignature Exc α → Program T Exc α)

/-- `run` from its snapshot on, in any signature that has the machine. -/
def storing (downloaded : DownloadedMetSnapshot) :
    Program (T.sum S) Exc MetSnapshotIngestionResult := do
  let preflight ← .ofExcept (inspect inputs.header)
  let artifact ← .ofExcept (service.artifactOf inputs downloaded)
  let target ← .ofExcept (service.bronzeStore.targetFor artifact)
  let observedAt ← .ofExcept inputs.observedAt
  let evidence := service.evidenceOf inputs preflight
    (service.contextOf inputs downloaded target observedAt)
  let file ← (onMachine (.call .openTarget .ret)).inl
  let staging : Staging := ⟨file, inputs.artifactSpool, inputs.evidenceSpool⟩
  let receipt ← (service.bronzeStore.storeBundle staging artifact evidence
    preflight.contractMessages).inr
  let outcomeCounts := countedEvidence (spoolLoop service.bronzeStore.ceiling artifact
    target.evidenceManifestUri inputs.evidenceSpool evidence).pulled
  return { ingestionRunId := inputs.runId
           retrievedAt := downloaded.retrievedAt
           receipt := receipt
           requestedUrl := downloaded.requestedUrl
           finalUrl := downloaded.finalUrl
           mediaType := downloaded.mediaType
           sizeBytes := downloaded.sizeBytes
           sha256 := downloaded.sha256
           totalRecords := (ContractOutcome.members.map outcomeCounts).sum
           outcomeCounts := outcomeCounts
           contractMessages := preflight.contractMessages
           sizeBytes_pos := downloaded.sizeBytes_pos }

/-- `run`, inside its temporary directory. -/
def runInOn (download : Program T Exc DownloadedMetSnapshot) :
    Program (T.sum S) Exc MetSnapshotIngestionResult := do
  let downloaded ← download.inl
  service.storing inputs onMachine downloaded

/-- `run`, with this download into its temporary directory. -/
def runOn (download : String → Program T Exc DownloadedMetSnapshot) :
    Program (T.sum S) Exc MetSnapshotIngestionResult := do
  let temporary ← (onMachine (.call .makeTemporary .ofExcept)).inl
  (service.runInOn inputs onMachine (download temporary)).ensuring
    (onMachine (.call .removeTemporary .ofExcept)).inl

end OnMachine

/-- `run`, inside its temporary directory. -/
def runIn (temporary : String) : Program (machineSignature.sum S) Exc MetSnapshotIngestionResult :=
  service.runInOn inputs (fun p => p) (service.downloader.download temporary)

def run : Program (machineSignature.sum S) Exc MetSnapshotIngestionResult :=
  service.runOn inputs (fun p => p) service.downloader.download

end MetSnapshotIngestionService

/-- By induction from the end of the items, the way both counters grow. -/
theorem countedEvidence_eq {items : List BronzeRecordEvidence}
    (h : ∀ item ∈ items, item.provenance.outcome = item.result.outcome) :
    countedEvidence items = outcomeCount items := by
  induction items using List.reverseRecOn with
  | nil => rfl
  | append_singleton items item ih =>
    have hitems := ih fun x hx => h x (List.mem_append_left _ hx)
    rw [countedEvidence] at hitems
    rw [countedEvidence, List.foldl_append, hitems, outcomeCount_concat items (h item (by simp))]
    rfl

/-- The result of a run against its manifest `m` and what its three keys hold. -/
structure MetSnapshotIngestionResult.Agrees {S : Signature} {σ : Type}
    (result : MetSnapshotIngestionResult) (store : MinioBronzeArtifactStore S)
    (holds : ObjectKey → Bytes → σ → Prop) (artifact : BronzeArtifact) (keys : BronzeObjectKeys)
    (rows : List CsvRow) (items : List BronzeRecordEvidence) (m : BronzeCompletionManifest)
    (s : σ) : Prop where
  marker_holds : holds (store.bucketName, keys.completionManifest) (canonicalJson m.modelDump) s
  evidence_holds : holds (store.bucketName, keys.evidenceManifest) (items.flatMap evidenceLine) s
  artifact_holds : ∃ bytes, holds (store.bucketName, keys.artifact) bytes s ∧
    result.sizeBytes = bytes.length ∧ result.sha256 = Python.sha256 bytes
  size : result.sizeBytes = m.artifact.sizeBytes
  checksum : result.sha256 = m.artifact.sha256
  target : store.targetFor artifact =
    .ok ⟨m.artifact.uri, m.evidenceManifest.uri, result.receipt.completionManifestUri⟩
  uris : m.artifact.uri = store.uri keys.artifact ∧
    m.evidenceManifest.uri = store.uri keys.evidenceManifest ∧
    result.receipt.completionManifestUri = store.uri keys.completionManifest
  total : result.totalRecords = m.totalRecords
  counts : result.outcomeCounts = m.outcomeCounts
  lines : (items.flatMap evidenceLine).count 0x0a = rows.length ∧ items.length = rows.length ∧
    m.totalRecords = rows.length
  line_counts : m.outcomeCounts = outcomeCount items
  provenance : ∀ item ∈ items, item.provenance.rawUri = m.artifact.uri ∧
    item.provenance.rawChecksum = some m.artifact.sha256.text
  accepted : ∀ item ∈ items, validateEvidence artifact item = .ok ()

section Run

variable {ι σ : Type} {S : Signature} {service : MetSnapshotIngestionService S}
  {inputs : RunInputs} {sys : System ι S σ} {i : ι} {holds : ObjectKey → Bytes → σ → Prop}
  {untouched : ObjectKey → σ → Prop}

/-- The evidence of a run is never refused: it carries the run, the source and the contract of its
    artifact. -/
theorem evidenceOf_coherent {downloaded : DownloadedMetSnapshot} {artifact : BronzeArtifact}
    {preflight : MetCsvPreflightResult} {target : BronzeBundleTarget} {observedAt : AwareDatetime}
    (hartifact : service.artifactOf inputs downloaded = .ok artifact) {item : BronzeRecordEvidence}
    (hitem : item ∈ (service.evidenceOf inputs preflight
      (service.contextOf inputs downloaded target observedAt)).items) :
    Coherent artifact item := by
  have hcontext := iterEvidence_context hitem
  unfold MetSnapshotIngestionService.artifactOf at hartifact
  split at hartifact
  · cases hartifact
    exact ⟨hcontext.source, hcontext.run, hcontext.contract, hcontext.outcome⟩
  · cases hartifact

/-- What the result says of the download. -/
structure MetSnapshotIngestionResult.Reports (result : MetSnapshotIngestionResult)
    (downloaded : DownloadedMetSnapshot) : Prop where
  retrievedAt : result.retrievedAt = downloaded.retrievedAt
  requestedUrl : result.requestedUrl = downloaded.requestedUrl
  finalUrl : result.finalUrl = downloaded.finalUrl
  mediaType : result.mediaType = downloaded.mediaType
  sizeBytes : result.sizeBytes = downloaded.sizeBytes
  sha256 : result.sha256 = downloaded.sha256

/-- What a returned run has left. -/
def RunAgreement (service : MetSnapshotIngestionService S) (inputs : RunInputs)
    (holds : ObjectKey → Bytes → σ → Prop) (result : MetSnapshotIngestionResult) (s : σ) : Prop :=
  ∃ downloaded preflight artifact target observedAt keys m,
    result.Reports downloaded ∧
    inspect inputs.header = .ok preflight ∧
    service.artifactOf inputs downloaded = .ok artifact ∧
    service.bronzeStore.targetFor artifact = .ok target ∧
    inputs.observedAt = .ok observedAt ∧
    buildBronzeObjectKeys artifact service.bronzeStore.bronzePrefix = .ok keys ∧
    result.Agrees service.bronzeStore holds artifact keys (service.scanOf inputs preflight).rows
      (service.evidenceOf inputs preflight
        (service.contextOf inputs downloaded target observedAt)).items m s

/-- The two counters, the two hashes and the two derivations of the locations meet. -/
theorem agrees_of_committed {downloaded : DownloadedMetSnapshot} {preflight : MetCsvPreflightResult}
    {artifact : BronzeArtifact} {target : BronzeBundleTarget} {observedAt : AwareDatetime}
    {keys : BronzeObjectKeys} {staging : Staging} {content : Option Bytes}
    {evidence : EvidenceIterable} {result : MetSnapshotIngestionResult} {s : σ}
    (hdescribes : downloaded.Describes content) (hreads : ReadsAs staging.file content)
    (htarget : service.bronzeStore.targetFor artifact = .ok target)
    (hkeys : buildBronzeObjectKeys artifact service.bronzeStore.bronzePrefix = .ok keys)
    (hevidence : evidence = service.evidenceOf inputs preflight
      (service.contextOf inputs downloaded target observedAt))
    (hcommitted : service.bronzeStore.Committed staging artifact evidence
      preflight.contractMessages keys holds s)
    (hreports : result.Reports downloaded)
    (hreceipt : result.receipt = service.bronzeStore.receipt staging artifact evidence keys)
    (hcounts : result.outcomeCounts = countedEvidence (spoolLoop service.bronzeStore.ceiling
      artifact target.evidenceManifestUri staging.evidenceSpool evidence).pulled)
    (htotal : result.totalRecords =
      (ContractOutcome.members.map result.outcomeCounts).sum) :
    result.Agrees service.bronzeStore holds artifact keys (service.scanOf inputs preflight).rows
      evidence.items (service.bronzeStore.completion staging artifact evidence
        preflight.contractMessages keys) s := by
  have htargeteq := service.bronzeStore.targetFor_eq hkeys
  rw [htarget] at htargeteq
  obtain rfl := Except.ok.inj htargeteq
  have hcoherent := hcommitted.coherent
  -- the file that was staged is the file that was downloaded
  obtain ⟨bytes, hcontent, hsize, hsha⟩ := hdescribes
  have hbytes : bytes = chunksRead staging.file.reads := by
    have hread := hreads hcommitted.isFile hcommitted.read_to_end
    rw [hcontent] at hread
    exact Option.some.inj hread
  subst hbytes
  -- the generator was exhausted, so the service has counted every item
  obtain ⟨written, hwritten⟩ := hcommitted.spooled
  have hoc : result.outcomeCounts = outcomeCount evidence.items := by
    rw [hcounts, pulled_of_spooled hwritten]
    exact countedEvidence_eq fun item hitem => (hcoherent item hitem).outcome
  have htotal' : result.totalRecords = evidence.items.length := by
    rw [htotal, hoc]
    exact outcomeCount_sum fun item hitem => (hcoherent item hitem).outcome
  -- the scan was read to its end
  have hrows : evidence.items.length = (service.scanOf inputs preflight).rows.length := by
    subst hevidence
    exact (iterEvidence_complete hcommitted.ending).length_eq.symm
  refine {
    marker_holds := hcommitted.marker_holds
    evidence_holds := hcommitted.evidence_holds
    artifact_holds := ⟨_, hcommitted.artifact_holds, by rw [hreports.sizeBytes, hsize],
      by rw [hreports.sha256, hsha]⟩
    size := by rw [hreports.sizeBytes, hsize]; rfl
    checksum := by rw [hreports.sha256, hsha]; rfl
    target := by rw [htarget, hreceipt]; rfl
    uris := ⟨rfl, rfl, by rw [hreceipt]; rfl⟩
    total := htotal'
    counts := hoc
    lines := ⟨by rw [count_evidenceLines, hrows], hrows, hrows⟩
    line_counts := rfl
    provenance := fun item hitem => ?_
    accepted := fun item hitem => validateEvidence_ok.mpr (hcoherent item hitem) }
  subst hevidence
  have hcontext := iterEvidence_context hitem
  refine ⟨hcontext.rawUri, ?_⟩
  rw [hcontext.rawChecksum]
  show some downloaded.sha256.text = some (Python.sha256 (chunksRead staging.file.reads)).text
  rw [hsha]

variable (hkeeps : service.bronzeStore.client.Keeps sys i holds untouched)

include hkeeps

theorem RunAgreement.rely {result : MetSnapshotIngestionResult} {s s' : σ}
    (hr : sys.rely i s s') (h : RunAgreement service inputs holds result s) :
    RunAgreement service inputs holds result s' := by
  obtain ⟨downloaded, preflight, artifact, target, observedAt, keys, m, hreports, hpreflight,
    hartifact, htarget, hobserved, hkeys, hagrees⟩ := h
  refine ⟨downloaded, preflight, artifact, target, observedAt, keys, m, hreports, hpreflight,
    hartifact, htarget, hobserved, hkeys, ?_⟩
  obtain ⟨bytes, hholds, hbytes⟩ := hagrees.artifact_holds
  exact { hagrees with
    marker_holds := hkeeps.holds_rely _ _ _ _ hr hagrees.marker_holds
    evidence_holds := hkeeps.holds_rely _ _ _ _ hr hagrees.evidence_holds
    artifact_holds := ⟨bytes, hkeeps.holds_rely _ _ _ _ hr hholds, hbytes⟩ }

/-- The run inside its directory. -/
theorem safe_runIn (temporary : String) (x : (ι → MetDirectory) × σ) :
    ((machineSystem ι).prod sys).Safe i (fun _ => True) (service.runIn inputs temporary)
      (fun r x' => ∀ result, r = .ok result → RunAgreement service inputs holds result x'.2) x := by
  refine .bind ((System.Safe.inl safe_download).mono ?_)
  rintro (exc | downloaded) x₁ ⟨hdescribes, -⟩
  · simp
  refine .bind (System.safe_ofExcept.mpr ?_)
  cases hpreflight : inspect inputs.header with
  | error exc => simp
  | ok preflight =>
  refine .bind (System.safe_ofExcept.mpr ?_)
  cases hartifact : service.artifactOf inputs downloaded with
  | error exc => simp
  | ok artifact =>
  dsimp only
  -- named first: the rule would evaluate the keys
  generalize htarget : service.bronzeStore.targetFor artifact = targeted
  refine .bind (System.safe_ofExcept.mpr ?_)
  cases targeted with
  | error exc => simp
  | ok target =>
  refine .bind (System.safe_ofExcept.mpr ?_)
  cases hobserved : inputs.observedAt with
  | error exc => simp
  | ok observedAt =>
  obtain ⟨keys, hkeys, -⟩ := service.bronzeStore.targetFor_ok htarget
  have hopen : (machineSystem ι).Safe i (fun _ => True)
      (.call .openTarget .ret : Program machineSignature Exc LocalFile)
      (fun r _ => ∀ file, r = .ok file → ReadsAs file (x₁.1 i).target) x₁.1 := by
    refine System.safe_perform fun s₁ hrely file s₂ hexec => ⟨trivial, ?_⟩
    rintro _ ⟨⟩
    obtain ⟨-, hreads⟩ := hexec.1
    rwa [hrely] at hreads
  refine .bind ((System.Safe.inl hopen).mono ?_)
  rintro (exc | file) x₂ ⟨hreads, -⟩
  · simp
  refine .bind ((System.Safe.inr (safe_storeBundle_committed hkeeps hkeys)).mono ?_)
  rintro (exc | receipt) x₃ ⟨hstored, -⟩
  · simp
  obtain ⟨hreceipt, hcommitted⟩ := hstored receipt rfl
  rintro _ ⟨⟩
  exact ⟨downloaded, preflight, artifact, target, observedAt, keys, _,
    ⟨rfl, rfl, rfl, rfl, rfl, rfl⟩, hpreflight, hartifact, htarget, hobserved, hkeys,
    agrees_of_committed (hdescribes downloaded rfl) (hreads file rfl) htarget hkeys rfl
      hcommitted ⟨rfl, rfl, rfl, rfl, rfl, rfl⟩ hreceipt rfl rfl⟩

/-- One whole run. -/
theorem safe_run (x : (ι → MetDirectory) × σ) :
    ((machineSystem ι).prod sys).Safe i (fun _ => True) (service.run inputs)
      (fun r x' => ∀ result, r = .ok result → RunAgreement service inputs holds result x'.2) x := by
  refine .bind (System.safe_true.mono ?_)
  rintro (exc | temporary) x₁ -
  · simp
  refine .ensuring ((safe_runIn hkeeps temporary x₁).mono ?_)
  rintro r x₂ hagrees
  refine (System.Safe.inl (System.safe_reply fun s₁ _ cleaned s₂ _ => ⟨trivial, trivial⟩)).mono ?_
  rintro (exc | ⟨⟨⟩⟩) x₃ ⟨-, hrely⟩
  · simp
  · exact fun result hr => (hagrees result hr).rely hkeeps hrely

omit hkeeps

theorem agreement_of_returned [DecidableEq ι] {dirs : ι → MetDirectory} {s₀ : σ}
    {procs : ι → Program (machineSignature.sum S) Exc MetSnapshotIngestionResult}
    {c : Config ι (machineSignature.sum S) ((ι → MetDirectory) × σ) Exc MetSnapshotIngestionResult}
    (hkeeps : service.bronzeStore.client.Keeps sys i holds untouched)
    (hr : ((machineSystem ι).prod sys).Reachable ⟨(dirs, s₀), procs⟩ c)
    (hrun : procs i = service.run inputs) {result : MetSnapshotIngestionResult}
    (hret : c.procs i = .ret result) : RunAgreement service inputs holds result c.shared.2 := by
  have hguarded := hr.started hrun (fun _ _ _ h => h) trivial (safe_run hkeeps (dirs, s₀))
  have ho : (c.procs i).outcome = some (.ok result) := by rw [hret]; rfl
  exact hguarded.post (fun x x' hrely h result hresult =>
    (h result hresult).rely hkeeps hrely.2) ho result rfl

/-- A run that returns agrees with what it committed, and no run's evidence is refused. -/
theorem run_agrees [DecidableEq ι] {dirs : ι → MetDirectory} {s₀ : σ}
    {procs : ι → Program (machineSignature.sum S) Exc MetSnapshotIngestionResult}
    {c : Config ι (machineSignature.sum S) ((ι → MetDirectory) × σ) Exc MetSnapshotIngestionResult}
    (hkeeps : service.bronzeStore.client.Keeps sys i holds untouched)
    (hr : ((machineSystem ι).prod sys).Reachable ⟨(dirs, s₀), procs⟩ c)
    (hrun : procs i = service.run inputs) :
    (∀ result, c.procs i = .ret result → RunAgreement service inputs holds result c.shared.2) ∧
    ∀ downloaded preflight artifact target observedAt,
      service.artifactOf inputs downloaded = .ok artifact →
      ∀ item ∈ (service.evidenceOf inputs preflight
        (service.contextOf inputs downloaded target observedAt)).items,
        validateEvidence artifact item = .ok () := by
  exact ⟨fun result hret => agreement_of_returned hkeeps hr hrun hret,
    fun downloaded preflight artifact target observedAt hartifact item hitem =>
      validateEvidence_ok.mpr (evidenceOf_coherent hartifact hitem)⟩

end Run

section Progress

variable {ι σ : Type} [DecidableEq ι] {S : Signature} {service : MetSnapshotIngestionService S}
  {inputs : RunInputs} {downloaded : DownloadedMetSnapshot} {bytes : Bytes}
  {preflight : MetCsvPreflightResult} {artifact : BronzeArtifact} {target : BronzeBundleTarget}
  {observedAt : AwareDatetime} {file : LocalFile}

/-- A run that meets no obstacle comes to where it calls its store, and ends as the store does. -/
theorem reaches_run {machine : System ι machineSignature (ι → MetDirectory)} {i : ι}
    (hmachine : CanWork machine i) (sys : System ι S σ) (temporary : String)
    (dirs : ι → MetDirectory) (s : σ)
    (hdownload : workingMachine.Runs () (service.downloader.download temporary)
      (fun _ => ⟨none, none⟩) (.ok downloaded) (fun _ => ⟨none, some bytes⟩))
    (hpreflight : inspect inputs.header = .ok preflight)
    (hartifact : service.artifactOf inputs downloaded = .ok artifact)
    (htarget : service.bronzeStore.targetFor artifact = .ok target)
    (hobserved : inputs.observedAt = .ok observedAt) (hfile : ReadsAs file (some bytes)) :
    ∃ p, (machine.prod sys).Reaches i (service.run inputs) (dirs, s) p
        (Function.update dirs i ⟨none, some bytes⟩, s) ∧
      ∀ dirs' s₁ r s', dirs' i = ⟨none, some bytes⟩ →
        sys.Runs i (service.bronzeStore.storeBundle
          ⟨file, inputs.artifactSpool, inputs.evidenceSpool⟩ artifact (service.evidenceOf inputs
            preflight (service.contextOf inputs downloaded target observedAt))
          preflight.contractMessages) s₁ r s' →
        ∃ r', (∀ e, r = .error e → r' = .error e) ∧
          (∀ receipt, r = .ok receipt → ∃ result : MetSnapshotIngestionResult, r' = .ok result ∧
            result.receipt = receipt ∧ result.Reports downloaded ∧
            result.outcomeCounts = countedEvidence (spoolLoop service.bronzeStore.ceiling artifact
              target.evidenceManifestUri inputs.evidenceSpool (service.evidenceOf inputs preflight
                (service.contextOf inputs downloaded target observedAt))).pulled ∧
            result.totalRecords = (ContractOutcome.members.map result.outcomeCounts).sum) ∧
          (machine.prod sys).Runs i p (dirs', s₁) r'
            (Function.update dirs' i ⟨none, none⟩, s') := by
  have hopen : workingMachine.Runs ()
      (.call .openTarget .ret : Program machineSignature Exc LocalFile)
      (fun _ => ⟨none, some bytes⟩) (.ok file) (fun _ => ⟨none, some bytes⟩) :=
    runs_alone (f := .ok) .openTarget file trivial rfl ⟨rfl, hfile⟩
  have hdownload : (machine.prod sys).Runs i _ (_, s) _ (_, s) :=
    (hmachine.runs hdownload dirs).inl s
  have hopen : (machine.prod sys).Runs i _ (_, s) _ (_, s) := (hmachine.runs hopen dirs).inl s
  have hmake : workingMachine.Runs ()
      (.call .makeTemporary .ofExcept : Program machineSignature Exc String)
      (fun _ => dirs i) (.ok temporary) (fun _ => ⟨none, none⟩) :=
    runs_alone .makeTemporary (.ok temporary) trivial rfl rfl
  have hremove : workingMachine.Runs ()
      (.call .removeTemporary .ofExcept : Program machineSignature Exc Unit)
      (fun _ => ⟨none, some bytes⟩) (.ok ()) (fun _ => ⟨none, none⟩) :=
    runs_alone .removeTemporary (.ok ()) trivial rfl rfl
  have hmade : machine.Runs i _ dirs _ _ :=
    Function.update_eq_self i dirs ▸ hmachine.runs hmake dirs
  -- what the run has come to once its storing has come to `p`
  have hrun {p} (h : (machine.prod sys).Reaches i (service.storing inputs (fun p => p) downloaded)
      (Function.update dirs i ⟨none, some bytes⟩, s) p
      (Function.update dirs i ⟨none, some bytes⟩, s)) :
      (machine.prod sys).Reaches i (service.run inputs) (dirs, s)
        (p.ensuring (Program.inl (.call .removeTemporary .ofExcept)))
        (Function.update dirs i ⟨none, some bytes⟩, s) :=
    .bind_runs (hmade.inl s) (.ensuring (.bind_runs hdownload h) _)
  refine ⟨_, hrun (.bind_ok hpreflight (.bind_ok hartifact (.bind_ok htarget (.bind_ok hobserved
    (.bind_runs hopen (.refl _ _)))))), ?_⟩
  intro dirs' s₁ r s' hdirs hstore
  have hremoved : machine.Runs i _ dirs' _ _ :=
    Function.update_eq_self i dirs' ▸ hdirs ▸ hmachine.runs hremove dirs'
  cases r with
  | error e =>
    exact ⟨.error e, fun _ h => by cases h; rfl, nofun,
      .ensuring (.bind_error (hstore.inr _)) (hremoved.inl s')⟩
  | ok receipt =>
    refine ⟨.ok _, nofun, ?_, .ensuring (.bind (hstore.inr _) (.ret _ _)) (hremoved.inl s')⟩
    rintro _ ⟨⟩
    exact ⟨_, rfl, rfl, ⟨rfl, rfl, rfl, rfl, rfl, rfl⟩, rfl, rfl⟩

end Progress

section Sample

/-- The file of the sample table, with quotes around each cell. -/
def sampleText (order : Bool) : List Char :=
  writeRow (sampleColumns.map String.toList) ++ '\n' ::
    (sampleTable order).flatMap fun cells =>
      writeRow ((sampleCells cells.1 cells.2).map String.toList) ++ ['\n']

def sampleCsv (order : Bool) : Bytes := encodeUtf8 (sampleText order)

theorem sampleCsv_length (order : Bool) :
    64 < (sampleCsv order).length ∧ (sampleCsv order).length < 10 ^ 4 := by
  cases order <;> decide +kernel

theorem sampleCsv_nonempty (order : Bool) : (sampleCsv order).length ≠ 0 := by
  have := (sampleCsv_length order).1
  omega

/-- Its bytes arrive and are read in two chunks. -/
def sampleCsvChunks (order : Bool) : List Bytes :=
  [(sampleCsv order).take 64, (sampleCsv order).drop 64]

theorem sampleCsvChunks_flatten (order : Bool) : (sampleCsvChunks order).flatten = sampleCsv order := by
  simp [sampleCsvChunks]

theorem sampleCsvChunks_ne (order : Bool) : [] ∉ sampleCsvChunks order := by
  have hlength := (sampleCsv_length order).1
  simp only [sampleCsvChunks, List.mem_cons, List.not_mem_nil, or_false, not_or]
  refine ⟨fun h => ?_, fun h => ?_⟩
  · have := congrArg List.length h
    simp at this
    omega
  · have := congrArg List.length h
    simp at this
    omega

theorem sampleColumns_accepted : Accepted sampleColumns :=
  ⟨by decide, by decide, by decide, fun _ h => List.mem_append_left _ h⟩

theorem sampleColumns_ne : sampleColumns.map String.toList ≠ [] := by
  simp [sampleColumns, metV1RequiredColumns]

theorem sampleCsv_decoded (order : Bool) : decodeUtf8Sig (sampleCsv order) = some (sampleText order) :=
  decodeUtf8Sig_writeRow sampleColumns_ne (.inl rfl) _

/-- The preflight reads its columns from the file. -/
theorem sample_header (order : Bool) : readHeader ⟨sampleText order, none⟩ = .row sampleColumns := by
  have hnames : sampleColumns = (sampleColumns.map String.toList).map String.ofList := by simp
  exact readHeader_row_iff.mpr ⟨_, firstRecord_writeRow sampleColumns_ne rfl, by decide +kernel, hnames⟩

/-- A service over the owned client. -/
def sampleService : MetSnapshotIngestionService httpSignature where
  downloader := sampleDownloader
  bronzeStore := ⟨minioConditionalObjectClient maxSinglePutSizeBytes, "lake", "bronze",
    maxSinglePutSizeBytes⟩
  museumId := sampleId
  contractVersion := "1.0.0"
  batchSize := 2
  fromisoformat := fun _ => true
  batchSize_pos := by decide

/-- What a run of this id is given where the rows come in this order. -/
def sampleInputs (run : UUID) (order : Bool) : RunInputs where
  runId := run
  observedAt := .ok sampleInstant
  header := .row sampleColumns
  scan := fun _ _ => sampleScan order
  recordIds := .ofNat
  artifactSpool := .none
  evidenceSpool := .none

/-- The contract does not know one of the columns. -/
def samplePreflight : MetCsvPreflightResult :=
  ⟨sampleColumns, [⟨"unexpected_columns", "Met CSV added columns: Shelf", none⟩]⟩

theorem sample_preflight (run : UUID) (order : Bool) :
    inspect (sampleInputs run order).header = .ok samplePreflight :=
  inspect_row_iff.mpr ⟨sampleColumns_accepted,
    congrArg (MetCsvPreflightResult.mk sampleColumns) (by decide +kernel)⟩

/-- The snapshot of the file. -/
def sampleSnapshot (order : Bool) : DownloadedMetSnapshot :=
  sampleDownloaded (sampleCsv order) (sampleCsv_nonempty order)

theorem sampleCsv_fits (order : Bool) : (sampleCsv order).length ≤ maxSinglePutSizeBytes :=
  (sampleCsv_length order).2.le.trans (by decide)

theorem sample_downloaded (order : Bool) (dir : MetDirectory) :
    workingMachine.Runs () (sampleDownloader.download "/tmp/met") (fun _ => dir)
      (.ok (sampleSnapshot order)) (fun _ => ⟨none, some (sampleCsv order)⟩) :=
  sample_download (sampleCsvChunks_ne order) (sampleCsvChunks_flatten order) _
    (sampleCsv_fits order) dir

def sampleMetArtifact (run : UUID) (order : Bool) : BronzeArtifact :=
  { sampleArtifactOf run csv with
    localPath := "/tmp/met/MetObjects.csv"
    expectedSha256 := some (sha256 (sampleCsv order)) }

theorem sample_artifact (run : UUID) (order : Bool) :
    sampleService.artifactOf (sampleInputs run order) (sampleSnapshot order) =
      .ok (sampleMetArtifact run order) := by
  have hmedia : (sampleSnapshot order).mediaType = "text/csv" := rfl
  rw [MetSnapshotIngestionService.artifactOf, dif_pos ⟨by rw [hmedia]; decide, by decide⟩]
  rfl

/-- The store's call in a sample run. -/
def sampleMetBundle (run : UUID) (order : Bool) : BundleCall where
  bucketName := "lake"
  bronzePrefix := "bronze"
  staging := ⟨⟨true, (sampleCsvChunks order).map .ok ++ [.ok []]⟩, .none, .none⟩
  artifact := sampleMetArtifact run order
  evidence := sampleService.evidenceOf (sampleInputs run order) samplePreflight
    (sampleService.contextOf (sampleInputs run order) (sampleSnapshot order)
      ⟨objectUri "lake" (sampleKeysOf run csv).artifact,
        objectUri "lake" (sampleKeysOf run csv).evidenceManifest,
        objectUri "lake" (sampleKeysOf run csv).completionManifest⟩ sampleInstant)
  contractMessages := samplePreflight.contractMessages

theorem sampleMet_keys (run : UUID) (order : Bool) :
    (sampleMetBundle run order).keys = .ok (sampleKeysOf run csv) := sampleArtifactOf_keys run csv

theorem sampleMet_evidence (run : UUID) (order : Bool) : ∃ context : MetEvidenceContext,
    context.sourceUrl = sampleDownloader.url ∧ context.contractVersion = "1.0.0" ∧
    context.observedAt = sampleInstant ∧ context.retrievedAt = sampleInstant ∧
    context.rawUri = objectUri "lake" (sampleKeysOf run csv).artifact ∧
    context.ingestionRunId = run ∧ (sampleMetBundle run order).evidence =
      ⟨sampleItems context (sampleInputs run order).recordIds order, none⟩ :=
  ⟨_, rfl, rfl, rfl, rfl, rfl, rfl, sample_items _ _ order none⟩

theorem sample_attribution (objectId title : String) :
    ((samplePayload objectId title).get "Artist Display Name").filter (· ≠ "") = some "A smith" := by
  rfl

/-- The dump of a row is short if the texts it comes with are. -/
theorem width_sampleItemOf_le {context : MetEvidenceContext} {id : UUID}
    {objectId title recordId : String} {result : ContractResult}
    (hurl : context.sourceUrl.toList.length ≤ 100) (huri : context.rawUri.toList.length ≤ 344)
    (hversion : context.contractVersion.toList.length ≤ 10)
    (hobserved : context.observedAt.dump.width ≤ 200)
    (hretrieved : context.retrievedAt.dump.width ≤ 200) (hrecord : recordId.toList.length ≤ 50)
    (hresult : result.modelDump.width ≤ 2000) :
    (sampleItemOf context id objectId title recordId result).modelDump.width ≤ 10000 := by
  have houtcome : result.outcome.value.toList.length ≤ 22 := by
    cases result.outcome <;> decide +kernel
  have hsha := context.rawChecksum.length_eq
  simp only [BronzeRecordEvidence.modelDump, SourceRecord.modelDump, sampleItemOf, provenance,
    sample_attribution, dumpText, SourceName.value, RetrievalStatus.value,
    IngestionMode.value, Json.width, Json.widthFields, UUID.width_dump]
  simp at *
  omega

theorem sampleMet_items (run : UUID) (order : Bool) :
    ∀ item ∈ (sampleMetBundle run order).evidence.items, item.modelDump.width ≤ 10000 := by
  obtain ⟨context, hurl, hversion, hobserved, hretrieved, huri, hrun, hevidence⟩ :=
    sampleMet_evidence run order
  have hinstant : sampleInstant.dump.width ≤ 200 := by decide +kernel
  have hraw : context.rawUri.toList.length ≤ 344 := by
    rw [huri]
    exact (Json.length_toList_le_utf8ByteSize _).trans (sampleKeysOf_uri_le run (by decide)).1
  have hplace : ∀ place : String, place.toList.length = 6 →
      (context.ingestionRunId.str ++ place).toList.length ≤ 50 := by
    intro place h
    rw [String.toList_append, List.length_append, UUID.length_str, h]
    decide
  have hwidth {id : UUID} {objectId title recordId : String} {result : ContractResult}
      (hrecord : recordId.toList.length ≤ 50) (hresult : result.modelDump.width ≤ 2000) :
      (sampleItemOf context id objectId title recordId result).modelDump.width ≤ 10000 :=
    width_sampleItemOf_le (by rw [hurl]; decide) hraw (by rw [hversion]; decide)
      (hobserved ▸ hinstant) (hretrieved ▸ hinstant) hrecord hresult
  have haccepted : sampleAccepted.modelDump.width ≤ 2000 := by decide +kernel
  have hwarned : sampleWarned.modelDump.width ≤ 2000 := by decide +kernel
  have hrepeated : sampleRepeated.modelDump.width ≤ 2000 := by decide +kernel
  have hunidentified : sampleUnidentified.modelDump.width ≤ 2000 := by decide +kernel
  have hshort : "7".toList.length ≤ 50 ∧ "8".toList.length ≤ 50 := by decide
  rw [hevidence]
  cases order <;> simp only [sampleItems, List.forall_mem_cons, List.not_mem_nil, false_imp_iff,
    implies_true, and_true]
  · exact ⟨hwidth (hplace _ (by decide)) hunidentified, hwidth hshort.1 hwarned,
      hwidth hshort.2 hwarned, hwidth hshort.1 hrepeated⟩
  · exact ⟨hwidth hshort.1 haccepted, hwidth hshort.2 hwarned, hwidth hshort.1 hrepeated,
      hwidth (hplace _ (by decide)) hunidentified⟩

theorem sampleMet_length (run : UUID) (order : Bool) :
    (sampleMetBundle run order).evidence.items.length = 4 := by
  obtain ⟨context, -, -, -, -, -, -, hevidence⟩ := sampleMet_evidence run order
  rw [hevidence]
  cases order <;> rfl

theorem sampleMet_ending (run : UUID) (order : Bool) :
    (sampleMetBundle run order).evidence.ending = none := by
  obtain ⟨context, -, -, -, -, -, -, hevidence⟩ := sampleMet_evidence run order
  rw [hevidence]

theorem sampleMet_lines (run : UUID) (order : Bool) :
    ((sampleMetBundle run order).evidence.items.flatMap evidenceLine).length < 10 ^ 6 := by
  have hlines := length_evidenceLines_le 10000 (sampleMet_items run order)
  rw [sampleMet_length] at hlines
  omega

theorem sampleMet_accepted (run : UUID) (order : Bool) :
    ((sampleMetBundle run order).evidence.items.flatMap evidenceLine).length ≤
      maxSinglePutSizeBytes := (sampleMet_lines run order).le.trans (by decide)

theorem sampleMet_read (run : UUID) (order : Bool) :
    chunksRead (sampleMetBundle run order).staging.file.reads = sampleCsv order ∧
      ReadToEnd (sampleMetBundle run order).staging.file.reads := by
  obtain ⟨hread, hend⟩ := sampleResponse_read (sampleCsvChunks_ne order)
  exact ⟨hread.trans (sampleCsvChunks_flatten order), hend⟩

def sampleMetPlan (run : UUID) (order : Bool) : BundlePlan (sampleMetBundle run order) where
  keys := sampleKeysOf run csv
  keys_eq := sampleMet_keys run order
  snapshot := .ofBytes (sampleCsv order)
  snapshot_eq := by
    obtain ⟨hread, hend⟩ := sampleMet_read run order
    rw [← hread]
    refine snapshotArtifact_complete hend (fun _ => rfl) ?_ ?_
    · rw [hread]
      exact sampleCsv_fits order
    · rw [hread]
      exact fun _ h => Option.some.inj h
  written := .ofItems (sampleMetBundle run order).evidence.items
  written_eq := spoolEvidence_complete (sampleMet_ending run order)
    (fun _ => evidenceOf_coherent (sample_artifact run order)) (fun _ => rfl)
    (sampleMet_accepted run order)

theorem width_sampleMetCompletion_le (run : UUID) (order : Bool) :
    (sampleMetPlan run order).completion.modelDump.width ≤ 20000 := by
  obtain ⟨hartifact, hevidence⟩ := sampleKeysOf_uri_le run (show csv.val.utf8ByteSize ≤ 100 by decide)
  have hsize : (sampleCsv order).length < 10 ^ 6 := (sampleCsv_length order).2.trans (by decide)
  have htotal : (sampleMetBundle run order).evidence.items.length < 10 ^ 6 := by
    rw [sampleMet_length]
    decide
  have hcounts : ∀ outcome,
      outcomeCount (sampleMetBundle run order).evidence.items outcome < 10 ^ 6 :=
    fun outcome => List.countP_le_length.trans_lt htotal
  have hwidth : (sampleMetPlan run order).completion.modelDump.width ≤
      6 * ("https://museum.example/MetObjects.csv".utf8ByteSize + "1.0.0".utf8ByteSize +
        (objectUri "lake" (sampleKeysOf run csv).artifact).utf8ByteSize +
        (objectUri "lake" (sampleKeysOf run csv).evidenceManifest).utf8ByteSize) +
      run.dump.width + sampleInstant.dump.width +
      Json.widthItems (samplePreflight.contractMessages.map (·.modelDump)) + 7 * 6 + 3000 :=
    BronzeCompletionManifest.width_modelDump_le (k := 6) (by decide) hsize (sampleMet_lines run order)
      htotal hcounts
  have hrest : 6 * ("https://museum.example/MetObjects.csv".utf8ByteSize + "1.0.0".utf8ByteSize) +
      sampleInstant.dump.width +
      Json.widthItems (samplePreflight.contractMessages.map (·.modelDump)) ≤ 5000 := by
    decide +kernel
  rw [run.width_dump] at hwidth
  omega

theorem sampleMetPlan_ready (run : UUID) (order : Bool) : (sampleMetPlan run order).Ready where
  isFile := rfl
  artifactSpool := rfl
  artifactRewind := rfl
  evidenceSpool := rfl
  evidenceRewind := rfl
  artifact := sampleCsv_fits order
  evidence := BundlePlan.evidence_accepted rfl (sampleMet_accepted run order)
  marker := BundlePlan.marker_accepted
    ((Nat.mul_le_mul_left 4 (width_sampleMetCompletion_le run order)).trans (by decide))

/-- A sample run comes to where it calls its store, and if its keys are then free it returns. -/
theorem reaches_sampleRun {ι : Type} [DecidableEq ι] (i : ι) (run : UUID) (order : Bool)
    (dirs : ι → MetDirectory) (w : World ι) :
    ∃ p, ((machineSystem ι).prod (storeSystem Server.strict)).Reaches i
        (sampleService.run (sampleInputs run order)) (dirs, w) p
        (Function.update dirs i ⟨none, some (sampleCsv order)⟩, w) ∧
      ∀ dirs' (w₁ : World ι), dirs' i = ⟨none, some (sampleCsv order)⟩ →
        (∀ name ∈ (sampleKeysOf run csv).toList, w₁.objects ("lake", name) = none) →
        ∃ (result : MetSnapshotIngestionResult) (w₂ : World ι),
          result.receipt = (sampleMetPlan run order).receipt ∧
          ((machineSystem ι).prod (storeSystem Server.strict)).Runs i p (dirs', w₁) (.ok result)
            (Function.update dirs' i ⟨none, none⟩, w₂) ∧
          w₁.BundleLanded i (sampleMetPlan run order) (.ok (plainResponse 200)) w₂ := by
  have hfile : ReadsAs (sampleMetBundle run order).staging.file (some (sampleCsv order)) :=
    fun _ _ => congrArg some (sampleMet_read run order).1.symm
  obtain ⟨p, hreach, hrest⟩ := reaches_run (canWork_machine i) (storeSystem Server.strict) "/tmp/met"
    dirs w (sample_downloaded order _) (sample_preflight run order) (sample_artifact run order)
    ((sampleMetBundle run order).store.targetFor_eq (sampleMet_keys run order)) rfl hfile
  refine ⟨p, hreach, fun dirs' w₁ hdirs hfree => ?_⟩
  obtain ⟨w₂, hstore, hl⟩ := runs_storeBundle_committed (i := i) Server.strict_grants
    (sampleMetPlan_ready run order) hfree
  obtain ⟨r, -, hok, hrun⟩ := hrest dirs' w₁ _ w₂ hdirs hstore
  obtain ⟨result, rfl, hreceipt, -⟩ := hok _ rfl
  exact ⟨result, w₂, hreceipt, hrun, hl⟩

/-- Two sample runs at once, on an empty store and with the rows in two orders: the second downloads
    and stores while the first has downloaded and stored nothing, and then the first stores too. -/
theorem sample_runs : ∃ (c : Config Bool (machineSignature.sum httpSignature)
      ((Bool → MetDirectory) × World Bool) Exc MetSnapshotIngestionResult)
      (result : Bool → MetSnapshotIngestionResult),
    ((machineSystem Bool).prod (storeSystem Server.strict)).Reachable
      ⟨(fun _ => ⟨none, none⟩, World.initial fun _ => none),
        fun b => sampleService.run (sampleInputs (sampleRun b) b)⟩ c ∧
    ∀ b, c.procs b = .ret (result b) ∧
      (result b).receipt = (sampleMetPlan (sampleRun b) b).receipt ∧
      c.shared.2.HasBundle b 0 (sampleMetPlan (sampleRun b) b) := by
  let start : Config Bool (machineSignature.sum httpSignature)
      ((Bool → MetDirectory) × World Bool) Exc MetSnapshotIngestionResult :=
    ⟨(fun _ => ⟨none, none⟩, World.initial fun _ => none),
      fun b => sampleService.run (sampleInputs (sampleRun b) b)⟩
  obtain ⟨p, hreach, hrest⟩ := reaches_sampleRun true (sampleRun true) true start.shared.1
    start.shared.2
  -- the second run, from there to its end
  obtain ⟨q, hreach', hrest'⟩ := reaches_sampleRun false (sampleRun false) false
    (Function.update start.shared.1 true ⟨none, some (sampleCsv true)⟩) start.shared.2
  obtain ⟨result₂, w₂, hreceipt₂, hrun₂, hl₂⟩ := hrest' _ start.shared.2 (Function.update_self ..)
    fun _ _ => rfl
  have hwhole := hreach'.runs hrun₂
  have hfree : ∀ name ∈ (sampleKeysOf (sampleRun true) csv).toList, w₂.objects ("lake", name) = none :=
    fun name hname => hl₂.others _ fun name' hname' heq =>
      sampleParty_disjoint name hname name' hname' (congrArg Prod.snd heq)
  have hdirs : Function.update (Function.update (Function.update start.shared.1 true
      ⟨none, some (sampleCsv true)⟩) false ⟨none, some (sampleCsv false)⟩) false ⟨none, none⟩ true =
        ⟨none, some (sampleCsv true)⟩ := by
    simp
  obtain ⟨result₁, w₃, hreceipt₁, hrun₁, hl₁⟩ := hrest _ w₂ hdirs hfree
  have hreach : System.Reaches _ true (start.procs true) _ _ _ := hreach
  obtain ⟨procs', hr, hfirst, hsecond⟩ := hreach.interleaved (by decide) hwhole hrun₁
  have hsize : w₂.puts.size true = 0 := (hwhole.rely (j := true) (by decide)).2.putSize
  have hkept : ∀ kind, w₃.objects ("lake", (sampleKeysOf (sampleRun false) csv).get kind) =
      w₂.objects ("lake", (sampleKeysOf (sampleRun false) csv).get kind) :=
    fun kind => hl₁.others _ fun name hname heq => sampleParty_disjoint name hname _
      ((sampleKeysOf (sampleRun false) csv).get_mem kind) (congrArg Prod.snd heq).symm
  refine ⟨⟨_, procs'⟩, fun b => if b then result₁ else result₂, hr, fun b => ?_⟩
  cases b with
  | true =>
    have hlanded := hl₁.toHasBundle
    rw [hsize] at hlanded
    exact ⟨hfirst, hreceipt₁, hlanded⟩
  | false =>
    exact ⟨hsecond, hreceipt₂, (hkept .artifact).trans hl₂.artifact,
      (hkept .evidenceManifest).trans hl₂.evidence, (hkept .completionManifest).trans hl₂.marker⟩

/-- Four rows, and the outcomes of the order they come in. -/
theorem sample_counts {holds : ObjectKey → Bytes → World Bool → Prop} {w : World Bool} {run : UUID}
    {order : Bool} {result : MetSnapshotIngestionResult}
    (h : RunAgreement sampleService (sampleInputs run order) holds result w) :
    result.totalRecords = 4 ∧ ContractOutcome.members.map result.outcomeCounts =
      if order then [1, 1, 1, 1] else [0, 2, 1, 1] := by
  obtain ⟨downloaded, preflight, artifact, target, observedAt, keys, m, -, -, -, -, -, -, hagrees⟩ := h
  have hitems (context : MetEvidenceContext) :
      (sampleService.evidenceOf (sampleInputs run order) preflight context).items =
        sampleItems context (sampleInputs run order).recordIds order :=
    congrArg EvidenceIterable.items (sample_items _ _ order none)
  refine ⟨?_, ?_⟩
  · rw [hagrees.total, hagrees.lines.2.2]
    cases order <;> rfl
  · rw [hagrees.counts, hagrees.line_counts, hitems]
    exact sample_outcomes _ _ order

/-- Both runs return, each with the outcomes of its order, and agree with what they committed. -/
theorem run_agrees_sample : ∃ (c : Config Bool (machineSignature.sum httpSignature)
      ((Bool → MetDirectory) × World Bool) Exc MetSnapshotIngestionResult)
      (result : Bool → MetSnapshotIngestionResult),
    ((machineSystem Bool).prod (storeSystem Server.strict)).Reachable
      ⟨(fun _ => ⟨none, none⟩, World.initial fun _ => none),
        fun b => sampleService.run (sampleInputs (sampleRun b) b)⟩ c ∧
    ∀ b, c.procs b = .ret (result b) ∧
      RunAgreement sampleService (sampleInputs (sampleRun b) b) (SecuredBytes b) (result b)
        c.shared.2 ∧
      (result b).totalRecords = 4 ∧ ContractOutcome.members.map (result b).outcomeCounts =
        if b then [1, 1, 1, 1] else [0, 2, 1, 1] := by
  obtain ⟨c, result, hr, hret⟩ := sample_runs
  refine ⟨c, result, hr, fun b => ?_⟩
  have hagreement := (run_agrees (minio_keeps Server.strict b) hr rfl).1 _ (hret b).1
  exact ⟨(hret b).1, hagreement, sample_counts hagreement⟩

end Sample

end EvidenceCartographer.Sources.Met

import EvidenceCartographer.Sources.Met.Connections
import EvidenceCartographer.Sources.Met.Service

/-! One whole Met run over its HTTP client.

    `MetSnapshotIngestionService.run` has the downloader over the client's interface. Here the download
    is on the wire, and the rest of the run is as it is there: a history of the run stands for one at
    the interface, exchange by exchange, and the store sees the same of both. So whatever holds of
    every run at the interface holds of every run on the wire. -/

namespace EvidenceCartographer.Sources.Met

open Python Domain Application Infrastructure Concurrency

namespace MetSnapshotIngestionService

variable {S : Signature} (service : MetSnapshotIngestionService S)
  (urljoin : String → String → String) (inputs : RunInputs)

/-- `run`, inside its temporary directory. -/
def runInOverHttp (temporary : String) :
    Program (wireSignature.sum S) Exc MetSnapshotIngestionResult :=
  service.runInOn inputs onMachine (service.downloader.downloadOverHttp urljoin temporary)

/-- `run`. -/
def runOverHttp : Program (wireSignature.sum S) Exc MetSnapshotIngestionResult :=
  service.runOn inputs onMachine (service.downloader.downloadOverHttp urljoin)

end MetSnapshotIngestionService

/-- What the run does with its machine outside of the download. -/
def MachineOp.AroundDownload : MachineOp → Prop
  | .makeTemporary | .removeTemporary | .openTarget => True
  | _ => False

variable {S : Signature} {service : MetSnapshotIngestionService S}
  {urljoin : String → String → String} {inputs : RunInputs}

/-- An event of the machine of a run, on the wire. -/
def ownEvent (o : MachineOp) (x : machineSignature.Reply o) : (wireSignature.sum S).Event :=
  ⟨.inl (.inr (.machine o)), x⟩

section Realized

variable (S) (downloader : MetSnapshotDownloader) (urljoin : String → String → String)

/-- What a history of a run on the wire is at the interface. -/
inductive RunRealizes :
    List (wireSignature.sum S).Event → List (machineSignature.sum S).Event → Prop
  | nil : RunRealizes [] []
  | own (o : MachineOp) (x) : o.AroundDownload → RunRealizes [ownEvent o x] [⟨.inl o, x⟩]
  | download {events history} :
      MetSnapshotDownloader.Realizes downloader urljoin none events history →
      RunRealizes (events.map Program.inlEvent) (history.map Program.inlEvent)
  | store (event : S.Event) : RunRealizes [Program.inrEvent event] [Program.inrEvent event]
  | append {events events' history history'} : RunRealizes events history →
      RunRealizes events' history' → RunRealizes (events ++ events') (history ++ history')

def runWire : Correspondence (wireSignature.sum S) (machineSignature.sum S) where
  Rel := RunRealizes S downloader urljoin
  nil := .nil
  append := .append

end Realized

theorem implements_download (destination : String) :
    Program.Implements (service.downloader.wire urljoin none)
      (service.downloader.downloadOverHttp urljoin destination)
      (service.downloader.download destination) := by
  refine Program.Implements.bind MetSnapshotDownloader.implements_run fun result => ?_
  cases result with
  | downloaded snapshot => exact Program.implements_ret snapshot
  | notModified answer => exact Program.implements_raise _

/-- A call to the machine outside of the download. -/
theorem implements_own {α : Type} (o : MachineOp) (ho : o.AroundDownload)
    {f : machineSignature.Reply o → Except Exc α} :
    Program.Implements (runWire S service.downloader urljoin)
      (onMachine (.call o fun x => .ofExcept (f x))).inl (.inl (.call o fun x => .ofExcept (f x))) := by
  refine Program.implements_inl fun events r htrace => ?_
  obtain ⟨own, rfl, hown⟩ := trace_onMachine.mp htrace
  refine ⟨own, hown, ?_⟩
  obtain ⟨x, rfl, -⟩ := Program.trace_reply.mp hown
  exact .own o x ho

theorem implements_runIn (temporary : String) :
    Program.Implements (runWire S service.downloader urljoin)
      (service.runInOverHttp urljoin inputs temporary) (service.runIn inputs temporary) := by
  have hdownload : Program.Implements (runWire S service.downloader urljoin)
      (service.downloader.downloadOverHttp urljoin temporary).inl
      (service.downloader.download temporary).inl := by
    refine Program.implements_inl fun events r htrace => ?_
    obtain ⟨history, hdownload, hrealizes⟩ := implements_download temporary htrace
    exact ⟨history, hdownload, .download hrealizes⟩
  have hopen : Program.Implements (runWire S service.downloader urljoin)
      (onMachine (.call .openTarget fun x => .ofExcept (.ok x)) : Program wireSignature Exc LocalFile).inl
      (.inl (.call .openTarget fun x => .ofExcept (.ok x))) := implements_own .openTarget trivial
  refine hdownload.bind fun downloaded => ?_
  refine (Program.implements_ofExcept _).bind fun preflight => ?_
  refine (Program.implements_ofExcept _).bind fun artifact => ?_
  refine (Program.implements_ofExcept _).bind fun target => ?_
  refine (Program.implements_ofExcept _).bind fun observedAt => ?_
  refine hopen.bind fun file => ?_
  have hstore (event : S.Event) : (runWire S service.downloader urljoin).Rel
      [Program.inrEvent event] [Program.inrEvent event] := RunRealizes.store event
  refine (Program.implements_inr hstore _).bind fun receipt => ?_
  exact Program.implements_ret _

/-- What the store sees of a history of a run. -/
def storeEvents {T : Signature} (events : List (T.sum S).Event) : List S.Event :=
  events.filterMap fun
    | ⟨.inl _, _⟩ => none
    | ⟨.inr o, x⟩ => some ⟨o, x⟩

@[simp] theorem storeEvents_nil {T : Signature} :
    storeEvents ([] : List (T.sum S).Event) = [] := rfl

@[simp] theorem storeEvents_append {T : Signature} (events events' : List (T.sum S).Event) :
    storeEvents (events ++ events') = storeEvents events ++ storeEvents events' :=
  List.filterMap_append

@[simp] theorem storeEvents_own (o : MachineOp) (x : machineSignature.Reply o)
    (events : List (wireSignature.sum S).Event) :
    storeEvents (ownEvent o x :: events) = storeEvents events := rfl

@[simp] theorem storeEvents_inlEvent {T : Signature} (events : List T.Event) :
    storeEvents (events.map Program.inlEvent : List (T.sum S).Event) = [] := by
  induction events with
  | nil => rfl
  | cons event events ih => exact ih

@[simp] theorem storeEvents_inrEvent {T : Signature} (events : List S.Event) :
    storeEvents (events.map Program.inrEvent : List (T.sum S).Event) = events := by
  induction events with
  | nil => rfl
  | cons event events ih => exact congrArg (event :: ·) ih

/-- The store sees on the wire what it sees at the interface. -/
theorem RunRealizes.storeEvents_eq {downloader : MetSnapshotDownloader}
    {events : List (wireSignature.sum S).Event} {history : List (machineSignature.sum S).Event}
    (h : RunRealizes S downloader urljoin events history) :
    storeEvents events = storeEvents history := by
  induction h with
  | nil | own | store => rfl
  | download h => simp
  | append _ _ ih ih' => simp [ih, ih']

namespace MetSnapshotIngestionService

theorem implements_run : Program.Implements (runWire S service.downloader urljoin)
    (service.runOverHttp urljoin inputs) (service.run inputs) :=
  (implements_own .makeTemporary trivial).bind fun temporary =>
    (implements_runIn temporary).ensuring (implements_own .removeTemporary trivial)

/-- A run on the wire is a run at the interface: whatever the connections do, it ends as one whose
    client answers each request whole, and the store sees the same of both. -/
theorem serviceOverHttp_implements_run {events : List (wireSignature.sum S).Event}
    {r : Except Exc MetSnapshotIngestionResult}
    (h : (service.runOverHttp urljoin inputs).Trace events r) :
    ∃ history, (service.run inputs).Trace history r ∧
      RunRealizes S service.downloader urljoin events history ∧
      storeEvents events = storeEvents history := by
  obtain ⟨history, htrace, hrealizes⟩ := implements_run h
  exact ⟨history, htrace, hrealizes, RunRealizes.storeEvents_eq hrealizes⟩

end MetSnapshotIngestionService

theorem trace_downloadOverHttp {downloader : MetSnapshotDownloader} {destination : String}
    {wire : WireHistory} {snapshot : DownloadedMetSnapshot}
    (h : (downloader.runOverHttp urljoin destination none).Trace wire (.ok (.downloaded snapshot))) :
    (downloader.downloadOverHttp urljoin destination).Trace wire (.ok snapshot) := by
  have hreturned : (downloader.downloadOverHttp urljoin destination).Trace (wire ++ []) (.ok snapshot) :=
    .bind h ⟨rfl, rfl⟩
  rwa [List.append_nil] at hreturned

/-- A run that meets no obstacle up to its store ends as the store does. -/
theorem trace_runOverHttp {temporary : String} {wire : WireHistory} {downloaded : DownloadedMetSnapshot}
    {preflight : MetCsvPreflightResult} {artifact : BronzeArtifact} {target : BronzeBundleTarget}
    {observedAt : AwareDatetime} {file : LocalFile} {receipt : BronzeBundleReceipt}
    (hdownload : (service.downloader.downloadOverHttp urljoin temporary).Trace wire (.ok downloaded))
    (hpreflight : inspect inputs.header = .ok preflight)
    (hartifact : service.artifactOf inputs downloaded = .ok artifact)
    (htarget : service.bronzeStore.targetFor artifact = .ok target)
    (hobserved : inputs.observedAt = .ok observedAt)
    (hstore : ∃ sent, (service.bronzeStore.storeBundle ⟨file, inputs.artifactSpool,
      inputs.evidenceSpool⟩ artifact (service.evidenceOf inputs preflight
        (service.contextOf inputs downloaded target observedAt)) preflight.contractMessages).Trace sent
      (.ok receipt)) :
    ∃ (sent : List S.Event) (result : MetSnapshotIngestionResult), result.receipt = receipt ∧
      (service.runOverHttp urljoin inputs).Trace (ownEvent .makeTemporary (.ok temporary) ::
        (wire.map Program.inlEvent ++ ownEvent .openTarget file :: sent.map Program.inrEvent ++
          [ownEvent .removeTemporary (.ok ())])) (.ok result) := by
  obtain ⟨sent, hstore⟩ := hstore
  have hopen : ((onMachine (.call .openTarget .ret) : Program wireSignature Exc LocalFile).inl :
      Program (wireSignature.sum S) Exc LocalFile).Trace [ownEvent .openTarget file] (.ok file) :=
    .call ⟨rfl, rfl⟩
  have hstored : ∃ result, result.receipt = receipt ∧
      (service.runInOverHttp urljoin inputs temporary).Trace (wire.map Program.inlEvent ++
        ([ownEvent .openTarget file] ++ (sent.map Program.inrEvent ++ []))) (.ok result) := by
    refine ⟨_, ?_, .bind (Program.trace_inl.mpr ⟨wire, rfl, hdownload⟩) (.bind_ofExcept hpreflight
      (.bind_ofExcept hartifact (.bind_ofExcept htarget (.bind_ofExcept hobserved
        (.bind hopen (.bind (Program.trace_inr.mpr ⟨sent, rfl, hstore⟩) ⟨rfl, rfl⟩))))))⟩
    rfl
  rw [List.append_nil] at hstored
  obtain ⟨result, hreceipt, hstored⟩ := hstored
  refine ⟨sent, result, hreceipt, .call (Program.trace_ensuring.mpr
    ⟨_, _, _, .ok (), rfl, hstored, ?_, rfl⟩)⟩
  exact .call ⟨rfl, rfl⟩

section Sample

variable (run : UUID) (order : Bool)

def sampleTarget : BronzeBundleTarget :=
  ⟨objectUri "lake" (sampleKeysOf run csv).artifact,
    objectUri "lake" (sampleKeysOf run csv).evidenceManifest,
    objectUri "lake" (sampleKeysOf run csv).completionManifest⟩

/-- The file of the sample table, after a redirect. -/
def sampleRawSnapshot : DownloadedMetSnapshot :=
  sampleRaw (sampleCsv order) (sampleCsv_nonempty order)

theorem sampleRaw_download : (sampleService.downloader.downloadOverHttp (· ++ ·) "/tmp/met").Trace
    (sampleWire (sampleCsvChunks order)) (.ok (sampleRawSnapshot order)) :=
  trace_downloadOverHttp (sample_wire (sampleCsvChunks_ne order) (sampleCsvChunks_flatten order) _
    (sampleCsv_fits order))

theorem sampleRaw_artifact :
    sampleService.artifactOf (sampleInputs run order) (sampleRawSnapshot order) =
      .ok (sampleMetArtifact run order) := by
  have hmedia : (sampleRawSnapshot order).mediaType = "text/csv" := rfl
  rw [MetSnapshotIngestionService.artifactOf, dif_pos ⟨by rw [hmedia]; decide, by decide⟩]
  rfl

theorem sampleRaw_target :
    sampleService.bronzeStore.targetFor (sampleMetArtifact run order) = .ok (sampleTarget run) :=
  (sampleMetBundle run order).store.targetFor_eq (sampleMet_keys run order)

/-- The sample call stores what was downloaded after a redirect: the two downloads differ in their last
    URL only. -/
theorem sampleRaw_stored {ι : Type} [DecidableEq ι] (i : ι) {w : World ι}
    (hfree : ∀ name ∈ (sampleKeysOf run csv).toList, w.objects ("lake", name) = none) :
    ∃ w', (storeSystem Server.strict).Runs i
      (sampleService.bronzeStore.storeBundle
        ⟨(sampleMetBundle run order).staging.file, (sampleInputs run order).artifactSpool,
          (sampleInputs run order).evidenceSpool⟩
        (sampleMetArtifact run order) (sampleService.evidenceOf (sampleInputs run order)
          samplePreflight (sampleService.contextOf (sampleInputs run order) (sampleRawSnapshot order)
            (sampleTarget run) sampleInstant)) samplePreflight.contractMessages)
      w (.ok (sampleMetPlan run order).receipt) w' ∧
      w.BundleLanded i (sampleMetPlan run order) (.ok (plainResponse 200)) w' := by
  obtain ⟨w', hstore, hlanded⟩ := runs_storeBundle_committed (i := i) Server.strict_grants
    (sampleMetPlan_ready run order) hfree
  have hcontext : sampleService.contextOf (sampleInputs run order) (sampleRawSnapshot order)
      (sampleTarget run) sampleInstant = sampleService.contextOf (sampleInputs run order)
        (sampleSnapshot order) (sampleTarget run) sampleInstant := rfl
  rw [hcontext]
  exact ⟨w', hstore, hlanded⟩

/-- A sample run, after a redirect. -/
theorem sample_overHttp : ∃ (events : List (wireSignature.sum httpSignature).Event)
    (result : MetSnapshotIngestionResult),
    (sampleService.runOverHttp (· ++ ·) (sampleInputs run order)).Trace events (.ok result) := by
  obtain ⟨w', hstored, -⟩ := sampleRaw_stored run order () (w := World.initial fun _ => none)
    fun _ _ => rfl
  obtain ⟨sent, result, -, htrace⟩ := trace_runOverHttp (sampleRaw_download order)
    (sample_preflight run order) (sampleRaw_artifact run order) (sampleRaw_target run order) rfl
    hstored.trace
  exact ⟨_, result, htrace⟩

end Sample

/-- The sample run on the wire ends as a run at the interface. -/
theorem serviceOverHttp_implements_run_sample : ∃ events result history,
    (sampleService.runOverHttp (· ++ ·) (sampleInputs sampleId true)).Trace events (.ok result) ∧
      (sampleService.run (sampleInputs sampleId true)).Trace history (.ok result) ∧
      storeEvents events = storeEvents history := by
  obtain ⟨events, result, htrace⟩ := sample_overHttp sampleId true
  obtain ⟨history, hhistory, -, hseen⟩ :=
    MetSnapshotIngestionService.serviceOverHttp_implements_run htrace
  exact ⟨events, result, history, htrace, hhistory, hseen⟩

end EvidenceCartographer.Sources.Met

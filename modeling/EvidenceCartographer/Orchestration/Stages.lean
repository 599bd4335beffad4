import EvidenceCartographer.Infrastructure.BundleTraffic
import EvidenceCartographer.Orchestration.Met
import EvidenceCartographer.Sources.Met.ServiceOverHttp

/-! The stages of a Met run, on the wire.

    A run makes its directory, downloads over connections of its own, opens the file, talks to the
    store, and removes the directory. Whatever is answered, no stage begins before the one before it
    was completed, and none is entered twice: when the store is first spoken to the download has let
    go of its connections, and the directory is removed after the last request, however the run
    ends. -/

namespace EvidenceCartographer.Orchestration

open Python Domain Application Infrastructure Concurrency Sources.Met

variable {service : MetSnapshotIngestionService httpSignature} {urljoin : String → String → String}
  {inputs : RunInputs}

abbrev FlowHistory := List (wireSignature.sum httpSignature).Event

/-- What a run does between its download and the removal of its directory, as the download ended:
    nothing after one that failed, nor for a snapshot that it has no call for; otherwise it opens the
    file and makes one `store_bundle` call for the snapshot that was downloaded. -/
inductive Storing (service : MetSnapshotIngestionService httpSignature) (inputs : RunInputs) :
    Except Exc DownloadedMetSnapshot → FlowHistory → Except Exc MetSnapshotIngestionResult → Prop where
  | failed (exc) : Storing service inputs (.error exc) [] (.error exc)
  | stopped (downloaded exc) : (∀ file call, ¬ CallFor service inputs downloaded file call) →
      Storing service inputs (.ok downloaded) [] (.error exc)
  | raised {downloaded file call} (sent : List httpSignature.Event) (exc) :
      CallFor service inputs downloaded file call →
      Traffic call (sent.filterMap messageOf) (.error exc) →
      Storing service inputs (.ok downloaded)
        (ownEvent .openTarget file :: sent.map Program.inrEvent) (.error exc)
  | stored {downloaded file call} (sent : List httpSignature.Event) {receipt}
      (result : MetSnapshotIngestionResult) : CallFor service inputs downloaded file call →
      Traffic call (sent.filterMap messageOf) (.ok receipt) → result.receipt = receipt →
      Storing service inputs (.ok downloaded)
        (ownEvent .openTarget file :: sent.map Program.inrEvent) (.ok result)

/-- What the store is sent and answers in a history of a run. -/
def storeMessages (events : FlowHistory) : List Message :=
  (storeEvents events).filterMap messageOf

theorem Storing.counts {events : FlowHistory} {downloading : Except Exc DownloadedMetSnapshot}
    {r : Except Exc MetSnapshotIngestionResult} (h : Storing service inputs downloading events r) :
    (storeMessages events).countP Message.isPut ≤ 9 ∧
      (storeMessages events).countP Message.isRequest ≤ 21 := by
  have hsent {call : BundleCall} {file : LocalFile} {sent : List httpSignature.Event}
      {outcome : Except Exc BronzeBundleReceipt} (h : Traffic call (sent.filterMap messageOf) outcome) :
      (storeMessages (ownEvent .openTarget file :: sent.map Program.inrEvent)).countP
          Message.isPut ≤ 9 ∧
        (storeMessages (ownEvent .openTarget file :: sent.map Program.inrEvent)).countP
          Message.isRequest ≤ 21 := by
    have hseen : storeMessages (ownEvent .openTarget file :: sent.map Program.inrEvent) =
        sent.filterMap messageOf := congrArg (·.filterMap messageOf) (storeEvents_inrEvent sent)
    rw [hseen]
    exact h.counts
  cases h with
  | failed exc => simp [storeMessages]
  | stopped downloaded exc => simp [storeMessages]
  | raised sent exc _ h => exact hsent h
  | stored sent result _ h => exact hsent h

/-- By the stages between the download and the store: each may stop the run, and then it has no call. -/
theorem storing_of_trace (hstore : OverMinio service) {downloaded : DownloadedMetSnapshot}
    {events : FlowHistory} {r : Except Exc MetSnapshotIngestionResult}
    (h : (service.storing inputs onMachine downloaded).Trace events r) :
    Storing service inputs (.ok downloaded) events r := by
  rcases h.cases_ofExcept with ⟨preflight, hpreflight, hparsed⟩ | ⟨exc, hpreflight, rfl, rfl⟩
  swap
  · refine .stopped downloaded exc fun file call hcall => ?_
    cases hcall with
    | mk hpreflight' => cases hpreflight.symm.trans hpreflight'
  rcases hparsed.cases_ofExcept with ⟨artifact, hartifact, hbuilt⟩ | ⟨exc, hartifact, rfl, rfl⟩
  swap
  · refine .stopped downloaded exc fun file call hcall => ?_
    cases hcall with
    | mk _ hartifact' => cases hartifact.symm.trans hartifact'
  rcases hbuilt.cases_ofExcept with ⟨target, htarget, htargeted⟩ | ⟨exc, htarget, rfl, rfl⟩
  swap
  · refine .stopped downloaded exc fun file call hcall => ?_
    cases hcall with
    | mk _ hartifact' htarget' =>
      cases hartifact.symm.trans hartifact'
      cases htarget.symm.trans htarget'
  rcases htargeted.cases_ofExcept with ⟨observedAt, hobserved, hready⟩ | ⟨exc, hobserved, rfl, rfl⟩
  swap
  · refine .stopped downloaded exc fun file call hcall => ?_
    cases hcall with
    | mk _ _ _ hobserved' => cases hobserved.symm.trans hobserved'
  obtain ⟨file, stored, rfl, hstored⟩ := hready
  have hcall : CallFor service inputs downloaded file _ :=
    .mk hpreflight hartifact htarget hobserved
  have hcalled : ((service.bronzeStore.storeBundle ⟨file, inputs.artifactSpool, inputs.evidenceSpool⟩
      artifact (service.evidenceOf inputs preflight (service.contextOf inputs downloaded target
        observedAt)) preflight.contractMessages).inr.bind _).Trace stored r := hstored
  rw [hstore.storeBundle_eq] at hcalled
  obtain ⟨before, after, outcome, rfl, htalk, hreturn⟩ := Program.trace_bind.mp hcalled
  obtain ⟨sent, rfl, hsent⟩ := Program.trace_inr.mp htalk
  have htraffic := traffic_of_emits hsent.emits
  rcases outcome with exc | receipt
  · obtain ⟨rfl, rfl⟩ := hreturn
    rw [List.append_nil]
    exact .raised sent exc hcall htraffic
  · obtain ⟨rfl, rfl⟩ := hreturn
    rw [List.append_nil]
    exact .stored sent _ hcall htraffic rfl

theorem stages_of_runIn (hstore : OverMinio service) {temporary : String} {events : FlowHistory}
    {r : Except Exc MetSnapshotIngestionResult}
    (h : (service.runInOverHttp urljoin inputs temporary).Trace events r) :
    ∃ wire downloading rest, events = wire.map Program.inlEvent ++ rest ∧
      (service.downloader.downloadOverHttp urljoin temporary).Trace wire downloading ∧
      service.downloader.Conduct wire ∧ Storing service inputs downloading rest r := by
  obtain ⟨before, rest, downloading, rfl, hdownload, hrest⟩ := Program.trace_bind.mp h
  obtain ⟨wire, rfl, hwire⟩ := Program.trace_inl.mp hdownload
  refine ⟨wire, downloading, rest, rfl, hwire, ?_, ?_⟩
  · obtain ⟨sent, after, r₁, rfl, hrun, hafter⟩ := Program.trace_bind.mp hwire
    have hquiet : after = [] := by
      rcases r₁ with exc | snapshot | answer
      · exact hafter.1
      · exact hafter.1
      · exact hafter.1
    rw [hquiet, List.append_nil]
    exact MetSnapshotDownloader.conduct_of_run hrun
  · rcases downloading with exc | downloaded
    · obtain ⟨rfl, rfl⟩ := hrest
      exact .failed exc
    · exact storing_of_trace hstore hrest

/-- Whatever is answered, a run makes its directory, downloads within the protocol of its one
    connection, makes at most one `store_bundle` call, for what that download returned, and removes the
    directory last; it sends no more requests than its attempts and redirects, and those of the call,
    take. -/
theorem flow_stages (hstore : OverMinio service) {events : FlowHistory}
    {r : Except Exc MetSnapshotIngestionResult}
    (h : (service.runOverHttp urljoin inputs).Trace events r) :
    (∃ exc, events = [ownEvent .makeTemporary (.error exc)] ∧ r = .error exc) ∨
    ∃ (temporary : String) (wire : WireHistory) (downloading : Except Exc DownloadedMetSnapshot)
      (rest : FlowHistory) (ended : Except Exc MetSnapshotIngestionResult) (removed : Except Exc Unit),
      events = ownEvent .makeTemporary (.ok temporary) :: (wire.map Program.inlEvent ++ rest ++
        [ownEvent .removeTemporary removed]) ∧
      (service.downloader.downloadOverHttp urljoin temporary).Trace wire downloading ∧
      Protocol.Accepts Connection.step .idle wire .idle ∧
      wire.countP isGet ≤ service.downloader.maxAttempts * (defaultMaxRedirects + 1) ∧
      (bodyReads wire).length ≤ service.downloader.maxAttempts * (service.downloader.ceiling + 1) ∧
      Storing service inputs downloading rest ended ∧
      (storeMessages events).countP Message.isPut ≤ 9 ∧
      (storeMessages events).countP Message.isRequest ≤ 21 ∧
      (removed = .ok () → r = ended) ∧ ∀ exc, removed = .error exc → r = .error exc := by
  obtain ⟨made, after, rfl, hrun⟩ := h
  rcases made with exc | temporary
  · obtain ⟨rfl, rfl⟩ := hrun
    exact .inl ⟨exc, rfl, rfl⟩
  right
  obtain ⟨inside, cleanup, ended, removed, rfl, hinside, hcleanup, rfl⟩ :=
    Program.trace_ensuring.mp hrun
  obtain ⟨own, rfl, hown⟩ := Program.trace_inl.mp hcleanup
  obtain ⟨removal, rfl, hremoved⟩ := trace_onMachine.mp hown
  obtain ⟨_, rfl, rfl⟩ := Program.trace_reply.mp hremoved
  obtain ⟨wire, downloading, rest, rfl, hdownload, hconduct, hstoring⟩ :=
    stages_of_runIn hstore hinside
  have hmessages : storeMessages (ownEvent .makeTemporary (.ok temporary) ::
      (wire.map Program.inlEvent ++ rest ++ [ownEvent .removeTemporary removed])) =
      storeMessages rest := by
    simp [storeMessages]
  obtain ⟨hputs, hrequests⟩ := hstoring.counts
  rw [← hmessages] at hputs hrequests
  refine ⟨temporary, wire, downloading, rest, ended, removed, rfl, hdownload, hconduct.connection,
    hconduct.gets, hconduct.reads, hstoring, hputs, hrequests, ?_, ?_⟩
  · rintro rfl
    rfl
  · rintro exc rfl
    rfl

/-- A sample run on the wire: it returns, so its download did, and it has stored what was downloaded. -/
theorem flow_stages_sample : ∃ (result : MetSnapshotIngestionResult) (temporary : String)
    (wire : WireHistory) (downloaded : DownloadedMetSnapshot) (file : LocalFile) (call : BundleCall)
    (sent : List httpSignature.Event),
    (sampleService.runOverHttp (· ++ ·) (sampleInputs sampleId true)).Trace
        (ownEvent .makeTemporary (.ok temporary) :: (wire.map Program.inlEvent ++
          ownEvent .openTarget file :: sent.map Program.inrEvent ++
          [ownEvent .removeTemporary (.ok ())])) (.ok result) ∧
      (sampleDownloader.downloadOverHttp (· ++ ·) temporary).Trace wire (.ok downloaded) ∧
      Protocol.Accepts Connection.step .idle wire .idle ∧
      CallFor sampleService (sampleInputs sampleId true) downloaded file call ∧
      Traffic call (sent.filterMap messageOf) (.ok result.receipt) := by
  obtain ⟨events, result, htrace⟩ := sample_overHttp sampleId true
  have hstore : OverMinio sampleService := rfl
  rcases flow_stages hstore htrace with ⟨exc, -, hr⟩ | ⟨temporary, wire, downloading, rest, ended,
    removed, rfl, hdownload, haccepted, -, -, hstoring, -, -, hended, hfailed⟩
  · cases hr
  rcases removed with exc | ⟨⟨⟩⟩
  · cases hfailed exc rfl
  obtain rfl := hended rfl
  cases hstoring with
  | stored sent result hcall htraffic hreceipt =>
    exact ⟨result, temporary, wire, _, _, _, sent, htrace, hdownload, haccepted, hcall,
      hreceipt ▸ htraffic⟩

end EvidenceCartographer.Orchestration

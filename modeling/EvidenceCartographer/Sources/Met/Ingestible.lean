import EvidenceCartographer.Sources.Met.RetryProtocol
import EvidenceCartographer.Sources.Met.Service

/-! Which downloads the Bronze models accept.

    The downloader takes the media type of a snapshot from a header, and has a default for a response
    without that header. The artifact model refuses an empty media type, the snapshot model does not:
    so a snapshot is ingested unless its response gave the header with nothing in it. -/

namespace EvidenceCartographer.Sources.Met

open Python Domain Application Infrastructure Concurrency

/-- What a response gives for `Content-Type`, if anything. -/
def StreamingHttpResponse.contentType (response : StreamingHttpResponse) : Option String :=
  (normalizedHeaders response.headers).lookup "content-type"

/-- The last request was answered with this response, and its status is 200. -/
def AnsweredLast (history : MachineHistory) (response : StreamingHttpResponse) : Prop :=
  response.status = 200 ∧ ∃ before url headers rest,
    history = before ++ ⟨.request url headers, .ok response⟩ :: rest ∧ ∀ event ∈ rest, event.1.Local

theorem AnsweredLast.append {history : MachineHistory} {response : StreamingHttpResponse}
    (h : AnsweredLast history response) (past : MachineHistory) :
    AnsweredLast (past ++ history) response := by
  obtain ⟨hstatus, before, url, headers, rest, rfl, hrest⟩ := h
  exact ⟨hstatus, past ++ before, url, headers, rest, (List.append_assoc ..).symm, hrest⟩

section Download

variable {downloader : MetSnapshotDownloader} {destination : String}
  {conditional : Option MetSnapshotConditional} {response : StreamingHttpResponse}
  {history : MachineHistory} {result : DownloadResult} {snapshot : DownloadedMetSnapshot}

namespace MetSnapshotDownloader

theorem receiveSnapshot_mediaType
    (h : (downloader.receiveSnapshot destination response).Trace history (.ok (.downloaded snapshot))) :
    snapshot.mediaType = response.contentType.getD "text/csv" := by
  obtain ⟨_, _, expectedLength, rfl, -, h⟩ := Program.trace_bind_ok.mp h
  obtain ⟨_, _, _, rfl, -, h⟩ := Program.trace_bind_ok.mp h
  obtain ⟨_, _, received, rfl, -, h⟩ := Program.trace_bind_ok.mp h
  dsimp only at h
  split at h
  · cases h.2
  obtain ⟨_, _, _, rfl, -, h⟩ := Program.trace_bind_ok.mp h
  obtain ⟨_, _, _, rfl, -, h⟩ := Program.trace_bind_ok.mp h
  obtain ⟨_, _, retrievedAt, rfl, -, h⟩ := Program.trace_bind_ok.mp h
  cases h.2
  rfl

theorem receive_downloaded
    (h : (downloader.receive destination conditional response).Trace history
      (.ok (.downloaded snapshot))) :
    response.status = 200 ∧ snapshot.mediaType = response.contentType.getD "text/csv" := by
  unfold receive receiveOn at h
  split at h
  · obtain ⟨_, _, _, -, -, h⟩ := Program.trace_bind_ok.mp h
    cases h.2
  split at h
  · cases h.2
  split at h
  · cases h.2
  · rename_i hstatus
    exact ⟨not_not.mp hstatus, receiveSnapshot_mediaType h⟩

theorem attempt_downloaded
    (h : (downloader.attempt destination conditional).Trace history (.ok (.downloaded snapshot))) :
    ∃ response, AnsweredLast history response ∧
      snapshot.mediaType = response.contentType.getD "text/csv" := by
  rcases attempt_trace h with ⟨exc, -, hraised⟩ | ⟨response, rest, rfl, hrest⟩
  · cases hraised
  · have hlocal := hrest.calls (.ensuring (receive_local response) (Program.calls_reply trivial))
    obtain ⟨before, after, r₁, cleaned, rfl, hreceive, -, hr⟩ := Program.trace_ensuring.mp hrest
    have hr₁ : r₁ = .ok (.downloaded snapshot) := by
      rcases cleaned with exc | ⟨⟨⟩⟩
      · cases hr
      · exact hr.symm
    subst hr₁
    obtain ⟨hstatus, hmedia⟩ := receive_downloaded hreceive
    exact ⟨response, ⟨hstatus, [], _, _, _, rfl, hlocal⟩, hmedia⟩

/-- By induction on the attempts that remain: the last of them is the one that downloaded. -/
theorem attempts_downloaded {remaining number : Nat}
    (h : (downloader.attempts destination conditional remaining number).Trace history
      (.ok (.downloaded snapshot))) :
    ∃ response, AnsweredLast history response ∧
      snapshot.mediaType = response.contentType.getD "text/csv" := by
  induction remaining generalizing number history with
  | zero => cases h.2
  | succ remaining ih =>
    rw [attempts_succ] at h
    obtain ⟨tried, handled, r₁, rfl, htried, hhandled⟩ := Program.trace_handle.mp h
    rcases r₁ with exc | result
    · obtain ⟨unlinked, rest, _, rfl, -, hrest⟩ := Program.trace_bind_ok.mp hhandled
      split at hrest
      · cases hrest.2
      split at hrest
      · obtain ⟨asked, rest, decision, rfl, -, hrest⟩ := Program.trace_bind_ok.mp hrest
        cases decision with
        | retry =>
          obtain ⟨response, hanswered, hmedia⟩ := ih hrest
          exact ⟨response, ((hanswered.append _).append _).append _, hmedia⟩
        | stop => cases hrest.2
      · cases hrest.2
    · obtain ⟨rfl, hresult⟩ := hhandled
      cases hresult
      obtain ⟨unlinked, rest, _, rfl, -, hrest⟩ := Program.trace_bind_ok.mp htried
      obtain ⟨response, hanswered, hmedia⟩ := attempt_downloaded hrest
      rw [List.append_nil]
      exact ⟨response, hanswered.append _, hmedia⟩

/-- A snapshot has the media type of the response it was received from, or the default. -/
theorem download_mediaType
    (h : (downloader.download destination).Trace history (.ok snapshot)) :
    ∃ response, AnsweredLast history response ∧
      snapshot.mediaType = response.contentType.getD "text/csv" := by
  obtain ⟨ran, rest, result, rfl, hrun, hrest⟩ := Program.trace_bind_ok.mp h
  rcases result with downloaded | answer
  · obtain ⟨rfl, hok⟩ := hrest
    cases hok
    obtain ⟨made, rest, _, rfl, -, hattempts⟩ := Program.trace_bind_ok.mp hrun
    obtain ⟨response, hanswered, hmedia⟩ := attempts_downloaded hattempts
    rw [List.append_nil]
    exact ⟨response, hanswered.append _, hmedia⟩
  · cases hrest.2

end MetSnapshotDownloader

end Download

/-- A media type that is not empty is all the artifact model asks of a snapshot. -/
theorem artifactOf_ok_iff {S : Signature} {service : MetSnapshotIngestionService S}
    {inputs : RunInputs} {snapshot : DownloadedMetSnapshot} (hversion : service.contractVersion ≠ "") :
    (∃ artifact, service.artifactOf inputs snapshot = .ok artifact) ↔ snapshot.mediaType ≠ "" := by
  unfold MetSnapshotIngestionService.artifactOf
  constructor
  · rintro ⟨artifact, h⟩
    split at h
    · rename_i hmodel
      exact hmodel.1
    · cases h
  · intro hmedia
    exact ⟨_, dif_pos ⟨hmedia, hversion⟩⟩

section Run

variable {S : Signature} {service : MetSnapshotIngestionService S} {inputs : RunInputs}
  {temporary : String} {downloads : MachineHistory} {snapshot : DownloadedMetSnapshot}
  {preflight : MetCsvPreflightResult} {exc : Exc}

/-- A run whose artifact is refused ends there, before any call to the store. -/
theorem runIn_refused
    (hdownload : (service.downloader.download temporary).Trace downloads (.ok snapshot))
    (hpreflight : inspect inputs.header = .ok preflight)
    (hrefused : service.artifactOf inputs snapshot = .error exc) :
    (service.runIn inputs temporary).Trace (downloads.map Program.inlEvent) (.error exc) := by
  refine Program.trace_bind.mpr ⟨_, [], .ok snapshot, (List.append_nil _).symm,
    Program.trace_inl.mpr ⟨downloads, rfl, hdownload⟩, ?_⟩
  dsimp only
  rw [MetSnapshotIngestionService.storing, hpreflight, hrefused]
  exact ⟨rfl, rfl⟩

theorem run_refused (hdownload : (service.downloader.download temporary).Trace downloads (.ok snapshot))
    (hpreflight : inspect inputs.header = .ok preflight)
    (hrefused : service.artifactOf inputs snapshot = .error exc) :
    (service.run inputs).Trace (⟨.inl .makeTemporary, .ok temporary⟩ ::
      (downloads.map Program.inlEvent ++ [⟨.inl .removeTemporary, .ok ()⟩])) (.error exc) := by
  refine .call (Program.trace_ensuring.mpr ⟨_, _, _, .ok (), rfl,
    runIn_refused hdownload hpreflight hrefused, ?_, rfl⟩)
  exact .call ⟨rfl, rfl⟩

/-- What a run whose artifact is refused can do: it removes its directory. -/
theorem rest_of_refused {rest : List (machineSignature.sum S).Event}
    {r : Except Exc MetSnapshotIngestionResult}
    (h : (service.run inputs).Trace (⟨.inl .makeTemporary, .ok temporary⟩ ::
      (downloads.map Program.inlEvent ++ rest)) r)
    (hdownload : (service.downloader.download temporary).Trace downloads (.ok snapshot))
    (hpreflight : inspect inputs.header = .ok preflight)
    (hrefused : service.artifactOf inputs snapshot = .error exc) :
    ∃ removed, rest = [⟨.inl .removeTemporary, removed⟩] ∧ (removed = .ok () → r = .error exc) := by
  obtain ⟨x, events, hevents, h⟩ := h
  obtain ⟨hmade, rfl⟩ := List.cons.inj hevents
  cases hmade
  obtain ⟨before, after, r₁, removed, hsplit, hrun, hremove, rfl⟩ := Program.trace_ensuring.mp h
  obtain ⟨rfl, rfl⟩ :=
    Program.Trace.unique (runIn_refused hdownload hpreflight hrefused) hrun hsplit
  obtain rfl := List.append_cancel_left hsplit
  obtain ⟨own, rfl, hremoved⟩ := Program.trace_inl.mp hremove
  obtain ⟨_, rfl, rfl⟩ := Program.trace_reply.mp hremoved
  refine ⟨removed, rfl, ?_⟩
  rintro rfl
  rfl

/-- For every run that has downloaded a snapshot: its artifact is built if and only if the response
    did not give an empty `Content-Type`; and if it did, the run raises the model's error with no call
    to the store. -/
theorem run_ingests_iff {rest : List (machineSignature.sum S).Event}
    {r : Except Exc MetSnapshotIngestionResult}
    (h : (service.run inputs).Trace (⟨.inl .makeTemporary, .ok temporary⟩ ::
      (downloads.map Program.inlEvent ++ rest)) r)
    (hdownload : (service.downloader.download temporary).Trace downloads (.ok snapshot))
    (hversion : service.contractVersion ≠ "") (hpreflight : inspect inputs.header = .ok preflight) :
    ∃ response, AnsweredLast downloads response ∧
      ((∃ artifact, service.artifactOf inputs snapshot = .ok artifact) ↔
        response.contentType ≠ some "") ∧
      (response.contentType = some "" → ∃ removed, rest = [⟨.inl .removeTemporary, removed⟩] ∧
        (removed = .ok () → r = .error (validationError "BronzeArtifact"))) := by
  obtain ⟨response, hanswered, hmedia⟩ := MetSnapshotDownloader.download_mediaType hdownload
  have hempty : snapshot.mediaType = "" ↔ response.contentType = some "" := by
    rw [hmedia]
    rcases response.contentType with _ | value
    · simp
    · simp
  refine ⟨response, hanswered, (artifactOf_ok_iff hversion).trans (not_congr hempty), fun htype => ?_⟩
  refine rest_of_refused h hdownload hpreflight ?_
  unfold MetSnapshotIngestionService.artifactOf
  rw [dif_neg (fun hmodel => hmodel.1 (hempty.mpr htype))]

end Run

/-- A body with a header of no media type. -/
def untypedResponse : StreamingHttpResponse :=
  { sampleResponse sampleChunks with headers := [("Content-Type", "")] }

def untypedSnapshot : DownloadedMetSnapshot :=
  sampleDownloader.snapshotOf "/tmp/met" untypedResponse sampleChunks.flatten sampleInstant
    sampleChunks_length

theorem untyped_contentType : untypedResponse.contentType = some "" := by decide +kernel

theorem untyped_contentLength :
    contentLength (normalizedHeaders untypedResponse.headers) = .ok none := by
  have hlookup : (normalizedHeaders untypedResponse.headers).lookup "content-length" = none := by
    decide +kernel
  rw [contentLength, hlookup]

theorem untyped_refused : sampleService.artifactOf (sampleInputs sampleId true) untypedSnapshot =
    .error (validationError "BronzeArtifact") := by
  have hmedia : untypedSnapshot.mediaType = "" := by
    show untypedResponse.contentType.getD "text/csv" = ""
    rw [untyped_contentType]
    rfl
  exact dif_neg fun hmodel => hmodel.1 hmedia

theorem untyped_download : ∃ downloads,
    (sampleDownloader.download "/tmp/met").Trace downloads (.ok untypedSnapshot) := by
  have hend : ReadToEnd untypedResponse.body := trivial
  have hruns : workingMachine.Runs () (sampleDownloader.download "/tmp/met")
      (fun _ => ⟨none, none⟩) (.ok untypedSnapshot) (fun _ => ⟨none, some sampleChunks.flatten⟩) :=
    runs_download sampleInstant rfl hend (by decide) (by decide) untyped_contentLength rfl
  exact hruns.trace

/-- The run downloads the body and refuses its snapshot. -/
theorem run_refuses_untyped : ∃ downloads response, AnsweredLast downloads response ∧
    (sampleDownloader.download "/tmp/met").Trace downloads (.ok untypedSnapshot) ∧
    (sampleService.run (sampleInputs sampleId true)).Trace (⟨.inl .makeTemporary, .ok "/tmp/met"⟩ ::
        (downloads.map Program.inlEvent ++ [⟨.inl .removeTemporary, .ok ()⟩]))
      (.error (validationError "BronzeArtifact")) ∧
    ¬ ∃ artifact, sampleService.artifactOf (sampleInputs sampleId true) untypedSnapshot =
      .ok artifact := by
  obtain ⟨downloads, hdownload⟩ := untyped_download
  obtain ⟨response, hanswered, -⟩ := MetSnapshotDownloader.download_mediaType hdownload
  refine ⟨downloads, response, hanswered, hdownload,
    run_refused hdownload (sample_preflight sampleId true) untyped_refused, ?_⟩
  rintro ⟨artifact, h⟩
  rw [untyped_refused] at h
  cases h

theorem run_ingests_iff_sample : ∃ downloads response, AnsweredLast downloads response ∧
    ((∃ artifact, sampleService.artifactOf (sampleInputs sampleId true) untypedSnapshot = .ok artifact) ↔
      response.contentType ≠ some "") := by
  obtain ⟨downloads, hdownload⟩ := untyped_download
  have hrun : (sampleService.run (sampleInputs sampleId true)).Trace _ _ :=
    run_refused hdownload (sample_preflight sampleId true) untyped_refused
  obtain ⟨response, hanswered, hiff, -⟩ :=
    run_ingests_iff hrun hdownload (by decide) (sample_preflight sampleId true)
  exact ⟨downloads, response, hanswered, hiff⟩

end EvidenceCartographer.Sources.Met

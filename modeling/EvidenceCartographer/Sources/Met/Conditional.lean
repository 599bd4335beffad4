import EvidenceCartographer.Concurrency.Mirrors
import EvidenceCartographer.Sources.Met.RetryProtocol

/-! The conditional download against the plain one.

    `download_if_changed` sends validators with its requests and takes a 304 for an answer; otherwise
    it is `download`. So on a history without a 304 the two are one program: only the headers of the
    requests tell them apart. -/

namespace EvidenceCartographer.Sources.Met

open Python Domain Application Infrastructure Concurrency

/-- The event, with this condition in the headers of the request. -/
def asked (conditional : Option MetSnapshotConditional) :
    machineSignature.Event → machineSignature.Event
  | ⟨.request url _, answer⟩ => ⟨.request url (conditionalHeaders conditional), answer⟩
  | event => event

/-- Not a 304 response. -/
def Modified : machineSignature.Event → Prop
  | ⟨.request _ _, .ok response⟩ => response.status ≠ 304
  | _ => True

theorem asked_local {event : machineSignature.Event} (conditional : Option MetSnapshotConditional)
    (h : ∀ url headers, event.1 ≠ .request url headers) : asked conditional event = event := by
  obtain ⟨o, x⟩ := event
  cases o <;> first | rfl | exact absurd rfl (h _ _)

theorem asked_asked (conditional conditional' : Option MetSnapshotConditional)
    (event : machineSignature.Event) :
    asked conditional (asked conditional' event) = asked conditional event := by
  obtain ⟨o, x⟩ := event
  cases o <;> rfl

theorem modified_asked {event : machineSignature.Event} (h : Modified event)
    (conditional : Option MetSnapshotConditional) : Modified (asked conditional event) := by
  obtain ⟨o, x⟩ := event
  cases o with
  | request url headers => cases x <;> exact h
  | _ => trivial

namespace MetSnapshotDownloader

variable {downloader : MetSnapshotDownloader} {destination : String}
  {conditional conditional' : Option MetSnapshotConditional}

theorem receive_modified {response : StreamingHttpResponse} (h : response.status ≠ 304) :
    downloader.receive destination conditional response =
      downloader.receive destination conditional' response := by
  have hother (condition : Option MetSnapshotConditional) :
      ¬ (response.status = 304 ∧ condition.isSome) := fun h' => h h'.1
  simp only [receive, receiveOn, if_neg (hother _)]

/-- What makes no request mirrors itself. -/
theorem local_mirrors {α : Type} {p : Program machineSignature Exc α} (h : p.Calls MachineOp.Local) :
    p.Mirrors (asked conditional') Modified p :=
  Program.mirrors_self h fun _ hlocal => asked_local conditional' fun _ _ heq => by
    rw [heq] at hlocal
    exact hlocal

/-- An attempt makes its request, and after that the condition matters only for a 304. -/
theorem attempt_mirrors : (downloader.attempt destination conditional).Mirrors (asked conditional')
    Modified (downloader.attempt destination conditional') := by
  refine Program.mirrors_call fun answer hmodified => ⟨answer, rfl, ?_⟩
  rcases answer with exc | response
  · exact Program.mirrors_ofExcept (.error exc)
  · show Program.Mirrors _ _ ((downloader.receive destination conditional response).ensuring _) _
    have hsame : downloader.receive destination conditional response =
        downloader.receive destination conditional' response := receive_modified hmodified
    rw [hsame]
    exact local_mirrors ((receive_local response).ensuring (Program.calls_reply trivial))

/-- By induction on the attempts that remain. -/
theorem attempts_mirrors (remaining number : Nat) :
    (downloader.attempts destination conditional remaining number).Mirrors (asked conditional') Modified
      (downloader.attempts destination conditional' remaining number) := by
  induction remaining generalizing number with
  | zero => exact Program.mirrors_ofExcept (.error _)
  | succ remaining ih =>
    have hunlink : (.call .unlinkPart .ofExcept : Program machineSignature Exc Unit).Mirrors
        (asked conditional') Modified (.call .unlinkPart .ofExcept) :=
      local_mirrors (Program.calls_reply trivial)
    rw [attempts_succ, attempts_succ]
    refine .handle (.bind hunlink fun _ => attempt_mirrors) fun exc => .bind hunlink fun _ => ?_
    split
    · exact Program.mirrors_ofExcept (.error _)
    split
    · refine .bind (Program.mirrors_call fun answer _ => ⟨answer, rfl, ?_⟩) fun decision => ?_
      · exact Program.mirrors_ofExcept _
      · cases decision with
        | retry => exact ih (number + 1)
        | stop => exact Program.mirrors_ofExcept (.error _)
    · exact Program.mirrors_ofExcept (.error _)

theorem run_mirrors : (downloader.run destination conditional).Mirrors (asked conditional') Modified
    (downloader.run destination conditional') := by
  refine .bind (.handle (local_mirrors (Program.calls_reply trivial)) fun exc => ?_) fun _ =>
    attempts_mirrors downloader.maxAttempts 1
  split
  · exact Program.mirrors_ofExcept (.error _)
  · exact Program.mirrors_ofExcept (.error _)

/-- The answer of a call that was told 304. -/
def notModifiedOf (downloader : MetSnapshotDownloader) (response : StreamingHttpResponse)
    (retrievedAt : AwareDatetime) : MetSnapshotNotModified where
  requestedUrl := downloader.url
  finalUrl := response.finalUrl
  etag := (normalizedHeaders response.headers).lookup "etag"
  lastModified := (normalizedHeaders response.headers).lookup "last-modified"
  retrievedAt := retrievedAt

/-- The end of a history that found nothing new: a 304 to a request with the condition, the clock, and
    nothing else. -/
def EndsUnmodified (downloader : MetSnapshotDownloader) (conditional : Option MetSnapshotConditional)
    (history : MachineHistory) (answer : MetSnapshotNotModified) : Prop :=
  ∃ before response retrievedAt, history = before ++
      [⟨.request downloader.url (conditionalHeaders conditional), .ok response⟩,
        ⟨.clock, .ok retrievedAt⟩, ⟨.closeResponse, .ok ()⟩] ∧
    response.status = 304 ∧ conditional.isSome ∧ answer = downloader.notModifiedOf response retrievedAt

section Unmodified

variable {history : MachineHistory} {answer : MetSnapshotNotModified}

theorem EndsUnmodified.append (h : downloader.EndsUnmodified conditional history answer)
    (past : MachineHistory) : downloader.EndsUnmodified conditional (past ++ history) answer := by
  obtain ⟨before, response, retrievedAt, rfl, hstatus⟩ := h
  exact ⟨past ++ before, response, retrievedAt, (List.append_assoc ..).symm, hstatus⟩

theorem receive_unmodified {response : StreamingHttpResponse}
    (h : (downloader.receive destination conditional response).Trace history
      (.ok (.notModified answer))) :
    ∃ retrievedAt, history = [⟨.clock, .ok retrievedAt⟩] ∧ response.status = 304 ∧
      conditional.isSome ∧ answer = downloader.notModifiedOf response retrievedAt := by
  rw [receive, receiveOn] at h
  split at h
  · rename_i hunmodified
    obtain ⟨_, _, retrievedAt, rfl, hclock, hret⟩ := Program.trace_bind_ok.mp h
    obtain ⟨_, rfl, rfl⟩ := Program.trace_reply.mp hclock
    obtain ⟨rfl, hanswer⟩ := hret
    cases hanswer
    exact ⟨retrievedAt, rfl, hunmodified.1, hunmodified.2, rfl⟩
  split at h
  · cases h.2
  split at h
  · cases h.2
  -- a 200 response is a snapshot or an error
  obtain ⟨_, _, expectedLength, rfl, -, h⟩ := Program.trace_bind_ok.mp h
  obtain ⟨_, _, _, rfl, -, h⟩ := Program.trace_bind_ok.mp h
  obtain ⟨_, _, received, rfl, -, h⟩ := Program.trace_bind_ok.mp h
  dsimp only at h
  split at h
  · cases h.2
  obtain ⟨_, _, _, rfl, -, h⟩ := Program.trace_bind_ok.mp h
  obtain ⟨_, _, _, rfl, -, h⟩ := Program.trace_bind_ok.mp h
  obtain ⟨_, _, retrievedAt, rfl, -, h⟩ := Program.trace_bind_ok.mp h
  cases h.2

theorem attempt_unmodified
    (h : (downloader.attempt destination conditional).Trace history (.ok (.notModified answer))) :
    downloader.EndsUnmodified conditional history answer := by
  rcases attempt_trace h with ⟨exc, -, hraised⟩ | ⟨response, rest, rfl, hrest⟩
  · cases hraised
  obtain ⟨received, closed, r₁, cleaned, rfl, hreceive, hclose, hr⟩ := Program.trace_ensuring.mp hrest
  obtain ⟨_, rfl, rfl⟩ := Program.trace_reply.mp hclose
  rcases cleaned with exc | ⟨⟨⟩⟩
  · cases hr
  obtain rfl : r₁ = .ok (.notModified answer) := hr.symm
  obtain ⟨retrievedAt, rfl, hunmodified⟩ := receive_unmodified hreceive
  exact ⟨[], response, retrievedAt, rfl, hunmodified⟩

/-- By induction on the attempts that remain: the last of them was told 304. -/
theorem attempts_unmodified {remaining number : Nat}
    (h : (downloader.attempts destination conditional remaining number).Trace history
      (.ok (.notModified answer))) : downloader.EndsUnmodified conditional history answer := by
  induction remaining generalizing number history with
  | zero => cases h.2
  | succ remaining ih =>
    rw [attempts_succ] at h
    obtain ⟨tried, handled, r₁, rfl, htried, hhandled⟩ := Program.trace_handle.mp h
    rcases r₁ with exc | result
    · obtain ⟨unlinked, rest, _, rfl, -, hrest⟩ := Program.trace_bind_ok.mp hhandled
      split at hrest
      · cases hrest.2
      split at hrest
      · obtain ⟨asked, rest, decision, rfl, -, hrest⟩ := Program.trace_bind_ok.mp hrest
        cases decision with
        | retry => exact (((ih hrest).append _).append _).append _
        | stop => cases hrest.2
      · cases hrest.2
    · obtain ⟨rfl, hresult⟩ := hhandled
      cases hresult
      obtain ⟨unlinked, rest, _, rfl, -, hrest⟩ := Program.trace_bind_ok.mp htried
      rw [List.append_nil]
      exact (attempt_unmodified hrest).append _

theorem run_unmodified
    (h : (downloader.run destination conditional).Trace history (.ok (.notModified answer))) :
    downloader.EndsUnmodified conditional history answer := by
  obtain ⟨made, rest, _, rfl, -, hattempts⟩ := Program.trace_bind_ok.mp h
  exact (attempts_unmodified hattempts).append _

/-- The last test of `download` never finds anything: it is `_run` without a condition. -/
theorem download_trace {r : Except Exc DownloadedMetSnapshot} :
    (downloader.download destination).Trace history r ↔
      (downloader.run destination none).Trace history (r.map .downloaded) := by
  constructor
  · intro h
    obtain ⟨ran, rest, result, rfl, hrun, hrest⟩ := Program.trace_bind.mp h
    rcases result with exc | snapshot | answer
    · obtain ⟨rfl, rfl⟩ := hrest
      rw [List.append_nil]
      exact hrun
    · obtain ⟨rfl, rfl⟩ := hrest
      rw [List.append_nil]
      exact hrun
    · obtain ⟨-, -, -, -, -, hcondition, -⟩ := run_unmodified hrun
      cases hcondition
  · intro h
    rcases r with exc | snapshot
    · exact Program.trace_bind.mpr ⟨history, [], _, (List.append_nil _).symm, h, rfl, rfl⟩
    · exact Program.trace_bind.mpr ⟨history, [], _, (List.append_nil _).symm, h, rfl, rfl⟩

end Unmodified

/-- On a history without a 304 the conditional download does what the plain one does, from the first
    request to the result; and it finds nothing new only when its last request, with the condition, is
    told 304, after which it touches no file. -/
theorem downloadIfChanged_agrees (conditional : MetSnapshotConditional) :
    (∀ history : MachineHistory, (∀ event ∈ history, Modified event) →
      ∀ r : Except Exc DownloadedMetSnapshot,
      (downloader.downloadIfChanged destination conditional).Trace
          (history.map (asked (some conditional))) (r.map .downloaded) ↔
        (downloader.download destination).Trace (history.map (asked none)) r) ∧
    ∀ (history : MachineHistory) answer,
      (downloader.downloadIfChanged destination conditional).Trace history (.ok (.notModified answer)) →
        downloader.EndsUnmodified (some conditional) history answer := by
  refine ⟨fun history hmodified r => ?_, fun history answer h => run_unmodified h⟩
  have hrename : ∀ condition condition' : Option MetSnapshotConditional,
      (history.map (asked condition)).map (asked condition') = history.map (asked condition') := by
    intro condition condition'
    rw [List.map_map]
    exact List.map_congr_left fun event _ => asked_asked condition' condition event
  have hadmissible : ∀ condition : Option MetSnapshotConditional,
      ∀ event ∈ history.map (asked condition), Modified event := by
    intro condition event hevent
    obtain ⟨original, horiginal, rfl⟩ := List.mem_map.mp hevent
    exact modified_asked (hmodified original horiginal) condition
  rw [download_trace]
  constructor
  · intro h
    have hmirrors : (downloader.run destination (some conditional)).Mirrors (asked none) Modified
        (downloader.run destination none) := run_mirrors
    have hplain := hmirrors _ _ h (hadmissible _)
    rwa [hrename] at hplain
  · intro h
    have hmirrors : (downloader.run destination none).Mirrors (asked (some conditional)) Modified
        (downloader.run destination (some conditional)) := run_mirrors
    have hconditional := hmirrors _ _ h (hadmissible _)
    rwa [hrename] at hconditional

end MetSnapshotDownloader

/-- The download that is retried, asked with an entity tag; and a 304 to that tag. -/
theorem downloadIfChanged_agrees_sample :
    (sampleDownloader.downloadIfChanged "/tmp/met" ⟨some "tag", none⟩).Trace
      (sampleRetriedHistory.map (asked (some ⟨some "tag", none⟩)))
      (.ok (.downloaded (sampleDownloaded sampleChunks.flatten sampleChunks_length))) ∧
    ∃ answer, (sampleDownloader.downloadIfChanged "/tmp/met" ⟨some "tag", none⟩).Trace
        sampleUnchangedHistory (.ok (.notModified answer)) ∧
      sampleDownloader.EndsUnmodified (some ⟨some "tag", none⟩) sampleUnchangedHistory answer := by
  have hagrees := @MetSnapshotDownloader.downloadIfChanged_agrees sampleDownloader "/tmp/met"
    ⟨some "tag", none⟩
  have hmodified : ∀ event ∈ sampleRetriedHistory, Modified event := by
    simp [sampleRetriedHistory, Modified, sampleResponse]
  refine ⟨(hagrees.1 sampleRetriedHistory hmodified (.ok _)).mpr sample_retriedTrace, ?_⟩
  obtain ⟨answer, htrace⟩ := sample_unchangedTrace
  exact ⟨answer, htrace, hagrees.2 _ _ htrace⟩

end EvidenceCartographer.Sources.Met

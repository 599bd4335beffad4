import EvidenceCartographer.Concurrency.Budget
import EvidenceCartographer.Sources.Met.DownloadOverHttp

/-! What a download does with its connections.

    A call has one response open at a time; it reads only from that one, lets go of it before the
    decider is asked or another attempt is made, and has let go of all of them when it ends, however it
    ends. It sends a bounded number of requests and makes a bounded number of reads, whatever the
    servers answer. A snapshot that it returns is of the whole body of its last response, which a
    redirect chain from the configured URL leads to. -/

namespace EvidenceCartographer.Sources.Met

open Python Domain Application Infrastructure Concurrency
open Urllib3StreamingHttpClient (redirects release held Serves Lands)

/-- Where the one connection of a download stands. -/
inductive Connection where
  | idle
  | opened (hop : Nat)
  | closed (hop : Nat)
  deriving DecidableEq

instance : DecidablePred MachineOp.Receiving
  | .openPart | .writePart _ | .closePart | .replacePart | .clock => .isTrue trivial
  | .makeTemporary | .removeTemporary | .makeDirectory | .unlinkPart | .request _ _
  | .closeResponse | .openTarget | .decide _ _ => .isFalse id

instance : DecidablePred MachineOp.Outside
  | .makeDirectory | .unlinkPart | .decide _ _ => .isTrue trivial
  | .makeTemporary | .removeTemporary | .request _ _ | .closeResponse | .openPart | .writePart _
  | .closePart | .replacePart | .openTarget | .clock => .isFalse id

/-- What may be done with it: a response is obtained while none is open, read while it is open, closed
    once and then released; files are written from an open response only, and nothing is retried
    before it is released. -/
def Connection.step : Protocol wireSignature Connection
  | .idle, ⟨.inl (.request hop _ _), .ok _⟩ => some (.opened hop)
  | .idle, ⟨.inl (.request _ _ _), .error _⟩ => some .idle
  | .idle, ⟨.inr (.machine o), _⟩ => if o.Outside then some .idle else none
  | .opened hop, ⟨.inr (.read n), _⟩ => if n = hop then some (.opened hop) else none
  | .opened hop, ⟨.inr (.machine o), _⟩ => if o.Receiving then some (.opened hop) else none
  | .opened hop, ⟨.inl (.close n), .ok _⟩ => if n = hop then some (.closed hop) else none
  | .opened hop, ⟨.inl (.close n), .error _⟩ => if n = hop then some .idle else none
  | .closed hop, ⟨.inl (.releaseConn n), _⟩ => if n = hop then some .idle else none
  | _, _ => none

/-- A request was sent. -/
def isGet : wireSignature.Event → Bool
  | ⟨.inl (.request _ _ _), _⟩ => true
  | _ => false

/-- A request was sent at the interface. -/
def sendsRequest : machineSignature.Event → Bool
  | ⟨.request _ _, _⟩ => true
  | _ => false

theorem attemptsMade_eq (history : MachineHistory) :
    attemptsMade history = history.countP sendsRequest := by
  refine List.countP_congr fun event _ => ?_
  obtain ⟨o, x⟩ := event
  cases o <;> exact Iff.rfl

theorem sendsRequest_local (event : machineSignature.Event) (h : event.1.Local) :
    sendsRequest event = false := by
  obtain ⟨o, x⟩ := event
  cases o with
  | request url headers => exact h.elim
  | _ => rfl

/-- What the files, the decider and the clock see of a history at the interface. -/
def ownEvents (history : MachineHistory) : MachineHistory :=
  history.filter fun event => match event.1 with
    | .request _ _ | .closeResponse => false
    | _ => true

/-- The connection when the loop of `open` has ended like this. -/
def Connection.after (r : Except Exc (Option (Nat × PoolResponse) × String)) : Connection :=
  match held r with
  | some hop => .opened hop
  | none => .idle

section Loop

variable {urljoin : String → String → String} {headers : Option (List (String × String))}
  {maxRedirects remaining hop : Nat} {url : String} {history : PoolHistory}

theorem accepts_release {r : Except Exc Unit} (h : (release hop).Trace history r) :
    Protocol.Accepts Connection.step (.opened hop) (history.map Program.inlEvent) .idle := by
  rcases Urllib3StreamingHttpClient.release_trace h with ⟨exc, rfl, -⟩ | rfl
  · simp [Protocol.Accepts, Program.inlEvent, Connection.step]
  · simp [Protocol.Accepts, Program.inlEvent, Connection.step]

/-- By induction on the rounds that remain. -/
theorem accepts_redirects {r : Except Exc (Option (Nat × PoolResponse) × String)}
    (h : (redirects urljoin headers maxRedirects remaining hop url).Trace history r) :
    Protocol.Accepts Connection.step .idle (history.map Program.inlEvent) (.after r) := by
  induction remaining generalizing hop url history with
  | zero =>
    obtain ⟨rfl, rfl⟩ := h
    exact .nil
  | succ remaining ih =>
    cases Urllib3StreamingHttpClient.hop_of_trace h with
    | failed | landed | unclosed | unreleased | refused =>
      simp [Protocol.Accepts, Program.inlEvent, Connection.step, Connection.after, held]
    | followed response location rest _ hstatus hlocation hlast hrest =>
      simpa [Protocol.Accepts, Program.inlEvent, Connection.step] using ih hrest

end Loop

/-- What is done with an open response leaves it open. -/
theorem accepts_interior {hop : Nat} {events : WireHistory} (h : Interior hop events) :
    Protocol.Accepts Connection.step (.opened hop) events (.opened hop) := by
  refine Protocol.accepts_loop fun event hevent => ?_
  obtain ⟨o, x⟩ := event
  rcases h _ hevent with heq | ⟨o', ho', heq⟩
  · cases heq
    exact if_pos rfl
  · cases heq
    exact if_pos ho'

theorem receiving_of_interior {hop : Nat} {events : WireHistory} (h : Interior hop events)
    {event : machineSignature.Event} (hevent : event ∈ machineEvents events) :
    event.1.Receiving := by
  obtain ⟨⟨o, x⟩, hmem, hseen⟩ := List.mem_filterMap.mp hevent
  rcases h _ hmem with heq | ⟨o', ho', heq⟩
  · cases heq
    cases hseen
  · cases heq
    cases hseen
    exact ho'

theorem countP_interior {hop : Nat} {events : WireHistory} (h : Interior hop events) :
    events.countP isGet = 0 := by
  refine List.countP_eq_zero.mpr fun event hevent => ?_
  obtain ⟨o, x⟩ := event
  rcases h _ hevent with heq | ⟨o', ho', heq⟩
  · cases heq
    exact Bool.false_ne_true
  · cases heq
    exact Bool.false_ne_true

theorem countP_inlEvent (history : PoolHistory) :
    (history.map Program.inlEvent : WireHistory).countP isGet = history.countP isRequest := by
  rw [List.countP_map]
  refine List.countP_congr fun event _ => ?_
  obtain ⟨o, x⟩ := event
  cases o <;> exact Iff.rfl

@[simp] theorem bodyReads_inlEvent (history : PoolHistory) :
    bodyReads (history.map Program.inlEvent) = [] := by
  induction history with
  | nil => rfl
  | cons event history ih => exact ih

@[simp] theorem machineEvents_inlEvent (history : PoolHistory) :
    machineEvents (history.map Program.inlEvent) = [] := by
  induction history with
  | nil => rfl
  | cons event history ih => exact ih

theorem release_quiet {hop : Nat} {history : PoolHistory} {r : Except Exc Unit}
    (h : (release hop).Trace history r) : history.countP isRequest = 0 := by
  rcases Urllib3StreamingHttpClient.release_trace h with ⟨exc, rfl, -⟩ | rfl
  · rfl
  · rfl

namespace MetSnapshotDownloader

variable {downloader : MetSnapshotDownloader} {urljoin : String → String → String}
  {destination : String} {conditional : Option MetSnapshotConditional} {events : WireHistory}
  {history : MachineHistory} {r : Except Exc DownloadResult}

/-- What a history on the wire may do for one at the interface. -/
structure WithinBounds (downloader : MetSnapshotDownloader) (events : WireHistory)
    (history : MachineHistory) : Prop where
  accepted : Protocol.Accepts Connection.step .idle events .idle
  gets : events.countP isGet ≤ attemptsMade history * (defaultMaxRedirects + 1)
  reads : (bodyReads events).length ≤ attemptsMade history * (downloader.ceiling + 1)

theorem WithinBounds.append {events' : WireHistory} {history' : MachineHistory}
    (h : downloader.WithinBounds events history) (h' : downloader.WithinBounds events' history') :
    downloader.WithinBounds (events ++ events') (history ++ history') where
  accepted := h.accepted.append h'.accepted
  gets := by
    rw [List.countP_append, attemptsMade_append, Nat.add_mul]
    exact Nat.add_le_add h.gets h'.gets
  reads := by
    rw [bodyReads_append, List.length_append, attemptsMade_append, Nat.add_mul]
    exact Nat.add_le_add h.reads h'.reads

theorem Exchange.withinBounds (h : Exchange downloader urljoin conditional events history) :
    downloader.WithinBounds events history := by
  cases h with
  | refused loop exc hloop =>
    obtain ⟨hsent, -⟩ := Urllib3StreamingHttpClient.redirects_balanced hloop
    refine ⟨accepts_redirects hloop, ?_, by simp⟩
    rw [countP_inlEvent]
    simpa [attemptsMade] using hsent
  | answered loop hop response finalUrl body cleanup closed hloop hinterior hreads hcleanup =>
    obtain ⟨hsent, -⟩ := Urllib3StreamingHttpClient.redirects_balanced hloop
    have hmade : 1 ≤ attemptsMade (⟨.request downloader.url (conditionalHeaders conditional),
        .ok (.ofReads ⟨response.status, response.headers, finalUrl, hop⟩ (bodyReads body))⟩ ::
          machineEvents body ++ [⟨.closeResponse, closed⟩]) := by
      simp [attemptsMade]
    refine ⟨?_, ?_, ?_⟩
    · exact ((accepts_redirects hloop).append (accepts_interior hinterior)).append
        (accepts_release hcleanup)
    · rw [List.countP_append, List.countP_append, countP_inlEvent, countP_inlEvent,
        countP_interior hinterior, release_quiet hcleanup]
      exact hsent.trans (Nat.le_mul_of_pos_left _ hmade)
    · simp only [bodyReads_append, bodyReads_inlEvent, List.nil_append, List.append_nil]
      exact hreads.trans (Nat.le_mul_of_pos_left _ hmade)

theorem Realizes.withinBounds (h : Realizes downloader urljoin conditional events history) :
    downloader.WithinBounds events history := by
  induction h with
  | nil => exact ⟨.nil, Nat.zero_le _, Nat.zero_le _⟩
  | between o x ho =>
    refine ⟨?_, Nat.zero_le _, Nat.zero_le _⟩
    exact Protocol.accepts_loop fun event hevent => by
      cases List.mem_singleton.mp hevent
      exact if_pos ho
  | exchange h => exact h.withinBounds
  | append _ _ ih ih' => exact ih.append ih'

/-- The machine sees on the wire what it sees at the interface, but for requests and their ends. -/
theorem Realizes.machineEvents_eq (h : Realizes downloader urljoin conditional events history) :
    machineEvents events = ownEvents history := by
  induction h with
  | nil => rfl
  | between o x ho => cases o <;> first | rfl | exact ho.elim
  | exchange h =>
    cases h with
    | refused loop exc hloop => simp [ownEvents]
    | answered loop hop response finalUrl body cleanup closed hloop hinterior hreads hcleanup =>
      have hkept : machineEvents body = ownEvents (machineEvents body) := by
        refine (List.filter_eq_self.mpr fun event hevent => ?_).symm
        have hreceiving := receiving_of_interior hinterior hevent
        obtain ⟨o, x⟩ := event
        cases o <;> first | rfl | exact hreceiving.elim
      simpa [ownEvents] using hkept
  | append _ _ ih ih' =>
    rw [machineEvents_append, ih, ih']
    exact (List.filter_append ..).symm

/-- A call on the wire is a call at the interface: whatever the connections do, it ends as one that
    the client has answered whole; its history stands for that one's, and files, decider and clock see
    the same of both. -/
theorem runOverHttp_implements_run
    (h : (downloader.runOverHttp urljoin destination conditional).Trace events r) :
    ∃ history, (downloader.run destination conditional).Trace history r ∧
      Realizes downloader urljoin conditional events history ∧
      machineEvents events = ownEvents history := by
  obtain ⟨history, htrace, hrealizes⟩ := implements_run h
  exact ⟨history, htrace, hrealizes, Realizes.machineEvents_eq hrealizes⟩

/-- An attempt makes one request. -/
theorem budget_attempt : (downloader.attempt destination conditional).Budget sendsRequest 1 := by
  refine .bind (n := 1) (m := 0) (Program.budget_reply fun _ => Nat.le_refl 1) fun response => ?_
  have hlocal : ((downloader.receive destination conditional response).ensuring
      (.call .closeResponse .ofExcept)).Calls MachineOp.Local :=
    (receive_local response).ensuring (Program.calls_reply trivial)
  exact hlocal.budget sendsRequest_local

/-- By induction on the attempts that remain. -/
theorem budget_attempts (remaining number : Nat) :
    (downloader.attempts destination conditional remaining number).Budget sendsRequest remaining := by
  induction remaining generalizing number with
  | zero => exact Program.budget_raise _
  | succ remaining ih =>
    have hunlink : (.call .unlinkPart .ofExcept : Program machineSignature Exc Unit).Budget
        sendsRequest 0 := Program.budget_reply fun _ => Nat.le_refl 0
    have hattempt : (downloader.attempt destination conditional).Budget sendsRequest 1 :=
      budget_attempt
    rw [attempts_succ]
    refine Program.Budget.mono (n := 0 + 1 + (0 + remaining))
      ((hunlink.bind fun _ => hattempt).handle fun exc => hunlink.bind fun _ => ?_) (by omega)
    split
    · exact Program.budget_raise _
    split
    · -- the decider is asked, and a retry has one attempt less
      refine Program.budget_call (fun _ => rfl) fun answer => ?_
      rcases answer with failure | _ | _
      · exact Program.budget_raise _
      · exact ih (number + 1)
      · exact Program.budget_raise _
    · exact Program.budget_raise _

theorem budget_run : (downloader.run destination conditional).Budget sendsRequest
    downloader.maxAttempts := by
  have hmake : (.call .makeDirectory .ofExcept : Program machineSignature Exc Unit).Budget
      sendsRequest 0 := Program.budget_reply fun _ => Nat.le_refl 0
  have hmade : ∀ exc : Exc, Program.Budget sendsRequest 0
      (if exc.isOSError then
        .raise (.httpDownloadError ("could not create download directory " ++ destination))
      else (.raise exc : Program machineSignature Exc Unit)) := by
    intro exc
    split
    · exact Program.budget_raise _
    · exact Program.budget_raise _
  have hattempts (number : Nat) : (downloader.attempts destination conditional
      downloader.maxAttempts number).Budget sendsRequest downloader.maxAttempts :=
    budget_attempts downloader.maxAttempts number
  have hrun := (hmake.handle hmade).bind fun _ => hattempts 1
  exact hrun.mono (by omega)

/-- What a whole call may do with its connections. -/
structure Conduct (downloader : MetSnapshotDownloader) (events : WireHistory) : Prop where
  connection : Protocol.Accepts Connection.step .idle events .idle
  gets : events.countP isGet ≤ downloader.maxAttempts * (defaultMaxRedirects + 1)
  reads : (bodyReads events).length ≤ downloader.maxAttempts * (downloader.ceiling + 1)

theorem conduct_of_run (h : (downloader.runOverHttp urljoin destination conditional).Trace events r) :
    downloader.Conduct events := by
  obtain ⟨history, htrace, hrealizes⟩ := implements_run h
  obtain ⟨haccepted, hgets, hreads⟩ := Realizes.withinBounds hrealizes
  have hmade : attemptsMade history ≤ downloader.maxAttempts := by
    rw [attemptsMade_eq]
    exact budget_run htrace
  exact ⟨haccepted, hgets.trans (Nat.mul_le_mul_right _ hmade),
    hreads.trans (Nat.mul_le_mul_right _ hmade)⟩

/-- Whatever the servers, the machine and the decider do, a call follows the protocol of its one
    connection and has let go of it in the end; it sends one request for each attempt and redirect it
    may make, and reads no more than a body within the ceiling takes. -/
theorem runOverHttp_connections
    (h : (downloader.runOverHttp urljoin destination conditional).Trace events r) :
    Protocol.Accepts Connection.step .idle events .idle ∧
      events.countP isGet ≤ downloader.maxAttempts * (defaultMaxRedirects + 1) ∧
      (bodyReads events).length ≤ downloader.maxAttempts * (downloader.ceiling + 1) := by
  obtain ⟨hconnection, hgets, hreads⟩ := conduct_of_run h
  exact ⟨hconnection, hgets, hreads⟩

end MetSnapshotDownloader

/-- By induction on the reads: what the loop returns is of the whole body. -/
theorem received_of_trace {ceiling : Nat} {reads : List (Except Exc Bytes)} {written : Bytes}
    {history : MachineHistory} {received : Nat × Digest}
    (h : (receiveBody ceiling reads written.length ⟨written⟩).Trace history (.ok received))
    (hfits : written.length ≤ ceiling) :
    ReadToEnd reads ∧ received = ((written ++ chunksRead reads).length, ⟨written ++ chunksRead reads⟩) ∧
      (written ++ chunksRead reads).length ≤ ceiling := by
  induction reads generalizing written history with
  | nil =>
    obtain ⟨rfl, hret⟩ := h
    rw [chunksRead, List.append_nil]
    exact ⟨trivial, Except.ok.inj hret, hfits⟩
  | cons read reads ih =>
    rcases read with exc | (_ | ⟨byte, bytes⟩)
    · cases h.2
    · obtain ⟨rfl, hret⟩ := h
      rw [chunksRead, List.append_nil]
      exact ⟨trivial, Except.ok.inj hret, hfits⟩
    · simp only [receiveBody] at h
      split at h
      · cases h.2
      rename_i hroom
      obtain ⟨_, after, _, rfl, -, hrest⟩ := Program.trace_bind_ok.mp h
      have hlength : (written ++ byte :: bytes).length = written.length + (byte :: bytes).length :=
        List.length_append
      rw [chunksRead, ← List.append_assoc]
      rw [← hlength] at hroom hrest
      exact ih hrest (Nat.le_of_not_lt hroom)

namespace MetSnapshotDownloader

variable {downloader : MetSnapshotDownloader} {urljoin : String → String → String}
  {destination : String} {conditional : Option MetSnapshotConditional}
  {response : StreamingHttpResponse} {snapshot : DownloadedMetSnapshot}

/-- A snapshot is returned for a whole 200 response only, and is of its body. -/
theorem snapshot_of_receive {history : MachineHistory}
    (h : (downloader.receive destination conditional response).Trace history
      (.ok (.downloaded snapshot))) :
    ∃ bytes retrievedAt hne, response.Delivers downloader.ceiling bytes ∧
      snapshot = downloader.snapshotOf destination response bytes retrievedAt hne := by
  rw [receive, receiveOn] at h
  split at h
  · obtain ⟨_, _, _, rfl, -, hret⟩ := Program.trace_bind_ok.mp h
    cases hret.2
  split at h
  · cases h.2
  split at h
  · cases h.2
  rename_i hstatus
  obtain ⟨_, _, expectedLength, rfl, hparse, hparsed⟩ := Program.trace_bind_ok.mp h
  obtain ⟨-, hlength⟩ := Program.trace_ofExcept.mp hparse
  obtain ⟨_, _, _, rfl, -, hopened⟩ := Program.trace_bind_ok.mp hparsed
  obtain ⟨_, _, received, rfl, hbody, hreceived⟩ := Program.trace_bind_ok.mp hopened
  obtain ⟨_, _, r₁, cleaned, rfl, hloop, -, hr₁⟩ := Program.trace_ensuring.mp hbody
  have hr₁ : r₁ = .ok received := by cases cleaned <;> first | exact hr₁.symm | cases hr₁
  subst hr₁
  have hstart : (receiveBody downloader.ceiling response.body ([] : Bytes).length ⟨[]⟩).Trace _
      (.ok received) := hloop
  obtain ⟨hend, rfl, hfits⟩ := received_of_trace hstart (Nat.zero_le _)
  rw [List.nil_append] at hreceived hfits
  dsimp only at hreceived
  split at hreceived
  · cases hreceived.2
  rename_i hne
  obtain ⟨_, _, _, rfl, hcheck, hchecked⟩ := Program.trace_bind_ok.mp hreceived
  obtain ⟨-, hagrees⟩ := Program.trace_ofExcept.mp hcheck
  obtain ⟨_, _, _, rfl, -, hreplaced⟩ := Program.trace_bind_ok.mp hchecked
  obtain ⟨_, _, retrievedAt, rfl, -, hret⟩ := Program.trace_bind_ok.mp hreplaced
  cases hret.2
  refine ⟨chunksRead response.body, retrievedAt, hne, ?_, rfl⟩
  exact ⟨not_not.mp hstatus, hend, rfl, fun hnil => hne (List.length_eq_zero_iff.mpr hnil), hfits,
    fun value hvalue => announced_of_checkLength hlength.symm hagrees.symm hvalue⟩

/-- The snapshot is of these bytes, which the last response of a history delivered: a redirect chain
    within the bound leads from the URL to it, its body was read to the end, and it is let go of at
    once. -/
def Fetched (downloader : MetSnapshotDownloader) (urljoin : String → String → String)
    (destination : String) (events : WireHistory) (snapshot : DownloadedMetSnapshot)
    (bytes : Bytes) : Prop :=
  ∃ (before : WireHistory) (loop : PoolHistory) (body : WireHistory) (hop : Nat)
    (response : PoolResponse) (finalUrl : String) (retrievedAt : AwareDatetime)
    (hne : bytes.length ≠ 0),
    events = before ++ (loop.map Program.inlEvent ++ body ++
      [⟨.inl (.close hop), .ok ()⟩, ⟨.inl (.releaseConn hop), .ok ()⟩]) ∧
    (∃ server locations, Serves server loop ∧ locations.length ≤ defaultMaxRedirects ∧
      Lands urljoin server 0 downloader.url locations response ∧
      hop = locations.length ∧ finalUrl = locations.foldl urljoin downloader.url) ∧
    Interior hop body ∧
    (StreamingHttpResponse.ofReads ⟨response.status, response.headers, finalUrl, hop⟩
      (bodyReads body)).Delivers downloader.ceiling bytes ∧
    snapshot = downloader.snapshotOf destination
      (.ofReads ⟨response.status, response.headers, finalUrl, hop⟩ (bodyReads body)) bytes
      retrievedAt hne

theorem fetched_of_run {events : WireHistory}
    (h : (downloader.runOverHttp urljoin destination conditional).Trace events
      (.ok (.downloaded snapshot))) :
    ∃ bytes, Fetched downloader urljoin destination events snapshot bytes := by
  obtain ⟨made, rest, _, rfl, -, hattempts⟩ := Program.trace_bind_ok.mp h
  obtain ⟨before, last, rfl, hlast⟩ := returned_of_attempts hattempts
  obtain ⟨opened, received, answer, rfl, hopen, hreceived⟩ := Program.trace_bind_ok.mp hlast
  obtain ⟨loop, rfl, hloop⟩ := Program.trace_inl.mp hopen
  rcases answer with ⟨_ | ⟨hop, response⟩, finalUrl⟩
  · cases hreceived.2
  obtain ⟨body, closing, r₁, cleaned, rfl, hbody, hclosing, hr₁⟩ :=
    Program.trace_ensuring.mp hreceived
  obtain ⟨cleanup, rfl, hcleanup⟩ := Program.trace_inl.mp hclosing
  rcases cleaned with exc | ⟨⟨⟩⟩
  · cases hr₁
  subst hr₁
  obtain ⟨hinterior, -, htrace⟩ := streams_receive _ hbody
  obtain ⟨bytes, retrievedAt, hne, hdelivers, hsnapshot⟩ := snapshot_of_receive htrace
  obtain ⟨server, hserver, -⟩ := Urllib3StreamingHttpClient.redirects_served hloop
  obtain ⟨locations, hlength, hlands, hhop, hurl⟩ :=
    Urllib3StreamingHttpClient.redirects_sound hloop hserver rfl
  rw [Nat.zero_add] at hhop
  have hreleased : cleanup = [⟨.close hop, .ok ()⟩, ⟨.releaseConn hop, .ok ()⟩] := by
    rcases Urllib3StreamingHttpClient.release_trace hcleanup with ⟨exc, -, hraised⟩ | hreleased
    · cases hraised
    · exact hreleased
  refine ⟨bytes, made ++ before, loop, body, hop, response, finalUrl, retrievedAt, hne, ?_, ?_,
    hinterior, hdelivers, hsnapshot⟩
  · simp [hreleased, Program.inlEvent]
  · exact ⟨server, locations, hserver, Nat.le_of_lt_succ hlength, hlands, hhop, hurl⟩

/-- A snapshot that a call returns is of its last response: a redirect chain within the bound leads
    from the URL to it, its body was read to the end, and it is let go of at once. -/
theorem runOverHttp_snapshot {events : WireHistory}
    (h : (downloader.runOverHttp urljoin destination conditional).Trace events
      (.ok (.downloaded snapshot))) :
    ∃ (before : WireHistory) (loop : PoolHistory) (body : WireHistory) (hop : Nat)
      (response : PoolResponse) (finalUrl : String) (bytes : Bytes) (retrievedAt : AwareDatetime)
      (hne : bytes.length ≠ 0),
      events = before ++ (loop.map Program.inlEvent ++ body ++
        [⟨.inl (.close hop), .ok ()⟩, ⟨.inl (.releaseConn hop), .ok ()⟩]) ∧
      (∃ server locations, Serves server loop ∧ locations.length ≤ defaultMaxRedirects ∧
        Lands urljoin server 0 downloader.url locations response ∧
        hop = locations.length ∧ finalUrl = locations.foldl urljoin downloader.url) ∧
      Interior hop body ∧
      (StreamingHttpResponse.ofReads ⟨response.status, response.headers, finalUrl, hop⟩
        (bodyReads body)).Delivers downloader.ceiling bytes ∧
      snapshot = downloader.snapshotOf destination
        (.ofReads ⟨response.status, response.headers, finalUrl, hop⟩ (bodyReads body)) bytes
        retrievedAt hne := by
  obtain ⟨bytes, before, loop, body, hop, response, finalUrl, retrievedAt, hne, hfetched⟩ :=
    fetched_of_run h
  exact ⟨before, loop, body, hop, response, finalUrl, bytes, retrievedAt, hne, hfetched⟩

/-- A fetched snapshot says what its bytes are. -/
theorem Fetched.describes {events : WireHistory} {bytes : Bytes}
    (h : Fetched downloader urljoin destination events snapshot bytes) :
    snapshot.sizeBytes = bytes.length ∧ snapshot.sha256 = sha256 bytes := by
  obtain ⟨before, loop, body, hop, response, finalUrl, retrievedAt, hne, -, -, -, -, rfl⟩ := h
  exact ⟨rfl, rfl⟩

end MetSnapshotDownloader

section Sample

/-- A redirect, and then a response with this body. -/
def sampleLoop : PoolHistory :=
  [⟨.request 0 sampleDownloader.url [], .ok ⟨302, [], some "/raw"⟩⟩, ⟨.close 0, .ok ()⟩,
    ⟨.releaseConn 0, .ok ()⟩,
    ⟨.request 1 (sampleDownloader.url ++ "/raw") [], .ok ⟨200, [], none⟩⟩]

/-- The body in these chunks, as it is read and written. -/
def sampleStream (chunks : List Bytes) : WireHistory :=
  (chunks.flatMap fun chunk =>
    [⟨.inr (.read 1), .ok chunk⟩, machineEvent ⟨.writePart chunk, .ok ()⟩]) ++
    [⟨.inr (.read 1), .ok []⟩]

def sampleBody (chunks : List Bytes) : WireHistory :=
  machineEvent ⟨.openPart, .ok ()⟩ :: sampleStream chunks ++ [machineEvent ⟨.closePart, .ok ()⟩,
    machineEvent ⟨.replacePart, .ok ()⟩, machineEvent ⟨.clock, .ok sampleInstant⟩]

def sampleWire (chunks : List Bytes) : WireHistory :=
  machineEvent ⟨.makeDirectory, .ok ()⟩ :: machineEvent ⟨.unlinkPart, .ok ()⟩ ::
    (sampleLoop.map Program.inlEvent ++
      (sampleBody chunks ++ [⟨.inl (.close 1), .ok ()⟩, ⟨.inl (.releaseConn 1), .ok ()⟩]))

/-- The snapshot of the body, after the redirect. -/
def sampleRaw (bytes : Bytes) (h : bytes.length ≠ 0) : DownloadedMetSnapshot :=
  sampleDownloader.snapshotOf "/tmp/met" ⟨200, [], sampleDownloader.url ++ "/raw", []⟩ bytes
    sampleInstant h

/-- By induction on the chunks: a body within the ceiling is received. -/
theorem sample_stream {chunks : List Bytes} (hchunks : [] ∉ chunks) {ceiling : Nat} (done : Bytes)
    (hfit : (done ++ chunks.flatten).length ≤ ceiling) :
    (receiveStream ceiling 1 done.length ⟨done⟩).Trace (sampleStream chunks)
      (.ok ((done ++ chunks.flatten).length, ⟨done ++ chunks.flatten⟩)) := by
  induction chunks generalizing done with
  | nil =>
    rw [receiveStream, List.flatten_nil, List.append_nil]
    exact .call ⟨rfl, rfl⟩
  | cons chunk chunks ih =>
    obtain ⟨hne, hrest⟩ := not_or.mp (List.mem_cons.not.mp hchunks)
    obtain ⟨byte, bytes, rfl⟩ := List.exists_cons_of_ne_nil (Ne.symm hne)
    rw [List.flatten_cons, ← List.append_assoc] at hfit ⊢
    have hlength : (done ++ byte :: bytes).length = done.length + (byte :: bytes).length :=
      List.length_append
    have hroom : ¬ ceiling < done.length + (byte :: bytes).length := by
      rw [List.length_append, hlength] at hfit
      omega
    have hnext := ih hrest (done ++ byte :: bytes) hfit
    rw [hlength] at hnext
    rw [receiveStream]
    refine .call ?_
    dsimp only
    rw [dif_neg hroom]
    exact Program.trace_bind.mpr ⟨[machineEvent ⟨.writePart (byte :: bytes), .ok ()⟩],
      sampleStream chunks, .ok (), rfl, .call ⟨rfl, rfl⟩, hnext⟩

section

variable {chunks : List Bytes} {bytes : Bytes} (hchunks : [] ∉ chunks)
  (hbytes : chunks.flatten = bytes) (hne : bytes.length ≠ 0)
  (hfit : bytes.length ≤ maxSinglePutSizeBytes)

include hchunks hbytes hfit

theorem sample_body : (sampleDownloader.receiveOverHttp "/tmp/met" none
    ⟨200, [], sampleDownloader.url ++ "/raw", 1⟩).Trace (sampleBody chunks)
      (.ok (.downloaded (sampleRaw bytes hne))) := by
  subst hbytes
  have hstream : (receiveStream maxSinglePutSizeBytes 1 0 .new).Trace (sampleStream chunks)
      (.ok (chunks.flatten.length, ⟨chunks.flatten⟩)) := sample_stream hchunks [] hfit
  have hreceive : ((receiveStream maxSinglePutSizeBytes 1 0 .new).ensuring
      (onMachine (.call .closePart .ofExcept))).Trace
        (sampleStream chunks ++ [machineEvent ⟨.closePart, .ok ()⟩])
        (.ok (chunks.flatten.length, ⟨chunks.flatten⟩)) :=
    Program.trace_ensuring.mpr ⟨sampleStream chunks, [machineEvent ⟨.closePart, .ok ()⟩], _, .ok (),
      rfl, hstream, .call ⟨rfl, rfl⟩, rfl⟩
  refine Program.trace_bind.mpr ⟨[], sampleBody chunks, .ok none, rfl, ⟨rfl, rfl⟩, ?_⟩
  refine Program.trace_bind.mpr ⟨[_], _, .ok (), rfl, .call ⟨rfl, rfl⟩, ?_⟩
  refine Program.trace_bind.mpr ⟨_, [machineEvent ⟨.replacePart, .ok ()⟩,
    machineEvent ⟨.clock, .ok sampleInstant⟩], .ok (chunks.flatten.length, ⟨chunks.flatten⟩), ?_,
    hreceive, ?_⟩
  · simp
  · dsimp only
    rw [dif_neg hne]
    exact .call (.call ⟨rfl, rfl⟩)

theorem sample_wire : (sampleDownloader.runOverHttp (· ++ ·) "/tmp/met" none).Trace
    (sampleWire chunks) (.ok (.downloaded (sampleRaw bytes hne))) := by
  have hloop : (redirects (· ++ ·) (some []) defaultMaxRedirects (defaultMaxRedirects + 1) 0
      sampleDownloader.url).Trace sampleLoop
        (.ok (some (1, ⟨200, [], none⟩), sampleDownloader.url ++ "/raw")) :=
    .call (.call (.call (.call ⟨rfl, rfl⟩)))
  have hattempt : (sampleDownloader.attemptOverHttp (· ++ ·) "/tmp/met" none).Trace
      (sampleLoop.map Program.inlEvent ++
        (sampleBody chunks ++ [⟨.inl (.close 1), .ok ()⟩, ⟨.inl (.releaseConn 1), .ok ()⟩]))
      (.ok (.downloaded (sampleRaw bytes hne))) :=
    Program.trace_bind.mpr ⟨_, _, _, rfl, Program.trace_inl.mpr ⟨_, rfl, hloop⟩,
      Program.trace_ensuring.mpr ⟨sampleBody chunks, _, _, .ok (), rfl,
        sample_body hchunks hbytes hne hfit, .call (.call ⟨rfl, rfl⟩), rfl⟩⟩
  refine Program.trace_bind.mpr ⟨[_], _, .ok (), rfl, .call ⟨rfl, rfl⟩, ?_⟩
  refine Program.trace_handle.mpr ⟨_, [], .ok (.downloaded (sampleRaw bytes hne)),
    (List.append_nil _).symm, ?_, rfl, rfl⟩
  exact Program.trace_bind.mpr ⟨[_], _, .ok (), rfl, .call ⟨rfl, rfl⟩, hattempt⟩

end

/-- A small file in two chunks. -/
theorem sampleChunks_wire : (sampleDownloader.runOverHttp (· ++ ·) "/tmp/met" none).Trace
    (sampleWire sampleChunks)
    (.ok (.downloaded (sampleRaw sampleChunks.flatten sampleChunks_length))) :=
  sample_wire (by decide) rfl sampleChunks_length (by decide)

end Sample

theorem runOverHttp_implements_run_sample : ∃ history,
    (sampleDownloader.run "/tmp/met" none).Trace history
        (.ok (.downloaded (sampleRaw sampleChunks.flatten sampleChunks_length))) ∧
      machineEvents (sampleWire sampleChunks) = ownEvents history := by
  obtain ⟨history, htrace, -, hseen⟩ :=
    MetSnapshotDownloader.runOverHttp_implements_run sampleChunks_wire
  exact ⟨history, htrace, hseen⟩

theorem runOverHttp_connections_sample :
    Protocol.Accepts Connection.step .idle (sampleWire sampleChunks) .idle ∧
      (sampleWire sampleChunks).countP isGet ≤ 18 := by
  obtain ⟨haccepted, hgets, -⟩ := MetSnapshotDownloader.runOverHttp_connections sampleChunks_wire
  exact ⟨haccepted, hgets⟩

theorem runOverHttp_snapshot_sample : ∃ (server : Nat → String → Except Exc PoolResponse)
    (locations : List String) (response : PoolResponse),
    Lands (· ++ ·) server 0 sampleDownloader.url locations response ∧
      (sampleRaw sampleChunks.flatten sampleChunks_length).finalUrl =
        locations.foldl (· ++ ·) sampleDownloader.url := by
  obtain ⟨before, loop, body, hop, response, finalUrl, bytes, retrievedAt, hne, -,
    ⟨server, locations, -, -, hlands, -, rfl⟩, -, -, hsnapshot⟩ :=
    MetSnapshotDownloader.runOverHttp_snapshot sampleChunks_wire
  exact ⟨server, locations, response, hlands, congrArg DownloadedMetSnapshot.finalUrl hsnapshot⟩

end EvidenceCartographer.Sources.Met

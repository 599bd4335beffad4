import EvidenceCartographer.Concurrency.Implements
import EvidenceCartographer.Concurrency.Product
import EvidenceCartographer.Infrastructure.Http
import EvidenceCartographer.Sources.Met.RetryProtocol

/-! The downloader over its HTTP client.

    `MetSnapshotDownloader.run` has the client as an interface: a request is answered at once, with
    all that reading the body will give. Here `with self._http_client.open(...)` is what the client
    does, request by request, and the body is read chunk by chunk from the connection. Each history on
    the wire stands for one at the interface: an exchange for a request, its reads, and the closing. -/

namespace EvidenceCartographer.Sources.Met

open Python Domain Application Infrastructure Concurrency
open Urllib3StreamingHttpClient (redirects release)

/-- A read from the body of the response of that hop, and the operations of the machine. -/
inductive StreamOp where
  | read (hop : Nat)
  | machine (o : MachineOp)

abbrev streamSignature : Signature where
  Op := StreamOp
  Reply
    | .read _ => Except Exc Bytes
    | .machine o => machineSignature.Reply o

abbrev wireSignature : Signature := poolSignature.sum streamSignature

abbrev WireHistory := List wireSignature.Event

/-- The default of `open`. -/
def defaultMaxRedirects : Nat := 5

/-- A program that neither requests nor reads. -/
def onMachine {α : Type} : Program machineSignature Exc α → Program wireSignature Exc α
  | .ret a => .ret a
  | .raise exc => .raise exc
  | .call o k => .call (Sum.inr (.machine o)) fun x => onMachine (k x)

/-- The loop of `_attempt`, from the connection; a chunk has at least one byte. -/
def receiveStream (ceiling hop sizeBytes : Nat) (digest : Digest) :
    Program wireSignature Exc (Nat × Digest) :=
  .call (Sum.inr (.read hop)) fun
    | .error exc => .raise exc
    | .ok [] => .ret (sizeBytes, digest)
    | .ok (byte :: bytes) =>
      let chunk := byte :: bytes
      if _h : ceiling < sizeBytes + chunk.length then
        .raise (.downloadSizeLimitError ("download exceeds " ++ toString ceiling ++ " bytes"))
      else (onMachine (.call (.writePart chunk) .ofExcept)).bind fun () =>
        receiveStream ceiling hop (sizeBytes + chunk.length) (digest.update chunk)
  termination_by ceiling - sizeBytes
  decreasing_by rw [List.length_cons] at *; omega

namespace MetSnapshotDownloader

variable (downloader : MetSnapshotDownloader) (urljoin : String → String → String)
  (destination : String) (conditional : Option MetSnapshotConditional)

/-- `_attempt`, once a 200 response is open. -/
def receiveSnapshotOverHttp (response : StreamingResponse) : Program wireSignature Exc DownloadResult :=
  downloader.receiveSnapshotOn destination onMachine
    (receiveStream downloader.ceiling response.body 0 .new) (normalizedHeaders response.headers)
    response.finalUrl

/-- `_attempt`, once the response is open. -/
def receiveOverHttp (response : StreamingResponse) : Program wireSignature Exc DownloadResult :=
  downloader.receiveOn destination conditional onMachine
    (receiveStream downloader.ceiling response.body 0 .new) response.status
    (normalizedHeaders response.headers) response.finalUrl

/-- `_attempt`: the `with` runs the loop of `open`, its own body, and the `finally` of `open`. -/
def attemptOverHttp : Program wireSignature Exc DownloadResult := do
  match ← (redirects urljoin (some (conditionalHeaders conditional)) defaultMaxRedirects
      (defaultMaxRedirects + 1) 0 downloader.url).inl with
  | (none, _) => .raise (.other "RuntimeError" "HTTP response was not created")
  | (some (hop, response), finalUrl) =>
    (downloader.receiveOverHttp destination conditional
      ⟨response.status, response.headers, finalUrl, hop⟩).ensuring (release hop).inl

/-- The attempts of `_run`. -/
def attemptsOverHttp : Nat → Nat → Program wireSignature Exc DownloadResult :=
  downloader.attemptsOn onMachine (downloader.attemptOverHttp urljoin destination conditional)

/-- `_run`. -/
def runOverHttp : Program wireSignature Exc DownloadResult :=
  downloader.runOn destination onMachine (downloader.attemptOverHttp urljoin destination conditional)

/-- `download`. -/
def downloadOverHttp : Program wireSignature Exc DownloadedMetSnapshot :=
  downloadOf (downloader.runOverHttp urljoin destination none)

end MetSnapshotDownloader

/-- An event of the machine, on the wire. -/
def machineEvent (event : machineSignature.Event) : wireSignature.Event :=
  ⟨.inr (.machine event.1), event.2⟩

/-- What the machine sees of a history on the wire. -/
def machineEvents (events : WireHistory) : MachineHistory :=
  events.filterMap fun
    | ⟨.inr (.machine o), x⟩ => some ⟨o, x⟩
    | _ => none

/-- What the reads of a history gave. -/
def bodyReads (events : WireHistory) : List (Except Exc Bytes) :=
  events.filterMap fun
    | ⟨.inr (.read _), x⟩ => some x
    | _ => none

/-- What is done while a response is open. -/
def MachineOp.Receiving : MachineOp → Prop
  | .openPart | .writePart _ | .closePart | .replacePart | .clock => True
  | _ => False

/-- What is done between two exchanges. -/
def MachineOp.Outside : MachineOp → Prop
  | .makeDirectory | .unlinkPart | .decide _ _ => True
  | _ => False

/-- Reads of one response, and what is done with them. -/
def Interior (hop : Nat) (events : WireHistory) : Prop :=
  ∀ event ∈ events, event.1 = .inr (.read hop) ∨
    ∃ o : MachineOp, o.Receiving ∧ event.1 = .inr (.machine o)

@[simp] theorem machineEvents_append (events events' : WireHistory) :
    machineEvents (events ++ events') = machineEvents events ++ machineEvents events' :=
  List.filterMap_append

@[simp] theorem bodyReads_append (events events' : WireHistory) :
    bodyReads (events ++ events') = bodyReads events ++ bodyReads events' :=
  List.filterMap_append

@[simp] theorem machineEvents_map (history : MachineHistory) :
    machineEvents (history.map machineEvent) = history := by
  induction history with
  | nil => rfl
  | cons event history ih => exact congrArg (event :: ·) ih

@[simp] theorem bodyReads_map (history : MachineHistory) :
    bodyReads (history.map machineEvent) = [] := by
  induction history with
  | nil => rfl
  | cons event history ih => exact ih

theorem interior_append {hop : Nat} {events events' : WireHistory} :
    Interior hop (events ++ events') ↔ Interior hop events ∧ Interior hop events' :=
  List.forall_mem_append

theorem interior_map {hop : Nat} {history : MachineHistory}
    (h : ∀ event ∈ history, event.1.Receiving) : Interior hop (history.map machineEvent) := by
  intro event hevent
  obtain ⟨own, hown, rfl⟩ := List.mem_map.mp hevent
  exact .inr ⟨own.1, h own hown, rfl⟩

theorem trace_onMachine {α : Type} {p : Program machineSignature Exc α} {events : WireHistory}
    {r : Except Exc α} :
    (onMachine p).Trace events r ↔ ∃ own, events = own.map machineEvent ∧ p.Trace own r := by
  induction p generalizing events with
  | ret a =>
    constructor
    · rintro ⟨rfl, rfl⟩
      exact ⟨[], rfl, rfl, rfl⟩
    · rintro ⟨_, rfl, rfl, rfl⟩
      exact ⟨rfl, rfl⟩
  | raise exc =>
    constructor
    · rintro ⟨rfl, rfl⟩
      exact ⟨[], rfl, rfl, rfl⟩
    · rintro ⟨_, rfl, rfl, rfl⟩
      exact ⟨rfl, rfl⟩
  | call o k ih =>
    constructor
    · rintro ⟨x, rest, rfl, h⟩
      obtain ⟨own, rfl, hown⟩ := (ih x).mp h
      exact ⟨⟨o, x⟩ :: own, rfl, hown.call⟩
    · rintro ⟨_, rfl, x, own, rfl, h⟩
      exact ⟨x, own.map machineEvent, rfl, (ih x).mpr ⟨own, rfl, h⟩⟩

/-- The program reads a body, at most `limit` times, and then has done what `q` does with that body. -/
def Streams {α : Type} (hop limit : Nat) (p : Program wireSignature Exc α)
    (q : List (Except Exc Bytes) → Program machineSignature Exc α) : Prop :=
  ∀ ⦃events r⦄, p.Trace events r → Interior hop events ∧ (bodyReads events).length ≤ limit ∧
    (q (bodyReads events)).Trace (machineEvents events) r

section Streams

variable {α β : Type} {hop limit : Nat} {p : Program wireSignature Exc α}
  {q : List (Except Exc Bytes) → Program machineSignature Exc α}

theorem Streams.of_eq {q' : List (Except Exc Bytes) → Program machineSignature Exc α}
    (h : Streams hop limit p q') (heq : ∀ reads, q reads = q' reads) : Streams hop limit p q :=
  funext heq ▸ h

theorem streams_ofExcept (x : Except Exc α) :
    Streams hop limit (.ofExcept x) fun _ => .ofExcept x := by
  intro events r h
  obtain ⟨rfl, rfl⟩ := Program.trace_ofExcept.mp h
  exact ⟨nofun, Nat.zero_le _, Program.trace_ofExcept.mpr ⟨rfl, rfl⟩⟩

theorem streams_ret (a : α) : Streams hop limit (.ret a) fun _ => .ret a :=
  streams_ofExcept (.ok a)

theorem streams_raise (exc : Exc) :
    Streams hop limit (.raise exc : Program wireSignature Exc α) fun _ => .raise exc :=
  streams_ofExcept (.error exc)

theorem Streams.parsed {x : Except Exc β} {f : β → Program wireSignature Exc α}
    {q : β → List (Except Exc Bytes) → Program machineSignature Exc α}
    (hf : ∀ b, Streams hop limit (f b) (q b)) :
    Streams hop limit ((Program.ofExcept x).bind f) fun reads =>
      (Program.ofExcept x).bind fun b => q b reads := by
  cases x with
  | ok b => exact hf b
  | error exc => exact streams_raise exc

/-- What follows a program that does not read. -/
theorem Streams.after {g : Program machineSignature Exc β} {f : β → Program wireSignature Exc α}
    {q : β → List (Except Exc Bytes) → Program machineSignature Exc α}
    (hg : g.Calls MachineOp.Receiving) (hf : ∀ b, Streams hop limit (f b) (q b)) :
    Streams hop limit ((onMachine g).bind f) fun reads => g.bind fun b => q b reads := by
  intro events r h
  obtain ⟨before, after, r₁, rfl, hbefore, hafter⟩ := Program.trace_bind.mp h
  obtain ⟨own, rfl, hown⟩ := trace_onMachine.mp hbefore
  have hinterior : Interior hop (own.map machineEvent) := interior_map (hown.calls hg)
  rcases r₁ with exc | b
  · obtain ⟨rfl, rfl⟩ := hafter
    refine ⟨by simpa using hinterior, by simp, Program.trace_bind.mpr ?_⟩
    exact ⟨own, [], .error exc, by simp, hown, rfl, rfl⟩
  · obtain ⟨hrest, hreads, htrace⟩ := hf b hafter
    refine ⟨interior_append.mpr ⟨hinterior, hrest⟩, by simpa using hreads, ?_⟩
    rw [bodyReads_append, bodyReads_map, List.nil_append]
    exact Program.trace_bind.mpr ⟨own, machineEvents after, .ok b, by simp, hown, htrace⟩

/-- The body is read first, and what follows does not read. -/
theorem Streams.bind {f : α → Program wireSignature Exc β}
    {g : α → Program machineSignature Exc β} (hp : Streams hop limit p q)
    (hf : ∀ a, Streams hop 0 (f a) fun _ => g a) :
    Streams hop limit (p.bind f) fun reads => (q reads).bind g := by
  intro events r h
  obtain ⟨before, after, r₁, rfl, hbefore, hafter⟩ := Program.trace_bind.mp h
  obtain ⟨hinterior, hreads, htrace⟩ := hp hbefore
  rcases r₁ with exc | a
  · obtain ⟨rfl, rfl⟩ := hafter
    rw [List.append_nil]
    refine ⟨hinterior, hreads, Program.trace_bind.mpr ?_⟩
    exact ⟨machineEvents before, [], .error exc, by simp, htrace, rfl, rfl⟩
  · obtain ⟨hinterior', hreads', htrace'⟩ := hf a hafter
    have hnone : bodyReads after = [] := List.length_eq_zero_iff.mp (Nat.le_zero.mp hreads')
    refine ⟨interior_append.mpr ⟨hinterior, hinterior'⟩, by simpa [hnone] using hreads, ?_⟩
    rw [bodyReads_append, hnone, List.append_nil]
    exact Program.trace_bind.mpr
      ⟨machineEvents before, machineEvents after, .ok a, by simp, htrace, htrace'⟩

theorem Streams.ensuring {g : Program machineSignature Exc Unit} (hp : Streams hop limit p q)
    (hg : g.Calls MachineOp.Receiving) :
    Streams hop limit (p.ensuring (onMachine g)) fun reads => (q reads).ensuring g := by
  intro events r h
  obtain ⟨before, after, r₁, cleaned, rfl, hbefore, hafter, rfl⟩ := Program.trace_ensuring.mp h
  obtain ⟨hinterior, hreads, htrace⟩ := hp hbefore
  obtain ⟨own, rfl, hown⟩ := trace_onMachine.mp hafter
  have hinterior' : Interior hop (own.map machineEvent) := interior_map (hown.calls hg)
  refine ⟨interior_append.mpr ⟨hinterior, hinterior'⟩, by simpa using hreads, ?_⟩
  rw [bodyReads_append, bodyReads_map, List.append_nil]
  exact Program.trace_ensuring.mpr
    ⟨machineEvents before, own, r₁, cleaned, by simp, htrace, hown, rfl⟩

/-- By induction on the room that is left: every chunk but a refused one takes at least one byte of it. -/
theorem streams_receiveStream {ceiling sizeBytes : Nat} {digest : Digest}
    (hfits : sizeBytes ≤ ceiling) :
    Streams hop (ceiling - sizeBytes + 1) (receiveStream ceiling hop sizeBytes digest)
      fun reads => receiveBody ceiling reads sizeBytes digest := by
  induction hroom : ceiling - sizeBytes using Nat.strong_induction_on generalizing sizeBytes digest with
  | _ room ih =>
  intro events r h
  rw [receiveStream] at h
  obtain ⟨x, rest, rfl, hrest⟩ := h
  have hread : Interior hop [⟨.inr (.read hop), x⟩] := by simp [Interior]
  rcases x with exc | (_ | ⟨byte, bytes⟩)
  · obtain ⟨rfl, rfl⟩ := hrest
    exact ⟨hread, Nat.succ_pos room, rfl, rfl⟩
  · obtain ⟨rfl, rfl⟩ := hrest
    exact ⟨hread, Nat.succ_pos room, rfl, rfl⟩
  · dsimp only at hrest
    split at hrest
    · -- the chunk does not fit
      rename_i hlarge
      obtain ⟨rfl, rfl⟩ := hrest
      refine ⟨hread, Nat.succ_pos room, ?_⟩
      have hbody : receiveBody ceiling [.ok (byte :: bytes)] sizeBytes digest = .raise
          (.downloadSizeLimitError ("download exceeds " ++ toString ceiling ++ " bytes")) := by
        simp only [receiveBody, if_pos hlarge]
      change (receiveBody ceiling [.ok (byte :: bytes)] sizeBytes digest).Trace [] _
      rw [hbody]
      exact ⟨rfl, rfl⟩
    · rename_i hsmall
      have hlength : (byte :: bytes).length = bytes.length + 1 := rfl
      have hstreams : Streams hop room ((onMachine (.call (.writePart (byte :: bytes)) .ofExcept)).bind
          fun () => receiveStream ceiling hop (sizeBytes + (byte :: bytes).length)
            (digest.update (byte :: bytes))) fun reads =>
          (.call (.writePart (byte :: bytes)) .ofExcept : Program machineSignature Exc Unit).bind
            fun () => receiveBody ceiling reads (sizeBytes + (byte :: bytes).length)
              (digest.update (byte :: bytes)) := by
        refine .after (Program.calls_reply trivial) fun _ => ?_
        intro events r h
        obtain ⟨hinterior, hreads, htrace⟩ := ih _ (by omega) (by omega) rfl h
        exact ⟨hinterior, by omega, htrace⟩
      obtain ⟨hinterior, hreads, htrace⟩ := hstreams hrest
      refine ⟨interior_append.mpr ⟨hread, hinterior⟩, Nat.succ_le_succ hreads, ?_⟩
      change (receiveBody ceiling (.ok (byte :: bytes) :: bodyReads rest) sizeBytes digest).Trace
        (machineEvents rest) r
      simp only [receiveBody, if_neg hsmall]
      exact htrace

end Streams

/-- A response with what the reads of its body give. -/
def StreamingHttpResponse.ofReads (response : StreamingResponse) (reads : List (Except Exc Bytes)) :
    StreamingHttpResponse :=
  ⟨response.status, response.headers, response.finalUrl, reads⟩

namespace MetSnapshotDownloader

variable {downloader : MetSnapshotDownloader} {urljoin : String → String → String}
  {destination : String} {conditional : Option MetSnapshotConditional}

theorem streams_receiveSnapshot (response : StreamingResponse) :
    Streams response.body (downloader.ceiling + 1)
      (downloader.receiveSnapshotOverHttp destination response)
      fun reads => downloader.receiveSnapshot destination (.ofReads response reads) := by
  have hloop : Streams response.body (downloader.ceiling + 1)
      (receiveStream downloader.ceiling response.body 0 .new)
      fun reads => receiveBody downloader.ceiling reads 0 .new :=
    streams_receiveStream (Nat.zero_le _)
  simp only [receiveSnapshot, receiveSnapshotOn, StreamingHttpResponse.ofReads]
  refine .parsed fun expectedLength => .after ?_ fun _ => .bind (hloop.ensuring ?_) fun received => ?_
  · exact Program.calls_reply trivial
  · exact Program.calls_reply trivial
  dsimp only
  split
  · exact streams_raise _
  · refine .parsed fun _ => .after ?_ fun _ => .after ?_ fun _ => streams_ret _
    · exact Program.calls_reply trivial
    · exact Program.calls_reply trivial

theorem streams_receive (response : StreamingResponse) :
    Streams response.body (downloader.ceiling + 1)
      (downloader.receiveOverHttp destination conditional response)
      fun reads => downloader.receive destination conditional (.ofReads response reads) := by
  by_cases h304 : response.status = 304 ∧ conditional.isSome
  · rw [receiveOverHttp, receiveOn, if_pos h304]
    refine Streams.of_eq (.after ?_ fun _ => streams_ret _) fun reads => if_pos h304
    exact Program.calls_reply trivial
  by_cases hretry : response.status ∈ retryableStatuses
  · rw [receiveOverHttp, receiveOn, if_neg h304, if_pos hretry]
    exact (streams_raise _).of_eq fun reads => (if_neg h304).trans (if_pos hretry)
  by_cases h200 : response.status ≠ 200
  · rw [receiveOverHttp, receiveOn, if_neg h304, if_neg hretry, if_pos h200]
    exact (streams_raise _).of_eq fun reads => ((if_neg h304).trans (if_neg hretry)).trans (if_pos h200)
  · rw [receiveOverHttp, receiveOn, if_neg h304, if_neg hretry, if_neg h200]
    exact (streams_receiveSnapshot response).of_eq fun reads =>
      ((if_neg h304).trans (if_neg hretry)).trans (if_neg h200)

variable (downloader urljoin conditional)

/-- The loop of `open` for an attempt. -/
def opening : Program poolSignature Exc (Option (Nat × PoolResponse) × String) :=
  redirects urljoin (some (conditionalHeaders conditional)) defaultMaxRedirects
    (defaultMaxRedirects + 1) 0 downloader.url

/-- What one `with` over the client does on the wire, and what it is at the interface. -/
inductive Exchange : WireHistory → MachineHistory → Prop where
  | refused (loop exc) : (downloader.opening urljoin conditional).Trace loop (.error exc) →
      Exchange (loop.map Program.inlEvent)
        [⟨.request downloader.url (conditionalHeaders conditional), .error exc⟩]
  | answered (loop hop response finalUrl body cleanup closed) :
      (downloader.opening urljoin conditional).Trace loop (.ok (some (hop, response), finalUrl)) →
      Interior hop body → (bodyReads body).length ≤ downloader.ceiling + 1 →
      (release hop).Trace cleanup closed →
      Exchange (loop.map Program.inlEvent ++ body ++ cleanup.map Program.inlEvent)
        (⟨.request downloader.url (conditionalHeaders conditional),
            .ok (.ofReads ⟨response.status, response.headers, finalUrl, hop⟩ (bodyReads body))⟩ ::
          machineEvents body ++ [⟨.closeResponse, closed⟩])

/-- What a history on the wire is at the interface: exchanges, and what is done between them. -/
inductive Realizes : WireHistory → MachineHistory → Prop where
  | nil : Realizes [] []
  | between (o : MachineOp) (x) : o.Outside → Realizes [machineEvent ⟨o, x⟩] [⟨o, x⟩]
  | exchange {events history} : Exchange downloader urljoin conditional events history →
      Realizes events history
  | append {events events' history history'} : Realizes events history →
      Realizes events' history' → Realizes (events ++ events') (history ++ history')

/-- The wire, for the interface. -/
def wire : Correspondence wireSignature machineSignature where
  Rel := Realizes downloader urljoin conditional
  nil := .nil
  append := .append

variable {downloader urljoin conditional}

/-- An attempt is one exchange. -/
theorem exchange_of_attempt {events : WireHistory} {r : Except Exc DownloadResult}
    (h : (downloader.attemptOverHttp urljoin destination conditional).Trace events r) :
    ∃ history, (downloader.attempt destination conditional).Trace history r ∧
      Exchange downloader urljoin conditional events history := by
  obtain ⟨opened, rest, answer, rfl, hopen, hrest⟩ := Program.trace_bind.mp h
  obtain ⟨loop, rfl, hloop⟩ := Program.trace_inl.mp hopen
  rcases answer with exc | ⟨_ | ⟨hop, response⟩, finalUrl⟩
  · obtain ⟨rfl, rfl⟩ := hrest
    rw [List.append_nil]
    refine ⟨_, Program.trace_bind.mpr ⟨[_], [], .error exc, rfl, ?_, rfl, rfl⟩, .refused loop exc hloop⟩
    exact Program.trace_reply.mpr ⟨.error exc, rfl, rfl⟩
  · exact absurd rfl (Urllib3StreamingHttpClient.redirects_ne_none hloop (Nat.succ_pos _) rfl finalUrl)
  · obtain ⟨body, closing, received, cleaned, rfl, hbody, hclosing, rfl⟩ :=
      Program.trace_ensuring.mp hrest
    obtain ⟨cleanup, rfl, hcleanup⟩ := Program.trace_inl.mp hclosing
    obtain ⟨hinterior, hreads, htrace⟩ := streams_receive _ hbody
    rw [← List.append_assoc]
    refine ⟨_, ?_, .answered loop hop response finalUrl body cleanup cleaned hloop hinterior hreads
      hcleanup⟩
    refine Program.trace_bind.mpr ⟨[_], machineEvents body ++ [⟨.closeResponse, cleaned⟩],
      .ok (.ofReads _ (bodyReads body)), rfl, Program.trace_reply.mpr ⟨.ok _, rfl, rfl⟩, ?_⟩
    exact Program.trace_ensuring.mpr ⟨machineEvents body, [⟨.closeResponse, cleaned⟩], received,
      cleaned, rfl, htrace, Program.trace_reply.mpr ⟨cleaned, rfl, rfl⟩, rfl⟩

/-- A call between two exchanges. -/
theorem implements_between {α : Type} (o : MachineOp) (ho : o.Outside)
    {f : machineSignature.Reply o → Except Exc α} :
    Program.Implements (downloader.wire urljoin conditional)
      (onMachine (.call o fun x => .ofExcept (f x))) (.call o fun x => .ofExcept (f x)) := by
  intro events r h
  obtain ⟨own, rfl, hown⟩ := trace_onMachine.mp h
  refine ⟨own, hown, ?_⟩
  obtain ⟨x, rfl, rfl⟩ := Program.trace_reply.mp hown
  exact .between o x ho

/-- By induction on the attempts that remain. -/
theorem implements_attempts (remaining number : Nat) :
    Program.Implements (downloader.wire urljoin conditional)
      (downloader.attemptsOverHttp urljoin destination conditional remaining number)
      (downloader.attempts destination conditional remaining number) := by
  induction remaining generalizing number with
  | zero => exact Program.implements_raise _
  | succ remaining ih =>
    have hunlink : Program.Implements (downloader.wire urljoin conditional)
        (onMachine (.call .unlinkPart .ofExcept)) (.call .unlinkPart .ofExcept) :=
      implements_between .unlinkPart trivial
    have hattempt : Program.Implements (downloader.wire urljoin conditional)
        (downloader.attemptOverHttp urljoin destination conditional)
        (downloader.attempt destination conditional) := by
      intro events r h
      obtain ⟨history, htrace, hexchange⟩ := exchange_of_attempt h
      exact ⟨history, htrace, .exchange hexchange⟩
    have hreraise (exc : Exc) : Program.Implements (downloader.wire urljoin conditional)
        ((onMachine (.call .unlinkPart .ofExcept) : Program wireSignature Exc Unit).bind fun _ =>
          (.raise exc : Program wireSignature Exc DownloadResult))
        ((.call .unlinkPart .ofExcept : Program machineSignature Exc Unit).bind fun _ =>
          (.raise exc : Program machineSignature Exc DownloadResult)) :=
      hunlink.bind fun _ => Program.implements_raise exc
    rw [attemptsOverHttp, attempts, attemptsOn, attemptsOn]
    refine (hunlink.bind fun _ => hattempt).handle fun exc => ?_
    cases exc with
    | downloadSizeLimitError message => exact hreraise _
    | httpDownloadError message => exact hreraise _
    | _ =>
      refine hunlink.bind fun _ => ?_
      split
      · refine Program.Implements.bind (implements_between (.decide _ number) trivial) fun decision => ?_
        cases decision with
        | retry => exact ih (number + 1)
        | stop => exact Program.implements_raise _
      · exact Program.implements_raise _

/-- By induction on the attempts that remain: what a call returns, its last attempt has returned. -/
theorem returned_of_attempts {remaining number : Nat} {events : WireHistory} {result : DownloadResult}
    (h : (downloader.attemptsOverHttp urljoin destination conditional remaining number).Trace events
      (.ok result)) :
    ∃ before last, events = before ++ last ∧
      (downloader.attemptOverHttp urljoin destination conditional).Trace last (.ok result) := by
  induction remaining generalizing number events with
  | zero => cases h.2
  | succ remaining ih =>
    rw [attemptsOverHttp, attemptsOn] at h
    obtain ⟨tried, after, outcome, rfl, htried, hafter⟩ := Program.trace_handle.mp h
    rcases outcome with exc | returned
    · have hreraise {exc : Exc}
          (hraised : ((onMachine (.call .unlinkPart .ofExcept) :
              Program wireSignature Exc Unit).bind fun _ =>
            (.raise exc : Program wireSignature Exc DownloadResult)).Trace after (.ok result)) :
          False := by
        obtain ⟨_, _, _, rfl, -, hrest⟩ := Program.trace_bind_ok.mp hraised
        cases hrest.2
      cases exc with
      | downloadSizeLimitError message => exact (hreraise hafter).elim
      | httpDownloadError message => exact (hreraise hafter).elim
      | _ =>
        obtain ⟨unlinked, rest, _, rfl, -, hrest⟩ := Program.trace_bind_ok.mp hafter
        split at hrest
        · obtain ⟨asked, again, decision, rfl, -, hagain⟩ := Program.trace_bind_ok.mp hrest
          cases decision with
          | stop => cases hagain.2
          | retry =>
            obtain ⟨before, last, rfl, hlast⟩ := ih hagain
            exact ⟨tried ++ (unlinked ++ (asked ++ before)), last, by simp, hlast⟩
        · cases hrest.2
    · obtain ⟨rfl, hreturned⟩ := hafter
      cases hreturned
      obtain ⟨unlinked, last, _, rfl, -, hlast⟩ := Program.trace_bind_ok.mp htried
      exact ⟨unlinked, last, by simp, hlast⟩

theorem implements_run :
    Program.Implements (downloader.wire urljoin conditional)
      (downloader.runOverHttp urljoin destination conditional)
      (downloader.run destination conditional) := by
  have hmake : Program.Implements (downloader.wire urljoin conditional)
      (onMachine (.call .makeDirectory .ofExcept)) (.call .makeDirectory .ofExcept) :=
    implements_between .makeDirectory trivial
  refine (hmake.handle fun exc => ?_).bind fun _ => implements_attempts _ _
  split
  · exact Program.implements_raise _
  · exact Program.implements_raise _

end MetSnapshotDownloader

end EvidenceCartographer.Sources.Met

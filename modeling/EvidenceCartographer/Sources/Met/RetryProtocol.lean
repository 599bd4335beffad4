import EvidenceCartographer.Concurrency.Trace
import EvidenceCartographer.Sources.Met.DownloadedFile

/-! The retry protocol of a download.

    A call is a sequence of rounds. Each unlinks the part file and makes one attempt; a failed one
    unlinks the part file again, and asks the decider if it failed retryably and is not the last allowed.
    The history of a call is that of its rounds, whatever the attempts meet and whatever the decider
    answers, and only the last round has not been told to retry. -/

namespace EvidenceCartographer.Sources.Met

open Python Domain Application Infrastructure Concurrency

/-- The directory can be made, the part file be unlinked, and the decider returns. -/
def MachineOp.Cooperates (o : MachineOp) (r : machineSignature.Reply o) : Prop :=
  match o, r with
  | .makeDirectory, .error _ | .unlinkPart, .error _ | .decide _ _, .error _ => False
  | _, _ => True

def Cooperative (history : MachineHistory) : Prop := ∀ event ∈ history, event.1.Cooperates event.2

/-- Neither a request nor a question to the decider. -/
def MachineOp.Local : MachineOp → Prop
  | .request _ _ | .decide _ _ => False
  | _ => True

/-- The number of attempts made: each sends one request. -/
def attemptsMade (history : MachineHistory) : Nat :=
  history.countP fun event => match event.1 with
    | .request _ _ => true
    | _ => false

/-- What the decider was asked and has answered. -/
def consultations (history : MachineHistory) : List (Exc × Nat × RetryDecision) :=
  history.filterMap fun
    | ⟨.decide failure number, .ok decision⟩ => some (failure, number, decision)
    | _ => none

theorem attemptsMade_append (history history' : MachineHistory) :
    attemptsMade (history ++ history') = attemptsMade history + attemptsMade history' :=
  List.countP_append

theorem consultations_append (history history' : MachineHistory) :
    consultations (history ++ history') = consultations history ++ consultations history' :=
  List.filterMap_append

theorem attemptsMade_local {history : MachineHistory} (h : ∀ event ∈ history, event.1.Local) :
    attemptsMade history = 0 := by
  refine List.countP_eq_zero.mpr fun event hevent => ?_
  have hlocal := h event hevent
  rcases event with ⟨o, x⟩
  cases o with
  | request url headers => exact hlocal.elim
  | _ => exact Bool.false_ne_true

theorem consultations_local {history : MachineHistory} (h : ∀ event ∈ history, event.1.Local) :
    consultations history = [] := by
  refine List.filterMap_eq_nil_iff.mpr fun event hevent => ?_
  have hlocal := h event hevent
  rcases event with ⟨o, x⟩
  cases o with
  | decide failure number => exact hlocal.elim
  | _ => rfl

/-- Failures that end the call at once: a terminal status, and too large a body. -/
def isTerminal : Exc → Bool
  | .downloadSizeLimitError _ | .httpDownloadError _ => true
  | _ => false

/-- The statuses that are neither answered by a result nor retryable. -/
def TerminalStatus (conditional : Option MetSnapshotConditional) (status : Int) : Prop :=
  status ≠ 200 ∧ status ∉ retryableStatuses ∧ ¬ (status = 304 ∧ conditional.isSome)

/-- One attempt, how it ended, and what the decider said to that, if it was asked. -/
structure Round where
  events : MachineHistory
  outcome : Except Exc DownloadResult
  decision : Option RetryDecision

/-- The attempt failed with something that may be retried. -/
def Round.FailedRetryably (round : Round) : Prop :=
  ∃ exc, round.outcome = .error exc ∧ isTerminal exc = false

namespace MetSnapshotDownloader

variable (downloader : MetSnapshotDownloader) (destination : String)
  (conditional : Option MetSnapshotConditional)

/-- What an attempt's exception is reported as: an untyped one is wrapped. -/
def failure : Exc → Exc
  | .downloadSizeLimitError message => .downloadSizeLimitError message
  | .downloadIntegrityError message => .downloadIntegrityError message
  | .retryableHttpDownloadError message => .retryableHttpDownloadError message
  | .httpDownloadError message => .httpDownloadError message
  | exc => .retryableHttpDownloadError
      ("HTTP download failed for " ++ downloader.url ++ ": " ++ exc.str)

/-- The question of a round, with its answer. -/
def question (number : Nat) (round : Round) : Option (Exc × Nat × RetryDecision) :=
  match round.outcome, round.decision with
  | .error exc, some decision => some (downloader.failure exc, number, decision)
  | _, _ => none

/-- The history of round `number`. -/
def roundHistory (number : Nat) (round : Round) : MachineHistory :=
  ⟨.unlinkPart, .ok ()⟩ :: round.events ++ match round.outcome with
    | .ok _ => []
    | .error _ => ⟨.unlinkPart, .ok ()⟩ :: ((downloader.question number round).map fun asked =>
        ⟨.decide asked.1 asked.2.1, .ok asked.2.2⟩).toList

/-- The history of rounds, the first of them `number`. -/
def roundsHistory : Nat → List Round → MachineHistory
  | _, [] => []
  | number, round :: rounds =>
    downloader.roundHistory number round ++ roundsHistory (number + 1) rounds

/-- The questions of rounds, the first of them `number`. -/
def questions : Nat → List Round → List (Exc × Nat × RetryDecision)
  | _, [] => []
  | number, round :: rounds =>
    (downloader.question number round).toList ++ questions (number + 1) rounds

/-- The round is one attempt: one request, no question, and the outcome its status calls for. -/
structure Ran (round : Round) : Prop where
  trace : (downloader.attempt destination conditional).Trace round.events round.outcome
  requested : ∃ answer rest, round.events =
    ⟨.request downloader.url (conditionalHeaders conditional), answer⟩ :: rest ∧
      ∀ event ∈ rest, event.1.Local
  status : ∀ response rest, round.events =
    ⟨.request downloader.url (conditionalHeaders conditional), .ok response⟩ :: rest →
    (∀ exc, (⟨.closeResponse, .error exc⟩ : machineSignature.Event) ∉ rest) →
    (response.status ∈ retryableStatuses → round.FailedRetryably) ∧
    (TerminalStatus conditional response.status →
      ∃ exc, round.outcome = .error exc ∧ isTerminal exc = true)

/-- The rounds `before` and `last`, from `number` on, are what happened, and end in `r`. -/
structure Rounds (number : Nat) (before : List Round) (last : Round) (history : MachineHistory)
    (r : Except Exc DownloadResult) : Prop where
  history_eq : history = downloader.roundsHistory number (before ++ [last])
  ran : ∀ round ∈ before ++ [last], downloader.Ran destination conditional round
  bounded : number + before.length ≤ downloader.maxAttempts
  retried : ∀ round ∈ before, round.FailedRetryably ∧ round.decision = some .retry
  consulted : last.decision ≠ none ↔
    last.FailedRetryably ∧ number + before.length < downloader.maxAttempts
  stopped : last.decision ≠ some .retry
  result : r = last.outcome.mapError downloader.failure

variable {downloader destination conditional}

theorem receiveBody_local {ceiling sizeBytes : Nat} {digest : Digest}
    (reads : List (Except Exc Bytes)) :
    (receiveBody ceiling reads sizeBytes digest).Calls MachineOp.Local := by
  induction reads generalizing sizeBytes digest with
  | nil => trivial
  | cons read reads ih =>
    rcases read with exc | (_ | ⟨byte, bytes⟩)
    · trivial
    · trivial
    · simp only [receiveBody]
      split
      · trivial
      · exact .bind (Program.calls_reply trivial) fun _ => ih

theorem receiveSnapshot_local (response : StreamingHttpResponse) :
    (downloader.receiveSnapshot destination response).Calls MachineOp.Local := by
  refine .bind Program.calls_ofExcept fun expectedLength => ?_
  refine .bind (Program.calls_reply trivial) fun _ => ?_
  refine .bind (.ensuring (receiveBody_local response.body) (Program.calls_reply trivial)) ?_
  intro received
  dsimp only
  split
  · trivial
  · refine .bind Program.calls_ofExcept fun _ => ?_
    refine .bind (Program.calls_reply trivial) fun _ => ?_
    exact .bind (Program.calls_reply trivial) fun _ => trivial

theorem receive_local (response : StreamingHttpResponse) :
    (downloader.receive destination conditional response).Calls MachineOp.Local := by
  simp only [receive, receiveOn]
  split
  · exact .bind (Program.calls_reply trivial) fun _ => trivial
  split
  · trivial
  split
  · trivial
  · exact receiveSnapshot_local response

/-- What an attempt does with the answer to its request. -/
theorem attempt_trace {events : MachineHistory} {r : Except Exc DownloadResult}
    (h : (downloader.attempt destination conditional).Trace events r) :
    (∃ exc, events = [⟨.request downloader.url (conditionalHeaders conditional), .error exc⟩] ∧
      r = .error exc) ∨
    ∃ response rest, events =
        ⟨.request downloader.url (conditionalHeaders conditional), .ok response⟩ :: rest ∧
      ((downloader.receive destination conditional response).ensuring
        (.call .closeResponse .ofExcept)).Trace rest r := by
  obtain ⟨before, rest, answer, rfl, hrequest, hrest⟩ := Program.trace_bind.mp h
  obtain ⟨_, rfl, rfl⟩ := Program.trace_reply.mp hrequest
  rcases answer with exc | response
  · obtain ⟨rfl, rfl⟩ := hrest
    exact .inl ⟨exc, rfl, rfl⟩
  · exact .inr ⟨response, rest, rfl, hrest⟩

/-- A response that is refused at once: the outcome is the refusal, unless closing it raises. -/
theorem refused_of_trace {response : StreamingHttpResponse} {rest : MachineHistory}
    {r : Except Exc DownloadResult} {exc : Exc}
    (hreceive : downloader.receive destination conditional response = .raise exc)
    (h : ((downloader.receive destination conditional response).ensuring
      (.call .closeResponse .ofExcept)).Trace rest r)
    (hclosed : ∀ exc, (⟨.closeResponse, .error exc⟩ : machineSignature.Event) ∉ rest) :
    r = .error exc := by
  rw [hreceive] at h
  obtain ⟨before, after, r₁, cleaned, rfl, ⟨rfl, rfl⟩, hclose, rfl⟩ := Program.trace_ensuring.mp h
  obtain ⟨_, rfl, rfl⟩ := Program.trace_reply.mp hclose
  rcases cleaned with exc' | ⟨⟨⟩⟩
  · exact absurd (by simp) (hclosed exc')
  · rfl

theorem ran_of_trace {round : Round}
    (h : (downloader.attempt destination conditional).Trace round.events round.outcome) :
    downloader.Ran destination conditional round := by
  refine ⟨h, ?_, ?_⟩
  · rcases attempt_trace h with ⟨exc, hevents, -⟩ | ⟨response, rest, hevents, hrest⟩
    · exact ⟨_, [], hevents, by simp⟩
    · refine ⟨_, rest, hevents, hrest.calls ?_⟩
      exact .ensuring (receive_local response) (Program.calls_reply trivial)
  · intro response rest hevents hclosed
    have hrest : ((downloader.receive destination conditional response).ensuring
        (.call .closeResponse .ofExcept)).Trace rest round.outcome := by
      rcases attempt_trace h with ⟨exc, hevents', -⟩ | ⟨response', rest', hevents', hrest⟩
      · rw [hevents] at hevents'
        cases hevents'
      · rw [hevents] at hevents'
        cases hevents'
        exact hrest
    refine ⟨fun hstatus => ?_, fun ⟨h200, hretry, h304⟩ => ?_⟩
    · have h304 : ¬ (response.status = 304 ∧ conditional.isSome) := by
        rintro ⟨heq, -⟩
        rw [heq] at hstatus
        exact absurd hstatus (by decide)
      have hreceive : ∃ message, downloader.receive destination conditional response =
          .raise (.retryableHttpDownloadError message) := by
        rw [receive, receiveOn, if_neg h304, if_pos hstatus]
        exact ⟨_, rfl⟩
      obtain ⟨message, hreceive⟩ := hreceive
      exact ⟨_, refused_of_trace hreceive hrest hclosed, rfl⟩
    · have hreceive : ∃ message, downloader.receive destination conditional response =
          .raise (.httpDownloadError message) := by
        rw [receive, receiveOn, if_neg h304, if_neg hretry, if_pos h200]
        exact ⟨_, rfl⟩
      obtain ⟨message, hreceive⟩ := hreceive
      exact ⟨_, refused_of_trace hreceive hrest hclosed, rfl⟩

/-- The four handlers of the loop are two: by inheritance and order, one for the terminal failures and
    one for all others. -/
theorem attempts_succ (remaining number : Nat) :
    downloader.attempts destination conditional (remaining + 1) number =
      ((.call .unlinkPart .ofExcept : Program machineSignature Exc Unit).bind fun _ =>
        downloader.attempt destination conditional).handle fun exc =>
          (.call .unlinkPart .ofExcept : Program machineSignature Exc Unit).bind fun _ =>
            if isTerminal exc then .raise exc
            else if number < downloader.maxAttempts then
              (.call (.decide (downloader.failure exc) number) .ofExcept :
                Program machineSignature Exc RetryDecision).bind fun
                | .retry => downloader.attempts destination conditional remaining (number + 1)
                | .stop => .raise (downloader.failure exc)
            else .raise (downloader.failure exc) := by
  rw [attempts, attemptsOn]
  congr 1
  funext exc
  cases exc <;> rfl

theorem failure_of_isTerminal {exc : Exc} (h : isTerminal exc = true) :
    downloader.failure exc = exc := by
  cases exc <;> first | rfl | simp [isTerminal] at h

theorem Cooperative.append {history history' : MachineHistory} :
    Cooperative (history ++ history') ↔ Cooperative history ∧ Cooperative history' := by
  simp only [Cooperative, List.forall_mem_append]

/-- An unlinking of a cooperative history has worked. -/
theorem unlinked_of_trace {events : MachineHistory} {r : Except Exc Unit}
    (h : (.call .unlinkPart .ofExcept : Program machineSignature Exc Unit).Trace events r)
    (hcooperative : Cooperative events) : events = [⟨.unlinkPart, .ok ()⟩] ∧ r = .ok () := by
  obtain ⟨x, rfl, rfl⟩ := Program.trace_reply.mp h
  rcases r with exc | ⟨⟨⟩⟩
  · exact (hcooperative _ (List.mem_singleton_self _)).elim
  · exact ⟨rfl, rfl⟩

variable {number : Nat} {history : MachineHistory} {r : Except Exc DownloadResult}

/-- A round after which nothing follows. -/
theorem Rounds.single {round : Round}
    (htrace : (downloader.attempt destination conditional).Trace round.events round.outcome)
    (hnumber : number ≤ downloader.maxAttempts)
    (hconsulted : round.decision ≠ none ↔
      round.FailedRetryably ∧ number < downloader.maxAttempts)
    (hstopped : round.decision ≠ some .retry)
    (hhistory : history = downloader.roundHistory number round)
    (hresult : r = round.outcome.mapError downloader.failure) :
    downloader.Rounds destination conditional number [] round history r where
  history_eq := by simp [roundsHistory, hhistory]
  ran := by simpa using ran_of_trace htrace
  bounded := hnumber
  retried := by simp
  consulted := hconsulted
  stopped := hstopped
  result := hresult

/-- A round after which the decider asks for more. -/
theorem Rounds.cons (round : Round) {last : Round} {before : List Round}
    (htrace : (downloader.attempt destination conditional).Trace round.events round.outcome)
    (hfailed : round.FailedRetryably) (hretry : round.decision = some .retry)
    (h : downloader.Rounds destination conditional (number + 1) before last history r) :
    downloader.Rounds destination conditional number (round :: before) last
      (downloader.roundHistory number round ++ history) r where
  history_eq := by rw [h.history_eq]; rfl
  ran := by simpa using ⟨ran_of_trace htrace, by simpa using h.ran⟩
  bounded := by have := h.bounded; rw [List.length_cons]; omega
  retried := by simpa using ⟨⟨hfailed, hretry⟩, h.retried⟩
  consulted := by
    have heq : number + (round :: before).length = number + 1 + before.length := by
      rw [List.length_cons]; omega
    rw [heq]; exact h.consulted
  stopped := h.stopped
  result := h.result

/-- By induction on the attempts that remain. -/
theorem attempts_trace {remaining : Nat} (hpos : 0 < remaining)
    (hcount : remaining + number = downloader.maxAttempts + 1)
    (h : (downloader.attempts destination conditional remaining number).Trace history r)
    (hcooperative : Cooperative history) :
    ∃ before last, downloader.Rounds destination conditional number before last history r := by
  induction remaining generalizing number history with
  | zero => exact absurd hpos (Nat.lt_irrefl 0)
  | succ remaining ih =>
    rw [attempts_succ] at h
    obtain ⟨tried, after, outcome, rfl, htried, hafter⟩ := Program.trace_handle.mp h
    obtain ⟨htried', hafter'⟩ := Cooperative.append.mp hcooperative
    obtain ⟨unlinked, events, _, rfl, hunlink, hattempt⟩ := Program.trace_bind.mp htried
    obtain ⟨rfl, rfl⟩ := unlinked_of_trace hunlink (Cooperative.append.mp htried').1
    rcases outcome with exc | result
    · obtain ⟨unlinked, rest, _, rfl, hunlink, hrest⟩ := Program.trace_bind.mp hafter
      obtain ⟨hunlinked, hrest'⟩ := Cooperative.append.mp hafter'
      obtain ⟨rfl, rfl⟩ := unlinked_of_trace hunlink hunlinked
      dsimp only at hrest
      split at hrest
      · -- the failure is terminal
        rename_i hterminal
        obtain ⟨rfl, rfl⟩ := hrest
        refine ⟨[], ⟨events, .error exc, none⟩, .single hattempt (by omega) ?_ (by simp) ?_ ?_⟩
        · simp [Round.FailedRetryably, hterminal]
        · simp [roundHistory, question]
        · rw [Except.mapError, failure_of_isTerminal hterminal]
      rename_i hterminal
      have hfailed : isTerminal exc = false := Bool.eq_false_of_not_eq_true hterminal
      split at hrest
      · rename_i hlt
        obtain ⟨asked, rest, decided, rfl, hask, hdecided⟩ := Program.trace_bind.mp hrest
        obtain ⟨hasked, hrest''⟩ := Cooperative.append.mp hrest'
        obtain ⟨_, rfl, rfl⟩ := Program.trace_reply.mp hask
        rcases decided with exc' | (_ | _)
        · exact (hasked _ (List.mem_singleton_self _)).elim
        · -- the decider asks for another attempt
          obtain ⟨before, last, hrounds⟩ := ih (by omega) (by omega) hdecided hrest''
          refine ⟨⟨events, .error exc, some .retry⟩ :: before, last, ?_⟩
          have hcons := Rounds.cons ⟨events, .error exc, some .retry⟩ hattempt
            ⟨exc, rfl, hfailed⟩ rfl hrounds
          simpa [roundHistory, question] using hcons
        · obtain ⟨rfl, rfl⟩ := hdecided
          refine ⟨[], ⟨events, .error exc, some .stop⟩, .single hattempt (by omega) ?_ (by simp) ?_ rfl⟩
          · simp [Round.FailedRetryably, hfailed, hlt]
          · simp [roundHistory, question]
      · rename_i hlast
        obtain ⟨rfl, rfl⟩ := hrest
        refine ⟨[], ⟨events, .error exc, none⟩, .single hattempt (by omega) ?_ (by simp) ?_ rfl⟩
        · simp [hlast]
        · simp [roundHistory, question]
    · obtain ⟨rfl, rfl⟩ := hafter
      refine ⟨[], ⟨events, .ok result, none⟩, .single hattempt (by omega) ?_ (by simp) ?_ rfl⟩
      · simp [Round.FailedRetryably]
      · simp [roundHistory]

/-- A round makes one attempt and asks its own question, if any. -/
theorem Ran.counts {round : Round} (h : downloader.Ran destination conditional round) (number : Nat) :
    attemptsMade (downloader.roundHistory number round) = 1 ∧
      consultations (downloader.roundHistory number round) =
        (downloader.question number round).toList := by
  obtain ⟨answer, rest, hevents, hlocal⟩ := h.requested
  have hmade := attemptsMade_local hlocal
  have hasked := consultations_local hlocal
  have hround : downloader.roundHistory number round = [⟨.unlinkPart, .ok ()⟩,
      ⟨.request downloader.url (conditionalHeaders conditional), answer⟩] ++ rest ++
        match round.outcome with
        | .ok _ => []
        | .error _ => ⟨.unlinkPart, .ok ()⟩ :: ((downloader.question number round).map fun asked =>
            ⟨.decide asked.1 asked.2.1, .ok asked.2.2⟩).toList := by
    rw [roundHistory, hevents]; rfl
  rw [hround, attemptsMade_append, attemptsMade_append, consultations_append, consultations_append,
    hmade, hasked]
  cases houtcome : round.outcome with
  | ok result => simp [question, houtcome, attemptsMade, consultations]
  | error exc =>
    cases hquestion : downloader.question number round with
    | none => simp [attemptsMade, consultations]
    | some asked => simp [attemptsMade, consultations]

theorem roundsHistory_counts {rounds : List Round} (number : Nat)
    (h : ∀ round ∈ rounds, downloader.Ran destination conditional round) :
    attemptsMade (downloader.roundsHistory number rounds) = rounds.length ∧
      consultations (downloader.roundsHistory number rounds) =
        downloader.questions number rounds := by
  induction rounds generalizing number with
  | nil => exact ⟨rfl, rfl⟩
  | cons round rounds ih =>
    obtain ⟨hmade, hasked⟩ := (h round List.mem_cons_self).counts number
    obtain ⟨hmade', hasked'⟩ := ih (number + 1) fun round' hround' =>
      h round' (List.mem_cons_of_mem _ hround')
    rw [roundsHistory, attemptsMade_append, consultations_append, hmade, hasked, hmade', hasked']
    exact ⟨by rw [List.length_cons, Nat.add_comm], rfl⟩

/-- Whatever the attempts meet and whatever the decider answers: the history is that of rounds, at
    least one and at most the allowed number; all but the last failed retryably and were told to
    retry, the last was asked about exactly if it failed so and was not the last allowed, and was told
    to stop; each question is that of its round, and the call ends as its last round did. -/
theorem retry_protocol (h : (downloader.run destination conditional).Trace history r)
    (hcooperative : Cooperative history) :
    ∃ before last rest, history = ⟨.makeDirectory, .ok ()⟩ :: rest ∧
      downloader.Rounds destination conditional 1 before last rest r ∧
      attemptsMade history = before.length + 1 ∧
      consultations history = downloader.questions 1 (before ++ [last]) ∧
      ∀ message, r ≠ .error (.other "AssertionError" message) := by
  obtain ⟨made, rest, created, rfl, hcreate, hrest⟩ := Program.trace_bind.mp h
  obtain ⟨hmade, hrest'⟩ := Cooperative.append.mp hcooperative
  obtain ⟨first, handled, answer, rfl, hcall, hhandled⟩ := Program.trace_handle.mp hcreate
  obtain ⟨_, rfl, rfl⟩ := Program.trace_reply.mp hcall
  rcases answer with exc | ⟨⟨⟩⟩
  · exact (hmade _ (List.mem_append_left _ (List.mem_singleton_self _))).elim
  obtain ⟨rfl, rfl⟩ := hhandled
  obtain ⟨before, last, hrounds⟩ := attempts_trace downloader.maxAttempts_pos rfl hrest hrest'
  obtain ⟨hattempts, hquestions⟩ := roundsHistory_counts 1 hrounds.ran
  rw [← hrounds.history_eq] at hattempts hquestions
  refine ⟨before, last, rest, rfl, hrounds, ?_, ?_, ?_⟩
  · simpa [attemptsMade] using hattempts
  · simpa [consultations] using hquestions
  · intro message
    rw [hrounds.result]
    rcases last.outcome with exc | result
    · cases exc <;> simp [Except.mapError, failure]
    · simp [Except.mapError]

end MetSnapshotDownloader

/-- A response without a body. -/
def refusal (status : Int) : StreamingHttpResponse :=
  ⟨status, [], "https://museum.example/MetObjects.csv", []⟩

/-- A 503 that is to be retried, and then a 404. -/
def sampleRetried : MachineHistory :=
  [⟨.makeDirectory, .ok ()⟩, ⟨.unlinkPart, .ok ()⟩,
    ⟨.request sampleDownloader.url [], .ok (refusal 503)⟩, ⟨.closeResponse, .ok ()⟩,
    ⟨.unlinkPart, .ok ()⟩,
    ⟨.decide (.retryableHttpDownloadError ("HTTP 503 while downloading " ++ sampleDownloader.url)) 1,
      .ok .retry⟩,
    ⟨.unlinkPart, .ok ()⟩, ⟨.request sampleDownloader.url [], .ok (refusal 404)⟩,
    ⟨.closeResponse, .ok ()⟩, ⟨.unlinkPart, .ok ()⟩]

theorem sample_retried : (sampleDownloader.run "/tmp/met" none).Trace sampleRetried
    (.error (.httpDownloadError ("HTTP 404 while downloading " ++ sampleDownloader.url))) :=
  .call (.call (.call (.call (.call (.call (.call (.call (.call (.call ⟨rfl, rfl⟩)))))))))

theorem retry_protocol_sample : ∃ before last rest,
    sampleRetried = ⟨.makeDirectory, .ok ()⟩ :: rest ∧
    sampleDownloader.Rounds "/tmp/met" none 1 before last rest
      (.error (.httpDownloadError ("HTTP 404 while downloading " ++ sampleDownloader.url))) ∧
    before.length = 1 ∧ sampleDownloader.questions 1 (before ++ [last]) =
      [(.retryableHttpDownloadError ("HTTP 503 while downloading " ++ sampleDownloader.url), 1,
        .retry)] := by
  have hcooperative : Cooperative sampleRetried := by
    simp [Cooperative, sampleRetried, MachineOp.Cooperates]
  obtain ⟨before, last, rest, hhistory, hrounds, hmade, hasked, -⟩ :=
    MetSnapshotDownloader.retry_protocol sample_retried hcooperative
  exact ⟨before, last, rest, hhistory, hrounds, Nat.succ.inj hmade.symm, hasked.symm⟩

end EvidenceCartographer.Sources.Met

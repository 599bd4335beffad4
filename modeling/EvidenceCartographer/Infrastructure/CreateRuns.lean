import EvidenceCartographer.Infrastructure.CreateOutcome

/-! Any number of conditional creates at once.

    Each call is a party of `storeSystem`; a run is any interleaving of their sends, of what the
    server does with them, of answers, exceptions and HEAD requests. From `safe_putObjectIfAbsent`
    and from what the server promises about its answers follows what a return, a collision and a
    failure say about the store. -/

namespace EvidenceCartographer.Infrastructure

open Python Application Concurrency MinioConditionalObjectClient

/-- The arguments of one call of `put_object_if_absent`. -/
structure CreateCall where
  bucketName : String
  objectName : String
  data : Stream
  length : Nat
  sha256 : String
  contentType : String

namespace CreateCall

def key (call : CreateCall) : ObjectKey := (call.bucketName, call.objectName)

/-- The stream holds exactly `length` bytes from its position on entry. -/
def Whole (call : CreateCall) : Prop := call.data.rest.length = call.length

/-- What each PUT of the call carries. -/
def request (call : CreateCall) : PutRequest :=
  putRequest call.bucketName call.objectName call.data call.length call.sha256 call.contentType

/-- The payload is below the ceiling. -/
def Accepted (call : CreateCall) : Prop := call.length ≤ maxSinglePutSizeBytes

/-- The stream holds what the call announces, size and digest. -/
structure Honest (call : CreateCall) : Prop where
  whole : call.Whole
  digest : (Python.sha256 call.data.rest).text = call.sha256

def run (call : CreateCall) : Program httpSignature Exc Unit :=
  (minioConditionalObjectClient maxSinglePutSizeBytes).putObjectIfAbsent call.bucketName
    call.objectName call.data call.length call.sha256 call.contentType

end CreateCall

variable {ι : Type}

/-- A PUT of an accepted call that landed left an object for the payload. -/
theorem CreateCall.Accepted.landed {call : CreateCall} (haccepted : call.Accepted) {w : World ι}
    {i : ι} {n : Nat} {p : PutAttempt} (hp : w.puts.entry i n = some p) (hfate : p.fate = .landed)
    (hreq : p.request = call.request) :
    w.objects call.key = some (call.request.record (i, n)) ∧
      (call.request.record (i, n)).Matches call.length call.sha256 := by
  obtain ⟨hwhole, ho⟩ := w.stored i n p hp hfate
  rw [hreq] at hwhole ho
  refine ⟨ho, putRequest_matches hwhole (Nat.lt_of_le_of_lt haccepted ?_)⟩
  decide +kernel

/-- Every PUT of call `i` sent this request, of an accepted length. -/
def SentOnly (call : CreateCall) (i : ι) (w : World ι) : Prop :=
  ∀ n p, w.puts.entry i n = some p → p.request = call.request ∧ call.Accepted

theorem SentOnly.keptQuietly (call : CreateCall) (i : ι) : KeptQuietly i (SentOnly call i) := by
  intro w w' hsince hsize hw n p' hp'
  obtain ⟨p, hp⟩ := Log.entry_of_lt (hsize ▸ Log.lt_size hp')
  obtain ⟨q, hq, hreq, -⟩ := hsince.puts n p hp
  rw [hp'] at hq; cases hq
  rw [hreq]; exact hw n p hp

/-- The answer to a PUT was one the server may give: to some fate the PUT may still have come from,
    and with the key occupied if the answer took it to be. -/
def TruthfulTo (srv : Server) (i : ι) (w : World ι) : Prop :=
  ∀ n p response, w.puts.entry i n = some p → p.answer = some (.ok response) →
    ∃ fate occupied, srv.answers response.status fate occupied ∧ fate.Becomes p.fate ∧
      (occupied = true → ∃ o, w.objects p.request.key = some o)

theorem TruthfulTo.quiet {srv : Server} {i : ι} {w w' : World ι} (hq : Quiet i w w')
    (h : TruthfulTo srv i w) : TruthfulTo srv i w' := by
  intro n p' response hp' hans
  obtain ⟨p, hp, hreq, ha, hbecomes⟩ := hq.back hp'
  obtain ⟨fate, occupied, hsrv, hfate, hocc⟩ := h n p response hp (ha ▸ hans)
  refine ⟨fate, occupied, hsrv, ?_, fun h => ?_⟩
  · rcases hfate with heq | hpending
    · exact heq ▸ hbecomes
    · exact .inr hpending
  · obtain ⟨o, ho⟩ := hocc h
    exact ⟨o, hreq ▸ hq.objects _ o ho⟩

/-- 200 and 204 were answered to the creator. -/
theorem TruthfulTo.landed {srv : Server} (hsucc : srv.SuccessOnlyToCreator) {i : ι} {w : World ι}
    (h : TruthfulTo srv i w) {n : Nat} {p : PutAttempt} {answer : Except Exc HttpResponse}
    (hp : w.puts.entry i n = some p) (hans : p.answer = some answer) (hs : Succeeded answer) :
    w.Landed i n := by
  cases answer with
  | error e => exact hs.elim
  | ok response =>
    obtain ⟨fate, occupied, hsrv, hfate, -⟩ := h n p response hp hans
    have hlanded := hsucc _ _ _ hs hsrv
    rcases hfate with heq | hpending
    · exact ⟨p, hp, heq.trans hlanded⟩
    · rw [hlanded] at hpending; cases hpending

/-- A 4xx answer. -/
def ClientError : Except Exc HttpResponse → Prop
  | .error _ => False
  | .ok response => 400 ≤ response.status ∧ response.status < 500

theorem clientError_of_hasStatus {answer : Except Exc HttpResponse}
    (h : HasStatus 409 answer ∨ HasStatus 412 answer) : ClientError answer := by
  cases answer with
  | error e => exact (h.elim id id).elim
  | ok response => rcases h with h | h <;> simp only [HasStatus] at h <;> simp [ClientError, h]

/-- What was answered 4xx was refused. -/
theorem TruthfulTo.refused {srv : Server} (hrej : srv.RejectionIsFinal) {i : ι} {w : World ι}
    (h : TruthfulTo srv i w) {n : Nat} {p : PutAttempt} {answer : Except Exc HttpResponse}
    (hp : w.puts.entry i n = some p) (hans : p.answer = some answer) (hs : ClientError answer) :
    p.fate = .refused := by
  cases answer with
  | error e => exact hs.elim
  | ok response =>
    obtain ⟨fate, occupied, hsrv, hfate, -⟩ := h n p response hp hans
    have hrefused := hrej _ _ _ hs.1 hs.2 hsrv
    rcases hfate with heq | hpending
    · exact heq.trans hrefused
    · rw [hrefused] at hpending; cases hpending

/-- Call `i` has created the payload, or has found it at its key. -/
structure World.Secured (w : World ι) (i : ι) (call : CreateCall) : Prop where
  accepted : call.Accepted
  created_or_found : (∃ n p answer, w.puts.entry i n = some p ∧ p.request = call.request ∧
    p.answer = some answer ∧ Succeeded answer) ∨ w.Holds call.key call.length call.sha256

theorem World.Secured.since {i : ι} {w w' : World ι} {call : CreateCall} (hs : Since i w w')
    (h : w.Secured i call) : w'.Secured i call where
  accepted := h.accepted
  created_or_found := by
    rcases h.created_or_found with ⟨n, p, answer, hp, hreq, hans, hsucc⟩ | hholds
    · obtain ⟨p', hp', hreq', hans'⟩ := hs.puts n p hp
      exact .inl ⟨n, p', answer, hp', hreq'.trans hreq, hans' answer hans, hsucc⟩
    · exact .inr (hholds.since hs)

theorem World.Secured.holds {srv : Server} (hsucc : srv.SuccessOnlyToCreator) {i : ι} {w : World ι}
    (htruth : TruthfulTo srv i w) {call : CreateCall} (h : w.Secured i call) :
    w.Holds call.key call.length call.sha256 := by
  rcases h.created_or_found with ⟨n, p, answer, hp, hreq, hans, hs⟩ | hholds
  · obtain ⟨q, hq, hfate⟩ := htruth.landed hsucc hp hans hs
    rw [hp] at hq; cases hq
    obtain ⟨ho, hm⟩ := h.accepted.landed hp hfate hreq
    exact ⟨_, ho, hm⟩
  · exact hholds

/-- A create that returned has secured its payload. -/
theorem Ended.secured {i : ι} {w₀ w : World ι} {call : CreateCall} (haccepted : call.Accepted)
    (h : Ended maxSinglePutSizeBytes i w₀ call.length call.request call.sha256 (.ok ()) w) :
    w.Secured i call where
  accepted := haccepted
  created_or_found := by
    cases h.ending with
    | created n p answer _ hp hreq hans hs _ => exact .inl ⟨n, p, answer, hp, hreq, hans, hs⟩
    | found o ho hm _ _ => exact .inr ⟨o, ho, hm⟩

theorem World.Holds.unique {w : World ι} {key : ObjectKey} {length length' : Nat}
    {sha256 sha256' : String} (h : w.Holds key length sha256) (h' : w.Holds key length' sha256') :
    length = length' ∧ sha256 = sha256' := by
  obtain ⟨o, ho, hm⟩ := h
  obtain ⟨o', ho', hm'⟩ := h'
  rw [ho] at ho'; cases ho'
  rw [ObjectRecord.Matches, hm] at hm'
  cases hm'
  exact ⟨rfl, rfl⟩

/-- Some PUT of call `i` ended in an exception or an ambiguous status. -/
def World.HadAmbiguous (w : World ι) (i : ι) : Prop :=
  ∃ n p answer, w.puts.entry i n = some p ∧ p.answer = some answer ∧ Ambiguous answer

/-- The last answer of the call settles the outcome: a PUT answered 200 or 204, or a HEAD request
    answered with an object. -/
def World.Conclusive (w : World ι) (i : ι) : Prop :=
  (∃ answer, w.lastAnswer i = some (.put answer) ∧ Succeeded answer) ∨
    ∃ stat, w.lastAnswer i = some (.stat (.ok stat))

section Runs

variable [DecidableEq ι] {srv : Server} {call : ι → CreateCall}
  {c : Config ι httpSignature (World ι) Exc Unit}

theorem TruthfulTo.sendPut {i : ι} {w : World ι} {p : PutAttempt} {hfate : p.fate ≠ .landed}
    (hp : ∀ response, p.answer ≠ some (.ok response)) (h : TruthfulTo srv i w) :
    TruthfulTo srv i (w.sendPut i p hfate) := by
  intro n q response hq hans
  rw [World.sendPut, Log.entry_push] at hq
  split at hq
  · cases hq
    exact absurd hans (hp response)
  · exact h n q response hq hans

theorem TruthfulTo.answerPut {i : ι} {w : World ι} {m : Nat} {p : PutAttempt}
    {hp : w.puts.entry i m = some p} {answer : Except Exc HttpResponse}
    (hanswer : ∀ response, answer = .ok response →
      srv.answers response.status p.fate (w.objects p.request.key).isSome)
    (h : TruthfulTo srv i w) : TruthfulTo srv i (w.answerPut i m p hp answer) := by
  intro n q response hq hans
  rw [World.answerPut, World.setPut, Log.entry_amend hp] at hq
  split at hq
  · cases hq
    refine ⟨p.fate, _, hanswer response (Option.some.inj hans), .inl rfl, fun hsome => ?_⟩
    exact Option.isSome_iff_exists.mp hsome
  · exact h n q response hq hans

/-- One step of anybody keeps the answers truthful. -/
theorem TruthfulTo.exec {i j : ι} {o : HttpOp} {r : o.Reply} {w w' : World ι}
    (hx : Exec srv j o w r w') (h : TruthfulTo srv i w) : TruthfulTo srv i w' := by
  by_cases hij : i = j
  · subst hij
    cases hx with
    | notSent _ request e => exact h.sendPut (by simp)
    | sent _ request => exact h.sendPut (by simp)
    | answered _ n p response position hp hn hsrv =>
      exact h.answerPut (by rintro _ ⟨⟩; exact hsrv)
    | broken _ n p e position hp hn => exact h.answerPut (by simp)
    | statSent | found | missing | failed => exact h
  · exact h.quiet (Rely.of_exec srv hij hx).quiet

theorem truthfulTo_reachable {α : Type} {objects : ObjectKey → Option (Bytes × List (String × String))}
    {procs : ι → Program httpSignature Exc α} {c : Config ι httpSignature (World ι) Exc α}
    (hr : (storeSystem srv).Reachable ⟨World.initial objects, procs⟩ c) (i : ι) :
    TruthfulTo srv i c.shared := by
  refine hr.shared (TruthfulTo srv i) (fun w w' he h => ?_) (fun j o w r w' hx h => ?_) ?_
  · exact h.quiet (Rely.of_serve srv he).quiet
  · exact h.exec hx
  · intro n p response hp
    simp [World.initial] at hp

variable {objects : ObjectKey → Option (Bytes × List (String × String))}

theorem SentOnly.sending (call : CreateCall) (i : ι) (w₀ : World ι)
    (haccepted : call.Accepted) : KeptSending i (SentOnly call i) w₀ call.request := by
  intro w p hfate _ hw hreq n q hq
  rw [World.sendPut, Log.entry_push] at hq
  split at hq
  · cases hq
    exact ⟨hreq, haccepted⟩
  · exact hw n q hq

/-- One call, from before any of them has started. -/
theorem safe_run (call : CreateCall) (i : ι) :
    (storeSystem srv).Safe i (SentOnly call i) call.run
      (Ended maxSinglePutSizeBytes i (World.initial objects) call.length call.request call.sha256)
      (World.initial objects) := by
  have hw : SentOnly call i (World.initial objects) := by
    intro n p hp
    simp [World.initial] at hp
  by_cases hlt : maxSinglePutSizeBytes < call.length
  · simp only [CreateCall.run, minioConditionalObjectClient, putObjectIfAbsent, if_pos hlt]
    exact .tooLarge _ hlt
  · exact (safe_putObjectIfAbsent _ _ _ _ _ _ _ (.keptQuietly call i)
      (.sending call i _ (Nat.le_of_not_lt hlt)) hw).mono fun r w h => h.2

variable (hr : (storeSystem srv).Reachable ⟨World.initial objects, fun i => (call i).run⟩ c)

include hr

theorem guarded_of_reachable (i : ι) :
    (storeSystem srv).Guarded i (SentOnly (call i) i)
      (Ended maxSinglePutSizeBytes i (World.initial objects) (call i).length (call i).request
        (call i).sha256) c := by
  refine hr.safe (fun w w' hr' hw => (SentOnly.keptQuietly (call i) i).quiet hr'.quiet hw) ?_
    (safe_run (call i) i)
  intro n p hp
  simp [World.initial] at hp

theorem sentOnly_of_reachable (i : ι) : SentOnly (call i) i c.shared :=
  (guarded_of_reachable hr i).inv

theorem ended_of_reachable {i : ι} {r : Except Exc Unit} (ho : (c.procs i).outcome = some r) :
    Ended maxSinglePutSizeBytes i (World.initial objects) (call i).length (call i).request
      (call i).sha256 r c.shared :=
  (guarded_of_reachable hr i).post (fun _ _ hr' h => h.rely hr') ho

/-- The object a PUT of call `i` created is one for its payload. -/
theorem matches_of_landed {i : ι} {n : Nat} (hl : c.shared.Landed i n) :
    ∃ o, c.shared.objects (call i).key = some o ∧ o.creator = some (i, n) ∧
      o.Matches (call i).length (call i).sha256 := by
  obtain ⟨p, hp, hfate⟩ := hl
  obtain ⟨hreq, haccepted⟩ := sentOnly_of_reachable hr i n p hp
  obtain ⟨ho, hm⟩ := haccepted.landed hp hfate hreq
  exact ⟨_, ho, rfl, hm⟩

/-- A call that returned finds an object for its payload at its key. -/
theorem holds_of_returned (hsucc : srv.SuccessOnlyToCreator) {i : ι} (hret : c.procs i = .ret ()) :
    c.shared.Holds (call i).key (call i).length (call i).sha256 := by
  have ho : (c.procs i).outcome = some (.ok ()) := by rw [hret]; rfl
  have hend := ended_of_reachable hr ho
  cases hend.ending with
  | created n p answer _ hp _ hans hs _ =>
    have hl := (truthfulTo_reachable hr i).landed hsucc hp hans hs
    obtain ⟨o, ho, -, hm⟩ := matches_of_landed hr hl
    exact ⟨o, ho, hm⟩
  | found o ho hm _ _ => exact ⟨o, ho, hm⟩

end Runs

/-- A payload of one byte. -/
def sampleCall : CreateCall where
  bucketName := "bronze"
  objectName := "object"
  data := .ofBytes [65]
  length := 1
  sha256 := "559aead08264d5795d3909718cdd05abd49572e84fe55590eef31a88a08fdffd"
  contentType := "text/plain"

/-- Two calls with that payload for one free key. -/
def sampleStart : Config Bool httpSignature (World Bool) Exc Unit :=
  ⟨World.initial fun _ => none, fun _ => sampleCall.run⟩

/-- An answer without a body. -/
def plainResponse (status : Nat) : HttpResponse := ⟨status, "", none, none, none⟩

/-- The first call creates the object, the second meets it. -/
theorem sample_collision : ∃ c, (storeSystem Server.strict).Reachable sampleStart c ∧
    c.procs true = .ret () ∧ ∃ diagnostic,
      c.procs false = .raise (.conditionalObjectExistsError diagnostic) := by
  have h₀ : (storeSystem Server.strict).Reachable sampleStart sampleStart := .refl
  have h₁ := h₀.run true rfl (Exec.sent _ _)
  have h₂ := h₁.env (Serve.land true 0 _ rfl (by decide) rfl rfl)
  have h₃ := h₂.run true rfl
    (Exec.answered _ 0 _ (plainResponse 200) 1 rfl rfl (.inl ⟨rfl, rfl⟩))
  have h₄ := h₃.run false rfl (Exec.sent _ _)
  have h₅ := h₄.env (Serve.refuse false 0 _ rfl rfl)
  have h₆ := h₅.run false rfl
    (Exec.answered _ 0 _ (plainResponse 412) 1 rfl rfl (.inr (.inr (.inl ⟨rfl, rfl, rfl⟩))))
  exact ⟨_, h₆, rfl, _, rfl⟩

/-- The second call fails before it sends anything, and then sees the object of the first. -/
theorem sample_race : ∃ c, (storeSystem Server.strict).Reachable sampleStart c ∧
    c.procs true = .ret () ∧ c.procs false = .ret () ∧ ¬ ∃ n, c.shared.Landed false n := by
  have h₀ : (storeSystem Server.strict).Reachable sampleStart sampleStart := .refl
  have h₁ := h₀.run false rfl (Exec.notSent _ _ (.osError "ConnectionRefusedError" "refused"))
  have h₂ := h₁.run true rfl (Exec.sent _ _)
  have h₃ := h₂.env (Serve.land true 0 _ rfl (by decide) rfl rfl)
  have h₄ := h₃.run true rfl
    (Exec.answered _ 0 _ (plainResponse 200) 1 rfl rfl (.inl ⟨rfl, rfl⟩))
  have h₅ := h₄.run false rfl (Exec.statSent _ _)
  have h₆ := h₅.env (Serve.observe false 0 _ rfl rfl)
  have h₇ := h₆.run false rfl (Exec.found _ 0 _ _ rfl rfl)
  refine ⟨_, h₇, rfl, rfl, ?_⟩
  rintro ⟨n, p, hp, hl⟩
  cases n with
  | zero => cases hp; cases hl
  | succ n => cases hp

section Outcomes

variable [DecidableEq ι] {srv : Server} {call : ι → CreateCall}
  {c : Config ι httpSignature (World ι) Exc Unit}
  {objects : ObjectKey → Option (Bytes × List (String × String))}

/-- What a call sends, and what its return says: the key holds its payload, so all calls that returned
    on one key carried the same length and digest. -/
theorem putObjectIfAbsent_sound
    (hr : (storeSystem srv).Reachable ⟨World.initial objects, fun i => (call i).run⟩ c)
    (hsucc : srv.SuccessOnlyToCreator) (hwhole : ∀ i, (call i).Whole) :
    (∀ i n p, c.shared.puts.entry i n = some p → p.request.key = (call i).key ∧
      p.request.body = (call i).data.rest ∧ p.request.body.length = (call i).length ∧
      p.request.contentLength = (call i).length) ∧
    (∀ i, c.procs i = .ret () →
      c.shared.Holds (call i).key (call i).length (call i).sha256) ∧
    (∀ i j, (call i).key = (call j).key → c.procs i = .ret () → c.procs j = .ret () →
      (call i).length = (call j).length ∧ (call i).sha256 = (call j).sha256) := by
  refine ⟨fun i n p hp => ?_, fun i hi => holds_of_returned hr hsucc hi, fun i j hkey hi hj => ?_⟩
  · obtain ⟨hreq, -⟩ := sentOnly_of_reachable hr i n p hp
    rw [hreq]
    exact ⟨rfl, rfl, hwhole i, rfl⟩
  · have hj' := holds_of_returned hr hsucc hj
    rw [← hkey] at hj'
    exact (holds_of_returned hr hsucc hi).unique hj'

theorem putObjectIfAbsent_sound_sample : ∃ c, (storeSystem Server.strict).Reachable sampleStart c ∧
    c.procs true = .ret () ∧
      c.shared.Holds sampleCall.key sampleCall.length sampleCall.sha256 := by
  obtain ⟨c, hr, hret, -⟩ := sample_collision
  have hsound := putObjectIfAbsent_sound hr Server.strict_successOnlyToCreator fun _ => rfl
  exact ⟨c, hr, hret, hsound.2.1 true hret⟩

/-- A return without being the creator takes an ambiguous attempt and an identical object; so at most
    one call for a key returns without an ambiguous attempt of its own. -/
theorem putObjectIfAbsent_owner_or_identical
    (hr : (storeSystem srv).Reachable ⟨World.initial objects, fun i => (call i).run⟩ c)
    (hsucc : srv.SuccessOnlyToCreator) :
    (∀ i, c.procs i = .ret () → (∃ n, c.shared.Landed i n) ∨ c.shared.HadAmbiguous i ∧
      c.shared.Holds (call i).key (call i).length (call i).sha256) ∧
    (∀ i j, (call i).key = (call j).key → c.procs i = .ret () → c.procs j = .ret () →
      (call i).length = (call j).length ∧ (call i).sha256 = (call j).sha256) ∧
    (∀ i j, (call i).key = (call j).key → c.procs i = .ret () → c.procs j = .ret () →
      ¬ c.shared.HadAmbiguous i → ¬ c.shared.HadAmbiguous j → i = j) := by
  have owner : ∀ i, c.procs i = .ret () → (∃ n, c.shared.Landed i n) ∨ c.shared.HadAmbiguous i ∧
      c.shared.Holds (call i).key (call i).length (call i).sha256 := by
    intro i hret
    have ho : (c.procs i).outcome = some (.ok ()) := by rw [hret]; rfl
    cases (ended_of_reachable hr ho).ending with
    | created n p answer _ hp _ hans hs _ =>
      exact .inl ⟨n, (truthfulTo_reachable hr i).landed hsucc hp hans hs⟩
    | found o hobj hm _ hamb =>
      obtain ⟨n, p, answer, -, hp, hans, hamb⟩ := hamb
      exact .inr ⟨⟨n, p, answer, hp, hans, hamb⟩, o, hobj, hm⟩
  refine ⟨owner, fun i j hkey hi hj => ?_, fun i j hkey hi hj hi' hj' => ?_⟩
  · have hj' := holds_of_returned hr hsucc hj
    rw [← hkey] at hj'
    exact (holds_of_returned hr hsucc hi).unique hj'
  · obtain ⟨n, hn⟩ := (owner i hi).resolve_right fun h => hi' h.1
    obtain ⟨m, hm⟩ := (owner j hj).resolve_right fun h => hj' h.1
    -- one object, one creator
    obtain ⟨o, ho, hc, -⟩ := matches_of_landed hr hn
    obtain ⟨o', ho', hc', -⟩ := matches_of_landed hr hm
    rw [← hkey, ho] at ho'; cases ho'
    rw [hc] at hc'; cases hc'
    rfl

theorem putObjectIfAbsent_owner_or_identical_sample : ∃ c,
    (storeSystem Server.strict).Reachable sampleStart c ∧ c.procs false = .ret () ∧
      c.shared.HadAmbiguous false ∧
      c.shared.Holds sampleCall.key sampleCall.length sampleCall.sha256 := by
  obtain ⟨c, hr, -, hret, hnot⟩ := sample_race
  have howner := putObjectIfAbsent_owner_or_identical hr Server.strict_successOnlyToCreator
  exact ⟨c, hr, hret, (howner.1 false hret).resolve_left hnot⟩

/-- A return does not make a call the creator, even with every promise of the server kept. -/
theorem putObjectIfAbsent_not_exclusive : ¬ ∀ (srv : Server) (call : Bool → CreateCall)
    (c : Config Bool httpSignature (World Bool) Exc Unit), srv.SuccessOnlyToCreator →
    srv.RejectionIsFinal → srv.NoOtherWriter → (∀ i j, (call i).key = (call j).key) →
    (storeSystem srv).Reachable ⟨World.initial fun _ => none, fun i => (call i).run⟩ c →
    ∀ i, c.procs i = .ret () → ∃ n, c.shared.Landed i n := by
  intro h
  obtain ⟨c, hr, -, hret, hnot⟩ := sample_race
  exact hnot (h .strict (fun _ => sampleCall) c Server.strict_successOnlyToCreator
    Server.strict_rejectionIsFinal Server.strict_noOtherWriter (fun _ _ => rfl) hr false hret)

/-- A reported collision is with an object no PUT of this call created. -/
theorem putObjectIfAbsent_collision_not_own
    (hr : (storeSystem srv).Reachable ⟨World.initial objects, fun i => (call i).run⟩ c)
    (hrej : srv.RejectionIsFinal) (hocc : srv.PreconditionMeansOccupied) {i : ι}
    {diagnostic : ConditionalPutDiagnostic}
    (hraise : c.procs i = .raise (.conditionalObjectExistsError diagnostic)) :
    ∃ o, c.shared.objects (call i).key = some o ∧ ∀ n, o.creator ≠ some (i, n) := by
  have ho : (c.procs i).outcome = some (.error (.conditionalObjectExistsError diagnostic)) := by
    rw [hraise]; rfl
  have landed : ∀ {o n}, c.shared.objects (call i).key = some o → o.creator = some (i, n) →
      c.shared.Landed i n := by
    intro o n hobj hc
    obtain ⟨p, hp, hl, -⟩ := c.shared.created _ o i n hobj hc
    exact ⟨p, hp, hl⟩
  cases (ended_of_reachable hr ho).ending with
  | occupied _ n p answer _ hp hans h412 _ hclean =>
    -- every attempt was refused, and the server saw an object
    have hkey := (sentOnly_of_reachable hr i n p hp).1
    obtain ⟨o, hobj⟩ : ∃ o, c.shared.objects (call i).key = some o := by
      cases answer with
      | error e => exact h412.elim
      | ok response =>
        obtain ⟨fate, occupied, hsrv, -, hsome⟩ := truthfulTo_reachable hr i n p response hp hans
        rw [show response.status = 412 from h412] at hsrv
        have := hsome (hocc _ _ hsrv)
        rwa [hkey] at this
    refine ⟨o, hobj, fun m hc => ?_⟩
    obtain ⟨q, hq, hl⟩ := landed hobj hc
    obtain ⟨-, answer', hans', -⟩ :=
      ((ended_of_reachable hr ho).failed _ rfl).attempts m q (Nat.zero_le _) hq
    have := (truthfulTo_reachable hr i).refused hrej hq hans'
      (clientError_of_hasStatus (hclean m q answer' (Nat.zero_le _) hq hans'))
    rw [hl] at this; cases this
  | conflict _ o hobj hno _ =>
    refine ⟨o, hobj, fun n hc => hno ?_⟩
    obtain ⟨o', ho', -, hm⟩ := matches_of_landed hr (landed hobj hc)
    rw [show (call i).request.key = (call i).key from rfl, ho'] at hobj; cases hobj
    exact hm

theorem putObjectIfAbsent_collision_not_own_sample : ∃ c,
    (storeSystem Server.strict).Reachable sampleStart c ∧
      ∃ o, c.shared.objects sampleCall.key = some o ∧ ∀ n, o.creator ≠ some (false, n) := by
  obtain ⟨c, hr, -, diagnostic, hraise⟩ := sample_collision
  exact ⟨c, hr, putObjectIfAbsent_collision_not_own hr Server.strict_rejectionIsFinal
    Server.strict_preconditionMeansOccupied hraise⟩

end Outcomes

end EvidenceCartographer.Infrastructure

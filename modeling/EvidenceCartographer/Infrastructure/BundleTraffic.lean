import EvidenceCartographer.Concurrency.Emits
import EvidenceCartographer.Infrastructure.BundleRuns

/-! What passes between one `store_bundle` call and the server, whatever is answered.

    `Traffic` is its grammar: the inspection of the three keys in order, each answered as missing, and
    then up to three attempts for the artifact, for the evidence and for the marker, each attempt the
    same PUT and at most one HEAD of its key. A block is only begun when the one before it was
    completed: its last answer was a success, or an object that matches the payload. -/

namespace EvidenceCartographer.Infrastructure

open Python Domain Application Concurrency MinioConditionalObjectClient

/-- A request, or its answer. -/
inductive Message where
  | head (key : ObjectKey)
  | headAnswer (result : Except Exc ObjectStat)
  | put (request : PutRequest)
  | putAnswer (result : Except Exc HttpResponse)

/-- What an operation sends, or tries to send, or receives. -/
def messageOf : httpSignature.Event → Option Message
  | ⟨.putSend request, _⟩ => some (.put request)
  | ⟨.putAwait, reply⟩ => some (.putAnswer (PutReply.result reply))
  | ⟨.statSend key, _⟩ => some (.head key)
  | ⟨.statAwait, result⟩ => some (.headAnswer result)

def Message.isPut : Message → Bool
  | .put _ => true
  | _ => false

def Message.isRequest : Message → Bool
  | .put _ => true
  | .head _ => true
  | _ => false

/-- The answer ends a create well: it is a success, or an object that matches the payload. -/
def Message.Completes (create : CreateCall) : Message → Prop
  | .putAnswer result => Succeeded result
  | .headAnswer (.ok stat) => decodeMetadata stat =
      .ok ⟨create.length, some create.sha256, some (create.length : Int)⟩
  | _ => False

/-- One attempt of a create: its PUT could not be sent, or it was answered or broken off. -/
inductive Attempts (create : CreateCall) : List Message → Prop where
  | unsent : Attempts create [.put create.request]
  | sent (result) : Attempts create [.put create.request, .putAnswer result]

/-- The messages of at most `n` attempts of a create. -/
inductive Creates (create : CreateCall) : Nat → List Message → Prop where
  | done (n) : Creates create n []
  | tried {n attempt rest} : Attempts create attempt → Creates create n rest →
      Creates create (n + 1) (attempt ++ rest)
  | reconciled {n attempt rest} (result) : Attempts create attempt → Creates create n rest →
      Creates create (n + 1) (attempt ++ .head create.key :: .headAnswer result :: rest)

/-- The messages of a create that has begun. -/
def Begun (create : CreateCall) (block : List Message) : Prop :=
  Creates create maxConditionalPutAttempts block ∧ block ≠ []

/-- The last message is an answer that ends the create well. -/
def Completed (create : CreateCall) (block : List Message) : Prop :=
  ∃ before message, block = before ++ [message] ∧ message.Completes create

theorem Completed.append {create : CreateCall} {block : List Message} (before : List Message)
    (h : Completed create block) : Completed create (before ++ block) := by
  obtain ⟨first, message, rfl, hmessage⟩ := h
  exact ⟨before ++ first, message, (List.append_assoc ..).symm, hmessage⟩

theorem Attempts.counts {create : CreateCall} {attempt : List Message}
    (h : Attempts create attempt) : attempt.countP Message.isPut = 1 ∧
      attempt.countP Message.isRequest = 1 := by
  cases h <;> exact ⟨rfl, rfl⟩

theorem Creates.countP_le {create : CreateCall} {n : Nat} {block : List Message}
    (h : Creates create n block) : block.countP Message.isPut ≤ n ∧
      block.countP Message.isRequest ≤ 2 * n := by
  induction h with
  | done n => simp
  | tried hattempt _ ih =>
    obtain ⟨hput, hrequest⟩ := hattempt.counts
    rw [List.countP_append, List.countP_append]
    omega
  | reconciled result hattempt _ ih =>
    obtain ⟨hput, hrequest⟩ := hattempt.counts
    simp only [List.countP_append, List.countP_cons, Message.isPut, Message.isRequest]
    simp only [Bool.false_eq_true, if_false, if_true]
    omega

section Client

variable {sent : List Message}

theorem minioStatObject_emits {key : ObjectKey} {r : Except Exc ObjectStat}
    (h : (minioStatObject key).Emits messageOf sent r) : sent = [.head key, .headAnswer r] := by
  obtain ⟨_, awaited, rfl, hawait⟩ := Program.emits_call.mp h
  obtain ⟨_, rest, rfl, hrest⟩ := Program.emits_call.mp hawait
  obtain ⟨rfl, rfl⟩ := Program.emits_ofExcept.mp hrest
  rfl

theorem statObject_emits {bucketName objectName : String} {r : Except Exc ConditionalObjectMetadata}
    (h : (statObject bucketName objectName).Emits messageOf sent r) :
    ∃ answer, sent = [.head (bucketName, objectName), .headAnswer answer] ∧
      r = answer.bind decodeMetadata := by
  obtain ⟨before, after, answer, rfl, hstat, hafter⟩ := Program.emits_bind.mp h
  obtain rfl := minioStatObject_emits hstat
  refine ⟨answer, ?_⟩
  rcases answer with exc | stat
  · obtain ⟨rfl, rfl⟩ := hafter
    exact ⟨rfl, rfl⟩
  · obtain ⟨rfl, rfl⟩ := Program.emits_ofExcept.mp hafter
    exact ⟨rfl, rfl⟩

/-- A reconciliation that finds the payload was answered with an object that matches it. -/
theorem reconcileObject_emits {create : CreateCall} {r : Except Exc ReconciliationState}
    (h : (reconcileObject create.bucketName create.objectName create.length create.sha256).Emits
      messageOf sent r) :
    ∃ answer, sent = [.head create.key, .headAnswer answer] ∧
      (r = .ok .found → (Message.headAnswer answer).Completes create) := by
  obtain ⟨before, after, attempted, rfl, hattempt, hafter⟩ := Program.emits_bind.mp h
  obtain ⟨stated, hstat, rfl⟩ := Program.emits_attempt.mp hattempt
  obtain ⟨answer, rfl, rfl⟩ := statObject_emits hstat
  refine ⟨answer, ?_⟩
  cases hstated : answer.bind decodeMetadata with
  | error exc =>
    rw [hstated] at hafter
    dsimp only at hafter
    split at hafter
    · obtain ⟨rfl, rfl⟩ := Program.emits_ret.mp hafter
      exact ⟨rfl, nofun⟩
    · obtain ⟨rfl, rfl⟩ := Program.emits_raise.mp hafter
      exact ⟨rfl, nofun⟩
  | ok metadata =>
    rw [hstated] at hafter
    dsimp only at hafter
    split at hafter
    · rename_i hmatch
      obtain ⟨rfl, rfl⟩ := Program.emits_ret.mp hafter
      refine ⟨rfl, fun _ => ?_⟩
      obtain ⟨sizeBytes, sha256, declared⟩ := metadata
      obtain ⟨hsize, hdeclared, hsha⟩ := hmatch
      dsimp only at hsize hdeclared hsha
      subst hsize hdeclared hsha
      cases answer with
      | error exc => cases hstated
      | ok stat => exact hstated
    · obtain ⟨rfl, rfl⟩ := Program.emits_ret.mp hafter
      exact ⟨rfl, nofun⟩

/-- An attempt sends its PUT, answered or not. -/
theorem sendOnce_emits {bucketName objectName : String} {data : Stream} {length : Nat}
    {sha256 contentType : String} {r : Except Exc (Except Exc HttpResponse × Stream)}
    (h : (sendOnce bucketName objectName data length sha256 contentType).Emits messageOf sent r) :
    ∃ result data', r = .ok (result, data') ∧ data'.content = data.content ∧
      (sent = [.put (putRequest bucketName objectName data length sha256 contentType)] ∧
          (∃ exc, result = .error exc) ∨
        sent = [.put (putRequest bucketName objectName data length sha256 contentType),
          .putAnswer result]) := by
  obtain ⟨answer, rest, rfl, hrest⟩ := Program.emits_call.mp h
  rcases answer with exc | ⟨⟨⟩⟩
  · obtain ⟨rfl, rfl⟩ := Program.emits_ret.mp hrest
    exact ⟨_, _, rfl, rfl, .inl ⟨rfl, exc, rfl⟩⟩
  · obtain ⟨reply, rest', rfl, hrest'⟩ := Program.emits_call.mp hrest
    obtain ⟨rfl, rfl⟩ := Program.emits_ret.mp hrest'
    exact ⟨_, _, rfl, rfl, .inr rfl⟩

/-- A reconciliation, and then nothing or what the next attempts send. -/
theorem settle_emits {create : CreateCall} {diagnostic : ConditionalPutDiagnostic} {attempt : Nat}
    {retry : Program httpSignature Exc Unit} {r : Except Exc Unit}
    (h : (settle create.bucketName create.objectName create.length create.sha256 diagnostic attempt
      retry).Emits messageOf sent r) :
    ∃ answer rest, sent = .head create.key :: .headAnswer answer :: rest ∧
      (attempt + 1 < maxConditionalPutAttempts ∧ retry.Emits messageOf rest r ∨
        rest = [] ∧ (r = .ok () → (Message.headAnswer answer).Completes create)) := by
  obtain ⟨before, after, attempted, rfl, hattempt, hafter⟩ := Program.emits_bind.mp h
  obtain ⟨state, hreconcile, rfl⟩ := Program.emits_attempt.mp hattempt
  obtain ⟨answer, rfl, hfound⟩ := reconcileObject_emits hreconcile
  refine ⟨answer, after, rfl, ?_⟩
  rcases state with exc | (_ | _ | _)
  · obtain ⟨rfl, rfl⟩ := Program.emits_raise.mp hafter
    exact .inr ⟨rfl, nofun⟩
  · obtain ⟨rfl, rfl⟩ := Program.emits_ret.mp hafter
    exact .inr ⟨rfl, fun _ => hfound rfl⟩
  · dsimp only at hafter
    split at hafter
    · rename_i hleft
      exact .inl ⟨hleft, hafter⟩
    · obtain ⟨rfl, rfl⟩ := Program.emits_raise.mp hafter
      exact .inr ⟨rfl, nofun⟩
  · obtain ⟨rfl, rfl⟩ := Program.emits_raise.mp hafter
    exact .inr ⟨rfl, nofun⟩

/-- By induction on the attempts that remain: each sends the same PUT, and the last message before a
    return is an answer that ends the create well. -/
theorem putAttempts_emits {create : CreateCall} {remaining : Nat} {hadAmbiguousAttempt : Bool}
    {data : Stream} {r : Except Exc Unit} (hdata : data.content = create.data.content)
    (h : (putAttempts create.bucketName create.objectName create.length create.sha256
      create.contentType create.data.tell remaining hadAmbiguousAttempt data).Emits messageOf sent r) :
    Creates create remaining sent ∧
      (0 < remaining → sent ≠ [] ∧ (r = .ok () → Completed create sent)) := by
  induction remaining generalizing hadAmbiguousAttempt data sent with
  | zero =>
    obtain ⟨rfl, -⟩ := Program.emits_ret.mp h
    exact ⟨.done 0, fun hpos => absurd hpos (Nat.lt_irrefl 0)⟩
  | succ remaining ih =>
    obtain ⟨attempt, rest, answered, rfl, hsend, hrest⟩ := Program.emits_bind.mp h
    obtain ⟨result, data', rfl, hcontent, hsent⟩ := sendOnce_emits hsend
    have hput : putRequest create.bucketName create.objectName (data.seek create.data.tell)
        create.length create.sha256 create.contentType = create.request := by
      simp only [CreateCall.request, putRequest, Stream.rest, Stream.seek, Stream.tell, hdata]
    rw [hput] at hsent
    have hattempt : Attempts create attempt := by
      rcases hsent with ⟨rfl, -⟩ | rfl
      · exact .unsent
      · exact .sent result
    have hne : attempt ++ rest ≠ [] := by
      intro hnil
      obtain ⟨rfl, -⟩ := List.append_eq_nil_iff.mp hnil
      cases hattempt
    -- what follows: nothing, the next attempts, or a HEAD and then either
    have hnext {ambiguous : Bool} {after : List Message}
        (hleft : maxConditionalPutAttempts - (remaining + 1) + 1 < maxConditionalPutAttempts)
        (hafter : (putAttempts create.bucketName create.objectName create.length create.sha256
          create.contentType create.data.tell remaining ambiguous data').Emits messageOf after r) :
        Creates create remaining after ∧ (r = .ok () → Completed create after) := by
      obtain ⟨hcreates, hended⟩ := ih (hcontent.trans hdata) hafter
      have hpos : 0 < remaining := by
        simp only [maxConditionalPutAttempts] at hleft
        omega
      exact ⟨hcreates, (hended hpos).2⟩
    have hsettle {ambiguous : Bool} {diagnostic : ConditionalPutDiagnostic}
        (hsettled : (settle create.bucketName create.objectName create.length create.sha256 diagnostic
          (maxConditionalPutAttempts - (remaining + 1)) (putAttempts create.bucketName
            create.objectName create.length create.sha256 create.contentType create.data.tell remaining
            ambiguous data')).Emits messageOf rest r) :
        Creates create (remaining + 1) (attempt ++ rest) ∧
          (r = .ok () → Completed create (attempt ++ rest)) := by
      obtain ⟨answer, after, rfl, ⟨hleft, hafter⟩ | ⟨rfl, hfound⟩⟩ := settle_emits hsettled
      · obtain ⟨hcreates, hended⟩ := hnext hleft hafter
        refine ⟨.reconciled answer hattempt hcreates, fun hok => ?_⟩
        exact ((hended hok).append [.head create.key, .headAnswer answer]).append attempt
      · refine ⟨.reconciled answer hattempt (.done remaining), fun hok => ?_⟩
        exact Completed.append attempt ⟨[.head create.key], .headAnswer answer, rfl, hfound hok⟩
    have hstop {exc : Exc} (hraised : (Program.raise exc : Program httpSignature Exc Unit).Emits
        messageOf rest r) : Creates create (remaining + 1) (attempt ++ rest) ∧
          (r = .ok () → Completed create (attempt ++ rest)) := by
      obtain ⟨rfl, rfl⟩ := Program.emits_raise.mp hraised
      exact ⟨.tried hattempt (.done remaining), fun hok => by cases hok⟩
    suffices hblock : Creates create (remaining + 1) (attempt ++ rest) ∧
        (r = .ok () → Completed create (attempt ++ rest)) from ⟨hblock.1, fun _ => ⟨hne, hblock.2⟩⟩
    rcases result with exc | response
    · exact hsettle hrest
    obtain rfl : attempt = [.put create.request, .putAnswer (.ok response)] := by
      rcases hsent with ⟨-, exc, hexc⟩ | hanswered
      · cases hexc
      · exact hanswered
    dsimp only at hrest
    split at hrest
    · rename_i hsuccess
      obtain ⟨rfl, -⟩ := Program.emits_ret.mp hrest
      refine ⟨.tried hattempt (.done remaining), fun _ => ?_⟩
      exact ⟨[.put create.request], .putAnswer (.ok response), rfl, hsuccess⟩
    split at hrest
    · split at hrest
      · exact hsettle hrest
      · exact hstop hrest
    split at hrest
    · exact hsettle hrest
    split at hrest
    · split at hrest
      · rename_i hleft
        obtain ⟨hcreates, hended⟩ := hnext hleft hrest
        exact ⟨.tried hattempt hcreates, fun hok => (hended hok).append _⟩
      · exact hstop hrest
    · exact hstop hrest

theorem putObjectIfAbsent_emits {create : CreateCall} {r : Except Exc Unit}
    (h : create.run.Emits messageOf sent r) :
    sent = [] ∧ (∃ exc, r = .error exc) ∨
      Begun create sent ∧ (r = .ok () → Completed create sent) := by
  simp only [CreateCall.run, minioConditionalObjectClient, putObjectIfAbsent] at h
  split at h
  · obtain ⟨rfl, rfl⟩ := Program.emits_raise.mp h
    exact .inl ⟨rfl, _, rfl⟩
  · obtain ⟨hcreates, hended⟩ := putAttempts_emits rfl h
    obtain ⟨hne, hcompleted⟩ := hended (by decide)
    exact .inr ⟨⟨hcreates, hne⟩, hcompleted⟩

end Client

section Store

variable {call : BundleCall} {sent : List Message}

theorem putIfAbsent_emits (create : CreateCall) (hbucket : create.bucketName = call.bucketName)
    {r : Except Exc Unit}
    (h : (call.store.putIfAbsent create.objectName create.data create.length create.sha256
      create.contentType).Emits messageOf sent r) :
    sent = [] ∧ (∃ exc, r = .error exc) ∨
      Begun create sent ∧ (r = .ok () → Completed create sent) := by
  unfold MinioBronzeArtifactStore.putIfAbsent at h
  split at h
  · obtain ⟨rfl, rfl⟩ := Program.emits_raise.mp h
    exact .inl ⟨rfl, _, rfl⟩
  obtain ⟨before, after, r₁, rfl, hput, hafter⟩ := Program.emits_handle.mp h
  have hrun : create.run.Emits messageOf before r₁ := by
    rw [CreateCall.run, hbucket]
    exact hput
  rcases r₁ with exc | ⟨⟨⟩⟩
  · obtain ⟨rfl, rfl⟩ := Program.emits_raise.mp hafter
    rw [List.append_nil]
    rcases putObjectIfAbsent_emits hrun with ⟨rfl, -⟩ | ⟨hbegun, -⟩
    · exact .inl ⟨rfl, _, rfl⟩
    · exact .inr ⟨hbegun, fun hok => by cases hok⟩
  · obtain ⟨rfl, rfl⟩ := hafter
    rw [List.append_nil]
    rcases putObjectIfAbsent_emits hrun with ⟨-, exc, hraised⟩ | hbegun
    · cases hraised
    · exact .inr hbegun

/-- A key that was found free was answered as missing. -/
theorem existsKey_emits {key : String} {r : Except Exc Bool}
    (h : (call.store.existsKey key).Emits messageOf sent r) :
    ∃ answer, sent = [.head (call.objectKey key), .headAnswer answer] ∧
      (r = .ok false → ∃ exc, answer = .error exc ∧ isMissing exc = true) := by
  obtain ⟨before, after, r₁, rfl, hattempt, hafter⟩ := Program.emits_bind.mp h
  obtain ⟨stated, hstat, rfl⟩ := Program.emits_attempt.mp hattempt
  obtain ⟨answer, rfl, rfl⟩ := statObject_emits hstat
  refine ⟨answer, ?_⟩
  cases hstated : answer.bind decodeMetadata with
  | error exc =>
    rw [hstated] at hafter
    dsimp only at hafter
    split at hafter
    · rename_i hmissing
      obtain ⟨rfl, rfl⟩ := Program.emits_ret.mp hafter
      refine ⟨rfl, fun _ => ?_⟩
      cases answer with
      | error exc' =>
        obtain rfl : exc' = exc := Except.error.inj hstated
        exact ⟨exc', rfl, hmissing⟩
      | ok stat => rw [isMissing_of_decodeMetadata hstated] at hmissing; cases hmissing
    · obtain ⟨rfl, rfl⟩ := Program.emits_raise.mp hafter
      exact ⟨rfl, nofun⟩
  | ok metadata =>
    rw [hstated] at hafter
    obtain ⟨rfl, rfl⟩ := Program.emits_ret.mp hafter
    exact ⟨rfl, nofun⟩

/-- The inspection of these keys, in order: it goes on where a key is answered as missing, and the
    flag says that all of them were. -/
inductive Inspects (call : BundleCall) : List String → Bool → List Message → Prop where
  | passed : Inspects call [] true []
  | missed {key keys passed exc rest} : isMissing exc = true → Inspects call keys passed rest →
      Inspects call (key :: keys) passed
        (.head (call.objectKey key) :: .headAnswer (.error exc) :: rest)
  | stopped {key keys} (answer) :
      Inspects call (key :: keys) false [.head (call.objectKey key), .headAnswer answer]

theorem Inspects.counts {keys : List String} {passed : Bool} (h : Inspects call keys passed sent) :
    sent.countP Message.isPut = 0 ∧ sent.countP Message.isRequest ≤ keys.length := by
  induction h with
  | passed => exact ⟨rfl, Nat.le_refl 0⟩
  | missed _ _ ih =>
    simp only [List.countP_cons, Message.isPut, Message.isRequest, List.length_cons]
    simp only [Bool.false_eq_true, if_false, if_true]
    omega
  | stopped answer => exact ⟨rfl, Nat.succ_le_succ (Nat.zero_le _)⟩

/-- By induction on the keys. -/
theorem assertAbsent_emits {keys : List String} {r : Except Exc Unit}
    (h : (call.store.assertAbsent keys).Emits messageOf sent r) :
    ∃ passed, Inspects call keys passed sent ∧ (r = .ok () → passed = true) := by
  induction keys generalizing sent with
  | nil =>
    obtain ⟨rfl, -⟩ := Program.emits_ret.mp h
    exact ⟨true, .passed, fun _ => rfl⟩
  | cons key keys ih =>
    obtain ⟨before, after, r₁, rfl, hexists, hafter⟩ := Program.emits_bind.mp h
    obtain ⟨answer, rfl, hfree⟩ := existsKey_emits hexists
    rcases r₁ with exc | _ | _
    · obtain ⟨rfl, rfl⟩ := hafter
      exact ⟨false, .stopped answer, nofun⟩
    · obtain ⟨exc, rfl, hmissing⟩ := hfree rfl
      obtain ⟨passed, hrest, hok⟩ := ih hafter
      exact ⟨passed, .missed hmissing hrest, hok⟩
    · obtain ⟨rfl, rfl⟩ := Program.emits_raise.mp hafter
      exact ⟨false, .stopped answer, nofun⟩

/-- The inspection of the three keys of a bundle. -/
def ArtifactPlan.Inspected (plan : ArtifactPlan call) (passed : Bool) (block : List Message) : Prop :=
  Inspects call plan.keys.toList passed block

/-- The messages of a create that returned. -/
def Stored (create : CreateCall) (block : List Message) : Prop :=
  Begun create block ∧ Completed create block

/-- The messages of a call, and how it ends. -/
inductive Traffic (call : BundleCall) : List Message → Except Exc BronzeBundleReceipt → Prop where
  | unstaged (exc) : Traffic call [] (.error exc)
  | inspecting (plan : ArtifactPlan call) (passed inspected exc) : plan.Inspected passed inspected →
      Traffic call inspected (.error exc)
  | storing (plan : ArtifactPlan call) (inspected artifact exc) : plan.Inspected true inspected →
      Begun plan.create artifact → Traffic call (inspected ++ artifact) (.error exc)
  | writing (plan : BundlePlan call) (inspected artifact evidence exc) :
      plan.Inspected true inspected → Stored plan.create artifact →
      Begun plan.evidenceCreate evidence →
      Traffic call (inspected ++ artifact ++ evidence) (.error exc)
  | marking (plan : BundlePlan call) (inspected artifact evidence marker exc) :
      plan.Inspected true inspected → Stored plan.create artifact →
      Stored plan.evidenceCreate evidence → Begun plan.markerCreate marker →
      Traffic call (inspected ++ artifact ++ evidence ++ marker) (.error exc)
  | committed (plan : BundlePlan call) (inspected artifact evidence marker) :
      plan.Inspected true inspected → Stored plan.create artifact →
      Stored plan.evidenceCreate evidence → Stored plan.markerCreate marker →
      Traffic call (inspected ++ artifact ++ evidence ++ marker) (.ok plan.receipt)

/-- What the block of the artifact sends. -/
theorem storeArtifact_emits {keys : BronzeObjectKeys} {target : BronzeBundleTarget}
    (hkeys : call.keys = .ok keys) (htarget : target.artifactUri = call.store.uri keys.artifact)
    {r : Except Exc StoredObject}
    (h : (call.store.storeArtifact call.staging call.artifact keys target).Emits messageOf sent r) :
    (sent = [] ∧ ∃ exc, r = .error exc) ∨
    ∃ plan : ArtifactPlan call, plan.keys = keys ∧
      ((∃ passed, plan.Inspected passed sent ∧ ∃ exc, r = .error exc) ∨
      ∃ inspected artifact, sent = inspected ++ artifact ∧ plan.Inspected true inspected ∧
        Begun plan.create artifact ∧
        (r = .ok plan.object ∧ Completed plan.create artifact ∨ ∃ exc, r = .error exc)) := by
  obtain ⟨block, handled, r₁, rfl, hblock, hhandled⟩ := Program.emits_handle.mp h
  have hended : handled = [] ∧ ((∃ exc, r₁ = .error exc) → ∃ exc, r = .error exc) ∧
      ∀ object, r₁ = .ok object → r = .ok object := by
    rcases r₁ with exc | object
    · dsimp only at hhandled
      split at hhandled
      · obtain ⟨rfl, rfl⟩ := Program.emits_raise.mp hhandled
        exact ⟨rfl, fun _ => ⟨_, rfl⟩, nofun⟩
      · obtain ⟨rfl, rfl⟩ := Program.emits_raise.mp hhandled
        exact ⟨rfl, fun _ => ⟨_, rfl⟩, nofun⟩
    · obtain ⟨rfl, rfl⟩ := hhandled
      exact ⟨rfl, fun h => h, fun _ h => h⟩
  obtain ⟨rfl, hraised, hreturned⟩ := hended
  rw [List.append_nil]
  unfold withSpool at hblock
  split at hblock
  · obtain ⟨rfl, rfl⟩ := Program.emits_raise.mp hblock
    exact .inl ⟨rfl, hraised ⟨_, rfl⟩⟩
  obtain ⟨first, checking, snapped, rfl, hsnap, hchecking⟩ := Program.emits_bind.mp hblock
  obtain ⟨rfl, rfl⟩ := Program.emits_ofExcept.mp hsnap
  rw [htarget] at hchecking
  cases hsnapshot : call.snapshot keys with
  | error exc =>
    rw [show snapshotArtifact call.store.ceiling call.artifact (call.store.uri keys.artifact)
      call.staging = .error exc from hsnapshot] at hchecking
    obtain ⟨rfl, rfl⟩ := hchecking
    exact .inl ⟨rfl, hraised ⟨_, rfl⟩⟩
  | ok snapshot =>
    rw [show snapshotArtifact call.store.ceiling call.artifact (call.store.uri keys.artifact)
      call.staging = .ok snapshot from hsnapshot] at hchecking
    let plan : ArtifactPlan call := ⟨keys, hkeys, snapshot, hsnapshot⟩
    refine .inr ⟨plan, rfl, ?_⟩
    rw [List.nil_append]
    obtain ⟨inspected, rewinding, checked, rfl, hassert, hrewinding⟩ :=
      Program.emits_bind.mp hchecking
    obtain ⟨passed, hinspected, hpassed⟩ : ∃ passed, plan.Inspected passed inspected ∧
        (checked = .ok () → passed = true) := assertAbsent_emits hassert
    rcases checked with exc | ⟨⟨⟩⟩
    · obtain ⟨rfl, rfl⟩ := hrewinding
      rw [List.append_nil]
      exact .inl ⟨passed, hinspected, hraised ⟨_, rfl⟩⟩
    obtain rfl := hpassed rfl
    obtain ⟨seeking, creating, rewound, rfl, hseek, hcreating⟩ := Program.emits_bind.mp hrewinding
    obtain ⟨rfl, rfl⟩ := Program.emits_ofExcept.mp hseek
    rw [List.nil_append]
    cases hrewound : call.staging.artifactSpool.seekStart with
    | error exc =>
      rw [hrewound] at hcreating
      obtain ⟨rfl, rfl⟩ := hcreating
      rw [List.append_nil]
      exact .inl ⟨true, hinspected, hraised ⟨_, rfl⟩⟩
    | ok u =>
    rw [hrewound] at hcreating
    obtain ⟨artifact, rest, put, rfl, hput, hrest⟩ := Program.emits_bind.mp hcreating
    rcases putIfAbsent_emits plan.create rfl hput with ⟨rfl, exc, rfl⟩ | ⟨hbegun, hcompleted⟩
    · obtain ⟨rfl, rfl⟩ := hrest
      rw [List.append_nil, List.append_nil]
      exact .inl ⟨true, hinspected, hraised ⟨_, rfl⟩⟩
    rcases put with exc | ⟨⟨⟩⟩
    · obtain ⟨rfl, rfl⟩ := hrest
      rw [List.append_nil]
      exact .inr ⟨inspected, artifact, rfl, hinspected, hbegun, .inr (hraised ⟨_, rfl⟩)⟩
    · obtain ⟨rfl, rfl⟩ := Program.emits_ret.mp hrest
      rw [List.append_nil]
      refine .inr ⟨inspected, artifact, rfl, hinspected, hbegun, .inl ⟨?_, hcompleted rfl⟩⟩
      exact hreturned _ rfl

/-- What the block of the evidence sends. -/
theorem writeEvidence_emits (base : ArtifactPlan call)
    {r : Except Exc (StoredObject × Nat × OutcomeCounts)}
    (h : (call.store.writeEvidence call.staging call.artifact call.evidence
      base.keys.evidenceManifest).Emits messageOf sent r) :
    (sent = [] ∧ ∃ exc, r = .error exc) ∨
    ∃ plan : BundlePlan call, plan.toArtifactPlan = base ∧ Begun plan.evidenceCreate sent ∧
      (r = .ok (plan.evidenceObject, plan.written.totalRecords, plan.written.counts) ∧
          Completed plan.evidenceCreate sent ∨
        ∃ exc, r = .error exc) := by
  obtain ⟨block, handled, r₁, rfl, hblock, hhandled⟩ := Program.emits_handle.mp h
  have hended : handled = [] ∧ ((∃ exc, r₁ = .error exc) → ∃ exc, r = .error exc) ∧
      ∀ x, r₁ = .ok x → r = .ok x := by
    rcases r₁ with exc | x
    · obtain ⟨rfl, rfl⟩ := Program.emits_raise.mp hhandled
      exact ⟨rfl, fun _ => ⟨_, rfl⟩, nofun⟩
    · obtain ⟨rfl, rfl⟩ := hhandled
      exact ⟨rfl, fun h => h, fun _ h => h⟩
  obtain ⟨rfl, hraised, hreturned⟩ := hended
  rw [List.append_nil]
  unfold withSpool at hblock
  split at hblock
  · obtain ⟨rfl, rfl⟩ := Program.emits_raise.mp hblock
    exact .inl ⟨rfl, hraised ⟨_, rfl⟩⟩
  obtain ⟨first, rewinding, spooled, rfl, hspool, hrewinding⟩ := Program.emits_bind.mp hblock
  obtain ⟨rfl, rfl⟩ := Program.emits_ofExcept.mp hspool
  rw [List.nil_append]
  cases hspooled : call.spooled base.keys with
  | error exc =>
    rw [show spoolEvidence call.store.ceiling call.artifact (call.store.uri base.keys.evidenceManifest)
      call.staging.evidenceSpool call.evidence = .error exc from hspooled] at hrewinding
    obtain ⟨rfl, rfl⟩ := hrewinding
    exact .inl ⟨rfl, hraised ⟨_, rfl⟩⟩
  | ok written =>
    rw [show spoolEvidence call.store.ceiling call.artifact (call.store.uri base.keys.evidenceManifest)
      call.staging.evidenceSpool call.evidence = .ok written from hspooled] at hrewinding
    let plan : BundlePlan call := ⟨base, written, hspooled⟩
    obtain ⟨seeking, creating, rewound, rfl, hseek, hcreating⟩ := Program.emits_bind.mp hrewinding
    obtain ⟨rfl, rfl⟩ := Program.emits_ofExcept.mp hseek
    rw [List.nil_append]
    cases hrewound : call.staging.evidenceSpool.seekStart with
    | error exc =>
      rw [hrewound] at hcreating
      obtain ⟨rfl, rfl⟩ := hcreating
      exact .inl ⟨rfl, hraised ⟨_, rfl⟩⟩
    | ok u =>
    rw [hrewound] at hcreating
    obtain ⟨evidence, rest, put, rfl, hput, hrest⟩ := Program.emits_bind.mp hcreating
    rcases putIfAbsent_emits plan.evidenceCreate rfl hput with ⟨rfl, exc, rfl⟩ | ⟨hbegun, hcompleted⟩
    · obtain ⟨rfl, rfl⟩ := hrest
      exact .inl ⟨rfl, hraised ⟨_, rfl⟩⟩
    refine .inr ⟨plan, rfl, ?_⟩
    rcases put with exc | ⟨⟨⟩⟩
    · obtain ⟨rfl, rfl⟩ := hrest
      rw [List.append_nil]
      exact ⟨hbegun, .inr (hraised ⟨_, rfl⟩)⟩
    · obtain ⟨rfl, rfl⟩ := Program.emits_ret.mp hrest
      rw [List.append_nil]
      exact ⟨hbegun, .inl ⟨hreturned _ rfl, hcompleted rfl⟩⟩

theorem traffic_of_emits {r : Except Exc BronzeBundleReceipt} (h : call.run.Emits messageOf sent r) :
    Traffic call sent r := by
  unfold BundleCall.run MinioBronzeArtifactStore.storeBundle at h
  split at h
  swap
  · obtain ⟨rfl, rfl⟩ := Program.emits_raise.mp h
    exact .unstaged _
  obtain ⟨first, rest, built, rfl, hbuild, hrest⟩ := Program.emits_bind.mp h
  obtain ⟨rfl, rfl⟩ := Program.emits_ofExcept.mp hbuild
  cases hkeys : call.keys with
  | error exc =>
    rw [show buildBronzeObjectKeys call.artifact call.store.bronzePrefix = .error exc from
      hkeys] at hrest
    obtain ⟨rfl, rfl⟩ := hrest
    exact .unstaged _
  | ok keys =>
  have hbuilt : buildBronzeObjectKeys call.artifact call.store.bronzePrefix = .ok keys := hkeys
  rw [hbuilt, call.store.targetFor_eq hbuilt] at hrest
  obtain ⟨first, rest, target, rfl, htarget, hrest⟩ := Program.emits_bind.mp hrest
  obtain ⟨rfl, rfl⟩ := Program.emits_ofExcept.mp htarget
  obtain ⟨first, rest, stored, rfl, hstore, hrest⟩ := Program.emits_bind.mp hrest
  rw [List.nil_append, List.nil_append]
  rcases storeArtifact_emits hkeys rfl hstore with ⟨rfl, exc, rfl⟩ |
    ⟨base, rfl, ⟨passed, hinspected, exc, rfl⟩ |
      ⟨inspected, artifact, rfl, hinspected, hbegun, ⟨rfl, hcompleted⟩ | ⟨exc, rfl⟩⟩⟩
  · obtain ⟨rfl, rfl⟩ := hrest
    exact .unstaged _
  · obtain ⟨rfl, rfl⟩ := hrest
    rw [List.append_nil]
    exact .inspecting base passed first _ hinspected
  swap
  · obtain ⟨rfl, rfl⟩ := hrest
    rw [List.append_nil]
    exact .storing base inspected artifact _ hinspected hbegun
  have hartifact : Stored base.create artifact := ⟨hbegun, hcompleted⟩
  obtain ⟨evidence, rest, written, rfl, hwrite, hrest⟩ := Program.emits_bind.mp hrest
  rcases writeEvidence_emits base hwrite with ⟨rfl, exc, rfl⟩ |
    ⟨plan, rfl, hbegun, ⟨rfl, hcompleted⟩ | ⟨exc, rfl⟩⟩
  · obtain ⟨rfl, rfl⟩ := hrest
    rw [List.append_nil, List.append_nil]
    exact .storing base inspected artifact exc hinspected hartifact.1
  swap
  · obtain ⟨rfl, rfl⟩ := hrest
    rw [List.append_nil]
    exact .writing plan inspected artifact evidence exc hinspected hartifact hbegun
  have hevidence : Stored plan.evidenceCreate evidence := ⟨hbegun, hcompleted⟩
  rw [← List.append_assoc]
  obtain ⟨marker, rest, put, rfl, hput, hrest⟩ := Program.emits_bind.mp hrest
  rcases putIfAbsent_emits plan.markerCreate rfl hput with ⟨rfl, exc, rfl⟩ | ⟨hbegun, hcompleted⟩
  · obtain ⟨rfl, rfl⟩ := hrest
    rw [List.append_nil, List.append_nil]
    exact .writing plan inspected artifact evidence exc hinspected hartifact hevidence.1
  rcases put with exc | ⟨⟨⟩⟩
  · obtain ⟨rfl, rfl⟩ := hrest
    rw [List.append_nil]
    exact .marking plan inspected artifact evidence marker exc hinspected hartifact hevidence hbegun
  · obtain ⟨rfl, rfl⟩ := Program.emits_ret.mp hrest
    rw [List.append_nil]
    exact .committed plan inspected artifact evidence marker hinspected hartifact hevidence
      ⟨hbegun, hcompleted rfl⟩

theorem ArtifactPlan.Inspected.counts {plan : ArtifactPlan call} {passed : Bool}
    (h : plan.Inspected passed sent) : sent.countP Message.isPut = 0 ∧
      sent.countP Message.isRequest ≤ 3 := Inspects.counts h

theorem Begun.counts {create : CreateCall} (h : Begun create sent) :
    sent.countP Message.isPut ≤ 3 ∧ sent.countP Message.isRequest ≤ 6 := h.1.countP_le

theorem Traffic.counts {r : Except Exc BronzeBundleReceipt} (h : Traffic call sent r) :
    sent.countP Message.isPut ≤ 9 ∧ sent.countP Message.isRequest ≤ 21 := by
  -- the three blocks together, each whole, begun or empty
  have blocks {plan : BundlePlan call} {inspected artifact evidence marker : List Message}
      (hinspected : plan.Inspected true inspected) (hartifact : Begun plan.create artifact)
      (hevidence : Begun plan.evidenceCreate evidence) (hmarker : Begun plan.markerCreate marker) :
      (inspected ++ artifact ++ evidence ++ marker).countP Message.isPut ≤ 9 ∧
        (inspected ++ artifact ++ evidence ++ marker).countP Message.isRequest ≤ 21 := by
    have hinspected := hinspected.counts
    have hartifact := hartifact.counts
    have hevidence := hevidence.counts
    have hmarker := hmarker.counts
    simp only [List.countP_append]
    omega
  cases h with
  | unstaged exc => simp
  | inspecting plan passed inspected exc hinspected =>
    have hinspected := hinspected.counts
    omega
  | storing plan inspected artifact exc hinspected hartifact =>
    have hinspected := hinspected.counts
    have hartifact := hartifact.counts
    simp only [List.countP_append]
    omega
  | writing plan inspected artifact evidence exc hinspected hartifact hevidence =>
    have hinspected := hinspected.counts
    have hartifact := hartifact.1.counts
    have hevidence := hevidence.counts
    simp only [List.countP_append]
    omega
  | marking plan inspected artifact evidence marker exc hinspected hartifact hevidence hmarker =>
    exact blocks hinspected hartifact.1 hevidence.1 hmarker
  | committed plan inspected artifact evidence marker hinspected hartifact hevidence hmarker =>
    exact blocks hinspected hartifact.1 hevidence.1 hmarker.1

/-- Whatever is answered, a call and the server talk by the grammar; so the call sends at most nine
    PUTs, each a create of one of its own three payloads, and at most twelve HEADs besides. -/
theorem storeBundle_traffic {events : List httpSignature.Event}
    {r : Except Exc BronzeBundleReceipt} (h : call.run.Trace events r) :
    Traffic call (events.filterMap messageOf) r ∧
      (events.filterMap messageOf).countP Message.isPut ≤ 9 ∧
      (events.filterMap messageOf).countP Message.isRequest ≤ 21 := by
  have htraffic := traffic_of_emits h.emits
  exact ⟨htraffic, htraffic.counts⟩

end Store

/-- The sample call, committed: each of its blocks was completed. -/
theorem storeBundle_traffic_sample :
    ∃ (events : List httpSignature.Event) (inspected artifact evidence marker : List Message),
      (sampleBundle csv none).run.Trace events (.ok (sampleBundlePlan csv).receipt) ∧
      events.filterMap messageOf = inspected ++ artifact ++ evidence ++ marker ∧
      Completed (sampleBundlePlan csv).create artifact ∧
      Completed (sampleBundlePlan csv).evidenceCreate evidence ∧
      Completed (sampleBundlePlan csv).markerCreate marker := by
  obtain ⟨w', hrun, -⟩ := runs_storeBundle_committed (i := ()) (w := World.initial fun _ => none)
    Server.strict_grants csv_ready fun _ _ => rfl
  obtain ⟨events, htrace⟩ := hrun.trace
  obtain ⟨htraffic, -⟩ := storeBundle_traffic htrace
  refine ⟨events, ?_⟩
  -- only a committed call returns
  have committed : ∀ {sent r}, Traffic (sampleBundle csv none) sent r → (∃ receipt, r = .ok receipt) →
      ∃ inspected artifact evidence marker, sent = inspected ++ artifact ++ evidence ++ marker ∧
        Completed (sampleBundlePlan csv).create artifact ∧
        Completed (sampleBundlePlan csv).evidenceCreate evidence ∧
        Completed (sampleBundlePlan csv).markerCreate marker := by
    rintro sent r h ⟨receipt, rfl⟩
    cases h with
    | committed plan inspected artifact evidence marker _ hartifact hevidence hmarker =>
      obtain rfl := plan.eq (sampleBundlePlan csv)
      exact ⟨inspected, artifact, evidence, marker, rfl, hartifact.2, hevidence.2, hmarker.2⟩
  obtain ⟨inspected, artifact, evidence, marker, hsent, hcompleted⟩ :=
    committed htraffic ⟨_, rfl⟩
  exact ⟨inspected, artifact, evidence, marker, htrace, hsent, hcompleted⟩

end EvidenceCartographer.Infrastructure

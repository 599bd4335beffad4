import EvidenceCartographer.Infrastructure.CreateRuns
import EvidenceCartographer.Infrastructure.Staging

/-! What one `store_bundle` call sends, and what it knows when it ends.

    The three payloads of a call are functions of its arguments: `ArtifactPlan` and `BundlePlan` hold
    them, once the artifact and the evidence have been staged. `Orderly` is the invariant of a call
    over any run: its evidence PUTs come after a secured artifact, and its marker PUTs after both. -/

namespace EvidenceCartographer.Infrastructure

open Python Domain Application Concurrency MinioConditionalObjectClient

/-- The arguments of one `store_bundle` call, and what the local machine does during it. -/
structure BundleCall where
  bucketName : String
  bronzePrefix : String
  staging : Staging
  artifact : BronzeArtifact
  evidence : EvidenceIterable
  contractMessages : List ValidationMessage

namespace BundleCall

variable (call : BundleCall)

/-- `MinioBronzeArtifactStore` over `MinioConditionalObjectClient`. -/
def store : MinioBronzeArtifactStore httpSignature :=
  ⟨minioConditionalObjectClient maxSinglePutSizeBytes, call.bucketName, call.bronzePrefix,
    maxSinglePutSizeBytes⟩

/-- The store with `ceiling` for `MAX_SINGLE_PUT_SIZE_BYTES`, and a client that has another. -/
def storeUnder (ceiling clientCeiling : Nat) : MinioBronzeArtifactStore httpSignature :=
  ⟨minioConditionalObjectClient clientCeiling, call.bucketName, call.bronzePrefix, ceiling⟩

def run : Program httpSignature Exc BronzeBundleReceipt :=
  call.store.storeBundle call.staging call.artifact call.evidence call.contractMessages

def keys : Except Exc BronzeObjectKeys := buildBronzeObjectKeys call.artifact call.bronzePrefix

def snapshot (keys : BronzeObjectKeys) : Except Exc Snapshot :=
  snapshotArtifact maxSinglePutSizeBytes call.artifact (call.store.uri keys.artifact) call.staging

def spooled (keys : BronzeObjectKeys) : Except Exc EvidenceSpool :=
  spoolEvidence maxSinglePutSizeBytes call.artifact (call.store.uri keys.evidenceManifest)
    call.staging.evidenceSpool call.evidence

/-- One of the call's keys, in its bucket. -/
def objectKey (key : String) : ObjectKey := (call.bucketName, key)

end BundleCall

/-- The three keys in the order of `_assert_bundle_absent`. -/
def BronzeObjectKeys.toList (keys : BronzeObjectKeys) : List String :=
  [keys.artifact, keys.evidenceManifest, keys.completionManifest]

/-- A key gives back its kind. -/
theorem BronzeObjectKeys.exists_kind {keys : BronzeObjectKeys} {key : String}
    (hk : key ∈ keys.toList) : ∃ kind, key = keys.get kind := by
  simp only [BronzeObjectKeys.toList, List.mem_cons, List.not_mem_nil, or_false] at hk
  rcases hk with rfl | rfl | rfl
  · exact ⟨.artifact, rfl⟩
  · exact ⟨.evidenceManifest, rfl⟩
  · exact ⟨.completionManifest, rfl⟩

theorem BronzeObjectKeys.get_mem (keys : BronzeObjectKeys) (kind : KeyKind) :
    keys.get kind ∈ keys.toList := by
  cases kind <;> simp [BronzeObjectKeys.get, BronzeObjectKeys.toList]

/-- A call whose keys are built and whose artifact is staged. -/
structure ArtifactPlan (call : BundleCall) where
  keys : BronzeObjectKeys
  keys_eq : call.keys = .ok keys
  snapshot : Snapshot
  snapshot_eq : call.snapshot keys = .ok snapshot

/-- A call whose evidence is staged too. -/
structure BundlePlan (call : BundleCall) extends ArtifactPlan call where
  written : EvidenceSpool
  written_eq : call.spooled keys = .ok written

variable {call : BundleCall}

namespace ArtifactPlan

/-- The `StoredObject` of the artifact. -/
def object (plan : ArtifactPlan call) : StoredObject :=
  ⟨call.store.uri plan.keys.artifact, plan.snapshot.sizeBytes, plan.snapshot.digest.hexdigest⟩

/-- The create of the artifact object. -/
def create (plan : ArtifactPlan call) : CreateCall where
  bucketName := call.bucketName
  objectName := plan.keys.artifact
  data := plan.snapshot.spool.seek 0
  length := plan.snapshot.sizeBytes
  sha256 := plan.snapshot.digest.hexdigest.text
  contentType := call.artifact.mediaType

theorem eq (plan plan' : ArtifactPlan call) : plan = plan' := by
  obtain ⟨keys, hkeys, snapshot, hsnapshot⟩ := plan
  obtain ⟨keys', hkeys', snapshot', hsnapshot'⟩ := plan'
  rw [hkeys] at hkeys'; cases hkeys'
  rw [hsnapshot] at hsnapshot'; cases hsnapshot'
  rfl

theorem keys_unique (plan : ArtifactPlan call) {keys : BronzeObjectKeys}
    (hkeys : call.keys = .ok keys) : plan.keys = keys :=
  Except.ok.inj (plan.keys_eq.symm.trans hkeys)

theorem snapshot_of (plan : ArtifactPlan call) :
    plan.snapshot.Of (chunksRead call.staging.file.reads) :=
  (snapshotArtifact_ok plan.snapshot_eq).1

theorem create_honest (plan : ArtifactPlan call) : plan.create.Honest := by
  have h := plan.snapshot_of
  refine ⟨?_, ?_⟩
  · simp only [CreateCall.Whole, create, Stream.rest, Stream.seek, List.drop_zero, h.content, h.size]
  · simp only [create, Stream.rest, Stream.seek, List.drop_zero, h.content, Digest.hexdigest,
      h.digest]

end ArtifactPlan

namespace BundlePlan

def evidenceObject (plan : BundlePlan call) : StoredObject :=
  ⟨call.store.uri plan.keys.evidenceManifest, plan.written.spool.tell,
    plan.written.digest.hexdigest⟩

/-- The create of the evidence object. -/
def evidenceCreate (plan : BundlePlan call) : CreateCall where
  bucketName := call.bucketName
  objectName := plan.keys.evidenceManifest
  data := plan.written.spool.seek 0
  length := plan.written.spool.tell
  sha256 := plan.written.digest.hexdigest.text
  contentType := "application/x-ndjson"

def completion (plan : BundlePlan call) : BronzeCompletionManifest where
  source := call.artifact.source
  ingestionRunId := call.artifact.ingestionRunId
  retrievedAt := call.artifact.retrievedAt
  sourceUrl := call.artifact.sourceUrl
  contractVersion := call.artifact.contractVersion
  artifact := plan.object
  evidenceManifest := plan.evidenceObject
  totalRecords := plan.written.totalRecords
  outcomeCounts := plan.written.counts
  contractMessages := call.contractMessages

/-- The create of the completion marker. -/
def markerCreate (plan : BundlePlan call) : CreateCall where
  bucketName := call.bucketName
  objectName := plan.keys.completionManifest
  data := .ofBytes (canonicalJson plan.completion.modelDump)
  length := (canonicalJson plan.completion.modelDump).length
  sha256 := (Python.sha256 (canonicalJson plan.completion.modelDump)).text
  contentType := "application/json"

def receipt (plan : BundlePlan call) : BronzeBundleReceipt where
  source := call.artifact.source
  ingestionRunId := call.artifact.ingestionRunId
  artifact := plan.object
  evidenceManifest := plan.evidenceObject
  completionManifestUri := call.store.uri plan.keys.completionManifest

theorem eq (plan plan' : BundlePlan call) : plan = plan' := by
  obtain ⟨base, written, hwritten⟩ := plan
  obtain ⟨base', written', hwritten'⟩ := plan'
  obtain rfl := base.eq base'
  rw [hwritten] at hwritten'; cases hwritten'
  rfl

theorem written_of (plan : BundlePlan call) :
    plan.written.Of call.artifact call.evidence.items :=
  (spoolEvidence_ok plan.written_eq).2

theorem evidenceCreate_honest (plan : BundlePlan call) : plan.evidenceCreate.Honest := by
  have h := plan.written_of
  refine ⟨?_, ?_⟩
  · simp only [CreateCall.Whole, evidenceCreate, Stream.rest, Stream.seek, Stream.tell,
      List.drop_zero, h.position]
  · simp only [evidenceCreate, Stream.rest, Stream.seek, List.drop_zero, h.content,
      Digest.hexdigest, h.digest]

theorem markerCreate_honest (plan : BundlePlan call) : plan.markerCreate.Honest := ⟨rfl, rfl⟩

end BundlePlan

variable {ι : Type}

/-- The requests a call may have sent by now. -/
inductive Allowed (call : BundleCall) (i : ι) (w : World ι) : PutRequest → Prop where
  | artifact (plan : ArtifactPlan call) : plan.create.Accepted → Allowed call i w plan.create.request
  | evidence (plan : BundlePlan call) : plan.evidenceCreate.Accepted →
      w.Secured i plan.create → Allowed call i w plan.evidenceCreate.request
  | marker (plan : BundlePlan call) : plan.markerCreate.Accepted → w.Secured i plan.create →
      w.Secured i plan.evidenceCreate → Allowed call i w plan.markerCreate.request

/-- Whatever a call may send announces what it carries. -/
theorem Allowed.create {i : ι} {w : World ι} {r : PutRequest} (h : Allowed call i w r) :
    ∃ create : CreateCall, r = create.request ∧ create.Honest ∧ create.Accepted := by
  cases h with
  | artifact plan ha => exact ⟨_, rfl, plan.create_honest, ha⟩
  | evidence plan ha _ => exact ⟨_, rfl, plan.evidenceCreate_honest, ha⟩
  | marker plan ha _ _ => exact ⟨_, rfl, plan.markerCreate_honest, ha⟩

/-- Whatever a call may send is for one of its keys. -/
theorem Allowed.key {i : ι} {w : World ι} {r : PutRequest} (h : Allowed call i w r) :
    ∃ keys, call.keys = .ok keys ∧ ∃ key ∈ keys.toList, r.key = call.objectKey key := by
  cases h with
  | artifact plan _ =>
    exact ⟨_, plan.keys_eq, _, plan.keys.get_mem .artifact, rfl⟩
  | evidence plan _ _ =>
    exact ⟨_, plan.keys_eq, _, plan.keys.get_mem .evidenceManifest, rfl⟩
  | marker plan _ _ _ =>
    exact ⟨_, plan.keys_eq, _, plan.keys.get_mem .completionManifest, rfl⟩

/-- Every PUT call `i` has sent satisfies `P`. -/
def World.AllSent (w : World ι) (i : ι) (P : PutRequest → Prop) : Prop :=
  ∀ n p, w.puts.entry i n = some p → P p.request

/-- The invariant of a call: whatever it has sent it was allowed to send. -/
def Orderly (call : BundleCall) (i : ι) (w : World ι) : Prop := w.AllSent i (Allowed call i w)

/-- The request is not for the call's marker. -/
def NotMarker (call : BundleCall) (r : PutRequest) : Prop :=
  ∀ keys, call.keys = .ok keys → r.key ≠ call.objectKey keys.completionManifest

theorem Allowed.since {i : ι} {w w' : World ι} {r : PutRequest} (hs : Since i w w')
    (h : Allowed call i w r) : Allowed call i w' r := by
  cases h with
  | artifact plan ha => exact .artifact plan ha
  | evidence plan ha hsec => exact .evidence plan ha (hsec.since hs)
  | marker plan ha hsec hsec' => exact .marker plan ha (hsec.since hs) (hsec'.since hs)

/-- What stays true of a request holds of all PUTs while no other is started. -/
theorem keptQuietly_allSent {i : ι} {P : World ι → PutRequest → Prop}
    (hP : ∀ w w' r, Since i w w' → P w r → P w' r) :
    KeptQuietly i fun w => w.AllSent i (P w) := by
  intro w w' hs hsize h n p' hp'
  obtain ⟨p, hp⟩ := Log.entry_of_lt (hsize ▸ Log.lt_size hp')
  obtain ⟨q, hq, hreq, -⟩ := hs.puts n p hp
  rw [hp'] at hq; cases hq
  rw [hreq]; exact hP w w' _ hs (h n p hp)

theorem KeptQuietly.and {i : ι} {J J' : World ι → Prop} (h : KeptQuietly i J)
    (h' : KeptQuietly i J') : KeptQuietly i fun w => J w ∧ J' w :=
  fun w w' hs hsize hw => ⟨h w w' hs hsize hw.1, h' w w' hs hsize hw.2⟩

theorem Orderly.keptQuietly (call : BundleCall) (i : ι) : KeptQuietly i (Orderly call i) :=
  keptQuietly_allSent fun _ _ _ hs h => h.since hs

theorem keptQuietly_notMarker (call : BundleCall) (i : ι) :
    KeptQuietly i fun w => w.AllSent i (NotMarker call) :=
  keptQuietly_allSent fun _ _ _ _ h => h

theorem ArtifactPlan.keys_distinct (plan : ArtifactPlan call) : plan.keys.Distinct := by
  obtain ⟨retrieved, -, hbundle⟩ := buildBronzeObjectKeys_ok plan.keys_eq
  rw [hbundle]; exact bundleKeys_distinct _ _

/-- A request for one of the other two keys. -/
theorem ArtifactPlan.notMarker_of_ne (plan : ArtifactPlan call) {key : String} {r : PutRequest}
    (hr : r.key = call.objectKey key) (hne : key ≠ plan.keys.completionManifest) :
    NotMarker call r := by
  intro keys hkeys heq
  obtain rfl := plan.keys_unique hkeys
  rw [hr] at heq
  exact hne (congrArg Prod.snd heq)

theorem ArtifactPlan.notMarker (plan : ArtifactPlan call) : NotMarker call plan.create.request :=
  plan.notMarker_of_ne rfl plan.keys_distinct.artifact_marker

theorem BundlePlan.notMarker (plan : BundlePlan call) :
    NotMarker call plan.evidenceCreate.request :=
  plan.notMarker_of_ne rfl plan.keys_distinct.evidence_marker

/-- Only a marker PUT is one. -/
theorem Allowed.notMarker {i : ι} {w : World ι} {r : PutRequest} (h : Allowed call i w r) :
    NotMarker call r ∨ ∃ plan : BundlePlan call, r = plan.markerCreate.request ∧
      plan.markerCreate.Accepted ∧ w.Secured i plan.create ∧ w.Secured i plan.evidenceCreate := by
  cases h with
  | artifact plan _ => exact .inl plan.notMarker
  | evidence plan _ _ => exact .inl plan.notMarker
  | marker plan ha h₁ h₂ => exact .inr ⟨plan, rfl, ha, h₁, h₂⟩

/-- Only an artifact PUT is for the artifact key, and only an evidence PUT for the evidence key. -/
theorem Allowed.of_key {i : ι} {w : World ι} {r : PutRequest} {keys : BronzeObjectKeys}
    (h : Allowed call i w r) (hkeys : call.keys = .ok keys) :
    (r.key = call.objectKey keys.artifact → ∃ plan : ArtifactPlan call, r = plan.create.request) ∧
    (r.key = call.objectKey keys.evidenceManifest →
      ∃ plan : BundlePlan call, r = plan.evidenceCreate.request) := by
  have hname : ∀ {key key' : String}, key ≠ key' → call.objectKey key ≠ call.objectKey key' :=
    fun hne heq => hne (congrArg Prod.snd heq)
  cases h with
  | artifact plan _ =>
    obtain rfl := plan.keys_unique hkeys
    exact ⟨fun _ => ⟨plan, rfl⟩, fun hkey => absurd hkey (hname plan.keys_distinct.artifact_evidence)⟩
  | evidence plan _ _ =>
    obtain rfl := plan.keys_unique hkeys
    exact ⟨fun hkey => absurd hkey.symm (hname plan.keys_distinct.artifact_evidence),
      fun _ => ⟨plan, rfl⟩⟩
  | marker plan _ _ _ =>
    obtain rfl := plan.keys_unique hkeys
    exact ⟨fun hkey => absurd hkey.symm (hname plan.keys_distinct.artifact_marker),
      fun hkey => absurd hkey.symm (hname plan.keys_distinct.evidence_marker)⟩

/-- The ways a `store_bundle` call that started at `w₀` can end. -/
inductive BundleEnding (call : BundleCall) (i : ι) (w₀ w : World ι) :
    Except Exc BronzeBundleReceipt → Prop where
  | committed (plan : BundlePlan call) : w.Secured i plan.create → w.Secured i plan.evidenceCreate →
      w.Secured i plan.markerCreate →
      (∀ key ∈ plan.keys.toList, w₀.objects (call.objectKey key) = none) →
      BundleEnding call i w₀ w (.ok plan.receipt)
  | unmarked (e) : w.AllSent i (NotMarker call) → BundleEnding call i w₀ w (.error e)
  | marker (plan : BundlePlan call) (w₁ e) : w₁.AllSent i (NotMarker call) →
      Ended maxSinglePutSizeBytes i w₁ plan.markerCreate.length plan.markerCreate.request
        plan.markerCreate.sha256 (.error e) w →
      BundleEnding call i w₀ w
        (.error (putError (call.store.uri plan.keys.completionManifest) e))

theorem BundleEnding.rely {i : ι} {w₀ w w' : World ι} {r : Except Exc BronzeBundleReceipt}
    (hr : Rely i w w') (h : BundleEnding call i w₀ w r) :
    BundleEnding call i w₀ w' r := by
  have hs := hr.quiet.since
  cases h with
  | committed plan h₁ h₂ h₃ hfree =>
    exact .committed plan (h₁.since hs) (h₂.since hs) (h₃.since hs) hfree
  | unmarked e hnot => exact .unmarked e ((keptQuietly_notMarker call i).quiet hr.quiet hnot)
  | marker plan w₁ e hnot hend => exact .marker plan w₁ e hnot (hend.rely hr)

section Client

variable [DecidableEq ι] {srv : Server} {i : ι} {w w' w₀ : World ι} {J : World ι → Prop}

theorem Since.sendPut {p : PutAttempt} {hfate : p.fate ≠ .landed} :
    Since i w (w.sendPut i p hfate) where
  objects _ _ h := h
  size := (Nat.le_succ _).trans_eq (Log.size_push_self ..).symm
  puts _ q hq := ⟨q, Log.entry_push_of_entry hq, rfl, fun _ => id⟩

/-- Sending a request that satisfies `P` from some moment on. -/
theorem keptSending_allSent {P : World ι → PutRequest → Prop} {r : PutRequest}
    (hP : ∀ w w' r, Since i w w' → P w r → P w' r) (h : P w₀ r) :
    KeptSending i (fun w => w.AllSent i (P w)) w₀ r := by
  rintro w p hfate hs hw rfl n q hq
  have hsent : Since i w (w.sendPut i p hfate) := .sendPut
  rw [World.sendPut, Log.entry_push] at hq
  split at hq
  · cases hq
    exact hP _ _ _ (hs.trans hsent) h
  · exact hP _ _ _ hsent (hw n q hq)

theorem KeptSending.and {J' : World ι → Prop} {r : PutRequest} (h : KeptSending i J w₀ r)
    (h' : KeptSending i J' w₀ r) : KeptSending i (fun w => J w ∧ J' w) w₀ r :=
  fun w p hfate hs hw hreq => ⟨h w p hfate hs hw.1 hreq, h' w p hfate hs hw.2 hreq⟩

theorem KeptSending.since {r : PutRequest} (hs : Since i w₀ w) (h : KeptSending i J w₀ r) :
    KeptSending i J w r :=
  fun w' p hfate hs' hw hreq => h w' p hfate (hs.trans hs') hw hreq

/-- `_put_if_absent`: how the client's create ended, and its error translated. -/
theorem safe_putIfAbsent (call : BundleCall) (create : CreateCall)
    (hbucket : create.bucketName = call.bucketName)
    (hJ : KeptQuietly i J) (hsend : create.Accepted → KeptSending i J w create.request) (hw : J w) :
    (storeSystem srv).Safe i J
      (call.store.putIfAbsent create.objectName create.data create.length create.sha256
        create.contentType)
      (fun r w' => J w' ∧ ∃ r', r = r'.mapError (putError (call.store.uri create.objectName)) ∧
        Ended maxSinglePutSizeBytes i w create.length create.request create.sha256 r' w' ∧
        (r' = .ok () → create.Accepted)) w := by
  unfold MinioBronzeArtifactStore.putIfAbsent
  split
  · rename_i hlt
    exact ⟨hw, .error (.singlePutSizeLimitError _ create.length maxSinglePutSizeBytes), rfl,
      .tooLarge _ hlt, by simp⟩
  · rename_i hle
    have haccepted : create.Accepted := Nat.le_of_not_lt hle
    have hreq : putRequest call.store.bucketName create.objectName create.data create.length
        create.sha256 create.contentType = create.request := by
      rw [CreateCall.request, hbucket]; rfl
    refine .handle ((safe_putObjectIfAbsent maxSinglePutSizeBytes call.store.bucketName
      create.objectName create.data create.length create.sha256 create.contentType hJ
      (by rw [hreq]; exact hsend haccepted) hw).mono ?_)
    rw [hreq]
    rintro (exc | ⟨⟨⟩⟩) w' ⟨hw', hend⟩
    · exact ⟨hw', .error exc, rfl, hend, by simp⟩
    · exact ⟨hw', .ok (), rfl, hend, fun _ => haccepted⟩

/-- What `_exists` found out. -/
inductive Inspected (srv : Server) (i : ι) (call : BundleCall) (key : String) (w w' : World ι) :
    Except Exc Bool → Prop where
  | found (o metadata) : w'.objects (call.objectKey key) = some o →
      w'.lastAnswer i = some (.stat (.ok o.stat)) → decodeMetadata o.stat = .ok metadata →
      Inspected srv i call key w w' (.ok true)
  | free : w.objects (call.objectKey key) = none → Inspected srv i call key w w' (.ok false)
  | undecoded (o e) : w'.objects (call.objectKey key) = some o →
      w'.lastAnswer i = some (.stat (.ok o.stat)) → decodeMetadata o.stat = .error e →
      Inspected srv i call key w w'
        (.error (.objectStoreError ("could not inspect " ++ call.store.uri key)))
  | failed (e) : srv.statFails e → Inspected srv i call key w w'
        (.error (.objectStoreError ("could not inspect " ++ call.store.uri key)))

theorem safe_existsKey (hJ : KeptQuietly i J) (key : String) (hw : J w) :
    (storeSystem srv).Safe i J (call.store.existsKey key)
      (fun r w' => J w' ∧ Quiet i w w' ∧ Inspected srv i call key w w' r) w := by
  refine .bind (.attempt ((safe_statObject hJ call.bucketName key hw).mono ?_))
  rintro r w' ⟨hw', answer, hl, rfl⟩
  rcases answer with e | stat
  · by_cases hm : isMissing e = true
    · simp only [Except.bind, hm, if_true]
      exact ⟨hw', hl.quiet, .free (hl.missing e rfl hm)⟩
    · simp only [Except.bind, hm]
      exact ⟨hw', hl.quiet, .failed e (hl.failed e rfl (by simpa using hm))⟩
  · obtain ⟨o, ho, rfl, -⟩ := hl.found stat rfl
    cases hd : decodeMetadata o.stat with
    | error e =>
      simp only [Except.bind, hd, isMissing_of_decodeMetadata hd]
      exact ⟨hw', hl.quiet, .undecoded o e ho hl.last hd⟩
    | ok metadata =>
      simp only [Except.bind, hd]
      exact ⟨hw', hl.quiet, .found o metadata ho hl.last hd⟩

/-- How `_assert_bundle_absent` refuses: a key was inspected and did not turn out free. -/
inductive Refused (srv : Server) (i : ι) (call : BundleCall) (keys : List String) (w : World ι) :
    Exc → Prop where
  | occupied (key o metadata) : key ∈ keys → w.objects (call.objectKey key) = some o →
      w.lastAnswer i = some (.stat (.ok o.stat)) → decodeMetadata o.stat = .ok metadata →
      Refused srv i call keys w (.objectAlreadyExistsError (call.store.uri key))
  | undecoded (key o e) : key ∈ keys → w.objects (call.objectKey key) = some o →
      w.lastAnswer i = some (.stat (.ok o.stat)) → decodeMetadata o.stat = .error e →
      Refused srv i call keys w (.objectStoreError ("could not inspect " ++ call.store.uri key))
  | failed (key e) : key ∈ keys → srv.statFails e →
      Refused srv i call keys w (.objectStoreError ("could not inspect " ++ call.store.uri key))

omit [DecidableEq ι] in
theorem Refused.cons {key : String} {keys : List String} {e : Exc}
    (h : Refused srv i call keys w e) : Refused srv i call (key :: keys) w e := by
  cases h with
  | occupied key' o metadata hk ho hl hd =>
    exact .occupied key' o metadata (List.mem_cons_of_mem _ hk) ho hl hd
  | undecoded key' o e hk ho hl hd =>
    exact .undecoded key' o e (List.mem_cons_of_mem _ hk) ho hl hd
  | failed key' e hk hf => exact .failed key' e (List.mem_cons_of_mem _ hk) hf

/-- By induction on the keys still to inspect: it lets through only what was free on entry. -/
theorem safe_assertAbsent (hJ : KeptQuietly i J) (keys : List String) (hw : J w) :
    (storeSystem srv).Safe i J (call.store.assertAbsent keys)
      (fun r w' => J w' ∧ Quiet i w w' ∧
        (r = .ok () → ∀ key ∈ keys, w.objects (call.objectKey key) = none) ∧
        ∀ e, r = .error e → Refused srv i call keys w' e) w := by
  induction keys generalizing w with
  | nil => exact ⟨hw, Quiet.refl, by simp, by simp⟩
  | cons key keys ih =>
    refine .bind ((safe_existsKey hJ key hw).mono ?_)
    rintro r w₁ ⟨hw₁, hq₁, hi⟩
    cases hi with
    | found o metadata ho hl hd =>
      refine ⟨hw₁, hq₁, by simp, ?_⟩
      rintro _ ⟨⟩
      exact .occupied key o metadata (by simp) ho hl hd
    | undecoded o e ho hl hd =>
      refine ⟨hw₁, hq₁, by simp, ?_⟩
      rintro _ ⟨⟩
      exact .undecoded key o e (by simp) ho hl hd
    | failed e hf =>
      refine ⟨hw₁, hq₁, by simp, ?_⟩
      rintro _ ⟨⟩
      exact .failed key e (by simp) hf
    | free hfree =>
      refine (ih hw₁).mono ?_
      rintro r w₂ ⟨hw₂, hq₂, hok, herr⟩
      refine ⟨hw₂, hq₁.trans hq₂, fun hr => ?_, fun e he => (herr e he).cons⟩
      intro key' hk
      rcases List.mem_cons.mp hk with rfl | hk
      · exact hfree
      · -- free after the first look, so free before it
        cases ho : w.objects (call.objectKey key') with
        | none => rfl
        | some o => rw [← hok hr key' hk, hq₁.objects _ _ ho]

variable {keys : BronzeObjectKeys}

/-- The first block: on success the three keys were free on entry and the artifact is secured. -/
theorem safe_storeArtifact (hkeys : call.keys = .ok keys) (hJ : KeptQuietly i J)
    (hsend : ∀ plan : ArtifactPlan call, plan.create.Accepted →
      KeptSending i J w plan.create.request) (hw : J w) :
    (storeSystem srv).Safe i J
      (call.store.storeArtifact call.staging call.artifact keys ⟨call.store.uri keys.artifact,
        call.store.uri keys.evidenceManifest, call.store.uri keys.completionManifest⟩)
      (fun r w' => J w' ∧ Since i w w' ∧ ∀ object, r = .ok object →
        (∀ key ∈ keys.toList, w.objects (call.objectKey key) = none) ∧
        ∃ plan : ArtifactPlan call, object = plan.object ∧ w'.Secured i plan.create) w := by
  refine MinioBronzeArtifactStore.safe_storeArtifact_of
    (R := fun _ w' => J w' ∧ Since i w w') (fun _ _ h => ⟨fun _ => ⟨h.1, h.2, by simp⟩,
      fun _ => ⟨h.1, h.2, by simp⟩⟩)
    (fun _ _ => ⟨hw, Quiet.refl.since⟩) (fun _ _ => ⟨hw, Quiet.refl.since⟩) fun snapshot hsnap => ?_
  let plan : ArtifactPlan call := ⟨keys, hkeys, snapshot, hsnap⟩
  refine System.Safe.mono (safe_assertAbsent hJ keys.toList hw) ?_
  rintro r w₁ ⟨hw₁, hq₁, hfree, -⟩
  refine ⟨fun _ _ => ⟨hw₁, hq₁.since⟩, fun hok₁ => ⟨fun _ _ => ⟨hw₁, hq₁.since⟩, ?_⟩⟩
  refine (safe_putIfAbsent call plan.create rfl hJ (fun ha => (hsend plan ha).since hq₁.since)
    hw₁).mono ?_
  rintro _ w₂ ⟨hw₂, r', rfl, hend, hacc⟩
  have hs := hq₁.since.trans hend.since
  refine ⟨fun _ _ => ⟨hw₂, hs⟩, fun hok₂ => ⟨hw₂, hs, ?_⟩⟩
  rintro _ ⟨⟩
  cases r' with
  | error exc => cases hok₂
  | ok u => exact ⟨hfree hok₁, plan, rfl, hend.secured (hacc rfl)⟩

/-- `_write_evidence`: on success the evidence is secured. -/
theorem safe_writeEvidence (base : ArtifactPlan call) (hJ : KeptQuietly i J)
    (hsend : ∀ plan : BundlePlan call, plan.evidenceCreate.Accepted →
      KeptSending i J w plan.evidenceCreate.request) (hw : J w) :
    (storeSystem srv).Safe i J
      (call.store.writeEvidence call.staging call.artifact call.evidence base.keys.evidenceManifest)
      (fun r w' => J w' ∧ Since i w w' ∧ ∀ x, r = .ok x → ∃ plan : BundlePlan call,
        x = (plan.evidenceObject, plan.written.totalRecords, plan.written.counts) ∧
        w'.Secured i plan.evidenceCreate) w := by
  refine MinioBronzeArtifactStore.safe_writeEvidence_of
    (R := fun _ w' => J w' ∧ Since i w w') (fun _ _ h => ⟨h.1, h.2, by simp⟩)
    (fun _ _ => ⟨hw, Quiet.refl.since⟩) (fun _ _ => ⟨hw, Quiet.refl.since⟩) fun written hspool => ?_
  let plan : BundlePlan call := ⟨base, written, hspool⟩
  refine ⟨fun _ _ => ⟨hw, Quiet.refl.since⟩, ?_⟩
  refine (safe_putIfAbsent call plan.evidenceCreate rfl hJ (hsend plan) hw).mono ?_
  rintro _ w' ⟨hw', r', rfl, hend, hacc⟩
  refine ⟨fun _ _ => ⟨hw', hend.since⟩, fun hok => ⟨hw', hend.since, ?_⟩⟩
  rintro _ ⟨⟩
  cases r' with
  | error exc => cases hok
  | ok u => exact ⟨plan, rfl, hend.secured (hacc rfl)⟩

/-- The last block, after both objects are secured. -/
theorem safe_marker (plan : BundlePlan call) (hw : Orderly call i w ∧ w.AllSent i (NotMarker call))
    (hsec₁ : w.Secured i plan.create) (hsec₂ : w.Secured i plan.evidenceCreate)
    (hfree : ∀ key ∈ plan.keys.toList, w₀.objects (call.objectKey key) = none) :
    (storeSystem srv).Safe i (Orderly call i)
      ((call.store.putIfAbsent plan.markerCreate.objectName plan.markerCreate.data
        plan.markerCreate.length plan.markerCreate.sha256 plan.markerCreate.contentType).bind
          fun _ => .ret plan.receipt)
      (fun r w' => Orderly call i w' ∧ BundleEnding call i w₀ w' r) w := by
  refine .bind ((safe_putIfAbsent call plan.markerCreate rfl (Orderly.keptQuietly call i) ?_
    hw.1).mono ?_)
  · intro ha
    exact keptSending_allSent (fun _ _ _ hs h => h.since hs) (.marker plan ha hsec₁ hsec₂)
  rintro _ w' ⟨hw', r', rfl, hend, hacc⟩
  cases r' with
  | error e => exact ⟨hw', .marker plan w e hw.2 hend⟩
  | ok u =>
    have hs := hend.since
    exact ⟨hw', .committed plan (hsec₁.since hs) (hsec₂.since hs) (hend.secured (hacc rfl)) hfree⟩

/-- One whole call. Up to the marker it sends no marker PUT; the marker PUT needs both objects. -/
theorem safe_storeBundle (hw : w.puts.size i = 0) :
    (storeSystem srv).Safe i (Orderly call i) call.run
      (fun r w' => Orderly call i w' ∧ BundleEnding call i w w' r) w := by
  have empty : ∀ P, w.AllSent i P := fun P n p hp =>
    absurd (Log.lt_size hp) (by rw [hw]; exact Nat.not_lt_zero n)
  have hJ := (Orderly.keptQuietly call i).and (keptQuietly_notMarker call i)
  have hw₀ : Orderly call i w ∧ w.AllSent i (NotMarker call) := ⟨empty _, empty _⟩
  unfold BundleCall.run MinioBronzeArtifactStore.storeBundle
  split
  swap
  · exact ⟨hw₀.1, .unmarked _ hw₀.2⟩
  cases hkeys : buildBronzeObjectKeys call.artifact call.store.bronzePrefix with
  | error exc => exact ⟨hw₀.1, .unmarked _ hw₀.2⟩
  | ok keys =>
  rw [call.store.targetFor_eq hkeys]
  refine .bind (System.safe_ofExcept.mpr (.bind (System.safe_ofExcept.mpr (.bind ?_))))
  -- the artifact
  refine ((safe_storeArtifact hkeys hJ ?_ hw₀).weaken fun _ h => h.1).mono ?_
  · intro plan ha
    exact (keptSending_allSent (fun _ _ _ hs h => h.since hs) (.artifact plan ha)).and
      (keptSending_allSent (fun _ _ _ _ h => h) plan.notMarker)
  rintro (exc | object) w₁ ⟨hw₁, hs₁, hok₁⟩
  · exact ⟨hw₁.1, .unmarked _ hw₁.2⟩
  obtain ⟨hfree, base, rfl, hsec₁⟩ := hok₁ object rfl
  obtain rfl := base.keys_unique hkeys
  -- the evidence
  refine .bind (((safe_writeEvidence base hJ ?_ hw₁).weaken fun _ h => h.1).mono ?_)
  · intro plan ha
    obtain rfl := base.eq plan.toArtifactPlan
    exact (keptSending_allSent (fun _ _ _ hs h => h.since hs) (.evidence plan ha hsec₁)).and
      (keptSending_allSent (fun _ _ _ _ h => h) plan.notMarker)
  rintro (exc | x) w₂ ⟨hw₂, hs₂, hok₂⟩
  · exact ⟨hw₂.1, .unmarked _ hw₂.2⟩
  obtain ⟨plan, rfl, hsec₂⟩ := hok₂ x rfl
  obtain rfl := base.eq plan.toArtifactPlan
  exact safe_marker plan hw₂ (hsec₁.since hs₂) hsec₂ hfree

end Client

end EvidenceCartographer.Infrastructure

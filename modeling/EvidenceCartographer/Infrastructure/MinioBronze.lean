import EvidenceCartographer.Infrastructure.ConditionalObjectClient
import EvidenceCartographer.Infrastructure.ObjectKeys

/-! The Bronze artifact store: `store_bundle` stages the artifact, looks at the three keys, and creates
    the artifact object, the evidence object and the completion marker, in this order.

    The store talks to its `ConditionalObjectClient` only. What the local machine does during a call
    (the artifact's file, the temporary files) and the evidence an iterator will yield are arguments. -/

namespace EvidenceCartographer.Infrastructure

open Python Domain Application Concurrency

/-- `_canonical_json`; sealed, so that no proof evaluates the text of a manifest by accident. -/
@[irreducible] def canonicalJson (value : Json) : Bytes := encodeUtf8 value.dumps

/-- Writing at the position of a stream. -/
def Stream.write (data : Stream) (bytes : Bytes) : Stream where
  content := data.content.take data.position ++ bytes ++
    data.content.drop (data.position + bytes.length)
  position := data.position + bytes.length

def Stream.empty : Stream := ⟨[], 0⟩

/-- The artifact's file: each read of it gives a chunk, the empty one at the end, or raises; opening
    it is part of the first read. -/
structure LocalFile where
  isFile : Bool
  reads : List (Except Exc Bytes)

/-- When a `SpooledTemporaryFile` raises: on its creation, on a write at some position, or when it is
    rewound, which flushes it. -/
structure SpoolFaults where
  create : Option Exc
  write : Nat → Option Exc
  rewind : Option Exc

/-- A spool without faults. -/
def SpoolFaults.none : SpoolFaults := ⟨.none, fun _ => .none, .none⟩

/-- `seek(0)`. -/
def SpoolFaults.seekStart (faults : SpoolFaults) : Except Exc Unit :=
  match faults.rewind with
  | .some exc => .error exc
  | .none => .ok ()

theorem SpoolFaults.seekStart_ok {faults : SpoolFaults} (h : faults.rewind = .none) :
    faults.seekStart = .ok () := by
  rw [seekStart, h]

/-- What the local machine does during one call. -/
structure Staging where
  file : LocalFile
  artifactSpool : SpoolFaults
  evidenceSpool : SpoolFaults

/-- What iterating over the evidence gives: its items, and the exception it ends in, if any. -/
structure EvidenceIterable where
  items : List BronzeRecordEvidence
  ending : Option Exc

/-- `MinioBronzeArtifactStore`, with `ceiling` for `MAX_SINGLE_PUT_SIZE_BYTES`. -/
structure MinioBronzeArtifactStore (S : Signature) where
  client : ConditionalObjectClient S
  bucketName : String
  bronzePrefix : String
  ceiling : Nat

/-- `_uri`. -/
def objectUri (bucketName key : String) : String := "s3://" ++ bucketName ++ "/" ++ key

/-- The artifact's snapshot while it is being taken. -/
structure Snapshot where
  spool : Stream
  sizeBytes : Nat
  digest : Digest

def Snapshot.empty : Snapshot := ⟨.empty, 0, .new⟩

/-- The loop of `_snapshot_artifact`. -/
def snapshotChunks (ceiling : Nat) (uri : String) (faults : SpoolFaults) :
    List (Except Exc Bytes) → Snapshot → Except Exc Snapshot
  | [], s => .ok s
  | .error exc :: _, _ => .error exc
  | .ok [] :: _, s => .ok s
  | .ok (byte :: bytes) :: reads, s =>
    let chunk := byte :: bytes
    let sizeBytes := s.sizeBytes + chunk.length
    if ceiling < sizeBytes then .error (.singlePutSizeLimitError uri sizeBytes ceiling)
    else
      match faults.write s.spool.tell with
      | some exc => .error exc
      | none => snapshotChunks ceiling uri faults reads
          ⟨s.spool.write chunk, sizeBytes, s.digest.update chunk⟩

/-- `_snapshot_artifact`. -/
def snapshotArtifact (ceiling : Nat) (artifact : BronzeArtifact) (uri : String) (staging : Staging) :
    Except Exc Snapshot := do
  let s ← snapshotChunks ceiling uri staging.artifactSpool staging.file.reads .empty
  match artifact.expectedSha256 with
  | none => return s
  | some expected =>
    if s.digest.hexdigest = expected then return s
    else throw (.artifactIntegrityError ("expected " ++ expected.text ++ ", computed " ++
      s.digest.hexdigest.text))

/-- `_validate_evidence`. -/
def validateEvidence (artifact : BronzeArtifact) (evidence : BronzeRecordEvidence) :
    Except Exc Unit :=
  if evidence.provenance.source ≠ artifact.source then
    .error (.manifestSerializationError "evidence source does not match artifact")
  else if evidence.provenance.ingestionRunId ≠ artifact.ingestionRunId then
    .error (.manifestSerializationError "evidence run does not match artifact")
  else if evidence.provenance.contractVersion ≠ artifact.contractVersion then
    .error (.manifestSerializationError "evidence contract version does not match artifact")
  else if evidence.provenance.outcome ≠ evidence.result.outcome then
    .error (.manifestSerializationError "provenance outcome does not match contract result")
  else .ok ()

/-- The line of one item. -/
def evidenceLine (item : BronzeRecordEvidence) : Bytes := canonicalJson item.modelDump ++ [0x0a]

/-- The accumulators of `_write_evidence`. -/
structure EvidenceSpool where
  spool : Stream
  digest : Digest
  counts : OutcomeCounts
  totalRecords : Nat

def EvidenceSpool.empty : EvidenceSpool := ⟨.empty, .new, fun _ => 0, 0⟩

/-- The body of the loop of `_write_evidence`. -/
def spoolItem (ceiling : Nat) (artifact : BronzeArtifact) (uri : String) (faults : SpoolFaults)
    (s : EvidenceSpool) (item : BronzeRecordEvidence) : Except Exc EvidenceSpool := do
  validateEvidence artifact item
  let line := evidenceLine item
  let projectedSize := s.spool.tell + line.length
  if ceiling < projectedSize then throw (.singlePutSizeLimitError uri projectedSize ceiling)
  match faults.write s.spool.tell with
  | some exc => throw exc
  | none => return ⟨s.spool.write line, s.digest.update line,
      Function.update s.counts item.result.outcome (s.counts item.result.outcome + 1),
      s.totalRecords + 1⟩

/-- The items that the loop has taken from its iterator, and how it ended. -/
structure Spooling where
  pulled : List BronzeRecordEvidence
  result : Except Exc EvidenceSpool

/-- The loop of `_write_evidence` over these items: it takes the next one when the last is spooled. -/
def spoolItems (ceiling : Nat) (artifact : BronzeArtifact) (uri : String) (faults : SpoolFaults) :
    EvidenceSpool → List BronzeRecordEvidence → Spooling
  | s, [] => ⟨[], .ok s⟩
  | s, item :: items =>
    match spoolItem ceiling artifact uri faults s item with
    | .error exc => ⟨[item], .error exc⟩
    | .ok s' =>
      let rest := spoolItems ceiling artifact uri faults s' items
      ⟨item :: rest.pulled, rest.result⟩

/-- The whole loop: the iterator may raise where its items end. -/
def spoolLoop (ceiling : Nat) (artifact : BronzeArtifact) (uri : String) (faults : SpoolFaults)
    (evidence : EvidenceIterable) : Spooling :=
  let loop := spoolItems ceiling artifact uri faults .empty evidence.items
  match loop.result, evidence.ending with
  | .ok _, some exc => ⟨loop.pulled, .error exc⟩
  | _, _ => loop

/-- What that loop leaves in the spool. -/
def spoolEvidence (ceiling : Nat) (artifact : BronzeArtifact) (uri : String) (faults : SpoolFaults)
    (evidence : EvidenceIterable) : Except Exc EvidenceSpool :=
  (spoolLoop ceiling artifact uri faults evidence).result

/-- The `except` clauses of `_write_evidence`. -/
def evidenceError : Exc → Exc
  | .manifestSerializationError m => .manifestSerializationError m
  | .objectAlreadyExistsError m => .objectAlreadyExistsError m
  | .objectStoreError m => .objectStoreError m
  | .singlePutSizeLimitError uri size max => .singlePutSizeLimitError uri size max
  | exc =>
    if exc.isOSError then .evidenceStagingError "could not stage Bronze record evidence"
    else .manifestSerializationError "could not serialize Bronze record evidence"

/-- The `except` clauses of `_put_if_absent`. -/
def putError (uri : String) : Exc → Exc
  | .singlePutSizeLimitError uri size max => .singlePutSizeLimitError uri size max
  | .conditionalObjectExistsError diagnostic =>
    .objectAlreadyExistsError (uri ++ ": " ++ (Exc.conditionalObjectExistsError diagnostic).str)
  | exc => .objectStoreError ("could not write " ++ uri ++ ": " ++ exc.str)

/-- `with SpooledTemporaryFile(...)`. -/
def withSpool {S : Signature} {α : Type} (faults : SpoolFaults) (body : Program S Exc α) :
    Program S Exc α :=
  match faults.create with
  | some exc => .raise exc
  | none => body

namespace MinioBronzeArtifactStore

variable {S : Signature} (store : MinioBronzeArtifactStore S)

def uri (key : String) : String := objectUri store.bucketName key

def targetFor (artifact : BronzeArtifact) : Except Exc BronzeBundleTarget := do
  let keys ← buildBronzeObjectKeys artifact store.bronzePrefix
  return ⟨store.uri keys.artifact, store.uri keys.evidenceManifest,
    store.uri keys.completionManifest⟩

/-- `_exists`. -/
def existsKey (key : String) : Program S Exc Bool := do
  match ← (store.client.statObject store.bucketName key).attempt with
  | .ok _ => return true
  | .error exc =>
    if isMissing exc then return false
    else .raise (.objectStoreError ("could not inspect " ++ store.uri key))

/-- The loop of `_assert_bundle_absent`. -/
def assertAbsent : List String → Program S Exc Unit
  | [] => return ()
  | key :: keys => do
    if ← store.existsKey key then .raise (.objectAlreadyExistsError (store.uri key))
    else assertAbsent keys

/-- `_assert_bundle_absent`. -/
def assertBundleAbsent (keys : BronzeObjectKeys) : Program S Exc Unit :=
  store.assertAbsent [keys.artifact, keys.evidenceManifest, keys.completionManifest]

/-- `_put_if_absent`. -/
def putIfAbsent (key : String) (data : Stream) (length : Nat) (sha256 contentType : String) :
    Program S Exc Unit :=
  if store.ceiling < length then
    .raise (.singlePutSizeLimitError (store.uri key) length store.ceiling)
  else
    (store.client.putObjectIfAbsent store.bucketName key data length sha256 contentType).handle
      fun exc => .raise (putError (store.uri key) exc)

/-- The first `try` block of `store_bundle`. -/
def storeArtifact (staging : Staging) (artifact : BronzeArtifact) (keys : BronzeObjectKeys)
    (target : BronzeBundleTarget) : Program S Exc StoredObject :=
  (withSpool staging.artifactSpool do
    let snapshot ← .ofExcept (snapshotArtifact store.ceiling artifact target.artifactUri staging)
    store.assertBundleAbsent keys
    .ofExcept staging.artifactSpool.seekStart
    store.putIfAbsent keys.artifact (snapshot.spool.seek 0) snapshot.sizeBytes
      snapshot.digest.hexdigest.text artifact.mediaType
    return ⟨target.artifactUri, snapshot.sizeBytes, snapshot.digest.hexdigest⟩).handle fun exc =>
      if exc.isOSError then .raise (.artifactStagingError
        ("could not stage acquisition artifact " ++ artifact.localPath))
      else .raise exc

/-- `_write_evidence`. -/
def writeEvidence (staging : Staging) (artifact : BronzeArtifact) (evidence : EvidenceIterable)
    (key : String) : Program S Exc (StoredObject × Nat × OutcomeCounts) :=
  (withSpool staging.evidenceSpool do
    let s ← .ofExcept (spoolEvidence store.ceiling artifact (store.uri key) staging.evidenceSpool
      evidence)
    let sizeBytes := s.spool.tell
    .ofExcept staging.evidenceSpool.seekStart
    store.putIfAbsent key (s.spool.seek 0) sizeBytes s.digest.hexdigest.text "application/x-ndjson"
    return (⟨store.uri key, sizeBytes, s.digest.hexdigest⟩, s.totalRecords, s.counts)).handle
      fun exc => .raise (evidenceError exc)

def storeBundle (staging : Staging) (artifact : BronzeArtifact) (evidence : EvidenceIterable)
    (contractMessages : List ValidationMessage) : Program S Exc BronzeBundleReceipt :=
  if staging.file.isFile then do
    let keys ← .ofExcept (buildBronzeObjectKeys artifact store.bronzePrefix)
    let target ← .ofExcept (store.targetFor artifact)
    let artifactObject ← store.storeArtifact staging artifact keys target
    let (evidenceObject, totalRecords, outcomeCounts) ←
      store.writeEvidence staging artifact evidence keys.evidenceManifest
    let completion : BronzeCompletionManifest :=
      { source := artifact.source
        ingestionRunId := artifact.ingestionRunId
        retrievedAt := artifact.retrievedAt
        sourceUrl := artifact.sourceUrl
        contractVersion := artifact.contractVersion
        artifact := artifactObject
        evidenceManifest := evidenceObject
        totalRecords := totalRecords
        outcomeCounts := outcomeCounts
        contractMessages := contractMessages }
    let completionBytes := canonicalJson completion.modelDump
    store.putIfAbsent keys.completionManifest (.ofBytes completionBytes) completionBytes.length
      (sha256 completionBytes).text "application/json"
    return { source := artifact.source
             ingestionRunId := artifact.ingestionRunId
             artifact := artifactObject
             evidenceManifest := evidenceObject
             completionManifestUri := target.completionManifestUri }
  else .raise (.artifactNotFoundError artifact.localPath)

theorem targetFor_eq {artifact : BronzeArtifact} {keys : BronzeObjectKeys}
    (hkeys : buildBronzeObjectKeys artifact store.bronzePrefix = .ok keys) :
    store.targetFor artifact = .ok ⟨store.uri keys.artifact, store.uri keys.evidenceManifest,
      store.uri keys.completionManifest⟩ := by
  rw [targetFor, hkeys]; rfl

theorem targetFor_ok {artifact : BronzeArtifact} {target : BronzeBundleTarget}
    (h : store.targetFor artifact = .ok target) :
    ∃ keys, buildBronzeObjectKeys artifact store.bronzePrefix = .ok keys ∧
      target = ⟨store.uri keys.artifact, store.uri keys.evidenceManifest,
        store.uri keys.completionManifest⟩ := by
  cases hkeys : buildBronzeObjectKeys artifact store.bronzePrefix with
  | error exc => rw [targetFor, hkeys] at h; cases h
  | ok keys =>
    rw [store.targetFor_eq hkeys] at h
    exact ⟨keys, rfl, (Except.ok.inj h).symm⟩

section Rules

variable {ι σ : Type} {sys : System ι S σ} {i : ι} {J : σ → Prop} {s : σ} {store}
  {staging : Staging} {artifact : BronzeArtifact} {keys : BronzeObjectKeys} {R : Exc → σ → Prop}

/-- The rule of the first block. `R` is what is known where something is raised in it, and `Q` what
    is known where it ends; between the two stands the handler. -/
theorem safe_storeArtifact_of {target : BronzeBundleTarget} {Q : Except Exc StoredObject → σ → Prop}
    (hhandler : ∀ exc s', R exc s' → (exc.isOSError = true → Q (.error (.artifactStagingError
      ("could not stage acquisition artifact " ++ artifact.localPath))) s') ∧
      (exc.isOSError = false → Q (.error exc) s'))
    (hspool : ∀ exc, staging.artifactSpool.create = some exc → R exc s)
    (hsnapshot : ∀ exc, snapshotArtifact store.ceiling artifact target.artifactUri staging =
      .error exc → R exc s)
    (hblock : ∀ snapshot, snapshotArtifact store.ceiling artifact target.artifactUri staging =
        .ok snapshot →
      sys.Safe i J (store.assertBundleAbsent keys) (fun r s₁ => (∀ exc, r = .error exc → R exc s₁) ∧
        (r = .ok () → (∀ exc, staging.artifactSpool.rewind = some exc → R exc s₁) ∧
          sys.Safe i J (store.putIfAbsent keys.artifact (snapshot.spool.seek 0)
            snapshot.sizeBytes snapshot.digest.hexdigest.text artifact.mediaType)
          (fun r s₂ => (∀ exc, r = .error exc → R exc s₂) ∧ (r = .ok () →
            Q (.ok ⟨target.artifactUri, snapshot.sizeBytes, snapshot.digest.hexdigest⟩) s₂)) s₁)) s) :
    sys.Safe i J (store.storeArtifact staging artifact keys target) Q s := by
  have handler : ∀ {exc s'}, R exc s' → sys.Safe i J (if exc.isOSError then
      .raise (.artifactStagingError ("could not stage acquisition artifact " ++ artifact.localPath))
      else .raise exc : Program S Exc StoredObject) Q s' := by
    intro exc s' h
    split
    · rename_i hos
      exact (hhandler exc s' h).1 hos
    · rename_i hos
      exact (hhandler exc s' h).2 (Bool.eq_false_of_not_eq_true hos)
  refine .handle ?_
  unfold withSpool
  split
  · rename_i exc hcreate
    exact handler (hspool exc hcreate)
  refine .bind (System.safe_ofExcept.mpr ?_)
  cases hsnap : snapshotArtifact store.ceiling artifact target.artifactUri staging with
  | error exc => exact handler (hsnapshot exc hsnap)
  | ok snapshot =>
    refine .bind ((hblock snapshot hsnap).mono ?_)
    rintro (exc | ⟨⟨⟩⟩) s₁ ⟨herr₁, hok₁⟩
    · exact handler (herr₁ exc rfl)
    obtain ⟨hrewind, hput⟩ := hok₁ rfl
    refine .bind (System.safe_ofExcept.mpr ?_)
    unfold SpoolFaults.seekStart
    cases hrewound : staging.artifactSpool.rewind with
    | some exc => exact handler (hrewind exc hrewound)
    | none =>
      refine .bind (hput.mono ?_)
      rintro (exc | ⟨⟨⟩⟩) s₂ ⟨herr₂, hok₂⟩
      · exact handler (herr₂ exc rfl)
      · exact hok₂ rfl

/-- The rule of `_write_evidence`. -/
theorem safe_writeEvidence_of {evidence : EvidenceIterable} {key : String}
    {Q : Except Exc (StoredObject × Nat × OutcomeCounts) → σ → Prop}
    (hhandler : ∀ exc s', R exc s' → Q (.error (evidenceError exc)) s')
    (hspool : ∀ exc, staging.evidenceSpool.create = some exc → R exc s)
    (hspooled : ∀ exc, spoolEvidence store.ceiling artifact (store.uri key) staging.evidenceSpool
      evidence = .error exc → R exc s)
    (hblock : ∀ written, spoolEvidence store.ceiling artifact (store.uri key) staging.evidenceSpool
        evidence = .ok written → (∀ exc, staging.evidenceSpool.rewind = some exc → R exc s) ∧
      sys.Safe i J (store.putIfAbsent key (written.spool.seek 0) written.spool.tell
          written.digest.hexdigest.text "application/x-ndjson")
        (fun r s' => (∀ exc, r = .error exc → R exc s') ∧ (r = .ok () →
          Q (.ok (⟨store.uri key, written.spool.tell, written.digest.hexdigest⟩,
            written.totalRecords, written.counts)) s')) s) :
    sys.Safe i J (store.writeEvidence staging artifact evidence key) Q s := by
  refine .handle ?_
  unfold withSpool
  split
  · rename_i exc hcreate
    exact hhandler exc s (hspool exc hcreate)
  refine .bind (System.safe_ofExcept.mpr ?_)
  cases hwritten : spoolEvidence store.ceiling artifact (store.uri key) staging.evidenceSpool
    evidence with
  | error exc => exact hhandler exc s (hspooled exc hwritten)
  | ok written =>
    refine .bind (System.safe_ofExcept.mpr ?_)
    unfold SpoolFaults.seekStart
    cases hrewound : staging.evidenceSpool.rewind with
    | some exc => exact hhandler exc s ((hblock written hwritten).1 exc hrewound)
    | none =>
      refine .bind ((hblock written hwritten).2.mono ?_)
      rintro (exc | ⟨⟨⟩⟩) s' ⟨herr, hok⟩
      · exact hhandler exc s' (herr exc rfl)
      · exact hok rfl

end Rules

end MinioBronzeArtifactStore

end EvidenceCartographer.Infrastructure

import EvidenceCartographer.Infrastructure.BundleRuns

/-! What a committed bundle says, over any conditional-object client.

    The store knows its client by a protocol of two methods. `Keeps` is what it relies on: a create
    that returned left the bytes it sent at its key, they stay there, and no method touches another
    key. From that alone a returned `store_bundle` call has left three objects that describe one
    another, and a call with incoherent evidence touches neither the evidence key nor the marker key. -/

namespace EvidenceCartographer.Infrastructure

open Python Domain Application Concurrency MinioConditionalObjectClient

variable {ι σ : Type} {S : Signature}

/-- The client in a system: `holds` says which bytes a key holds, `untouched` that party `i` has not
    written to it. -/
structure ConditionalObjectClient.Keeps (client : ConditionalObjectClient S) (sys : System ι S σ)
    (i : ι) (holds : ObjectKey → Bytes → σ → Prop) (untouched : ObjectKey → σ → Prop) : Prop where
  holds_rely : ∀ key bytes s s', sys.rely i s s' → holds key bytes s → holds key bytes s'
  untouched_rely : ∀ key s s', sys.rely i s s' → untouched key s → untouched key s'
  /-- A create of a whole stream, with its digest. -/
  put_holds : ∀ bucketName key (data : Stream) contentType s, sys.Safe i (fun _ => True)
    (client.putObjectIfAbsent bucketName key data data.rest.length (sha256 data.rest).text
      contentType)
    (fun r s' => (r = .ok () → holds (bucketName, key) data.rest s') ∧
      ∀ other bytes, holds other bytes s → holds other bytes s') s
  put_untouched : ∀ bucketName key data length sha256 contentType other s,
    other ≠ (bucketName, key) → untouched other s → sys.Safe i (untouched other)
      (client.putObjectIfAbsent bucketName key data length sha256 contentType)
      (fun _ s' => untouched other s') s
  stat_untouched : ∀ bucketName key other s, untouched other s → sys.Safe i (untouched other)
    (client.statObject bucketName key) (fun _ s' => untouched other s') s

/-- The entry of a manifest for these bytes. -/
def storedObject (uri : String) (bytes : Bytes) : StoredObject := ⟨uri, bytes.length, sha256 bytes⟩

/-- The evidence manifest for these items. -/
def evidenceBytes (items : List BronzeRecordEvidence) : Bytes := items.flatMap evidenceLine

namespace MinioBronzeArtifactStore

variable (store : MinioBronzeArtifactStore S) (staging : Staging) (artifact : BronzeArtifact)
  (evidence : EvidenceIterable) (contractMessages : List ValidationMessage)
  (keys : BronzeObjectKeys)

def artifactObject : StoredObject :=
  storedObject (store.uri keys.artifact) (chunksRead staging.file.reads)

def evidenceObject : StoredObject :=
  storedObject (store.uri keys.evidenceManifest) (evidenceBytes evidence.items)

def completion : BronzeCompletionManifest where
  source := artifact.source
  ingestionRunId := artifact.ingestionRunId
  retrievedAt := artifact.retrievedAt
  sourceUrl := artifact.sourceUrl
  contractVersion := artifact.contractVersion
  artifact := store.artifactObject staging keys
  evidenceManifest := store.evidenceObject evidence keys
  totalRecords := evidence.items.length
  outcomeCounts := outcomeCount evidence.items
  contractMessages := contractMessages

def receipt : BronzeBundleReceipt where
  source := artifact.source
  ingestionRunId := artifact.ingestionRunId
  artifact := store.artifactObject staging keys
  evidenceManifest := store.evidenceObject evidence keys
  completionManifestUri := store.uri keys.completionManifest

/-- `store_bundle` up to its evidence, once the keys are built. -/
def storedArtifact : Program S Exc StoredObject :=
  if staging.file.isFile then
    store.storeArtifact staging artifact keys ⟨store.uri keys.artifact,
      store.uri keys.evidenceManifest, store.uri keys.completionManifest⟩
  else .raise (.artifactNotFoundError artifact.localPath)

/-- A stored artifact: the whole file was read, had the digest asked for, and is at its key. -/
structure ArtifactStored (holds : ObjectKey → Bytes → σ → Prop) (s : σ) : Prop where
  isFile : staging.file.isFile = true
  read_to_end : ReadToEnd staging.file.reads
  checksum : ∀ expected, artifact.expectedSha256 = some expected →
    sha256 (chunksRead staging.file.reads) = expected
  artifact_holds : holds (store.bucketName, keys.artifact) (chunksRead staging.file.reads) s

/-- A returned call: what it was given, and what its three keys hold. -/
structure Committed (holds : ObjectKey → Bytes → σ → Prop) (s : σ) : Prop
    extends store.ArtifactStored staging artifact keys holds s where
  spooled : ∃ written, spoolEvidence store.ceiling artifact (store.uri keys.evidenceManifest)
    staging.evidenceSpool evidence = .ok written
  evidence_holds : holds (store.bucketName, keys.evidenceManifest) (evidenceBytes evidence.items) s
  marker_holds : holds (store.bucketName, keys.completionManifest)
    (canonicalJson (store.completion staging artifact evidence contractMessages keys).modelDump) s

variable {store staging artifact evidence contractMessages keys}

theorem Committed.coherent {holds : ObjectKey → Bytes → σ → Prop} {s : σ}
    (h : store.Committed staging artifact evidence contractMessages keys holds s) :
    ∀ item ∈ evidence.items, Coherent artifact item := by
  obtain ⟨written, hwritten⟩ := h.spooled
  exact (spoolEvidence_ok hwritten).2.coherent

theorem Committed.ending {holds : ObjectKey → Bytes → σ → Prop} {s : σ}
    (h : store.Committed staging artifact evidence contractMessages keys holds s) :
    evidence.ending = none := by
  obtain ⟨written, hwritten⟩ := h.spooled
  exact (spoolEvidence_ok hwritten).1

/-! ### Evidence that is not spooled -/

/-- The handler of `_write_evidence` lets nothing but storage errors through. -/
theorem evidenceError_isStorageError (exc : Exc) : (evidenceError exc).isStorageError = true := by
  cases exc <;> rfl

theorem putError_isStorageError (uri : String) (exc : Exc) :
    (putError uri exc).isStorageError = true := by
  cases exc <;> rfl

theorem writeEvidence_of_fault {exc : Exc} (hspool : staging.evidenceSpool.create = some exc) :
    store.writeEvidence staging artifact evidence keys.evidenceManifest =
      .raise (evidenceError exc) := by
  rw [writeEvidence, withSpool, hspool]; rfl

theorem writeEvidence_of_unspooled {exc : Exc} (hspool : staging.evidenceSpool.create = none)
    (hspooled : spoolEvidence store.ceiling artifact (store.uri keys.evidenceManifest)
      staging.evidenceSpool evidence = .error exc) :
    store.writeEvidence staging artifact evidence keys.evidenceManifest =
      .raise (evidenceError exc) := by
  rw [writeEvidence, withSpool, hspool]
  dsimp only
  rw [hspooled]; rfl

/-- What `_write_evidence` raises without a request is what the call raises, once its artifact is
    stored. -/
theorem storeBundle_of_raise {exc : Exc}
    (hkeys : buildBronzeObjectKeys artifact store.bronzePrefix = .ok keys)
    (hwrite : store.writeEvidence staging artifact evidence keys.evidenceManifest = .raise exc) :
    store.storeBundle staging artifact evidence contractMessages =
      (store.storedArtifact staging artifact keys).bind fun _ => .raise exc := by
  unfold storeBundle storedArtifact
  split
  · rw [hkeys, store.targetFor_eq hkeys]
    simp only [Program.ofExcept, Program.bind_eq, Program.bind, hwrite]
  · rfl

/-- So it is for any evidence that is not spooled. -/
theorem storeBundle_of_unspooled
    (hkeys : buildBronzeObjectKeys artifact store.bronzePrefix = .ok keys)
    (hbad : ∀ written, spoolEvidence store.ceiling artifact (store.uri keys.evidenceManifest)
      staging.evidenceSpool evidence ≠ .ok written) :
    ∃ exc, store.storeBundle staging artifact evidence contractMessages =
      (store.storedArtifact staging artifact keys).bind fun _ => .raise (evidenceError exc) := by
  cases hspool : staging.evidenceSpool.create with
  | some exc => exact ⟨exc, storeBundle_of_raise hkeys (writeEvidence_of_fault hspool)⟩
  | none =>
    cases hspooled : spoolEvidence store.ceiling artifact (store.uri keys.evidenceManifest)
      staging.evidenceSpool evidence with
    | ok written => exact absurd hspooled (hbad written)
    | error exc =>
      exact ⟨exc, storeBundle_of_raise hkeys (writeEvidence_of_unspooled hspool hspooled)⟩

end MinioBronzeArtifactStore

section Keeps

variable {store : MinioBronzeArtifactStore S}
  {sys : System ι S σ} {i : ι} {holds : ObjectKey → Bytes → σ → Prop}
  {untouched : ObjectKey → σ → Prop} {staging : Staging} {artifact : BronzeArtifact}
  {evidence : EvidenceIterable} {contractMessages : List ValidationMessage}
  {keys : BronzeObjectKeys} {s : σ}

variable (hkeeps : store.client.Keeps sys i holds untouched)

include hkeeps

/-- `_put_if_absent` of a whole stream. -/
theorem safe_putIfAbsent_holds (key : String) (data : Stream) (contentType : String) :
    sys.Safe i (fun _ => True)
      (store.putIfAbsent key data data.rest.length (sha256 data.rest).text contentType)
      (fun r s' => (r = .ok () → holds (store.bucketName, key) data.rest s') ∧
        ∀ other bytes, holds other bytes s → holds other bytes s') s := by
  unfold MinioBronzeArtifactStore.putIfAbsent
  split
  · exact ⟨by simp, fun _ _ => id⟩
  · refine .handle ((hkeeps.put_holds store.bucketName key data contentType s).mono ?_)
    rintro (exc | ⟨⟨⟩⟩) s' h
    · exact ⟨by simp, h.2⟩
    · exact h

/-- The first block: what it returns describes the bytes read, and the artifact key holds them. -/
theorem safe_storeArtifact_holds (hfile : staging.file.isFile = true) :
    sys.Safe i (fun _ => True)
    (store.storeArtifact staging artifact keys ⟨store.uri keys.artifact,
      store.uri keys.evidenceManifest, store.uri keys.completionManifest⟩)
    (fun r s' => ∀ object, r = .ok object → object = store.artifactObject staging keys ∧
      store.ArtifactStored staging artifact keys holds s') s := by
  refine MinioBronzeArtifactStore.safe_storeArtifact_of (R := fun _ _ => True)
    (fun _ _ _ => by simp) (fun _ _ => trivial) (fun _ _ => trivial) fun snapshot hsnap => ?_
  obtain ⟨hof, hend, hchecksum⟩ := snapshotArtifact_ok hsnap
  refine System.safe_true.mono fun _ s₁ _ => ⟨fun _ _ => trivial, fun _ => ?_⟩
  have hrest : (snapshot.spool.seek 0).rest = chunksRead staging.file.reads := by
    rw [Stream.rest, Stream.seek, List.drop_zero, hof.content]
  have hdigest : snapshot.digest.hexdigest = sha256 (chunksRead staging.file.reads) := by
    rw [Digest.hexdigest, hof.digest]
  have hput := safe_putIfAbsent_holds hkeeps (s := s₁) keys.artifact (snapshot.spool.seek 0)
    artifact.mediaType
  rw [hrest, ← hof.size, ← hdigest] at hput
  refine ⟨fun _ _ => trivial, hput.mono ?_⟩
  rintro r s₂ ⟨hholds, -⟩
  refine ⟨fun _ _ => trivial, fun hok => ?_⟩
  rintro _ ⟨⟩
  refine ⟨?_, hfile, hend, hchecksum, hholds hok⟩
  rw [MinioBronzeArtifactStore.artifactObject, storedObject, ← hof.size, ← hdigest]

/-- `_write_evidence`: what it returns describes the items, all spooled, and the evidence key holds
    their lines. -/
theorem safe_writeEvidence_holds : sys.Safe i (fun _ => True)
    (store.writeEvidence staging artifact evidence keys.evidenceManifest)
    (fun r s' => (∀ other bytes, holds other bytes s → holds other bytes s') ∧
      ∀ x, r = .ok x → x = (store.evidenceObject evidence keys, evidence.items.length,
        outcomeCount evidence.items) ∧
      (∃ written, spoolEvidence store.ceiling artifact (store.uri keys.evidenceManifest)
        staging.evidenceSpool evidence = .ok written) ∧
      holds (store.bucketName, keys.evidenceManifest) (evidenceBytes evidence.items) s') s := by
  refine MinioBronzeArtifactStore.safe_writeEvidence_of
    (R := fun _ s' => ∀ other bytes, holds other bytes s → holds other bytes s')
    (fun _ _ hkept => ⟨hkept, by simp⟩) (fun _ _ _ _ => id) (fun _ _ _ _ => id)
    fun written hspool => ?_
  obtain ⟨-, hof⟩ := spoolEvidence_ok hspool
  have hrest : (written.spool.seek 0).rest = evidenceBytes evidence.items := by
    rw [Stream.rest, Stream.seek, List.drop_zero, hof.content, evidenceBytes]
  have hdigest : written.digest.hexdigest = sha256 (evidenceBytes evidence.items) := by
    rw [Digest.hexdigest, hof.digest, evidenceBytes]
  have hsize : written.spool.tell = (evidenceBytes evidence.items).length := by
    rw [Stream.tell, hof.position, hof.content, evidenceBytes]
  have hput := safe_putIfAbsent_holds hkeeps (s := s) keys.evidenceManifest (written.spool.seek 0)
    "application/x-ndjson"
  rw [hrest, ← hsize, ← hdigest] at hput
  refine ⟨fun _ _ _ _ => id, hput.mono ?_⟩
  rintro r s₁ ⟨hholds, hkept⟩
  refine ⟨fun _ _ => hkept, fun hok => ⟨hkept, ?_⟩⟩
  rintro _ ⟨⟩
  refine ⟨?_, ⟨written, hspool⟩, hholds hok⟩
  rw [MinioBronzeArtifactStore.evidenceObject, storedObject, ← hsize, ← hdigest, hof.total,
    hof.counts]

/-- One whole call. -/
theorem safe_storeBundle_committed
    (hkeys : buildBronzeObjectKeys artifact store.bronzePrefix = .ok keys) :
    sys.Safe i (fun _ => True) (store.storeBundle staging artifact evidence contractMessages)
      (fun r s' => ∀ receipt, r = .ok receipt →
        receipt = store.receipt staging artifact evidence keys ∧
        store.Committed staging artifact evidence contractMessages keys holds s') s := by
  unfold MinioBronzeArtifactStore.storeBundle
  split
  swap
  · simp
  rename_i hfile
  rw [hkeys, store.targetFor_eq hkeys]
  refine .bind (System.safe_ofExcept.mpr (.bind (System.safe_ofExcept.mpr (.bind ?_))))
  refine (safe_storeArtifact_holds hkeeps hfile).mono ?_
  rintro (exc | object) s₁ hok₁
  · simp
  obtain ⟨rfl, hstored⟩ := hok₁ object rfl
  refine .bind ((safe_writeEvidence_holds hkeeps).mono ?_)
  rintro (exc | x) s₂ ⟨hkept₂, hok₂⟩
  · simp
  obtain ⟨rfl, hspooled, hevidence⟩ := hok₂ x rfl
  refine .bind ((safe_putIfAbsent_holds hkeeps keys.completionManifest
    (.ofBytes (canonicalJson (store.completion staging artifact evidence contractMessages
      keys).modelDump)) "application/json").mono ?_)
  rintro (exc | ⟨⟨⟩⟩) s₃ ⟨hmarker, hkept₃⟩
  · simp
  rintro _ ⟨⟩
  exact ⟨rfl, { hstored with
    artifact_holds := hkept₃ _ _ (hkept₂ _ _ hstored.artifact_holds)
    spooled := hspooled
    evidence_holds := hkept₃ _ _ hevidence
    marker_holds := hmarker rfl }⟩

/-- `_assert_bundle_absent` writes nothing, by induction on the keys. -/
theorem safe_assertAbsent_untouched (inspected : List String) {key : ObjectKey}
    (hkey : untouched key s) : sys.Safe i (untouched key) (store.assertAbsent inspected)
      (fun _ s' => untouched key s') s := by
  induction inspected generalizing s with
  | nil => exact hkey
  | cons name inspected ih =>
    have hexists : sys.Safe i (untouched key) (store.existsKey name)
        (fun _ s' => untouched key s') s := by
      refine .bind (.attempt ((hkeeps.stat_untouched store.bucketName name key s hkey).mono ?_))
      rintro (exc | metadata) s' hkey'
      · dsimp only
        split <;> exact hkey'
      · exact hkey'
    refine .bind (hexists.mono ?_)
    rintro (exc | found) s' hkey'
    · exact hkey'
    · dsimp only
      split
      · exact hkey'
      · exact ih hkey'

/-- The first block writes to the artifact key only. -/
theorem safe_storeArtifact_untouched (target : BronzeBundleTarget) {key : String}
    (hne : key ≠ keys.artifact) (hkey : untouched (store.bucketName, key) s) :
    sys.Safe i (untouched (store.bucketName, key))
      (store.storeArtifact staging artifact keys target)
      (fun _ s' => untouched (store.bucketName, key) s') s := by
  refine MinioBronzeArtifactStore.safe_storeArtifact_of
    (R := fun _ s' => untouched (store.bucketName, key) s') (fun _ _ h => ⟨fun _ => h, fun _ => h⟩)
    (fun _ _ => hkey) (fun _ _ => hkey) fun snapshot _ => ?_
  refine System.Safe.mono (safe_assertAbsent_untouched hkeeps _ hkey) fun _ s₁ hkey₁ =>
    ⟨fun _ _ => hkey₁, fun _ => ⟨fun _ _ => hkey₁, ?_⟩⟩
  have hother : (store.bucketName, key) ≠ (store.bucketName, keys.artifact) :=
    fun h => hne (congrArg Prod.snd h)
  unfold MinioBronzeArtifactStore.putIfAbsent
  split
  · exact ⟨fun _ _ => hkey₁, fun _ => hkey₁⟩
  refine .handle ((hkeeps.put_untouched store.bucketName keys.artifact _ _ _ _ _ s₁ hother
    hkey₁).mono ?_)
  rintro (exc | ⟨⟨⟩⟩) s₂ hkey₂
  · exact ⟨fun _ _ => hkey₂, fun _ => hkey₂⟩
  · exact ⟨fun _ _ => hkey₂, fun _ => hkey₂⟩

/-- What is raised up to the evidence is a storage error, or nothing has been written. -/
theorem safe_storedArtifact_raised {key : ObjectKey} (hkey : untouched key s) :
    sys.Safe i (fun _ => True) (store.storedArtifact staging artifact keys)
      (fun r s' => ∀ e, r = .error e → e.isStorageError = true ∨ untouched key s') s := by
  unfold MinioBronzeArtifactStore.storedArtifact
  split
  swap
  · rintro e ⟨⟩
    exact .inl rfl
  refine MinioBronzeArtifactStore.safe_storeArtifact_of
    (R := fun e s' => e.isStorageError = true ∨ untouched key s') ?_ (fun _ _ => .inr hkey)
    (fun _ _ => .inr hkey) fun snapshot _ => ?_
  · intro exc s' h
    refine ⟨fun _ => ?_, fun _ => ?_⟩
    · rintro e ⟨⟩
      exact .inl rfl
    · rintro e ⟨⟩
      exact h
  refine ((safe_assertAbsent_untouched hkeeps _ hkey).weaken fun _ _ => trivial).mono fun _ s₁ hkey₁ =>
    ⟨fun _ _ => .inr hkey₁, fun _ => ⟨fun _ _ => .inr hkey₁, ?_⟩⟩
  unfold MinioBronzeArtifactStore.putIfAbsent
  split
  · refine ⟨?_, nofun⟩
    rintro _ ⟨⟩
    exact .inl rfl
  refine .handle (System.safe_true.mono ?_)
  rintro (exc | ⟨⟨⟩⟩) s₂ -
  · refine ⟨?_, nofun⟩
    rintro _ ⟨⟩
    exact .inl (MinioBronzeArtifactStore.putError_isStorageError _ exc)
  · exact ⟨nofun, fun _ _ => nofun⟩

/-- A call whose evidence is not spooled raises a storage error, or has written nothing. -/
theorem safe_storeBundle_unspooled_raises
    (hkeys : buildBronzeObjectKeys artifact store.bronzePrefix = .ok keys)
    (hbad : ∀ written, spoolEvidence store.ceiling artifact (store.uri keys.evidenceManifest)
      staging.evidenceSpool evidence ≠ .ok written) {key : ObjectKey} (hkey : untouched key s) :
    sys.Safe i (fun _ => True) (store.storeBundle staging artifact evidence contractMessages)
      (fun r s' => ∃ e, r = .error e ∧ (e.isStorageError = true ∨ untouched key s')) s := by
  obtain ⟨exc, heq⟩ := MinioBronzeArtifactStore.storeBundle_of_unspooled hkeys hbad
  rw [heq]
  refine .bind ((safe_storedArtifact_raised hkeeps hkey).mono ?_)
  rintro (e | object) s' hraised
  · exact ⟨e, rfl, hraised e rfl⟩
  · exact ⟨_, rfl, .inl (MinioBronzeArtifactStore.evidenceError_isStorageError exc)⟩

/-- A call whose evidence is not spooled raises, and writes to the artifact key only. -/
theorem safe_storeBundle_unspooled
    (hkeys : buildBronzeObjectKeys artifact store.bronzePrefix = .ok keys)
    (hbad : ∀ written, spoolEvidence store.ceiling artifact (store.uri keys.evidenceManifest)
      staging.evidenceSpool evidence ≠ .ok written) {key : String}
    (hne : key ≠ keys.artifact) (hkey : untouched (store.bucketName, key) s) :
    sys.Safe i (untouched (store.bucketName, key))
      (store.storeBundle staging artifact evidence contractMessages)
      (fun r s' => ∃ e, r = .error e ∧ untouched (store.bucketName, key) s') s := by
  obtain ⟨exc, heq⟩ := MinioBronzeArtifactStore.storeBundle_of_unspooled hkeys hbad
  rw [heq]
  have hstored : sys.Safe i (untouched (store.bucketName, key))
      (store.storedArtifact staging artifact keys)
      (fun _ s' => untouched (store.bucketName, key) s') s := by
    unfold MinioBronzeArtifactStore.storedArtifact
    split
    · exact safe_storeArtifact_untouched hkeeps _ hne hkey
    · exact hkey
  refine .bind (hstored.mono ?_)
  rintro (e | object) s' hkey'
  · exact ⟨e, rfl, hkey'⟩
  · exact ⟨_, rfl, hkey'⟩

theorem MinioBronzeArtifactStore.Committed.rely {s' : σ} (hr : sys.rely i s s')
    (h : store.Committed staging artifact evidence contractMessages keys holds s) :
    store.Committed staging artifact evidence contractMessages keys holds s' where
  toArtifactStored := { h.toArtifactStored with
    artifact_holds := hkeeps.holds_rely _ _ _ _ hr h.artifact_holds }
  spooled := h.spooled
  evidence_holds := hkeeps.holds_rely _ _ _ _ hr h.evidence_holds
  marker_holds := hkeeps.holds_rely _ _ _ _ hr h.marker_holds

end Keeps

/-- A create for these bytes at this key that call `i` has secured. -/
def SecuredBytes (i : ι) (key : ObjectKey) (bytes : Bytes) (w : World ι) : Prop :=
  ∃ create : CreateCall, create.key = key ∧ create.data.rest = bytes ∧ create.Honest ∧
    w.Secured i create

theorem SecuredBytes.since {i : ι} {key : ObjectKey} {bytes : Bytes} {w w' : World ι}
    (hs : Since i w w') (h : SecuredBytes i key bytes w) : SecuredBytes i key bytes w' := by
  obtain ⟨create, hkey, hrest, hhonest, hsec⟩ := h
  exact ⟨create, hkey, hrest, hhonest, hsec.since hs⟩

theorem keptQuietly_untouched (i : ι) (key : ObjectKey) :
    KeptQuietly i fun w : World ι => w.AllSent i fun r => r.key ≠ key :=
  keptQuietly_allSent (P := fun _ r => r.key ≠ key) fun _ _ _ _ h => h

/-- The owned client keeps the contract, against any server. -/
theorem minio_keeps [DecidableEq ι] (srv : Server) (i : ι) :
    (minioConditionalObjectClient maxSinglePutSizeBytes).Keeps (storeSystem srv) i (SecuredBytes i)
      (fun key w => w.AllSent i fun r => r.key ≠ key) where
  holds_rely key bytes w w' hr h := h.since (Rely.quiet hr).since
  untouched_rely key w w' hr h := (keptQuietly_untouched i key).quiet (Rely.quiet hr) h
  put_holds bucketName key data contentType w := by
    let create : CreateCall :=
      ⟨bucketName, key, data, data.rest.length, (sha256 data.rest).text, contentType⟩
    by_cases hlt : maxSinglePutSizeBytes < data.rest.length
    · simp only [minioConditionalObjectClient, putObjectIfAbsent, if_pos hlt]
      exact ⟨by simp, fun _ _ => id⟩
    refine (safe_putObjectIfAbsent maxSinglePutSizeBytes bucketName key data data.rest.length
      (sha256 data.rest).text contentType (fun _ _ _ _ _ => trivial) (fun _ _ _ _ _ _ => trivial)
      trivial).mono ?_
    rintro r w' ⟨-, hend⟩
    refine ⟨?_, fun other bytes h => h.since hend.since⟩
    rintro rfl
    have hsecured : w'.Secured i create := Ended.secured (Nat.le_of_not_lt hlt) hend
    exact ⟨create, rfl, rfl, ⟨rfl, rfl⟩, hsecured⟩
  put_untouched bucketName key data length sha256 contentType other w hne h :=
    (safe_putObjectIfAbsent maxSinglePutSizeBytes bucketName key data length sha256 contentType
      (keptQuietly_untouched i other)
      (keptSending_allSent (P := fun _ r => r.key ≠ other) (fun _ _ _ _ h => h) (Ne.symm hne)) h).mono
        fun _ _ hend => hend.1
  stat_untouched bucketName key other w h :=
    (safe_statObject (keptQuietly_untouched i other) bucketName key h).mono fun _ _ hend => hend.1

section Outcome

variable {store : MinioBronzeArtifactStore S} {staging : Staging} {artifact : BronzeArtifact}
  {evidence : EvidenceIterable} {contractMessages : List ValidationMessage}
  {keys : BronzeObjectKeys}

variable [DecidableEq ι] {sys : System ι S σ} {i : ι} {holds : ObjectKey → Bytes → σ → Prop}
  {untouched : ObjectKey → σ → Prop} {s₀ : σ} {procs : ι → Program S Exc BronzeBundleReceipt}
  {c : Config ι S σ Exc BronzeBundleReceipt}

/-- A returned call has left the lines of all its evidence, each coherent, and a manifest that
    describes them; a call with incoherent evidence raises and writes neither. -/
theorem storeBundle_truthful (hkeeps : store.client.Keeps sys i holds untouched)
    (hr : sys.Reachable ⟨s₀, procs⟩ c)
    (hrun : procs i = store.storeBundle staging artifact evidence contractMessages)
    (hkeys : buildBronzeObjectKeys artifact store.bronzePrefix = .ok keys) :
    (∀ receipt, c.procs i = .ret receipt → ∃ m : BronzeCompletionManifest,
      holds (store.bucketName, keys.completionManifest) (canonicalJson m.modelDump) c.shared ∧
      holds (store.bucketName, keys.evidenceManifest) (evidence.items.flatMap evidenceLine)
        c.shared ∧
      m.evidenceManifest = ⟨store.uri keys.evidenceManifest,
        (evidence.items.flatMap evidenceLine).length, sha256 (evidence.items.flatMap evidenceLine)⟩ ∧
      receipt.evidenceManifest = m.evidenceManifest ∧
      m.totalRecords = evidence.items.length ∧ m.outcomeCounts = outcomeCount evidence.items ∧
      (ContractOutcome.members.map m.outcomeCounts).sum = evidence.items.length ∧
      ∀ item ∈ evidence.items, Coherent artifact item) ∧
    ((∃ item ∈ evidence.items, ¬ Coherent artifact item) →
      (∀ receipt, c.procs i ≠ .ret receipt) ∧
      ∀ key ∈ [keys.evidenceManifest, keys.completionManifest],
        untouched (store.bucketName, key) s₀ → untouched (store.bucketName, key) c.shared) ∧
    (∀ before item after s, evidence.items = before ++ item :: after →
      staging.evidenceSpool.create = none →
      before.foldlM (spoolItem store.ceiling artifact (store.uri keys.evidenceManifest)
        staging.evidenceSpool) .empty = .ok s →
      ¬ Coherent artifact item → ∃ message,
        store.storeBundle staging artifact evidence contractMessages =
          (store.storedArtifact staging artifact keys).bind fun _ =>
            .raise (.manifestSerializationError message)) := by
  refine ⟨fun receipt hret => ?_, fun hbad => ⟨fun receipt hret => ?_, fun key hkey hfresh => ?_⟩,
    fun before item after s hitems hspool hbefore hbad => ?_⟩
  · have hguarded := hr.started hrun (fun _ _ _ h => h) trivial
      (safe_storeBundle_committed hkeeps hkeys)
    have ho : (c.procs i).outcome = some (.ok receipt) := by rw [hret]; rfl
    obtain ⟨rfl, hcommitted⟩ := hguarded.post (fun s s' hrely h r hr' => by
      obtain ⟨hreceipt, hcommitted⟩ := h r hr'
      exact ⟨hreceipt, hcommitted.rely hkeeps hrely⟩) ho receipt rfl
    refine ⟨_, hcommitted.marker_holds, hcommitted.evidence_holds, rfl, rfl, rfl, rfl, ?_,
      hcommitted.coherent⟩
    exact outcomeCount_sum fun item hitem => (hcommitted.coherent item hitem).outcome
  · -- no key is needed to see that it raises
    have hguarded := hr.started hrun (fun _ _ _ h => h) trivial
      (safe_storeBundle_committed hkeeps hkeys)
    have ho : (c.procs i).outcome = some (.ok receipt) := by rw [hret]; rfl
    obtain ⟨s, hs, -⟩ := hguarded.done _ ho
    obtain ⟨item, hitem, hincoherent⟩ := hbad
    exact hincoherent ((hs receipt rfl).2.coherent item hitem)
  · have hunspooled : ∀ written, spoolEvidence store.ceiling artifact
        (store.uri keys.evidenceManifest) staging.evidenceSpool evidence ≠ .ok written := by
      intro written hwritten
      obtain ⟨item, hitem, hincoherent⟩ := hbad
      exact hincoherent ((spoolEvidence_ok hwritten).2.coherent item hitem)
    have hne : key ≠ keys.artifact := by
      obtain ⟨retrieved, -, rfl⟩ := buildBronzeObjectKeys_ok hkeys
      have hd := bundleKeys_distinct (bundlePrefix (stripSlashes store.bronzePrefix) artifact
        retrieved) artifact.extension
      simp only [List.mem_cons, List.not_mem_nil, or_false] at hkey
      rcases hkey with rfl | rfl
      · exact hd.artifact_evidence.symm
      · exact hd.artifact_marker.symm
    exact (hr.started hrun (fun _ _ hrely h => hkeeps.untouched_rely _ _ _ hrely h) hfresh
      (safe_storeBundle_unspooled hkeeps hkeys hunspooled hne hfresh)).inv
  · obtain ⟨message, hmessage⟩ := spoolEvidence_incoherent hitems hbefore hbad
    exact ⟨message, MinioBronzeArtifactStore.storeBundle_of_raise hkeys
      (MinioBronzeArtifactStore.writeEvidence_of_unspooled hspool hmessage)⟩

end Outcome

/-- The sample call with three items, of which the second is of another run. -/
def sampleIncoherent : BundleCall := { sampleBundle csv none with
  evidence := ⟨[sampleItem sampleId .accepted, sampleItem (sampleRun false) .quarantined,
    sampleItem sampleId .accepted], none⟩ }

theorem sampleIncoherent_not_coherent :
    ¬ Coherent (sampleArtifact csv) (sampleItem (sampleRun false) .quarantined) := by
  intro h
  have hrun : UUID.ofNat 2 = .ofNat 1 := h.run
  exact absurd hrun (by decide)

/-- It leaves its artifact and raises. -/
theorem sample_incoherent :
    ∃ (c : Config Unit httpSignature (World Unit) Exc BronzeBundleReceipt) (message : String),
      (storeSystem Server.strict).Reachable ⟨World.initial fun _ => none,
        fun _ => sampleIncoherent.run⟩ c ∧
      c.procs () = .raise (.manifestSerializationError message) ∧
      c.shared.objects ("lake", (sampleKeys csv).artifact) ≠ none := by
  have hfirst : ∀ item ∈ [sampleItem sampleId .accepted], Coherent (sampleArtifact csv) item :=
    fun item hitem => List.mem_singleton.mp hitem ▸ ⟨rfl, rfl, rfl, rfl⟩
  have hfit : (([] ++ [sampleItem sampleId .accepted]).flatMap evidenceLine).length ≤
      maxSinglePutSizeBytes := by
    refine (length_evidenceLines_le 6000 fun item hitem => ?_).trans (by decide)
    exact List.mem_singleton.mp hitem ▸ width_sampleItem_le sampleId .accepted
  have hfaults : ∀ n, sampleIncoherent.staging.evidenceSpool.write n = none := fun _ => rfl
  obtain ⟨s, hs⟩ := spoolItems_complete (sampleIncoherent.store.uri (sampleKeys csv).evidenceManifest)
    (EvidenceSpool.Of.empty (sampleArtifact csv)) hfirst hfaults hfit
  have hspooled : ∃ message, sampleIncoherent.spooled (sampleKeys csv) =
      .error (.manifestSerializationError message) :=
    spoolEvidence_incoherent (by rfl) hs sampleIncoherent_not_coherent
  obtain ⟨message, hmessage⟩ := hspooled
  let plan : ArtifactPlan sampleIncoherent :=
    ⟨sampleKeys csv, sample_keys csv none, .ofBytes sampleBytes, rfl⟩
  obtain ⟨w, hrun, hl⟩ := runs_storeBundle_abandons (i := ()) (w := World.initial fun _ => none)
    Server.strict_grants plan rfl ⟨rfl, rfl, rfl, by show (4 : Nat) ≤ _; decide⟩ rfl hmessage
    fun _ _ => rfl
  refine ⟨_, message, hrun.reachable rfl .refl, ?_, ?_⟩
  · dsimp only
    rw [Function.update_self]; rfl
  · dsimp only
    rw [hl.objects]
    exact ne_of_eq_of_ne (Function.update_self ..) (Option.some_ne_none _)

/-- The sample call has left the lines of its four items, of three outcomes; the one with an item of
    another run has raised, and has sent nothing for the evidence key and the marker key. -/
theorem storeBundle_truthful_sample :
    (∃ (c : Config Unit httpSignature (World Unit) Exc BronzeBundleReceipt)
      (m : BronzeCompletionManifest),
      (storeSystem Server.strict).Reachable ⟨World.initial fun _ => none,
        fun _ => (sampleBundle csv none).run⟩ c ∧
      c.procs () = .ret (sampleBundlePlan csv).receipt ∧
      SecuredBytes () ("lake", (sampleKeys csv).completionManifest) (canonicalJson m.modelDump)
        c.shared ∧
      SecuredBytes () ("lake", (sampleKeys csv).evidenceManifest)
        ((sampleEvidence sampleId).flatMap evidenceLine) c.shared ∧
      m.totalRecords = 4 ∧ ContractOutcome.members.map m.outcomeCounts = [2, 1, 1, 0]) ∧
    ∃ (c : Config Unit httpSignature (World Unit) Exc BronzeBundleReceipt) (message : String),
      (storeSystem Server.strict).Reachable ⟨World.initial fun _ => none,
        fun _ => sampleIncoherent.run⟩ c ∧
      c.procs () = .raise (.manifestSerializationError message) ∧
      c.shared.objects ("lake", (sampleKeys csv).artifact) ≠ none ∧
      ∀ key ∈ [(sampleKeys csv).evidenceManifest, (sampleKeys csv).completionManifest],
        c.shared.AllSent () fun r => r.key ≠ ("lake", key) := by
  constructor
  · obtain ⟨c, hr, hret, -⟩ := sample_committed
    have hkeeps : (sampleBundle csv none).store.client.Keeps (storeSystem Server.strict) ()
        (SecuredBytes ()) _ := minio_keeps Server.strict ()
    have htruthful := storeBundle_truthful hkeeps hr rfl (sample_keys csv none)
    obtain ⟨m, hmarker, hevidence, -, -, htotal, hcounts, -⟩ := htruthful.1 _ hret
    exact ⟨c, m, hr, hret, hmarker, hevidence, htotal, by rw [hcounts]; rfl⟩
  · obtain ⟨c, message, hr, hraise, hartifact⟩ := sample_incoherent
    have hkeeps : sampleIncoherent.store.client.Keeps (storeSystem Server.strict) ()
        (SecuredBytes ()) _ := minio_keeps Server.strict ()
    have htruthful := storeBundle_truthful hkeeps hr rfl (sample_keys csv none)
    obtain ⟨-, huntouched⟩ := htruthful.2.1
      ⟨_, List.mem_cons_of_mem _ (List.mem_cons_self ..), sampleIncoherent_not_coherent⟩
    refine ⟨c, message, hr, hraise, hartifact, fun key hkey => huntouched key hkey ?_⟩
    intro n p hp
    simp [World.initial] at hp

end EvidenceCartographer.Infrastructure

import EvidenceCartographer.Infrastructure.BundleRuns

/-! What is hashed is what is uploaded.

    The file is read once, into a spool that the digest and the size describe. Every attempt of the
    artifact PUT rewinds the spool and sends all of it, so a file that changes later, or a transport
    that broke off in the middle, changes nothing. -/

namespace EvidenceCartographer.Infrastructure

open Python Domain Application Concurrency MinioConditionalObjectClient

/-- The request carries these bytes, and its length and its tags are theirs. -/
structure PutRequest.Describes (r : PutRequest) (bytes : Bytes) : Prop where
  body : r.body = bytes
  contentLength : r.contentLength = bytes.length
  size : getHeader r.metadata "x-amz-meta-ec-size" = some (toString bytes.length)
  sha256 : getHeader r.metadata "x-amz-meta-ec-sha256" = some (Python.sha256 bytes).text

theorem putRequest_describes {bucketName objectName contentType : String} {data : Stream}
    {bytes : Bytes} (h : data.rest = bytes) : (putRequest bucketName objectName data bytes.length
      (Python.sha256 bytes).text contentType).Describes bytes where
  body := h
  contentLength := rfl
  size := getHeader_size _ _
  sha256 := getHeader_sha256 _ _

variable {call : BundleCall}

/-- The chunks read make up the artifact: they fit, and have the digest asked for. -/
structure BundleCall.ArtifactRead (call : BundleCall) : Prop where
  read_to_end : ReadToEnd call.staging.file.reads
  fits : (chunksRead call.staging.file.reads).length ≤ maxSinglePutSizeBytes
  checksum : ∀ expected, call.artifact.expectedSha256 = some expected →
    sha256 (chunksRead call.staging.file.reads) = expected

theorem ArtifactPlan.read (plan : ArtifactPlan call) : call.ArtifactRead := by
  obtain ⟨-, hend, hchecksum⟩ := snapshotArtifact_ok plan.snapshot_eq
  exact ⟨hend, snapshotArtifact_fits plan.snapshot_eq, hchecksum⟩

theorem ArtifactPlan.describes (plan : ArtifactPlan call) :
    plan.create.request.Describes (chunksRead call.staging.file.reads) := by
  have hof := plan.snapshot_of
  have hrest : plan.create.data.rest = chunksRead call.staging.file.reads := by
    simp only [create, Stream.rest, Stream.seek, List.drop_zero, hof.content]
  have hsha : plan.create.sha256 = (sha256 (chunksRead call.staging.file.reads)).text := by
    simp only [create, Digest.hexdigest, hof.digest]
  have hlength : plan.create.length = (chunksRead call.staging.file.reads).length := hof.size
  rw [CreateCall.request, hsha, hlength]
  exact putRequest_describes hrest

/-- Whatever a call may send, its artifact was read. -/
theorem Allowed.read {ι : Type} {i : ι} {w : World ι} {r : PutRequest} (h : Allowed call i w r) :
    call.ArtifactRead := by
  cases h with
  | artifact plan _ => exact plan.read
  | evidence plan _ _ => exact plan.read
  | marker plan _ _ _ => exact plan.read

variable {ι : Type} [DecidableEq ι] {srv : Server} {call : ι → BundleCall}
  {objects : ObjectKey → Option (Bytes × List (String × String))}
  {c : Config ι httpSignature (World ι) Exc BronzeBundleReceipt}

/-- In every state of every run: a call has sent nothing unless the chunks it read fit and have the
    digest asked for, every PUT for its artifact carries exactly these chunks and describes them, and
    so does its receipt. -/
theorem storeBundle_uploads_hashed
    (hr : (storeSystem srv).Reachable ⟨World.initial objects, fun i => (call i).run⟩ c) (i : ι) :
    (∀ n p, c.shared.puts.entry i n = some p → (call i).ArtifactRead) ∧
    (∀ n p keys, c.shared.puts.entry i n = some p → (call i).keys = .ok keys →
      p.request.key = (call i).objectKey keys.artifact →
        p.request.Describes (chunksRead (call i).staging.file.reads)) ∧
    (∀ receipt, c.procs i = .ret receipt →
      receipt.artifact.sizeBytes = (chunksRead (call i).staging.file.reads).length ∧
      receipt.artifact.sha256 = sha256 (chunksRead (call i).staging.file.reads)) := by
  have hsent := orderly_of_reachable hr i
  refine ⟨fun n p hp => (hsent n p hp).read, fun n p keys hp hkeys hkey => ?_, fun receipt hret => ?_⟩
  · obtain ⟨plan, hreq⟩ := ((hsent n p hp).of_key hkeys).1 hkey
    rw [hreq]
    exact plan.describes
  · have hend := bundleEnding_of_reachable hr (i := i) ((Program.outcome_eq_ok _ _).mpr hret)
    generalize hresult : (Except.ok receipt : Except Exc BronzeBundleReceipt) = r at hend
    cases hend with
    | committed plan =>
      cases hresult
      have hof := plan.snapshot_of
      exact ⟨hof.size, by rw [← hof.digest]; rfl⟩
    | unmarked => cases hresult
    | marker => cases hresult

/-- Both sample calls have uploaded the four bytes of their files, which they read in two chunks. -/
theorem storeBundle_uploads_hashed_sample :
    ∃ c : Config Bool httpSignature (World Bool) Exc BronzeBundleReceipt,
      (storeSystem Server.strict).Reachable ⟨World.initial fun _ => none,
        fun b => (sampleParty b).run⟩ c ∧
      ∀ b, ∃ receipt, c.procs b = .ret receipt ∧ receipt.artifact.sizeBytes = 4 ∧
        receipt.artifact.sha256 = sha256 sampleBytes := by
  obtain ⟨c, hr, hcommitted⟩ := sample_interleaved
  refine ⟨c, hr, fun b => ⟨_, (hcommitted b).1, ?_⟩⟩
  have hreceipt := (storeBundle_uploads_hashed hr b).2.2 _ (hcommitted b).1
  have hread : chunksRead (sampleParty b).staging.file.reads = sampleBytes := rfl
  rw [hread] at hreceipt
  exact hreceipt

end EvidenceCartographer.Infrastructure

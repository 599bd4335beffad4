import EvidenceCartographer.Concurrency.Expand
import EvidenceCartographer.Infrastructure.StoredBundle

/-! What a failed `store_bundle` says about where it failed.

    The store is first read over a client of which nothing is known: its calls are operations that may
    answer anything, and `storeBundle_expand` gives the store over any client back. -/

namespace EvidenceCartographer.Infrastructure

open Python Domain Application Concurrency

/-- The calls a store makes to its client. -/
inductive ClientOp where
  | statObject (bucketName objectName : String)
  | putObjectIfAbsent (bucketName objectName : String) (data : Stream) (length : Nat)
      (sha256 contentType : String)

abbrev ClientOp.Result : ClientOp → Type
  | .statObject _ _ => ConditionalObjectMetadata
  | .putObjectIfAbsent .. => Unit

abbrev clientSignature : Signature := .raising ClientOp ClientOp.Result Exc

/-- The call asks whether a key is free. -/
def ClientOp.Inspects : ClientOp → Prop
  | .statObject _ _ => True
  | .putObjectIfAbsent .. => False

variable {S : Signature}

/-- What a client does on a call. -/
def ConditionalObjectClient.run (client : ConditionalObjectClient S) :
    (o : ClientOp) → Program S Exc o.Result
  | .statObject bucketName objectName => client.statObject bucketName objectName
  | .putObjectIfAbsent bucketName objectName data length sha256 contentType =>
    client.putObjectIfAbsent bucketName objectName data length sha256 contentType

namespace MinioBronzeArtifactStore

section Expand

variable (store : MinioBronzeArtifactStore S)

variable (staging : Staging) (artifact : BronzeArtifact)

end Expand

section Surfaces

variable (store : MinioBronzeArtifactStore S)

/-- What is raised for a client call that failed: an inspection of a key, but for a missing object,
    or a PUT. -/
def surfaced : clientSignature.Event → Option Exc
  | ⟨.statObject _ key, .error exc⟩ =>
    if isMissing exc then none else some (.objectStoreError ("could not inspect " ++ store.uri key))
  | ⟨.putObjectIfAbsent _ key _ _ _ _, .error exc⟩ => some (putError (store.uri key) exc)
  | _ => none

variable (staging : Staging) (artifact : BronzeArtifact)

end Surfaces

end MinioBronzeArtifactStore

section Faults

variable {ceiling : Nat} {uri : String} {staging : Staging} {artifact : BronzeArtifact}
  {evidence : EvidenceIterable} {exc : Exc}

/-- The loop of `_snapshot_artifact` goes on where it stands. -/
theorem snapshotChunks_append {faults : SpoolFaults} {before : List (Except Exc Bytes)}
    (more : List (Except Exc Bytes)) {s s' : Snapshot} (hchunks : ∀ read ∈ before, read ≠ .ok [])
    (hok : snapshotChunks ceiling uri faults before s = .ok s') :
    snapshotChunks ceiling uri faults (before ++ more) s = snapshotChunks ceiling uri faults more s' := by
  induction before generalizing s with
  | nil => cases hok; rfl
  | cons read before ih =>
    obtain ⟨hread, hbefore⟩ := List.forall_mem_cons.mp hchunks
    rcases read with exc | (_ | ⟨byte, chunk⟩)
    · cases hok
    · exact absurd rfl hread
    · simp only [snapshotChunks, List.cons_append] at hok ⊢
      split at hok
      · cases hok
      rename_i hroom
      rw [if_neg hroom]
      split at hok
      · cases hok
      exact ih hbefore hok

/-- The local artifact cannot be opened or read on, or its spool cannot be created or written on. -/
inductive ArtifactFault (ceiling : Nat) (uri : String) (staging : Staging) (exc : Exc) : Prop where
  | create : staging.artifactSpool.create = some exc → ArtifactFault ceiling uri staging exc
  | read (before after s) : staging.artifactSpool.create = none →
      staging.file.reads = before ++ .error exc :: after → (∀ read ∈ before, read ≠ .ok []) →
      snapshotChunks ceiling uri staging.artifactSpool before .empty = .ok s →
      ArtifactFault ceiling uri staging exc
  | write (before byte bytes after s) : staging.artifactSpool.create = none →
      staging.file.reads = before ++ .ok (byte :: bytes) :: after →
      (∀ read ∈ before, read ≠ .ok []) →
      snapshotChunks ceiling uri staging.artifactSpool before .empty = .ok s →
      s.sizeBytes + (byte :: bytes).length ≤ ceiling →
      staging.artifactSpool.write s.spool.tell = some exc → ArtifactFault ceiling uri staging exc

theorem ArtifactFault.created {created : Exc} (h : ArtifactFault ceiling uri staging exc)
    (hcreate : staging.artifactSpool.create = some created) : created = exc := by
  cases h with
  | create h => exact Option.some.inj (hcreate.symm.trans h)
  | read _ _ _ h | write _ _ _ _ _ h => rw [h] at hcreate; cases hcreate

theorem ArtifactFault.snapshot (h : ArtifactFault ceiling uri staging exc)
    (hcreate : staging.artifactSpool.create = none) :
    snapshotArtifact ceiling artifact uri staging = .error exc := by
  have hloop : snapshotChunks ceiling uri staging.artifactSpool staging.file.reads .empty =
      .error exc := by
    cases h with
    | create h => rw [hcreate] at h; cases h
    | read before after s _ hreads hchunks hbefore =>
      rw [hreads, snapshotChunks_append _ hchunks hbefore]
      rfl
    | write before byte bytes after s _ hreads hchunks hbefore hroom hwrite =>
      rw [hreads, snapshotChunks_append _ hchunks hbefore]
      simp only [snapshotChunks, if_neg (Nat.not_lt_of_le hroom), hwrite]
  simp only [snapshotArtifact, hloop, bind, Except.bind]

namespace MinioBronzeArtifactStore

variable {store : MinioBronzeArtifactStore S} {keys : BronzeObjectKeys} {key : String}

end MinioBronzeArtifactStore

end Faults

section Sample

end Sample

end EvidenceCartographer.Infrastructure

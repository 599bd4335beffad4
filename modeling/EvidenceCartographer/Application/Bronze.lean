import EvidenceCartographer.Application.Errors
import EvidenceCartographer.Domain.Models

/-! The models of a Bronze bundle: the artifact to store, the evidence of its records, the stored
    objects, and the completion manifest and receipt that name them.

    A value satisfies its Pydantic field constraints by construction. -/

namespace EvidenceCartographer.Application

open Python Domain

structure ValidationMessage where
  ruleId : String
  message : String
  field : Option String
  deriving DecidableEq

def ValidationMessage.modelDump (m : ValidationMessage) : Json :=
  .obj [("rule_id", .str m.ruleId), ("message", .str m.message), ("field", dumpText m.field)]

structure ContractResult where
  outcome : ContractOutcome
  messages : List ValidationMessage
  deriving DecidableEq

def ContractResult.modelDump (r : ContractResult) : Json :=
  .obj [("outcome", .str r.outcome.value), ("messages", .arr (r.messages.map (·.modelDump)))]

/-- `[a-z0-9]`. -/
def isSuffixChar (c : Char) : Bool := ('a' ≤ c && c ≤ 'z') || c.isDigit

/-- `[a-z0-9]+(?:[._-][a-z0-9]+)*`; `needChar` at the start and after a separator. -/
def matchExtension : Bool → List Char → Bool
  | needChar, [] => !needChar
  | needChar, c :: cs =>
    if isSuffixChar c then matchExtension false cs
    else !needChar && (c == '.' || c == '_' || c == '-') && matchExtension true cs

/-- What `normalize_extension` lets through. -/
def safeExtension (extension : String) : Bool :=
  extension.toList.length ≤ 32 && matchExtension true extension.toList

theorem safeExtension_csv : safeExtension "csv" = true := by decide

structure BronzeArtifact where
  source : SourceName
  ingestionRunId : UUID
  retrievedAt : AwareDatetime
  sourceUrl : String
  mediaType : String
  extension : String
  contractVersion : String
  localPath : String
  expectedSha256 : Option Sha256Hex
  mediaType_ne : mediaType ≠ ""
  extension_safe : safeExtension extension = true
  contractVersion_ne : contractVersion ≠ ""

structure BronzeRecordEvidence where
  provenance : SourceRecord
  result : ContractResult

def BronzeRecordEvidence.modelDump (e : BronzeRecordEvidence) : Json :=
  .obj [("provenance", e.provenance.modelDump), ("result", e.result.modelDump)]

structure StoredObject where
  uri : String
  sizeBytes : Nat
  sha256 : Sha256Hex
  deriving DecidableEq

def StoredObject.modelDump (o : StoredObject) : Json :=
  .obj [("uri", .str o.uri), ("size_bytes", .int o.sizeBytes), ("sha256", .str o.sha256.text)]

structure BronzeBundleTarget where
  artifactUri : String
  evidenceManifestUri : String
  completionManifestUri : String
  deriving DecidableEq

/-- A `dict[ContractOutcome, int]` with every outcome a key. -/
abbrev OutcomeCounts := ContractOutcome → Nat

def dumpCounts (counts : OutcomeCounts) : Json :=
  .obj (ContractOutcome.members.map fun outcome => (outcome.value, .int (counts outcome)))

structure BronzeCompletionManifest where
  source : SourceName
  ingestionRunId : UUID
  retrievedAt : AwareDatetime
  sourceUrl : String
  contractVersion : String
  artifact : StoredObject
  evidenceManifest : StoredObject
  totalRecords : Nat
  outcomeCounts : OutcomeCounts
  contractMessages : List ValidationMessage

def BronzeCompletionManifest.modelDump (m : BronzeCompletionManifest) : Json :=
  .obj [("source", .str m.source.value), ("ingestion_run_id", m.ingestionRunId.dump),
    ("retrieved_at", m.retrievedAt.dump), ("source_url", .str m.sourceUrl),
    ("contract_version", .str m.contractVersion), ("artifact", m.artifact.modelDump),
    ("evidence_manifest", m.evidenceManifest.modelDump), ("total_records", .int m.totalRecords),
    ("outcome_counts", dumpCounts m.outcomeCounts),
    ("contract_messages", .arr (m.contractMessages.map (·.modelDump)))]

structure BronzeBundleReceipt where
  source : SourceName
  ingestionRunId : UUID
  artifact : StoredObject
  evidenceManifest : StoredObject
  completionManifestUri : String

/-- `k` digits are room for the size. -/
theorem StoredObject.width_modelDump_le {o : StoredObject} {k : Nat} (hk : 0 < k)
    (hsize : o.sizeBytes < 10 ^ k) : o.modelDump.width ≤ 6 * o.uri.utf8ByteSize + k + 600 := by
  have hdigits := Json.length_toString_le hk hsize
  have huri := Json.length_toList_le_utf8ByteSize o.uri
  simp only [modelDump, Json.width, Json.widthFields, Sha256Hex.length_eq]
  simp at hdigits ⊢
  omega

theorem width_dumpCounts_le {counts : OutcomeCounts} {k : Nat} (hk : 0 < k)
    (hcounts : ∀ outcome, counts outcome < 10 ^ k) : (dumpCounts counts).width ≤ 4 * k + 400 := by
  have hdigits := fun outcome => Json.length_toString_le hk (hcounts outcome)
  have haccepted := hdigits .accepted
  have hwarnings := hdigits .acceptedWithWarnings
  have hquarantined := hdigits .quarantined
  have hrejected := hdigits .rejected
  simp only [dumpCounts, ContractOutcome.members, ContractOutcome.value, List.map_cons,
    List.map_nil, Json.width, Json.widthFields]
  simp at haccepted hwarnings hquarantined hrejected ⊢
  omega

/-- The marker is as long as its texts: the rest of it is a constant and seven numbers. -/
theorem BronzeCompletionManifest.width_modelDump_le {m : BronzeCompletionManifest} {k : Nat}
    (hk : 0 < k) (hartifact : m.artifact.sizeBytes < 10 ^ k)
    (hevidence : m.evidenceManifest.sizeBytes < 10 ^ k) (htotal : m.totalRecords < 10 ^ k)
    (hcounts : ∀ outcome, m.outcomeCounts outcome < 10 ^ k) :
    m.modelDump.width ≤ 6 * (m.sourceUrl.utf8ByteSize + m.contractVersion.utf8ByteSize +
      m.artifact.uri.utf8ByteSize + m.evidenceManifest.uri.utf8ByteSize) +
      m.ingestionRunId.dump.width + m.retrievedAt.dump.width +
      Json.widthItems (m.contractMessages.map (·.modelDump)) + 7 * k + 3000 := by
  have hsource : m.source.value.toList.length = 3 := by cases m.source <;> rfl
  have hurl := Json.length_toList_le_utf8ByteSize m.sourceUrl
  have hversion := Json.length_toList_le_utf8ByteSize m.contractVersion
  have ha := StoredObject.width_modelDump_le hk hartifact
  have he := StoredObject.width_modelDump_le hk hevidence
  have hc := width_dumpCounts_le hk hcounts
  have hdigits := Json.length_toString_le hk htotal
  simp only [modelDump, Json.width, Json.widthFields, hsource]
  simp at hdigits ⊢
  omega

/-- Another source URL adds at most its own characters. -/
theorem BronzeCompletionManifest.width_modelDump_url_le (m : BronzeCompletionManifest) (url : String) :
    { m with sourceUrl := url }.modelDump.width ≤ m.modelDump.width + 6 * url.toList.length := by
  simp only [modelDump, Json.width, Json.widthFields]
  omega

end EvidenceCartographer.Application

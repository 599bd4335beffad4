import EvidenceCartographer.Domain.Values

/-! The canonical provenance record of one source row. -/

namespace EvidenceCartographer.Domain

open Python

structure AcquisitionContext where
  mode : IngestionMode
  deriving DecidableEq

structure SourceRecord where
  id : UUID
  createdAt : AwareDatetime
  museumId : UUID
  source : SourceName
  sourceRecordId : String
  contractVersion : String
  ingestionRunId : UUID
  observedAt : AwareDatetime
  sourceUrl : String
  retrievalStatus : RetrievalStatus
  retrievedAt : AwareDatetime
  rawUri : String
  acquisitionContext : AcquisitionContext
  rawChecksum : Option String
  attributionText : Option String
  outcome : ContractOutcome

/-- `record.model_dump(mode="json")`. -/
def SourceRecord.modelDump (r : SourceRecord) : Json :=
  .obj [("id", r.id.dump), ("created_at", r.createdAt.dump), ("museum_id", r.museumId.dump),
    ("source", .str r.source.value), ("source_record_id", .str r.sourceRecordId),
    ("contract_version", .str r.contractVersion), ("ingestion_run_id", r.ingestionRunId.dump),
    ("observed_at", r.observedAt.dump), ("source_url", .str r.sourceUrl),
    ("retrieval_status", .str r.retrievalStatus.value), ("retrieved_at", r.retrievedAt.dump),
    ("raw_uri", .str r.rawUri),
    ("acquisition_context", .obj [("mode", .str r.acquisitionContext.mode.value)]),
    ("raw_checksum", dumpText r.rawChecksum), ("attribution_text", dumpText r.attributionText),
    ("outcome", .str r.outcome.value)]

end EvidenceCartographer.Domain

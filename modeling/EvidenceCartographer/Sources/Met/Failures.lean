import EvidenceCartographer.Infrastructure.StoreErrors
import EvidenceCartographer.Sources.Met.RetryProtocol
import EvidenceCartographer.Sources.Met.Ingestible

/-! How a Met run can fail.

    Every failure of the transfer, the header, the rows and the store reaches the caller as one of the
    project's own errors. What gets through as it is was raised next to them: by the directories of the
    run, by an unlink in a handler, by the retry decider, by a clock, by a model that refuses its input, or
    by the artifact's file or spool with something that is no `OSError`. -/

namespace EvidenceCartographer.Sources.Met

open Python Domain Application Infrastructure Concurrency

namespace MetSnapshotDownloader

variable {downloader : MetSnapshotDownloader} {destination : String}
  {conditional : Option MetSnapshotConditional}

end MetSnapshotDownloader

section Run

variable {S : Signature} {service : MetSnapshotIngestionService S} {inputs : RunInputs}

end Run

end EvidenceCartographer.Sources.Met

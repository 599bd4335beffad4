import EvidenceCartographer.Concurrency.Log
import EvidenceCartographer.Concurrency.System
import EvidenceCartographer.Python.Int
import EvidenceCartographer.Infrastructure.ObjectKeys
import EvidenceCartographer.Infrastructure.ObjectServer
import EvidenceCartographer.Infrastructure.Transport
import EvidenceCartographer.Infrastructure.ConditionalObjectClient
import EvidenceCartographer.Infrastructure.CreateOutcome
import EvidenceCartographer.Infrastructure.CreateRuns
import EvidenceCartographer.Infrastructure.MinioBronze
import EvidenceCartographer.Infrastructure.Staging
import EvidenceCartographer.Infrastructure.BundleOutcome
import EvidenceCartographer.Concurrency.Run
import EvidenceCartographer.Infrastructure.StoreProgress
import EvidenceCartographer.Infrastructure.BundleRuns
import EvidenceCartographer.Infrastructure.OccupiedKeys
import EvidenceCartographer.Infrastructure.AbandonedPrefix
import EvidenceCartographer.Infrastructure.StoredBundle
import EvidenceCartographer.Concurrency.Product
import EvidenceCartographer.Sources.Met.Contract
import EvidenceCartographer.Sources.Met.Csv
import EvidenceCartographer.Sources.Met.Download
import EvidenceCartographer.Sources.Met.Service
import EvidenceCartographer.Python.Numeral
import EvidenceCartographer.Sources.Met.Rows
import EvidenceCartographer.Domain.Rendering
import EvidenceCartographer.Sources.Met.Identity
import EvidenceCartographer.Sources.Met.ObjectId
import EvidenceCartographer.Sources.Met.Totals
import EvidenceCartographer.Infrastructure.KeySegments
import EvidenceCartographer.Python.JsonLoads
import EvidenceCartographer.Infrastructure.EvidenceManifest
import EvidenceCartographer.Infrastructure.ArtifactUpload
import EvidenceCartographer.Infrastructure.PayloadCeiling
import EvidenceCartographer.Concurrency.History
import EvidenceCartographer.Sources.Met.DownloadedFile
import EvidenceCartographer.Sources.Met.ParseFailure
import EvidenceCartographer.Concurrency.Trace
import EvidenceCartographer.Sources.Met.RetryProtocol
import EvidenceCartographer.Infrastructure.Http
import EvidenceCartographer.Concurrency.Expand
import EvidenceCartographer.Infrastructure.ErrorOrigins
import EvidenceCartographer.Sources.Met.Ingestible
import EvidenceCartographer.Concurrency.Takes
import EvidenceCartographer.Sources.Met.ChunkedLoops
import EvidenceCartographer.Concurrency.Refinement
import EvidenceCartographer.Infrastructure.Publication
import EvidenceCartographer.Infrastructure.BundleCollisions
import EvidenceCartographer.Concurrency.Implements
import EvidenceCartographer.Concurrency.Budget
import EvidenceCartographer.Sources.Met.DownloadOverHttp
import EvidenceCartographer.Sources.Met.Connections
import EvidenceCartographer.Concurrency.Emits
import EvidenceCartographer.Infrastructure.BundleTraffic
import EvidenceCartographer.Python.JsonFields
import EvidenceCartographer.Infrastructure.CompletionMarker
import EvidenceCartographer.Concurrency.Projection
import EvidenceCartographer.Orchestration.Met
import EvidenceCartographer.Concurrency.Raises
import EvidenceCartographer.Infrastructure.StoreErrors
import EvidenceCartographer.Sources.Met.Failures
import EvidenceCartographer.Sources.Met.ServiceOverHttp
import EvidenceCartographer.Orchestration.Stages
import EvidenceCartographer.Orchestration.Evidence
import EvidenceCartographer.Orchestration.Progress
import EvidenceCartographer.Python.CsvReader
import EvidenceCartographer.Sources.Met.Header
import EvidenceCartographer.Concurrency.Mirrors
import EvidenceCartographer.Sources.Met.Conditional
import EvidenceCartographer.Orchestration.Wire
import EvidenceCartographer.Orchestration.Columns

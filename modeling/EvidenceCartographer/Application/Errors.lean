import Mathlib.Logic.Basic

/-! The exceptions the program raises, catches and translates.

    Each constructor stands for a class and all its subclasses that no handler tells apart. The
    project's own errors carry their message; the errors of a failed conditional create carry the
    diagnostic they were built from. -/

namespace EvidenceCartographer.Application

/-- The fields of a `minio.error.S3Error`, and its text. -/
structure S3Error where
  code : Option String
  message : Option String
  requestId : Option String
  hostId : Option String
  text : String
  deriving DecidableEq

structure ConditionalPutDiagnostic where
  statusCode : Option Nat
  code : String
  message : String
  requestId : Option String
  hostId : Option String
  deriving DecidableEq

inductive Exc where
  | httpDownloadError (message : String)
  | retryableHttpDownloadError (message : String)
  | downloadIntegrityError (message : String)
  | downloadSizeLimitError (message : String)
  | metCsvSchemaError (message : String)
  | metCsvParseError (message : String)
  | artifactNotFoundError (message : String)
  | artifactIntegrityError (message : String)
  | artifactStagingError (message : String)
  | evidenceStagingError (message : String)
  | objectAlreadyExistsError (message : String)
  | manifestSerializationError (message : String)
  | objectStoreError (message : String)
  | singlePutSizeLimitError (objectUri : String) (sizeBytes maxSizeBytes : Nat)
  | conditionalObjectExistsError (diagnostic : ConditionalPutDiagnostic)
  | conditionalPutError (diagnostic : ConditionalPutDiagnostic) (attempts : Nat)
      (reconciliationError : Option Exc)
  | s3Error (error : S3Error)
  /-- `OSError` or a subclass such as `TimeoutError` or `ConnectionError`. -/
  | osError (typeName message : String)
  /-- `ValueError` or a subclass. -/
  | valueError (typeName message : String)
  /-- Any other subclass of `Exception`. -/
  | other (typeName message : String)

namespace Exc

/-- An optional text as an f-string writes it. -/
def orNone : Option String → String
  | none => "None"
  | some s => s

def statusText : Option Nat → String
  | none => "None"
  | some status => toString status

/-- `type(exc).__name__`. -/
def typeName : Exc → String
  | .httpDownloadError _ => "HttpDownloadError"
  | .retryableHttpDownloadError _ => "_RetryableHttpDownloadError"
  | .downloadIntegrityError _ => "DownloadIntegrityError"
  | .downloadSizeLimitError _ => "DownloadSizeLimitError"
  | .metCsvSchemaError _ => "MetCsvSchemaError"
  | .metCsvParseError _ => "MetCsvParseError"
  | .artifactNotFoundError _ => "ArtifactNotFoundError"
  | .artifactIntegrityError _ => "ArtifactIntegrityError"
  | .artifactStagingError _ => "ArtifactStagingError"
  | .evidenceStagingError _ => "EvidenceStagingError"
  | .objectAlreadyExistsError _ => "ObjectAlreadyExistsError"
  | .manifestSerializationError _ => "ManifestSerializationError"
  | .objectStoreError _ => "ObjectStoreError"
  | .singlePutSizeLimitError .. => "SinglePutSizeLimitError"
  | .conditionalObjectExistsError _ => "ConditionalObjectExistsError"
  | .conditionalPutError .. => "ConditionalPutError"
  | .s3Error _ => "S3Error"
  | .osError typeName _ => typeName
  | .valueError typeName _ => typeName
  | .other typeName _ => typeName

/-- `str(exc)`. -/
def str : Exc → String
  | .httpDownloadError m | .retryableHttpDownloadError m | .downloadIntegrityError m
  | .downloadSizeLimitError m | .metCsvSchemaError m | .metCsvParseError m
  | .artifactNotFoundError m | .artifactIntegrityError m | .artifactStagingError m
  | .evidenceStagingError m | .objectAlreadyExistsError m | .manifestSerializationError m
  | .objectStoreError m => m
  | .singlePutSizeLimitError objectUri sizeBytes maxSizeBytes =>
    objectUri ++ " is " ++ toString sizeBytes ++
      " bytes; conditional single-PUT supports at most " ++ toString maxSizeBytes ++ " bytes"
  | .conditionalObjectExistsError d =>
    "conditional object create failed: HTTP " ++ statusText d.statusCode ++ ", code=" ++ d.code ++
      ", message=" ++ d.message ++ ", request_id=" ++ orNone d.requestId
  | .conditionalPutError d attempts reconciliationError =>
    "conditional object create failed after " ++ toString attempts ++ " attempt(s): HTTP " ++
      statusText d.statusCode ++ ", code=" ++ d.code ++ ", message=" ++ d.message ++
      ", request_id=" ++ orNone d.requestId ++
      match reconciliationError with
      | none => ""
      | some e => ", reconciliation_error=" ++ e.str
  | .s3Error error => error.text
  | .osError _ m | .valueError _ m | .other _ m => m

/-- `isinstance(exc, OSError)`. -/
def isOSError : Exc → Bool
  | .osError .. => true
  | _ => false

/-- `isinstance(exc, StorageError)`. -/
def isStorageError : Exc → Bool
  | .artifactNotFoundError _ | .artifactIntegrityError _ | .artifactStagingError _
  | .evidenceStagingError _ | .objectAlreadyExistsError _ | .manifestSerializationError _
  | .objectStoreError _ | .singlePutSizeLimitError .. => true
  | _ => false

end Exc

/-- What a `RetryDecider` answers. -/
inductive RetryDecision where | retry | stop
  deriving DecidableEq

end EvidenceCartographer.Application

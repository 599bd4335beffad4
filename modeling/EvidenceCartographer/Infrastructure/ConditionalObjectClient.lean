import EvidenceCartographer.Infrastructure.Transport
import EvidenceCartographer.Python.Int

/-! The owned conditional-object client: `stat_object` with its metadata decoder, and
    `put_object_if_absent` with its three attempts and their reconciliation.

    The payload is a seekable stream; every attempt rewinds it to the position it had on entry, and
    the transport leaves it anywhere. -/

namespace EvidenceCartographer.Infrastructure

open Python Application Concurrency

/-- `MAX_SINGLE_PUT_SIZE_BYTES`. -/
def maxSinglePutSizeBytes : Nat := 5 * 1024 ^ 3

/-- `MAX_CONDITIONAL_PUT_ATTEMPTS`. -/
def maxConditionalPutAttempts : Nat := 3

/-- `RETRYABLE_STATUS_CODES`. -/
def retryableStatusCodes : List Nat := [409, 500, 502, 503, 504]

/-- `AMBIGUOUS_STATUS_CODES`. -/
def ambiguousStatusCodes : List Nat := [500, 502, 503, 504]

/-- A seekable binary stream. -/
structure Stream where
  content : Bytes
  position : Nat
  deriving DecidableEq

namespace Stream

def ofBytes (content : Bytes) : Stream := ⟨content, 0⟩

def tell (data : Stream) : Nat := data.position

def seek (data : Stream) (position : Nat) : Stream := { data with position := position }

/-- `data.read()`. -/
def rest (data : Stream) : Bytes := data.content.drop data.position

end Stream

structure ConditionalObjectMetadata where
  sizeBytes : Nat
  sha256 : Option String
  declaredSizeBytes : Option Int
  deriving DecidableEq

inductive ReconciliationState where | found | absent | conflict
  deriving DecidableEq

/-- The `ConditionalObjectClient` protocol, as programs over some transport. -/
structure ConditionalObjectClient (S : Signature) where
  statObject : (bucketName objectName : String) → Program S Exc ConditionalObjectMetadata
  putObjectIfAbsent : (bucketName objectName : String) → (data : Stream) → (length : Nat) →
    (sha256 contentType : String) → Program S Exc Unit

/-- `value or default`, for a text. -/
def orDefault (value : Option String) (default : String) : String :=
  match value with
  | none => default
  | some text => if text = "" then default else text

/-- `_exception_diagnostic`. -/
def exceptionDiagnostic (exc : Exc) : ConditionalPutDiagnostic where
  statusCode := none
  code := exc.typeName
  message := orDefault (some exc.str) "conditional object request failed"
  requestId := none
  hostId := none

/-- `_response_diagnostic`. -/
def responseDiagnostic (response : HttpResponse) : ConditionalPutDiagnostic :=
  match response.error with
  | none =>
    { statusCode := some response.status
      code := "HTTP" ++ toString response.status
      message := orDefault (some response.data) "object store returned an empty error response"
      requestId := response.requestId
      hostId := response.hostId }
  | some error =>
    { statusCode := some response.status
      code := orDefault error.code ("HTTP" ++ toString response.status)
      message := orDefault error.message "object store rejected conditional create"
      requestId := error.requestId
      hostId := error.hostId }

/-- `{key.lower(): value for key, value in metadata.items()}.get(name)`; the last key wins. -/
def getHeader (metadata : List (String × String)) (name : String) : Option String :=
  (metadata.reverse.find? fun h => String.ofList (h.1.toList.map Char.toLower) = name).map (·.2)

/-- What `stat_object` makes of an answer. -/
def decodeMetadata (stat : ObjectStat) : Except Exc ConditionalObjectMetadata :=
  let sizeBytes := stat.size.getD 0
  let sha256 := getHeader stat.metadata "x-amz-meta-ec-sha256"
  match getHeader stat.metadata "x-amz-meta-ec-size" with
  | none => .ok ⟨sizeBytes, sha256, none⟩
  | some declaredSize =>
    match int declaredSize with
    | some declared => .ok ⟨sizeBytes, sha256, some declared⟩
    | none => .error (.valueError "ValueError" (intError declaredSize))

/-- `Minio.stat_object`. -/
def minioStatObject (key : ObjectKey) : Program httpSignature Exc ObjectStat :=
  .call (.statSend key) fun _ => .call .statAwait fun reply => .ofExcept reply

namespace MinioConditionalObjectClient

def statObject (bucketName objectName : String) :
    Program httpSignature Exc ConditionalObjectMetadata := do
  let stat ← minioStatObject (bucketName, objectName)
  .ofExcept (decodeMetadata stat)

/-- `_reconcile_object`. -/
def reconcileObject (bucketName objectName : String) (length : Nat) (sha256 : String) :
    Program httpSignature Exc ReconciliationState := do
  match ← (statObject bucketName objectName).attempt with
  | .error exc => if isMissing exc then return .absent else .raise exc
  | .ok metadata =>
    if metadata.sizeBytes = length ∧ metadata.declaredSizeBytes = some (length : Int) ∧
        metadata.sha256 = some sha256 then
      return .found
    else return .conflict

/-- The request `_send_once` builds: the stream from where it stands, its length and its tags. -/
def putRequest (bucketName objectName : String) (data : Stream) (length : Nat)
    (sha256 contentType : String) : PutRequest where
  key := (bucketName, objectName)
  body := data.rest
  contentLength := length
  contentType := contentType
  ifNoneMatch := "*"
  metadata := [("x-amz-meta-ec-sha256", sha256), ("x-amz-meta-ec-size", toString length)]

/-- `_send_once`, with the response or the exception as a value, next to the stream as the transport
    left it. -/
def sendOnce (bucketName objectName : String) (data : Stream) (length : Nat)
    (sha256 contentType : String) :
    Program httpSignature Exc (Except Exc HttpResponse × Stream) :=
  .call (.putSend (putRequest bucketName objectName data length sha256 contentType)) fun
    | .error exc => .ret (.error exc, data)
    | .ok () => .call .putAwait fun reply => .ret (reply.result, data.seek reply.position)

/-- The block that follows every ambiguous outcome: reconcile, and `retry` where the key holds
    nothing and an attempt is left. -/
def settle (bucketName objectName : String) (length : Nat) (sha256 : String)
    (diagnostic : ConditionalPutDiagnostic) (attempt : Nat)
    (retry : Program httpSignature Exc Unit) : Program httpSignature Exc Unit := do
  match ← (reconcileObject bucketName objectName length sha256).attempt with
  | .error reconciliationError =>
    .raise (.conditionalPutError diagnostic (attempt + 1) (some reconciliationError))
  | .ok .found => return ()
  | .ok .conflict => .raise (.conditionalObjectExistsError diagnostic)
  | .ok .absent =>
    if attempt + 1 < maxConditionalPutAttempts then retry
    else .raise (.conditionalPutError diagnostic (attempt + 1) none)

/-- The loop over the attempts, `remaining` of them left. -/
def putAttempts (bucketName objectName : String) (length : Nat) (sha256 contentType : String)
    (startPosition : Nat) : Nat → Bool → Stream → Program httpSignature Exc Unit
  | 0, _, _ => .ret ()
  | remaining + 1, hadAmbiguousAttempt, data => do
    let attempt := maxConditionalPutAttempts - (remaining + 1)
    let sent ← sendOnce bucketName objectName (data.seek startPosition) length sha256 contentType
    let retry (hadAmbiguousAttempt : Bool) := putAttempts bucketName objectName length sha256
      contentType startPosition remaining hadAmbiguousAttempt sent.2
    match sent.1 with
    | .error exc =>
      settle bucketName objectName length sha256 (exceptionDiagnostic exc) attempt (retry true)
    | .ok response =>
      if response.status = 200 ∨ response.status = 204 then return ()
      else
        let diagnostic := responseDiagnostic response
        if response.status = 412 then
          if hadAmbiguousAttempt then
            settle bucketName objectName length sha256 diagnostic attempt (retry hadAmbiguousAttempt)
          else .raise (.conditionalObjectExistsError diagnostic)
        else if response.status ∈ ambiguousStatusCodes then
          settle bucketName objectName length sha256 diagnostic attempt (retry true)
        else if response.status ∈ retryableStatusCodes then
          if attempt + 1 < maxConditionalPutAttempts then retry hadAmbiguousAttempt
          else .raise (.conditionalPutError diagnostic (attempt + 1) none)
        else .raise (.conditionalPutError diagnostic (attempt + 1) none)

/-- `put_object_if_absent`, with `ceiling` for `MAX_SINGLE_PUT_SIZE_BYTES`. -/
def putObjectIfAbsent (ceiling : Nat) (bucketName objectName : String) (data : Stream) (length : Nat)
    (sha256 contentType : String) : Program httpSignature Exc Unit :=
  if ceiling < length then
    .raise (.singlePutSizeLimitError ("s3://" ++ bucketName ++ "/" ++ objectName) length ceiling)
  else
    putAttempts bucketName objectName length sha256 contentType data.tell maxConditionalPutAttempts
      false data

end MinioConditionalObjectClient

/-- `MinioConditionalObjectClient`, with its ceiling. -/
def minioConditionalObjectClient (ceiling : Nat) : ConditionalObjectClient httpSignature where
  statObject := MinioConditionalObjectClient.statObject
  putObjectIfAbsent := MinioConditionalObjectClient.putObjectIfAbsent ceiling

end EvidenceCartographer.Infrastructure

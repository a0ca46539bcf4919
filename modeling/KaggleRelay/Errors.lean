/-
The exceptions of the relay.

An exception is its class with the data the class carries, and its text
(`str(exc)`).  `verificationError` is the classification that decides which
failures of a Dataset verification are retried.
-/
import Mathlib.Data.Rat.Defs
import KaggleRelay.Text

namespace KaggleRelay

/-- The `category` of a verification failure. -/
inductive Category where
  | publication | transport | progress | http | integrity | fatal
  deriving DecidableEq, Repr

/-- The exception classes the code distinguishes. -/
inductive ExcClass where
  | archiveError
  | valueError
  | datasetVersionNotReady
  | kaggleAdapterError
  | kaggleAdapterInterrupted
  | kernelStatusUnavailable
  | datasetUploadUnknown
  | datasetVerificationError (category : Category) (httpStatus : Option ℕ) (retryAfter : Option ℚ)
  | verificationDeferred (retryAfter : ℚ) (cooldown : Bool)
  | capacityError
  | jobCanceled
  | httpException (statusCode : ℕ)
  /-- A response with an HTTP status, and its `Retry-After` in seconds. -/
  | requestsHttp (status : ℕ) (retryAfter : Option ℚ)
  /-- `requests.Timeout`, `ConnectionError`, `ChunkedEncodingError` or `TimeoutError`. -/
  | requestsTransport
  | requestsSsl
  | osError
  | runtimeError
  | other
  deriving DecidableEq, Repr

/-- An exception: its class and its text. -/
structure Exc where
  cls : ExcClass
  text : String
  deriving DecidableEq, Repr

/-- `ValueError(text)`. -/
def Exc.valueError (text : String) : Exc := ⟨.valueError, text⟩

/-- `TypeError`. -/
def Exc.typeError (text : String) : Exc := ⟨.other, text⟩

/-- `HTTPException(status_code, detail)`. -/
def Exc.http (statusCode : ℕ) (detail : String) : Exc := ⟨.httpException statusCode, detail⟩

/-- `DatasetVersionNotReady(detail)`. -/
def Exc.versionNotReady (detail : String) : Exc :=
  ⟨.datasetVersionNotReady, "dataset_version_not_ready: " ++ detail⟩

/-- `isinstance(exc, ValueError)`. -/
def Exc.isValueError (e : Exc) : Bool :=
  match e.cls with
  | .archiveError | .valueError | .datasetVersionNotReady => true
  | _ => false

/-- The fields `verification_error` returns besides the text. -/
structure Failure where
  category : Category
  httpStatus : Option ℕ
  retryAfter : Option ℚ
  deriving DecidableEq, Repr

/-- `dataset_verification_process.verification_error`. -/
def verificationError (e : Exc) : Failure :=
  match e.cls with
  | .verificationDeferred retryAfter cooldown =>
    if cooldown then ⟨.http, some 429, some retryAfter⟩ else ⟨.progress, none, some retryAfter⟩
  | .datasetVerificationError category httpStatus retryAfter => ⟨category, httpStatus, retryAfter⟩
  | .datasetVersionNotReady => ⟨.publication, none, none⟩
  | .requestsHttp status retryAfter => ⟨.http, some status, retryAfter⟩
  | .requestsSsl => ⟨.fatal, none, none⟩
  | .requestsTransport => ⟨.transport, none, none⟩
  | _ =>
    if e.isValueError && Text.startswith e.text "payload_" then ⟨.integrity, none, none⟩
    else ⟨.fatal, none, none⟩

end KaggleRelay

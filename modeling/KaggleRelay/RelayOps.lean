/-
What the relay's code does to its surroundings.

Every function of the worker, the adapter, the schedulers and the endpoints is
a program over one signature.  One operation is one database statement, one
access to a file, to the queue or to the set of active jobs, or one call of
something outside.  What an operation does is left to the semantics of the
modules that use it.  Log lines, `stop_details` and `updated_at` are left out.
-/
import KaggleRelay.FileVerification
import KaggleRelay.JobRow
import KaggleRelay.Protocol

namespace KaggleRelay

open Effects JsonText

abbrev JobId := String

/-- The settings the code reads, and functions of the code and of Python that no
result here depends on. -/
structure Settings where
  lib : Library
  /-- `redact_secrets`. -/
  redactSecrets : String → String
  /-- `ignore_startup_progress(job, incoming)`, on the encoded payload; the text of
  its `TypeError` where the stored phase cannot be hashed. -/
  ignoreStartupProgress : Job → String → Except String Bool
  /-- `structured_kernel_failure_error`. -/
  structuredKernelFailureError : String → String
  /-- `account_key`. -/
  accountKey : String → String
  /-- `str(value or "")` of a JSON number with a fraction, array or object. -/
  textOf : Json → String
  /-- `int(value)` of a JSON text or a number with a fraction. -/
  intOf : Json → Option ℤ
  /-- `kaggle_status_lines`. -/
  statusLines : String → List String
  /-- `datetime.fromtimestamp(t, timezone.utc).isoformat()`. -/
  isoformat : ℚ → String
  /-- `f"{x:.0f}"`. -/
  wholeSeconds : ℚ → String
  jobsDir : String
  storageDir : String
  artifactsDir : String
  accountConcurrency : ℕ
  receivingTimeoutHours : ℕ
  datasetPollSeconds : ℤ
  datasetStatusPermissionGraceSeconds : ℤ

/-- `job_paths(settings, job_id)["dataset_dir"]`. -/
def Settings.datasetDir (s : Settings) (id : JobId) : String :=
  s.jobsDir ++ "/" ++ id ++ "/extracted/dataset"

/-- `job_paths(settings, job_id)["kernel_dir"]`. -/
def Settings.kernelDir (s : Settings) (id : JobId) : String :=
  s.jobsDir ++ "/" ++ id ++ "/extracted/kernel"

/-- `job_paths(settings, job_id)["artifact_zip"]`. -/
def Settings.artifactZip (s : Settings) (id : JobId) : String :=
  s.artifactsDir ++ "/" ++ id ++ "/artifacts.zip"

/-! ### Exceptions -/

def Exc.runtimeError (text : String) : Exc := ⟨.runtimeError, text⟩
def Exc.adapterError (text : String) : Exc := ⟨.kaggleAdapterError, text⟩
def Exc.uploadUnknown (text : String) : Exc := ⟨.datasetUploadUnknown, text⟩
def Exc.jobCanceled (text : String) : Exc := ⟨.jobCanceled, text⟩
def Exc.verification (text : String) (category : Category) (httpStatus : Option ℕ)
    (retryAfter : Option ℚ) : Exc := ⟨.datasetVerificationError category httpStatus retryAfter, text⟩

/-! ### The queue -/

/-- The `action` of a queue item, with its `final_status`. -/
inductive QueueAction where
  | process
  | recheckDataset
  | resumeKernel (finalStatus : Option Status)
  deriving DecidableEq, Repr

/-- An item of `job_queue`. -/
structure QueueItem where
  action : QueueAction
  jobId : JobId
  deriving DecidableEq, Repr

def QueueAction.isResume : QueueAction → Bool
  | .resumeKernel _ => true
  | _ => false

/-- `queue_item_expected_statuses`. -/
def queueItemExpectedStatuses (item : QueueItem) : List Status :=
  if item.action.isResume then
    [.pushingKernel, .waitingKernel, .downloadingOutput, .cancelRequested]
  else [.queued]

/-! ### Rows and files -/

/-- A row of `kaggle_dataset_cache`; the code writes it as `ready` only. -/
structure DatasetCache where
  kaggleKeyId : String
  datasetRef : String
  payloadHash : String
  datasetStatus : String
  sourceJobId : JobId
  deriving DecidableEq, Repr

/-- A row of `kaggle_last_job`. -/
structure LastDatasetJob where
  kaggleKeyId : String
  datasetRef : String
  payloadHash : String
  datasetStatus : String
  jobId : JobId
  deriving DecidableEq, Repr

/-- `state` of an upload intent. -/
inductive IntentState where
  | unknown | accepted | rejected
  deriving DecidableEq, Repr

/-- `operation` of an upload intent. -/
inductive UploadOperation where
  | create | version
  deriving DecidableEq, Repr

/-- An upload intent, as `write_intent` stores it. -/
structure Intent where
  datasetRef : String
  datasetDir : String
  contentSha256 : String
  versionNumber : ℤ
  operation : UploadOperation
  state : IntentState
  deriving DecidableEq, Repr

/-- `DatasetUploadReceipt`; its file inventory is not used on this path. -/
structure DatasetUploadReceipt where
  expectedVersionNumber : ℤ
  datasetDir : String
  contentSha256 : String
  deriving DecidableEq, Repr

/-- The response of a create or version call. -/
structure MutationResponse where
  /-- One of the fields the code knows is there. -/
  known : Bool
  /-- The first of the error fields that says something. -/
  error : Option String
  /-- `status`, lower case. -/
  status : String
  deriving DecidableEq, Repr

/-- A JSON object: what a metadata file holds, read by `json.loads`. -/
abbrev JsonObject := List (String × Json)

/-- The metadata file of a directory. -/
inductive MetadataFile where
  | dataset | kernel
  deriving DecidableEq, Repr

/-- What one turn of `wait_kernel` sees; `none` in its place is a query that
failed for now. -/
structure KernelObservation where
  output : String
  /-- New training progress: `remote_progress` and the encoded data. -/
  progress : Option (ℚ × String)
  /-- The provider's state, where it is final: success or failure. -/
  finished : Option Bool
  deriving DecidableEq, Repr

/-! ### Calls of what is outside -/

/-- Calls that answer or raise. -/
inductive Call where
  /-- `auth_store.credentials_for`: the key's username. -/
  | credentialsFor (keyId : String)
  | validateTrainingRequest (kernelDir contract : String)
  | requireIdentity (owner : String)
  | lockDataset (datasetRef : String)
  /-- `apply_yolo_gpu_policy` and `apply_dino_threshold_policy`. -/
  | applyPolicies (kernelDir contract : String)
  | requireFile (dir name : String)
  | pollKernel (kernelRef : String)
  | kernelStatus (kernelRef : String)
  | downloadOutput (kernelRef contract : String)
  | packageArtifacts (id : JobId) (contract : String)
  /-- `_check_interrupted`. -/
  | checkInterrupted
  | uploadInventory (datasetDir : String)
  | authenticate (owner : String)
  | checkDownloadSupport
  | checkMetadataId (datasetDir datasetRef : String)
  | ownedDatasetExists (datasetRef : String)
  | datasetVersionNumber (datasetRef : String)
  /-- `dataset_download_files` of one version: `false` where the archive has no URL. -/
  | downloadArchive (datasetRef : String) (version : ℤ)
  /-- `verify_upload_archive` against the archive just downloaded. -/
  | verifyUploadArchive (datasetDir : String)
  /-- `StorageBudget.check_free`, on top of what the other jobs reserve. -/
  | checkFree (needed : ℕ)
  /-- The remaining wait of the owner's verification quota, zero where there is none. -/
  | cooldownRemaining (owner : String)
  /-- The job's principal and key are there and enabled, and belong together. -/
  | accountAuthorized (id : JobId)
  /-- What `schedule_pending_jobs` finds for a job: the accounts and their quotas. -/
  | chooseAccount (id : JobId)
  /-- A free slot of `assembly_slots`; it raises where the request is cancelled. -/
  | assemblySlot
  | assembleArchive (id : JobId) (archiveType : ArchiveType)
  | unpackedSize (id : JobId) (archiveType : ArchiveType)
  | extractArchive (id : JobId) (archiveType : ArchiveType)

/-- The outcome of the search for an account. -/
inductive AccountChoice where
  /-- No account is allowed any more. -/
  | unauthorized
  /-- None can take the job now: the reason to show. -/
  | wait (reason : String)
  | account (keyId username : String)
  deriving DecidableEq, Repr

/-- What a call answers where it does not raise. -/
abbrev Call.Res : Call → Type
  | .cooldownRemaining _ => ℚ
  | .accountAuthorized _ => Bool
  | .chooseAccount _ => AccountChoice
  | .credentialsFor _ => String
  | .pollKernel _ => Option KernelObservation
  | .ownedDatasetExists _ => Bool
  | .datasetVersionNumber _ => ℤ
  | .downloadArchive _ _ => Bool
  | .unpackedSize _ _ => ℕ
  | _ => Unit

/-! ### Operations -/

inductive RelayOp where
  | getJob (id : JobId)
  | updateJob (id : JobId) (values : JobValues)
  | updateJobIfStatus (id : JobId) (expected : List Status) (requireNotCanceled : Bool)
      (expectedKernelStatus : Option String) (values : JobValues)
  | finalizeJob (id : JobId) (preferred : Status) (values : JobValues)
  /-- `StorageBudget.consume`. -/
  | consume (id : JobId) (size : ℕ)
  | getCurrentDatasetCache (datasetRef keyId : String)
  | getDatasetCache (datasetRef payloadHash keyId : String)
  | upsertDatasetCache (row : DatasetCache)
  | getCurrentLastDatasetJob (datasetRef keyId : String)
  | upsertLastDatasetJob (row : LastDatasetJob)
  /-- `job_id in app.state.active_job_ids`. -/
  | isActive (id : JobId)
  /-- The job has an upload that streams its body. -/
  | isUploading (id : JobId)
  /-- Where the job is not active, `update_job`, and `queue.put_nowait` right after it. -/
  | resumeIfInactive (id : JobId) (values : JobValues) (action : QueueAction)
  /-- `update_job_if_status`, and `queue.put_nowait` right after it where a row
  was updated and `put` holds. -/
  | updateJobIfStatusAndPut (id : JobId) (expected : List Status) (requireNotCanceled : Bool)
      (values : JobValues) (put : Bool) (action : QueueAction)
  /-- The chunk rows of an archive are `range(count)`, and their files are there. -/
  | archiveUploaded (id : JobId) (archiveType : ArchiveType)
  /-- The log says that the kernel was pushed. -/
  | pushLogged (id : JobId)
  /-- `shutil.rmtree` on the job's directories. -/
  | removeFiles (id : JobId)
  | deleteJobRecord (id : JobId)
  | readIntent (path : String)
  | writeIntent (path : String) (intent : Intent)
  | contentDigest (dir : String)
  | isDir (dir : String)
  | readMetadata (dir : String) (file : MetadataFile)
  | writeMetadata (dir : String) (file : MetadataFile) (metadata : JsonObject)
  /-- `dataset_create_new` or `dataset_create_version`. -/
  | mutateDataset (operation : UploadOperation) (datasetDir datasetRef : String)
  | pushKernel (id : JobId) (kernelDir : String)
  | unlockDataset (datasetRef : String)
  /-- The parent of an SDK process still waits for it, or stops it and raises. -/
  | sdkWait
  /-- An upload process prints its result. -/
  | printReceipt (datasetRef : String) (receipt : DatasetUploadReceipt)
  /-- An operation of the file by file verification. -/
  | verify (o : VerifyOp)
  | call (c : Call)
  /-- `time.time()`. -/
  | now
  /-- `time.monotonic()`. -/
  | monotonic
  /-- `_verification_content_seconds` of the verification that has just ended. -/
  | contentSeconds
  /-- How many turns an endless loop gets. -/
  | turns

abbrev RelayOp.Res : RelayOp → Type
  | .getJob _ => Option Job
  | .updateJob _ _ | .consume _ _ | .resumeIfInactive _ _ _ => Unit
  | .updateJobIfStatus _ _ _ _ _ | .updateJobIfStatusAndPut _ _ _ _ _ _ => Bool
  | .finalizeJob _ _ _ => Option Status
  | .getCurrentDatasetCache _ _ | .getDatasetCache _ _ _ => Option DatasetCache
  | .getCurrentLastDatasetJob _ _ => Option LastDatasetJob
  | .upsertDatasetCache _ | .upsertLastDatasetJob _ => Unit
  | .isActive _ | .isUploading _ | .isDir _ | .archiveUploaded _ _ | .pushLogged _ => Bool
  | .removeFiles _ => Except Exc Unit
  | .deleteJobRecord _ => Unit
  | .readIntent _ => Except Exc (Option Intent)
  | .writeIntent _ _ => Except Exc Unit
  | .contentDigest _ => Except Exc String
  | .readMetadata _ _ => Except Exc JsonObject
  | .writeMetadata _ _ _ => Except Exc Unit
  | .mutateDataset _ _ _ => Except Exc MutationResponse
  | .pushKernel _ _ => Except Exc Unit
  | .unlockDataset _ => Unit
  | .sdkWait => Option Exc
  | .printReceipt _ _ => Unit
  | .verify o => o.Res
  | .call c => Except Exc c.Res
  | .now | .monotonic | .contentSeconds => ℚ
  | .turns => ℕ

def RelaySig : Sig := ⟨RelayOp, RelayOp.Res⟩

/-- Programs of the relay. -/
abbrev Relay (α : Type) := Eff RelaySig Exc α

/-- An answer proposed for every operation. -/
abbrev Answers := (o : RelayOp) → o.Res

namespace Relay

def getJob (id : JobId) : Relay (Option Job) := Eff.perform (S := RelaySig) (.getJob id)
def updateJob (id : JobId) (values : JobValues) : Relay Unit :=
  Eff.perform (S := RelaySig) (.updateJob id values)
def updateJobIfStatus (id : JobId) (expected : List Status) (requireNotCanceled : Bool)
    (expectedKernelStatus : Option String) (values : JobValues) : Relay Bool :=
  Eff.perform (S := RelaySig)
    (.updateJobIfStatus id expected requireNotCanceled expectedKernelStatus values)
def finalizeJob (id : JobId) (preferred : Status) (values : JobValues) : Relay (Option Status) :=
  Eff.perform (S := RelaySig) (.finalizeJob id preferred values)
def consume (id : JobId) (size : ℕ) : Relay Unit := Eff.perform (S := RelaySig) (.consume id size)
def getCurrentDatasetCache (datasetRef keyId : String) : Relay (Option DatasetCache) :=
  Eff.perform (S := RelaySig) (.getCurrentDatasetCache datasetRef keyId)
def getDatasetCache (datasetRef payloadHash keyId : String) : Relay (Option DatasetCache) :=
  Eff.perform (S := RelaySig) (.getDatasetCache datasetRef payloadHash keyId)
def upsertDatasetCache (row : DatasetCache) : Relay Unit :=
  Eff.perform (S := RelaySig) (.upsertDatasetCache row)
def getCurrentLastDatasetJob (datasetRef keyId : String) : Relay (Option LastDatasetJob) :=
  Eff.perform (S := RelaySig) (.getCurrentLastDatasetJob datasetRef keyId)
def upsertLastDatasetJob (row : LastDatasetJob) : Relay Unit :=
  Eff.perform (S := RelaySig) (.upsertLastDatasetJob row)
def isActive (id : JobId) : Relay Bool := Eff.perform (S := RelaySig) (.isActive id)
def isUploading (id : JobId) : Relay Bool := Eff.perform (S := RelaySig) (.isUploading id)
def resumeIfInactive (id : JobId) (values : JobValues) (action : QueueAction) : Relay Unit :=
  Eff.perform (S := RelaySig) (.resumeIfInactive id values action)
def updateJobIfStatusAndPut (id : JobId) (expected : List Status) (requireNotCanceled : Bool)
    (values : JobValues) (put : Bool) (action : QueueAction) : Relay Bool :=
  Eff.perform (S := RelaySig)
    (.updateJobIfStatusAndPut id expected requireNotCanceled values put action)
def archiveUploaded (id : JobId) (archiveType : ArchiveType) : Relay Bool :=
  Eff.perform (S := RelaySig) (.archiveUploaded id archiveType)
def pushLogged (id : JobId) : Relay Bool := Eff.perform (S := RelaySig) (.pushLogged id)
def removeFiles (id : JobId) : Relay Unit := Prog.perform (S := RelaySig) (.removeFiles id)
def deleteJobRecord (id : JobId) : Relay Unit :=
  Eff.perform (S := RelaySig) (.deleteJobRecord id)
def printReceipt (datasetRef : String) (receipt : DatasetUploadReceipt) : Relay Unit :=
  Eff.perform (S := RelaySig) (.printReceipt datasetRef receipt)
def readIntent (path : String) : Relay (Option Intent) :=
  Prog.perform (S := RelaySig) (.readIntent path)
def writeIntent (path : String) (intent : Intent) : Relay Unit :=
  Prog.perform (S := RelaySig) (.writeIntent path intent)
def contentDigest (dir : String) : Relay String :=
  Prog.perform (S := RelaySig) (.contentDigest dir)
def isDir (dir : String) : Relay Bool := Eff.perform (S := RelaySig) (.isDir dir)
def readMetadata (dir : String) (file : MetadataFile) : Relay JsonObject :=
  Prog.perform (S := RelaySig) (.readMetadata dir file)
def writeMetadata (dir : String) (file : MetadataFile) (metadata : JsonObject) : Relay Unit :=
  Prog.perform (S := RelaySig) (.writeMetadata dir file metadata)
def mutateDataset (operation : UploadOperation) (datasetDir datasetRef : String) :
    Relay MutationResponse :=
  Prog.perform (S := RelaySig) (.mutateDataset operation datasetDir datasetRef)
def pushKernel (id : JobId) (kernelDir : String) : Relay Unit :=
  Prog.perform (S := RelaySig) (.pushKernel id kernelDir)
def unlockDataset (datasetRef : String) : Relay Unit :=
  Eff.perform (S := RelaySig) (.unlockDataset datasetRef)
def call (c : Call) : Relay c.Res := Prog.perform (S := RelaySig) (.call c)
def now : Relay ℚ := Eff.perform (S := RelaySig) .now
def monotonic : Relay ℚ := Eff.perform (S := RelaySig) .monotonic
def contentSeconds : Relay ℚ := Eff.perform (S := RelaySig) .contentSeconds
def turns : Relay ℕ := Eff.perform (S := RelaySig) .turns

/-- A program of the file by file verification, among the relay's. -/
def ofVerify {α : Type} : Prog VerifySig α → Prog RelaySig α
  | .pure a => .pure a
  | .op o k => .op (.verify o) fun r => ofVerify (k r)
  | .stuck => .stuck

/-- `_sdk_call`: the program runs in a process of its own, which the parent may
stop, raising, before any of its operations and before it takes the result.
`failed` is what the parent raises where the process reports an exception. -/
def sdkCall {α : Type} (failed : Exc → Exc) : Relay α → Relay α
  | .pure r => .op .sdkWait fun
    | none => .pure (r.mapError failed)
    | some e => .pure (.error e)
  | .op o k => .op .sdkWait fun
    | none => .op o fun r => sdkCall failed (k r)
    | some e => .pure (.error e)
  | .stuck => .op .sdkWait fun
    | none => .stuck
    | some e => .pure (.error e)

/-- `with dataset_submission_lock(dataset_ref)`. -/
def withDatasetLock {α : Type} (datasetRef : String) (body : Relay α) : Relay α := do
  call (.lockDataset datasetRef)
  let r ← Eff.attempt body
  unlockDataset datasetRef
  Eff.lift r

end Relay

end KaggleRelay

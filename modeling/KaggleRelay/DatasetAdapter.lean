/-
The adapter's Dataset operations: uploading a directory at most once, verifying
the bytes of an exact version, and waiting until they verify.

`uploadDataset` and `verifyDatasetContent` run in a process of their own, which
the relay's thread may stop at any point.
-/
import KaggleRelay.DatasetWait

namespace KaggleRelay

open Effects JsonText

namespace Relay

variable (s : Settings)

/-- `dataset_ref.split("/")[0]`. -/
def refOwner (datasetRef : String) : String := (Text.split datasetRef '/').headD ""

/-- `intent_path(storage_dir, dataset_dir, dataset_ref)`; directories are
absolute paths here. -/
def intentPath (datasetDir datasetRef : String) : String :=
  s.storageDir ++ "/dataset_upload_intents/" ++
    s.lib.sha256Text (dumps .compact (.arr [.str datasetRef, .str datasetDir])) ++ ".json"

/-! ### Uploading -/

/-- The next version number of an existing Dataset, the first one of a new. -/
def expectedVersion (datasetRef : String) (existing : Bool) : Relay ℤ :=
  if existing then do
    let current ← call (.datasetVersionNumber datasetRef)
    Eff.raiseIf (current ≤ 0)
      (.adapterError ("Kaggle did not return a valid current Dataset version for " ++ datasetRef))
    pure (current + 1)
  else pure 1

/-- The response to a create or version call, and the intent's outcome. -/
def settleUpload (path : String) (intent : Intent) (response : MutationResponse) : Relay Unit := do
  Eff.raiseIf (response.known = false)
    (.uploadUnknown "Dataset response missing; original candidate retained")
  if response.error.isSome ∨ (response.status ≠ "" ∧ response.status ∉ ["ok", "ready", "complete"]) then do
    writeIntent path { intent with state := .rejected }
    Eff.throw (.adapterError ("Dataset business response rejected: " ++
      s.redactSecrets (response.error.getD response.status)))
  else do
    let digest ← contentDigest intent.datasetDir
    Eff.raiseIf (digest ≠ intent.contentSha256)
      (.uploadUnknown "Dataset source changed after upload; original candidate retained")
    writeIntent path { intent with state := .accepted }

/-- The part of `upload_dataset` for a scope without an intent. -/
def submitDataset (datasetDir datasetRef digest : String) : Relay DatasetUploadReceipt := do
  call (.authenticate (refOwner datasetRef))
  call .checkDownloadSupport
  call (.checkMetadataId datasetDir datasetRef)
  let existing ← call (.ownedDatasetExists datasetRef)
  let version ← expectedVersion datasetRef existing
  let operation := if existing then UploadOperation.version else .create
  let intent : Intent := ⟨datasetRef, datasetDir, digest, version, operation, .unknown⟩
  -- recorded durably before the remote mutation; a failure here never uploads
  writeIntent (intentPath s datasetDir datasetRef) intent
  let response ← Eff.tryCatch (mutateDataset operation datasetDir datasetRef) fun _ =>
    Eff.throw (.uploadUnknown "Dataset upload outcome unknown; original candidate retained")
  settleUpload s (intentPath s datasetDir datasetRef) intent response
  pure ⟨version, datasetDir, digest⟩

/-- `upload_dataset`, inside its process. -/
def uploadDatasetInProcess (datasetDir datasetRef : String) : Relay DatasetUploadReceipt := do
  call .checkInterrupted
  call (.uploadInventory datasetDir)
  let digest ← contentDigest datasetDir
  match ← readIntent (intentPath s datasetDir datasetRef) with
  | some intent =>
    Eff.raiseIf (intent.datasetRef ≠ datasetRef ∨ intent.contentSha256 ≠ digest ∨
        intent.datasetDir ≠ datasetDir)
      (.adapterError "upload_intent_scope_or_content_mismatch")
    Eff.raiseIf (intent.state = .rejected)
      (.adapterError "Dataset upload was rejected; retained original intent")
    call (.requireIdentity (refOwner datasetRef))
    pure ⟨intent.versionNumber, datasetDir, digest⟩
  | none => submitDataset s datasetDir datasetRef digest

/-- What a failed SDK process makes the parent raise. -/
def sdkFailed (e : Exc) : Exc :=
  .adapterError ("Kaggle command failed: 1\nKaggle SDK operation failed: " ++ s.redactSecrets e.text)

/-- The SDK process of `upload_dataset`, which prints what the operation returns. -/
def uploadProcess (datasetDir datasetRef : String) : Relay DatasetUploadReceipt := do
  let receipt ← uploadDatasetInProcess s datasetDir datasetRef
  printReceipt datasetRef receipt
  pure receipt

/-- `upload_dataset`. -/
def uploadDataset (datasetDir datasetRef : String) : Relay DatasetUploadReceipt :=
  sdkCall (sdkFailed s) (uploadProcess s datasetDir datasetRef)

/-! ### Verifying -/

/-- The content check of `verify_dataset_content`: the version's archive, or its
files one by one where the archive has no URL. -/
def verifyContent (receipt : DatasetUploadReceipt) (datasetRef : String) (background : Bool) :
    Relay (Option String) := do
  let available ← call (.downloadArchive datasetRef receipt.expectedVersionNumber)
  if available then do
    call (.verifyUploadArchive receipt.datasetDir)
    pure none
  else do
    let b : Binding :=
      ⟨datasetRef, receipt.expectedVersionNumber, receipt.datasetDir, receipt.contentSha256⟩
    let scope ← (ofVerify (verifyVersionFiles s.lib b background) : Relay String)
    pure (some scope)

/-- `verify_dataset_content`, inside its process. -/
def verifyDatasetContentInProcess (receipt : DatasetUploadReceipt) (datasetRef : String)
    (background : Bool) : Relay Unit := do
  Eff.raiseIf (receipt.expectedVersionNumber ≤ 0)
    (.adapterError "Dataset exact version must be a positive integer")
  let before ← contentDigest receipt.datasetDir
  Eff.raiseIf (before ≠ receipt.contentSha256) (.adapterError "Dataset frozen content changed")
  call (.authenticate (refOwner datasetRef))
  let scope ← verifyContent s receipt datasetRef background
  let after ← contentDigest receipt.datasetDir
  Eff.raiseIf (after ≠ receipt.contentSha256)
    (.adapterError "Dataset frozen content changed during verification")
  (ofVerify Verify.check : Relay Unit)
  match scope with
  | some scope => (ofVerify (Verify.markComplete scope) : Relay Unit)
  | none => pure ()

/-- The structured error of a failed verification process. -/
def verificationFailed (e : Exc) : Exc :=
  let failure := verificationError e
  .verification (s.redactSecrets e.text) failure.category failure.httpStatus failure.retryAfter

/-- `verify_dataset_content`. -/
def verifyDatasetContent (receipt : DatasetUploadReceipt) (datasetRef : String)
    (background : Bool) : Relay Unit :=
  sdkCall (verificationFailed s) (verifyDatasetContentInProcess s receipt datasetRef background)

/-! ### Waiting -/

/-- The loop of `wait_dataset` with the operations of the relay.  The jitter
comes from the clock's answer, and a sleep ends where the adapter is interrupted. -/
def waitActions (cancelCheck : Relay Unit) : WaitActions RelaySig where
  monotonic := monotonic
  uniform := monotonic
  turns := turns
  checkInterrupted := call .checkInterrupted
  cancelCheck := cancelCheck
  sleep _ := call .checkInterrupted
  verifyDatasetContent args := verifyDatasetContent s args.receipt args.datasetRef args.background
  contentSeconds := contentSeconds

/-- `wait_dataset` with an upload receipt, the only way `process_job` calls it. -/
def waitDataset (cancelCheck : Relay Unit) (datasetRef : String) (receipt : DatasetUploadReceipt)
    (background : Bool) : Relay String :=
  (waitActions s cancelCheck).waitDataset s.redactSecrets s.datasetPollSeconds
    s.datasetStatusPermissionGraceSeconds s.datasetStatusPermissionGraceSeconds datasetRef receipt
    background

end Relay

end KaggleRelay

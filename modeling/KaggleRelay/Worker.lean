/-
The worker: `process_job` and `finish_kernel_job`.

`processJob` gets a job's Dataset onto Kaggle, or finds it there, pushes the
kernel and hands over to `finishKernelJob`, which waits for it and fetches its
output.  Its handlers decide whether a failure ends the job or parks it for a
recheck of the same upload.
-/
import KaggleRelay.DatasetAdapter
import KaggleRelay.KernelMetadata

namespace KaggleRelay

open Effects JsonText

namespace Relay

variable (s : Settings)

/-! ### The Dataset cache -/

/-- `get_ready_dataset_cache`; every row is `ready`. -/
def getReadyDatasetCache (datasetRef payloadHash keyId : String) : Relay (Option DatasetCache) :=
  if payloadHash = "" then pure none
  else do
    match ← getCurrentDatasetCache datasetRef keyId with
    | some cache =>
      if cache.payloadHash = payloadHash ∧ (s.readyDatasetVersion cache.datasetStatus).isSome then
        pure (some cache)
      else pure none
    | none =>
      match ← getCurrentLastDatasetJob datasetRef keyId with
      | some last =>
        if last.payloadHash = payloadHash ∧ (s.readyDatasetVersion last.datasetStatus).isSome then do
          upsertDatasetCache ⟨keyId, datasetRef, payloadHash, last.datasetStatus, last.jobId⟩
          getDatasetCache datasetRef payloadHash keyId
        else pure none
      | none => pure none

/-! ### Finishing a pushed kernel -/

/-- `"kernel_status" in values and ignore_startup_progress(current, ...)`. -/
def ignoresProgress (current : Job) (values : JobValues) : Except Exc Bool :=
  match values.kernelStatus with
  | none => .ok false
  | some data => (s.ignoreStartupProgress current data).mapError .typeError

/-- `update_finish_status`, with the attempts it has left. -/
def updateFinishStatus (id : JobId) (running : Status) (valuesForJob : Job → JobValues) :
    ℕ → Relay (Option Job)
  | 0 => Eff.throw (.runtimeError ("job " ++ id ++ " status changed repeatedly during " ++
      running.text ++ " transition"))
  | attempts + 1 => do
    match ← getJob id with
    | none => pure none
    | some current =>
      let values := valuesForJob current
      if current.status.terminal then pure (some current)
      else do
        let ignored ← Eff.lift (ignoresProgress s current values)
        if ignored then pure (some current)
        else do
          let status := if jobCancelRequested current then .cancelRequested else running
          let updated ← updateJobIfStatus id [current.status] false
            (values.kernelStatus.map fun _ => current.kernelStatus) { values with status := some status }
          if updated then getJob id
          else updateFinishStatus id running valuesForJob attempts

/-- `int(q)`. -/
def truncate (q : ℚ) : ℤ := q.num.tdiv q.den

/-- `progress_callback`. -/
def reportProgress (id : JobId) (remoteProgress : ℚ) (data : String) : Relay Unit := do
  let _ ← updateFinishStatus s id .waitingKernel
    (fun current =>
      { progress := some (max current.progress (min 80 (60 + truncate (remoteProgress / 100 * 20))))
        kernelStatus := some data }) 5

/-- `wait_kernel`. -/
def waitKernel (id : JobId) (kernelRef : String) : ℕ → Relay String
  | 0 => Eff.hang
  | turns + 1 => do
    match ← call (.pollKernel kernelRef) with
    | none => waitKernel id kernelRef turns
    | some observed => do
      match observed.progress with
      | some (remoteProgress, data) => reportProgress s id remoteProgress data
      | none => pure ()
      match observed.finished with
      | some true => pure observed.output
      | some false => Eff.throw (.adapterError ("Kernel failed:\n" ++ observed.output))
      | none => waitKernel id kernelRef turns

/-- The error of a job whose kernel could not be observed to its end. -/
def kernelStatusUnknown (e : Exc) : String := "kernel_status_unknown: " ++ s.redactSecrets e.text

/-- The handler of `finish_kernel_job` around `wait_kernel`. -/
def kernelWaitFailed (id : JobId) (e : Exc) : Relay String := do
  if e.cls = .kernelStatusUnavailable then do
    let current ← getJob id
    if current.any (·.status.terminal) then Eff.throw e
    else do
      updateJob id { error := some (kernelStatusUnknown s e) }
      Eff.throw e
  else Eff.throw e

/-- `str(job.get("artifact_contract") or "yolo")`. -/
def contractOf (job : Job) : String := if job.artifactContract = "" then "yolo" else job.artifactContract

/-- `finish_kernel_job`. -/
def finishKernelJob (id : JobId) (finalStatus : Option Status) : Relay Unit := do
  let current ← updateFinishStatus s id .waitingKernel
    (fun job => { progress := some (max job.progress 60), error := some "" }) 5
  let kernelRef := (current.map (·.kernelRef)).getD ""
  Eff.raiseIf (kernelRef = "") (.runtimeError ("job " ++ id ++ " is missing kernel_ref"))
  let turns ← turns
  let kernelStatus ← Eff.tryCatch (waitKernel s id kernelRef turns) (kernelWaitFailed s id)
  let current ← getJob id
  updateJob id
    { kernelStatus := some kernelStatus
      progress := some (max ((current.map (·.progress)).getD 0) 82) }
  let current ← updateFinishStatus s id .downloadingOutput
    (fun job => { progress := some (max job.progress 85) }) 5
  let contract := (current.map contractOf).getD "yolo"
  call (.downloadOutput kernelRef contract)
  call (.packageArtifacts id contract)
  let _ ← finalizeJob id (finalStatus.getD .complete)
    { progress := some 100, artifactPath := some (s.artifactZip id), error := some "" }

/-- `resume_kernel_job`. -/
def resumeKernelJob (id : JobId) (finalStatus : Option Status) : Relay Unit := do
  match ← getJob id with
  | none => pure ()
  | some job => do
    let _ ← call (.credentialsFor job.kaggleKeyId)
    finishKernelJob s id finalStatus

/-! ### The steps of `process_job` -/

/-- `latest_job`. -/
def latestJob (id : JobId) (job : Job) : Relay Job := do
  let current ← getJob id
  pure (current.getD job)

/-- `stop_if_cancel_requested`. -/
def stopIfCancelRequested (id : JobId) (job : Job) : Relay Unit := do
  let current ← latestJob id job
  Eff.raiseIf (jobCancelRequested current = true)
    (.jobCanceled "canceled before Kaggle kernel submission")

/-- `transition_before_submission`. -/
def transitionBeforeSubmission (id : JobId) (job : Job) (expected : List Status) (status : Status)
    (progress : ℚ) : Relay Unit := do
  let updated ← updateJobIfStatus id expected true none
    { status := some status, progress := some progress }
  if updated then pure ()
  else do
    stopIfCancelRequested id job
    let current ← latestJob id job
    Eff.throw (.runtimeError ("job " ++ id ++ " changed to " ++ current.status.text ++ " before " ++
      status.text ++ " transition"))

/-- An automatic recheck needs the intent of this very payload. -/
def checkRetained (id : JobId) (job : Job) (saved : Option Intent) : Relay Intent := do
  let mismatch : Exc :=
    .valueError "upload_intent_scope_or_content_mismatch: automatic recheck cannot upload"
  match saved with
  | none => Eff.throw mismatch
  | some intent => do
    Eff.raiseIf (intent.state = .rejected ∨ intent.datasetRef ≠ job.datasetRef ∨
      intent.datasetDir ≠ s.datasetDir id) mismatch
    let digest ← contentDigest (s.datasetDir id)
    Eff.raiseIf (intent.contentSha256 ≠ digest) mismatch
    pure intent

/-- The branch of a cache hit: the bytes of the cached version are verified
against the directory they came from. -/
def reuseDataset (id : JobId) (job : Job) (username : String) (cache : DatasetCache) :
    Relay Unit := do
  let own ← isDir (s.datasetDir id)
  let cachedSource := if own then s.datasetDir id else s.datasetDir cache.sourceJobId
  let there ← isDir cachedSource
  Eff.raiseIf (there = false) (.valueError "Cached Dataset source unavailable for byte verification")
  validateKernelPayload s (s.kernelDir id) job.kernelRef username job.datasetRef
  let digest ← contentDigest cachedSource
  match s.readyDatasetVersion cache.datasetStatus with
  | none =>
    Eff.throw (.adapterError "Dataset upload receipt is missing the expected version number")
  | some version => do
    let datasetStatus ← waitDataset s (stopIfCancelRequested id job) job.datasetRef
      ⟨version, cachedSource, digest⟩ false
    pinKernelDatasetVersion s (s.kernelDir id) job.datasetRef version
    updateJob id { datasetStatus := some datasetStatus, progress := some 40 }

/-- The receipt of the retained candidate, or of an upload. -/
def datasetReceipt (id : JobId) (job : Job) : Option Intent → Relay DatasetUploadReceipt
  | some retained => do
    transitionBeforeSubmission id job [.queued] .waitingDataset 35
    pure ⟨retained.versionNumber, s.datasetDir id, retained.contentSha256⟩
  | none => do
    transitionBeforeSubmission id job [.queued, .uploadingDataset, .waitingDataset]
      .uploadingDataset 20
    let receipt ← uploadDataset s (s.datasetDir id) job.datasetRef
    transitionBeforeSubmission id job [.uploadingDataset] .waitingDataset 35
    pure receipt

/-- A version that has been verified is pinned and remembered. -/
def recordDataset (id : JobId) (job : Job) (datasetStatus : String) : Relay Unit := do
  match s.readyDatasetVersion datasetStatus with
  | none => Eff.throw (.adapterError "Dataset wait completed without a verified version number")
  | some version => do
    pinKernelDatasetVersion s (s.kernelDir id) job.datasetRef version
    if s.isReadyDatasetStatus datasetStatus then do
      upsertDatasetCache ⟨job.kaggleKeyId, job.datasetRef, job.payloadHash, datasetStatus, id⟩
      upsertLastDatasetJob ⟨job.kaggleKeyId, job.datasetRef, job.payloadHash, datasetStatus, id⟩
    else pure ()

/-- The branch without a cache hit: upload, or take up the retained candidate. -/
def provideDataset (id : JobId) (job : Job) (username : String) (retained : Option Intent) :
    Relay Unit := do
  stopIfCancelRequested id job
  validatePayloads s (s.datasetDir id) (s.kernelDir id) job.datasetRef job.kernelRef username
  let receipt ← datasetReceipt s id job retained
  let datasetStatus ← waitDataset s (stopIfCancelRequested id job) job.datasetRef receipt
    retained.isSome
  updateJob id
    { datasetStatus := some datasetStatus, progress := some 40, datasetRecheckState := some .none
      datasetRecheckAt := some none, queueReason := some "", error := some "" }
  stopIfCancelRequested id job
  recordDataset s id job datasetStatus

/-- The candidate that an automatic recheck takes up. -/
def retainedCandidate (id : JobId) (job : Job) (retainedCandidateOnly : Bool)
    (saved : Option Intent) : Relay (Option Intent) :=
  if retainedCandidateOnly then some <$> checkRetained s id job saved else pure none

/-- Get the Dataset ready; a saved intent goes before any cache. -/
def prepareDataset (id : JobId) (job : Job) (username : String) (saved : Option Intent)
    (cache : Option DatasetCache) (retained : Option Intent) : Relay Unit :=
  match saved, cache with
  | none, some cache => reuseDataset s id job username cache
  | _, _ => provideDataset s id job username retained

/-- The body under the lock of the Dataset, up to the push. -/
def submitKernel (id : JobId) (job : Job) (username : String) (retainedCandidateOnly : Bool) :
    Relay Unit := do
  stopIfCancelRequested id job
  Eff.raiseIf (refOwner job.kernelRef ≠ refOwner job.datasetRef)
    (.valueError "Dataset and Kernel owner binding mismatch")
  call (.requireIdentity (refOwner job.datasetRef))
  let cache ← getReadyDatasetCache s job.datasetRef job.payloadHash job.kaggleKeyId
  let saved ← readIntent (intentPath s (s.datasetDir id) job.datasetRef)
  let retained ← retainedCandidate s id job retainedCandidateOnly saved
  prepareDataset s id job username saved cache retained
  call (.applyPolicies (s.kernelDir id) (contractOf job))
  transitionBeforeSubmission id job [.queued, .waitingDataset] .pushingKernel 45
  pushKernel id (s.kernelDir id)

/-- The `try` block of `process_job`. -/
def runJob (id : JobId) (job : Job) (retainedCandidateOnly : Bool) : Relay Unit := do
  let username ← call (.credentialsFor job.kaggleKeyId)
  call (.validateTrainingRequest (s.kernelDir id) (contractOf job))
  withDatasetLock job.datasetRef (submitKernel s id job username retainedCandidateOnly)
  finishKernelJob s id none

/-! ### The handlers of `process_job` -/

def recheckInitialSeconds : ℚ := 300
def recheckMaxSeconds : ℚ := 1800
def recheckWindowSeconds : ℚ := 24 * 3600

/-- `retryable_verification`. -/
def retryableVerification (e : Exc) : Bool :=
  let failure := verificationError e
  [.publication, .transport, .progress].contains failure.category ||
    (failure.category == .http && retriedHttpStatus failure.httpStatus)

/-- `schedule_recheck`. -/
def scheduleRecheck (id : JobId) (retryAfter now? : Option ℚ) (progress : Bool) : Relay Unit := do
  let now ← match now? with
    | some t => pure t
    | none => now
  match ← getJob id with
  | none => pure ()
  | some job =>
    if job.status ≠ .waitingDataset ∨ job.cancelRequestedAt.isSome then pure ()
    else do
      let started := (job.datasetRecheckStartedAt.filter (· ≠ 0)).getD now
      let delay := max (retryAfter.getD 0) (if progress then progressRecheckSeconds
        else min recheckMaxSeconds (recheckInitialSeconds * 2 ^ min job.datasetRecheckFailures 4))
      let due := now + delay
      let exhausted := started + recheckWindowSeconds ≤ due
      let message := if exhausted then
          "Dataset automatic recheck window exhausted; original version retained; manual recovery required"
        else "Dataset automatic recheck scheduled at " ++ s.isoformat due ++ " (in " ++
          s.wholeSeconds delay ++ "s); original version retained, no reupload"
      let _ ← updateJobIfStatus id [.waitingDataset] true none
        { datasetRecheckStartedAt := some (some started)
          datasetRecheckState := some (if exhausted then .exhausted else .scheduled)
          datasetRecheckFailures := some (if progress then 0 else job.datasetRecheckFailures + 1)
          datasetRecheckAt := some (if exhausted then none else some due)
          queueReason := some message }

/-- `block_recheck`. -/
def blockRecheck (id : JobId) (reason : String) : Relay Unit := do
  let _ ← updateJobIfStatus id [.waitingDataset] true none
    { datasetRecheckState := some .blocked, datasetRecheckAt := some none
      queueReason := some
        ("Dataset automatic recheck blocked; manual inspection required: " ++ reason) }

/-- `integrity_failure`: the payload itself is wrong. -/
def integrityFailure (e : Exc) : Bool :=
  let mentioned := ["payload_", "identity rejected", "intent_scope_or_content_mismatch",
    "frozen content changed"].any (Text.isIn · e.text)
  match e.cls with
  | .datasetVerificationError category _ _ =>
    category == .integrity || (category == .fatal && mentioned)
  | _ => mentioned

/-- `RETAINED_PREFIX`. -/
def retainedPrefix : String := "dataset_upload_outcome_unknown:"

/-- The error of a job that is parked with its upload. -/
def uploadRetained (e : Exc) : String :=
  retainedPrefix ++ " original candidate retained; " ++ s.redactSecrets e.text

/-- A failure that leaves the upload's outcome open parks the job. -/
def parkJob (id : JobId) (e : Exc) : Relay Unit := do
  updateJob id { status := some .waitingDataset, error := some (uploadRetained s e) }
  if integrityFailure e = false ∧ (retryableVerification e ∨ e.cls = .datasetUploadUnknown) then
    let failure := verificationError e
    scheduleRecheck s id failure.retryAfter none (failure.category == .progress)
  else blockRecheck id "failure is not a transient publication or transport error"

/-- Any other failure ends it. -/
def failJob (id : JobId) (current : Job) (e : Exc) : Relay Unit := do
  let structured := s.structuredKernelFailureError current.kernelStatus
  let message := if structured = "" then e.text else structured
  let _ ← finalizeJob id .failed { progress := some 0, error := some (s.redactSecrets message) }

/-- The intent the handler finds; an unreadable one counts as none. -/
def intentForRecovery (id : JobId) (datasetRef : String) : Relay (Option Intent) :=
  Eff.tryCatch (readIntent (intentPath s (s.datasetDir id) datasetRef)) fun e =>
    if e.cls = .osError ∨ e.isValueError = true then pure none else Eff.throw e

/-- `except Exception` of `process_job`. -/
def handleFailure (id : JobId) (job : Job) (e : Exc) : Relay Unit := do
  let current ← latestJob id job
  if current.status ∈ [.uploadingDataset, .waitingDataset] then do
    let intent ← intentForRecovery s id job.datasetRef
    let retained := intent.any fun intent =>
      intent.state = .unknown ∨ (intent.state = .accepted ∧ integrityFailure e = false)
    if retained then parkJob s id e else failJob s id current e
  else failJob s id current e

/-- `except JobCanceled` of `process_job`. -/
def handleCanceled (id : JobId) (job : Job) (e : Exc) : Relay Unit := do
  let reason ← if e.text ≠ "" then pure e.text
    else do
      let current ← latestJob id job
      pure (if current.cancelReason = "" then "cancel requested" else current.cancelReason)
  let _ ← finalizeJob id .canceled { error := some (s.redactSecrets reason) }

/-- The handlers of `process_job`; the first two only log. -/
def handleException (id : JobId) (job : Job) (e : Exc) : Relay Unit :=
  match e.cls with
  | .kernelStatusUnavailable | .kaggleAdapterInterrupted => pure ()
  | .jobCanceled => handleCanceled s id job e
  | _ => handleFailure s id job e

/-- `process_job`. -/
def processJob (id : JobId) (retainedCandidateOnly : Bool) : Relay Unit := do
  match ← getJob id with
  | none => pure ()
  | some job => Eff.tryCatch (runJob s id job retainedCandidateOnly) (handleException s id job)

/-- `recheck_dataset_job`. -/
def recheckDatasetJob (id : JobId) : Relay Unit := processJob s id true

end Relay

end KaggleRelay

/-
The service around the worker: the endpoints, the schedulers, retention and
the recovery after a restart.

Each is a program for one job.  Between two `await`s a coroutine runs alone on
the event loop, so a test of the active jobs, or a write of the row, and the
`put_nowait` behind it are one operation.
-/
import KaggleRelay.Worker

namespace KaggleRelay

open Effects JsonText

namespace Relay

variable (s : Settings)

/-- `get_authorized_job`. -/
def getAuthorizedJob (id : JobId) (authorized : Bool) : Relay Job := do
  match ← getJob id with
  | some job => if authorized then pure job else Eff.throw (.http 404 "job not found")
  | none => Eff.throw (.http 404 "job not found")

/-! ### Cancelling -/

/-- `request_job_cancel`, with the attempts it has left. -/
def requestJobCancel (id : JobId) : ℕ → Job → Relay Unit
  | 0, _ => Eff.throw (.http 409 "job status changed; retry cancellation")
  | attempts + 1, job =>
    if job.status ∈ [.complete, .failed] then
      Eff.throw (.http 409 ("job is already " ++ job.status.text))
    else if job.status ∈ [.cancelRequested, .canceled] then pure ()
    else do
      let stamp ← now
      let updated ← updateJobIfStatus id [job.status] false none (cancelValues stamp job.status)
      if updated then pure ()
      else
        match ← getJob id with
        | none => Eff.throw (.http 404 "job not found")
        | some job => requestJobCancel id attempts job

/-- `cancel_job`. -/
def cancelJob (id : JobId) (authorized : Bool) : Relay Unit := do
  let job ← getAuthorizedJob id authorized
  requestJobCancel id 5 job

/-! ### Progress callbacks -/

/-- What a progress callback says. -/
structure ProgressRequest where
  /-- A startup event that does not parse. -/
  invalidStartup : Bool
  /-- A training stop; only the stop details record it. -/
  trainingStop : Bool
  /-- The data as it is stored, with the references of the job. -/
  data : Job → String
  message : String
  /-- `progress_from_callback`. -/
  progress : Job → ℚ

/-- The loop of `apply_progress_callback`, with the attempts it has left. -/
def storeProgress (id : JobId) (data : String) (payload : ProgressRequest) : ℕ → Relay Unit
  | 0 => Eff.throw (.runtimeError "job status changed repeatedly while applying progress callback")
  | attempts + 1 => do
    match ← getJob id with
    | none => pure ()
    | some current => do
      let ignored ← Eff.lift ((s.ignoreStartupProgress current data).mapError .typeError)
      if ignored then pure ()
      else do
        let status := if current.status.terminal then none
          else some (if current.cancelRequestedAt.isSome then Status.cancelRequested else .waitingKernel)
        let updated ← updateJobIfStatus id [current.status] false (some current.kernelStatus)
          { status, kernelStatus := some data, kaggleOutput := some payload.message
            progress := some (payload.progress current) }
        if updated then pure () else storeProgress id data payload attempts

/-- `apply_progress_callback`. -/
def applyProgressCallback (id : JobId) (job : Job) (payload : ProgressRequest) : Relay Unit := do
  Eff.raiseIf (job.schedulingMode = .dynamic ∧
      (awaitingAssignment job = true ∨ job.status ∈ [.receiving, .assembling, .queued]))
    (.http 409 "job has not been submitted to Kaggle")
  Eff.raiseIf (payload.invalidStartup = true) (.http 422 "invalid startup progress")
  if payload.trainingStop then pure ()
  else storeProgress s id (payload.data job) payload 5

/-- `update_job_progress`. -/
def updateJobProgress (id : JobId) (authorized : Bool) (payload : ProgressRequest) : Relay Unit := do
  match ← getJob id with
  | none => Eff.throw (.http 404 "job not found")
  | some job => do
    Eff.raiseIf (authorized = false) (.http 401 "unauthorized")
    applyProgressCallback s id job payload

/-! ### Retention -/

/-- `expire_receiving_upload`. -/
def expireReceivingUpload (id : JobId) (job : Job) : Relay String := do
  let t ← now
  if job.status ≠ .receiving ∨ t < job.createdAt + s.receivingTimeoutHours * 3600 then pure ""
  else do
    let error := "upload timed out: incomplete after " ++ toString s.receivingTimeoutHours ++
      " hours from job creation; submit a new job"
    let updated ← updateJobIfStatus id [.receiving] false none
      { status := some .failed, error := some error, cleanupDueAt := some (some t) }
    pure (if updated then error else "")

/-- `reject_expired_upload`. -/
def rejectExpiredUpload (id : JobId) (job : Job) : Relay Unit := do
  let error ← expireReceivingUpload s id job
  Eff.raiseIf (error ≠ "") (.http 409 error)

/-- What an upload of a chunk does to the row's status. -/
def uploadChunk (id : JobId) (authorized : Bool) : Relay Unit := do
  let job ← getAuthorizedJob id authorized
  rejectExpiredUpload s id job

/-- `cleanup_expired_job`. -/
def cleanupExpiredJob (id : JobId) : Relay Unit := do
  match ← getJob id with
  | none => pure ()
  | some job =>
    if job.cleanedAt.isSome then pure ()
    else do
      removeFiles id
      let t ← now
      updateJob id
        { artifactPath := some "", kaggleOutput := some "expired by relay retention cleanup"
          cleanedAt := some (some t), cleanupDueAt := some none, reservedBytes := some 0 }

/-- One turn of `cleanup_expired_jobs`; `stale` says that the scan took the job
as a stale upload and not as a completed one. -/
def cleanupJob (id : JobId) (stale : Bool) (receivingCutoff : ℚ) : Relay Unit := do
  match ← getJob id with
  | none => pure ()
  | some job =>
    if job.cleanedAt.isSome then pure ()
    else do
      let timedOut ← expireReceivingUpload s id job
      let uploading ← isUploading id
      let active ← isActive id
      if uploading ∨ active then pure ()
      else if stale ∧ timedOut = "" then
        if job.status ≠ .receiving ∨ receivingCutoff ≤ job.uploadActivityAt then pure ()
        else do
          let t ← now
          let updated ← updateJobIfStatus id [.receiving] false none
            { status := some .failed, error := some "upload expired after inactivity"
              cleanupDueAt := some (some t) }
          if updated then cleanupExpiredJob id else pure ()
      else cleanupExpiredJob id

/-- `delete_job`. -/
def deleteJob (id : JobId) (authorized : Bool) : Relay Unit := do
  let job ← getAuthorizedJob id authorized
  Eff.raiseIf (¬(job.status.terminal = true ∨ job.status = .receiving))
    (.http 409 "cancel the active job before deleting it")
  let active ← isActive id
  Eff.raiseIf (active = true) (.http 409 "job worker is still active")
  let uploading ← isUploading id
  Eff.raiseIf (uploading = true) (.http 409 "job upload is still active")
  Eff.tryCatch (removeFiles id) fun _ =>
    Eff.throw (.http 503 "job cleanup failed; retry deletion")
  deleteJobRecord id

/-! ### Completing an upload -/

/-- `StorageBudget.reserve`. -/
def reserve (id : JobId) (needed : ℕ) : Relay Unit := do
  call (.checkFree needed)
  updateJob id { reservedBytes := some needed }

/-- The archives of `assemble_and_validate_job`, put together from their chunks. -/
def assembleArchives (id : JobId) (job : Job) (datasetCacheHit : Bool) : Relay Unit := do
  reserve id ((job.kernelSize + if datasetCacheHit then 0 else job.datasetSize) * 2)
  if datasetCacheHit then pure ()
  else do
    call (.assembleArchive id .dataset)
    consume id job.datasetSize
  call (.assembleArchive id .kernel)

/-- Its directories, extracted from the archives. -/
def extractArchives (id : JobId) (datasetCacheHit : Bool) : Relay Unit := do
  let kernelSize ← call (.unpackedSize id .kernel)
  let datasetSize ← if datasetCacheHit then pure 0 else call (.unpackedSize id .dataset)
  reserve id (kernelSize + datasetSize)
  call (.extractArchive id .kernel)
  if datasetCacheHit then pure () else call (.extractArchive id .dataset)
  consume id (kernelSize + datasetSize)

/-- `assemble_and_validate_job`. -/
def assembleAndValidateJob (id : JobId) (job : Job) : Relay Unit := do
  let username ← if awaitingAssignment job then pure "" else call (.credentialsFor job.kaggleKeyId)
  let cache ← getReadyDatasetCache s job.datasetRef job.payloadHash job.kaggleKeyId
  let datasetCacheHit := cache.isSome && !awaitingAssignment job
  assembleArchives id job datasetCacheHit
  extractArchives id datasetCacheHit
  if datasetCacheHit then
    validateKernelPayload s (s.kernelDir id) job.kernelRef username job.datasetRef
  else validatePayloads s (s.datasetDir id) (s.kernelDir id) job.datasetRef job.kernelRef username

/-- The archives the job has to bring are there. -/
def checkUploaded (id : JobId) (cacheHit : Bool) : Relay Unit := do
  let incomplete : Exc := .http 409 "upload incomplete; resume missing chunks"
  if cacheHit then pure ()
  else do
    let dataset ← archiveUploaded id .dataset
    Eff.raiseIf (dataset = false) incomplete
  let kernel ← archiveUploaded id .kernel
  Eff.raiseIf (kernel = false) incomplete

/-- `complete_job` once the row is `assembling`. -/
def finishAssembly (id : JobId) (job : Job) : Relay Unit := do
  match ← Eff.attempt (call .assemblySlot) with
  | .error e => do
    let _ ← updateJobIfStatus id [.assembling] false none { status := some .receiving }
    Eff.throw e
  | .ok _ =>
    match ← Eff.attempt (assembleAndValidateJob s id job) with
    | .error e =>
      if e.cls = .capacityError then do
        let _ ← updateJobIfStatus id [.assembling] false none
          { status := some .receiving, error := some e.text }
        Eff.throw (.http 503 e.text)
      else do
        let message := s.redactSecrets e.text
        let _ ← updateJobIfStatus id [.assembling] false none
          { status := some .failed, progress := some 0, error := some message }
        Eff.throw (.http 400 message)
    | .ok () => do
      let queueReason := if awaitingAssignment job then
          "waiting for an idle authorized account with GPU quota"
        else "waiting for an available worker"
      let _ ← updateJobIfStatusAndPut id [.assembling] false
        { status := some .queued, progress := some 15, queueReason := some queueReason
          error := some "" } (!awaitingAssignment job) .process

/-- `complete_job` on a receiving job. -/
def completeUpload (id : JobId) (job : Job) : Relay Unit := do
  let cache ← getReadyDatasetCache s job.datasetRef job.payloadHash job.kaggleKeyId
  checkUploaded id (cache.isSome && !awaitingAssignment job)
  let updated ← updateJobIfStatus id [.receiving] false none
    { status := some .assembling, progress := some 10 }
  if updated then finishAssembly s id job else pure ()

/-- `complete_job` on a job that is parked with its upload: a manual recheck. -/
def requestRecheck (id : JobId) (job : Job) (restartRecheck : Bool) : Relay Unit := do
  if job.datasetRecheckState ∈ [.scheduled, .checking] then pure ()
  else do
    Eff.raiseIf (job.datasetRecheckState = .blocked)
      (.http 409 "Dataset recovery requires explicit manual inspection")
    Eff.raiseIf (job.datasetRecheckState = .exhausted ∧ restartRecheck = false)
      (.http 409 "Dataset recheck window exhausted; explicit restart_recheck=true required")
    let intent ← Eff.tryCatch (readIntent (intentPath s (s.datasetDir id) job.datasetRef)) fun e =>
      if e.cls = .osError ∨ e.isValueError = true then
        Eff.throw (.http 409 "upload intent invalid; retained for review")
      else Eff.throw e
    Eff.raiseIf (intent.all (·.state = .rejected)) (.http 409 "original upload candidate unavailable")
    let t ← now
    let started := if restartRecheck then t
      else (job.datasetRecheckStartedAt.filter (· ≠ 0)).getD t
    let _ ← updateJobIfStatusAndPut id [.waitingDataset] true
      { status := some .queued, error := some "", datasetRecheckState := some .checking
        datasetRecheckAt := some none, datasetRecheckCount := some (job.datasetRecheckCount + 1)
        datasetRecheckFailures := some (if restartRecheck then 0 else job.datasetRecheckFailures)
        datasetRecheckStartedAt := some (some started) } true .recheckDataset

/-- `complete_job`. -/
def completeJob (id : JobId) (authorized restartRecheck : Bool) : Relay Unit := do
  let job ← getAuthorizedJob id authorized
  rejectExpiredUpload s id job
  if job.status ∈ [.waitingKernel, .cancelRequested] ∧
      Text.startswith job.error "kernel_status_unknown:" = true then
    resumeIfInactive id { error := some "" }
      (.resumeKernel (if job.cancelRequestedAt.isSome then some .canceled else none))
  else if job.status = .waitingDataset ∧ Text.startswith job.error retainedPrefix = true then
    requestRecheck s id job restartRecheck
  else if job.status ≠ .receiving then pure ()
  else completeUpload s id job

/-! ### The schedulers -/

/-- The intent is the job's own and open. -/
def intentValid (id : JobId) (job : Job) : Relay Bool := do
  let intent ← intentForRecovery s id job.datasetRef
  pure (intent.any fun intent => intent.state ≠ .rejected ∧ intent.datasetRef = job.datasetRef ∧
    intent.datasetDir = s.datasetDir id)

/-- A scheduled recheck that is due. -/
def startRecheck (id : JobId) (job : Job) (t : ℚ) : Relay Unit := do
  let cooldown ← call (.cooldownRemaining (refOwner job.datasetRef))
  if cooldown ≠ 0 then do
    let _ ← updateJobIfStatus id [.waitingDataset] true none
      { datasetRecheckAt := some (some (t + cooldown)) }
  else do
    let authorized ← call (.accountAuthorized id)
    if !authorized then
      blockRecheck id "original account is disabled or no longer authorized"
    else do
      let valid ← intentValid s id job
      if !valid then
        blockRecheck id "original upload intent is missing, invalid or rejected"
      else do
        let _ ← updateJobIfStatusAndPut id [.waitingDataset] true
          { status := some .queued, error := some "", datasetRecheckState := some .checking
            datasetRecheckAt := some none
            datasetRecheckCount := some (job.datasetRecheckCount + 1)
            queueReason := some "waiting for a Dataset recheck worker" } true .recheckDataset

/-- One turn of `schedule_dataset_rechecks`, of a pass that began at `t`. -/
def scheduleDatasetRecheck (id : JobId) (t : ℚ) : Relay Unit := do
  match ← getJob id with
  | none => pure ()
  | some job => do
    let active ← isActive id
    if job.status ≠ .waitingDataset ∨ active = true ∨ job.cancelRequestedAt.isSome ∨
        Text.startswith job.error retainedPrefix = false then pure ()
    else
      match job.datasetRecheckState, job.datasetRecheckAt with
      | .none, _ =>
        -- rows of older releases
        if Text.isIn "dataset_verification_retry_exhausted:" job.error ∨
            Text.isIn "payload_publication_timeout:" job.error then
          scheduleRecheck s id none (some t) false
        else blockRecheck id "previous failure is not a classified transient verification error"
      | .scheduled, some due =>
        if due = 0 ∨ t < due then pure ()
        else if job.datasetRecheckStartedAt.getD 0 + recheckWindowSeconds ≤ t then
          scheduleRecheck s id none (some t) false
        else startRecheck s id job t
      | _, _ => pure ()

/-- One turn of `schedule_pending_jobs`. -/
def schedulePendingJob (id : JobId) : Relay Unit := do
  match ← getJob id with
  | none => pure ()
  | some current =>
    if current.status ≠ .queued ∨ awaitingAssignment current = false then pure ()
    else
      match ← call (.chooseAccount id) with
      | .unauthorized => do
        let _ ← updateJobIfStatus id [.queued] false none
          { status := some .failed
            error := some "no originally allowed Kaggle account remains authorized" }
      | .wait reason => do
        let _ ← updateJobIfStatus id [.queued] false none { queueReason := some reason }
      | .account keyId username => do
        let datasetRef ← Eff.lift (rewriteRefOwner current.datasetRef username)
        let kernelRef ← Eff.lift (rewriteRefOwner current.kernelRef username)
        let _ ← updateJobIfStatusAndPut id [.queued] true
          { kaggleKeyId := some keyId, assignmentState := some .bound
            datasetRef := some datasetRef, kernelRef := some kernelRef
            queueReason := some "waiting for an available worker" } true .process

/-! ### Worker items -/

/-- `mark_worker_exception`. -/
def markWorkerException (id : JobId) (e : Exc) : Relay Unit := do
  let job ← getJob id
  if job.all (·.status.terminal) then pure ()
  else if e.cls = .kernelStatusUnavailable then
    updateJob id { error := some (kernelStatusUnknown s e) }
  else do
    let _ ← finalizeJob id .failed
      { progress := some 0, error := some (s.redactSecrets e.text) }

/-- The operation of `run_worker_item`. -/
def itemOperation (id : JobId) : QueueAction → Relay Unit
  | .process => processJob s id false
  | .recheckDataset => recheckDatasetJob s id
  | .resumeKernel finalStatus => resumeKernelJob s id finalStatus

/-- What `worker_loop` does for an item it has accepted. -/
def runWorkerItem (id : JobId) (action : QueueAction) : Relay Unit := do
  updateJob id { queueReason := some "" }
  Eff.tryCatch (itemOperation s id action) (markWorkerException s id)

/-! ### Recovery after a restart -/

/-- `not_found_error`. -/
def notFoundError (e : Exc) : Bool :=
  ["404", "not found", "no kernel", "not exist"].any (Text.isIn · (s.lib.lowerText e.text))

/-- `fail_recovered_job`. -/
def failRecoveredJob (id : JobId) (message : String) : Relay (Option QueueItem) := do
  updateJob id
    { status := some .failed, progress := some 0, error := some (s.redactSecrets message) }
  pure none

/-- `recover_job_after_restart` on `cancel_requested`. -/
def recoverCanceled (id : JobId) (job : Job) : Relay (Option QueueItem) := do
  let resume : QueueItem := ⟨.resumeKernel (some .canceled), id⟩
  let markCanceled : Relay (Option QueueItem) := do
    updateJob id
      { status := some .canceled
        error := some (if job.cancelReason = "" then "cancel requested" else job.cancelReason) }
    pure none
  let logged ← pushLogged id
  if 60 ≤ job.progress ∨ logged = true then pure (some resume)
  else if 45 ≤ job.progress then do
    let _ ← call (.credentialsFor job.kaggleKeyId)
    match ← Eff.attempt (call (.kernelStatus job.kernelRef)) with
    | .ok _ => pure (some resume)
    | .error e =>
      if notFoundError s e then markCanceled
      else
        failRecoveredJob s id
          ("restart after cancellation could not verify whether the kernel was submitted; " ++
            "inspect Kaggle before resubmitting: " ++ e.text)
  else markCanceled

/-- `recover_job_after_restart` on `pushing_kernel`. -/
def recoverPushing (id : JobId) (job : Job) : Relay (Option QueueItem) := do
  let _ ← call (.credentialsFor job.kaggleKeyId)
  match ← Eff.attempt (call (.kernelStatus job.kernelRef)) with
  | .ok _ => pure (some ⟨.resumeKernel none, id⟩)
  | .error e =>
    if notFoundError s e then
      failRecoveredJob s id
        "restart during kernel push before submission could be verified; resubmit job"
    else
      failRecoveredJob s id
        ("restart during kernel push and kernel status could not be verified; resubmit job: " ++
          e.text)

/-- The action a recovered job goes on with. -/
def recoveredAction (job : Job) : QueueAction :=
  if job.datasetRecheckState = .checking then .recheckDataset else .process

/-- `recover_job_after_restart` on `uploading_dataset` and `waiting_dataset`. -/
def recoverDataset (id : JobId) (job : Job) : Relay (Option QueueItem) := do
  if job.status = .waitingDataset ∧ job.datasetRecheckState ≠ .checking ∧
      (job.datasetRecheckState ≠ .none ∨ Text.startswith job.error retainedPrefix = true) then
    pure none
  else
    match ← Eff.attempt (readIntent (intentPath s (s.datasetDir id) job.datasetRef)) with
    | .error e =>
      if e.cls = .osError ∨ e.isValueError = true then
        failRecoveredJob s id ("upload intent invalid; original record retained: " ++ e.text)
      else Eff.throw e
    | .ok intent =>
      if intent.any (·.state ≠ .rejected) then do
        let updated ← updateJobIfStatus id [job.status] true none
          { status := some .queued, error := some "" }
        pure (if updated then some ⟨recoveredAction job, id⟩ else none)
      else failRecoveredJob s id ("restart during dataset upload/wait lost the exact uploaded version; " ++
        "resubmit job")

/-- `recover_job_after_restart` on `assembling`. -/
def recoverAssembling (id : JobId) (job : Job) : Relay (Option QueueItem) := do
  match ← Eff.attempt (assembleAndValidateJob s id job) with
  | .error e => failRecoveredJob s id (s.redactSecrets e.text)
  | .ok () => do
    updateJob id { status := some .queued, progress := some 15, error := some "" }
    pure (some ⟨.process, id⟩)

/-- `recover_job_after_restart`. -/
def recoverJobAfterRestart (id : JobId) (job : Job) : Relay (Option QueueItem) :=
  match job.status with
  | .queued => pure (some ⟨recoveredAction job, id⟩)
  | .waitingKernel | .downloadingOutput => pure (some ⟨.resumeKernel none, id⟩)
  | .cancelRequested => recoverCanceled s id job
  | .pushingKernel => recoverPushing s id job
  | .uploadingDataset | .waitingDataset => recoverDataset s id job
  | .assembling => recoverAssembling s id job
  | .receiving | .complete | .failed | .canceled => pure none

end Relay

end KaggleRelay

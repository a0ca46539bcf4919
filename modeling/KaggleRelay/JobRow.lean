/-
The `jobs` table, one row at a time.

A row is a `Job`; an UPDATE is a set of column values.  `updateJob`,
`updateJobIfStatus` and `finalizeJob` are the three ways in which the code
writes a row; a row on its way into a terminal status gets a completion time
and gives up its reservation.
-/
import Mathlib.Data.Rat.Defs
import KaggleRelay.Text

namespace KaggleRelay

/-- The statuses of a job. -/
inductive Status where
  | receiving | assembling | queued | uploadingDataset | waitingDataset | pushingKernel
  | waitingKernel | downloadingOutput | cancelRequested | complete | failed | canceled
  deriving DecidableEq, Repr

/-- The status as the database spells it. -/
def Status.text : Status → String
  | .receiving => "receiving"
  | .assembling => "assembling"
  | .queued => "queued"
  | .uploadingDataset => "uploading_dataset"
  | .waitingDataset => "waiting_dataset"
  | .pushingKernel => "pushing_kernel"
  | .waitingKernel => "waiting_kernel"
  | .downloadingOutput => "downloading_output"
  | .cancelRequested => "cancel_requested"
  | .complete => "complete"
  | .failed => "failed"
  | .canceled => "canceled"

/-- `TERMINAL_JOB_STATUSES`. -/
def Status.terminal : Status → Bool
  | .complete | .failed | .canceled => true
  | _ => false

/-- `scheduling_mode`. -/
inductive SchedulingMode where
  | fixed | dynamic
  deriving DecidableEq, Repr

/-- `assignment_state`. -/
inductive AssignmentState where
  | pending | bound
  deriving DecidableEq, Repr

/-- `dataset_recheck_state`; `none` is the empty text. -/
inductive RecheckState where
  | none | scheduled | checking | exhausted | blocked
  deriving DecidableEq, Repr

/-- `archive_type`. -/
inductive ArchiveType where
  | dataset | kernel
  deriving DecidableEq, Repr

/-- What a job declares at its creation; no UPDATE sets these columns. -/
structure Declared where
  datasetArchiveSha256 : String
  kernelArchiveSha256 : String
  datasetSize : ℕ
  kernelSize : ℕ
  chunkSize : ℕ
  /-- `Field(gt=0)`. -/
  chunkSize_pos : 0 < chunkSize
  payloadHash : String
  artifactContract : String
  relayTokenId : String
  schedulingMode : SchedulingMode
  createdAt : ℚ

/-- `job[f"{archive_type}_size"]`. -/
def Declared.size (d : Declared) : ArchiveType → ℕ
  | .dataset => d.datasetSize
  | .kernel => d.kernelSize

/-- `job[f"{archive_type}_archive_sha256"]`. -/
def Declared.archiveSha256 (d : Declared) : ArchiveType → String
  | .dataset => d.datasetArchiveSha256
  | .kernel => d.kernelArchiveSha256

/-- A row of `jobs`: the columns the modelled code reads or decides on. -/
structure Job extends Declared where
  datasetRef : String
  kernelRef : String
  kaggleKeyId : String
  assignmentState : AssignmentState
  status : Status
  progress : ℚ
  datasetStatus : String
  kernelStatus : String
  kaggleOutput : String
  error : String
  queueReason : String
  artifactPath : String
  cancelRequestedAt : Option ℚ
  cancelReason : String
  completedAt : Option ℚ
  reservedBytes : ℕ
  uploadActivityAt : ℚ
  datasetRecheckState : RecheckState
  datasetRecheckAt : Option ℚ
  datasetRecheckStartedAt : Option ℚ
  datasetRecheckFailures : ℕ
  datasetRecheckCount : ℕ
  cleanupDueAt : Option ℚ
  cleanedAt : Option ℚ

/-- The columns an UPDATE sets. -/
structure JobValues where
  datasetRef : Option String := none
  kernelRef : Option String := none
  kaggleKeyId : Option String := none
  assignmentState : Option AssignmentState := none
  status : Option Status := none
  progress : Option ℚ := none
  datasetStatus : Option String := none
  kernelStatus : Option String := none
  kaggleOutput : Option String := none
  error : Option String := none
  queueReason : Option String := none
  artifactPath : Option String := none
  cancelRequestedAt : Option (Option ℚ) := none
  cancelReason : Option String := none
  completedAt : Option (Option ℚ) := none
  reservedBytes : Option ℕ := none
  datasetRecheckState : Option RecheckState := none
  datasetRecheckAt : Option (Option ℚ) := none
  datasetRecheckStartedAt : Option (Option ℚ) := none
  datasetRecheckFailures : Option ℕ := none
  datasetRecheckCount : Option ℕ := none
  cleanupDueAt : Option (Option ℚ) := none
  cleanedAt : Option (Option ℚ) := none

/-- `UPDATE jobs SET …`. -/
def Job.set (job : Job) (values : JobValues) : Job :=
  { job with
    datasetRef := values.datasetRef.getD job.datasetRef
    kernelRef := values.kernelRef.getD job.kernelRef
    kaggleKeyId := values.kaggleKeyId.getD job.kaggleKeyId
    assignmentState := values.assignmentState.getD job.assignmentState
    status := values.status.getD job.status
    progress := values.progress.getD job.progress
    datasetStatus := values.datasetStatus.getD job.datasetStatus
    kernelStatus := values.kernelStatus.getD job.kernelStatus
    kaggleOutput := values.kaggleOutput.getD job.kaggleOutput
    error := values.error.getD job.error
    queueReason := values.queueReason.getD job.queueReason
    artifactPath := values.artifactPath.getD job.artifactPath
    cancelRequestedAt := values.cancelRequestedAt.getD job.cancelRequestedAt
    cancelReason := values.cancelReason.getD job.cancelReason
    completedAt := values.completedAt.getD job.completedAt
    reservedBytes := values.reservedBytes.getD job.reservedBytes
    datasetRecheckState := values.datasetRecheckState.getD job.datasetRecheckState
    datasetRecheckAt := values.datasetRecheckAt.getD job.datasetRecheckAt
    datasetRecheckStartedAt := values.datasetRecheckStartedAt.getD job.datasetRecheckStartedAt
    datasetRecheckFailures := values.datasetRecheckFailures.getD job.datasetRecheckFailures
    datasetRecheckCount := values.datasetRecheckCount.getD job.datasetRecheckCount
    cleanupDueAt := values.cleanupDueAt.getD job.cleanupDueAt
    cleanedAt := values.cleanedAt.getD job.cleanedAt }

/-- What `update_job` adds to values that end the job. -/
def JobValues.sealed (values : JobValues) (now : ℚ) : JobValues :=
  match values.status with
  | some s =>
    if s.terminal then
      { values with
        completedAt := some (values.completedAt.getD (some now))
        reservedBytes := some 0
        queueReason := some "" }
    else values
  | none => values

/-- `update_job(job_id, **values)` on its row. -/
def updateJob (now : ℚ) (values : JobValues) (job : Job) : Job := job.set (values.sealed now)

/-- `update_job_if_status(job_id, expected_statuses, …, **values)` on its row:
the new row where the WHERE clause holds. -/
def updateJobIfStatus (now : ℚ) (expected : List Status) (requireNotCanceled : Bool)
    (expectedKernelStatus : Option String) (values : JobValues) (job : Job) : Option Job :=
  if job.status ∈ expected ∧ (∀ k ∈ expectedKernelStatus, job.kernelStatus = k) ∧
      (requireNotCanceled = true → job.cancelRequestedAt = none) then
    some (job.set (values.sealed now))
  else none

/-- `finalize_job(job_id, preferred_status, **values)` on its row; a terminal
row stays as it is. -/
def finalizeJob (now : ℚ) (preferred : Status) (values : JobValues) (job : Job) : Job :=
  if job.status.terminal then job
  else
    job.set { values with
      status := some (if job.cancelRequestedAt.isSome ∨ job.status = .cancelRequested then .canceled
        else preferred)
      completedAt := some (some now)
      reservedBytes := some 0
      queueReason := some "" }

/-- `job_cancel_requested(job)`. -/
def jobCancelRequested (job : Job) : Bool :=
  job.cancelRequestedAt.isSome || job.status == .cancelRequested

/-- `awaiting_assignment(job)`. -/
def awaitingAssignment (job : Job) : Bool :=
  job.schedulingMode == .dynamic && job.assignmentState == .pending

/-- What `request_job_cancel` writes over a row in `status`. -/
def cancelValues (now : ℚ) (status : Status) : JobValues :=
  let updates : JobValues :=
    { cancelRequestedAt := some (some now), cancelReason := some "cancel requested", error := some "" }
  if status ∈ [.receiving, .assembling, .queued] then
    { updates with status := some .canceled, error := some "canceled before submission" }
  else { updates with status := some .cancelRequested }

/-! ### What the writers leave alone -/

section Columns

variable {job : Job} {values : JobValues} {now : ℚ}

@[simp] theorem set_toDeclared : (job.set values).toDeclared = job.toDeclared := rfl

@[simp] theorem updateJob_toDeclared : (updateJob now values job).toDeclared = job.toDeclared := rfl

@[simp] theorem set_status : (job.set values).status = values.status.getD job.status := rfl

@[simp] theorem sealed_status : (values.sealed now).status = values.status := by
  unfold JobValues.sealed
  cases hs : values.status with
  | none => exact hs
  | some s =>
    dsimp only
    split_ifs
    · rfl
    · exact hs

@[simp] theorem updateJob_status :
    (updateJob now values job).status = values.status.getD job.status := by
  rw [updateJob, set_status, sealed_status]

/-- A compare-and-set that succeeds has compared, and has set. -/
theorem updateJobIfStatus_some {expected : List Status} {nc : Bool} {ek : Option String} {job' : Job}
    (h : updateJobIfStatus now expected nc ek values job = some job') :
    job.status ∈ expected ∧ (∀ k ∈ ek, job.kernelStatus = k) ∧
      (nc = true → job.cancelRequestedAt = none) ∧ job' = updateJob now values job := by
  unfold updateJobIfStatus at h
  split_ifs at h with hc
  cases h
  exact ⟨hc.1, hc.2.1, hc.2.2, rfl⟩

end Columns

end KaggleRelay

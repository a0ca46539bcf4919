/-
The running relay.

Its state is the database, the upload intents and the directories, and in
memory the queue, the active tasks, the sections that hold a job's submission
lock, and everything else that runs without a lock.  One step is one operation
of one of the programs, with an answer for what comes from outside, or one
thing the event loop does in memory: take an item off the queue, let a worker
leave, begin a request.  A crash forgets the memory, and the recovery runs
before anything else does.

A coroutine has the event loop to itself until its next `await`, and threads
see only the database and the files; so what `worker_loop` does in memory right
after it has read a row happens in one step with that read.
-/
import KaggleRelay.Service

namespace KaggleRelay

open Effects

/-! ### The state -/

/-- What the relay has done, for the theorems about its runs to speak of. -/
inductive Event where
  /-- The row moved to `pushing_kernel`; its `cancel_requested_at` at that moment. -/
  | submitting (id : JobId) (cancelRequestedAt : Option ℚ)
  /-- `push_kernel` was called. -/
  | pushed (id : JobId)
  deriving DecidableEq, Repr

/-- A task of the worker loop: an id in `active_job_ids`. -/
structure Task where
  account : String
  action : QueueAction
  program : Relay Unit
  /-- It has parked the job, or has returned on noting that the end of the
  kernel is unknown: it will not set the job's status any more. -/
  gaveUp : Bool

/-- `recover_incomplete_jobs` on its way. -/
structure Recovery where
  /-- The rows of the scan that are still to be recovered. -/
  todo : List (JobId × Job)
  current : Option (Relay (Option QueueItem))
  items : List QueueItem

structure World where
  /-- The ids of all jobs ever created. -/
  ids : List JobId
  jobs : JobId → Option Job
  /-- The rows of `kaggle_dataset_cache`, the last updated first. -/
  caches : List DatasetCache
  /-- The rows of `kaggle_last_job`, the last updated first. -/
  lastJobs : List LastDatasetJob
  /-- The upload intents, by path. -/
  intents : String → Option Intent
  /-- The extracted directories that exist. -/
  dirs : String → Bool
  queue : List QueueItem
  /-- `account_pending`. -/
  pending : String → List QueueItem
  /-- `active_accounts`. -/
  accounts : String → ℕ
  active : JobId → Option Task
  /-- The sections that hold the jobs' submission locks. -/
  sections : JobId → Option (Relay Unit)
  /-- What runs without a lock: progress callbacks and the account scheduler. -/
  loose : List (Relay Unit)
  /-- The relay serves once the recovery is over. -/
  recovery : Option Recovery
  trace : List Event

/-- The answers an operation gets from outside. -/
structure Choice where
  answers : Answers
  /-- Whether an operation that fails has taken effect all the same. -/
  landed : Bool

namespace World

/-- A relay that has never had a job. -/
def empty : World where
  ids := []
  jobs _ := none
  caches := []
  lastJobs := []
  intents _ := none
  dirs _ := false
  queue := []
  pending _ := []
  accounts _ := 0
  active _ := none
  sections _ := none
  loose := []
  recovery := none
  trace := []

variable (s : Settings)

/-! ### Operations -/

/-- Change a job's row, where there is one. -/
def modifyJob (w : World) (id : JobId) (f : Job → Job) : World :=
  { w with jobs := Function.update w.jobs id ((w.jobs id).map f) }

/-- The events of a row's update. -/
def submission (id : JobId) (values : JobValues) (job : Job) : List Event :=
  if values.status = some .pushingKernel then [.submitting id job.cancelRequestedAt] else []

/-- `update_job_if_status`. -/
def updateIfStatus (w : World) (t : ℚ) (id : JobId) (expected : List Status)
    (requireNotCanceled : Bool) (expectedKernelStatus : Option String) (values : JobValues) :
    Option World :=
  (w.jobs id).bind fun job =>
    (updateJobIfStatus t expected requireNotCanceled expectedKernelStatus values job).map fun job' =>
      { w with
        jobs := Function.update w.jobs id (some job')
        trace := submission id values job ++ w.trace }

/-- `upsert_dataset_cache`. -/
def upsertCache (row : DatasetCache) (rows : List DatasetCache) : List DatasetCache :=
  if row.payloadHash = "" then rows
  else row :: rows.filter fun old =>
    !(old.kaggleKeyId == row.kaggleKeyId && old.datasetRef == row.datasetRef &&
      old.payloadHash == row.payloadHash)

/-- `upsert_last_dataset_job`. -/
def upsertLastJob (row : LastDatasetJob) (rows : List LastDatasetJob) : List LastDatasetJob :=
  if row.payloadHash = "" then rows
  else row :: rows.filter fun old =>
    !(old.kaggleKeyId == row.kaggleKeyId && old.datasetRef == row.datasetRef &&
      old.payloadHash == row.payloadHash)

/-- `delete_job_record`. -/
def deleteRecord (w : World) (id : JobId) : World :=
  { w with
    jobs := Function.update w.jobs id none
    lastJobs := w.lastJobs.filter (·.jobId != id)
    caches := w.caches.map fun row =>
      if row.sourceJobId = id then { row with sourceJobId := "" } else row }

/-- The directory an archive is extracted into. -/
def archiveDir (id : JobId) : ArchiveType → String
  | .dataset => s.datasetDir id
  | .kernel => s.kernelDir id

/-- A call of what is outside; some of them act on the directories. -/
def performCall (c : Choice) : (call : Call) → World → Except Exc call.Res × World
  | .requireFile dir name, w =>
    if w.dirs dir then (c.answers (.call (.requireFile dir name)), w)
    else (.error ⟨.archiveError, "required file missing: " ++ name⟩, w)
  | .extractArchive id archiveType, w =>
    match c.answers (.call (.extractArchive id archiveType)) with
    | .ok () => (.ok (), { w with dirs := Function.update w.dirs (archiveDir s id archiveType) true })
    | .error e => (.error e, { w with
        dirs := Function.update w.dirs (archiveDir s id archiveType)
          (w.dirs (archiveDir s id archiveType) || c.landed) })
  | call, w => (c.answers (.call call), w)

/-- What an operation does, and its answer. -/
def perform (c : Choice) : (o : RelayOp) → World → o.Res × World
  | .getJob id, w => (w.jobs id, w)
  | .updateJob id values, w => ((), w.modifyJob id (updateJob (c.answers .now) values))
  | .updateJobIfStatus id expected requireNotCanceled expectedKernelStatus values, w =>
    match w.updateIfStatus (c.answers .now) id expected requireNotCanceled expectedKernelStatus
        values with
    | some w => (true, w)
    | none => (false, w)
  | .finalizeJob id preferred values, w =>
    let w := w.modifyJob id (finalizeJob (c.answers .now) preferred values)
    ((w.jobs id).map (·.status), w)
  | .consume id size, w =>
    ((), w.modifyJob id fun job => { job with reservedBytes := job.reservedBytes - size })
  | .getCurrentDatasetCache datasetRef keyId, w =>
    (w.caches.find? fun row => row.kaggleKeyId == keyId && row.datasetRef == datasetRef, w)
  | .getDatasetCache datasetRef payloadHash keyId, w =>
    (w.caches.find? fun row => row.kaggleKeyId == keyId && row.datasetRef == datasetRef &&
      row.payloadHash == payloadHash, w)
  | .upsertDatasetCache row, w => ((), { w with caches := upsertCache row w.caches })
  | .getCurrentLastDatasetJob datasetRef keyId, w =>
    (w.lastJobs.find? fun row => row.kaggleKeyId == keyId && row.datasetRef == datasetRef, w)
  | .upsertLastDatasetJob row, w => ((), { w with lastJobs := upsertLastJob row w.lastJobs })
  | .isActive id, w => ((w.active id).isSome, w)
  | .resumeIfInactive id values action, w =>
    if (w.active id).isSome then ((), w)
    else ((), { w.modifyJob id (updateJob (c.answers .now) values) with
      queue := w.queue ++ [⟨action, id⟩] })
  | .updateJobIfStatusAndPut id expected requireNotCanceled values put action, w =>
    match w.updateIfStatus (c.answers .now) id expected requireNotCanceled none values with
    | some w => (true, { w with queue := w.queue ++ if put then [⟨action, id⟩] else [] })
    | none => (false, w)
  | .removeFiles id, w =>
    match c.answers (.removeFiles id) with
    | .ok () => (.ok (), { w with
        dirs := fun dir => w.dirs dir && !(dir == s.datasetDir id || dir == s.kernelDir id) })
    | .error e => (.error e, { w with
        dirs := fun dir => w.dirs dir &&
          !(c.landed && (dir == s.datasetDir id || dir == s.kernelDir id)) })
  | .deleteJobRecord id, w => ((), w.deleteRecord id)
  | .readIntent path, w => ((c.answers (.readIntent path)).map fun _ => w.intents path, w)
  | .writeIntent path intent, w =>
    match c.answers (.writeIntent path intent) with
    | .ok () => (.ok (), { w with intents := Function.update w.intents path (some intent) })
    | .error e => (.error e, if c.landed then
        { w with intents := Function.update w.intents path (some intent) } else w)
  | .contentDigest dir, w =>
    if w.dirs dir then (c.answers (.contentDigest dir), w)
    else (.error (.valueError "upload_intent_source_missing_or_unsafe"), w)
  | .isDir dir, w => (w.dirs dir, w)
  | .pushKernel id kernelDir, w =>
    (c.answers (.pushKernel id kernelDir), { w with trace := .pushed id :: w.trace })
  | .call call, w => performCall s c call w
  | o, w => (c.answers o, w)

/-- The exception an answer makes its program raise. -/
def raised : (o : RelayOp) → o.Res → Option Exc
  | .readIntent _, .error e | .writeIntent _ _, .error e | .contentDigest _, .error e
  | .readMetadata _ _, .error e | .writeMetadata _ _ _, .error e | .mutateDataset _ _ _, .error e
  | .pushKernel _ _, .error e | .removeFiles _, .error e | .call _, .error e => some e
  | .sdkWait, e => e
  | _, _ => none

/-- The relay is not shutting down, and only a query of a kernel's status says
that this status is unavailable. -/
def legal (o : RelayOp) (r : o.Res) : Bool :=
  match raised o r with
  | none => true
  | some e => e.cls != .kaggleAdapterInterrupted &&
    (e.cls != .kernelStatusUnavailable || match o with
      | .call (.pollKernel _) | .call (.kernelStatus _) => true
      | _ => false)

/-- The next operation of a program. -/
def advance {α : Type} (c : Choice) : Relay α → World → Option (Relay α × World)
  | .op o k, w =>
    let (r, w') := perform s c o w
    if legal o r then some (k r, w') else none
  | _, _ => none

/-! ### Programs that begin -/

/-- What runs under a job's submission lock. -/
inductive Request where
  | upload (authorized : Bool)
  | complete (authorized restartRecheck : Bool)
  | cancel (authorized : Bool)
  | recheck (t : ℚ)
  | cleanup (stale : Bool) (receivingCutoff : ℚ)
  | delete (authorized : Bool)

def Request.program (id : JobId) : Request → Relay Unit
  | .upload authorized => Relay.uploadChunk s id authorized
  | .complete authorized restartRecheck => Relay.completeJob s id authorized restartRecheck
  | .cancel authorized => Relay.cancelJob id authorized
  | .recheck t => Relay.scheduleDatasetRecheck s id t
  | .cleanup stale receivingCutoff => Relay.cleanupJob s id stale receivingCutoff
  | .delete authorized => Relay.deleteJob id authorized

/-- The scan of `cleanup_expired_jobs` took the job as completed, or as stale. -/
def admissible (request : Request) (job : Option Job) : Bool :=
  match request with
  | .cleanup false _ => (job.bind (·.completedAt)).isSome
  | _ => true

/-- What runs without a lock. -/
inductive LooseRequest where
  | progress (authorized : Bool) (payload : Relay.ProgressRequest)
  | schedulePending

def LooseRequest.program (id : JobId) : LooseRequest → Relay Unit
  | .progress authorized payload => Relay.updateJobProgress s id authorized payload
  | .schedulePending => Relay.schedulePendingJob id

/-- The row `create_job` inserts. -/
def createdJob (d : Declared) (datasetRef kernelRef keyId : String) (reserved : ℕ) : Job where
  toDeclared := d
  datasetRef := datasetRef
  kernelRef := kernelRef
  kaggleKeyId := keyId
  assignmentState := if d.schedulingMode = .dynamic then .pending else .bound
  status := .receiving
  progress := 0
  datasetStatus := ""
  kernelStatus := ""
  kaggleOutput := ""
  error := ""
  queueReason := ""
  artifactPath := ""
  cancelRequestedAt := none
  cancelReason := ""
  completedAt := none
  reservedBytes := reserved
  uploadActivityAt := d.createdAt
  datasetRecheckState := .none
  datasetRecheckAt := none
  datasetRecheckStartedAt := none
  datasetRecheckFailures := 0
  datasetRecheckCount := 0
  cleanupDueAt := none
  cleanedAt := none

/-! ### The worker loop -/

/-- `account_pending.setdefault(account, {})[job_id] = item`. -/
def addPending (item : QueueItem) (items : List QueueItem) : List QueueItem :=
  if items.any (·.jobId == item.jobId) then
    items.map fun old => if old.jobId = item.jobId then item else old
  else items ++ [item]

/-- `worker_loop` on the item it has got, where the job is bound and idle. -/
def accept (w : World) (item : QueueItem) (account : String) : World :=
  if item.action.isResume = false ∧ s.accountConcurrency ≤ w.accounts account then
    { w.modifyJob item.jobId
        (·.set { queueReason := some "waiting for an available Kaggle account slot" }) with
      pending := Function.update w.pending account (addPending item (w.pending account)) }
  else
    { w with
      active := Function.update w.active item.jobId
        (some ⟨account, item.action, Relay.runWorkerItem s item.jobId item.action, false⟩)
      accounts := Function.update w.accounts account (w.accounts account + 1) }

/-- `worker_loop` on one item: a stale item, one of an active job and one of a
job without an account are dropped. -/
def take (w : World) (item : QueueItem) (account : String) : World :=
  match w.jobs item.jobId with
  | none => w
  | some job =>
    if job.status ∉ queueItemExpectedStatuses item ∨ (w.active item.jobId).isSome ∨
        awaitingAssignment job = true then w
    else accept s w item account

/-- The `finally` of `worker_loop`. -/
def leave (w : World) (id : JobId) (t : Task) : World :=
  { w with
    active := Function.update w.active id none
    accounts := Function.update w.accounts t.account (w.accounts t.account - 1)
    queue := w.queue ++ w.pending t.account
    pending := Function.update w.pending t.account [] }

/-- The program has returned or raised. -/
def returned {α : Type} : Relay α → Bool
  | .pure _ => true
  | _ => false

/-- The operation is the last one that matters for the job's status: it parks
the job, or notes that the kernel's end is unknown and the task returns. -/
def givesUp (o : RelayOp) (rest : Relay Unit) : Bool :=
  match o with
  | .updateJob _ values =>
    values.status == some .waitingDataset ||
      (values.error.any (Text.startswith · "kernel_status_unknown:") && returned rest)
  | _ => false

/-- One operation of a task. -/
def workerStep (c : Choice) (w : World) (id : JobId) (t : Task) : Option World :=
  match t.program with
  | .op o _ =>
    (advance s c t.program w).map fun (p, w') =>
      { w' with
        active := Function.update w'.active id
          (some { t with program := p, gaveUp := t.gaveUp || givesUp o p }) }
  | _ => none

/-! ### Crash and recovery -/

/-- `RUNNING_JOB_STATUSES`. -/
def running (status : Status) : Bool := !(status.terminal || status == .receiving)

/-- The rows `recover_incomplete_jobs` lists. -/
def incompleteJobs (w : World) : List (JobId × Job) :=
  w.ids.filterMap fun id => (w.jobs id).bind fun job =>
    if running job.status then some (id, job) else none

/-- The relay dies and starts again: only the database and the files are left. -/
def crash (w : World) : World :=
  { w with
    queue := []
    pending := fun _ => []
    accounts := fun _ => 0
    active := fun _ => none
    sections := fun _ => none
    loose := []
    recovery := some ⟨w.incompleteJobs, none, []⟩ }

/-- The recovered items go to the queue, those of pushed kernels first. -/
def serve (w : World) (items : List QueueItem) : World :=
  let bound := (items.filter (·.action.isResume) ++ items.filter (!·.action.isResume)).filter
    fun item => !(w.jobs item.jobId).any awaitingAssignment
  { w with queue := w.queue ++ bound, recovery := none }

/-- A step of the recovery. -/
def recoveryStep (c : Choice) (w : World) (r : Recovery) : Option World :=
  match r.current, r.todo with
  | some (.pure (.ok item)), todo =>
    some { w with recovery := some ⟨todo, none, r.items ++ item.toList⟩ }
  | some p, _ =>
    (advance s c p w).map fun (p, w') => { w' with recovery := some { r with current := some p } }
  | none, (id, job) :: todo =>
    some { w with
      recovery := some ⟨todo, some (Relay.recoverJobAfterRestart s id job), r.items⟩ }
  | none, [] => some (w.serve r.items)

/-! ### Steps -/

inductive Action where
  | create (id : JobId) (d : Declared) (datasetRef kernelRef keyId : String) (reserved : ℕ)
  | take (account : String)
  | worker (id : JobId) (c : Choice)
  | leave (id : JobId)
  | begin (id : JobId) (request : Request)
  | lock (id : JobId) (c : Choice)
  | beginLoose (id : JobId) (request : LooseRequest)
  | loose (n : ℕ) (c : Choice)
  | crash
  | recover (c : Choice)

/-- One operation of the section that holds a job's lock; it releases the lock
on its return. -/
def lockStep (c : Choice) (w : World) (id : JobId) (p : Relay Unit) : Option World :=
  (advance s c p w).map fun (p, w') =>
    { w' with sections := Function.update w'.sections id (if returned p then none else some p) }

/-- One operation of a program without a lock. -/
def looseStep (c : Choice) (w : World) (n : ℕ) (p : Relay Unit) : Option World :=
  (advance s c p w).map fun (p, w') =>
    { w' with loose := if returned p then w'.loose.eraseIdx n else w'.loose.set n p }

/-- A step of the serving relay. -/
def serving : Action → World → Option World
  | .create id d datasetRef kernelRef keyId reserved, w =>
    if id ∈ w.ids then none
    else some { w with
      ids := w.ids ++ [id]
      jobs := Function.update w.jobs id (some (createdJob d datasetRef kernelRef keyId reserved)) }
  | .take account, w =>
    match w.queue with
    | [] => none
    | item :: queue => some (take s { w with queue } item account)
  | .worker id c, w => (w.active id).bind (workerStep s c w id)
  | .leave id, w =>
    match w.active id with
    | some t => if returned t.program then some (w.leave id t) else none
    | none => none
  | .begin id request, w =>
    if (w.sections id).isNone ∧ admissible request (w.jobs id) = true then
      some { w with sections := Function.update w.sections id (some (request.program s id)) }
    else none
  | .lock id c, w => (w.sections id).bind (lockStep s c w id)
  | .beginLoose id request, w => some { w with loose := w.loose ++ [request.program s id] }
  | .loose n c, w => w.loose[n]?.bind (looseStep s c w n)
  | .crash, w => some w.crash
  | .recover _, _ => none

/-- One step; while the recovery runs nothing else does. -/
def step (a : Action) (w : World) : Option World :=
  match w.recovery with
  | none => serving s a w
  | some r =>
    match a with
    | .crash => some w.crash
    | .recover c => recoveryStep s c w r
    | _ => none

/-- The states a relay reaches. -/
inductive Reachable : World → Prop where
  | empty : Reachable empty
  | step {w w' : World} (h : Reachable w) (a : Action) (hs : step s a w = some w') : Reachable w'

end World

end KaggleRelay

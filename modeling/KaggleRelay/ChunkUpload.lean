/-
Receiving the archives of one job.

The state is what the requests on one job share: its row, the chunk rows, the
part files, the assembled archives, the uploads that stream a body, and the
submission lock while a `complete` request assembles under it.  A section of
the code between two `await`s is one function on this state; `Intake.step`
lets the sections of any requests follow each other in any order, sections
under the submission lock only while it is free.

Clocks, free space, upload slots, caches, access checks and what `rmtree`
leaves behind are answers the step is given.  Progress callbacks are not part
of this machine.
-/
import KaggleRelay.Archive
import KaggleRelay.JobRow

namespace KaggleRelay

/-- A row of `chunks`. -/
structure ChunkRow where
  size : ℕ
  sha256 : String
  createdAt : ℚ
  deriving DecidableEq

/-- The rows of `chunks` for one archive, by index. -/
abbrev ChunkRows := Std.ExtTreeMap ℕ ChunkRow compare

/-- An `upload_chunk` call that reads its body outside the lock. -/
structure Upload where
  /-- The row as read under the lock. -/
  job : Job
  archiveType : ArchiveType
  index : ℕ
  chunkSize : ℕ
  chunkSha256 : String
  /-- What the temporary file holds and the digest has been fed. -/
  received : Bytes

/-- What the requests on one job share. -/
structure Intake where
  job : Option Job
  chunks : ArchiveType → ChunkRows
  parts : ArchiveType → ℕ → Option Bytes
  archives : ArchiveType → Option Assembled
  /-- Their number is `active_uploads[job_id]`. -/
  uploads : List Upload
  /-- The row a `complete` request had read, while it assembles under the lock. -/
  assembling : Option Job

namespace Intake

variable (hours : ℕ) (lib : Library)

/-- `get_authorized_job`. -/
def getAuthorizedJob (authorized : Bool) (w : Intake) : Except Exc Job :=
  match w.job with
  | some job => if authorized then .ok job else .error (.http 404 "job not found")
  | none => .error (.http 404 "job not found")

/-- `update_job` on the row, where there is one. -/
def updateJob (now : ℚ) (values : JobValues) (w : Intake) : Intake :=
  { w with job := w.job.map (KaggleRelay.updateJob now values) }

/-- `update_job_if_status`; `none` where no row was updated. -/
def updateJobIfStatus (now : ℚ) (expected : List Status) (values : JobValues) (w : Intake) :
    Option Intake :=
  (w.job.bind (KaggleRelay.updateJobIfStatus now expected false none values)).map fun job =>
    { w with job := some job }

/-- `touch_upload`. -/
def touchUpload (now : ℚ) (w : Intake) : Intake :=
  { w with job := w.job.map fun job =>
      if job.status = .receiving then { job with uploadActivityAt := now } else job }

/-- `add_chunk`: INSERT OR REPLACE, and the bytes leave the reservation. -/
def addChunk (now : ℚ) (archiveType : ArchiveType) (index size : ℕ) (sha256 : String)
    (w : Intake) : Intake :=
  let previous := ((w.chunks archiveType)[index]?.map (·.size)).getD 0
  { w with
    chunks := Function.update w.chunks archiveType
      ((w.chunks archiveType).insert index ⟨size, sha256, now⟩)
    job := w.job.map fun job =>
      { job with uploadActivityAt := now, reservedBytes := job.reservedBytes - (size - previous) } }

def expireReceivingUpload (now : ℚ) (job : Job) (w : Intake) : String × Intake :=
  if job.status ≠ .receiving ∨ now < job.createdAt + hours * 3600 then ("", w)
  else
    let error := "upload timed out: incomplete after " ++ toString hours ++
      " hours from job creation; submit a new job"
    match w.updateJobIfStatus now [.receiving]
        { status := some .failed, error := some error, cleanupDueAt := some (some now) } with
    | some w => (error, w)
    | none => ("", w)

def rejectExpiredUpload (now : ℚ) (job : Job) (w : Intake) : Except Exc Unit × Intake :=
  match w.expireReceivingUpload hours now job with
  | (error, w) => if error = "" then (.ok (), w) else (.error (.http 409 error), w)

/-! ### Uploading a chunk -/

/-- `re.fullmatch(r"[a-fA-F0-9]{64}", text)`. -/
def isHexDigest (text : String) : Bool :=
  text.length == 64 && text.toList.all fun c =>
    ('a' ≤ c && c ≤ 'f') || ('A' ≤ c && c ≤ 'F') || ('0' ≤ c && c ≤ '9')

/-- The path and the headers of a request. -/
structure ChunkRequest where
  archiveType : ArchiveType
  index : ℤ
  xChunkSha256 : String
  xChunkSize : ℤ

/-- What `upload_chunk` checks about the request before it looks at the chunk
rows: the index, the declared size, the form of the digest. -/
def checkRequest (job : Job) (request : ChunkRequest) : Except Exc Unit :=
  let totalSize : ℤ := job.size request.archiveType
  if job.status ≠ .receiving then .error (.http 409 "job is no longer receiving chunks")
  else
    match validateChunkIndex request.index totalSize job.chunkSize with
    | .error e => .error (.http 400 e.text)
    | .ok () =>
      if request.xChunkSize ≠ min (job.chunkSize : ℤ) (totalSize - request.index * job.chunkSize) then
        .error (.http 400 "invalid declared chunk size")
      else if !isHexDigest request.xChunkSha256 then .error (.http 400 "invalid chunk sha256")
      else .ok ()

/-- The first locked section of `upload_chunk`: it answers a duplicate, rejects
the request, or lets it stream. -/
def uploadStart (now : ℚ) (authorized : Bool) (request : ChunkRequest) (slots : Bool)
    (space : Bool) (w : Intake) : Except Exc Unit × Intake :=
  match w.getAuthorizedJob authorized with
  | .error e => (.error e, w)
  | .ok job =>
    match w.rejectExpiredUpload hours now job with
    | (.error e, w) => (.error e, w)
    | (.ok (), w) =>
      match checkRequest job request with
      | .error e => (.error e, w)
      | .ok () =>
        let index := request.index.toNat
        let size := request.xChunkSize.toNat
        let sha256 := lib.lower request.xChunkSha256
        match (w.chunks request.archiveType)[index]? with
        | some existing =>
          if existing.sha256 = sha256 ∧ existing.size = size ∧
              (w.parts request.archiveType index).isSome then
            (.ok (), w.touchUpload now)
          else (.error (.http 409 "chunk already exists with different checksum"), w)
        | none =>
          if !slots then (.error (.http 429 "upload slots are busy; retry this chunk"), w)
          else if !space then (.error (.http 503 Exc.storageFull.text), w)
          else
            (.ok (), { w.touchUpload now with
              uploads := w.uploads ++ [⟨job, request.archiveType, index, size, sha256, []⟩] })

/-- The `finally` of `upload_chunk`: the temporary file and the slot go. -/
def releaseUpload (n : ℕ) (w : Intake) : Intake := { w with uploads := w.uploads.eraseIdx n }

/-- The upload's deadline has passed. -/
def pastDeadline (now : ℚ) (u : Upload) : Bool := u.job.createdAt + hours * 3600 ≤ now

/-- One part of the body, before the deadline; `space` is the answer of a space
check where one is due. -/
def uploadPart (n : ℕ) (u : Upload) (part : Bytes) (space : Option Bool) (w : Intake) :
    Except Exc Unit × Intake :=
  if space = some false then (.error (.http 503 Exc.storageFull.text), w.releaseUpload n)
  else if u.chunkSize < u.received.length + part.length then
    (.error (.http 400 "chunk larger than X-Chunk-Size"), w.releaseUpload n)
  else (.ok (), { w with uploads := w.uploads.set n { u with received := u.received ++ part } })

/-- A part after the deadline: `reject_expired_upload` under the lock, and the
upload ends either way. -/
def uploadPastDeadline (now : ℚ) (n : ℕ) (u : Upload) (w : Intake) : Except Exc Unit × Intake :=
  match w.rejectExpiredUpload hours now u.job with
  | (.error e, w) => (.error e, w.releaseUpload n)
  | (.ok (), w) => (.error (.http 409 "job upload deadline exceeded"), w.releaseUpload n)

/-- The size and the digest of a body that has ended. -/
def checkBody (u : Upload) : Except Exc Unit :=
  if u.received.length ≠ u.chunkSize then .error (.http 400 "chunk size mismatch")
  else if lib.sha256 u.received ≠ u.chunkSha256 then .error (.http 400 "chunk sha256 mismatch")
  else .ok ()

/-- `tmp_path.replace(chunk_path)` and `add_chunk`. -/
def storeChunk (now : ℚ) (u : Upload) (w : Intake) : Intake :=
  { w.addChunk now u.archiveType u.index u.received.length (lib.sha256 u.received) with
    parts := Function.update w.parts u.archiveType
      (Function.update (w.parts u.archiveType) u.index (some u.received)) }

/-- The second locked section of `upload_chunk`, after a body that is as
declared. -/
def uploadFinish (now : ℚ) (authorized : Bool) (n : ℕ) (u : Upload) (w : Intake) :
    Except Exc Unit × Intake :=
  match w.getAuthorizedJob authorized with
  | .error e => (.error e, w.releaseUpload n)
  | .ok job =>
    match w.rejectExpiredUpload hours now job with
    | (.error e, w) => (.error e, w.releaseUpload n)
    | (.ok (), w) =>
      if job.status ≠ .receiving then
        (.error (.http 409 "job is no longer receiving chunks"), w.releaseUpload n)
      else
        match (w.chunks u.archiveType)[u.index]? with
        | some existing =>
          if existing.sha256 ≠ lib.sha256 u.received ∨ existing.size ≠ u.received.length then
            (.error (.http 409 "chunk already exists with different checksum"), w.releaseUpload n)
          else if (w.parts u.archiveType u.index).isSome then (.ok (), w.releaseUpload n)
          else (.ok (), (w.storeChunk lib now u).releaseUpload n)
        | none => (.ok (), (w.storeChunk lib now u).releaseUpload n)

/-! ### Completing -/

/-- All chunks of an archive are there: the rows' indices are `range(count)`,
and every part is a file. -/
def archiveUploaded (job : Job) (archiveType : ArchiveType) (w : Intake) : Bool :=
  match expectedChunkCount (job.size archiveType) job.chunkSize with
  | .error _ => false
  | .ok count =>
    (w.chunks archiveType).keys = List.range count &&
      (List.range count).all fun i => (w.parts archiveType i).isSome

/-- The archives a job has to bring. -/
def archiveTypes (cacheHit : Bool) : List ArchiveType :=
  if cacheHit then [.kernel] else [.dataset, .kernel]

/-- `complete_job` on a receiving job, up to the assembly.  On any other status
it returns the row or does what the relay after the intake does. -/
def completeStart (now : ℚ) (authorized cacheHit : Bool) (w : Intake) : Except Exc Unit × Intake :=
  match w.getAuthorizedJob authorized with
  | .error e => (.error e, w)
  | .ok job =>
    match w.rejectExpiredUpload hours now job with
    | (.error e, w) => (.error e, w)
    | (.ok (), w) =>
      if job.status ≠ .receiving then (.ok (), w)
      else if (archiveTypes (cacheHit && !awaitingAssignment job)).all (w.archiveUploaded job ·) then
        match w.updateJobIfStatus now [.receiving]
            { status := some .assembling, progress := some 10 } with
        | some w => (.ok (), { w with assembling := some job })
        | none => (.ok (), w)
      else (.error (.http 409 "upload incomplete; resume missing chunks"), w)

/-- What an assembly finds outside the job's chunks. -/
structure AssemblyAnswers where
  now : ℚ
  credentials : Except Exc Unit
  cacheHit : Bool
  /-- The check of each of the two `reserve` calls. -/
  reserveInputs : Bool
  reserveExtracted : Bool
  space : ArchiveType → ℕ → Bool
  /-- `zipfile.ZipFile` on the archives: the bytes they unpack to. -/
  sizes : Except Exc ℕ
  /-- Unpacking both archives. -/
  extract : Except Exc Unit
  /-- `validate_payloads` or `validate_kernel_payload`. -/
  validate : Except Exc Unit

/-- `StorageBudget.reserve`. -/
def reserve (now : ℚ) (free : Bool) (needed : ℕ) (w : Intake) : Except Exc Unit × Intake :=
  if free then (.ok (), w.updateJob now { reservedBytes := some needed })
  else (.error .storageFull, w)

/-- `StorageBudget.consume`. -/
def consume (size : ℕ) (w : Intake) : Intake :=
  { w with job := w.job.map fun job => { job with reservedBytes := job.reservedBytes - size } }

/-- `assemble_archive` for one archive of the job. -/
def assemble (space : ℕ → Bool) (job : Job) (archiveType : ArchiveType) (w : Intake) :
    Except Exc Unit × Intake :=
  match assembleArchive space lib (w.parts archiveType) (job.size archiveType) job.chunkSize
      (job.archiveSha256 archiveType) with
  | (.error e, content) =>
    (.error e, { w with archives := Function.update w.archives archiveType (some ⟨content, none⟩) })
  | (.ok digest, content) =>
    (.ok (), { w with
      archives := Function.update w.archives archiveType (some ⟨content, some digest⟩) })

/-- The dataset archive, where the cache does not stand in for it. -/
def assembleDataset (answers : AssemblyAnswers) (cacheHit : Bool) (job : Job) (w : Intake) :
    Except Exc Unit × Intake :=
  if cacheHit then (.ok (), w)
  else
    match w.assemble lib (answers.space .dataset) job .dataset with
    | (.error e, w) => (.error e, w)
    | (.ok (), w) => (.ok (), w.consume job.datasetSize)

/-- `assemble_and_validate_job` behind its two `assemble_archive` calls. -/
def validateArchives (answers : AssemblyAnswers) (w : Intake) : Except Exc Unit × Intake :=
  match answers.sizes with
  | .error e => (.error e, w)
  | .ok sizes =>
    match w.reserve answers.now answers.reserveExtracted sizes with
    | (.error e, w) => (.error e, w)
    | (.ok (), w) =>
      match answers.extract with
      | .error e => (.error e, w)
      | .ok () => (answers.validate, w.consume sizes)

def assembleAndValidateJob (answers : AssemblyAnswers) (job : Job) (w : Intake) :
    Except Exc Unit × Intake :=
  if !awaitingAssignment job && answers.credentials.isOk == false then (answers.credentials, w)
  else
    let cacheHit := answers.cacheHit && !awaitingAssignment job
    let inputsSize := job.kernelSize + if cacheHit then 0 else job.datasetSize
    match w.reserve answers.now answers.reserveInputs (inputsSize * 2) with
    | (.error e, w) => (.error e, w)
    | (.ok (), w) =>
      match w.assembleDataset lib answers cacheHit job with
      | (.error e, w) => (.error e, w)
      | (.ok (), w) =>
        match w.assemble lib (answers.space .kernel) job .kernel with
        | (.error e, w) => (.error e, w)
        | (.ok (), w) => w.validateArchives answers

/-- A compare-and-set whose outcome is not looked at. -/
def tryUpdate (now : ℚ) (expected : List Status) (values : JobValues) (w : Intake) : Intake :=
  (w.updateJobIfStatus now expected values).getD w

/-- `complete_job` from the assembly on: `receiving` again where space ran out,
else `failed` or `queued`.  Queueing the job is the relay's. -/
def completeFinish (answers : AssemblyAnswers) (job : Job) (w : Intake) :
    Except Exc Unit × Intake :=
  match w.assembleAndValidateJob lib answers job with
  | (.error e, w) =>
    if e.cls = .capacityError then
      (.error (.http 503 e.text), { w.tryUpdate answers.now [.assembling]
        { status := some .receiving, error := some e.text } with assembling := none })
    else
      (.error (.http 400 e.text), { w.tryUpdate answers.now [.assembling]
        { status := some .failed, progress := some 0, error := some e.text } with assembling := none })
  | (.ok (), w) =>
    let queueReason := if awaitingAssignment job then
        "waiting for an idle authorized account with GPU quota"
      else "waiting for an available worker"
    (.ok (), { w.tryUpdate answers.now [.assembling]
      { status := some .queued, progress := some 15, queueReason := some queueReason
        error := some "" } with assembling := none })

/-- The request is cancelled while it waits for an assembly slot. -/
def completeInterrupted (now : ℚ) (w : Intake) : Intake :=
  { w.tryUpdate now [.assembling] { status := some .receiving } with assembling := none }

/-! ### Cancelling, cleaning up, deleting -/

/-- `request_job_cancel`; under the lock its first compare-and-set succeeds. -/
def cancelJob (now : ℚ) (authorized : Bool) (w : Intake) : Except Exc Unit × Intake :=
  match w.getAuthorizedJob authorized with
  | .error e => (.error e, w)
  | .ok job =>
    if job.status ∈ [.complete, .failed] then
      (.error (.http 409 ("job is already " ++ job.status.text)), w)
    else if job.status ∈ [.cancelRequested, .canceled] then (.ok (), w)
    else (.ok (), w.tryUpdate now [job.status] (cancelValues now job.status))

/-- What a removal of the job's directory leaves behind. -/
structure Leftover where
  part : ArchiveType → ℕ → Bool
  archive : ArchiveType → Bool

/-- `shutil.rmtree`, which may fail half way. -/
def rmtree (left : Leftover) (w : Intake) : Intake :=
  { w with
    parts := fun k i => if left.part k i then w.parts k i else none
    archives := fun k => if left.archive k then w.archives k else none }

/-- `rmtree` to the end. -/
def nothingLeft : Leftover := ⟨fun _ _ => false, fun _ => false⟩

/-- `cleanup_expired_job`; `left` where `rmtree` fails. -/
def cleanupExpiredJob (now : ℚ) (left : Option Leftover) (w : Intake) : Intake :=
  match left with
  | some left => w.rmtree left
  | none => (w.rmtree nothingLeft).updateJob now
      { artifactPath := some "", kaggleOutput := some "expired by relay retention cleanup"
        cleanedAt := some (some now), cleanupDueAt := some none, reservedBytes := some 0 }

/-- One turn of `cleanup_expired_jobs`.  `stale` says that the scan took the job
from `stale_receiving`, otherwise it took it as completed. -/
def cleanupJob (now receivingCutoff : ℚ) (stale workerActive : Bool) (left : Option Leftover)
    (w : Intake) : Intake :=
  match w.job with
  | none => w
  | some job =>
    if job.cleanedAt.isSome then w
    else
      let (timedOut, w) := w.expireReceivingUpload hours now job
      if !w.uploads.isEmpty || workerActive then w
      else if stale ∧ timedOut = "" then
        if job.status ≠ .receiving ∨ receivingCutoff ≤ job.uploadActivityAt then w
        else
          match w.updateJobIfStatus now [.receiving]
              { status := some .failed, error := some "upload expired after inactivity"
                cleanupDueAt := some (some now) } with
          | some w => w.cleanupExpiredJob now left
          | none => w
      else w.cleanupExpiredJob now left

/-- `delete_job`; `left` where `rmtree` fails, and then the record stays. -/
def deleteJob (authorized workerActive : Bool) (left : Option Leftover) (w : Intake) :
    Except Exc Unit × Intake :=
  match w.getAuthorizedJob authorized with
  | .error e => (.error e, w)
  | .ok job =>
    if !(job.status.terminal || job.status == .receiving) then
      (.error (.http 409 "cancel the active job before deleting it"), w)
    else if workerActive then (.error (.http 409 "job worker is still active"), w)
    else if !w.uploads.isEmpty then (.error (.http 409 "job upload is still active"), w)
    else
      match left with
      | some left => (.error (.http 503 "job cleanup failed; retry deletion"), w.rmtree left)
      | none => (.ok (), { w.rmtree nothingLeft with job := none, chunks := fun _ => ∅ })

/-! ### Steps -/

/-- The sections of the requests on one job, with what each is told. -/
inductive Action where
  | uploadStart (now : ℚ) (authorized : Bool) (request : ChunkRequest) (slots space : Bool)
  | uploadPart (n : ℕ) (now : ℚ) (part : Bytes) (space : Option Bool)
  | uploadFinish (n : ℕ) (now : ℚ) (authorized : Bool)
  /-- The client is too slow or gone. -/
  | uploadAbort (n : ℕ)
  | completeStart (now : ℚ) (authorized cacheHit : Bool)
  | completeFinish (answers : AssemblyAnswers)
  | completeInterrupted (now : ℚ)
  | cancel (now : ℚ) (authorized : Bool)
  | cleanup (now receivingCutoff : ℚ) (stale workerActive : Bool) (left : Option Leftover)
  | delete (authorized workerActive : Bool) (left : Option Leftover)
  /-- Whatever the rest of the relay writes into a row that has left the intake. -/
  | relay (job : Job)

/-- The statuses of the intake. -/
def inIntake (status : Status) : Bool := status == .receiving || status == .assembling

/-- One section; `none` where it cannot run now. -/
def step : Action → Intake → Option Intake
  | .uploadStart now authorized request slots space, w =>
    if w.assembling.isSome then none
    else some (w.uploadStart hours lib now authorized request slots space).2
  | .uploadPart n now part space, w =>
    match w.uploads[n]? with
    | none => none
    | some u =>
      if pastDeadline hours now u then
        -- this part of the code waits for the lock
        if w.assembling.isSome then none else some (w.uploadPastDeadline hours now n u).2
      else some (w.uploadPart n u part space).2
  | .uploadFinish n now authorized, w =>
    match w.uploads[n]? with
    | none => none
    | some u =>
      match checkBody lib u with
      | .error _ => some (w.releaseUpload n)
      | .ok () =>
        if w.assembling.isSome then none else some (w.uploadFinish hours lib now authorized n u).2
  | .uploadAbort n, w => some (w.releaseUpload n)
  | .completeStart now authorized cacheHit, w =>
    if w.assembling.isSome then none else some (w.completeStart hours now authorized cacheHit).2
  | .completeFinish answers, w => w.assembling.map fun job => (w.completeFinish lib answers job).2
  | .completeInterrupted now, w => w.assembling.map fun _ => w.completeInterrupted now
  | .cancel now authorized, w =>
    if w.assembling.isSome then none else some (w.cancelJob now authorized).2
  | .cleanup now receivingCutoff stale workerActive left, w =>
    -- a job found completed by the scan is completed still
    if w.assembling.isSome ∨ (stale = false ∧ (w.job.bind (·.completedAt)).isNone) then none
    else some (w.cleanupJob hours now receivingCutoff stale workerActive left)
  | .delete authorized workerActive left, w =>
    if w.assembling.isSome then none else some (w.deleteJob authorized workerActive left).2
  | .relay job', w =>
    match w.job with
    | none => none
    | some job =>
      if inIntake job.status ∨ inIntake job'.status then none
      else some { w with job := some { job' with toDeclared := job.toDeclared } }

/-- A job as `create_job` leaves it. -/
def created (job : Job) : Intake := ⟨some job, fun _ => ∅, fun _ _ => none, fun _ => none, [], none⟩

/-- What a run of sections leads from one state to. -/
inductive Run : Intake → Intake → Prop
  | refl (w : Intake) : Run w w
  | step {w w' w'' : Intake} (run : Run w w') (action : Action)
      (h : step hours lib action w' = some w'') : Run w w''

end Intake

end KaggleRelay

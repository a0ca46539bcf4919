/-
The protocols of everything but the workers.

`lockHolder id` is what runs under a job's submission lock, `unlocked id` what
runs without one (progress callbacks and the account scheduler), and
`recovering id` the recovery of a job after a restart.  `follows_request`,
`follows_looseRequest` and `follows_recoverJobAfterRestart` — each program
keeps to its protocol, whatever it reads.
-/
import KaggleRelay.Conduct
import KaggleRelay.Lifecycle
import KaggleRelay.WorkerConduct

namespace KaggleRelay

open Effects Lifecycle

/-- The values set the reservation, and nothing else that the rest of the relay
looks at. -/
structure JobValues.Reserves (values : JobValues) (n : ℕ) : Prop where
  status : values.status = none
  error : values.error = none
  cancelRequestedAt : values.cancelRequestedAt = none
  completedAt : values.completedAt = none
  reservedBytes : values.reservedBytes = some n
  assignmentState : values.assignmentState = none

/-! ### Under the lock -/

/-- What a row tells the holder of the lock. -/
def Lifecycle.LockPhase.ofRow (job : Job) : LockPhase :=
  if job.status.terminal then .terminal
  else if job.status = .receiving then .receiving (awaitingAssignment job)
  else if job.status = .waitingDataset ∧ Text.startswith job.error Relay.retainedPrefix = true then
    .retained
  else if job.status ∈ [.waitingKernel, .cancelRequested] ∧
      Text.startswith job.error "kernel_status_unknown:" = true then .unknown
  else if job.status.intake = false ∧ job.status ≠ .queued then .beyond
  else .running

/-- What it tells the holder that the job has no task. -/
def Lifecycle.LockPhase.inactive : LockPhase → LockPhase
  | .retained => .idle
  | .terminal | .receiving _ => .deleting
  | l => l

/-- The operations of the holder of the lock. -/
inductive SectionOp (id : JobId) : LockPhase → RelayOp → Prop
  | quiet {l : LockPhase} {o : RelayOp} (h : o.touches = false) : SectionOp id l o
  | read {l : LockPhase} : SectionOp id l (.getJob id)
  | isActive {l : LockPhase} : SectionOp id l (.isActive id)
  | noteIf {l : LockPhase} {expected : List Status} {nc : Bool} {ek : Option String}
    {values : JobValues} (hv : values.Sets none none) :
    SectionOp id l (.updateJobIfStatus id expected nc ek values)
  | reserve {b : Bool} {values : JobValues} {n : ℕ} (hv : values.Reserves n) :
    SectionOp id (.assembling b) (.updateJob id values)
  | consume {b : Bool} {n : ℕ} : SectionOp id (.assembling b) (.consume id n)
  | clean {l : LockPhase} {values : JobValues} (hv : values.Reserves 0) :
    SectionOp id l (.updateJob id values)
  | cancel {l : LockPhase} {status : Status} {t : ℚ} (ht : status.terminal = false)
    (hs : status ≠ .cancelRequested) :
    SectionOp id l (.updateJobIfStatus id [status] false none (cancelValues t status))
  | expire {l : LockPhase} {values : JobValues} (hv : values.Sets (some .failed) values.error) :
    SectionOp id l (.updateJobIfStatus id [.receiving] false none values)
  | assemble {b : Bool} {values : JobValues} (hv : values.Sets (some .assembling) none) :
    SectionOp id (.receiving b) (.updateJobIfStatus id [.receiving] false none values)
  | unassemble {b : Bool} {status : Status} {values : JobValues}
    (hs : status = .receiving ∨ status = .failed) (hv : values.Sets (some status) values.error) :
    SectionOp id (.assembling b) (.updateJobIfStatus id [.assembling] false none values)
  | enqueue {b : Bool} {values : JobValues} (hv : values.Sets (some .queued) (some "")) :
    SectionOp id (.assembling b)
      (.updateJobIfStatusAndPut id [.assembling] false values (!b) .process)
  | requeue {l : LockPhase} {values : JobValues} (hl : l = .retained ∨ l = .idle)
    (hv : values.Sets (some .queued) (some "")) :
    SectionOp id l (.updateJobIfStatusAndPut id [.waitingDataset] true values true .recheckDataset)
  | resume {action : QueueAction} (ha : action.isResume = true) (hs : action.Sound) :
    SectionOp id .unknown (.resumeIfInactive id { error := some "" } action)
  | delete : SectionOp id .deleting (.deleteJobRecord id)

/-- The phase an answer leads to. -/
def sectionAfter (l : LockPhase) : (o : RelayOp) → o.Res → LockPhase
  | .getJob _, job => job.elim .running .ofRow
  | .isActive _, active => if active then l else l.inactive
  | .updateJobIfStatus _ _ _ _ values, updated =>
    if updated = false ∨ values.status = none then l
    else match l with
      | .receiving b => if values.status = some .assembling then .assembling b else .running
      | _ => .running
  | .updateJobIfStatusAndPut _ _ _ _ _ _, updated => if updated then .running else l
  | .resumeIfInactive _ _ _, _ | .deleteJobRecord _, _ => .running
  | _, _ => l

/-- The protocol of what runs under the job's submission lock. -/
def lockHolder (id : JobId) : Protocol RelaySig LockPhase :=
  ⟨SectionOp id, fun _ o r => World.legal o r = true, sectionAfter⟩

theorem tolerates_lockHolder {id : JobId} {S : LockPhase → Prop} : Tolerates (lockHolder id) S where
  allows _ _ _ h := .quiet h
  after l o r h := by cases o <;> first | rfl | cases h
  answers _ _ _ h := h

namespace Relay

variable {s : Settings} {id : JobId}

/-- Wherever the program is in, it may go on, whatever comes after. -/
abbrev Anything {α Ph : Type} : Except Exc α → Ph → Prop := post (fun _ _ => True) fun _ _ => True

theorem follows_quiet {α : Type} {q : Relay α} {l : LockPhase}
    (hq : Stays (lockHolder id) (· = l) q) :
    Follows (lockHolder id) (post (fun _ l' => l' = l) fun _ _ => True) q l :=
  (hq l rfl).imp (fun _ _ h => h) fun _ _ _ => trivial

/-- The job that an endpoint works on, and what its row tells. -/
theorem follows_getAuthorizedJob (authorized : Bool) (l : LockPhase) :
    Follows (lockHolder id) (post (fun job l' => l' = .ofRow job) fun _ _ => True)
      (getAuthorizedJob id authorized) l := by
  refine Follows.op .read fun (job : Option Job) _ => ?_
  rcases job with _ | job
  · exact .pure trivial
  · exact Follows.ite (fun _ => .pure rfl) fun _ => .pure trivial

theorem follows_isActive {E : Exc → LockPhase → Prop} (l : LockPhase) :
    Follows (lockHolder id) (post (fun active l' => l' = if active then l else l.inactive) E)
      (isActive id) l :=
  .op .isActive fun _ _ => .pure rfl

theorem follows_noteIf {E : Exc → LockPhase → Prop} {l : LockPhase} {expected : List Status}
    {nc : Bool} {ek : Option String} {values : JobValues} (hv : values.Sets none none) :
    Follows (lockHolder id) (post (fun _ l' => l' = l) E)
      (updateJobIfStatus id expected nc ek values) l :=
  .op (.noteIf hv) fun _ _ => .pure (if_pos (.inr hv.status))

/-! ### Cancelling -/

theorem follows_requestJobCancel (n : ℕ) (job : Job) (l : LockPhase) :
    Follows (lockHolder id) Anything (requestJobCancel id n job) l := by
  induction n generalizing job l with
  | zero => exact .pure trivial
  | succ n ih =>
    refine Follows.ite (fun _ => .pure trivial) fun h1 => Follows.ite (fun _ => .pure trivial) fun h2 => ?_
    simp only [List.mem_cons, List.not_mem_nil, or_false, not_or] at h1 h2
    refine Follows.op (.quiet rfl) fun stamp _ => ?_
    refine Follows.op (.cancel ?_ h2.1) fun (updated : Bool) _ => ?_
    · have hs := Status.terminal_iff job.status
      grind -linarith
    · refine Follows.ite (fun _ => .pure trivial) fun _ => Follows.op .read fun (current : Option Job) _ => ?_
      rcases current with _ | current
      · exact .pure trivial
      · exact ih current _

theorem follows_cancelJob (authorized : Bool) (l : LockPhase) :
    Follows (lockHolder id) Anything (cancelJob id authorized) l :=
  Follows.seq (follows_getAuthorizedJob authorized l) fun _ _ _ => follows_requestJobCancel _ _ _

/-! ### Expiry, retention and deletion -/

/-- An upload that has expired gives a message; one that has not changes
nothing. -/
theorem follows_expireReceivingUpload {E : Exc → LockPhase → Prop} (job : Job) (l : LockPhase) :
    Follows (lockHolder id) (post (fun error l' => error = "" → l' = l) E)
      (expireReceivingUpload s id job) l := by
  refine Follows.op (.quiet rfl) fun (t : ℚ) _ => ?_
  refine Follows.ite (fun _ => .pure fun _ => rfl) fun _ => ?_
  refine Follows.op (.expire ⟨rfl, rfl, rfl, rfl, rfl, rfl⟩) fun (updated : Bool) _ => ?_
  cases updated with
  | true => exact .pure fun hempty => absurd hempty (by simp)
  | false => exact .pure fun _ => rfl

theorem follows_rejectExpiredUpload (job : Job) (l : LockPhase) :
    Follows (lockHolder id) (post (fun _ l' => l' = l) fun _ _ => True)
      (rejectExpiredUpload s id job) l := by
  refine Follows.seq (follows_expireReceivingUpload job l) fun error l' h => ?_
  by_cases herror : error = ""
  · rw [h herror]
    exact follows_quiet (.raiseIf ⟨nofun, nofun⟩)
  · have hraise : Follows (lockHolder id) (post (fun _ l'' => ¬(error ≠ "") ∧ l'' = l') fun _ _ => True)
        (Eff.raiseIf (error ≠ "") (Exc.http 409 error)) l' := Follows.raiseIf fun _ => trivial
    exact hraise.imp (fun _ _ h => absurd herror h.1) fun _ _ h => h

theorem follows_uploadChunk (authorized : Bool) (l : LockPhase) :
    Follows (lockHolder id) Anything (uploadChunk s id authorized) l :=
  Follows.seq (follows_getAuthorizedJob authorized l) fun _ _ _ =>
    (follows_rejectExpiredUpload _ _).imp (fun _ _ _ => trivial) fun _ _ _ => trivial

theorem follows_cleanupExpiredJob (l : LockPhase) :
    Follows (lockHolder id) Anything (cleanupExpiredJob id) l := by
  refine Follows.op .read fun (job : Option Job) _ => ?_
  rcases job with _ | job
  · exact .pure trivial
  · refine Follows.ite (fun _ => .pure trivial) fun _ => ?_
    refine Follows.seq (follows_quiet (.removeFiles tolerates_lockHolder id)) fun _ _ _ => ?_
    refine Follows.op (.quiet rfl) fun _ _ => Follows.op (.clean ?_) fun _ _ => .pure trivial
    exact ⟨rfl, rfl, rfl, rfl, rfl, rfl⟩

theorem follows_cleanupJob (stale : Bool) (receivingCutoff : ℚ) (l : LockPhase) :
    Follows (lockHolder id) Anything (cleanupJob s id stale receivingCutoff) l := by
  refine Follows.op .read fun (job : Option Job) _ => ?_
  rcases job with _ | job
  · exact .pure trivial
  · refine Follows.ite (fun _ => .pure trivial) fun _ => ?_
    refine Follows.seq (follows_expireReceivingUpload job _) fun timedOut _ _ => ?_
    refine Follows.op (.quiet rfl) fun (uploading : Bool) _ => ?_
    refine Follows.op .isActive fun (active : Bool) _ => ?_
    refine Follows.ite (fun _ => .pure trivial) fun _ => Follows.ite (fun _ => ?_) fun _ =>
      follows_cleanupExpiredJob _
    refine Follows.ite (fun _ => .pure trivial) fun _ => Follows.op (.quiet rfl) fun _ _ => ?_
    refine Follows.op (.expire ⟨rfl, rfl, rfl, rfl, rfl, rfl⟩) fun (updated : Bool) _ => ?_
    exact Follows.ite (fun _ => follows_cleanupExpiredJob _) fun _ => .pure trivial

/-- A job is deleted only where its row said that it may be, and it had no task
after that. -/
theorem follows_deleteJob (authorized : Bool) (l : LockPhase) :
    Follows (lockHolder id) Anything (deleteJob id authorized) l := by
  refine Follows.seq (follows_getAuthorizedJob authorized l) ?_
  rintro job _ rfl
  refine Follows.seq (Follows.raiseIf fun _ => trivial) ?_
  rintro - _ ⟨hdeletable, rfl⟩
  refine Follows.seq (follows_isActive _) ?_
  rintro active _ rfl
  refine Follows.seq (Follows.raiseIf fun _ => trivial) ?_
  rintro - _ ⟨hidle, rfl⟩
  have hdeleting : (if active then LockPhase.ofRow job else (LockPhase.ofRow job).inactive) =
      .deleting := by
    rw [if_neg hidle]
    rcases not_not.mp hdeletable with ht | hr
    · simp [LockPhase.ofRow, ht, LockPhase.inactive]
    · simp [LockPhase.ofRow, hr, Status.terminal, LockPhase.inactive]
  rw [hdeleting]
  refine Follows.seq (follows_quiet (.perform tolerates_lockHolder (o := .isUploading id) rfl)) ?_
  rintro uploading _ rfl
  refine Follows.seq (follows_quiet (.raiseIf ⟨(by rintro ⟨⟩), (by rintro ⟨⟩)⟩)) ?_
  rintro _ _ rfl
  refine Follows.seq (follows_quiet (.tryCatch (.removeFiles tolerates_lockHolder id)
    fun _ _ => .throw ⟨(by rintro ⟨⟩), (by rintro ⟨⟩)⟩)) ?_
  rintro _ _ rfl
  exact Follows.op .delete fun _ _ => .pure trivial

/-! ### Assembling -/

/-- In the phases `S` a program may also change the job's reservation. -/
structure Assembles {Ph : Type} (P : Protocol RelaySig Ph) (id : JobId) (S : Ph → Prop) : Prop
    extends Tolerates P S where
  reserve : ∀ ph values n, S ph → values.Reserves n → P.allows ph (.updateJob id values) ∧
    ∀ r, P.after ph (.updateJob id values) r = ph
  consume : ∀ ph n, S ph → P.allows ph (.consume id n) ∧ ∀ r, P.after ph (.consume id n) r = ph

section Assembly

variable {Ph : Type} {P : Protocol RelaySig Ph} {S : Ph → Prop} (hA : Assembles P id S)
include hA

theorem stays_reserve (needed : ℕ) : Stays P S (reserve id needed) := by
  refine .bind (.call hA.toTolerates rfl) fun _ ph h => ?_
  obtain ⟨hallows, hafter⟩ := hA.reserve ph { reservedBytes := some needed } needed h
    ⟨rfl, rfl, rfl, rfl, rfl, rfl⟩
  refine .op hallows fun r _ => ?_
  rw [hafter r]
  exact .pure h

theorem stays_consume (size : ℕ) : Stays P S (consume id size) := by
  intro ph h
  obtain ⟨hallows, hafter⟩ := hA.consume ph size h
  refine .op hallows fun r _ => ?_
  rw [hafter r]
  exact .pure h

theorem stays_assembleArchives (job : Job) (hit : Bool) :
    Stays P S (assembleArchives id job hit) := by
  have hP := hA.toTolerates
  refine .bind (stays_reserve hA _) fun _ => ?_
  cases hit with
  | true => exact .call hP rfl
  | false =>
    exact .bind (.call hP rfl) fun _ => .bind (stays_consume hA _) fun _ => .call hP rfl

theorem stays_extractArchives (hit : Bool) : Stays P S (extractArchives id hit) := by
  have hP := hA.toTolerates
  refine .bind (.call hP rfl) fun _ => ?_
  cases hit with
  | true =>
    exact .bind (.pure _) fun _ => .bind (stays_reserve hA _) fun _ => .bind (.call hP rfl)
      fun _ => stays_consume hA _
  | false =>
    exact .bind (.call hP rfl) fun _ => .bind (stays_reserve hA _) fun _ => .bind (.call hP rfl)
      fun _ => .bind (.call hP rfl) fun _ => stays_consume hA _

/-- Assembling and validating changes nothing but the reservation. -/
theorem stays_assembleAndValidateJob (job : Job) : Stays P S (assembleAndValidateJob s id job) := by
  have hP := hA.toTolerates
  have hrest : ∀ username : String, Stays P S (do
      let cache ← getReadyDatasetCache s job.datasetRef job.payloadHash job.kaggleKeyId
      let datasetCacheHit := cache.isSome && !awaitingAssignment job
      assembleArchives id job datasetCacheHit
      extractArchives id datasetCacheHit
      if datasetCacheHit then
        validateKernelPayload s (s.kernelDir id) job.kernelRef username job.datasetRef
      else validatePayloads s (s.datasetDir id) (s.kernelDir id) job.datasetRef job.kernelRef
            username : Relay Unit) := fun username =>
    .bind (stays_getReadyDatasetCache hP _ _ _) fun cache => .bind (stays_assembleArchives hA _ _)
      fun _ => .bind (stays_extractArchives hA _) fun _ =>
      .ite (stays_validateKernelPayload hP _ _ _ _) (stays_validatePayloads hP _ _ _ _ _)
  exact .ite (hrest "") (.bind (.call hP rfl) fun username => hrest username)

end Assembly

theorem assembles_lockHolder {b : Bool} : Assembles (lockHolder id) id (· = .assembling b) where
  toTolerates := tolerates_lockHolder
  reserve := by
    rintro _ values n rfl hv
    exact ⟨.reserve hv, fun _ => rfl⟩
  consume := by
    rintro _ n rfl
    exact ⟨.consume, fun _ => rfl⟩

/-! ### Completing -/

theorem follows_unassemble {status : Status} {values : JobValues} {b : Bool}
    (hs : status = .receiving ∨ status = .failed) (hv : values.Sets (some status) values.error)
    (e : Exc) : Follows (lockHolder id) Anything (do
      let _ ← updateJobIfStatus id [.assembling] false none values
      Eff.throw e : Relay Unit) (.assembling b) :=
  .op (.unassemble hs hv) fun _ _ => .pure trivial

theorem follows_finishAssembly (job : Job) :
    Follows (lockHolder id) Anything (finishAssembly s id job)
      (.assembling (awaitingAssignment job)) := by
  have hA : Assembles (lockHolder id) id (· = .assembling (awaitingAssignment job)) :=
    assembles_lockHolder
  have hslot := (Stays.call hA.toTolerates (c := .assemblySlot) rfl) _ rfl
  refine Follows.seq (Follows.attempt hslot) ?_
  rintro (e | _) l hl
  · rw [show l = _ from hl.2]
    exact follows_unassemble (.inl rfl) (by exact ⟨rfl, rfl, rfl, rfl, rfl, rfl⟩) e
  · rw [show l = _ from hl]
    refine Follows.seq (Follows.attempt (stays_assembleAndValidateJob hA job _ rfl)) ?_
    rintro (e | _) l hl
    · rw [show l = _ from hl.2]
      refine Follows.ite (fun _ => ?_) fun _ => ?_
      · exact follows_unassemble (.inl rfl) (by exact ⟨rfl, rfl, rfl, rfl, rfl, rfl⟩) _
      · exact follows_unassemble (.inr rfl) (by exact ⟨rfl, rfl, rfl, rfl, rfl, rfl⟩) _
    · rw [show l = _ from hl]
      exact .op (.enqueue ⟨rfl, rfl, rfl, rfl, rfl, rfl⟩) fun _ _ => .pure trivial

theorem follows_checkUploaded (cacheHit : Bool) (l : LockPhase) :
    Follows (lockHolder id) (post (fun _ l' => l' = l) fun _ _ => True)
      (checkUploaded id cacheHit) l := by
  have hP : Tolerates (lockHolder id) (· = l) := tolerates_lockHolder
  refine follows_quiet ?_
  cases cacheHit with
  | true => exact .bind (.perform hP rfl) fun kernel => .raiseIf ⟨nofun, nofun⟩
  | false =>
    exact .bind (.perform hP rfl) fun _ => .bind (.raiseIf ⟨nofun, nofun⟩) fun _ => .bind (.perform hP rfl)
      fun kernel => .raiseIf ⟨nofun, nofun⟩

theorem follows_completeUpload (job : Job) :
    Follows (lockHolder id) Anything (completeUpload s id job)
      (.receiving (awaitingAssignment job)) := by
  refine Follows.seq (follows_quiet (stays_getReadyDatasetCache tolerates_lockHolder _ _ _)) ?_
  rintro cache _ rfl
  refine Follows.seq (follows_checkUploaded _ _) ?_
  rintro _ _ rfl
  refine Follows.op (.assemble ⟨rfl, rfl, rfl, rfl, rfl, rfl⟩) fun (updated : Bool) _ => ?_
  cases updated with
  | true => exact follows_finishAssembly job
  | false => exact .pure trivial

/-- A manual recheck of a parked upload. -/
theorem follows_requestRecheck (job : Job) (restartRecheck : Bool) :
    Follows (lockHolder id) Anything (requestRecheck s id job restartRecheck) .retained := by
  have hP : Tolerates (lockHolder id) (· = LockPhase.retained) := tolerates_lockHolder
  refine Follows.ite (fun _ => .pure trivial) fun _ => ?_
  refine Follows.seq (follows_quiet (.raiseIf ⟨nofun, nofun⟩)) ?_
  rintro _ _ rfl
  refine Follows.seq (follows_quiet (.raiseIf ⟨nofun, nofun⟩)) ?_
  rintro _ _ rfl
  refine Follows.seq (follows_quiet (.tryCatch (.readIntent hP _) fun e he => .ite (.throw ⟨nofun, nofun⟩) (.throw he))) ?_
  rintro intent _ rfl
  refine Follows.seq (follows_quiet (.raiseIf ⟨nofun, nofun⟩)) ?_
  rintro _ _ rfl
  refine Follows.op (.quiet rfl) fun (t : ℚ) _ => ?_
  refine Follows.op (.requeue (.inl rfl) ?_) fun _ _ => .pure trivial
  exact ⟨rfl, rfl, rfl, rfl, rfl, rfl⟩

theorem follows_completeJob (authorized restartRecheck : Bool) (l : LockPhase) :
    Follows (lockHolder id) Anything (completeJob s id authorized restartRecheck) l := by
  refine Follows.seq (follows_getAuthorizedJob authorized l) ?_
  rintro job _ rfl
  refine Follows.seq (follows_rejectExpiredUpload job _) ?_
  rintro _ _ rfl
  refine Follows.ite (fun hunknown => ?_) fun _ => Follows.ite (fun hretained => ?_) fun _ =>
    Follows.ite (fun _ => .pure trivial) fun hreceiving => ?_
  · -- the kernel's end is unknown
    have hphase : LockPhase.ofRow job = .unknown := by
      rcases (by simpa using hunknown.1 : job.status = .waitingKernel ∨ job.status = .cancelRequested)
        with hs | hs <;> simp [LockPhase.ofRow, hs, hunknown.2, Status.terminal]
    rw [hphase]
    refine Follows.op (.resume rfl ?_) fun _ _ => .pure trivial
    intro status hs
    split at hs <;> cases hs
    rfl
  · have hphase : LockPhase.ofRow job = .retained := by
      simp [LockPhase.ofRow, hretained.1, hretained.2, Status.terminal]
    rw [hphase]
    exact follows_requestRecheck job restartRecheck
  · have hreceiving : job.status = .receiving := not_not.mp hreceiving
    have hphase : LockPhase.ofRow job = .receiving (awaitingAssignment job) := by
      simp [LockPhase.ofRow, hreceiving, Status.terminal]
    rw [hphase]
    exact follows_completeUpload job

/-! ### Scheduled rechecks -/

theorem follows_blockRecheck_locked (reason : String) (l : LockPhase) :
    Follows (lockHolder id) Anything (blockRecheck id reason) l := by
  refine Follows.seq (follows_noteIf ?_) fun _ _ _ => .pure trivial
  exact ⟨rfl, rfl, rfl, rfl, rfl, rfl⟩

theorem follows_scheduleRecheck_locked (retryAfter : Option ℚ) (t : ℚ) (progress : Bool)
    (l : LockPhase) :
    Follows (lockHolder id) Anything (scheduleRecheck s id retryAfter (some t) progress) l := by
  refine Follows.op .read fun (job : Option Job) _ => ?_
  rcases job with _ | job
  · exact .pure trivial
  · refine Follows.ite (fun _ => .pure trivial) fun _ => ?_
    refine Follows.seq (follows_noteIf ?_) fun _ _ _ => .pure trivial
    exact ⟨rfl, rfl, rfl, rfl, rfl, rfl⟩

theorem follows_startRecheck (job : Job) (t : ℚ) :
    Follows (lockHolder id) Anything (startRecheck s id job t) .idle := by
  have hP : Tolerates (lockHolder id) (· = LockPhase.idle) := tolerates_lockHolder
  refine Follows.seq (follows_quiet (.call hP (c := .cooldownRemaining _) rfl)) ?_
  rintro cooldown _ rfl
  refine Follows.ite (fun _ => ?_) fun _ => ?_
  · refine Follows.seq (follows_noteIf ?_) fun _ _ _ => .pure trivial
    exact ⟨rfl, rfl, rfl, rfl, rfl, rfl⟩
  · refine Follows.seq (follows_quiet (.call hP (c := .accountAuthorized _) rfl)) ?_
    rintro authorized _ rfl
    refine Follows.ite (fun _ => follows_blockRecheck_locked _ _) fun _ => ?_
    refine Follows.seq (follows_quiet (.bind (stays_intentForRecovery hP _ _) fun _ => .pure _)) ?_
    rintro valid _ rfl
    refine Follows.ite (fun _ => follows_blockRecheck_locked _ _) fun _ => ?_
    refine Follows.op (.requeue (.inr rfl) ?_) fun _ _ => .pure trivial
    exact ⟨rfl, rfl, rfl, rfl, rfl, rfl⟩

theorem follows_scheduleDatasetRecheck (t : ℚ) (l : LockPhase) :
    Follows (lockHolder id) Anything (scheduleDatasetRecheck s id t) l := by
  have hread : SectionOp id l (.getJob id) := .read
  refine Follows.seq (Follows.perform (P := lockHolder id) hread) fun (job : Option Job) l' hl => ?_
  rcases job with _ | job
  · exact .pure trivial
  · rw [show l' = LockPhase.ofRow job from hl.2]
    refine Follows.seq (follows_isActive _) ?_
    rintro active _ rfl
    refine Follows.ite (fun _ => .pure trivial) fun hparked => ?_
    simp only [not_or, not_not, Bool.not_eq_true, Bool.not_eq_false] at hparked
    obtain ⟨hs, hactive, -, hretained⟩ := hparked
    have hidle : (if active = true then LockPhase.ofRow job else (LockPhase.ofRow job).inactive) =
        .idle := by
      rw [hactive]
      simp [LockPhase.ofRow, hs, hretained, Status.terminal, LockPhase.inactive]
    show Follows (lockHolder id) _ _ (if active = true then LockPhase.ofRow job else _)
    rw [hidle]
    split
    · exact Follows.ite (fun _ => follows_scheduleRecheck_locked _ _ _ _) fun _ =>
        follows_blockRecheck_locked _ _
    · exact Follows.ite (fun _ => .pure trivial) fun _ => Follows.ite
        (fun _ => follows_scheduleRecheck_locked _ _ _ _) fun _ => follows_startRecheck job t
    · exact .pure trivial

end Relay

/-- **Whatever holds a job's lock keeps to the protocol.** -/
theorem follows_request (s : Settings) (id : JobId) (request : World.Request) (l : LockPhase) :
    Follows (lockHolder id) (fun _ _ => True) (request.program s id) l := by
  have hall : Follows (lockHolder id) Relay.Anything (request.program s id) l := by
    cases request with
    | upload authorized => exact Relay.follows_uploadChunk authorized l
    | complete authorized restartRecheck => exact Relay.follows_completeJob authorized restartRecheck l
    | cancel authorized => exact Relay.follows_cancelJob authorized l
    | recheck t => exact Relay.follows_scheduleDatasetRecheck t l
    | cleanup stale receivingCutoff => exact Relay.follows_cleanupJob stale receivingCutoff l
    | delete authorized => exact Relay.follows_deleteJob authorized l
  exact hall.mono fun _ _ _ => trivial

/-! ### Without a lock -/

/-- How far a program without a lock is. -/
inductive LoosePhase where
  | unread
  /-- It has read the row for the first time. -/
  | seen (first : Job)
  /-- It has read it again, in this status and with or without a cancellation. -/
  | read (first : Job) (status : Status) (canceled : Bool)

/-- The callback's first look at the row lets it through: the job is bound, and
if it is dynamic, it is past the queue. -/
def Admitted (first : Job) : Prop :=
  awaitingAssignment first = false ∧ (first.schedulingMode = .dynamic →
    first.status ≠ .receiving ∧ first.status ≠ .assembling ∧ first.status ≠ .queued)

/-- The operations of what runs without a lock. -/
inductive LooseOp (id : JobId) : LoosePhase → RelayOp → Prop
  | quiet {p : LoosePhase} {o : RelayOp} (h : o.touches = false) : LooseOp id p o
  | read {p : LoosePhase} : LooseOp id p (.getJob id)
  | noteIf {p : LoosePhase} {expected : List Status} {nc : Bool} {ek : Option String}
    {values : JobValues} (hv : values.Sets none none) :
    LooseOp id p (.updateJobIfStatus id expected nc ek values)
  | report {first : Job} {status : Status} {canceled : Bool} {ek : Option String}
    {values : JobValues} (hf : Admitted first) (ht : status.terminal = false)
    (hv : values.Sets (some (if canceled then .cancelRequested else .waitingKernel)) none) :
    LooseOp id (.read first status canceled) (.updateJobIfStatus id [status] false ek values)
  | refuse {p : LoosePhase} {values : JobValues} {e : String}
    (hv : values.Sets (some .failed) (some e))
    (hretained : Text.startswith e Relay.retainedPrefix = false)
    (hunknown : Text.startswith e "kernel_status_unknown:" = false) :
    LooseOp id p (.updateJobIfStatus id [.queued] false none values)
  | bind {p : LoosePhase} {values : JobValues}
    (hv : ({ values with assignmentState := none } : JobValues).Sets none none)
    (ha : values.assignmentState = some .bound) :
    LooseOp id p (.updateJobIfStatusAndPut id [.queued] true values true .process)

def looseAfter (p : LoosePhase) : (o : RelayOp) → o.Res → LoosePhase
  | .getJob _, some job =>
    match p with
    | .unread => .seen job
    | .seen first | .read first _ _ => .read first job.status job.cancelRequestedAt.isSome
  | _, _ => p

/-- The protocol of progress callbacks and of the account scheduler. -/
def unlocked (id : JobId) : Protocol RelaySig LoosePhase :=
  ⟨LooseOp id, fun _ o r => World.legal o r = true, looseAfter⟩

namespace Relay

variable {s : Settings} {id : JobId}

/-- The loop of a callback writes over the status it has read last. -/
theorem follows_storeProgress (data : String) (payload : ProgressRequest) {first : Job}
    (hf : Admitted first) (n : ℕ) {p : LoosePhase}
    (hp : p = .seen first ∨ ∃ status canceled, p = .read first status canceled) :
    Follows (unlocked id) Anything (storeProgress s id data payload n) p := by
  induction n generalizing p with
  | zero => exact .pure trivial
  | succ n ih =>
    refine Follows.op .read fun (current : Option Job) _ => ?_
    rcases current with _ | current
    · exact .pure trivial
    · have hread : (unlocked id).after p (.getJob id) (some current) =
          .read first current.status current.cancelRequestedAt.isSome := by
        rcases hp with rfl | ⟨status, canceled, rfl⟩ <;> rfl
      rw [hread]
      show Follows (unlocked id) Anything
        (Eff.bind (Eff.lift ((s.ignoreStartupProgress current data).mapError .typeError)) _) _
      refine Follows.seq (Q := fun _ p' => p' = .read first current.status current.cancelRequestedAt.isSome)
        (Follows.lift (fun _ _ => rfl) fun _ _ => trivial) ?_
      rintro ignored _ rfl
      refine Follows.ite (fun _ => .pure trivial) fun _ => ?_
      have hagain : ∀ updated : Bool, Follows (unlocked id) Anything
          (if updated then pure () else storeProgress s id data payload n : Relay Unit)
          (.read first current.status current.cancelRequestedAt.isSome) := fun updated =>
        Follows.ite (fun _ => .pure trivial) fun _ => ih (.inr ⟨_, _, rfl⟩)
      by_cases ht : current.status.terminal = true
      · -- a callback after the end changes the progress only
        refine Follows.op (.noteIf ⟨if_pos ht, rfl, rfl, rfl, rfl, rfl⟩) fun (updated : Bool) _ => ?_
        exact hagain updated
      · refine Follows.op (.report hf (by simpa using ht) ⟨if_neg ht, rfl, rfl, rfl, rfl, rfl⟩)
          fun (updated : Bool) _ => ?_
        exact hagain updated

theorem follows_updateJobProgress (authorized : Bool) (payload : ProgressRequest) :
    Follows (unlocked id) Anything (updateJobProgress s id authorized payload) .unread := by
  have hread : LooseOp id .unread (.getJob id) := .read
  refine Follows.seq (Follows.perform (P := unlocked id) hread) fun (job : Option Job) p hp => ?_
  rcases job with _ | job
  · exact .pure trivial
  · rw [show p = .seen job from hp.2]
    refine Follows.seq (Follows.raiseIf fun _ => trivial) ?_
    rintro - _ ⟨-, rfl⟩
    refine Follows.seq (Follows.raiseIf fun _ => trivial) ?_
    rintro - _ ⟨hadmitted, rfl⟩
    have hf : Admitted job := by
      rw [not_and_or, not_or] at hadmitted
      rcases hadmitted with hfixed | ⟨hbound, hs⟩
      · refine ⟨?_, fun hd => absurd hd hfixed⟩
        unfold awaitingAssignment
        rw [beq_eq_false_iff_ne.mpr hfixed]
        rfl
      · simp only [List.mem_cons, List.not_mem_nil, or_false, not_or] at hs
        exact ⟨by simpa using hbound, fun _ => hs⟩
    refine Follows.seq (Follows.raiseIf fun _ => trivial) ?_
    rintro - _ ⟨-, rfl⟩
    exact Follows.ite (fun _ => .pure trivial) fun _ =>
      follows_storeProgress _ payload hf 5 (.inl rfl)

theorem follows_schedulePendingJob :
    Follows (unlocked id) Anything (schedulePendingJob id) .unread := by
  refine Follows.op .read fun (job : Option Job) _ => ?_
  rcases job with _ | current
  · exact .pure trivial
  · refine Follows.ite (fun _ => .pure trivial) fun _ => ?_
    refine Follows.seq (Q := fun _ _ => True) (E := fun _ _ => True)
      (.op (.quiet rfl) fun r _ => .pure ?_) fun choice p _ => ?_
    · rcases r with e | choice <;> exact trivial
    · rcases choice with _ | reason | ⟨keyId, username⟩
      · refine Follows.op (.refuse ⟨rfl, rfl, rfl, rfl, rfl, rfl⟩ ?_ ?_) fun _ _ => .pure trivial
        · rfl
        · rfl
      · refine Follows.op (.noteIf ?_) fun _ _ => .pure trivial
        exact ⟨rfl, rfl, rfl, rfl, rfl, rfl⟩
      · refine Follows.seq (Q := fun _ _ => True) (.lift (fun _ _ => trivial) fun _ _ => trivial)
          fun datasetRef p _ => ?_
        refine Follows.seq (Q := fun _ _ => True) (.lift (fun _ _ => trivial) fun _ _ => trivial)
          fun kernelRef p _ => ?_
        refine Follows.op (.bind ?_ rfl) fun _ _ => .pure trivial
        exact ⟨rfl, rfl, rfl, rfl, rfl, rfl⟩

end Relay

/-- **Whatever runs without a lock keeps to the protocol.** -/
theorem follows_looseRequest (s : Settings) (id : JobId) (request : World.LooseRequest) :
    Follows (unlocked id) (fun _ _ => True) (request.program s id) .unread := by
  have hall : Follows (unlocked id) Relay.Anything (request.program s id) .unread := by
    cases request with
    | progress authorized payload => exact Relay.follows_updateJobProgress authorized payload
    | schedulePending => exact Relay.follows_schedulePendingJob
  exact hall.mono fun _ _ _ => trivial

/-! ### Recovery -/

/-- How far the recovery of a job is. -/
inductive RecoveryPhase where
  /-- The row is still in this status. -/
  | live (status : Status)
  | queued
  | settled

/-- The operations of the recovery. -/
inductive RecoveryOp (id : JobId) : RecoveryPhase → RelayOp → Prop
  | quiet {p : RecoveryPhase} {o : RelayOp} (h : o.touches = false) : RecoveryOp id p o
  | poll {p : RecoveryPhase} {kernelRef : String} : RecoveryOp id p (.call (.kernelStatus kernelRef))
  | reserve {status : Status} {values : JobValues} {n : ℕ} (hv : values.Reserves n) :
    RecoveryOp id (.live status) (.updateJob id values)
  | consume {status : Status} {n : ℕ} : RecoveryOp id (.live status) (.consume id n)
  | finish {old status : Status} {values : JobValues} (hs : status = .failed ∨ status = .canceled)
    (hv : values.Sets (some status) values.error) : RecoveryOp id (.live old) (.updateJob id values)
  | requeueIf {status : Status} {values : JobValues}
    (hs : status = .uploadingDataset ∨ status = .waitingDataset)
    (hv : values.Sets (some .queued) (some "")) :
    RecoveryOp id (.live status) (.updateJobIfStatus id [status] true none values)
  | requeue {values : JobValues} (hv : values.Sets (some .queued) (some "")) :
    RecoveryOp id (.live .assembling) (.updateJob id values)

def recoveryAfter (p : RecoveryPhase) : (o : RelayOp) → o.Res → RecoveryPhase
  | .updateJob _ values, _ =>
    match values.status with
    | some .queued => .queued
    | some _ => .settled
    | none => p
  | .updateJobIfStatus _ _ _ _ _, updated => if updated then .queued else p
  | _, _ => p

/-- The protocol of a job's recovery. -/
def recovering (id : JobId) : Protocol RelaySig RecoveryPhase :=
  ⟨RecoveryOp id, fun _ o r => World.legal o r = true, recoveryAfter⟩

/-- The item that a recovery ends with is for a job past the intake, one that
resumes a kernel is for a job past its submission, and a queued job has one that
processes it. -/
structure Recovers (id : JobId) (r : Option QueueItem) (p : RecoveryPhase) : Prop where
  item : ∀ item ∈ r, item.jobId = id ∧ item.action.Sound ∧
    ((p = .queued ∧ item.action.isResume = false) ∨
      ∃ status, p = .live status ∧ status.intake = false ∧
        (item.action.isResume = true → status.submitted = true))
  queued : p = .queued ∨ p = .live .queued → ∃ item ∈ r, item.action.isResume = false

theorem tolerates_recovering {id : JobId} {S : RecoveryPhase → Prop} : Tolerates (recovering id) S where
  allows _ _ _ h := .quiet h
  after p o r h := by cases o <;> first | rfl | cases h
  answers _ _ _ h := h

namespace Relay

variable {s : Settings} {id : JobId} {job : Job}

theorem assembles_recovering {status : Status} :
    Assembles (recovering id) id (· = .live status) where
  toTolerates := tolerates_recovering
  reserve := by
    rintro _ values n rfl hv
    refine ⟨.reserve hv, fun _ => ?_⟩
    simp only [recovering, recoveryAfter, hv.status]
  consume := by
    rintro _ n rfl
    exact ⟨.consume, fun _ => rfl⟩

theorem recovers_none {p : RecoveryPhase} (h : p ≠ .queued) (hlive : p ≠ .live .queued) :
    Recovers id none p :=
  ⟨nofun, fun hp => absurd hp (not_or.mpr ⟨h, hlive⟩)⟩

theorem recovers_some {action : QueueAction} {status : Status} (ha : action.Sound)
    (hs : status.intake = false) (hq : status = .queued → action.isResume = false)
    (hresume : action.isResume = true → status.submitted = true) :
    Recovers id (some ⟨action, id⟩) (.live status) := by
  refine ⟨fun item h => ?_, fun h => ⟨_, rfl, hq ?_⟩⟩
  · cases h
    exact ⟨rfl, ha, .inr ⟨status, rfl, hs, hresume⟩⟩
  · rcases h with h | h
    · cases h
    · exact RecoveryPhase.live.inj h

/-- A job that the recovery has queued is processed. -/
theorem recovers_queued {action : QueueAction} (ha : action.Sound) (hr : action.isResume = false) :
    Recovers id (some ⟨action, id⟩) .queued := by
  refine ⟨fun item h => ?_, fun _ => ⟨_, rfl, hr⟩⟩
  cases h
  exact ⟨rfl, ha, .inl ⟨rfl, hr⟩⟩

theorem sound_process : QueueAction.Sound .process := nofun

theorem sound_recheckDataset : QueueAction.Sound .recheckDataset := nofun

theorem sound_resumeKernel_none : QueueAction.Sound (.resumeKernel none) := nofun

theorem sound_resumeKernel_canceled : QueueAction.Sound (.resumeKernel (some .canceled)) := by
  intro status h
  cases h
  rfl

theorem sound_recoveredAction : (recoveredAction job).Sound := by
  unfold recoveredAction
  split
  · exact sound_recheckDataset
  · exact sound_process

theorem isResume_recoveredAction : (recoveredAction job).isResume = false := by
  unfold recoveredAction
  split <;> rfl

/-- A step of the recovery that leaves the row alone. -/
theorem follows_steady {α : Type} {q : Relay α} {status : Status}
    (hq : Stays (recovering id) (· = .live status) q) :
    Follows (recovering id) (post (fun _ p => p = .live status) fun _ p => p = .live status) q
      (.live status) :=
  (hq _ rfl).imp (fun _ _ h => h) fun _ _ h => h.2

theorem follows_finish {status old : Status} {values : JobValues}
    (hs : status = .failed ∨ status = .canceled) (hv : values.Sets (some status) values.error) :
    Follows (recovering id) (post (Recovers id) fun _ _ => True) (do
      updateJob id values
      pure none : Relay (Option QueueItem)) (.live old) := by
  have hafter : recoveryAfter (.live old) (.updateJob id values) () = .settled := by
    rcases hs with rfl | rfl <;> simp only [recoveryAfter, hv.status]
  refine .op (.finish hs hv) fun _ _ => .pure ?_
  show Recovers id none (recoveryAfter (.live old) (.updateJob id values) ())
  rw [hafter]
  exact recovers_none nofun nofun

theorem follows_failRecoveredJob (message : String) (status : Status) :
    Follows (recovering id) (post (Recovers id) fun _ _ => True) (failRecoveredJob s id message)
      (.live status) :=
  follows_finish (.inl rfl) ⟨rfl, rfl, rfl, rfl, rfl, rfl⟩

/-- Whatever the query of a kernel's status says, the row is as it was. -/
theorem follows_kernelStatus (kernelRef : String) (p : RecoveryPhase) :
    Follows (recovering id) (post (fun _ p' => p' = p) fun _ _ => True)
      (Eff.attempt (call (.kernelStatus kernelRef))) p :=
  .op .poll fun _ _ => .pure rfl

theorem follows_recoverCanceled :
    Follows (recovering id) (post (Recovers id) fun _ _ => True) (recoverCanceled s id job)
      (.live .cancelRequested) := by
  have hcancel : Follows (recovering id) (post (Recovers id) fun _ _ => True) (do
      updateJob id
        { status := some .canceled
          error := some (if job.cancelReason = "" then "cancel requested" else job.cancelReason) }
      pure none : Relay (Option QueueItem)) (.live .cancelRequested) :=
    follows_finish (.inr rfl) ⟨rfl, rfl, rfl, rfl, rfl, rfl⟩
  have hresume : Recovers id (some ⟨.resumeKernel (some .canceled), id⟩) (.live .cancelRequested) :=
    recovers_some sound_resumeKernel_canceled rfl nofun fun _ => rfl
  refine Follows.op (.quiet rfl) fun (logged : Bool) _ => ?_
  refine Follows.ite (fun _ => .pure hresume) fun _ => Follows.ite (fun _ => ?_) fun _ => hcancel
  refine Follows.seq ((follows_steady (.call tolerates_recovering (c := .credentialsFor _) rfl)).imp
    (fun _ _ h => h) fun _ _ _ => trivial) ?_
  rintro _ _ rfl
  refine Follows.seq (follows_kernelStatus _ _) ?_
  rintro (e | _) _ rfl
  · exact Follows.ite (fun _ => hcancel) fun _ => follows_failRecoveredJob _ _
  · exact .pure hresume

theorem follows_recoverPushing :
    Follows (recovering id) (post (Recovers id) fun _ _ => True) (recoverPushing s id job)
      (.live .pushingKernel) := by
  refine Follows.seq ((follows_steady (.call tolerates_recovering (c := .credentialsFor _) rfl)).imp
    (fun _ _ h => h) fun _ _ _ => trivial) ?_
  rintro _ _ rfl
  refine Follows.seq (follows_kernelStatus _ _) ?_
  rintro (e | _) _ rfl
  · exact Follows.ite (fun _ => follows_failRecoveredJob _ _) fun _ => follows_failRecoveredJob _ _
  · exact .pure (recovers_some sound_resumeKernel_none rfl nofun fun _ => rfl)

theorem follows_recoverDataset (hs : job.status = .uploadingDataset ∨ job.status = .waitingDataset) :
    Follows (recovering id) (post (Recovers id) fun _ _ => True) (recoverDataset s id job)
      (.live job.status) := by
  have hnone : Recovers id none (.live job.status) :=
    recovers_none nofun (by rcases hs with h | h <;> rw [h] <;> exact nofun)
  refine Follows.ite (fun _ => .pure hnone) fun _ => ?_
  refine Follows.seq (Follows.attempt (follows_steady (.readIntent tolerates_recovering _))) ?_
  rintro (e | intent) p hp
  · rw [show p = _ from hp]
    exact Follows.ite (fun _ => follows_failRecoveredJob _ _) fun _ => .pure trivial
  · rw [show p = _ from hp]
    refine Follows.ite (fun _ => ?_) fun _ => follows_failRecoveredJob _ _
    refine Follows.op (.requeueIf hs ⟨rfl, rfl, rfl, rfl, rfl, rfl⟩) fun (updated : Bool) _ => ?_
    cases updated with
    | true => exact .pure (recovers_queued sound_recoveredAction isResume_recoveredAction)
    | false => exact .pure hnone

theorem follows_recoverAssembling :
    Follows (recovering id) (post (Recovers id) fun _ _ => True) (recoverAssembling s id job)
      (.live .assembling) := by
  refine Follows.seq (Follows.attempt
    (follows_steady (stays_assembleAndValidateJob assembles_recovering job))) ?_
  rintro (e | _) p hp
  · rw [show p = _ from hp]
    exact follows_failRecoveredJob _ _
  · rw [show p = _ from hp]
    refine Follows.op (.requeue ⟨rfl, rfl, rfl, rfl, rfl, rfl⟩) fun _ _ => .pure ?_
    exact recovers_queued sound_process rfl

end Relay

/-- **The recovery of a job keeps to the protocol.** -/
theorem follows_recoverJobAfterRestart (s : Settings) (id : JobId) (job : Job) :
    Follows (recovering id) (post (Recovers id) fun _ _ => True)
      (Relay.recoverJobAfterRestart s id job) (.live job.status) := by
  unfold Relay.recoverJobAfterRestart
  cases hs : job.status with
  | queued =>
    refine .pure (Relay.recovers_some Relay.sound_recoveredAction rfl
      (fun _ => Relay.isResume_recoveredAction) fun h => ?_)
    rw [Relay.isResume_recoveredAction] at h
    cases h
  | waitingKernel | downloadingOutput =>
    exact .pure (Relay.recovers_some Relay.sound_resumeKernel_none rfl nofun fun _ => rfl)
  | cancelRequested => exact Relay.follows_recoverCanceled
  | pushingKernel => exact Relay.follows_recoverPushing
  | uploadingDataset =>
    have h : Follows (recovering id) (post (Recovers id) fun _ _ => True)
        (Relay.recoverDataset s id job) (.live job.status) := Relay.follows_recoverDataset (.inl hs)
    rwa [hs] at h
  | waitingDataset =>
    have h : Follows (recovering id) (post (Recovers id) fun _ _ => True)
        (Relay.recoverDataset s id job) (.live job.status) := Relay.follows_recoverDataset (.inr hs)
    rwa [hs] at h
  | assembling => exact Relay.follows_recoverAssembling
  | receiving | complete | failed | canceled => exact .pure (Relay.recovers_none nofun nofun)

end KaggleRelay

/-
From the running relay to the views of its jobs.

`Job.core` is what a row says and `World.view` what a state says about one job.
The writers of a row act on its core as the moves do (`core_updateJob`,
`core_finalizeJob`, `core_cancel`), and `frame_perform` — an operation on one
job leaves the views of the others alone.
-/
import KaggleRelay.LifecycleSound
import KaggleRelay.ServiceConduct

namespace KaggleRelay

open Effects Lifecycle

/-! ### Rows -/

/-- The error says that an upload is retained. -/
def retainedError (error : String) : Bool := Text.startswith error Relay.retainedPrefix

/-- The error says that the kernel's status is unknown. -/
def unknownError (error : String) : Bool := Text.startswith error "kernel_status_unknown:"

/-- What a row says. -/
def Job.core (job : Job) : Core where
  status := job.status
  canceled := job.cancelRequestedAt.isSome
  completed := job.completedAt.isSome
  reserves := job.reservedBytes != 0
  retained := retainedError job.error
  unknown := unknownError job.error
  awaiting := awaitingAssignment job
  dynamic := job.schedulingMode == .dynamic

section Cores

variable {job : Job} {values : JobValues} {now : ℚ}

/-- An error of one kind is not of the other. -/
theorem retainedError_of_unknownError {e : String} (h : unknownError e = true) :
    retainedError e = false := by
  unfold unknownError retainedError Text.startswith at *
  rw [List.isPrefixOf_iff_prefix] at h
  obtain ⟨rest, hrest⟩ := h
  rw [← hrest]
  rfl

theorem unknownError_of_retainedError {e : String} (h : retainedError e = true) :
    unknownError e = false := by
  by_contra hne
  rw [retainedError_of_unknownError (by simpa using hne)] at h
  cases h

theorem forgetful_core {e : Option String} (he : Forgetful e) (error : String) :
    (retainedError (e.getD error) = true → retainedError error = true) ∧
      (unknownError (e.getD error) = true → unknownError error = true) := by
  rcases he with rfl | rfl
  · exact ⟨id, id⟩
  · refine ⟨fun h => ?_, fun h => ?_⟩
    · rw [Option.getD_some, show retainedError "" = false by rfl] at h
      cases h
    · rw [Option.getD_some, show unknownError "" = false by rfl] at h
      cases h

/-- Values that set an error only. -/
theorem core_set_error {e : Option String} (hv : values.Sets none e) :
    (updateJob now values job).core = { job.core with
      retained := retainedError (e.getD job.error), unknown := unknownError (e.getD job.error) } := by
  obtain ⟨hs, he, hca, hco, hr, ha⟩ := hv
  have hsealed : values.sealed now = values := by
    unfold JobValues.sealed
    rw [hs]
  unfold updateJob Job.core awaitingAssignment
  rw [hsealed]
  simp only [Job.set, hs, he, hca, hco, hr, ha, Option.getD_none]

/-- Values that set a status. -/
theorem core_set_status {status : Status} {e : Option String} (hv : values.Sets (some status) e) :
    (updateJob now values job).core = job.core.moved status (retainedError (e.getD job.error))
      (unknownError (e.getD job.error)) := by
  obtain ⟨hs, he, hca, hco, hr, ha⟩ := hv
  unfold updateJob Job.core awaitingAssignment JobValues.sealed Core.moved
  rw [hs]
  dsimp only
  by_cases ht : status.terminal = true
  · rw [if_pos ht]
    simp [Job.set, he, hca, hco, ha, ht]
  · rw [if_neg ht]
    simp [Job.set, hs, he, hca, hco, hr, ha, ht]

/-- A status that does not end the job leaves everything else as it was. -/
theorem moved_of_live {c : Core} {status : Status} {retained unknown : Bool}
    (h : status.terminal = false) :
    c.moved status retained unknown = { c with status, retained, unknown } := by
  simp [Core.moved, h]

theorem core_finalizeJob {preferred : Status} (hv : values.Sets none values.error)
    (hp : preferred.terminal = true) :
    (finalizeJob now preferred values job).core = job.core.finalized preferred
      (retainedError (values.error.getD job.error)) (unknownError (values.error.getD job.error)) := by
  obtain ⟨hs, he, hca, hco, hr, ha⟩ := hv
  unfold finalizeJob Core.finalized
  by_cases ht : job.status.terminal = true
  · rw [if_pos ht, if_pos (show job.core.status.terminal = true from ht)]
  · rw [if_neg ht, if_neg (show ¬job.core.status.terminal = true from ht)]
    have hstatus : (if job.cancelRequestedAt.isSome = true ∨ job.status = .cancelRequested then
        Status.canceled else preferred) =
        if job.core.canceled || job.core.status == .cancelRequested then .canceled else preferred := by
      simp only [Job.core, Bool.or_eq_true, beq_iff_eq]
    have hterm : (if job.core.canceled || job.core.status == .cancelRequested then Status.canceled
        else preferred).terminal = true := by
      split
      · rfl
      · exact hp
    unfold Core.moved
    rw [← hstatus] at hterm ⊢
    simp only [Job.core, Job.set, awaitingAssignment, hca, ha, hterm, Option.getD_some,
      Option.getD_none, Option.isSome_some, Bool.or_true, Bool.not_true, Bool.and_false]
    rfl

/-- `request_job_cancel`. -/
theorem core_cancel {t : ℚ} :
    (updateJob now (cancelValues t job.status) job).core =
      { job.core.moved job.core.cancelStatus false false with canceled := true } := by
  have hflags : retainedError "" = false ∧ unknownError "" = false ∧
      retainedError "canceled before submission" = false ∧
      unknownError "canceled before submission" = false := ⟨rfl, rfl, rfl, rfl⟩
  obtain ⟨h1, h2, h3, h4⟩ := hflags
  have hstatus : job.core.cancelStatus =
      if job.status ∈ [.receiving, .assembling, .queued] then .canceled else .cancelRequested := by
    unfold Core.cancelStatus
    cases hst : job.status <;> simp [Job.core, hst, Status.intake]
  rw [hstatus]
  unfold cancelValues
  dsimp only
  by_cases hm : job.status ∈ [.receiving, .assembling, .queued]
  · simp [hm, updateJob, JobValues.sealed, Job.core, Job.set, Core.moved, awaitingAssignment,
      Status.terminal, h3, h4]
  · simp [hm, updateJob, JobValues.sealed, Job.core, Job.set, Core.moved, awaitingAssignment,
      Status.terminal, h1, h2]

theorem core_reserves {n : ℕ} (hv : values.Reserves n) :
    (updateJob now values job).core = { job.core with reserves := n != 0 } := by
  obtain ⟨hs, he, hca, hco, hr, ha⟩ := hv
  have hsealed : values.sealed now = values := by
    unfold JobValues.sealed
    rw [hs]
  unfold updateJob Job.core awaitingAssignment
  rw [hsealed]
  simp only [Job.set, hs, he, hca, hco, hr, ha, Option.getD_none, Option.getD_some]

/-- A job that gets its account no longer waits for one. -/
theorem core_bind (hv : ({ values with assignmentState := none } : JobValues).Sets none none)
    (ha : values.assignmentState = some .bound) :
    (updateJob now values job).core = { job.core with awaiting := false } := by
  obtain ⟨hs, he, hca, hco, hr, -⟩ := hv
  dsimp only at hs he hca hco hr
  have hsealed : values.sealed now = values := by
    unfold JobValues.sealed
    rw [hs]
  unfold updateJob Job.core awaitingAssignment
  rw [hsealed]
  simp only [Job.set, hs, he, hca, hco, hr, ha, Option.getD_none, Option.getD_some]
  simp

end Cores

/-! ### Views -/

/-- How far every job's task and every holder of a lock is. -/
structure Phases where
  worker : JobId → WorkerPhase
  lock : JobId → LockPhase

namespace World

/-- Whether a statement holds. -/
noncomputable def holds (p : Prop) : Bool := open Classical in decide p

@[simp] theorem holds_eq_true {p : Prop} : holds p = true ↔ p := by
  classical
  unfold holds
  rw [decide_eq_true_iff]

@[simp] theorem holds_eq_false {p : Prop} : holds p = false ↔ ¬p := by
  rw [← Bool.not_eq_true, holds_eq_true]

/-- What a state says about one job. -/
noncomputable def view (w : World) (ph : Phases) (id : JobId) : View where
  known := holds (id ∈ w.ids)
  row := (w.jobs id).map Job.core
  driver := (w.active id).map fun t => ⟨ph.worker id, t.gaveUp, returned t.program⟩
  lock := ph.lock id
  process := holds (∃ item ∈ w.queue, item.jobId = id ∧ item.action.isResume = false)
  resume := holds (∃ item ∈ w.queue, item.jobId = id ∧ item.action.isResume = true)
  pending := holds (∃ account, ∃ item ∈ w.pending account, item.jobId = id)
  committed := holds (Event.submitting id none ∈ w.trace)
  pushes := w.trace.count (.pushed id)

/-- The parts of a state that an operation on the job `id` leaves alone: all of
the memory but the queue, and everything about other jobs. -/
structure Frame (id : JobId) (w w' : World) : Prop where
  ids : w'.ids = w.ids
  active : w'.active = w.active
  accounts : w'.accounts = w.accounts
  sections : w'.sections = w.sections
  loose : w'.loose = w.loose
  pending : w'.pending = w.pending
  recovery : w'.recovery = w.recovery
  jobs : ∀ x, x ≠ id → w'.jobs x = w.jobs x
  queue : ∀ item, item.jobId ≠ id → (item ∈ w'.queue ↔ item ∈ w.queue)
  pushed : ∀ x, x ≠ id → w'.trace.count (.pushed x) = w.trace.count (.pushed x)
  submitting : ∀ x t, x ≠ id → (Event.submitting x t ∈ w'.trace ↔ Event.submitting x t ∈ w.trace)

theorem Frame.refl (id : JobId) (w : World) : Frame id w w :=
  ⟨rfl, rfl, rfl, rfl, rfl, rfl, rfl, fun _ _ => rfl, fun _ _ => .rfl, fun _ _ => rfl,
    fun _ _ _ => .rfl⟩

theorem Frame.view {id : JobId} {w w' : World} (h : Frame id w w') (ph : Phases) {x : JobId}
    (hx : x ≠ id) : w'.view ph x = w.view ph x := by
  have hqueue : ∀ b, (∃ item ∈ w'.queue, item.jobId = x ∧ item.action.isResume = b) ↔
      ∃ item ∈ w.queue, item.jobId = x ∧ item.action.isResume = b := by
    intro b
    constructor
    · rintro ⟨item, hmem, rfl, hb⟩
      exact ⟨item, (h.queue item hx).mp hmem, rfl, hb⟩
    · rintro ⟨item, hmem, rfl, hb⟩
      exact ⟨item, (h.queue item hx).mpr hmem, rfl, hb⟩
  unfold World.view
  rw [h.pending]
  simp only [h.ids, h.active, h.jobs x hx, hqueue, h.pushed x hx, h.submitting x none hx]

/-! ### Operations on one job -/

/-- The operation is about no other job. -/
def On (id : JobId) : RelayOp → Prop
  | .getJob i | .updateJob i _ | .updateJobIfStatus i _ _ _ _ | .finalizeJob i _ _ | .consume i _
  | .resumeIfInactive i _ _ | .updateJobIfStatusAndPut i _ _ _ _ _ | .deleteJobRecord i
  | .pushKernel i _ => i = id
  | _ => True

variable {s : Settings} {c : Choice} {id : JobId} {w : World}

theorem frame_modifyJob (f : Job → Job) : Frame id w (w.modifyJob id f) :=
  ⟨rfl, rfl, rfl, rfl, rfl, rfl, rfl, fun _ hx => Function.update_of_ne hx _ _, fun _ _ => .rfl,
    fun _ _ => rfl, fun _ _ _ => .rfl⟩

theorem frame_updateIfStatus {t : ℚ} {expected : List Status} {nc : Bool} {ek : Option String}
    {values : JobValues} {w' : World}
    (h : w.updateIfStatus t id expected nc ek values = some w') : Frame id w w' := by
  unfold updateIfStatus at h
  rcases hj : w.jobs id with _ | job
  · rw [hj] at h
    cases h
  · rw [hj] at h
    rcases hu : KaggleRelay.updateJobIfStatus t expected nc ek values job with _ | job'
    · simp [hu] at h
    · simp only [hu, Option.bind_some, Option.map_some, Option.some.injEq] at h
      subst h
      have htrace : ∀ e, (∀ r, e ≠ Event.submitting id r) →
          (submission id values job ++ w.trace).count e = w.trace.count e := by
        intro e he
        unfold submission
        split
        · rw [List.singleton_append, List.count_cons_of_ne (he _).symm]
        · rfl
      refine ⟨rfl, rfl, rfl, rfl, rfl, rfl, rfl, fun x hx => Function.update_of_ne hx _ _,
        fun _ _ => .rfl, fun x hx => htrace _ (fun _ => nofun), fun x r hx => ?_⟩
      have he : ∀ r', Event.submitting x r ≠ .submitting id r' := by
        intro r' heq
        cases heq
        exact hx rfl
      rw [← List.count_pos_iff, ← List.count_pos_iff, htrace _ he]

theorem frame_put {action : QueueAction} {w' : World} (h : Frame id w w') (put : Bool) :
    Frame id w { w' with queue := w'.queue ++ if put then [⟨action, id⟩] else [] } := by
  refine ⟨h.ids, h.active, h.accounts, h.sections, h.loose, h.pending, h.recovery, h.jobs,
    fun item hitem => ?_, h.pushed, h.submitting⟩
  rw [← h.queue item hitem, List.mem_append]
  refine ⟨fun hm => hm.resolve_right fun hput => hitem ?_, .inl⟩
  split at hput
  · rw [List.mem_singleton.mp hput]
  · cases hput

/-- An operation that touches nothing changes at most the caches, the intents
and the directories. -/
theorem perform_quiet {o : RelayOp} (h : o.touches = false) :
    ∃ caches lastJobs intents dirs, (perform s c o w).2 = { w with caches, lastJobs, intents, dirs } := by
  cases o with
  | call call =>
    cases call with
    | extractArchive i archiveType =>
      simp only [perform, performCall]
      split <;> exact ⟨_, _, _, _, rfl⟩
    | requireFile dir name =>
      simp only [perform, performCall]
      split <;> exact ⟨_, _, _, _, rfl⟩
    | _ => exact ⟨_, _, _, _, rfl⟩
  | removeFiles i =>
    simp only [perform]
    split <;> exact ⟨_, _, _, _, rfl⟩
  | writeIntent path intent =>
    simp only [perform]
    split
    · exact ⟨_, _, _, _, rfl⟩
    · split <;> exact ⟨_, _, _, _, rfl⟩
  | contentDigest dir =>
    simp only [perform]
    split <;> exact ⟨_, _, _, _, rfl⟩
  | getJob | updateJob | updateJobIfStatus | finalizeJob | consume | isActive | resumeIfInactive
  | updateJobIfStatusAndPut | deleteJobRecord | pushKernel => cases h
  | _ => exact ⟨_, _, _, _, rfl⟩

theorem frame_of_quiet {o : RelayOp} (h : o.touches = false) : Frame id w (perform s c o w).2 := by
  obtain ⟨caches, lastJobs, intents, dirs, heq⟩ := perform_quiet (s := s) (c := c) (w := w) h
  rw [heq]
  exact ⟨rfl, rfl, rfl, rfl, rfl, rfl, rfl, fun _ _ => rfl, fun _ _ => .rfl, fun _ _ => rfl,
    fun _ _ _ => .rfl⟩

/-- **An operation on one job leaves all others alone.** -/
theorem frame_perform {o : RelayOp} (h : On id o) : Frame id w (perform s c o w).2 := by
  cases o with
  | updateJob i values | finalizeJob i preferred values | consume i size =>
    obtain rfl : i = id := h
    exact frame_modifyJob _
  | updateJobIfStatus i expected nc ek values =>
    obtain rfl : i = id := h
    simp only [perform]
    split
    · exact frame_updateIfStatus ‹_›
    · exact .refl _ _
  | updateJobIfStatusAndPut i expected nc values put action =>
    obtain rfl : i = id := h
    simp only [perform]
    split
    · exact frame_put (frame_updateIfStatus ‹_›) put
    · exact .refl _ _
  | resumeIfInactive i values action =>
    obtain rfl : i = id := h
    simp only [perform]
    split
    · exact .refl _ _
    · exact frame_put (frame_modifyJob _) true
  | deleteJobRecord i =>
    obtain rfl : i = id := h
    exact ⟨rfl, rfl, rfl, rfl, rfl, rfl, rfl, fun _ hx => Function.update_of_ne hx _ _, fun _ _ => .rfl,
      fun _ _ => rfl, fun _ _ _ => .rfl⟩
  | pushKernel i dir =>
    obtain rfl : i = id := h
    refine ⟨rfl, rfl, rfl, rfl, rfl, rfl, rfl, fun _ _ => rfl, fun _ _ => .rfl, fun x hx => ?_,
      fun x r _ => by simp [perform]⟩
    refine List.count_cons_of_ne ?_
    intro heq
    cases heq
    exact hx rfl
  | getJob | isActive => exact .refl _ _
  | call call =>
    cases call with
    | pollKernel | kernelStatus => exact .refl _ _
    | _ => exact frame_of_quiet rfl
  | _ => exact frame_of_quiet rfl

/-! ### What an operation does to the view of its own job -/

variable {ph : Phases} {w' : World}

variable (ph) in
theorem view_of_quiet {o : RelayOp} (h : o.touches = false) (id : JobId) :
    (perform s c o w).2.view ph id = w.view ph id := by
  obtain ⟨caches, lastJobs, intents, dirs, heq⟩ := perform_quiet (s := s) (c := c) (w := w) h
  rw [heq]
  rfl

theorem view_row {job : Job} (h : w.jobs id = some job) : (w.view ph id).row = some job.core := by
  simp only [view, h, Option.map_some]

/-- A row that the view shows is there. -/
theorem jobs_of_row {core : Core} (h : (w.view ph id).row = some core) :
    ∃ job, w.jobs id = some job ∧ job.core = core := by
  simpa only [view, Option.map_eq_some_iff] using h

theorem view_modifyJob {f : Job → Job} {job : Job} (h : w.jobs id = some job) :
    (w.modifyJob id f).view ph id = { w.view ph id with row := some (f job).core } := by
  simp only [view, modifyJob, Function.update_self, h, Option.map_some]

/-- A row that is not there stays so. -/
theorem modifyJob_none {f : Job → Job} (h : w.jobs id = none) : w.modifyJob id f = w := by
  unfold modifyJob
  rw [h, Option.map_none]
  congr 1
  exact Function.update_eq_self_iff.mpr h.symm

/-- A compare-and-set that succeeds. -/
theorem updateIfStatus_some {t : ℚ} {expected : List Status} {nc : Bool} {ek : Option String}
    {values : JobValues} (h : w.updateIfStatus t id expected nc ek values = some w') :
    ∃ job, w.jobs id = some job ∧ job.status ∈ expected ∧
      (nc = true → job.cancelRequestedAt = none) ∧
      w' = { w with
        jobs := Function.update w.jobs id (some (KaggleRelay.updateJob t values job))
        trace := submission id values job ++ w.trace } := by
  unfold updateIfStatus at h
  obtain ⟨job, hjob, h⟩ := Option.bind_eq_some_iff.mp h
  obtain ⟨job', hjob', rfl⟩ := Option.map_eq_some_iff.mp h
  obtain ⟨hexpected, -, hnc, rfl⟩ := updateJobIfStatus_some hjob'
  exact ⟨job, hjob, hexpected, hnc, rfl⟩

variable (ph) in
/-- The view after a compare-and-set that is not to `pushing_kernel`. -/
theorem view_updateIfStatus {t : ℚ} {expected : List Status} {nc : Bool} {ek : Option String}
    {values : JobValues} (hne : values.status ≠ some .pushingKernel)
    (h : w.updateIfStatus t id expected nc ek values = some w') :
    ∃ job, w.jobs id = some job ∧ job.status ∈ expected ∧
      (nc = true → job.cancelRequestedAt = none) ∧
      w'.view ph id =
        { w.view ph id with row := some (KaggleRelay.updateJob t values job).core } := by
  obtain ⟨job, hjob, hexpected, hnc, rfl⟩ := updateIfStatus_some h
  refine ⟨job, hjob, hexpected, hnc, ?_⟩
  simp only [view, submission, if_neg hne, List.nil_append, Function.update_self, Option.map_some]

variable (ph) in
/-- The transition to `pushing_kernel` is recorded. -/
theorem view_commit {t : ℚ} {expected : List Status} {ek : Option String} {values : JobValues}
    (hs : values.status = some .pushingKernel)
    (h : w.updateIfStatus t id expected true ek values = some w') :
    ∃ job, w.jobs id = some job ∧ job.status ∈ expected ∧ job.cancelRequestedAt = none ∧
      w'.view ph id = { w.view ph id with
        row := some (KaggleRelay.updateJob t values job).core, committed := true } := by
  obtain ⟨job, hjob, hexpected, hnc, rfl⟩ := updateIfStatus_some h
  refine ⟨job, hjob, hexpected, hnc rfl, ?_⟩
  simp [view, submission, hs, hnc rfl]

theorem view_put (put : Bool) (action : QueueAction) :
    ({ w with queue := w.queue ++ if put then [(⟨action, id⟩ : QueueItem)] else [] } : World).view ph id =
    { w.view ph id with
      process := (w.view ph id).process || (put && !action.isResume)
      resume := (w.view ph id).resume || (put && action.isResume) } := by
  cases put <;> cases hr : action.isResume <;>
    simp [view, hr, or_and_right, exists_or]

theorem view_push : ({ w with trace := .pushed id :: w.trace }).view ph id =
    { w.view ph id with pushes := (w.view ph id).pushes + 1 } := by
  simp [view]

theorem view_delete : (w.deleteRecord id).view ph id = { w.view ph id with row := none } := by
  simp [view, deleteRecord]

end World

end KaggleRelay

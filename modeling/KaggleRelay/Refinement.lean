/-
Every operation of the running relay is a move of a job's view.

`Inv` — every program in memory keeps to its protocol from the phase it is in,
and what the phases say agrees with the database.  `move_of_workerOp`,
`move_of_sectionOp`, `move_of_looseOp` and `move_of_recoveryOp` — an operation
that its protocol allows is, for the job it is about, a move or nothing at all.
The side conditions of the moves are conditions on the step's state and its
next operation (`side`).
-/
import KaggleRelay.JobView

namespace KaggleRelay

open Effects Lifecycle

namespace World

/-! ### Steps and their side conditions -/

/-- The operation a program is about to perform. -/
def nextOp {α : Type} : Relay α → Option RelayOp
  | .op o _ => some o
  | _ => none

/-- The operation that a step performs. -/
def performs (w : World) : Action → Option RelayOp
  | .worker id _ => (w.active id).bind (nextOp ·.program)
  | .lock id _ => (w.sections id).bind nextOp
  | .loose n _ => w.loose[n]?.bind nextOp
  | .recover _ => w.recovery.bind fun r => r.current.bind nextOp
  | _ => none

/-- The job has a task that will still set its status, or none and an item in
the queue that resumes its kernel. -/
def HasDriver (w : World) (id : JobId) : Prop :=
  (∃ t, w.active id = some t ∧ t.gaveUp = false) ∨
    (w.active id = none ∧ ∃ item ∈ w.queue, item.jobId = id ∧ item.action.isResume = true)

/-- A write that parks a job meets a row without a cancellation. -/
def ParksUncanceled (w : World) (a : Action) : Prop :=
  ∀ id values job, w.performs a = some (.updateJob id values) →
    values.status = some .waitingDataset → w.jobs id = some job → job.cancelRequestedAt = none

/-- A write that makes a job `cancel_requested` meets a job with a driver. -/
def CancelsDriven (w : World) (a : Action) : Prop :=
  ∀ id expected nc ek values job, w.performs a = some (.updateJobIfStatus id expected nc ek values) →
    values.status = some .cancelRequested → w.jobs id = some job → job.status ∈ expected →
    job.status ≠ .cancelRequested → w.HasDriver id

/-- A write that queues a parked job again meets a job without a task. -/
def RequeuesIdle (w : World) (a : Action) : Prop :=
  ∀ id expected nc values put action job,
    w.performs a = some (.updateJobIfStatusAndPut id expected nc values put action) →
    w.jobs id = some job → job.status ∈ expected → job.status = .waitingDataset → w.active id = none

/-- A callback's write that announces the kernel of a dynamic job comes after an
event of the job. -/
def ReportsAfter (event : JobId → Event) (w : World) (a : Action) : Prop :=
  ∀ n c, a = .loose n c → ∀ id expected nc ek values job,
    w.performs a = some (.updateJobIfStatus id expected nc ek values) →
    values.status = some .waitingKernel → w.jobs id = some job → job.status ∈ expected →
    job.schedulingMode = .dynamic → event id ∈ w.trace

/-- What the recovery has found to resume of a dynamic job in `pushing_kernel`
has been pushed. -/
def FindsPushed (w : World) : Prop :=
  ∀ r item job, w.recovery = some r → item ∈ r.items → item.action.isResume = true →
    w.jobs item.jobId = some job → job.schedulingMode = .dynamic → job.status = .pushingKernel →
    Event.pushed item.jobId ∈ w.trace

/-- The step is a crash or one of the recovery after it. -/
def Restarts (w : World) (a : Action) : Prop := a = .crash ∨ w.recovery.isSome = true

/-- The side conditions a step meets. -/
def side (w : World) (a : Action) : Side where
  restarts := w.Restarts a
  parks := w.ParksUncanceled a
  cancels := w.CancelsDriven a
  requeues := w.RequeuesIdle a
  reports := w.ReportsAfter (.submitting · none) a
  pushed := w.ReportsAfter .pushed a
  probes := w.FindsPushed

/-! ### The invariant -/

/-- What a program without a lock has read is still so. -/
def LooseFits (v : View) : LoosePhase → Prop
  | .unread => True
  | .seen first => v.known = true ∧ ∀ c, v.row = some c →
    c.dynamic = (first.schedulingMode == .dynamic) ∧
      (awaitingAssignment first = false → c.awaiting = false)
  | .read first status canceled => v.known = true ∧ (status = .cancelRequested → canceled = true) ∧
    ∀ c, v.row = some c → c.dynamic = (first.schedulingMode == .dynamic) ∧
      (awaitingAssignment first = false → c.awaiting = false) ∧ (canceled = true → c.canceled = true)

/-- What the recovery of a job knows of its row. -/
def RecoveryFits (v : View) : RecoveryPhase → Prop
  | .live status => status.terminal = false ∧ ∃ c, v.row = some c ∧ c.status = status
  | .queued => ∃ c, v.row = some c ∧ c.status = .queued
  | .settled => ∃ c, v.row = some c ∧ c.status.terminal = true

/-- The job is still to be recovered, or has got an item that processes it. -/
def Lists (r : Recovery) (id : JobId) : Prop :=
  (∃ e ∈ r.todo, e.1 = id) ∨ ∃ item ∈ r.items, item.jobId = id ∧ item.action.isResume = false

/-- A recovery on its way: the memory is empty, every job is recovered once,
the items found so far are for jobs past the intake, or past the submission, and
no queued job is left out. -/
structure Recovering (w : World) (ph : Phases) (r : Recovery) : Prop where
  quiet : ∀ id, (w.view ph id).Quiet ∧ ph.lock id = .free
  sections : ∀ id, w.sections id = none
  loose : w.loose = []
  nodup : (r.todo.map Prod.fst).Nodup
  todo : ∀ e ∈ r.todo, running e.2.status = true ∧ w.jobs e.1 = some e.2
  current : ∀ p, r.current = some p → ∃ id rp,
    Follows (recovering id) (post (Recovers id) fun _ _ => True) p rp ∧
      RecoveryFits (w.view ph id) rp ∧ (∀ e ∈ r.todo, e.1 ≠ id) ∧
      (∀ item ∈ r.items, item.jobId ≠ id) ∧
      ∀ x c, x ≠ id → (w.view ph x).row = some c → c.status = .queued → Lists r x
  items : ∀ item ∈ r.items, item.action.Sound ∧ (∀ e ∈ r.todo, e.1 ≠ item.jobId) ∧
    ∃ c, (w.view ph item.jobId).row = some c ∧ c.status.intake = false ∧
      (item.action.isResume = true → c.status.submitted = true ∧ c.status.terminal = false)
  queued : r.current = none → ∀ x c, (w.view ph x).row = some c → c.status = .queued → Lists r x

/-- Every program in memory keeps to its protocol, and the phases agree with
the database. -/
structure Inv (w : World) (ph : Phases) : Prop where
  ids : w.ids.Nodup
  coupled : ∀ id, Coupled (w.view ph id)
  worker : ∀ id t, w.active id = some t →
    Follows (worker id) (fun _ p => p.final = true) t.program (ph.worker id)
  sections : ∀ id p, w.sections id = some p →
    Follows (lockHolder id) (fun _ _ => True) p (ph.lock id)
  loose : ∀ p ∈ w.loose, ∃ id lp, Follows (unlocked id) (fun _ _ => True) p lp ∧
    LooseFits (w.view ph id) lp
  items : ∀ item ∈ w.queue, item.action.Sound
  pending : ∀ account, ∀ item ∈ w.pending account, item.action.isResume = false
  recovery : ∀ r, w.recovery = some r → Recovering w ph r

/-- A step that is, for every job, nothing or a move. -/
def Moves (σ : Side) (w w' : World) (ph ph' : Phases) : Prop :=
  ∀ id, w'.view ph' id = w.view ph id ∨ Move σ (w.view ph id) (w'.view ph' id)

/-! ### The worker -/

variable {s : Settings} {w w' : World} {ph : Phases} {id : JobId} {c : Choice} {σ : Side}

theorem on_of_quiet {o : RelayOp} (h : o.touches = false) (id : JobId) : On id o := by
  cases o <;> trivial

theorem workerOp_on {p : WorkerPhase} {o : RelayOp} (h : WorkerOp id p o) : On id o := by
  cases h with
  | quiet _ h => exact on_of_quiet h id
  | _ => first | rfl | trivial

/-- The answers that a task has to reckon with are those it gets. -/
theorem workerAnswers_perform {p : WorkerPhase} {o : RelayOp} {d : Driver}
    (hv : Coupled (w.view ph id)) (hd : (w.view ph id).driver = some d) (hp : d.phase = p)
    (ho : WorkerOp id p o) (hlegal : legal o (perform s c o w).1 = true) :
    workerAnswers p o (perform s c o w).1 := by
  obtain ⟨core, hrow, hfits⟩ := hv.driver d hd
  obtain ⟨job, hjob, rfl⟩ := jobs_of_row hrow
  cases o with
  | getJob i =>
    obtain rfl : i = id := workerOp_on ho
    refine ⟨job, hjob, ?_, (hv.sound _ hrow).canceled⟩
    subst hp
    revert hfits
    cases hp : d.phase <;> simp only [Driver.Fits, hp] <;> grind -linarith [WorkerPhase.Reads, Job.core]
  | updateJobIfStatus i expected nc ek values =>
    obtain rfl : i = id := workerOp_on ho
    intro hupdated hended
    simp only [perform] at hupdated
    split at hupdated
    · obtain ⟨job', hjob', hmem, -⟩ := updateIfStatus_some ‹_›
      rw [hjob] at hjob'
      cases hjob'
      refine ⟨job.status, hmem, ?_⟩
      simp only [Driver.Fits, hp, hended] at hfits
      exact hfits.1
    · cases hupdated
  | _ => exact hlegal

theorem looks_look {job : Job} {p : WorkerPhase} : Looks job.core p (p.look job) := by
  by_cases ht : job.status.terminal = true
  · by_cases hp : p = .parked
    · subst hp
      exact .same nofun
    · have hended : p.look job = .ended := by
        cases p <;> first | exact if_pos ht | exact absurd rfl hp
      rw [hended]
      exact .ended hp ht
  · cases p with
    | fresh seen =>
      rw [show (WorkerPhase.fresh seen).look job = .fresh (seen || job.status == .uploadingDataset ||
        job.status == .waitingDataset) from if_neg ht]
      by_cases hs : job.status = .uploadingDataset ∨ job.status = .waitingDataset
      · have hseen : (seen || job.status == .uploadingDataset || job.status == .waitingDataset) = true := by
          rcases hs with hs | hs <;> simp [hs]
        rw [hseen]
        exact .seen hs
      · rw [not_or] at hs
        rw [beq_eq_false_iff_ne.mpr hs.1, beq_eq_false_iff_ne.mpr hs.2, Bool.or_false, Bool.or_false]
        exact .same nofun
    | finishing b =>
      rw [show (WorkerPhase.finishing b).look job = .finishing job.core.canceled from if_neg ht]
      exact .canceled
    | recorded =>
      rw [show WorkerPhase.recorded.look job = .rereading from if_neg ht]
      exact .rereads (Bool.eq_false_iff.mpr ht)
    | parked => exact .same nofun
    | committed =>
      rw [show WorkerPhase.committed.look job = .committed from if_neg ht]
      exact .same nofun
    | rereading =>
      rw [show WorkerPhase.rereading.look job = .rereading from if_neg ht]
      exact .same nofun
    | ended =>
      rw [show WorkerPhase.ended.look job = .ended from if_neg ht]
      exact .same nofun

/-- A view with the row it has. -/
theorem view_self {v : View} {c : Core} (h : v.row = some c) : { v with row := some c } = v := by
  rw [← h]

theorem givesUp_of_forgetful {values : JobValues} {e : Option String} (hv : values.Sets none e)
    (he : Forgetful e) (q : Relay Unit) : givesUp (.updateJob id values) q = false := by
  simp only [givesUp, hv.status, hv.error, he.any_eq_false]
  rfl

/-- What a compare-and-set answers. -/
theorem perform_updateIfStatus {expected : List Status} {nc : Bool} {ek : Option String}
    {values : JobValues} {r : Bool}
    (h : perform s c (.updateJobIfStatus id expected nc ek values) w = (r, w')) :
    (r = true ∧ w.updateIfStatus (c.answers .now) id expected nc ek values = some w') ∨
      (r = false ∧ w' = w) := by
  simp only [perform] at h
  split at h
  · cases h
    exact .inl ⟨rfl, ‹_›⟩
  · cases h
    exact .inr ⟨rfl, rfl⟩

section WorkerMove

variable {d : Driver} {p : WorkerPhase} {job : Job} {q : Relay Unit}

/-- The view of a job after its task has performed an operation. -/
noncomputable def afterTask (w' : World) (ph : Phases) (id : JobId) (d : Driver) (p : WorkerPhase)
    (o : RelayOp) (r : o.Res) (q : Relay Unit) : View :=
  { w'.view ph id with
    driver := some ⟨workerAfter p o r, d.gaveUp || givesUp o q, returned q⟩ }

variable (hd : (w.view ph id).driver = some d) (hp : d.phase = p)
include hd hp

theorem task_push {kernelDir : String} {r : (RelayOp.pushKernel id kernelDir).Res}
    (hcommitted : p = .committed) (hperform : perform s c (.pushKernel id kernelDir) w = (r, w'))
    (hfinal : returned q = true → WorkerPhase.final (.finishing false) = true) :
    Move σ (w.view ph id) (afterTask w' ph id d p (.pushKernel id kernelDir) r q) := by
  cases hperform
  have hret : returned q = false := by
    by_contra hne
    cases hfinal (by simpa using hne)
  rw [afterTask, hret]
  show Move σ _ { (({ w with trace := .pushed id :: w.trace } : World).view ph id) with
    driver := some ⟨.finishing false, d.gaveUp || false, false⟩ }
  rw [view_push, Bool.or_false]
  exact .push hd (hp.trans hcommitted)

variable (hjob : w.jobs id = some job)
include hjob

/-- A step of a task that leaves the view as it is, its own end apart. -/
theorem move_idle (hr : d.returned = false) (hne : p ≠ .recorded) {end? : Bool}
    (hfinal : end? = true → p.final = true) :
    Move σ (w.view ph id) { w.view ph id with driver := some ⟨p, d.gaveUp || false, end?⟩ } := by
  rw [Bool.or_false, ← hp] at *
  exact .look hd hr (view_row hjob) (.same hne) hfinal

theorem task_quiet {o : RelayOp} {r : o.Res} (hr : d.returned = false) (hne : p ≠ .recorded)
    (h : o.touches = false) (hperform : perform s c o w = (r, w'))
    (hfinal : returned q = true → (workerAfter p o r).final = true) :
    Move σ (w.view ph id) (afterTask w' ph id d p o r q) := by
  have htolerates : Tolerates (worker id) fun _ => False := tolerates_worker fun _ h => h.elim
  have hafter : workerAfter p o r = p := htolerates.after _ _ _ h
  have hgave : givesUp o q = false := by cases o <;> first | rfl | trivial
  have hview : w'.view ph id = w.view ph id := by
    have hsame := view_of_quiet (s := s) (c := c) (w := w) ph h id
    rwa [hperform] at hsame
  rw [hafter] at hfinal
  rw [afterTask, hafter, hgave, hview]
  exact move_idle hd hp hjob hr hne hfinal

theorem task_poll {kernelRef : String} {r : (RelayOp.call (.pollKernel kernelRef)).Res}
    (hr : d.returned = false) (hlate : p.Late)
    (hperform : perform s c (.call (.pollKernel kernelRef)) w = (r, w'))
    (hfinal : returned q = true → p.final = true) :
    Move σ (w.view ph id) (afterTask w' ph id d p (.call (.pollKernel kernelRef)) r q) := by
  cases hperform
  exact move_idle hd hp hjob hr (by rcases hlate with ⟨b, rfl⟩ | rfl <;> rintro ⟨⟩) hfinal

theorem task_read {r : (RelayOp.getJob id).Res} (hr : d.returned = false)
    (hperform : perform s c (.getJob id) w = (r, w'))
    (hfinal : returned q = true → (workerAfter p (.getJob id) r).final = true) :
    Move σ (w.view ph id) (afterTask w' ph id d p (.getJob id) r q) := by
  cases hperform
  have hafter : workerAfter p (.getJob id) (w.jobs id) = p.look job := by
    rw [hjob]
    rfl
  rw [hafter] at hfinal
  rw [afterTask, hafter]
  show Move σ _ { w.view ph id with driver := some ⟨p.look job, d.gaveUp || false, returned q⟩ }
  rw [Bool.or_false]
  subst hp
  exact .look hd hr (view_row hjob) looks_look hfinal

theorem task_note {values : JobValues} {e : Option String} {r : (RelayOp.updateJob id values).Res}
    (hr : d.returned = false) (hlive : p.Live) (hs : values.Sets none e) (he : Forgetful e)
    (hperform : perform s c (.updateJob id values) w = (r, w'))
    (hfinal : returned q = true → (workerAfter p (.updateJob id values) r).final = true) :
    Move σ (w.view ph id) (afterTask w' ph id d p (.updateJob id values) r q) := by
  cases hperform
  have hafter : workerAfter p (.updateJob id values) () = p := by
    simp only [workerAfter, hs.status, hs.error, he.any_eq_false]
    rfl
  rw [hafter] at hfinal
  rw [afterTask, hafter, givesUp_of_forgetful hs he, view_modifyJob hjob, core_set_error hs,
    Bool.or_false]
  obtain ⟨hretained, hunknown⟩ := forgetful_core he job.error
  subst hp
  exact .note hd hr (view_row hjob) ⟨_, _, rfl, hretained, hunknown⟩ hlive hfinal

theorem task_noteIf {expected : List Status} {nc : Bool} {ek : Option String} {values : JobValues}
    {r : (RelayOp.updateJobIfStatus id expected nc ek values).Res} (hr : d.returned = false)
    (hne : p ≠ .recorded) (hs : values.Sets none none)
    (hperform : perform s c (.updateJobIfStatus id expected nc ek values) w = (r, w'))
    (hfinal : returned q = true →
      (workerAfter p (.updateJobIfStatus id expected nc ek values) r).final = true) :
    Move σ (w.view ph id)
      (afterTask w' ph id d p (.updateJobIfStatus id expected nc ek values) r q) := by
  have hpush : values.status ≠ some .pushingKernel := by
    rw [hs.status]
    rintro ⟨⟩
  have hafter : workerAfter p (.updateJobIfStatus id expected nc ek values) r = p :=
    if_neg fun h => hpush h.2
  have hview : w'.view ph id = w.view ph id := by
    rcases perform_updateIfStatus hperform with ⟨-, hw⟩ | ⟨-, rfl⟩
    · obtain ⟨job', hjob', -, -, hview⟩ := view_updateIfStatus ph hpush hw
      rw [hview, core_set_error hs]
      exact view_self (view_row hjob')
    · rfl
  rw [hafter] at hfinal
  rw [afterTask, hafter, hview]
  exact move_idle hd hp hjob hr hne hfinal

theorem task_transition {expected : List Status} {ek : Option String} {values : JobValues}
    {status : Status} {r : (RelayOp.updateJobIfStatus id expected true ek values).Res}
    (hr : d.returned = false) (hearly : p.Early)
    (hx : ∀ x ∈ expected, x = .queued ∨ x = .uploadingDataset ∨ x = .waitingDataset)
    (hst : status = .uploadingDataset ∨ status = .waitingDataset)
    (hs : values.Sets (some status) none)
    (hperform : perform s c (.updateJobIfStatus id expected true ek values) w = (r, w'))
    (hanswers : workerAnswers p (.updateJobIfStatus id expected true ek values) r)
    (hfinal : returned q = true →
      (workerAfter p (.updateJobIfStatus id expected true ek values) r).final = true) :
    Move σ (w.view ph id)
      (afterTask w' ph id d p (.updateJobIfStatus id expected true ek values) r q) := by
  have hpush : values.status ≠ some .pushingKernel := by
    rw [hs.status]
    rcases hst with rfl | rfl <;> rintro ⟨⟩
  have hafter : workerAfter p (.updateJobIfStatus id expected true ek values) r = p :=
    if_neg fun h => hpush h.2
  have hlive : status.terminal = false := by rcases hst with rfl | rfl <;> rfl
  rw [hafter] at hfinal
  rw [afterTask, hafter]
  rcases perform_updateIfStatus hperform with ⟨rfl, hw⟩ | ⟨-, rfl⟩
  · obtain ⟨job', hjob', hmem, hnc, hview⟩ := view_updateIfStatus ph hpush hw
    obtain rfl : job = job' := by simpa only [hjob, Option.some.injEq] using hjob'
    rcases hearly with ⟨b, rfl⟩ | rfl
    · have hret : returned q = false := by
        by_contra hne
        cases hfinal (by simpa using hne)
      rw [hview, core_set_status hs, moved_of_live hlive, hret]
      show Move σ _ { w.view ph id with
        row := some { job.core with status }, driver := some ⟨.fresh b, d.gaveUp || false, false⟩ }
      rw [Bool.or_false]
      exact .transition hd (view_row hjob) hp (hx _ hmem) (by
        rw [show job.core.canceled = job.cancelRequestedAt.isSome from rfl, hnc rfl]
        rfl) hst
    · -- a task that has ended the job finds it ended
      obtain ⟨x, hxm, hxt⟩ := hanswers rfl rfl
      rcases hx x hxm with rfl | rfl | rfl <;> cases hxt
  · exact move_idle hd hp hjob hr (by rcases hearly with ⟨b, rfl⟩ | rfl <;> rintro ⟨⟩) hfinal

theorem task_commit {expected : List Status} {ek : Option String} {values : JobValues}
    {r : (RelayOp.updateJobIfStatus id expected true ek values).Res} (hr : d.returned = false)
    (hearly : p.Early) (hx : ∀ x ∈ expected, x = .queued ∨ x = .waitingDataset)
    (hs : values.Sets (some .pushingKernel) none)
    (hperform : perform s c (.updateJobIfStatus id expected true ek values) w = (r, w'))
    (hanswers : workerAnswers p (.updateJobIfStatus id expected true ek values) r)
    (hfinal : returned q = true →
      (workerAfter p (.updateJobIfStatus id expected true ek values) r).final = true) :
    Move σ (w.view ph id)
      (afterTask w' ph id d p (.updateJobIfStatus id expected true ek values) r q) := by
  rcases perform_updateIfStatus hperform with ⟨rfl, hw⟩ | ⟨rfl, rfl⟩
  · obtain ⟨job', hjob', hmem, hn, hview⟩ := view_commit ph hs.status hw
    obtain rfl : job = job' := by simpa only [hjob, Option.some.injEq] using hjob'
    have hafter : workerAfter p (.updateJobIfStatus id expected true ek values) true = .committed :=
      if_pos ⟨rfl, hs.status⟩
    rw [hafter] at hfinal
    rw [afterTask, hafter]
    rcases hearly with ⟨b, rfl⟩ | rfl
    · have hret : returned q = false := by
        by_contra hne
        cases hfinal (by simpa using hne)
      rw [hview, core_set_status hs, moved_of_live rfl, hret]
      show Move σ _ { w.view ph id with
        row := some { job.core with status := .pushingKernel }
        driver := some ⟨.committed, d.gaveUp || false, false⟩
        committed := true }
      rw [Bool.or_false]
      exact .commit hd (view_row hjob) hp (hx _ hmem) (by
        rw [show job.core.canceled = job.cancelRequestedAt.isSome from rfl, hn]
        rfl)
    · obtain ⟨x, hxm, hxt⟩ := hanswers rfl rfl
      rcases hx x hxm with rfl | rfl <;> cases hxt
  · have hafter : workerAfter p (.updateJobIfStatus id expected true ek values) false = p := by
      simp [workerAfter]
    rw [hafter] at hfinal
    rw [afterTask, hafter]
    exact move_idle hd hp hjob hr (by rcases hearly with ⟨b, rfl⟩ | rfl <;> rintro ⟨⟩) hfinal

theorem task_advance {b : Bool} {expected status : Status} {ek e : Option String}
    {values : JobValues} {r : (RelayOp.updateJobIfStatus id [expected] false ek values).Res}
    (hr : d.returned = false) (hphase : p = .finishing b) (ht : expected.terminal = false)
    (hst : status = .waitingKernel ∨ status = .downloadingOutput ∨
      (status = .cancelRequested ∧ b = true))
    (hk : expected = .cancelRequested → status = .cancelRequested)
    (hs : values.Sets (some status) e) (he : Forgetful e)
    (hperform : perform s c (.updateJobIfStatus id [expected] false ek values) w = (r, w'))
    (hfinal : returned q = true →
      (workerAfter p (.updateJobIfStatus id [expected] false ek values) r).final = true) :
    Move σ (w.view ph id)
      (afterTask w' ph id d p (.updateJobIfStatus id [expected] false ek values) r q) := by
  subst hphase
  have hpush : values.status ≠ some .pushingKernel := by
    rw [hs.status]
    rcases hst with rfl | rfl | ⟨rfl, -⟩ <;> rintro ⟨⟩
  have hafter : workerAfter (.finishing b) (.updateJobIfStatus id [expected] false ek values) r =
      .finishing b := if_neg fun h => hpush h.2
  have hlive : status.terminal = false := by rcases hst with rfl | rfl | ⟨rfl, -⟩ <;> rfl
  rw [hafter] at hfinal
  rw [afterTask, hafter]
  rcases perform_updateIfStatus hperform with ⟨-, hw⟩ | ⟨-, rfl⟩
  · obtain ⟨job', hjob', hmem, -, hview⟩ := view_updateIfStatus ph hpush hw
    obtain rfl : job = job' := by simpa only [hjob, Option.some.injEq] using hjob'
    obtain rfl : job.status = expected := List.mem_singleton.mp hmem
    have hret : returned q = false := by
      by_contra hne
      cases hfinal (by simpa using hne)
    rw [hview, core_set_status hs, moved_of_live hlive, hret]
    obtain ⟨hretained, hunknown⟩ := forgetful_core he job.error
    show Move σ _ { w.view ph id with
      row := some { job.core with
        status
        retained := retainedError (e.getD job.error)
        unknown := unknownError (e.getD job.error) }
      driver := some ⟨.finishing b, d.gaveUp || false, false⟩ }
    rw [Bool.or_false]
    exact .advance hd (view_row hjob) hp ht ⟨_, _, rfl, hretained, hunknown⟩ hst hk
  · exact move_idle hd hp hjob hr (by rintro ⟨⟩) hfinal

theorem task_finalize {preferred : Status} {values : JobValues}
    {r : (RelayOp.finalizeJob id preferred values).Res} (hlive : p.Live)
    (hpref : preferred.terminal = true) (hs : values.Sets none values.error)
    (hperform : perform s c (.finalizeJob id preferred values) w = (r, w')) :
    Move σ (w.view ph id) (afterTask w' ph id d p (.finalizeJob id preferred values) r q) := by
  cases hperform
  rw [afterTask, view_modifyJob hjob, core_finalizeJob hs hpref]
  show Move σ _ { w.view ph id with
    row := some (job.core.finalized _ _ _)
    driver := some ⟨.ended, d.gaveUp || false, returned q⟩ }
  rw [Bool.or_false]
  subst hp
  exact .finalize hd (view_row hjob) hpref hlive

theorem task_park {values : JobValues} {e : String} {r : (RelayOp.updateJob id values).Res}
    (hphase : p = .fresh true) (hs : values.Sets (some .waitingDataset) (some e))
    (he : Text.startswith e Relay.retainedPrefix = true)
    (hperform : perform s c (.updateJob id values) w = (r, w'))
    (hparks : σ.parks → job.cancelRequestedAt = none) :
    Move σ (w.view ph id) (afterTask w' ph id d p (.updateJob id values) r q) := by
  cases hperform
  subst hphase
  have hafter : workerAfter (.fresh true) (.updateJob id values) () = .parked := if_pos hs.status
  have hgave : givesUp (.updateJob id values) q = true := by
    simp only [givesUp, hs.status]
    rfl
  have hretained : retainedError e = true := he
  rw [afterTask, hafter, hgave, view_modifyJob hjob, core_set_status hs, moved_of_live rfl,
    Option.getD_some, hretained, unknownError_of_retainedError hretained, Bool.or_true]
  refine .park hd (view_row hjob) hp fun h => ?_
  rw [show job.core.canceled = job.cancelRequestedAt.isSome from rfl, hparks h]
  rfl

theorem task_record {values : JobValues} {e : String} {r : (RelayOp.updateJob id values).Res}
    (hph : (∃ b, p = .finishing b) ∨ p = .rereading) (hs : values.Sets none (some e))
    (he : Text.startswith e "kernel_status_unknown:" = true)
    (hperform : perform s c (.updateJob id values) w = (r, w')) :
    Move σ (w.view ph id) (afterTask w' ph id d p (.updateJob id values) r q) := by
  cases hperform
  have hunknown : unknownError e = true := he
  have hafter : workerAfter p (.updateJob id values) () = .recorded := by
    simp only [workerAfter, hs.status, hs.error, Option.any_some]
    exact (if_neg (by rintro ⟨⟩)).trans (if_pos he)
  have hgave : givesUp (.updateJob id values) q = returned q := by
    simp only [givesUp, hs.status, hs.error, Option.any_some, he]
    rfl
  rw [afterTask, hafter, hgave, view_modifyJob hjob, core_set_error hs, Option.getD_some, hunknown,
    retainedError_of_unknownError hunknown]
  subst hp
  exact .record hd (view_row hjob) hph

omit hjob

/-- **Each operation of a task is a move.** -/
theorem move_of_workerOp (hv : Coupled (w.view ph id)) (hr : d.returned = false) {o : RelayOp}
    {r : o.Res} (ho : WorkerOp id p o) (hperform : perform s c o w = (r, w'))
    (hanswers : workerAnswers p o r) (q : Relay Unit)
    (hfinal : returned q = true → (workerAfter p o r).final = true)
    (hparks : σ.parks → ∀ values job, o = .updateJob id values →
      values.status = some .waitingDataset → w.jobs id = some job → job.cancelRequestedAt = none) :
    Move σ (w.view ph id) (afterTask w' ph id d p o r q) := by
  obtain ⟨core, hrow, -⟩ := hv.driver d hd
  obtain ⟨job, hjob, -⟩ := jobs_of_row hrow
  cases ho with
  | quiet hne h => exact task_quiet hd hp hjob hr hne h hperform hfinal
  | poll hlate => exact task_poll hd hp hjob hr hlate hperform hfinal
  | read => exact task_read hd hp hjob hr hperform hfinal
  | note hlive hs he => exact task_note hd hp hjob hr hlive hs he hperform hfinal
  | noteIf hne hs => exact task_noteIf hd hp hjob hr hne hs hperform hfinal
  | transition hearly hx hst hs =>
    exact task_transition hd hp hjob hr hearly hx hst hs hperform hanswers hfinal
  | commit hearly hx hs => exact task_commit hd hp hjob hr hearly hx hs hperform hanswers hfinal
  | push => exact task_push hd hp rfl hperform hfinal
  | advance ht hst hk hs he => exact task_advance hd hp hjob hr rfl ht hst hk hs he hperform hfinal
  | finalize hlive hpref hs => exact task_finalize hd hp hjob hlive hpref hs hperform
  | park hs he =>
    exact task_park hd hp hjob rfl hs he hperform fun h => hparks h _ job rfl hs.status hjob
  | record hph hs he => exact task_record hd hp hjob hph hs he hperform

end WorkerMove

/-! ### The holder of the lock -/

theorem pushes_view : (w.view ph id).pushes ≠ 0 ↔ Event.pushed id ∈ w.trace := by
  rw [view, Nat.ne_zero_iff_zero_lt, List.count_pos_iff]

theorem hasDriver_view : (w.view ph id).HasDriver ↔ w.HasDriver id := by
  simp only [View.HasDriver, HasDriver, view, Option.map_eq_some_iff, Option.map_eq_none_iff,
    holds_eq_true]
  constructor
  · rintro (⟨_, ⟨t, ht, rfl⟩, hg⟩ | h)
    · exact .inl ⟨t, ht, hg⟩
    · exact .inr h
  · rintro (⟨t, ht, hg⟩ | h)
    · exact .inl ⟨_, ⟨t, ht, rfl⟩, hg⟩
    · exact .inr h

theorem sectionOp_on {l : LockPhase} {o : RelayOp} (h : SectionOp id l o) : On id o := by
  cases h with
  | quiet h => exact on_of_quiet h id
  | _ => first | rfl | trivial

theorem learns_ofRow {v : View} {job : Job} (hrow : v.row = some job.core) :
    Learns v (.ofRow job) := by
  unfold LockPhase.ofRow
  by_cases ht : job.status.terminal = true
  · rw [if_pos ht]
    exact .terminal hrow ht
  · rw [if_neg ht]
    by_cases hr : job.status = .receiving
    · rw [if_pos hr]
      exact .receiving hrow hr
    · rw [if_neg hr]
      by_cases hw : job.status = .waitingDataset ∧ Text.startswith job.error Relay.retainedPrefix = true
      · rw [if_pos hw]
        exact .retained hrow hw.1 hw.2
      · rw [if_neg hw]
        by_cases hu : job.status ∈ [.waitingKernel, .cancelRequested] ∧
            Text.startswith job.error "kernel_status_unknown:" = true
        · rw [if_pos hu]
          exact .unknown hrow hu.2 (by simpa [Job.core] using hu.1)
        · rw [if_neg hu]
          split
          · exact .beyond hrow (by tauto) (by tauto)
          · exact .running

/-- What an atomic write and put answers. -/
theorem perform_updateIfStatusAndPut {expected : List Status} {nc put : Bool} {values : JobValues}
    {action : QueueAction} {r : Bool}
    (h : perform s c (.updateJobIfStatusAndPut id expected nc values put action) w = (r, w')) :
    (r = true ∧ ∃ w₁, w.updateIfStatus (c.answers .now) id expected nc none values = some w₁ ∧
      w' = { w₁ with queue := w₁.queue ++ if put then [(⟨action, id⟩ : QueueItem)] else [] }) ∨
      (r = false ∧ w' = w) := by
  simp only [perform] at h
  split at h
  · cases h
    exact .inl ⟨rfl, _, ‹_›, rfl⟩
  · cases h
    exact .inr ⟨rfl, rfl⟩

/-- A write under the lock that sets a status has settled the row, the one that
begins the assembly apart. -/
theorem sectionAfter_settled {l : LockPhase} {expected : List Status} {nc : Bool}
    {ek : Option String} {values : JobValues} {status : Status} (h : values.status = some status)
    (hne : status ≠ .assembling) :
    sectionAfter l (.updateJobIfStatus id expected nc ek values) true = .running := by
  have hsome : ¬(true = false ∨ values.status = none) := by
    rw [h]
    rintro (h | h) <;> cases h
  have hassembling : ¬values.status = some .assembling := by
    rw [h, Option.some.injEq]
    exact hne
  cases l <;> simp only [sectionAfter, if_neg hsome, if_neg hassembling]

/-- A write that fails changes nothing. -/
theorem sectionAfter_refused {l : LockPhase} {expected : List Status} {nc : Bool}
    {ek : Option String} {values : JobValues} :
    sectionAfter l (.updateJobIfStatus id expected nc ek values) false = l := by
  simp only [sectionAfter, true_or, if_true]

section LockMove

variable {l : LockPhase}

/-- An operation of the holder of the lock is a move of the job's view, or
nothing. -/
def HolderMoves (σ : Side) (w w' : World) (ph : Phases) (id : JobId) (l : LockPhase) (o : RelayOp)
    (r : o.Res) : Prop :=
  { w'.view ph id with lock := sectionAfter l o r } = w.view ph id ∨
    Move σ (w.view ph id) { w'.view ph id with lock := sectionAfter l o r }

/-- The row of a job that is assembled is there. -/
theorem row_of_assembling {b : Bool} (hv : Coupled (w.view ph id))
    (hl : (w.view ph id).lock = .assembling b) : ∃ job, w.jobs id = some job := by
  have hfits := hv.lock
  rw [View.LockFits, hl] at hfits
  obtain ⟨-, core, hrow, -⟩ := hfits
  obtain ⟨job, hjob, -⟩ := jobs_of_row hrow
  exact ⟨job, hjob⟩

variable (hl : (w.view ph id).lock = l)
include hl

theorem lock_self : { w.view ph id with lock := l } = w.view ph id := by rw [← hl]

theorem holder_quiet {o : RelayOp} {r : o.Res} (h : o.touches = false)
    (hperform : perform s c o w = (r, w')) : HolderMoves σ w w' ph id l o r := by
  have htolerates : Tolerates (lockHolder id) fun _ => True := tolerates_lockHolder
  have hafter : sectionAfter l o r = l := htolerates.after _ _ _ h
  have hsame := view_of_quiet (s := s) (c := c) (w := w) ph h id
  rw [hperform] at hsame
  rw [HolderMoves, hafter, hsame]
  exact .inl (lock_self hl)

theorem holder_isActive {r : (RelayOp.isActive id).Res}
    (hperform : perform s c (.isActive id) w = (r, w')) :
    HolderMoves σ w w' ph id l (.isActive id) r := by
  cases hperform
  show { w.view ph id with lock := sectionAfter l (.isActive id) (w.active id).isSome } = _ ∨
    Move σ _ { w.view ph id with lock := sectionAfter l (.isActive id) (w.active id).isSome }
  by_cases hactive : (w.active id).isSome = true
  · have hafter : sectionAfter l (.isActive id) (w.active id).isSome = l := if_pos hactive
    rw [hafter]
    exact .inl (lock_self hl)
  · have hdriver : (w.view ph id).driver = none := by
      simpa only [view, Option.map_eq_none_iff, Option.not_isSome_iff_eq_none] using hactive
    have hafter : sectionAfter l (.isActive id) (w.active id).isSome = l.inactive := if_neg hactive
    rw [hafter]
    cases l with
    | retained => exact .inr (.learn (.idle hl hdriver))
    | terminal => exact .inr (.learn (.deleting (.inl hl) hdriver))
    | receiving b => exact .inr (.learn (.deleting (.inr ⟨b, hl⟩) hdriver))
    | _ => exact .inl (lock_self hl)

theorem holder_noteIf {expected : List Status} {nc : Bool} {ek : Option String} {values : JobValues}
    {r : (RelayOp.updateJobIfStatus id expected nc ek values).Res} (hs : values.Sets none none)
    (hperform : perform s c (.updateJobIfStatus id expected nc ek values) w = (r, w')) :
    HolderMoves σ w w' ph id l (.updateJobIfStatus id expected nc ek values) r := by
  have hpush : values.status ≠ some .pushingKernel := by
    rw [hs.status]
    rintro ⟨⟩
  have hafter : sectionAfter l (.updateJobIfStatus id expected nc ek values) r = l :=
    if_pos (.inr hs.status)
  have hview : w'.view ph id = w.view ph id := by
    rcases perform_updateIfStatus hperform with ⟨-, hw⟩ | ⟨-, rfl⟩
    · obtain ⟨job, hjob, -, -, hview⟩ := view_updateIfStatus ph hpush hw
      rw [hview, core_set_error hs]
      exact view_self (view_row hjob)
    · rfl
  rw [HolderMoves, hafter, hview]
  exact .inl (lock_self hl)

theorem holder_reserve {b : Bool} {values : JobValues} {n : ℕ}
    {r : (RelayOp.updateJob id values).Res} (hv : Coupled (w.view ph id)) (hlock : l = .assembling b)
    (hs : values.Reserves n) (hperform : perform s c (.updateJob id values) w = (r, w')) :
    HolderMoves σ w w' ph id l (.updateJob id values) r := by
  subst hlock
  cases hperform
  obtain ⟨job, hjob⟩ := row_of_assembling hv hl
  refine .inr ?_
  rw [view_modifyJob hjob, core_reserves hs]
  show Move σ _ { w.view ph id with
    row := some { job.core with reserves := n != 0 }, lock := .assembling b }
  rw [← hl]
  exact .reserve (view_row hjob) fun _ => .inr ⟨b, hl⟩

theorem holder_consume {b : Bool} {n : ℕ} {r : (RelayOp.consume id n).Res}
    (hv : Coupled (w.view ph id)) (hlock : l = .assembling b)
    (hperform : perform s c (.consume id n) w = (r, w')) :
    HolderMoves σ w w' ph id l (.consume id n) r := by
  subst hlock
  cases hperform
  obtain ⟨job, hjob⟩ := row_of_assembling hv hl
  refine .inr ?_
  rw [view_modifyJob hjob]
  show Move σ _ { w.view ph id with
    row := some { job.core with reserves := job.reservedBytes - n != 0 }, lock := .assembling b }
  rw [← hl]
  exact .reserve (view_row hjob) fun _ => .inr ⟨b, hl⟩

theorem holder_clean {values : JobValues} {r : (RelayOp.updateJob id values).Res}
    (hs : values.Reserves 0) (hperform : perform s c (.updateJob id values) w = (r, w')) :
    HolderMoves σ w w' ph id l (.updateJob id values) r := by
  cases hperform
  have hafter : sectionAfter l (.updateJob id values) () = l := rfl
  rw [HolderMoves, hafter]
  rcases hjob : w.jobs id with _ | job
  · rw [modifyJob_none hjob]
    exact .inl (lock_self hl)
  · refine .inr ?_
    rw [view_modifyJob hjob, core_reserves hs]
    show Move σ _ { w.view ph id with row := some { job.core with reserves := false }, lock := l }
    rw [← hl]
    exact .reserve (view_row hjob) (by rintro ⟨⟩)

theorem holder_cancel {status : Status} {t : ℚ}
    {r : (RelayOp.updateJobIfStatus id [status] false none (cancelValues t status)).Res}
    (ht : status.terminal = false) (hs : status ≠ .cancelRequested)
    (hperform : perform s c (.updateJobIfStatus id [status] false none (cancelValues t status)) w =
      (r, w'))
    (hcancels : σ.cancels → (cancelValues t status).status = some .cancelRequested →
      ∀ job, w.jobs id = some job → job.status ∈ [status] → w.HasDriver id) :
    HolderMoves σ w w' ph id l
      (.updateJobIfStatus id [status] false none (cancelValues t status)) r := by
  have hstatus : (cancelValues t status).status = some .canceled ∨
      (cancelValues t status).status = some .cancelRequested := by
    unfold cancelValues
    split
    · exact .inl rfl
    · exact .inr rfl
  have hpush : (cancelValues t status).status ≠ some .pushingKernel := by
    rcases hstatus with h | h <;> rw [h] <;> rintro ⟨⟩
  rcases perform_updateIfStatus hperform with ⟨rfl, hw⟩ | ⟨rfl, rfl⟩
  · obtain ⟨job, hjob, hmem, -, hview⟩ := view_updateIfStatus ph hpush hw
    obtain rfl : job.status = status := List.mem_singleton.mp hmem
    have hafter : sectionAfter l
        (.updateJobIfStatus id [job.status] false none (cancelValues t job.status)) true = .running := by
      rcases hstatus with h | h <;> exact sectionAfter_settled h (by rintro ⟨⟩)
    refine .inr ?_
    rw [hafter, hview, core_cancel]
    refine .cancel (view_row hjob) ht hs fun hside hrequested => hasDriver_view.mpr ?_
    refine hcancels hside ?_ job hjob hmem
    have hlive : ¬job.status ∈ [Status.receiving, .assembling, .queued] := by
      intro hmem
      have hcanceled : job.core.cancelStatus = .canceled := by
        simp only [List.mem_cons, List.not_mem_nil, or_false] at hmem
        rcases hmem with h | h | h <;> simp [Core.cancelStatus, Job.core, h, Status.intake]
      rw [hcanceled] at hrequested
      cases hrequested
    simp [cancelValues, hlive]
  · rw [HolderMoves, sectionAfter_refused]
    exact .inl (lock_self hl)

theorem holder_expire {values : JobValues}
    {r : (RelayOp.updateJobIfStatus id [.receiving] false none values).Res}
    (hs : values.Sets (some .failed) values.error)
    (hperform : perform s c (.updateJobIfStatus id [.receiving] false none values) w = (r, w')) :
    HolderMoves σ w w' ph id l (.updateJobIfStatus id [.receiving] false none values) r := by
  have hpush : values.status ≠ some .pushingKernel := by
    rw [hs.status]
    rintro ⟨⟩
  rcases perform_updateIfStatus hperform with ⟨rfl, hw⟩ | ⟨rfl, rfl⟩
  · obtain ⟨job, hjob, hmem, -, hview⟩ := view_updateIfStatus ph hpush hw
    refine .inr ?_
    rw [sectionAfter_settled hs.status (by rintro ⟨⟩), hview, core_set_status hs]
    exact .expire (view_row hjob) (List.mem_singleton.mp hmem)
  · rw [HolderMoves, sectionAfter_refused]
    exact .inl (lock_self hl)

theorem holder_assemble {b : Bool} {values : JobValues}
    {r : (RelayOp.updateJobIfStatus id [.receiving] false none values).Res} (hlock : l = .receiving b)
    (hs : values.Sets (some .assembling) none)
    (hperform : perform s c (.updateJobIfStatus id [.receiving] false none values) w = (r, w')) :
    HolderMoves σ w w' ph id l (.updateJobIfStatus id [.receiving] false none values) r := by
  subst hlock
  have hpush : values.status ≠ some .pushingKernel := by
    rw [hs.status]
    rintro ⟨⟩
  rcases perform_updateIfStatus hperform with ⟨rfl, hw⟩ | ⟨rfl, rfl⟩
  · obtain ⟨job, hjob, hmem, -, hview⟩ := view_updateIfStatus ph hpush hw
    have hafter : sectionAfter (.receiving b)
        (.updateJobIfStatus id [.receiving] false none values) true = .assembling b := by
      rw [sectionAfter, hs.status]
      rfl
    refine .inr ?_
    rw [hafter, hview, core_set_status hs, moved_of_live rfl]
    exact .assemble (view_row hjob) hl (List.mem_singleton.mp hmem)
  · rw [HolderMoves, sectionAfter_refused]
    exact .inl (lock_self hl)

theorem holder_unassemble {b : Bool} {status : Status} {values : JobValues}
    {r : (RelayOp.updateJobIfStatus id [.assembling] false none values).Res}
    (hlock : l = .assembling b) (hst : status = .receiving ∨ status = .failed)
    (hs : values.Sets (some status) values.error)
    (hperform : perform s c (.updateJobIfStatus id [.assembling] false none values) w = (r, w')) :
    HolderMoves σ w w' ph id l (.updateJobIfStatus id [.assembling] false none values) r := by
  have hpush : values.status ≠ some .pushingKernel := by
    rw [hs.status]
    rcases hst with rfl | rfl <;> rintro ⟨⟩
  rcases perform_updateIfStatus hperform with ⟨rfl, hw⟩ | ⟨rfl, rfl⟩
  · obtain ⟨job, hjob, hmem, -, hview⟩ := view_updateIfStatus ph hpush hw
    refine .inr ?_
    rw [sectionAfter_settled hs.status (by rcases hst with rfl | rfl <;> rintro ⟨⟩), hview,
      core_set_status hs]
    exact .unassemble (view_row hjob) (hl.trans hlock) (List.mem_singleton.mp hmem) hst
  · rw [HolderMoves, sectionAfter_refused]
    exact .inl (lock_self hl)

theorem holder_enqueue {b : Bool} {values : JobValues}
    {r : (RelayOp.updateJobIfStatusAndPut id [.assembling] false values (!b) .process).Res}
    (hlock : l = .assembling b) (hs : values.Sets (some .queued) (some ""))
    (hperform : perform s c
      (.updateJobIfStatusAndPut id [.assembling] false values (!b) .process) w = (r, w')) :
    HolderMoves σ w w' ph id l
      (.updateJobIfStatusAndPut id [.assembling] false values (!b) .process) r := by
  have hpush : values.status ≠ some .pushingKernel := by
    rw [hs.status]
    rintro ⟨⟩
  rcases perform_updateIfStatusAndPut hperform with ⟨rfl, w₁, hw, rfl⟩ | ⟨rfl, rfl⟩
  · obtain ⟨job, hjob, hmem, -, hview⟩ := view_updateIfStatus ph hpush hw
    refine .inr ?_
    rw [view_put, hview, core_set_status hs, moved_of_live rfl]
    show Move σ _ { w.view ph id with
      row := some { job.core with
        status := .queued, retained := retainedError "", unknown := unknownError "" }
      lock := .running
      process := (w.view ph id).process || (!b && true)
      resume := (w.view ph id).resume || (!b && false) }
    rw [Bool.and_true, Bool.and_false, Bool.or_false]
    exact .enqueue (view_row hjob) (hl.trans hlock) (List.mem_singleton.mp hmem)
  · have hafter : sectionAfter l
        (.updateJobIfStatusAndPut id [.assembling] false values (!b) .process) false = l := rfl
    rw [HolderMoves, hafter]
    exact .inl (lock_self hl)

theorem holder_requeue {values : JobValues}
    {r : (RelayOp.updateJobIfStatusAndPut id [.waitingDataset] true values true .recheckDataset).Res}
    (hlock : l = .retained ∨ l = .idle) (hs : values.Sets (some .queued) (some ""))
    (hperform : perform s c
      (.updateJobIfStatusAndPut id [.waitingDataset] true values true .recheckDataset) w = (r, w'))
    (hrequeues : σ.requeues → ∀ job, w.jobs id = some job → job.status = .waitingDataset →
      w.active id = none) :
    HolderMoves σ w w' ph id l
      (.updateJobIfStatusAndPut id [.waitingDataset] true values true .recheckDataset) r := by
  have hpush : values.status ≠ some .pushingKernel := by
    rw [hs.status]
    rintro ⟨⟩
  rcases perform_updateIfStatusAndPut hperform with ⟨rfl, w₁, hw, rfl⟩ | ⟨rfl, rfl⟩
  · obtain ⟨job, hjob, hmem, hn, hview⟩ := view_updateIfStatus ph hpush hw
    refine .inr ?_
    rw [view_put, hview, core_set_status hs, moved_of_live rfl]
    show Move σ _ { w.view ph id with
      row := some { job.core with
        status := .queued, retained := retainedError "", unknown := unknownError "" }
      lock := .running
      process := (w.view ph id).process || true
      resume := (w.view ph id).resume || false }
    rw [Bool.or_true, Bool.or_false]
    refine .requeue (view_row hjob) (by rwa [hl]) (List.mem_singleton.mp hmem) ?_ fun hside => ?_
    · rw [show job.core.canceled = job.cancelRequestedAt.isSome from rfl, hn rfl]
      rfl
    · have hidle := hrequeues hside job hjob (List.mem_singleton.mp hmem)
      simp only [view, hidle, Option.map_none]
  · have hafter : sectionAfter l
        (.updateJobIfStatusAndPut id [.waitingDataset] true values true .recheckDataset) false = l := rfl
    rw [HolderMoves, hafter]
    exact .inl (lock_self hl)

theorem holder_resume {action : QueueAction}
    {r : (RelayOp.resumeIfInactive id { error := some "" } action).Res} (hv : Coupled (w.view ph id))
    (hlock : l = .unknown) (haction : action.isResume = true)
    (hperform : perform s c (.resumeIfInactive id { error := some "" } action) w = (r, w')) :
    HolderMoves σ w w' ph id l (.resumeIfInactive id { error := some "" } action) r := by
  obtain ⟨core, hrow, -⟩ : ∃ core, (w.view ph id).row = some core ∧ core.status.intake = false ∧
      core.status ≠ .queued := by
    have hfits := hv.lock
    rwa [View.LockFits, hl, hlock] at hfits
  obtain ⟨job, hjob, rfl⟩ := jobs_of_row hrow
  simp only [perform] at hperform
  refine .inr ?_
  by_cases hactive : (w.active id).isSome = true
  · rw [if_pos hactive] at hperform
    cases hperform
    exact .learn .running
  · rw [if_neg hactive] at hperform
    cases hperform
    have hdriver : (w.view ph id).driver = none := by
      simpa only [view, Option.map_eq_none_iff, Option.not_isSome_iff_eq_none] using hactive
    have hset : JobValues.Sets { error := some "" } none (some "") := ⟨rfl, rfl, rfl, rfl, rfl, rfl⟩
    have hput : ({ w.modifyJob id (updateJob (c.answers .now) { error := some "" }) with
        queue := w.queue ++ [⟨action, id⟩] } : World).view ph id = _ := view_put true action
    rw [hput, view_modifyJob hjob, core_set_error hset, haction]
    show Move σ _ { w.view ph id with
      row := some { job.core with retained := retainedError "", unknown := unknownError "" }
      lock := .running
      process := (w.view ph id).process || false
      resume := (w.view ph id).resume || true }
    rw [Bool.or_false, Bool.or_true]
    exact .resume hrow (hl.trans hlock) hdriver

/-- **Each operation under the lock is a move, or nothing.** -/
theorem move_of_sectionOp (hv : Coupled (w.view ph id)) {o : RelayOp} {r : o.Res}
    (ho : SectionOp id l o) (hperform : perform s c o w = (r, w'))
    (hcancels : σ.cancels → ∀ expected nc ek values job,
      o = .updateJobIfStatus id expected nc ek values → values.status = some .cancelRequested →
      w.jobs id = some job → job.status ∈ expected → job.status ≠ .cancelRequested → w.HasDriver id)
    (hrequeues : σ.requeues → ∀ expected nc values put action job,
      o = .updateJobIfStatusAndPut id expected nc values put action → w.jobs id = some job →
      job.status ∈ expected → job.status = .waitingDataset → w.active id = none) :
    HolderMoves σ w w' ph id l o r := by
  cases ho with
  | quiet h => exact holder_quiet hl h hperform
  | read =>
    cases hperform
    refine .inr (.learn ?_)
    rcases hjob : w.jobs id with _ | job
    · exact .running
    · exact learns_ofRow (view_row hjob)
  | isActive => exact holder_isActive hl hperform
  | noteIf hs => exact holder_noteIf hl hs hperform
  | reserve hs => exact holder_reserve hl hv rfl hs hperform
  | consume => exact holder_consume hl hv rfl hperform
  | clean hs => exact holder_clean hl hs hperform
  | cancel ht hs =>
    refine holder_cancel hl ht hs hperform fun hside hrequested job hjob hmem => ?_
    exact hcancels hside _ _ _ _ job rfl hrequested hjob hmem (List.mem_singleton.mp hmem ▸ hs)
  | expire hs => exact holder_expire hl hs hperform
  | assemble hs => exact holder_assemble hl rfl hs hperform
  | unassemble hst hs => exact holder_unassemble hl rfl hst hs hperform
  | enqueue hs => exact holder_enqueue hl rfl hs hperform
  | requeue hlock hs =>
    refine holder_requeue hl hlock hs hperform fun hside job hjob hparked => ?_
    exact hrequeues hside _ _ _ _ _ job rfl hjob (List.mem_singleton.mpr hparked) hparked
  | resume haction _ => exact holder_resume hl hv rfl haction hperform
  | delete =>
    cases hperform
    refine .inr ?_
    rw [view_delete]
    exact .delete hl

end LockMove

/-! ### Programs without a lock -/

theorem looseFits_move {v v' : View} {p : LoosePhase} (hm : Move σ v v') (hp : LooseFits v p) :
    LooseFits v' p := by
  cases p with
  | unread => trivial
  | seen first =>
    obtain ⟨hknown, hrow⟩ := hp
    obtain ⟨hknown', hkept⟩ := kept_move hm hknown
    refine ⟨hknown', fun c' hc' => ?_⟩
    obtain ⟨c, hc, hdynamic, hawaiting, -⟩ := hkept c' hc'
    obtain ⟨hd, ha⟩ := hrow c hc
    exact ⟨hdynamic.trans hd, fun h => hawaiting (ha h)⟩
  | read first status canceled =>
    obtain ⟨hknown, hstatus, hrow⟩ := hp
    obtain ⟨hknown', hkept⟩ := kept_move hm hknown
    refine ⟨hknown', hstatus, fun c' hc' => ?_⟩
    obtain ⟨c, hc, hdynamic, hawaiting, hcanceled⟩ := hkept c' hc'
    obtain ⟨hd, ha, hcancel⟩ := hrow c hc
    exact ⟨hdynamic.trans hd, fun h => hawaiting (ha h), fun h => hcanceled (hcancel h)⟩

theorem looseOp_on {p : LoosePhase} {o : RelayOp} (h : LooseOp id p o) : On id o := by
  cases h with
  | quiet h => exact on_of_quiet h id
  | _ => rfl

/-- A callback that stores its progress moves the job, cancelled or not, on. -/
theorem loose_report {first : Job} {status : Status} {canceled : Bool} {ek : Option String}
    {values : JobValues} {r : (RelayOp.updateJobIfStatus id [status] false ek values).Res}
    (hf : LooseFits (w.view ph id) (.read first status canceled)) (hadmitted : Admitted first)
    (ht : status.terminal = false)
    (hs : values.Sets (some (if canceled then .cancelRequested else .waitingKernel)) none)
    (hperform : perform s c (.updateJobIfStatus id [status] false ek values) w = (r, w'))
    (hcancels : σ.cancels → (if canceled then Status.cancelRequested else .waitingKernel) =
      .cancelRequested → ∀ job, w.jobs id = some job → job.status ∈ [status] →
        job.status ≠ .cancelRequested → w.HasDriver id)
    (hreports : σ.reports → (if canceled then Status.cancelRequested else .waitingKernel) =
      .waitingKernel → ∀ job, w.jobs id = some job → job.status ∈ [status] →
        job.schedulingMode = .dynamic → Event.submitting id none ∈ w.trace)
    (hpushed : σ.pushed → (if canceled then Status.cancelRequested else .waitingKernel) =
      .waitingKernel → ∀ job, w.jobs id = some job → job.status ∈ [status] →
        job.schedulingMode = .dynamic → Event.pushed id ∈ w.trace) :
    w'.view ph id = w.view ph id ∨ Move σ (w.view ph id) (w'.view ph id) := by
  have hpush : values.status ≠ some .pushingKernel := by
    rw [hs.status]
    cases canceled <;> rintro ⟨⟩
  have hlive : (if canceled then Status.cancelRequested else .waitingKernel).terminal = false := by
    cases canceled <;> rfl
  rcases perform_updateIfStatus hperform with ⟨-, hw⟩ | ⟨-, rfl⟩
  · obtain ⟨job, hjob, hmem, -, hview⟩ := view_updateIfStatus ph hpush hw
    obtain rfl : job.status = status := List.mem_singleton.mp hmem
    have hrow : (w.view ph id).row = some job.core := view_row hjob
    obtain ⟨-, hstatus, hfits⟩ := hf
    obtain ⟨hdynamic, hawaiting, hcanceled⟩ := hfits _ hrow
    have hmode : job.core.dynamic = true → job.schedulingMode = .dynamic := fun hdyn => by
      simpa [Job.core] using hdyn
    refine .inr ?_
    rw [hview, core_set_status hs, moved_of_live hlive]
    refine .report hrow ht (hawaiting hadmitted.1) ?_ (fun h => ?_) (fun hside hne heq => ?_)
      (fun hside hdyn heq => ?_) fun hside hdyn heq => ?_
    · cases canceled with
      | true => exact .inr ⟨rfl, hcanceled rfl⟩
      | false => exact .inl rfl
    · rw [hstatus h]
      rfl
    · exact hasDriver_view.mpr (hcancels hside heq job hjob hmem hne)
    · have hsubmitted : Event.submitting id none ∈ w.trace := hreports hside heq job hjob hmem (hmode hdyn)
      simpa only [view, holds_eq_true] using hsubmitted
    · exact pushes_view.mpr (hpushed hside heq job hjob hmem (hmode hdyn))
  · exact .inl rfl

section LooseMove

variable {p : LoosePhase} (hv : Coupled (w.view ph id)) (hf : LooseFits (w.view ph id) p)
include hv hf

/-- **Each operation without a lock is a move, or nothing.** -/
theorem move_of_looseOp {o : RelayOp} {r : o.Res} (ho : LooseOp id p o)
    (hperform : perform s c o w = (r, w'))
    (hcancels : σ.cancels → ∀ expected nc ek values job,
      o = .updateJobIfStatus id expected nc ek values → values.status = some .cancelRequested →
      w.jobs id = some job → job.status ∈ expected → job.status ≠ .cancelRequested → w.HasDriver id)
    (hreports : σ.reports → ∀ expected nc ek values job,
      o = .updateJobIfStatus id expected nc ek values → values.status = some .waitingKernel →
      w.jobs id = some job → job.status ∈ expected → job.schedulingMode = .dynamic →
      Event.submitting id none ∈ w.trace)
    (hpushed : σ.pushed → ∀ expected nc ek values job,
      o = .updateJobIfStatus id expected nc ek values → values.status = some .waitingKernel →
      w.jobs id = some job → job.status ∈ expected → job.schedulingMode = .dynamic →
      Event.pushed id ∈ w.trace) :
    w'.view ph id = w.view ph id ∨ Move σ (w.view ph id) (w'.view ph id) := by
  cases ho with
  | quiet h =>
    have hsame := view_of_quiet (s := s) (c := c) (w := w) ph h id
    rw [hperform] at hsame
    exact .inl hsame
  | read =>
    cases hperform
    exact .inl rfl
  | @noteIf _ expected nc ek values hs =>
    have hpush : values.status ≠ some .pushingKernel := by
      rw [hs.status]
      rintro ⟨⟩
    rcases perform_updateIfStatus hperform with ⟨-, hw⟩ | ⟨-, rfl⟩
    · obtain ⟨job, hjob, -, -, hview⟩ := view_updateIfStatus ph hpush hw
      rw [hview, core_set_error hs]
      exact .inl (view_self (view_row hjob))
    · exact .inl rfl
  | report hadmitted ht hs =>
    exact loose_report hf hadmitted ht hs hperform
      (fun hside heq job => hcancels hside _ _ _ _ job rfl (by rw [hs.status, heq]))
      (fun hside heq job => hreports hside _ _ _ _ job rfl (by rw [hs.status, heq]))
      fun hside heq job => hpushed hside _ _ _ _ job rfl (by rw [hs.status, heq])
  | @refuse _ values e hs hretained hunknown =>
    have hpush : values.status ≠ some .pushingKernel := by
      rw [hs.status]
      rintro ⟨⟩
    rcases perform_updateIfStatus hperform with ⟨-, hw⟩ | ⟨-, rfl⟩
    · obtain ⟨job, hjob, hmem, -, hview⟩ := view_updateIfStatus ph hpush hw
      have hflags : retainedError e = false ∧ unknownError e = false := ⟨hretained, hunknown⟩
      refine .inr ?_
      rw [hview, core_set_status hs, Option.getD_some, hflags.1, hflags.2]
      exact .refuse (view_row hjob) (List.mem_singleton.mp hmem)
    · exact .inl rfl
  | @bind _ values hs hbound =>
    have hpush : values.status ≠ some .pushingKernel := by
      have hnone : values.status = none := hs.status
      rw [hnone]
      rintro ⟨⟩
    rcases perform_updateIfStatusAndPut hperform with ⟨-, w₁, hw, rfl⟩ | ⟨-, rfl⟩
    · obtain ⟨job, hjob, hmem, -, hview⟩ := view_updateIfStatus ph hpush hw
      refine .inr ?_
      rw [view_put, hview, core_bind hs hbound]
      show Move σ _ { w.view ph id with
        row := some { job.core with awaiting := false }
        process := (w.view ph id).process || true
        resume := (w.view ph id).resume || false }
      rw [Bool.or_true, Bool.or_false]
      exact .bind (view_row hjob) (List.mem_singleton.mp hmem)
    · exact .inl rfl

/-- What a program has read is so. -/
theorem looseFits_after {o : RelayOp} {r : o.Res} (hperform : perform s c o w = (r, w'))
    (hon : On id o) (hmove : w'.view ph id = w.view ph id ∨ Move σ (w.view ph id) (w'.view ph id)) :
    LooseFits (w'.view ph id) (looseAfter p o r) := by
  have hkept : LooseFits (w'.view ph id) p := by
    rcases hmove with hsame | hm
    · rwa [hsame]
    · exact looseFits_move hm hf
  cases o with
  | getJob i =>
    have hi : id = i := Eq.symm hon
    subst hi
    cases hperform
    rcases hjob : w.jobs id with _ | job
    · exact hkept
    · have hrow : (w.view ph id).row = some job.core := view_row hjob
      have hknown : (w.view ph id).known = true := by
        by_contra hne
        obtain ⟨-, hnone, -⟩ := hv.unknown (by simpa using hne)
        rw [hrow] at hnone
        cases hnone
      have hread : ∀ first : Job, (∀ c, (w.view ph id).row = some c →
            c.dynamic = (first.schedulingMode == .dynamic) ∧
              (awaitingAssignment first = false → c.awaiting = false)) →
          LooseFits (w.view ph id) (.read first job.status job.cancelRequestedAt.isSome) := by
        refine fun first hfirst => ⟨hknown, (hv.sound _ hrow).canceled, fun c hc => ?_⟩
        obtain ⟨hdynamic, hawaiting⟩ := hfirst c hc
        refine ⟨hdynamic, hawaiting, fun h => ?_⟩
        obtain rfl : job.core = c := by simpa only [hrow, Option.some.injEq] using hc
        exact h
      cases p with
      | unread =>
        show LooseFits (w.view ph id) (.seen job)
        refine ⟨hknown, fun c hc => ?_⟩
        obtain rfl : job.core = c := by simpa only [hrow, Option.some.injEq] using hc
        exact ⟨rfl, fun h => h⟩
      | seen first => exact hread first hf.2
      | read first status canceled =>
        exact hread first fun c hc => ⟨(hf.2.2 c hc).1, (hf.2.2 c hc).2.1⟩
  | _ => exact hkept

end LooseMove

/-! ### The recovery -/

theorem recoveryOp_on {p : RecoveryPhase} {o : RelayOp} (h : RecoveryOp id p o) : On id o := by
  cases h with
  | quiet h => exact on_of_quiet h id
  | _ => first | rfl | trivial

section RecoveryMove

variable {p : RecoveryPhase} (hq : (w.view ph id).Quiet) (hl : (w.view ph id).lock = .free)
  (hf : RecoveryFits (w.view ph id) p) (hrestarts : σ.restarts)
include hq hl hf hrestarts

/-- **Each operation of the recovery is a move of the row, or nothing**, and
what the recovery knows of the row stays so. -/
theorem move_of_recoveryOp {o : RelayOp} {r : o.Res} (ho : RecoveryOp id p o)
    (hperform : perform s c o w = (r, w')) :
    (w'.view ph id = w.view ph id ∨ Move σ (w.view ph id) (w'.view ph id)) ∧
      (∃ row, w'.view ph id = { w.view ph id with row }) ∧
      RecoveryFits (w'.view ph id) (recoveryAfter p o r) := by
  have hsame : ∀ {w₁ : World} {p₁ : RecoveryPhase}, w₁.view ph id = w.view ph id → p₁ = p →
      (w₁.view ph id = w.view ph id ∨ Move σ (w.view ph id) (w₁.view ph id)) ∧
        (∃ row, w₁.view ph id = { w.view ph id with row }) ∧ RecoveryFits (w₁.view ph id) p₁ := by
    rintro w₁ p₁ hview rfl
    rw [hview]
    exact ⟨.inl rfl, ⟨_, rfl⟩, hf⟩
  cases ho with
  | quiet h =>
    have hview := view_of_quiet (s := s) (c := c) (w := w) ph h id
    rw [hperform] at hview
    have htolerates : Tolerates (recovering id) fun _ => True := tolerates_recovering
    exact hsame hview (htolerates.after _ _ _ h)
  | poll =>
    cases hperform
    exact hsame rfl rfl
  | @reserve status values n hs =>
    cases hperform
    obtain ⟨hlive, core, hrow, hstatus⟩ := hf
    obtain ⟨job, hjob, rfl⟩ := jobs_of_row hrow
    have hafter : recoveryAfter (.live status) (.updateJob id values) () = .live status := by
      simp only [recoveryAfter, hs.status]
    rw [hafter, view_modifyJob hjob, core_reserves hs]
    exact ⟨.inr (.recoverReserve hrestarts hq hl hrow (hstatus ▸ hlive)), ⟨_, rfl⟩, hlive, _, rfl,
      hstatus⟩
  | @consume status n =>
    cases hperform
    obtain ⟨hlive, core, hrow, hstatus⟩ := hf
    obtain ⟨job, hjob, rfl⟩ := jobs_of_row hrow
    rw [view_modifyJob hjob]
    exact ⟨.inr (.recoverReserve (b := job.reservedBytes - n != 0) hrestarts hq hl hrow
      (hstatus ▸ hlive)), ⟨_, rfl⟩, hlive, _, rfl, hstatus⟩
  | @finish old status values hst hs =>
    cases hperform
    obtain ⟨hlive, core, hrow, hstatus⟩ := hf
    obtain ⟨job, hjob, rfl⟩ := jobs_of_row hrow
    have hafter : recoveryAfter (.live old) (.updateJob id values) () = .settled := by
      rcases hst with rfl | rfl <;> simp only [recoveryAfter, hs.status]
    rw [hafter, view_modifyJob hjob, core_set_status hs]
    refine ⟨.inr (.recoverEnd hrestarts hq hl hrow (hstatus ▸ hlive) hst), ⟨_, rfl⟩, _, rfl, ?_⟩
    rcases hst with rfl | rfl <;> rfl
  | @requeueIf status values hst hs =>
    have hpush : values.status ≠ some .pushingKernel := by
      rw [hs.status]
      rintro ⟨⟩
    rcases perform_updateIfStatus hperform with ⟨rfl, hw⟩ | ⟨rfl, rfl⟩
    · obtain ⟨job, hjob, hmem, -, hview⟩ := view_updateIfStatus ph hpush hw
      obtain rfl : job.status = status := List.mem_singleton.mp hmem
      rw [hview, core_set_status hs, moved_of_live rfl]
      exact ⟨.inr (.recoverQueue hrestarts hq hl (view_row hjob) (.inr hst)), ⟨_, rfl⟩, _, rfl, rfl⟩
    · exact hsame rfl rfl
  | @requeue values hs =>
    cases hperform
    obtain ⟨-, core, hrow, hstatus⟩ := hf
    obtain ⟨job, hjob, rfl⟩ := jobs_of_row hrow
    have hafter : recoveryAfter (.live .assembling) (.updateJob id values) () = .queued := by
      simp only [recoveryAfter, hs.status]
    rw [hafter, view_modifyJob hjob, core_set_status hs, moved_of_live rfl]
    exact ⟨.inr (.recoverQueue hrestarts hq hl hrow (.inl hstatus)), ⟨_, rfl⟩, _, rfl, rfl⟩

end RecoveryMove

end World

end KaggleRelay

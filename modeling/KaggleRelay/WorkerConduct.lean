/-
The protocol of a worker task.

`worker id` says what the task of a job may do to its row, and when: it parks
the job only after it has read the row uploading or waiting, pushes the kernel
only after its own transition to `pushing_kernel`, and after the push only ever
moves the row on or ends it.  `follows_runWorkerItem` — every item's program
keeps to it and returns in a final phase only.
-/
import KaggleRelay.Conduct
import KaggleRelay.Lifecycle

namespace KaggleRelay

open Effects Lifecycle

/-! ### The protocol -/

namespace Lifecycle.WorkerPhase

/-- Neither parked nor between the transition and the push, and with nothing
noted that ends the task. -/
def Live (p : WorkerPhase) : Prop :=
  (∃ b, p = .fresh b) ∨ (∃ b, p = .finishing b) ∨ p = .ended

/-- Before the transition to `pushing_kernel`, or the job has ended. -/
def Early (p : WorkerPhase) : Prop := (∃ b, p = .fresh b) ∨ p = .ended

/-- After the push, or the job has ended. -/
def Late (p : WorkerPhase) : Prop := (∃ b, p = .finishing b) ∨ p = .ended

theorem Early.live {p : WorkerPhase} (h : p.Early) : p.Live := h.imp id .inr

theorem Late.live {p : WorkerPhase} (h : p.Late) : p.Live := .inr h

/-- What reading the row tells a task. -/
def look (p : WorkerPhase) (job : Job) : WorkerPhase :=
  match p with
  | .parked => .parked
  | .fresh seen =>
    if job.status.terminal then .ended
    else .fresh (seen || job.status == .uploadingDataset || job.status == .waitingDataset)
  | .finishing _ =>
    if job.status.terminal then .ended else .finishing job.cancelRequestedAt.isSome
  | .recorded => if job.status.terminal then .ended else .rereading
  | p => if job.status.terminal then .ended else p

/-- The statuses a task can read. -/
def Reads (p : WorkerPhase) (status : Status) : Prop :=
  match p with
  | .fresh _ | .parked => True
  | .ended => status.terminal = true
  | _ => status.submitted = true

end Lifecycle.WorkerPhase

open Lifecycle.WorkerPhase

/-- The operations a task may perform in a phase. -/
inductive WorkerOp (id : JobId) : WorkerPhase → RelayOp → Prop
  | quiet {p : WorkerPhase} {o : RelayOp} (hp : p ≠ .recorded) (h : o.touches = false) :
    WorkerOp id p o
  | poll {p : WorkerPhase} {kernelRef : String} (hp : p.Late) :
    WorkerOp id p (.call (.pollKernel kernelRef))
  | read {p : WorkerPhase} : WorkerOp id p (.getJob id)
  | note {p : WorkerPhase} {values : JobValues} {e : Option String} (hp : p.Live)
    (hv : values.Sets none e) (he : Forgetful e) : WorkerOp id p (.updateJob id values)
  | noteIf {p : WorkerPhase} {expected : List Status} {nc : Bool} {ek : Option String}
    {values : JobValues} (hp : p ≠ .recorded) (hv : values.Sets none none) :
    WorkerOp id p (.updateJobIfStatus id expected nc ek values)
  | transition {p : WorkerPhase} {expected : List Status} {ek : Option String} {values : JobValues}
    {status : Status} (hp : p.Early)
    (hx : ∀ x ∈ expected, x = .queued ∨ x = .uploadingDataset ∨ x = .waitingDataset)
    (hs : status = .uploadingDataset ∨ status = .waitingDataset)
    (hv : values.Sets (some status) none) :
    WorkerOp id p (.updateJobIfStatus id expected true ek values)
  | commit {p : WorkerPhase} {expected : List Status} {ek : Option String} {values : JobValues}
    (hp : p.Early) (hx : ∀ x ∈ expected, x = .queued ∨ x = .waitingDataset)
    (hv : values.Sets (some .pushingKernel) none) :
    WorkerOp id p (.updateJobIfStatus id expected true ek values)
  | push {kernelDir : String} : WorkerOp id .committed (.pushKernel id kernelDir)
  | advance {b : Bool} {expected status : Status} {ek e : Option String} {values : JobValues}
    (ht : expected.terminal = false)
    (hs : status = .waitingKernel ∨ status = .downloadingOutput ∨
      (status = .cancelRequested ∧ b = true))
    (hk : expected = .cancelRequested → status = .cancelRequested)
    (hv : values.Sets (some status) e) (he : Forgetful e) :
    WorkerOp id (.finishing b) (.updateJobIfStatus id [expected] false ek values)
  | finalize {p : WorkerPhase} {preferred : Status} {values : JobValues} (hp : p.Live)
    (hpref : preferred.terminal = true) (hv : values.Sets none values.error) :
    WorkerOp id p (.finalizeJob id preferred values)
  | park {values : JobValues} {e : String} (hv : values.Sets (some .waitingDataset) (some e))
    (he : Text.startswith e Relay.retainedPrefix = true) :
    WorkerOp id (.fresh true) (.updateJob id values)
  | record {p : WorkerPhase} {values : JobValues} {e : String}
    (hp : (∃ b, p = .finishing b) ∨ p = .rereading) (hv : values.Sets none (some e))
    (he : Text.startswith e "kernel_status_unknown:" = true) :
    WorkerOp id p (.updateJob id values)

/-- The phase an answer leads to. -/
def workerAfter (p : WorkerPhase) : (o : RelayOp) → o.Res → WorkerPhase
  | .getJob _, job => job.elim p p.look
  | .updateJob _ values, _ =>
    if values.status = some .waitingDataset then .parked
    else if values.error.any (Text.startswith · "kernel_status_unknown:") then .recorded
    else p
  | .updateJobIfStatus _ _ _ _ values, updated =>
    if updated = true ∧ values.status = some .pushingKernel then .committed else p
  | .pushKernel _ _, _ => .finishing false
  | .finalizeJob _ _ _, _ => .ended
  | _, _ => p

/-- The answers a task can get: its row is there, and says nothing that the
phase rules out. -/
def workerAnswers (p : WorkerPhase) : (o : RelayOp) → o.Res → Prop
  | .getJob _, job => ∃ j, job = some j ∧ p.Reads j.status ∧
    (j.status = .cancelRequested → j.cancelRequestedAt.isSome = true)
  | .updateJobIfStatus _ expected _ _ _, updated =>
    updated = true → p = .ended → ∃ x ∈ expected, x.terminal = true
  | o, r => World.legal o r = true

/-- The protocol of a task of the job. -/
def worker (id : JobId) : Protocol RelaySig WorkerPhase :=
  ⟨WorkerOp id, workerAnswers, workerAfter⟩

theorem legal_of_workerAnswers {p : WorkerPhase} {o : RelayOp} {r : o.Res}
    (h : workerAnswers p o r) : World.legal o r = true := by
  cases o <;> first | rfl | exact h

theorem tolerates_worker {id : JobId} {S : WorkerPhase → Prop} (hS : ∀ p, S p → p ≠ .recorded) :
    Tolerates (worker id) S where
  allows p o hp h := .quiet (hS p hp) h
  after p o r h := by cases o <;> first | rfl | cases h
  answers _ _ _ h := legal_of_workerAnswers h

theorem tolerates_early {id : JobId} : Tolerates (worker id) Early :=
  tolerates_worker (by rintro _ (⟨b, rfl⟩ | rfl) <;> exact nofun)

theorem tolerates_late {id : JobId} : Tolerates (worker id) Late :=
  tolerates_worker (by rintro _ (⟨b, rfl⟩ | rfl) <;> exact nofun)

theorem Forgetful.any_eq_false {e : Option String} (h : Forgetful e) :
    e.any (Text.startswith · "kernel_status_unknown:") = false := by
  rcases h with rfl | rfl
  · rfl
  · rfl

/-! ### Before the push -/

namespace Relay

section Early

variable {s : Settings} {id : JobId} {job : Job}

/-- Reading the row: it is there, and tells what the phase lets it say. -/
theorem follows_getJob {E : Exc → WorkerPhase → Prop} (p : WorkerPhase) :
    Follows (worker id) (post (fun r p' => ∃ j, r = some j ∧ p' = p.look j ∧ p.Reads j.status ∧
      (j.status = .cancelRequested → j.cancelRequestedAt.isSome = true)) E) (getJob id) p := by
  refine .op .read ?_
  rintro r ⟨j, rfl, hreads, hcanceled⟩
  exact .pure ⟨j, rfl, rfl, hreads, hcanceled⟩

theorem early_look {p : WorkerPhase} (h : p.Early) (job : Job) : (p.look job).Early := by
  rcases h with ⟨b, rfl⟩ | rfl <;> unfold WorkerPhase.look <;> dsimp only <;> split
  · exact .inr rfl
  · exact .inl ⟨_, rfl⟩
  · exact .inr rfl
  · exact .inr rfl

theorem stays_getJob : Stays (worker id) Early (getJob id) := by
  intro p h
  refine (follows_getJob p).imp ?_ fun _ _ h => h
  rintro _ _ ⟨j, rfl, rfl, -, -⟩
  exact early_look h j

theorem follows_latestJob {E : Exc → WorkerPhase → Prop} (p : WorkerPhase) :
    Follows (worker id) (post (fun current p' => p' = p.look current ∧ p.Reads current.status) E)
      (latestJob id job) p := by
  refine Follows.seq (follows_getJob p) ?_
  rintro _ _ ⟨current, rfl, rfl, hreads, -⟩
  exact .pure ⟨rfl, hreads⟩

theorem stays_latestJob : Stays (worker id) Early (latestJob id job) :=
  .bind stays_getJob fun _ => .pure _

theorem stays_stopIfCancelRequested : Stays (worker id) Early (stopIfCancelRequested id job) :=
  .bind stays_latestJob fun _ => .raiseIf ⟨nofun, nofun⟩

theorem follows_note {E : Exc → WorkerPhase → Prop} {values : JobValues} {e : Option String}
    (hv : values.Sets none e) (he : Forgetful e) {p : WorkerPhase} (h : p.Live) :
    Follows (worker id) (post (fun _ p' => p' = p) E) (updateJob id values) p := by
  refine .op (.note h hv he) fun r _ => .pure ?_
  simp only [worker, workerAfter, hv.status, hv.error, he.any_eq_false]
  rfl

theorem stays_note {S : WorkerPhase → Prop} (hS : ∀ p, S p → p.Live) {values : JobValues}
    {e : Option String} (hv : values.Sets none e) (he : Forgetful e) :
    Stays (worker id) S (updateJob id values) := by
  intro p h
  refine (follows_note hv he (hS p h)).imp ?_ fun _ _ h => h
  rintro _ _ rfl
  exact h

/-- A transition that has not been made raises. -/
theorem follows_transitionRefused (text : Job → String) {p : WorkerPhase} (h : p.Early) :
    Follows (worker id) (post (fun _ _ => False) fun e p' => e.Ordinary ∧ p'.Early) (do
      stopIfCancelRequested id job
      let current ← latestJob id job
      Eff.throw (.runtimeError (text current)) : Relay Unit) p :=
  Follows.seq (stays_stopIfCancelRequested p h) fun _ p' h' =>
    Follows.seq (stays_latestJob p' h') fun _ _ h'' => .pure ⟨⟨nofun, nofun⟩, h''⟩

theorem stays_transitionBeforeSubmission {expected : List Status} {status : Status} {progress : ℚ}
    (hx : ∀ x ∈ expected, x = .queued ∨ x = .uploadingDataset ∨ x = .waitingDataset)
    (hs : status = .uploadingDataset ∨ status = .waitingDataset) :
    Stays (worker id) Early (transitionBeforeSubmission id job expected status progress) := by
  refine .bind ?_ fun updated => .ite (.pure _) fun p h =>
    (follows_transitionRefused _ h).imp (fun _ _ h => h.elim) fun _ _ h => h
  intro p h
  refine .op (.transition h hx hs ⟨rfl, rfl, rfl, rfl, rfl, rfl⟩) fun r _ => ?_
  have hne : ¬(r = true ∧ some status = some Status.pushingKernel) := by
    rintro ⟨-, heq⟩
    rcases hs with rfl | rfl <;> cases heq
  rw [show (worker id).after p _ r = p from if_neg hne]
  exact .pure h

/-- The transition to `pushing_kernel`. -/
theorem follows_commit {expected : List Status} {progress : ℚ}
    (hx : ∀ x ∈ expected, x = .queued ∨ x = .waitingDataset) {p : WorkerPhase} (h : p.Early) :
    Follows (worker id) (post (fun _ p' => p' = .committed) fun e p' => e.Ordinary ∧ p'.Live)
      (transitionBeforeSubmission id job expected .pushingKernel progress) p := by
  refine .op (.commit h hx ⟨rfl, rfl, rfl, rfl, rfl, rfl⟩) fun r hr => ?_
  cases r with
  | true =>
    rcases h with ⟨b, rfl⟩ | rfl
    · exact .pure rfl
    · -- the row of a job that has ended is in none of the expected statuses
      obtain ⟨x, hmem, hterm⟩ := hr rfl rfl
      rcases hx x hmem with rfl | rfl <;> cases hterm
  | false =>
    exact (follows_transitionRefused _ h).imp (fun _ _ h => h.elim) fun _ _ h => ⟨h.1, h.2.live⟩

theorem stays_checkRetained (saved : Option Intent) :
    Stays (worker id) Early (checkRetained s id job saved) := by
  rcases saved with _ | intent
  · exact .throw ⟨nofun, nofun⟩
  · exact .bind (.raiseIf ⟨nofun, nofun⟩) fun _ => .bind (.contentDigest tolerates_early _) fun _ =>
      .bind (.raiseIf ⟨nofun, nofun⟩) fun _ => .pure _

theorem stays_reuseDataset (username : String) (cache : DatasetCache) :
    Stays (worker id) Early (reuseDataset s id job username cache) := by
  have hP : Tolerates (worker id) Early := tolerates_early
  refine .bind (.perform hP rfl) fun own => .bind (.perform hP rfl) fun there => .bind (.raiseIf ⟨nofun, nofun⟩)
    fun _ => .bind (stays_validateKernelPayload hP _ _ _ _) fun _ =>
    .bind (.contentDigest hP _) fun digest => ?_
  rcases s.readyDatasetVersion cache.datasetStatus with _ | version
  · exact .throw ⟨nofun, nofun⟩
  · exact .bind (stays_waitDataset hP stays_stopIfCancelRequested _ _ _) fun _ =>
      .bind (stays_pinKernelDatasetVersion hP _ _ _) fun _ =>
      stays_note (fun _ h => h.live) ⟨rfl, rfl, rfl, rfl, rfl, rfl⟩ (.inl rfl)

theorem stays_datasetReceipt (retained : Option Intent) :
    Stays (worker id) Early (datasetReceipt s id job retained) := by
  rcases retained with _ | intent
  · exact .bind (stays_transitionBeforeSubmission (by decide) (.inl rfl)) fun _ =>
      .bind (stays_uploadDataset tolerates_early _ _) fun _ =>
      .bind (stays_transitionBeforeSubmission (by decide) (.inr rfl)) fun _ => .pure _
  · exact .bind (stays_transitionBeforeSubmission (by decide) (.inr rfl)) fun _ => .pure _

theorem stays_recordDataset (datasetStatus : String) :
    Stays (worker id) Early (recordDataset s id job datasetStatus) := by
  have hP : Tolerates (worker id) Early := tolerates_early
  unfold recordDataset
  split
  · exact .throw ⟨nofun, nofun⟩
  · refine .bind (stays_pinKernelDatasetVersion hP _ _ _) fun _ => ?_
    split
    · exact .bind (.perform hP rfl) fun _ => .perform hP rfl
    · exact .pure _

theorem stays_provideDataset (username : String) (retained : Option Intent) :
    Stays (worker id) Early (provideDataset s id job username retained) := by
  refine .bind stays_stopIfCancelRequested fun _ => ?_
  refine .bind (stays_validatePayloads tolerates_early _ _ _ _ _) fun _ => ?_
  refine .bind (stays_datasetReceipt retained) fun _ => ?_
  refine .bind (stays_waitDataset tolerates_early stays_stopIfCancelRequested _ _ _) fun _ => ?_
  refine .bind (stays_note (fun _ h => h.live) ⟨rfl, rfl, rfl, rfl, rfl, rfl⟩ (.inr rfl)) fun _ => ?_
  refine .bind stays_stopIfCancelRequested fun _ => ?_
  exact stays_recordDataset _

/-- What stays early raises only exceptions that leave the task live. -/
theorem follows_of_early {α : Type} {q : Relay α} (hq : Stays (worker id) Early q) {p : WorkerPhase}
    (h : p.Early) :
    Follows (worker id) (post (fun _ p' => p'.Early) fun e p' => e.Ordinary ∧ p'.Live) q p := by
  exact (hq p h).imp (fun _ _ h => h) fun _ _ h => ⟨h.1, h.2.live⟩

theorem stays_retainedCandidate (retainedCandidateOnly : Bool) (saved : Option Intent) :
    Stays (worker id) Early (retainedCandidate s id job retainedCandidateOnly saved) := by
  cases retainedCandidateOnly with
  | true => exact .map (stays_checkRetained saved)
  | false => exact .pure _

theorem stays_prepareDataset (username : String) (saved : Option Intent)
    (cache : Option DatasetCache) (retained : Option Intent) :
    Stays (worker id) Early (prepareDataset s id job username saved cache retained) := by
  unfold prepareDataset
  split
  · exact stays_reuseDataset _ _
  · exact stays_provideDataset _ _

/-- Up to the push; what is raised on the way leaves the task live. -/
theorem follows_submitKernel (username : String) (retainedCandidateOnly : Bool) {p : WorkerPhase}
    (h : p.Early) :
    Follows (worker id) (post (fun _ p' => p' = .finishing false) fun e p' => e.Ordinary ∧ p'.Live)
      (submitKernel s id job username retainedCandidateOnly) p := by
  have hP : Tolerates (worker id) Early := tolerates_early
  refine Follows.seq (follows_of_early stays_stopIfCancelRequested h) fun _ p h => ?_
  refine Follows.seq (follows_of_early (.raiseIf (by exact ⟨nofun, nofun⟩)) h) fun _ p h => ?_
  refine Follows.seq (follows_of_early (.call hP (c := .requireIdentity _) rfl) h) fun _ p h => ?_
  refine Follows.seq (follows_of_early (stays_getReadyDatasetCache hP _ _ _) h) fun cache p h => ?_
  refine Follows.seq (follows_of_early (.readIntent hP _) h) fun saved p h => ?_
  refine Follows.seq (follows_of_early (stays_retainedCandidate _ saved) h) fun retained p h => ?_
  refine Follows.seq (follows_of_early (stays_prepareDataset _ _ _ _) h) fun _ p h => ?_
  refine Follows.seq (follows_of_early (.call hP (c := .applyPolicies _ _) rfl) h) fun _ p h => ?_
  refine Follows.seq (follows_commit (by decide) h) ?_
  rintro - p rfl
  refine .op .push fun r hr => ?_
  rcases r with e | a
  · have hlegal : World.legal (.pushKernel id (s.kernelDir id)) (.error e) = true := hr
    exact .pure ⟨ordinary_of_legal rfl hlegal rfl, .inr (.inl ⟨false, rfl⟩)⟩
  · exact .pure rfl

end Early

/-! ### After the push -/

/-- What a task may raise: something ordinary while it is live, or that the
kernel's status is unavailable once this is noted or the job has ended. -/
def Raised (e : Exc) (p : WorkerPhase) : Prop :=
  (e.Ordinary ∧ p.Live) ∨ (e.cls = .kernelStatusUnavailable ∧ (p = .recorded ∨ p = .ended))

section Late

variable {s : Settings} {id : JobId}

theorem late_look {p : WorkerPhase} (h : p.Late) (job : Job) : (p.look job).Late := by
  rcases h with ⟨b, rfl⟩ | rfl <;> unfold WorkerPhase.look <;> dsimp only <;> split
  · exact .inr rfl
  · exact .inl ⟨_, rfl⟩
  · exact .inr rfl
  · exact .inr rfl

theorem stays_getJob_late : Stays (worker id) Late (getJob id) := by
  intro p h
  refine (follows_getJob p).imp ?_ fun _ _ h => h
  rintro _ _ ⟨j, rfl, rfl, -, -⟩
  exact late_look h j

/-- The guard of startup events raises nothing but `TypeError`. -/
theorem ordinary_ignoresProgress {current : Job} {values : JobValues} {e : Exc}
    (h : ignoresProgress s current values = .error e) : e.Ordinary := by
  unfold ignoresProgress at h
  split at h
  · cases h
  · cases hignore : s.ignoreStartupProgress current _ <;> rw [hignore] at h <;> cases h
    exact ⟨(by rintro ⟨⟩), (by rintro ⟨⟩)⟩

/-- The loop that moves a row on: it writes over the status it has read, and
writes `cancel_requested` exactly where it has read a cancellation. -/
theorem stays_updateFinishStatus {running : Status} {valuesForJob : Job → JobValues}
    {e : Option String} (hrunning : running = .waitingKernel ∨ running = .downloadingOutput)
    (hv : ∀ job, (valuesForJob job).Sets none e) (he : Forgetful e) (n : ℕ) :
    Stays (worker id) Late (updateFinishStatus s id running valuesForJob n) := by
  induction n with
  | zero => exact .throw ⟨(by rintro ⟨⟩), (by rintro ⟨⟩)⟩
  | succ n ih =>
    intro p h
    refine Follows.seq (follows_getJob p) ?_
    rintro _ _ ⟨current, rfl, rfl, hreads, hcanceled⟩
    have hlook : (p.look current).Late := late_look h current
    have hfinishing : current.status.terminal = false →
        p.look current = .finishing current.cancelRequestedAt.isSome := by
      intro hterm
      rcases h with ⟨b, rfl⟩ | rfl
      · exact if_neg (by rw [hterm]; rintro ⟨⟩)
      · exact absurd hreads (by rw [WorkerPhase.Reads, hterm]; rintro ⟨⟩)
    refine Follows.ite (fun _ => .pure hlook) fun hterm => ?_
    refine Follows.seq (Q := fun _ p' => p' = p.look current)
      (Follows.lift (fun _ _ => rfl) fun e he' => ⟨ordinary_ignoresProgress he', hlook⟩) ?_
    rintro ignored _ rfl
    refine Follows.ite (fun _ => .pure hlook) fun _ => ?_
    have hterm' : current.status.terminal = false := by simpa using hterm
    rw [hfinishing hterm'] at hlook ⊢
    have hcancel : jobCancelRequested current = current.cancelRequestedAt.isSome := by
      unfold jobCancelRequested
      by_cases hc : current.status = .cancelRequested
      · rw [hcanceled hc]
        rfl
      · rw [beq_eq_false_iff_ne.mpr hc, Bool.or_false]
    -- a transition that is not to `pushing_kernel` leaves the phase
    have hafter : ∀ r, (worker id).after (.finishing current.cancelRequestedAt.isSome)
        (.updateJobIfStatus id [current.status] false
          ((valuesForJob current).kernelStatus.map fun _ => current.kernelStatus)
          { valuesForJob current with
            status := some (if jobCancelRequested current then .cancelRequested else running) }) r =
        .finishing current.cancelRequestedAt.isSome := by
      refine fun r => if_neg ?_
      rintro ⟨-, heq⟩
      have heq := Option.some.inj heq
      split at heq
      · cases heq
      · rcases hrunning with rfl | rfl <;> cases heq
    refine .op (.advance hterm' ?_ ?_ ((hv current).withStatus _) he) fun r _ => ?_
    · rw [hcancel]
      by_cases hc : current.cancelRequestedAt.isSome = true
      · rw [if_pos hc]
        exact .inr (.inr ⟨rfl, hc⟩)
      · rw [if_neg hc]
        exact hrunning.imp (fun h => h) .inl
    · intro hc
      rw [if_pos (by rw [hcancel]; exact hcanceled hc)]
    · rw [hafter]
      change Bool at r
      exact Follows.ite (fun _ => stays_getJob_late _ hlook) fun _ => ih _ hlook

theorem stays_reportProgress (remoteProgress : ℚ) (data : String) :
    Stays (worker id) Late (reportProgress s id remoteProgress data) := by
  refine .bind ?_ fun _ => .pure _
  exact stays_updateFinishStatus (e := none) (.inl rfl) (fun _ => ⟨rfl, rfl, rfl, rfl, rfl, rfl⟩)
    (.inl rfl) 5

theorem startswith_kernelStatusUnknown (e : Exc) :
    Text.startswith (kernelStatusUnknown s e) "kernel_status_unknown:" = true := by
  have htext : "kernel_status_unknown: " = "kernel_status_unknown:" ++ " " := by rfl
  unfold kernelStatusUnknown
  rw [htext, String.append_assoc]
  exact Text.startswith_append _ _

/-- Noting that the kernel's end is unknown. -/
theorem follows_record {E : Exc → WorkerPhase → Prop} {e : Exc} {p : WorkerPhase}
    (h : (∃ b, p = .finishing b) ∨ p = .rereading) :
    Follows (worker id) (post (fun _ p' => p' = .recorded) E)
      (updateJob id { error := some (kernelStatusUnknown s e) }) p := by
  have htext := startswith_kernelStatusUnknown (s := s) e
  refine .op (.record h ⟨rfl, rfl, rfl, rfl, rfl, rfl⟩ htext) fun r _ => .pure ?_
  simp only [worker, workerAfter, Option.any_some, htext]
  rfl

/-- What stays late raises only what a task may raise. -/
theorem follows_of_late {α : Type} {q : Relay α} (hq : Stays (worker id) Late q) {p : WorkerPhase}
    (h : p.Late) : Follows (worker id) (post (fun _ p' => p'.Late) Raised) q p :=
  (hq p h).imp (fun _ _ h => h) fun _ _ h => .inl ⟨h.1, h.2.live⟩

/-- Only a poll says that the kernel's status is unavailable. -/
theorem follows_pollKernel (kernelRef : String) {p : WorkerPhase} (h : p.Late) :
    Follows (worker id) (post (fun _ p' => p'.Late) fun e p' =>
      e.cls ≠ .kaggleAdapterInterrupted ∧ p'.Late) (call (.pollKernel kernelRef)) p := by
  refine .op (.poll h) fun r hr => .pure ?_
  rcases r with e | observed
  · have hlegal : World.legal (.call (.pollKernel kernelRef)) (.error e) = true := hr
    simp only [World.legal, World.raised, Bool.and_eq_true, bne_iff_ne] at hlegal
    exact ⟨hlegal.1, h⟩
  · exact h

theorem follows_waitKernel (kernelRef : String) (n : ℕ) {p : WorkerPhase} (h : p.Late) :
    Follows (worker id) (post (fun _ p' => p'.Late) fun e p' =>
      e.cls ≠ .kaggleAdapterInterrupted ∧ p'.Late) (waitKernel s id kernelRef n) p := by
  induction n generalizing p with
  | zero => exact .stuck
  | succ n ih =>
    refine Follows.seq (follows_pollKernel kernelRef h) fun observed p h => ?_
    rcases observed with _ | ⟨output, progress, finished⟩
    · exact ih h
    · rcases progress with _ | ⟨remote, data⟩
      · rcases finished with _ | _ | _
        · exact ih h
        · exact .pure ⟨by rintro ⟨⟩, h⟩
        · exact .pure h
      · refine Follows.seq ((stays_reportProgress remote data p h).imp (fun _ _ h => h)
          fun _ _ h => ⟨h.1.1, h.2⟩) fun _ p h => ?_
        rcases finished with _ | _ | _
        · exact ih h
        · exact .pure ⟨by rintro ⟨⟩, h⟩
        · exact .pure h

theorem follows_kernelWaitFailed {e : Exc} (he : e.cls ≠ .kaggleAdapterInterrupted)
    {p : WorkerPhase} (h : p.Late) :
    Follows (worker id) (post (fun _ _ => False) Raised) (kernelWaitFailed s id e) p := by
  refine Follows.ite (fun hunavailable => ?_) fun hother => .pure (.inl ⟨⟨he, hother⟩, h.live⟩)
  refine Follows.seq (follows_getJob p) ?_
  rintro _ _ ⟨current, rfl, rfl, hreads, -⟩
  refine Follows.ite (fun hterm => ?_) fun hterm => ?_
  · refine .pure (.inr ⟨hunavailable, .inr ?_⟩)
    rcases h with ⟨b, rfl⟩ | rfl <;> exact if_pos hterm
  · rcases h with ⟨b, rfl⟩ | rfl
    · rw [show (WorkerPhase.finishing b).look current =
        .finishing current.cancelRequestedAt.isSome from if_neg hterm]
      exact Follows.seq (follows_record (.inl ⟨_, rfl⟩)) fun _ _ h => .pure (.inr ⟨hunavailable, .inl h⟩)
    · exact absurd hreads hterm

/-- `finish_kernel_job` ends the job, or raises what a task may raise. -/
theorem follows_finishKernelJob (finalStatus : Option Status)
    (hfinal : ∀ status ∈ finalStatus, status.terminal = true) {p : WorkerPhase} (h : p.Late) :
    Follows (worker id) (post (fun _ p' => p' = .ended) Raised) (finishKernelJob s id finalStatus) p := by
  have hP : Tolerates (worker id) Late := tolerates_late
  have hrun : ∀ {running : Status} {values : Job → JobValues} {e : Option String},
      (running = .waitingKernel ∨ running = .downloadingOutput) → (∀ job, (values job).Sets none e) →
      Forgetful e → ∀ {p : WorkerPhase}, p.Late → Follows (worker id)
        (post (fun _ p' => p'.Late) Raised) (updateFinishStatus s id running values 5) p :=
    fun hrunning hv he _ h => follows_of_late (stays_updateFinishStatus hrunning hv he 5) h
  refine Follows.seq (hrun (.inl rfl) (fun _ => by exact ⟨rfl, rfl, rfl, rfl, rfl, rfl⟩) (.inr rfl) h)
    fun current p h => ?_
  refine Follows.seq (follows_of_late (.raiseIf (by exact ⟨nofun, nofun⟩)) h) fun _ p h => ?_
  refine Follows.seq (follows_of_late (.perform hP (o := .turns) rfl) h) fun n p h => ?_
  have hwait : Follows (worker id) (post (fun _ p' => p'.Late) Raised)
      (Eff.tryCatch (waitKernel s id ((current.map (·.kernelRef)).getD "") n)
        (kernelWaitFailed s id)) p :=
    Follows.tryCatch (follows_waitKernel _ n h) fun e p h =>
      (follows_kernelWaitFailed h.1 h.2).imp (fun _ _ h => h.elim) fun _ _ h => h
  refine Follows.seq hwait fun kernelStatus p h => ?_
  refine Follows.seq (follows_of_late stays_getJob_late h) fun current p h => ?_
  refine Follows.seq (follows_of_late (stays_note (e := none) (fun _ h => h.live)
    ⟨rfl, rfl, rfl, rfl, rfl, rfl⟩ (.inl rfl)) h) fun _ p h => ?_
  refine Follows.seq (hrun (.inr rfl) (fun _ => by exact ⟨rfl, rfl, rfl, rfl, rfl, rfl⟩) (.inl rfl) h)
    fun current p h => ?_
  refine Follows.seq (follows_of_late (.call hP (c := .downloadOutput _ _) rfl) h) fun _ p h => ?_
  refine Follows.seq (follows_of_late (.call hP (c := .packageArtifacts _ _) rfl) h) fun _ p h => ?_
  refine Follows.op (.finalize h.live ?_ ⟨rfl, rfl, rfl, rfl, rfl, rfl⟩) fun _ _ => .pure rfl
  rcases finalStatus with _ | status
  · rfl
  · exact hfinal status rfl

theorem follows_resumeKernelJob (finalStatus : Option Status)
    (hfinal : ∀ status ∈ finalStatus, status.terminal = true) {p : WorkerPhase} (h : p.Late) :
    Follows (worker id) (post (fun _ p' => p' = .ended) Raised) (resumeKernelJob s id finalStatus) p := by
  refine Follows.seq (follows_getJob p) ?_
  rintro _ _ ⟨job, rfl, rfl, -, -⟩
  refine Follows.seq (follows_of_late (.call tolerates_late (c := .credentialsFor _) rfl)
    (late_look h job)) fun _ p h => ?_
  exact follows_finishKernelJob finalStatus hfinal h

end Late

/-! ### The handlers -/

section Handlers

variable {s : Settings} {id : JobId} {job : Job}

theorem live_look {p : WorkerPhase} (h : p.Live) (job : Job) : (p.look job).Live := by
  rcases h with h | h | h
  · exact (early_look (.inl h) job).live
  · exact (late_look (.inl h) job).live
  · exact (late_look (.inr h) job).live

/-- A live task that reads the row uploading or waiting has not pushed. -/
theorem look_of_parkable {p : WorkerPhase} (h : p.Live) {job : Job} (hr : p.Reads job.status)
    (hs : job.status = .uploadingDataset ∨ job.status = .waitingDataset) :
    p.look job = .fresh true := by
  rcases h with ⟨b, rfl⟩ | ⟨b, rfl⟩ | rfl
  · rcases hs with hs | hs <;> simp [WorkerPhase.look, hs, Status.terminal]
  · rcases hs with hs | hs <;> simp [WorkerPhase.Reads, hs, Status.submitted] at hr
  · rcases hs with hs | hs <;> simp [WorkerPhase.Reads, hs, Status.terminal] at hr

theorem follows_finalize {E : Exc → WorkerPhase → Prop} {preferred : Status} {values : JobValues}
    (hpref : preferred.terminal = true) (hv : values.Sets none values.error) {p : WorkerPhase}
    (h : p.Live) :
    Follows (worker id) (post (fun _ p' => p' = .ended) E) (finalizeJob id preferred values) p :=
  .op (.finalize h hpref hv) fun _ _ => .pure rfl

theorem follows_failJob {E : Exc → WorkerPhase → Prop} (e : Exc) {p : WorkerPhase} (h : p.Live) :
    Follows (worker id) (post (fun _ p' => p' = .ended) E) (failJob s id job e) p := by
  refine Follows.seq (follows_finalize rfl ?_ h) fun _ _ h => .pure h
  exact ⟨rfl, rfl, rfl, rfl, rfl, rfl⟩

/-- A write of a parked row that says nothing of its status. -/
theorem follows_noteIf_parked {E : Exc → WorkerPhase → Prop} {expected : List Status} {nc : Bool}
    {ek : Option String} {values : JobValues} (hv : values.Sets none none) :
    Follows (worker id) (post (fun _ p' => p' = .parked) E)
      (updateJobIfStatus id expected nc ek values) .parked := by
  refine .op (.noteIf nofun hv) fun r _ => .pure (if_neg ?_)
  rintro ⟨-, heq⟩
  rw [hv.status] at heq
  cases heq

theorem follows_blockRecheck {E : Exc → WorkerPhase → Prop} (reason : String) :
    Follows (worker id) (post (fun _ p' => p' = .parked) E) (blockRecheck id reason) .parked := by
  refine Follows.seq (follows_noteIf_parked ?_) fun _ _ h => .pure h
  exact ⟨rfl, rfl, rfl, rfl, rfl, rfl⟩

theorem follows_scheduleRecheck {E : Exc → WorkerPhase → Prop} (retryAfter : Option ℚ)
    (progress : Bool) :
    Follows (worker id) (post (fun _ p' => p' = .parked) E)
      (scheduleRecheck s id retryAfter none progress) .parked := by
  have hnow : Follows (worker id) (post (fun _ p' => p' = .parked) E) now .parked :=
    .op (.quiet nofun rfl) fun _ _ => .pure rfl
  refine Follows.seq hnow ?_
  rintro t _ rfl
  refine Follows.seq (follows_getJob _) ?_
  rintro _ _ ⟨current, rfl, rfl, -, -⟩
  refine Follows.ite (fun _ => .pure rfl) fun _ => ?_
  refine Follows.seq (follows_noteIf_parked ?_) fun _ _ h => .pure h
  exact ⟨rfl, rfl, rfl, rfl, rfl, rfl⟩

theorem startswith_uploadRetained (e : Exc) :
    Text.startswith (uploadRetained s e) retainedPrefix = true := by
  unfold uploadRetained
  rw [String.append_assoc]
  exact Text.startswith_append _ _

/-- Parking raises nothing. -/
theorem follows_parkJob {E : Exc → WorkerPhase → Prop} (e : Exc) :
    Follows (worker id) (post (fun _ p' => p' = .parked) E) (parkJob s id e) (.fresh true) := by
  have hpark : Follows (worker id) (post (fun _ p' => p' = .parked) E)
      (updateJob id { status := some .waitingDataset, error := some (uploadRetained s e) })
      (.fresh true) :=
    .op (.park ⟨rfl, rfl, rfl, rfl, rfl, rfl⟩ (startswith_uploadRetained e)) fun _ _ => .pure rfl
  refine Follows.seq hpark ?_
  rintro _ _ rfl
  refine Follows.ite (fun _ => ?_) fun _ => ?_
  · exact follows_scheduleRecheck _ _
  · exact follows_blockRecheck _

/-- The generic handler parks the job or ends it. -/
theorem follows_handleFailure (e : Exc) {p : WorkerPhase} (h : p.Live) :
    Follows (worker id) (post (fun _ p' => p'.final = true) fun e p' => e.Ordinary ∧ p'.Live)
      (handleFailure s id job e) p := by
  have hfail : ∀ (current : Job) (p : WorkerPhase), p.Live → Follows (worker id)
      (post (fun _ p' => p'.final = true) fun e p' => e.Ordinary ∧ p'.Live)
      (failJob s id current e) p := fun current p h =>
    (follows_failJob e h).imp (fun _ _ h => by rw [h]; rfl) fun _ _ h => h
  refine Follows.seq (follows_latestJob p) ?_
  rintro current _ ⟨rfl, hreads⟩
  refine Follows.ite (fun hs => ?_) fun _ => hfail _ _ (live_look h current)
  rw [look_of_parkable h hreads (by simpa using hs)]
  have hS : Tolerates (worker id) (· = WorkerPhase.fresh true) :=
    tolerates_worker (by rintro _ rfl; exact nofun)
  refine Follows.seq ((stays_intentForRecovery hS id job.datasetRef _ rfl).imp (fun _ _ h => h) ?_) ?_
  · rintro e p' ⟨he, rfl⟩
    exact ⟨he, .inl ⟨true, rfl⟩⟩
  · rintro intent p' rfl
    refine Follows.ite (fun _ => ?_) fun _ => hfail _ _ (.inl ⟨true, rfl⟩)
    exact (follows_parkJob e).imp (fun _ _ h => by rw [h]; rfl) fun _ _ h => h

theorem follows_handleCanceled (e : Exc) {p : WorkerPhase} (h : p.Live) :
    Follows (worker id) (post (fun _ p' => p'.final = true) fun e p' => e.Ordinary ∧ p'.Live)
      (handleCanceled s id job e) p := by
  have hfinish : ∀ (reason : String) (p : WorkerPhase), p.Live → Follows (worker id)
      (post (fun _ p' => p'.final = true) fun e p' => e.Ordinary ∧ p'.Live)
      (do let _ ← finalizeJob id .canceled { error := some (s.redactSecrets reason) } : Relay Unit) p := by
    intro reason p h
    refine Follows.seq (follows_finalize rfl ?_ h) fun _ _ h => .pure (by rw [h]; rfl)
    exact ⟨rfl, rfl, rfl, rfl, rfl, rfl⟩
  refine Follows.ite (fun _ => hfinish _ _ h) fun _ => ?_
  refine Follows.seq (follows_latestJob p) ?_
  rintro current _ ⟨rfl, -⟩
  exact hfinish _ _ (live_look h current)

/-- The handlers of `process_job` leave a task in a final phase. -/
theorem follows_handleException {e : Exc} {p : WorkerPhase} (h : Raised e p) :
    Follows (worker id) (post (fun _ p' => p'.final = true) fun e p' => e.Ordinary ∧ p'.Live)
      (handleException s id job e) p := by
  unfold handleException
  rcases h with ⟨⟨hinterrupted, hunavailable⟩, hp⟩ | ⟨hunavailable, hp⟩
  · split
    · exact absurd ‹_› hunavailable
    · exact absurd ‹_› hinterrupted
    · exact follows_handleCanceled e hp
    · exact follows_handleFailure e hp
  · rw [hunavailable]
    refine .pure ?_
    rcases hp with rfl | rfl <;> rfl

/-! ### Whole items -/

theorem follows_runJob (retainedCandidateOnly : Bool) {p : WorkerPhase} (h : p.Early) :
    Follows (worker id) (post (fun _ p' => p' = .ended) Raised)
      (runJob s id job retainedCandidateOnly) p := by
  have hP : Tolerates (worker id) Early := tolerates_early
  have hearly : ∀ {α : Type} {q : Relay α} {p : WorkerPhase}, Stays (worker id) Early q → p.Early →
      Follows (worker id) (post (fun _ p' => p'.Early) Raised) q p :=
    fun hq h => (follows_of_early hq h).imp (fun _ _ h => h) fun _ _ h => .inl h
  refine Follows.seq (hearly (.call hP (c := .credentialsFor _) rfl) h) fun username p h => ?_
  refine Follows.seq (hearly (.call hP (c := .validateTrainingRequest _ _) rfl) h) fun _ p h => ?_
  have hlocked : Follows (worker id) (post (fun _ p' => p'.Late) Raised)
      (withDatasetLock job.datasetRef (submitKernel s id job username retainedCandidateOnly)) p := by
    refine Follows.seq (hearly (.call hP (c := .lockDataset _) rfl) h) fun _ p h => ?_
    refine Follows.seq (Follows.attempt (follows_submitKernel username retainedCandidateOnly h)) ?_
    -- the lock is released whatever happened
    have hunlock : ∀ p : WorkerPhase, p.Live → Follows (worker id) (post (fun _ p' => p' = p) Raised)
        (unlockDataset job.datasetRef) p := fun p hp =>
      .op (.quiet (by rcases hp with ⟨b, rfl⟩ | ⟨b, rfl⟩ | rfl <;> exact nofun) rfl)
        fun _ _ => .pure rfl
    rintro (e | a) p' hq
    · refine Follows.seq (hunlock p' hq.2) ?_
      rintro _ _ rfl
      exact .pure (.inl hq)
    · have hq : p' = .finishing false := hq
      refine Follows.seq (hunlock p' (by rw [hq]; exact .inr (.inl ⟨_, rfl⟩))) ?_
      rintro _ _ rfl
      exact .pure (.inl ⟨_, hq⟩)
  exact Follows.seq hlocked fun _ p h => follows_finishKernelJob none nofun h

/-- `process_job` leaves the task in a final phase, or raises to
`mark_worker_exception`. -/
theorem follows_processJob (retainedCandidateOnly : Bool) {p : WorkerPhase} (h : p.Early) :
    Follows (worker id) (post (fun _ p' => p'.final = true) fun e p' => e.Ordinary ∧ p'.Live)
      (processJob s id retainedCandidateOnly) p := by
  refine Follows.seq (follows_getJob p) ?_
  rintro _ _ ⟨job, rfl, rfl, -, -⟩
  refine Follows.tryCatch ((follows_runJob retainedCandidateOnly (early_look h job)).imp ?_
    fun _ _ h => h) fun e p h => follows_handleException h
  rintro _ _ rfl
  rfl

/-- `mark_worker_exception` ends the job, or notes that the end of the kernel
is unknown. -/
theorem follows_markWorkerException {E : Exc → WorkerPhase → Prop} {e : Exc} {p : WorkerPhase}
    (h : Raised e p) :
    Follows (worker id) (post (fun _ p' => p'.final = true) E) (markWorkerException s id e) p := by
  refine Follows.seq (follows_getJob p) ?_
  rintro _ _ ⟨current, rfl, rfl, hreads, -⟩
  refine Follows.ite (fun hterm => .pure ?_) fun hterm => Follows.ite (fun hunavailable => ?_)
    fun hordinary => ?_
  · have hterm : current.status.terminal = true := hterm
    show (p.look current).final = true
    rcases h with ⟨-, ⟨b, rfl⟩ | ⟨b, rfl⟩ | rfl⟩ | ⟨-, rfl | rfl⟩ <;>
      simp [WorkerPhase.look, hterm, WorkerPhase.final]
  · rcases h with ⟨⟨-, hne⟩, -⟩ | ⟨-, rfl | rfl⟩
    · exact absurd hunavailable hne
    · rw [show WorkerPhase.recorded.look current = .rereading from if_neg hterm]
      exact (follows_record (.inr rfl)).imp (fun _ _ h => by rw [h]; rfl) fun _ _ h => h
    · exact absurd hreads hterm
  · rcases h with ⟨-, hlive⟩ | ⟨hunavailable, -⟩
    · refine Follows.seq (follows_finalize rfl ?_ (live_look hlive current)) fun _ _ h =>
        .pure (by rw [h]; rfl)
      exact ⟨rfl, rfl, rfl, rfl, rfl, rfl⟩
    · exact absurd hunavailable hordinary

end Handlers

end Relay

/-- The item asks for a status that ends the job. -/
def QueueAction.Sound (action : QueueAction) : Prop :=
  ∀ status, action = .resumeKernel (some status) → status.terminal = true

/-- The phase a task begins in. -/
def QueueAction.phase (action : QueueAction) : WorkerPhase :=
  if action.isResume then .finishing false else .fresh false

/-- **The worker keeps to its protocol**, and returns in a final phase only. -/
theorem follows_runWorkerItem (s : Settings) (id : JobId) {action : QueueAction}
    (h : action.Sound) :
    Follows (worker id) (fun _ p => p.final = true) (Relay.runWorkerItem s id action)
      action.phase := by
  have hlive : action.phase.Live := by
    unfold QueueAction.phase
    split
    · exact .inr (.inl ⟨_, rfl⟩)
    · exact .inl ⟨_, rfl⟩
  have hitem : Follows (worker id) (post (fun _ p' => p'.final = true) Relay.Raised)
      (Relay.itemOperation s id action) action.phase := by
    have hearly : WorkerPhase.Early (.fresh false) := .inl ⟨_, rfl⟩
    cases action with
    | process =>
      exact (Relay.follows_processJob false hearly).imp (fun _ _ h => h) fun _ _ h => .inl h
    | recheckDataset =>
      exact (Relay.follows_processJob true hearly).imp (fun _ _ h => h) fun _ _ h => .inl h
    | resumeKernel finalStatus =>
      refine (Relay.follows_resumeKernelJob finalStatus ?_ (.inl ⟨_, rfl⟩)).imp ?_ fun _ _ h => h
      · rintro status hs
        exact h status (by rw [Option.mem_def.mp hs])
      · rintro _ _ rfl
        rfl
  have hrun : Follows (worker id) (post (fun _ p' => p'.final = true) fun _ p' => p'.final = true)
      (Relay.runWorkerItem s id action) action.phase := by
    refine Follows.seq (Relay.follows_note (e := none) ⟨rfl, rfl, rfl, rfl, rfl, rfl⟩ (.inl rfl)
      hlive) ?_
    rintro _ _ rfl
    exact Follows.tryCatch hitem fun e p h => Relay.follows_markWorkerException h
  refine hrun.mono ?_
  rintro (e | a) p h <;> exact h

end KaggleRelay

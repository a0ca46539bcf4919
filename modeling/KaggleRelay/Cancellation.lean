/-
Cancellation.

`cancellation_heeded` — while no job is parked over a cancellation that was
stored in the meantime, a stored cancellation stays in the status until the job
is canceled.  `cancellation_driven` — while every cancellation meets a job that
a task still looks after, a cancelled job never waits for nobody.  Neither
condition is met by every run: `cancellation_lost` and `cancellation_stuck`.
-/
import KaggleRelay.Scheduling

namespace KaggleRelay

open Effects Lifecycle

namespace World

variable {s : Settings} {w w' : World} {ph : Phases} {id : JobId}

/-! ### A job that `complete_job` would queue again -/

/-- Some answers lead the program, run by itself, to a state that satisfies
`Q`. -/
inductive CanReach (s : Settings) (Q : World → Prop) {α : Type} : Relay α → World → Prop
  | here {p : Relay α} {w : World} (h : Q w) : CanReach s Q p w
  | step {p p' : Relay α} {w w' : World} {c : Choice} (h : advance s c p w = some (p', w'))
    (hp : CanReach s Q p' w') : CanReach s Q p w

/-- `complete_job`, called now, can put an item for the job in the queue. -/
def CompleteEnqueues (s : Settings) (w : World) (id : JobId) : Prop :=
  CanReach s (fun w' => ∃ item ∈ w'.queue, item.jobId = id) (Relay.completeJob s id true false) w

theorem CanReach.op {Q : World → Prop} {α : Type} {o : RelayOp} {k : o.Res → Relay α} {c : Choice}
    {r : o.Res} (h : perform s c o w = (r, w')) (hlegal : legal o r = true)
    (hk : CanReach s Q (k r) w') : CanReach s Q (.op o k : Relay α) w := by
  refine .step (c := c) ?_ hk
  simp only [advance, h, hlegal, if_true]

theorem CanReach.of_op {Q : World → Prop} {α : Type} {o : RelayOp} {k : o.Res → Relay α}
    (h : CanReach s Q (.op o k : Relay α) w) (hne : ¬Q w) :
    ∃ (c : Choice) (r : o.Res) (w' : World), perform s c o w = (r, w') ∧ CanReach s Q (k r) w' := by
  cases h with
  | here hQ => exact absurd hQ hne
  | @step _ p' _ w' c hadvance hrest =>
    obtain ⟨o', k', r, heq, hperform, -, rfl⟩ := advance_some hadvance
    cases heq
    exact ⟨c, r, w', hperform, hrest⟩

theorem CanReach.of_pure {Q : World → Prop} {α : Type} {a : Except Exc α}
    (h : CanReach s Q (.pure a : Relay α) w) : Q w := by
  cases h with
  | here hQ => exact hQ
  | step hadvance => cases hadvance

/-- An upload that is over does not expire. -/
theorem rejectExpiredUpload_of_other {job : Job} (h : job.status ≠ .receiving) :
    Relay.rejectExpiredUpload s id job =
      (.op RelayOp.now fun _ => .pure (.ok ()) : Prog RelaySig (Except Exc Unit)) := by
  have hexpire : Relay.expireReceivingUpload s id job =
      (.op RelayOp.now fun _ => .pure (.ok "") : Prog RelaySig (Except Exc String)) :=
    congrArg (Prog.op (S := RelaySig) RelayOp.now) (funext fun _ => if_pos (.inl h))
  unfold Relay.rejectExpiredUpload
  rw [hexpire]
  rfl

theorem completeEnqueues_of_unknown {job : Job} (hjob : w.jobs id = some job)
    (hs : job.status = .cancelRequested) (he : unknownError job.error = true)
    (hidle : w.active id = none) : CompleteEnqueues s w id := by
  have hread : perform s succeeds (.getJob id) w = (some job, w) := by
    simp only [perform, hjob]
  have hclock : perform s succeeds .now w = ((1 : ℚ), w) := rfl
  have hresume : ∀ action, perform s succeeds (.resumeIfInactive id { error := some "" } action) w =
      ((), { w.modifyJob id (updateJob (1 : ℚ) { error := some "" }) with
        queue := w.queue ++ [⟨action, id⟩] }) := by
    intro action
    simp only [perform, hidle]
    rfl
  have hcond : job.status ∈ [Status.waitingKernel, .cancelRequested] ∧
      Text.startswith job.error "kernel_status_unknown:" = true := ⟨by rw [hs]; decide, he⟩
  refine CanReach.op hread rfl ?_
  change CanReach s _ (Eff.bind (Relay.rejectExpiredUpload s id job) _) w
  rw [rejectExpiredUpload_of_other (by rw [hs]; rintro ⟨⟩)]
  refine CanReach.op hclock rfl ?_
  change CanReach s _ (ite _ _ _) w
  rw [if_pos hcond]
  exact CanReach.op (hresume _) rfl (.here ⟨_, List.mem_append_right _ List.mem_cons_self, rfl⟩)

/-! ### Runs without a restart -/

theorem not_restarts {good : World → Action → Prop} (hgood : ∀ w a, good w a → a ≠ .crash)
    (h : ReachableWith s good w) {a : Action} (ha : good w a) : ¬(w.side a).restarts := by
  rintro (hcrash | hrecovery)
  · exact hgood w a ha hcrash
  · rw [serving_of_reachableWith hgood h] at hrecovery
    cases hrecovery

/-- **A stored cancellation is kept**, in every run without a restart in which
no job is parked over a cancellation. -/
theorem cancellation_heeded (s : Settings) {w : World}
    (h : ReachableWith s (fun w a => a ≠ .crash ∧ w.ParksUncanceled a) w) (id : JobId) {job : Job}
    (hjob : w.jobs id = some job) (hcanceled : job.cancelRequestedAt.isSome = true) :
    job.status = .cancelRequested ∨ job.status = .canceled := by
  obtain ⟨ph, -, hheeded⟩ := views_of_reachableWith (P := View.Heeded) h nofun
    fun w a v v' hr hgood hv hP hm =>
      heeded_move hv hP (not_restarts (fun _ _ h => h.1) hr hgood) hgood.2 hm
  exact hheeded id _ (view_row hjob) hcanceled

/-- The handler of a lost upload parks the job although a cancellation is stored
after it has read the row. -/
theorem cancellation_lost :
    ¬∀ (s : Settings) (w : World), ReachableWith s (fun _ a => a ≠ .crash) w →
      ∀ id job, w.jobs id = some job → job.cancelRequestedAt.isSome = true →
        job.status = .cancelRequested ∨ job.status = .canceled := by
  intro h
  have hread : ((runIf goesOn trialSettings
      (trialStarted losesUpload 39 ++ trialCanceled ++ [.worker "x" losesUpload]) empty).bind
        (·.jobs "x")).map (fun job => (job.cancelRequestedAt.isSome, job.status)) =
          some (true, .waitingDataset) := by decide +kernel
  obtain ⟨job, hsome, hrow⟩ := Option.map_eq_some_iff.mp hread
  obtain ⟨w, hw, hjob⟩ := Option.bind_eq_some_iff.mp hsome
  have hreach := reachableWith_of_runIf (fun _ _ => ne_crash_of_goesOn) hw .empty
  have hstatus : job.status = .waitingDataset := congrArg Prod.snd hrow
  rcases h trialSettings w hreach "x" job hjob (congrArg Prod.fst hrow) with hs | hs
  · rw [hstatus] at hs
    cases hs
  · rw [hstatus] at hs
    cases hs

/-- Checks that a step parks no cancelled job. -/
def parksUncanceled (w : World) (a : Action) : Bool :=
  goesOn w a && match w.performs a with
    | some (.updateJob id values) =>
      values.status != some .waitingDataset || (w.jobs id).all (·.cancelRequestedAt.isNone)
    | _ => true

theorem parksUncanceled_sound {a : Action} (h : parksUncanceled w a = true) :
    a ≠ .crash ∧ w.ParksUncanceled a := by
  obtain ⟨hgoes, hparks⟩ := Bool.and_eq_true_iff.mp h
  refine ⟨ne_crash_of_goesOn hgoes, fun id values job hp hs hjob => ?_⟩
  simpa [hp, hs, hjob] using hparks

theorem cancellation_heeded_trial :
    ∃ w job, runIf parksUncanceled trialSettings (trialStarted losesUpload 10 ++ trialCanceled) empty =
        some w ∧ w.jobs "x" = some job ∧ (job.status = .cancelRequested ∨ job.status = .canceled) := by
  have hread : ((runIf parksUncanceled trialSettings (trialStarted losesUpload 10 ++ trialCanceled)
      empty).bind (·.jobs "x")).map (·.cancelRequestedAt.isSome) = some true := by decide +kernel
  obtain ⟨job, hsome, hcanceled⟩ := Option.map_eq_some_iff.mp hread
  obtain ⟨w, hw, hjob⟩ := Option.bind_eq_some_iff.mp hsome
  exact ⟨w, job, hw, hjob, cancellation_heeded trialSettings
    (reachableWith_of_runIf (fun _ _ => parksUncanceled_sound) hw .empty) "x" hjob hcanceled⟩

/-- A job has something that can take it to `canceled`: its task, an item, or
`complete_job`. -/
def CancelCanFinish (s : Settings) (w : World) (id : JobId) : Prop :=
  (w.active id).isSome = true ∨ (∃ item ∈ w.queue, item.jobId = id) ∨
    (∃ account, ∃ item ∈ w.pending account, item.jobId = id) ∨ CompleteEnqueues s w id

/-- **A cancellation can finish**, in every run without a restart in which each
cancellation meets a job with a driver. -/
theorem cancellation_driven (s : Settings) {w : World}
    (h : ReachableWith s (fun w a => a ≠ .crash ∧ w.CancelsDriven a) w) (id : JobId) {job : Job}
    (hjob : w.jobs id = some job) (hstatus : job.status = .cancelRequested) :
    CancelCanFinish s w id := by
  obtain ⟨ph, -, hdriven⟩ := views_of_reachableWith (P := View.Driven) h nofun
    fun w a v v' hr hgood hv hP hm =>
      driven_move hv hP (not_restarts (fun _ _ h => h.1) hr hgood) hgood.2 hm
  rcases hactive : w.active id with _ | t
  · rcases hdriven id _ (view_row hjob) hstatus with hdriver | hunknown
    · rcases hasDriver_view.mp hdriver with ⟨t, ht, -⟩ | ⟨-, item, hitem, hid, -⟩
      · rw [hactive] at ht
        cases ht
      · exact .inr (.inl ⟨item, hitem, hid⟩)
    · exact .inr (.inr (.inr (completeEnqueues_of_unknown hjob hstatus hunknown hactive)))
  · refine .inl ?_
    rw [hactive]
    rfl

/-- `complete_job` on a cancelled row without the error of an unknown kernel
status changes nothing. -/
theorem not_completeEnqueues {job : Job} (hjob : w.jobs id = some job)
    (hs : job.status = .cancelRequested) (he : unknownError job.error = false)
    (hqueue : w.queue = []) : ¬CompleteEnqueues s w id := by
  have hother : job.status ≠ .receiving := by
    rw [hs]
    rintro ⟨⟩
  have hwaiting : job.status ≠ .waitingDataset := by
    rw [hs]
    rintro ⟨⟩
  have hempty : ¬∃ item ∈ w.queue, item.jobId = id := by
    rw [hqueue]
    rintro ⟨item, hitem, -⟩
    cases hitem
  have hcond : ¬(job.status ∈ [Status.waitingKernel, .cancelRequested] ∧
      Text.startswith job.error "kernel_status_unknown:" = true) :=
    fun h => absurd (he.symm.trans h.2) (by rintro ⟨⟩)
  have hret : ¬(job.status = .waitingDataset ∧ Text.startswith job.error Relay.retainedPrefix = true) :=
    fun h => hwaiting h.1
  intro h
  obtain ⟨_, _, _, hperform, h⟩ := CanReach.of_op h hempty
  cases hperform
  rw [hjob] at h
  change CanReach s _ (Eff.bind (Relay.rejectExpiredUpload s id job) _) w at h
  rw [rejectExpiredUpload_of_other hother] at h
  obtain ⟨_, _, _, hperform, h⟩ := CanReach.of_op h hempty
  cases hperform
  change CanReach s _ (ite _ _ _) w at h
  rw [if_neg hcond, if_neg hret, if_pos hother] at h
  exact hempty h.of_pure

/-- Nothing can finish the cancellation of a job that is parked: the task has
left, and `complete_job` does not look at the row. -/
theorem cancellation_stuck :
    ¬∀ (s : Settings) (w : World), ReachableWith s (fun _ a => a ≠ .crash) w →
      ∀ id job, w.jobs id = some job → job.status = .cancelRequested → CancelCanFinish s w id := by
  intro h
  have hread : (runIf goesOn trialSettings
      (trialStarted losesUpload 41 ++ .leave "x" :: trialCanceled) empty).map (fun w =>
        (w.ids, ((w.active "x").isNone, w.queue.isEmpty),
          (w.jobs "x").map fun job => (job.status, unknownError job.error))) =
      some (["x"], (true, true), some (.cancelRequested, false)) := by decide +kernel
  obtain ⟨w, hw, hrow⟩ := Option.map_eq_some_iff.mp hread
  simp only [Prod.mk.injEq, Option.isNone_iff_eq_none, List.isEmpty_iff] at hrow
  obtain ⟨hids, ⟨hactive, hqueue⟩, hrow⟩ := hrow
  obtain ⟨job, hjob, hstatus⟩ := Option.map_eq_some_iff.mp hrow
  have hreach : ReachableWith trialSettings (fun _ a => a ≠ .crash) w :=
    reachableWith_of_runIf (fun _ _ => ne_crash_of_goesOn) hw .empty
  rcases h trialSettings w hreach "x" job hjob (congrArg Prod.fst hstatus) with
    htask | ⟨item, hitem, -⟩ | ⟨account, item, hitem, -⟩ | hcomplete
  · rw [hactive] at htask
    cases htask
  · rw [hqueue] at hitem
    cases hitem
  · have hidle : ∀ id ∈ w.ids, w.active id = none := by
      intro id hid
      rw [hids] at hid
      rw [List.mem_singleton.mp hid]
      exact hactive
    rw [pending_of_idle Nat.one_pos hreach.reachable hidle] at hitem
    cases hitem
  · exact not_completeEnqueues hjob (congrArg Prod.fst hstatus) (congrArg Prod.snd hstatus) hqueue
      hcomplete

/-- Checks that a step cancels only jobs with a driver. -/
def cancelsDriven (w : World) (a : Action) : Bool :=
  goesOn w a && match w.performs a with
    | some (.updateJobIfStatus id _ _ _ values) =>
      values.status != some .cancelRequested || (w.active id).any (!·.gaveUp)
    | _ => true

theorem cancelsDriven_sound {a : Action} (h : cancelsDriven w a = true) :
    a ≠ .crash ∧ w.CancelsDriven a := by
  obtain ⟨hgoes, hdriven⟩ := Bool.and_eq_true_iff.mp h
  refine ⟨ne_crash_of_goesOn hgoes, fun id expected nc ek values job hp hs hjob _ _ => .inl ?_⟩
  have hany : (w.active id).any (!·.gaveUp) = true := by simpa [hp, hs] using hdriven
  rcases hactive : w.active id with _ | t
  · rw [hactive] at hany
    cases hany
  · rw [hactive] at hany
    exact ⟨t, rfl, by simpa using hany⟩

theorem cancellation_driven_trial :
    ∃ w, runIf cancelsDriven trialSettings (trialStarted losesUpload 20 ++ trialCanceled) empty =
        some w ∧ CancelCanFinish trialSettings w "x" := by
  have hread : ((runIf cancelsDriven trialSettings (trialStarted losesUpload 20 ++ trialCanceled)
      empty).bind (·.jobs "x")).map (·.status) = some .cancelRequested := by decide +kernel
  obtain ⟨job, hsome, hstatus⟩ := Option.map_eq_some_iff.mp hread
  obtain ⟨w, hw, hjob⟩ := Option.bind_eq_some_iff.mp hsome
  exact ⟨w, hw, cancellation_driven trialSettings
    (reachableWith_of_runIf (fun _ _ => cancelsDriven_sound) hw .empty) "x" hjob hstatus⟩

end World

end KaggleRelay

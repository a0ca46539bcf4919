/-
The invariants of a job's life.

`coupled_move` — every move keeps row and memory in agreement, crashes and
recoveries included; `terminal_move` — a terminal status stays.  The
invariants with side conditions are `heeded_move`, `driven_move`, `served_move`,
`announced_move` and `pushed_move`.
-/
import KaggleRelay.Lifecycle

namespace KaggleRelay

namespace Lifecycle

variable {σ : Side} {v v' : View}

theorem Coupled.fits (h : Coupled v) {d : Driver} {c : Core} (hd : v.driver = some d)
    (hc : v.row = some c) : d.Fits c v.pushes := by
  obtain ⟨c', hc', hf⟩ := h.driver d hd
  rw [hc] at hc'
  cases hc'
  exact hf

theorem sound_move (h : Coupled v) (hm : Move σ v v') : ∀ c, v'.row = some c → c.Sound := by
  cases hm with
  | look | push | accept | discard | pend | leave | flush | learn | crash | serve => exact h.sound
  | delete hl => exact fun _ hc => nomatch hc
  | create hk hs hn => grind -linarith [Core.Sound]
  | @transition _ _ _ _ hd hc hp _ _ _ | commit hd hc hp _ _ | advance hd hc hp _ _ _ _
  | park hd hc hp _ =>
    have hf := h.fits hd hc
    have := h.sound _ hc
    simp only [Driver.Fits, hp] at hf
    grind -linarith [Core.Sound, Core.Forgets]
  | note _ _ hc hc' | finalize _ hc | record _ hc
  | cancel hc | expire hc | assemble hc | unassemble hc | enqueue hc
  | requeue hc | resume hc | report hc | refuse hc | bind hc | recoverEnd _ _ _ hc | recoverQueue _ _ _ hc
  | recoverReserve _ _ _ hc =>
    have := h.sound _ hc
    grind -linarith [Core.Sound, Core.Forgets, Core.finalized, Core.moved, Core.cancelStatus]
  | @reserve c b hc hb =>
    have hs := h.sound _ hc
    have hl := h.lock
    intro c' hc'
    cases hc'
    refine ⟨hs.completed_iff, ?_, hs.canceled, hs.awaiting, hs.queued⟩
    intro ht
    by_contra hne
    rcases hb (by simpa using hne) with hr | ⟨a, ha⟩
    · have := hs.reserves ht
      grind -linarith
    · simp only [View.LockFits, ha] at hl
      grind -linarith

theorem intake_move (h : Coupled v) (hm : Move σ v v') :
    ∀ c, v'.row = some c → c.status.intake = true → v'.Quiet := by
  have hdr : ∀ d, v.driver = some d → ∀ c, v.row = some c → c.status.intake = false := by
    intro d hd c hc
    by_contra hne
    have := h.intake c hc (by simpa using hne)
    grind -linarith [View.Quiet]
  cases hm with
  | look hd _ hc | note hd _ hc | transition hd hc | commit hd hc | push hd | advance hd hc
  | finalize hd hc | park hd hc | record hd hc =>
    have hf := hdr _ hd
    grind -linarith [Core.Forgets, Core.finalized, Core.moved]
  | create hk hs hn =>
    have := (h.unknown hk).1
    exact fun _ _ _ => this
  | crash => exact fun _ _ _ => ⟨rfl, rfl, rfl, rfl⟩
  | accept hd hc | discard | pend hd hc | leave hd | flush | learn | serve _ _ _ hc =>
    have := h.intake
    grind -linarith [View.Quiet, View.Flushes]
  | reserve hc | cancel hc | expire hc | assemble hc | unassemble hc | enqueue hc
  | requeue hc | resume hc | report hc | refuse hc | bind hc | recoverEnd _ _ _ hc
  | recoverQueue _ _ _ hc | recoverReserve _ _ _ hc =>
    have := h.intake _ hc
    have hl := h.lock
    grind -linarith [View.Quiet, Core.moved, Core.cancelStatus, View.LockFits]
  | delete hl => exact fun _ hc => nomatch hc

/-- A task that fits a row still fits it when the job is cancelled. -/
theorem Driver.Fits.cancel {d : Driver} {c : Core} {pushes : ℕ} (hf : d.Fits c pushes)
    (ht : c.status.terminal = false) :
    d.Fits { c.moved c.cancelStatus false false with canceled := true } pushes := by
  revert hf
  cases hp : d.phase <;> simp only [Driver.Fits, hp] <;>
    grind -linarith [Core.moved, Core.cancelStatus]

/-- A task that fits a queued row fits it when the job is refused. -/
theorem Driver.Fits.refuse {d : Driver} {c : Core} {pushes : ℕ} (hf : d.Fits c pushes)
    (hs : c.status = .queued) : d.Fits (c.moved .failed false false) pushes := by
  revert hf
  cases hp : d.phase <;> simp only [Driver.Fits, hp] <;> grind -linarith [Core.moved]

/-- A step that leaves the task alone keeps it in agreement with the row. -/
theorem driver_row (h : Coupled v) {c c' : Core} (hc : v.row = some c) (hrow : v'.row = some c')
    (hdriver : v'.driver = v.driver) (hpushes : v'.pushes = v.pushes)
    (hfit : ∀ d : Driver, d.Fits c v.pushes → d.Fits c' v.pushes) :
    ∀ d, v'.driver = some d → ∃ c, v'.row = some c ∧ d.Fits c v'.pushes := by
  intro d hd
  rw [hdriver] at hd
  refine ⟨c', hrow, ?_⟩
  rw [hpushes]
  exact hfit d (h.fits hd hc)

theorem driver_move (h : Coupled v) (hm : Move σ v v') :
    ∀ d, v'.driver = some d → ∃ c, v'.row = some c ∧ d.Fits c v'.pushes := by
  cases hm with
  | @look c d p r hd hr' hc hp hr =>
    have hf := h.fits hd hc
    intro d' hd'
    cases hd'
    refine ⟨c, hc, ?_⟩
    obtain ⟨p, g, r'⟩ := d
    cases hp <;> grind -linarith [Driver.Fits, WorkerPhase.final]
  | note hd _ hc hc' hp hr =>
    have hf := h.fits hd hc
    intro d hd
    cases hd
    refine ⟨_, rfl, ?_⟩
    grind -linarith [Driver.Fits, WorkerPhase.final, Core.Forgets]
  | transition hd hc hp | commit hd hc hp | advance hd hc hp | park hd hc hp =>
    have hf := h.fits hd hc
    intro d hd
    cases hd
    refine ⟨_, rfl, ?_⟩
    simp only [Driver.Fits, hp] at hf
    grind -linarith [Driver.Fits, Core.Forgets]
  | finalize hd hc | record hd hc =>
    have hf := h.fits hd hc
    intro d hd
    cases hd
    refine ⟨_, rfl, ?_⟩
    grind -linarith [Driver.Fits, Core.finalized, Core.moved]
  | push hd hp =>
    obtain ⟨c, hc, hf⟩ := h.driver _ hd
    intro d hd
    cases hd
    refine ⟨c, hc, ?_⟩
    simp only [Driver.Fits, hp] at hf
    grind -linarith [Driver.Fits]
  | @accept c p process resume hd hc hw hs =>
    intro d hd
    cases hd
    refine ⟨c, hc, ?_⟩
    have hs' := h.sound c hc
    have hn := h.submitted c hc
    have hq := hs'.queued
    rcases hs with ⟨-, hs, rfl⟩ | ⟨-, hs, ht, rfl⟩ <;> grind -linarith [Driver.Fits]
  | discard | learn | serve | flush | pend => exact h.driver
  | leave | crash => exact fun _ hd => nomatch hd
  | create hk hs hn =>
    intro d hd
    have := (h.unknown hk).1.1
    grind -linarith
  | requeue hc hl hs =>
    intro d hd
    refine ⟨_, rfl, ?_⟩
    have hf := h.fits hd hc
    have hlock := h.lock
    revert hf
    rcases hl with hl | hl <;> simp only [View.LockFits, hl] at hlock
    · have := hlock.2 d hd
      cases hp : d.phase <;> simp only [Driver.Fits, hp] <;> grind -linarith [WorkerPhase.early]
    · have := hlock.2 d hd
      cases hp : d.phase <;> simp only [Driver.Fits, hp] <;> grind -linarith [WorkerPhase.late]
  | reserve hc | report hc | resume hc | bind hc =>
    intro d hd
    refine ⟨_, rfl, ?_⟩
    have hf := h.fits hd hc
    revert hf
    cases hp : d.phase <;> simp only [Driver.Fits, hp] <;> grind -linarith
  -- In the intake, and while the service recovers, the job has no task.
  | expire hc hs | assemble hc _ hs | unassemble hc _ hs | enqueue hc _ hs =>
    have hq := (h.intake _ hc ((Status.intake_iff _).2 (by simp only [hs, true_or, or_true]))).1
    intro d hd
    exact nomatch hq.symm.trans hd
  | recoverEnd _ hv | recoverQueue _ hv | recoverReserve _ hv =>
    intro d hd
    exact nomatch hv.1.symm.trans hd
  | cancel hc ht => exact driver_row h hc rfl rfl rfl fun _ hf => hf.cancel ht
  | refuse hc hs => exact driver_row h hc rfl rfl rfl fun _ hf => hf.refuse hs
  | delete hl =>
    have := h.lock
    grind -linarith [View.LockFits]

/-- A worker's step does not spoil what the holder of the lock knows. -/
theorem lockFits_worker (hl : v.LockFits) {d d' : Driver} {c c' : Core} (hd : v.driver = some d)
    (hc : v.row = some c) (hlock : v'.lock = v.lock) (hrow : v'.row = some c')
    (hdriver : v'.driver = some d')
    (hterm : c.status.terminal = true → c'.status.terminal = true)
    (hbeyond : c.status.intake = false → c.status ≠ .queued →
      c'.status.intake = false ∧ c'.status ≠ .queued)
    (hearly : d'.phase.early = true → d.phase.early = true)
    (hlate : d.phase.late = true → d'.phase.late = true) : v'.LockFits := by
  revert hl
  unfold View.LockFits
  rw [hlock]
  cases v.lock <;> simp only <;> grind -linarith [View.Quiet]

/-- What the holder of the lock knows outlives a step that leaves the row, and starts no task. -/
theorem lockFits_items (hl : v.LockFits) (hlock : v'.lock = v.lock) (hrow : v'.row = v.row)
    (hdriver : v'.driver = v.driver ∨ v'.driver = none) (hquiet : v.Quiet → v'.Quiet) :
    v'.LockFits := by
  revert hl
  unfold View.LockFits
  rw [hlock, hrow]
  cases v.lock <;> simp only <;> rcases hdriver with hd | hd <;> grind -linarith

/-- The holder of a lock under which a job is queued knows nothing of the job yet. -/
theorem lock_of_queued (hl : v.LockFits) {c : Core} (hc : v.row = some c)
    (hs : c.status = .queued) : v.lock = .free ∨ v.lock = .running := by
  revert hl
  unfold View.LockFits
  cases v.lock <;> simp only <;> grind -linarith [View.Quiet]

/-- What the holder of the lock learns is so. -/
theorem lockFits_learn (h : Coupled v) {l : LockPhase} (hlearn : Learns v l) :
    ({ v with lock := l } : View).LockFits := by
  have hl := h.lock
  cases hlearn with
  | free | running => trivial
  | receiving hc hs =>
    exact ⟨h.intake _ hc ((Status.intake_iff _).2 (.inl hs)), _, hc, rfl, .inl hs⟩
  | terminal hc hs => exact ⟨_, hc, hs⟩
  | beyond hc hs hq => exact ⟨_, hc, hs, hq⟩
  | unknown hc _ hs => exact ⟨_, hc, by grind -linarith, by grind -linarith⟩
  | retained hc hs hr =>
    refine ⟨⟨_, hc, by rw [hs]; rfl, by rw [hs]; nofun⟩, ?_⟩
    intro d hd
    have hf := h.fits hd hc
    revert hf
    cases hp : d.phase <;> simp only [Driver.Fits, hp] <;> grind -linarith [WorkerPhase.early]
  | idle hlr hd =>
    rw [View.LockFits, hlr] at hl
    refine ⟨hl.1, ?_⟩
    intro d hd'
    exact nomatch hd.symm.trans hd'
  | deleting hlr hd =>
    refine ⟨hd, ?_⟩
    rcases hlr with hlr | ⟨b, hlr⟩
    · rw [View.LockFits, hlr] at hl
      obtain ⟨c, hc, ht⟩ := hl
      exact ⟨c, hc, .inl ht⟩
    · rw [View.LockFits, hlr] at hl
      obtain ⟨hq, c, hc, -, hs⟩ := hl
      exact ⟨c, hc, .inr ⟨hq, hs⟩⟩

/-- A worker that starts does not disturb the holder of the lock. -/
theorem lockFits_accept (hl : v.LockFits) {c : Core} {p : WorkerPhase} {process resume : Bool}
    (hd : v.driver = none) (hc : v.row = some c)
    (hs : (v.process = true ∧ c.status = .queued ∧ p = .fresh false) ∨
      (v.resume = true ∧ c.status.submitted = true ∧ c.status.terminal = false ∧
        p = .finishing false)) :
    ({ v with driver := some ⟨p, false, false⟩, process, resume } : View).LockFits := by
  revert hl
  unfold View.LockFits
  cases v.lock <;> simp only <;> grind -linarith [View.Quiet, WorkerPhase.early, WorkerPhase.late]

/-- A callback's report, or a reservation, does not disturb the holder of the lock. -/
theorem lockFits_row (hl : v.LockFits) {c c' : Core} (hc : v.row = some c)
    (hlock : v'.lock = v.lock) (hrow : v'.row = some c') (hdriver : v'.driver = v.driver)
    (hquiet : v.Quiet → v'.Quiet) (hawaiting : c'.awaiting = c.awaiting)
    (hs : c'.status = c.status ∨ (c.status.terminal = false ∧
      (c'.status = .waitingKernel ∨ c'.status = .cancelRequested))) : v'.LockFits := by
  revert hl
  unfold View.LockFits
  rw [hlock, hrow, hdriver]
  cases v.lock <;> simp only <;> grind -linarith

theorem lock_move (h : Coupled v) (hm : Move σ v v') : v'.LockFits := by
  have hl := h.lock
  cases hm with
  | @look c d p r hd hr' hc hp hr =>
    refine lockFits_worker hl hd hc rfl hc rfl id (fun h h' => ⟨h, h'⟩) ?_ ?_
    · obtain ⟨p, g, r'⟩ := d
      cases hp <;> grind -linarith [WorkerPhase.early]
    · obtain ⟨p, g, r'⟩ := d
      cases hp <;> grind -linarith [WorkerPhase.late]
  | note hd _ hc hc' hp hr =>
    refine lockFits_worker hl hd hc rfl rfl rfl ?_ ?_ id id <;> grind -linarith [Core.Forgets]
  | transition hd hc hp | commit hd hc hp | advance hd hc hp =>
    have hf := h.fits hd hc
    simp only [Driver.Fits, hp] at hf
    refine lockFits_worker hl hd hc rfl rfl rfl ?_ ?_ ?_ ?_ <;>
      grind -linarith [Core.Forgets, WorkerPhase.early, WorkerPhase.late]
  | finalize hd hc hpref hp =>
    refine lockFits_worker hl hd hc rfl rfl rfl ?_ ?_ ?_ ?_ <;>
      grind -linarith [Core.finalized, Core.moved, WorkerPhase.early, WorkerPhase.late]
  | park hd hc hp hside =>
    have hf := h.fits hd hc
    simp only [Driver.Fits, hp] at hf
    refine lockFits_worker hl hd hc rfl rfl rfl ?_ ?_ ?_ ?_ <;>
      grind -linarith [WorkerPhase.early, WorkerPhase.late]
  | record hd hc hp =>
    refine lockFits_worker hl hd hc rfl rfl rfl ?_ ?_ ?_ ?_ <;>
      grind -linarith [WorkerPhase.early, WorkerPhase.late]
  | push hd hp =>
    obtain ⟨c, hc, hf⟩ := h.driver _ hd
    refine lockFits_worker hl hd hc rfl hc rfl id (fun h h' => ⟨h, h'⟩) ?_ ?_ <;>
      grind -linarith [WorkerPhase.early, WorkerPhase.late]
  | accept hd hc hw hs => exact lockFits_accept hl hd hc hs
  | discard hp hr =>
    refine lockFits_items hl rfl rfl (.inl rfl) ?_
    grind -linarith [View.Quiet]
  | leave hd hret hf =>
    refine lockFits_items hl rfl rfl (.inr rfl) ?_
    grind -linarith [View.Quiet]
  | flush hf =>
    refine lockFits_items hl rfl rfl (.inl rfl) ?_
    grind -linarith [View.Quiet, View.Flushes]
  | pend hd hc hs =>
    rcases lock_of_queued hl hc hs with hl | hl <;> rw [View.LockFits, hl] <;> trivial
  | learn hlearn => exact lockFits_learn h hlearn
  | assemble hc hlr hs =>
    exact ⟨h.intake _ hc ((Status.intake_iff _).2 (.inl hs)), _, rfl, by
      rw [View.LockFits, hlr] at hl
      grind -linarith, .inl rfl⟩
  | expire | cancel | unassemble | enqueue | requeue | resume | delete | crash => trivial
  | create hk =>
    rcases (h.unknown hk).2.2.2.2 with hl | hl <;> rw [View.LockFits, hl] <;> trivial
  | recoverEnd _ _ hl | recoverQueue _ _ hl | recoverReserve _ _ hl | serve _ _ hl =>
    rw [View.LockFits, hl]
    trivial
  | reserve hc => exact lockFits_row hl hc rfl rfl rfl id rfl (.inl rfl)
  | report hc ht hw hs =>
    exact lockFits_row hl hc rfl rfl rfl id rfl (.inr ⟨ht, hs.imp id And.left⟩)
  | refuse hc hs | bind hc hs =>
    rcases lock_of_queued hl hc hs with hl | hl <;> rw [View.LockFits, hl] <;> trivial

theorem pushes_move (h : Coupled v) (hm : Move σ v v') : v'.pushes ≤ 1 := by
  have := h.pushes
  cases hm with
  | push hd hp =>
    obtain ⟨c, hc, hf⟩ := h.driver _ hd
    simp only [Driver.Fits, hp] at hf
    grind -linarith
  | _ => exact this

theorem submitted_move (h : Coupled v) (hm : Move σ v v') :
    ∀ c, v'.row = some c → v'.pushes ≠ 0 → c.status.submitted = true := by
  cases hm with
  | look | accept | discard | pend | leave | flush | learn | crash | serve => exact h.submitted
  | push hd hp =>
    obtain ⟨c, hc, hf⟩ := h.driver _ hd
    simp only [Driver.Fits, hp] at hf
    grind -linarith
  | transition hd hc hp | commit hd hc hp | advance hd hc hp | park hd hc hp =>
    have hf := h.fits hd hc
    simp only [Driver.Fits, hp] at hf
    grind -linarith [Core.Forgets]
  | delete => exact fun _ hc => nomatch hc
  | create hk =>
    have := (h.unknown hk).2.2.2.1
    grind -linarith
  | note _ _ hc | finalize _ hc | record _ hc | reserve hc | cancel hc | expire hc | assemble hc
  | unassemble hc | enqueue hc | requeue hc | resume hc | report hc | refuse hc | bind hc
  | recoverEnd _ _ _ hc | recoverQueue _ _ _ hc | recoverReserve _ _ _ hc =>
    have := h.submitted _ hc
    grind -linarith [Core.Forgets, Core.finalized, Core.moved, Core.cancelStatus]

theorem unknown_move (h : Coupled v) (hm : Move σ v v') : v'.known = false →
    v'.Quiet ∧ v'.row = none ∧ v'.committed = false ∧ v'.pushes = 0 ∧
      (v'.lock = .free ∨ v'.lock = .running) := by
  intro hk
  cases hm with
  | create => exact nomatch hk
  | crash =>
    obtain ⟨hq, hr, hn, hp, hl⟩ := h.unknown hk
    exact ⟨⟨rfl, rfl, rfl, rfl⟩, hr, hn, hp, .inl rfl⟩
  | learn hlearn =>
    obtain ⟨hq, hr, hn, hp, hl⟩ := h.unknown hk
    refine ⟨hq, hr, hn, hp, ?_⟩
    cases hlearn <;> grind -linarith
  | _ =>
    obtain ⟨hq, hr, hn, hp, hl⟩ := h.unknown hk
    grind -linarith [View.Quiet, View.Flushes, Driver.Fits]

theorem committed_move (h : Coupled v) (hm : Move σ v v') :
    (v'.pushes ≠ 0 ∨ ∃ d, v'.driver = some d ∧ d.phase = .committed) → v'.committed = true := by
  have hn := h.committed
  cases hm with
  | commit => exact fun _ => rfl
  | @look c d p r hd hr hc hp hret =>
    obtain ⟨p, g, r'⟩ := d
    cases hp <;> grind -linarith
  | _ => grind -linarith

theorem coupled_move (h : Coupled v) (hm : Move σ v v') : Coupled v' :=
  ⟨sound_move h hm, intake_move h hm, driver_move h hm, lock_move h hm, pushes_move h hm,
    committed_move h hm, submitted_move h hm, unknown_move h hm⟩

theorem heeded_move (h : Coupled v) (hh : v.Heeded) (hr : ¬σ.restarts) (hs : σ.parks)
    (hm : Move σ v v') : v'.Heeded := by
  cases hm with
  | look | accept | discard | pend | leave | flush | learn | push => exact hh
  | delete => exact fun _ hc => nomatch hc
  | create hk hs hn => grind -linarith [View.Heeded]
  | crash hside | recoverEnd hside | recoverQueue hside | recoverReserve hside | serve hside =>
    exact absurd hside hr
  | park hd hc hp hside =>
    have := hside hs
    grind -linarith [View.Heeded]
  | transition hd hc | commit hd hc | advance hd hc | note _ _ hc | finalize _ hc | record _ hc | reserve hc | cancel hc | expire hc | assemble hc
  | unassemble hc | enqueue hc | requeue hc | resume hc | report hc | refuse hc | bind hc =>
    have := hh _ hc
    have := (h.sound _ hc).canceled
    grind -linarith [View.Heeded, Core.Forgets, Core.finalized, Core.moved, Core.cancelStatus]

theorem driven_move (h : Coupled v) (hh : v.Driven) (hr : ¬σ.restarts) (hs : σ.cancels)
    (hm : Move σ v v') : v'.Driven := by
  have hdrv := h.driver
  cases hm with
  | crash hside | recoverEnd hside | recoverQueue hside | recoverReserve hside | serve hside =>
    exact absurd hside hr
  | learn => exact hh
  | delete => exact fun _ hc => nomatch hc
  | create hk hs hn => grind -linarith [View.Driven]
  | push hd hp => grind -linarith [View.Driven, View.HasDriver]
  | look hd hr' hc | note hd _ hc | transition hd hc | commit hd hc | advance hd hc | finalize hd hc
  | record hd hc | park hd hc =>
    have := hh _ hc
    have hf := h.fits hd hc
    grind -linarith [View.Driven, View.HasDriver, Core.Forgets, Core.finalized, Core.moved, Driver.Fits]
  | @leave d process pending hd hret hfl =>
    obtain ⟨c, hc, hf⟩ := h.driver _ hd
    have := hh _ hc
    intro c' hc' hst
    revert hf
    cases hp : d.phase <;> simp only [Driver.Fits, hp] <;> grind -linarith [View.HasDriver, View.Flushes]
  | accept hd hc | discard | pend hd hc | flush hfl =>
    have haw := fun c hc => (h.sound c hc).awaiting
    grind -linarith [View.Driven, View.HasDriver]
  | reserve hc | cancel hc | expire hc | assemble hc
  | unassemble hc | enqueue hc | requeue hc | resume hc | report hc | refuse hc | bind hc =>
    have := hh _ hc
    grind -linarith [View.Driven, View.HasDriver, Core.moved, Core.cancelStatus]

theorem served_move (h : Coupled v) (hh : v.Served) (hr : ¬σ.restarts) (hs : σ.requeues)
    (hm : Move σ v v') : v'.Served := by
  have hdrv := h.driver
  cases hm with
  | crash hside | recoverEnd hside | recoverQueue hside | recoverReserve hside | serve hside =>
    exact absurd hside hr
  | learn => exact hh
  | delete => exact fun _ hc => nomatch hc
  | create hk hs hn => grind -linarith [View.Served]
  | push hd hp => grind -linarith [View.Served]
  | look hd hr' hc | note hd _ hc | transition hd hc | commit hd hc | advance hd hc | finalize hd hc
  | record hd hc | park hd hc =>
    have := hh _ hc
    have hf := h.fits hd hc
    grind -linarith [View.Served, Core.Forgets, Core.finalized, Core.moved, Driver.Fits]
  | @leave d process pending hd hret hfl =>
    obtain ⟨c, hc, hf⟩ := h.driver _ hd
    have := hh _ hc
    intro c' hc' hst
    revert hf
    cases hp : d.phase <;> simp only [Driver.Fits, hp] <;> grind -linarith
  | accept hd hc | discard | pend hd hc | flush hfl =>
    have haw := fun c hc => (h.sound c hc).awaiting
    grind -linarith [View.Served, View.Flushes]
  | reserve hc | cancel hc | expire hc | assemble hc
  | unassemble hc | enqueue hc | requeue hc | resume hc | report hc | refuse hc =>
    have := hh _ hc
    have := h.lock
    grind -linarith [View.Served, Core.moved, Core.cancelStatus, View.LockFits, View.Quiet]
  | bind hc =>
    have := hh _ hc
    intro c' hc' hst haw
    refine ⟨fun d hd => ?_, fun _ => .inl rfl⟩
    have hf := h.fits hd hc
    revert hf
    cases hp : d.phase <;> simp only [Driver.Fits, hp] <;> grind -linarith

theorem announced_move (h : Coupled v) (hh : v.Announced) (hs : σ.reports) (hm : Move σ v v') :
    v'.Announced := by
  cases hm with
  | look | push | accept | discard | pend | leave | flush | learn | crash | serve => exact hh
  | delete => exact fun _ hc => nomatch hc
  | commit => exact fun _ _ _ _ => rfl
  | create hk hs => grind -linarith [View.Announced]
  | transition hd hc hp | advance hd hc hp | park hd hc hp =>
    have := hh _ hc
    have hf := h.fits hd hc
    simp only [Driver.Fits, hp] at hf
    grind -linarith [View.Announced, Core.Forgets]
  | note _ _ hc | finalize _ hc | record _ hc | reserve hc | cancel hc | expire hc | assemble hc
  | unassemble hc | enqueue hc | requeue hc | resume hc | refuse hc | bind hc
  | recoverEnd _ _ _ hc | recoverQueue _ _ _ hc | recoverReserve _ _ _ hc =>
    have := hh _ hc
    grind -linarith [View.Announced, Core.Forgets, Core.finalized, Core.moved, Core.cancelStatus]
  | report hc ht hw hst hk hside hside' =>
    have := hh _ hc
    have := hside' hs
    grind -linarith [View.Announced]

/-- A terminal status stays. -/
theorem terminal_move (h : Coupled v) (hm : Move σ v v') {c c' : Core} (hc : v.row = some c)
    (hc' : v'.row = some c') (ht : c.status.terminal = true) : c'.status = c.status := by
  cases hm with
  | look | push | accept | discard | pend | leave | flush | learn | crash | serve =>
    rw [hc] at hc'
    cases hc'
    rfl
  | delete => exact nomatch hc'
  | create hk =>
    rw [(h.unknown hk).2.1] at hc
    exact nomatch hc
  | transition hd hc1 hp | commit hd hc1 hp | advance hd hc1 hp | park hd hc1 hp =>
    have hf := h.fits hd hc1
    simp only [Driver.Fits, hp] at hf
    grind -linarith
  | note _ _ hc | finalize _ hc | record _ hc | reserve hc | cancel hc | expire hc | assemble hc
  | unassemble hc | enqueue hc | requeue hc | resume hc | report hc | refuse hc | bind hc
  | recoverEnd _ _ _ hc | recoverQueue _ _ _ hc | recoverReserve _ _ _ hc =>
    grind -linarith [Core.Forgets, Core.finalized]

/-- What no move takes back from a job that exists. -/
theorem kept_move {v v' : View} (hm : Move σ v v') (hknown : v.known = true) :
    v'.known = true ∧ ∀ c', v'.row = some c' → ∃ c, v.row = some c ∧ c'.dynamic = c.dynamic ∧
      (c.awaiting = false → c'.awaiting = false) ∧ (c.canceled = true → c'.canceled = true) := by
  cases hm with
  | note _ _ hc hc' | advance _ hc _ _ hc' =>
    obtain ⟨_, _, rfl, -⟩ := hc'
    refine ⟨hknown, fun c' h => ?_⟩
    cases h
    exact ⟨_, hc, rfl, id, id⟩
  | transition _ hc | commit _ hc | park _ hc | record _ hc | reserve hc | expire hc | assemble hc
  | unassemble hc | enqueue hc | requeue hc | resume hc | report hc | refuse hc | recoverEnd _ _ _ hc
  | recoverQueue _ _ _ hc | recoverReserve _ _ _ hc =>
    refine ⟨hknown, fun c' h => ?_⟩
    cases h
    exact ⟨_, hc, rfl, id, id⟩
  | finalize _ hc =>
    refine ⟨hknown, fun c' h => ?_⟩
    cases h
    refine ⟨_, hc, ?_⟩
    unfold Core.finalized
    split <;> exact ⟨rfl, id, id⟩
  | cancel hc =>
    refine ⟨hknown, fun c' h => ?_⟩
    cases h
    exact ⟨_, hc, rfl, id, fun _ => rfl⟩
  | bind hc =>
    refine ⟨hknown, fun c' h => ?_⟩
    cases h
    exact ⟨_, hc, rfl, fun _ => rfl, id⟩
  | delete => exact ⟨hknown, nofun⟩
  | create hk =>
    rw [hknown] at hk
    cases hk
  | look | push | accept | discard | pend | leave | flush | learn | crash | serve =>
    exact ⟨hknown, fun c' h => ⟨c', h, rfl, id, id⟩⟩

/-! ### Kernels that have been pushed -/

/-- A job that is settled stays so. -/
theorem settles_move (h : Coupled v) (hm : Move σ v v') {c c' : Core} (hc : v.row = some c)
    (hc' : v'.row = some c') (hset : v.Settles c) : v'.Settles c' := by
  rcases hset with hp | ht | ⟨hs, hlate⟩
  · refine .inl ?_
    cases hm with
    | push => exact Nat.succ_ne_zero _
    | _ => exact hp
  · refine .inr (.inl ?_)
    rw [terminal_move h hm hc hc' ht]
    exact ht
  · cases hm with
    | discard | pend | flush | learn | serve =>
      rw [hc] at hc'
      cases hc'
      exact .inr (.inr ⟨hs, hlate⟩)
    | push hd hp => exact .inl (Nat.succ_ne_zero _)
    | @look c₁ d p r hd hr hc1 hp hret =>
      have hd' := hlate _ hd
      obtain ⟨p, g, r'⟩ := d
      cases hp <;> grind -linarith [View.Settles, WorkerPhase.late]
    | note hd _ hc1 hc2 | transition hd hc1 | commit hd hc1 | advance hd hc1 | finalize hd hc1
    | park hd hc1 | record hd hc1 =>
      have := hlate _ hd
      grind -linarith [View.Settles, WorkerPhase.late, Core.Forgets, Core.finalized, Core.moved]
    | accept hd hc1 hw hst => grind -linarith [View.Settles, WorkerPhase.late]
    | leave | crash =>
      rw [hc] at hc'
      cases hc'
      exact .inr (.inr ⟨hs, nofun⟩)
    | delete => exact nomatch hc'
    | create hk =>
      rw [(h.unknown hk).2.1] at hc
      exact nomatch hc
    | reserve hc1 | cancel hc1 | expire hc1 | assemble hc1 | unassemble hc1 | enqueue hc1
    | requeue hc1 | resume hc1 | report hc1 | refuse hc1 | bind hc1 | recoverEnd _ _ _ hc1
    | recoverQueue _ _ _ hc1 | recoverReserve _ _ _ hc1 =>
      grind -linarith [View.Settles, Core.moved]

section Waits

variable {c c' : Core} (h : Coupled v) (hm : Move σ v v') (hc : v.row = some c)
  (hc' : v'.row = some c') (hw : v.Waits c)
include h hm hc hc' hw

/-- A row says that the kernel runs only once it is pushed. -/
theorem running_move (hs : σ.pushed) (hd : c.dynamic = true)
    (hrun : c'.status = .waitingKernel ∨ c'.status = .downloadingOutput) : v'.pushes ≠ 0 := by
  have hold := hw.running
  cases hm with
  | push => exact Nat.succ_ne_zero _
  | look | accept | discard | pend | leave | flush | learn | crash | serve =>
    rw [hc] at hc'
    cases hc'
    exact hold hrun
  | delete => exact nomatch hc'
  | create hk =>
    rw [(h.unknown hk).2.1] at hc
    exact nomatch hc
  | @advance c₁ _ d b _ hd1 hc1 hp ht hc2 hst hk =>
    -- a task that waits for a kernel has found it settled
    have hset := hw.driver d hd1 (by rw [hp]; rfl)
    rcases hset with hpushes | ht' | ⟨hcancel, -⟩
    · exact hpushes
    · grind -linarith
    · grind -linarith [Core.Forgets]
  | note _ _ hc1 | transition _ hc1 | commit _ hc1 | finalize _ hc1 | park _ hc1 | record _ hc1
  | reserve hc1 | cancel hc1 | expire hc1 | assemble hc1 | unassemble hc1 | enqueue hc1
  | requeue hc1 | resume hc1 | refuse hc1 | bind hc1 | recoverEnd _ _ _ hc1
  | recoverQueue _ _ _ hc1 | recoverReserve _ _ _ hc1 =>
    grind -linarith [Core.Forgets, Core.finalized, Core.moved, Core.cancelStatus]
  | report hc1 ht hwait hst hk hside hside' hpushed =>
    have := hpushed hs
    grind -linarith

/-- A task that is past the push has found the job settled. -/
theorem late_move {d : Driver} (hd : v'.driver = some d) (hlate : d.phase.late = true) :
    v'.Settles c' := by
  have hset : v.Settles c → v'.Settles c' := settles_move h hm hc hc'
  have hold := hw.driver
  cases hm with
  | push => exact .inl (Nat.succ_ne_zero _)
  | @look c₁ d₁ p r hd1 hr hc1 hp hret =>
    obtain ⟨p₁, g, r'⟩ := d₁
    cases hp with
    | ended hne ht =>
      rw [hc] at hc' hc1
      cases hc'
      cases hc1
      exact .inr (.inl ht)
    | _ => exact hset (hold _ hd1 (by grind -linarith [WorkerPhase.late]))
  | accept hd1 hc1 hwait hst =>
    refine hset ?_
    have := hw.resume
    grind -linarith [WorkerPhase.late]
  | note hd1 _ hc1 hc2 hp =>
    cases hd
    exact hset (hold _ hd1 hlate)
  | advance hd1 hc1 hp | record hd1 hc1 hp =>
    exact hset (hold _ hd1 (by grind -linarith [WorkerPhase.late]))
  | finalize hd1 hc1 hpref hp =>
    refine .inr (.inl ?_)
    grind -linarith [Core.finalized, Core.moved]
  | transition | commit | park =>
    cases hd
    cases hlate
  | leave | crash => cases hd
  | _ => exact hset (hold _ hd hlate)

/-- What is going to wait for the kernel has found the job settled. -/
theorem resume_move (hprobes : σ.probes) (hd : c.dynamic = true) (hr : v'.resume = true) :
    v'.Settles c' := by
  have hset : v.Settles c → v'.Settles c' := settles_move h hm hc hc'
  have hold := hw.resume
  cases hm with
  | resume hc1 hl hd1 => exact hset (hw.lock hl)
  | accept _ _ _ _ _ hresume | discard _ hresume => exact hset (hold (hresume hr))
  | crash => cases hr
  | serve hside hq hl hc1 hs hresume hprobe =>
    refine hset ?_
    have := hprobe hprobes hr
    have := hresume hr
    have := hw.running
    have := hq.1
    grind -linarith [View.Settles]
  | _ => exact hset (hold hr)

/-- Only a task that has waited for the kernel says that its status is unknown. -/
theorem noted_move (hs : σ.pushed) (hd : c.dynamic = true) (hu : c'.unknown = true)
    (hi : c'.status.intake = false) : v'.Settles c' := by
  have hset : v.Settles c → v'.Settles c' := settles_move h hm hc hc'
  have hold := hw.unknown
  by_cases hbefore : c.unknown = true ∧ c.status.intake = false
  · exact hset (hold hbefore.1 hbefore.2)
  · cases hm with
    | record hd1 hc1 hp => exact hset (hw.driver _ hd1 (by grind -linarith [WorkerPhase.late]))
    | look | push | accept | discard | pend | leave | flush | learn | crash | serve =>
      rw [hc] at hc'
      cases hc'
      exact absurd ⟨hu, hi⟩ hbefore
    | delete => exact nomatch hc'
    | create hk =>
      rw [(h.unknown hk).2.1] at hc
      exact nomatch hc
    | note hd1 _ hc1 | transition hd1 hc1 | commit hd1 hc1 | advance hd1 hc1 | finalize hd1 hc1
    | park hd1 hc1 =>
      have hq := h.intake _ hc
      grind -linarith [View.Quiet, View.Settles, Core.Forgets, Core.finalized, Core.moved]
    | report hc1 ht hwait hst hk hside hside' hpushed =>
      have hq := h.intake _ hc
      have := hpushed hs
      grind -linarith [View.Quiet, View.Settles]
    | reserve hc1 | cancel hc1 | expire hc1 | assemble hc1 | unassemble hc1 | enqueue hc1
    | requeue hc1 | resume hc1 | refuse hc1 | bind hc1 | recoverEnd _ _ _ hc1
    | recoverQueue _ _ _ hc1 | recoverReserve _ _ _ hc1 =>
      grind -linarith [View.Settles, Core.moved, Core.cancelStatus]

theorem holder_move (hl : v'.lock = .unknown) : v'.Settles c' := by
  have hset : v.Settles c → v'.Settles c' := settles_move h hm hc hc'
  have hold := hw.lock
  cases hm with
  | learn hlearn =>
    cases hlearn with
    | unknown hc1 hu hs =>
      refine hset (hw.unknown ?_ ?_) <;> grind -linarith
    | _ => cases hl
  | cancel | expire | assemble | unassemble | enqueue | requeue | resume | delete | crash => cases hl
  | _ => exact hset (hold hl)

end Waits

/-- **Nothing waits for a kernel that has not been pushed.** -/
theorem pushed_move (h : Coupled v) (hh : v.Pushed) (hs : σ.pushed) (hprobes : σ.probes)
    (hm : Move σ v v') : v'.Pushed := by
  intro c' hc' hd'
  by_cases hknown : v.known = true
  · obtain ⟨c, hc, hdynamic, -⟩ := (kept_move hm hknown).2 c' hc'
    have hd : c.dynamic = true := hdynamic.symm.trans hd'
    have hw := hh c hc hd
    exact ⟨running_move h hm hc hc' hw hs hd, fun _ => late_move h hm hc hc' hw,
      resume_move h hm hc hc' hw hprobes hd, noted_move h hm hc hc' hw hs hd,
      holder_move h hm hc hc' hw⟩
  · -- a job that is created has nothing in memory
    have hk : v.known = false := by simpa using hknown
    obtain ⟨⟨hdriver, -, hresume, -⟩, hrow, -, -, hlock⟩ := h.unknown hk
    cases hm with
    | create _ hst =>
      cases hc'
      refine ⟨?_, ?_, ?_, ?_, ?_⟩ <;> grind -linarith
    | _ => grind -linarith [View.Quiet]

end Lifecycle

end KaggleRelay

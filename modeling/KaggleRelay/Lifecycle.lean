/-
The life of one job, abstractly.

A `View` is what the parts of the relay have to know of each other about one
job: what its row says, how far its worker task and the holder of its lock
are, and which items wait for it.  `Move` lists everything that can happen to a
view.  `Coupled` is the invariant that ties row and memory together.  Over moves
that meet the side conditions of `Side` there are five more: `Heeded` (a
cancellation is never overwritten), `Driven` (a cancellation can finish),
`Served` (a queued job is not stranded), `Announced` (no callback gets ahead of
the submission) and `Pushed` (none gets ahead of the push).
-/
import KaggleRelay.JobRow

namespace KaggleRelay

/-- The statuses of a job whose kernel may have been pushed. -/
def Status.submitted : Status → Bool
  | .pushingKernel | .waitingKernel | .downloadingOutput | .cancelRequested
  | .complete | .failed | .canceled => true
  | _ => false

/-- The statuses in which a job still receives its archives. -/
def Status.intake : Status → Bool
  | .receiving | .assembling => true
  | _ => false

@[grind =] theorem Status.terminal_iff (s : Status) :
    s.terminal = true ↔ s = .complete ∨ s = .failed ∨ s = .canceled := by
  cases s <;> decide

@[grind =] theorem Status.intake_iff (s : Status) :
    s.intake = true ↔ s = .receiving ∨ s = .assembling := by
  cases s <;> decide

@[grind =] theorem Status.submitted_iff (s : Status) :
    s.submitted = true ↔ s = .pushingKernel ∨ s = .waitingKernel ∨ s = .downloadingOutput ∨
      s = .cancelRequested ∨ s = .complete ∨ s = .failed ∨ s = .canceled := by
  cases s <;> decide

namespace Lifecycle

/-! ### Views -/

/-- What a row says. -/
structure Core where
  status : Status
  /-- `cancel_requested_at` is set. -/
  canceled : Bool
  /-- `completed_at` is set. -/
  completed : Bool
  /-- `reserved_bytes` is not zero. -/
  reserves : Bool
  /-- The error says that an upload is retained. -/
  retained : Bool
  /-- The error says that the kernel's status is unknown. -/
  unknown : Bool
  awaiting : Bool
  /-- The job is scheduled dynamically. -/
  dynamic : Bool
  deriving DecidableEq

/-- How far a worker task is. -/
inductive WorkerPhase where
  /-- Before the transition to `pushing_kernel`; `seen`: it has read the row
  uploading or waiting. -/
  | fresh (seen : Bool)
  | parked
  /-- Between the transition to `pushing_kernel` and the push. -/
  | committed
  /-- After the push; `canceled`: it has read the row with a cancellation. -/
  | finishing (canceled : Bool)
  /-- It has noted that the kernel's status is unknown. -/
  | recorded
  /-- It has read the row after that. -/
  | rereading
  /-- It has ended the job, or read that the job has ended. -/
  | ended
  deriving DecidableEq

/-- The phases in which a task may return. -/
def WorkerPhase.final : WorkerPhase → Bool
  | .parked | .recorded | .ended => true
  | _ => false

/-- The task has not pushed the kernel and still may. -/
def WorkerPhase.early : WorkerPhase → Bool
  | .fresh _ | .committed => true
  | _ => false

/-- The kernel is pushed, or the job has ended. -/
def WorkerPhase.late : WorkerPhase → Bool
  | .finishing _ | .recorded | .rereading | .ended => true
  | _ => false

structure Driver where
  phase : WorkerPhase
  gaveUp : Bool
  returned : Bool
  deriving DecidableEq

/-- What the holder of a job's lock has found out about the row. -/
inductive LockPhase where
  | free
  | running
  | receiving (awaiting : Bool)
  | terminal
  /-- The row is neither in the intake nor queued. -/
  | beyond
  /-- The row says that the kernel's status is unknown. -/
  | unknown
  /-- The row is parked with its upload. -/
  | retained
  /-- The row is parked with its upload and had no worker. -/
  | idle
  | assembling (awaiting : Bool)
  /-- The row may be deleted and has no worker. -/
  | deleting
  deriving DecidableEq

structure View where
  /-- The id has been given to a job. -/
  known : Bool
  row : Option Core
  driver : Option Driver
  lock : LockPhase
  /-- An item in the queue that runs or rechecks the job. -/
  process : Bool
  /-- An item in the queue that resumes the kernel. -/
  resume : Bool
  /-- An item that waits for its account. -/
  pending : Bool
  /-- The row has moved to `pushing_kernel`. -/
  committed : Bool
  pushes : ℕ
  deriving DecidableEq

/-- Nothing waits for the job. -/
def View.Quiet (v : View) : Prop :=
  v.driver = none ∧ v.process = false ∧ v.resume = false ∧ v.pending = false

/-- A task that will still look after the job, or an item that starts one. -/
def View.HasDriver (v : View) : Prop :=
  (∃ d, v.driver = some d ∧ d.gaveUp = false) ∨ (v.driver = none ∧ v.resume = true)

/-- Some of the items that wait for an account go to the queue. -/
structure View.Flushes (v : View) (process pending : Bool) : Prop where
  queued : v.process = true → process = true
  moved : v.pending = true → pending = true ∨ process = true
  waiting : pending = true → v.pending = true
  origin : process = true → v.process = true ∨ v.pending = true

/-! ### Changes of a row -/

namespace Core

/-- The row says something else about its error, or nothing any more. -/
def Forgets (c c' : Core) : Prop :=
  ∃ retained unknown, c' = { c with retained, unknown } ∧
    (retained = true → c.retained = true) ∧ (unknown = true → c.unknown = true)

/-- The row in a status, sealed if this status is terminal. -/
def moved (c : Core) (status : Status) (retained unknown : Bool) : Core :=
  { c with
    status, retained, unknown
    completed := c.completed || status.terminal
    reserves := c.reserves && !status.terminal }

/-- `finalize_job`. -/
def finalized (c : Core) (preferred : Status) (retained unknown : Bool) : Core :=
  if c.status.terminal then c
  else c.moved (if c.canceled || c.status == .cancelRequested then .canceled else preferred)
    retained unknown

/-- `request_job_cancel`. -/
def cancelStatus (c : Core) : Status :=
  if c.status.intake || c.status == .queued then .canceled else .cancelRequested

end Core

/-- What a task learns by reading the row. -/
inductive Looks (c : Core) : WorkerPhase → WorkerPhase → Prop
  | same {p : WorkerPhase} (h : p ≠ .recorded) : Looks c p p
  | seen {b : Bool} (h : c.status = .uploadingDataset ∨ c.status = .waitingDataset) :
    Looks c (.fresh b) (.fresh true)
  | canceled {b : Bool} : Looks c (.finishing b) (.finishing c.canceled)
  | ended {p : WorkerPhase} (hp : p ≠ .parked) (h : c.status.terminal = true) : Looks c p .ended
  | rereads (h : c.status.terminal = false) : Looks c .recorded .rereading

/-- What the holder of the lock learns. -/
inductive Learns (v : View) : LockPhase → Prop
  | free : Learns v .free
  | running : Learns v .running
  | receiving {c : Core} (hc : v.row = some c) (h : c.status = .receiving) :
    Learns v (.receiving c.awaiting)
  | terminal {c : Core} (hc : v.row = some c) (h : c.status.terminal = true) : Learns v .terminal
  | beyond {c : Core} (hc : v.row = some c) (h : c.status.intake = false) (hq : c.status ≠ .queued) :
    Learns v .beyond
  | unknown {c : Core} (hc : v.row = some c) (hu : c.unknown = true)
    (h : c.status = .waitingKernel ∨ c.status = .cancelRequested) : Learns v .unknown
  | retained {c : Core} (hc : v.row = some c) (h : c.status = .waitingDataset)
    (hr : c.retained = true) : Learns v .retained
  | idle (h : v.lock = .retained) (hd : v.driver = none) : Learns v .idle
  | deleting (h : v.lock = .terminal ∨ ∃ b, v.lock = .receiving b) (hd : v.driver = none) :
    Learns v .deleting

/-! ### Moves -/

/-- What is assumed of a run: whether it has restarts, and what the writes meet
that this development has to do with. -/
structure Side where
  restarts : Prop
  /-- A job is parked only while it is not cancelled. -/
  parks : Prop
  /-- A job becomes `cancel_requested` only while it has a driver. -/
  cancels : Prop
  /-- A parked job is queued again only while it has no task. -/
  requeues : Prop
  /-- A callback announces the kernel of a dynamic job only once it is submitted. -/
  reports : Prop
  /-- It announces it only once it is pushed. -/
  pushed : Prop
  /-- A restart finds the kernel of a dynamic job in `pushing_kernel` only once
  it is pushed. -/
  probes : Prop

/-- Everything that can happen to a job's view. -/
inductive Move (σ : Side) (v : View) : View → Prop
  -- the worker task
  | look {c : Core} {d : Driver} {p : WorkerPhase} {r : Bool} (hd : v.driver = some d)
    (hd' : d.returned = false) (hc : v.row = some c) (hp : Looks c d.phase p)
    (hr : r = true → p.final = true) :
    Move σ v { v with driver := some ⟨p, d.gaveUp, r⟩ }
  | note {c c' : Core} {d : Driver} {r : Bool} (hd : v.driver = some d)
    (hd' : d.returned = false) (hc : v.row = some c) (hc' : c.Forgets c')
    (hp : (∃ b, d.phase = .fresh b) ∨ (∃ b, d.phase = .finishing b) ∨ d.phase = .ended)
    (hr : r = true → d.phase.final = true) :
    Move σ v { v with row := some c', driver := some ⟨d.phase, d.gaveUp, r⟩ }
  | transition {c : Core} {d : Driver} {b : Bool} {status : Status} (hd : v.driver = some d)
    (hc : v.row = some c) (hp : d.phase = .fresh b)
    (hs : c.status = .queued ∨ c.status = .uploadingDataset ∨ c.status = .waitingDataset)
    (hn : c.canceled = false) (hs' : status = .uploadingDataset ∨ status = .waitingDataset) :
    Move σ v { v with
      row := some { c with status }, driver := some ⟨.fresh b, d.gaveUp, false⟩ }
  | commit {c : Core} {d : Driver} {b : Bool} (hd : v.driver = some d) (hc : v.row = some c)
    (hp : d.phase = .fresh b) (hs : c.status = .queued ∨ c.status = .waitingDataset)
    (hn : c.canceled = false) :
    Move σ v { v with
      row := some { c with status := .pushingKernel }
      driver := some ⟨.committed, d.gaveUp, false⟩
      committed := true }
  | push {d : Driver} (hd : v.driver = some d) (hp : d.phase = .committed) :
    Move σ v { v with
      driver := some ⟨.finishing false, d.gaveUp, false⟩, pushes := v.pushes + 1 }
  | advance {c c' : Core} {d : Driver} {b : Bool} {status : Status} (hd : v.driver = some d)
    (hc : v.row = some c) (hp : d.phase = .finishing b) (ht : c.status.terminal = false)
    (hc' : ({ c with status } : Core).Forgets c')
    (hs : status = .waitingKernel ∨ status = .downloadingOutput ∨
      (status = .cancelRequested ∧ b = true))
    (hk : c.status = .cancelRequested → status = .cancelRequested) :
    Move σ v { v with row := some c', driver := some ⟨.finishing b, d.gaveUp, false⟩ }
  | finalize {c : Core} {d : Driver} {preferred : Status} {a b r : Bool} (hd : v.driver = some d)
    (hc : v.row = some c) (hpref : preferred.terminal = true)
    (hp : (∃ b, d.phase = .fresh b) ∨ (∃ b, d.phase = .finishing b) ∨ d.phase = .ended) :
    Move σ v { v with
      row := some (c.finalized preferred a b), driver := some ⟨.ended, d.gaveUp, r⟩ }
  | park {c : Core} {d : Driver} {r : Bool} (hd : v.driver = some d) (hc : v.row = some c)
    (hp : d.phase = .fresh true) (hside : σ.parks → c.canceled = false) :
    Move σ v { v with
      row := some { c with status := .waitingDataset, retained := true, unknown := false }
      driver := some ⟨.parked, true, r⟩ }
  | record {c : Core} {d : Driver} {r : Bool} (hd : v.driver = some d) (hc : v.row = some c)
    (hp : (∃ b, d.phase = .finishing b) ∨ d.phase = .rereading) :
    Move σ v { v with
      row := some { c with retained := false, unknown := true }
      driver := some ⟨.recorded, d.gaveUp || r, r⟩ }
  -- the worker loop
  | accept {c : Core} {p : WorkerPhase} {process resume : Bool} (hd : v.driver = none)
    (hc : v.row = some c) (hw : c.awaiting = false)
    (hs : (v.process = true ∧ c.status = .queued ∧ p = .fresh false) ∨
      (v.resume = true ∧ c.status.submitted = true ∧ c.status.terminal = false ∧
        p = .finishing false))
    (hprocess : process = true → v.process = true) (hresume : resume = true → v.resume = true) :
    Move σ v { v with driver := some ⟨p, false, false⟩, process, resume }
  | discard {process resume : Bool}
    (hprocess : process = true → v.process = true) (hresume : resume = true → v.resume = true)
    (hp : v.process = true → process = false →
      ∀ c, v.row = some c → c.status = .queued → c.awaiting = false → v.driver ≠ none)
    (hr : v.resume = true → resume = false →
      ∀ c, v.row = some c → c.status = .cancelRequested → c.awaiting = false → v.driver ≠ none) :
    Move σ v { v with process, resume }
  | pend {c : Core} {process : Bool} (hd : v.driver = none) (hc : v.row = some c)
    (hs : c.status = .queued) (hprocess : process = true → v.process = true) :
    Move σ v { v with process, pending := true }
  | leave {d : Driver} {process pending : Bool} (hd : v.driver = some d) (hr : d.returned = true)
    (h : v.Flushes process pending) : Move σ v { v with driver := none, process, pending }
  | flush {process pending : Bool} (h : v.Flushes process pending) :
    Move σ v { v with process, pending }
  -- the holder of the lock
  | learn {l : LockPhase} (h : Learns v l) : Move σ v { v with lock := l }
  | reserve {c : Core} {b : Bool} (hc : v.row = some c)
    (h : b = true → c.reserves = true ∨ ∃ a, v.lock = .assembling a) :
    Move σ v { v with row := some { c with reserves := b } }
  | cancel {c : Core} (hc : v.row = some c) (ht : c.status.terminal = false)
    (hs : c.status ≠ .cancelRequested)
    (hside : σ.cancels → c.cancelStatus = .cancelRequested → v.HasDriver) :
    Move σ v { v with
      row := some { c.moved c.cancelStatus false false with canceled := true }, lock := .running }
  | expire {c : Core} {a b : Bool} (hc : v.row = some c) (hs : c.status = .receiving) :
    Move σ v { v with row := some (c.moved .failed a b), lock := .running }
  | assemble {c : Core} {b : Bool} (hc : v.row = some c) (hl : v.lock = .receiving b)
    (hs : c.status = .receiving) :
    Move σ v { v with row := some { c with status := .assembling }, lock := .assembling b }
  | unassemble {c : Core} {status : Status} {x a b : Bool} (hc : v.row = some c)
    (hl : v.lock = .assembling x) (hs : c.status = .assembling)
    (hs' : status = .receiving ∨ status = .failed) :
    Move σ v { v with row := some (c.moved status a b), lock := .running }
  | enqueue {c : Core} {b : Bool} (hc : v.row = some c) (hl : v.lock = .assembling b)
    (hs : c.status = .assembling) :
    Move σ v { v with
      row := some { c with status := .queued, retained := false, unknown := false }
      lock := .running, process := v.process || !b }
  | requeue {c : Core} (hc : v.row = some c) (hl : v.lock = .retained ∨ v.lock = .idle)
    (hs : c.status = .waitingDataset) (hn : c.canceled = false)
    (hside : σ.requeues → v.driver = none) :
    Move σ v { v with
      row := some { c with status := .queued, retained := false, unknown := false }
      lock := .running, process := true }
  | resume {c : Core} (hc : v.row = some c) (hl : v.lock = .unknown) (hd : v.driver = none) :
    Move σ v { v with
      row := some { c with retained := false, unknown := false }, lock := .running, resume := true }
  | delete (hl : v.lock = .deleting) : Move σ v { v with row := none, lock := .running }
  -- programs without a lock
  | report {c : Core} {status : Status} (hc : v.row = some c) (ht : c.status.terminal = false)
    (hw : c.awaiting = false)
    (hs : status = .waitingKernel ∨ (status = .cancelRequested ∧ c.canceled = true))
    (hk : c.status = .cancelRequested → status = .cancelRequested)
    (hside : σ.cancels → c.status ≠ .cancelRequested → status = .cancelRequested → v.HasDriver)
    (hside' : σ.reports → c.dynamic = true → status = .waitingKernel → v.committed = true)
    (hpushed : σ.pushed → c.dynamic = true → status = .waitingKernel → v.pushes ≠ 0) :
    Move σ v { v with row := some { c with status } }
  | refuse {c : Core} (hc : v.row = some c) (hs : c.status = .queued) :
    Move σ v { v with row := some (c.moved .failed false false) }
  | bind {c : Core} (hc : v.row = some c) (hs : c.status = .queued) :
    Move σ v { v with row := some { c with awaiting := false }, process := true }
  | create {c : Core} (hk : v.known = false) (hs : c.status = .receiving)
    (hn : c.canceled = false ∧ c.completed = false ∧ c.retained = false) :
    Move σ v { v with known := true, row := some c }
  -- restarts
  | crash (hside : σ.restarts) :
    Move σ v { v with
      driver := none, lock := .free, process := false, resume := false, pending := false }
  | recoverEnd {c : Core} {status : Status} {a b : Bool} (hside : σ.restarts) (hv : v.Quiet)
    (hl : v.lock = .free) (hc : v.row = some c) (ht : c.status.terminal = false)
    (hs : status = .failed ∨ status = .canceled) :
    Move σ v { v with row := some (c.moved status a b) }
  | recoverQueue {c : Core} (hside : σ.restarts) (hv : v.Quiet) (hl : v.lock = .free)
    (hc : v.row = some c)
    (hs : c.status = .assembling ∨ c.status = .uploadingDataset ∨ c.status = .waitingDataset) :
    Move σ v { v with
      row := some { c with status := .queued, retained := false, unknown := false } }
  | recoverReserve {c : Core} {b : Bool} (hside : σ.restarts) (hv : v.Quiet)
    (hl : v.lock = .free) (hc : v.row = some c) (ht : c.status.terminal = false) :
    Move σ v { v with row := some { c with reserves := b } }
  | serve {c : Core} {process resume : Bool} (hside : σ.restarts) (hv : v.Quiet)
    (hl : v.lock = .free) (hc : v.row = some c) (hs : c.status.intake = false)
    (hresume : resume = true → c.status.submitted = true)
    (hprobe : σ.probes → resume = true → c.dynamic = true → c.status = .pushingKernel →
      v.pushes ≠ 0) :
    Move σ v { v with process, resume }

/-! ### The invariant -/

/-- The row and the number of pushes agree with how far the task is. -/
def Driver.Fits (d : Driver) (c : Core) (pushes : ℕ) : Prop :=
  match d.phase with
  | .fresh seen =>
    pushes = 0 ∧ c.retained = false ∧ c.awaiting = false ∧ c.status.intake = false ∧
      (seen = true → c.status ≠ .queued ∧ c.status.terminal = false) ∧
      d.gaveUp = false ∧ d.returned = false
  | .parked => c.awaiting = false ∧ c.status.intake = false ∧ d.gaveUp = true
  | .committed =>
    pushes = 0 ∧ c.status.submitted = true ∧ d.gaveUp = false ∧ d.returned = false
  | .finishing canceled =>
    c.status.submitted = true ∧ (canceled = true → c.canceled = true) ∧
      d.gaveUp = false ∧ d.returned = false
  | .recorded => c.status.submitted = true ∧ d.gaveUp = d.returned
  | .rereading => c.status.submitted = true ∧ d.gaveUp = false ∧ d.returned = false
  | .ended => c.status.terminal = true ∧ d.gaveUp = false

/-- What the holder of the lock has found out is still so. -/
def View.LockFits (v : View) : Prop :=
  match v.lock with
  | .free | .running => True
  | .receiving b =>
    v.Quiet ∧ ∃ c, v.row = some c ∧ c.awaiting = b ∧
      (c.status = .receiving ∨ c.status = .waitingKernel ∨ c.status = .cancelRequested)
  | .terminal => ∃ c, v.row = some c ∧ c.status.terminal = true
  | .beyond | .unknown => ∃ c, v.row = some c ∧ c.status.intake = false ∧ c.status ≠ .queued
  | .retained =>
    (∃ c, v.row = some c ∧ c.status.intake = false ∧ c.status ≠ .queued) ∧
      ∀ d, v.driver = some d → d.phase.early = false
  | .idle =>
    (∃ c, v.row = some c ∧ c.status.intake = false ∧ c.status ≠ .queued) ∧
      ∀ d, v.driver = some d → d.phase.late = true
  | .assembling b =>
    v.Quiet ∧ ∃ c, v.row = some c ∧ c.awaiting = b ∧
      (c.status = .assembling ∨ c.status = .waitingKernel ∨ c.status = .cancelRequested)
  | .deleting =>
    v.driver = none ∧ ∃ c, v.row = some c ∧ (c.status.terminal = true ∨
      (v.Quiet ∧ (c.status = .receiving ∨ c.status = .waitingKernel ∨ c.status = .cancelRequested)))

/-- What a row by itself satisfies. -/
structure Core.Sound (c : Core) : Prop where
  completed_iff : c.status.terminal = true ↔ c.completed = true
  reserves : c.status.terminal = true → c.reserves = false
  canceled : c.status = .cancelRequested → c.canceled = true
  awaiting : c.awaiting = true →
    c.status.intake = true ∨ c.status = .queued ∨ c.status.terminal = true
  queued : c.status = .queued → c.retained = false

/-- Row and memory agree. -/
structure Coupled (v : View) : Prop where
  sound : ∀ c, v.row = some c → c.Sound
  intake : ∀ c, v.row = some c → c.status.intake = true → v.Quiet
  driver : ∀ d, v.driver = some d → ∃ c, v.row = some c ∧ d.Fits c v.pushes
  lock : v.LockFits
  pushes : v.pushes ≤ 1
  committed : (v.pushes ≠ 0 ∨ ∃ d, v.driver = some d ∧ d.phase = .committed) → v.committed = true
  submitted : ∀ c, v.row = some c → v.pushes ≠ 0 → c.status.submitted = true
  unknown : v.known = false →
    v.Quiet ∧ v.row = none ∧ v.committed = false ∧ v.pushes = 0 ∧ (v.lock = .free ∨ v.lock = .running)

/-! ### Invariants of runs that meet a side condition -/

/-- No status overwrites a cancellation. -/
def View.Heeded (v : View) : Prop :=
  ∀ c, v.row = some c → c.canceled = true → c.status = .cancelRequested ∨ c.status = .canceled

/-- A cancellation that is not carried out yet has a driver, or the error that
makes `complete_job` start one. -/
def View.Driven (v : View) : Prop :=
  ∀ c, v.row = some c → c.status = .cancelRequested → v.HasDriver ∨ c.unknown = true

/-- A dynamic job whose row says that its kernel runs has made the transition
to `pushing_kernel`. -/
def View.Announced (v : View) : Prop :=
  ∀ c, v.row = some c → c.dynamic = true →
    (c.status = .pushingKernel ∨ c.status = .waitingKernel ∨ c.status = .downloadingOutput) →
    v.committed = true

/-- The kernel is pushed, the job has ended, or it is cancelled and nothing will
start it any more. -/
def View.Settles (v : View) (c : Core) : Prop :=
  v.pushes ≠ 0 ∨ c.status.terminal = true ∨
    (c.status = .cancelRequested ∧ ∀ d, v.driver = some d → d.phase.late = true)

/-- Whoever waits for the kernel of a dynamic job, or is going to, waits for one
that has been pushed. -/
structure View.Waits (v : View) (c : Core) : Prop where
  running : c.status = .waitingKernel ∨ c.status = .downloadingOutput → v.pushes ≠ 0
  driver : ∀ d, v.driver = some d → d.phase.late = true → v.Settles c
  resume : v.resume = true → v.Settles c
  unknown : c.unknown = true → c.status.intake = false → v.Settles c
  lock : v.lock = .unknown → v.Settles c

def View.Pushed (v : View) : Prop :=
  ∀ c, v.row = some c → c.dynamic = true → v.Waits c

/-- A queued job that is bound has a task that has yet to change its status,
or an item that starts one. -/
def View.Served (v : View) : Prop :=
  ∀ c, v.row = some c → c.status = .queued → c.awaiting = false →
    (∀ d, v.driver = some d → d.gaveUp = false) ∧
      (v.driver = none → v.process = true ∨ v.pending = true)

end Lifecycle

end KaggleRelay

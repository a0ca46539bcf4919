/-
A callback announces a kernel only after its submission.

A callback's first look at the row lets it through, and it stores its progress
over a row that it reads later.

* `AfterUpload` — no callback stores over a dynamic job that has not moved to
  `pushing_kernel`; `AfterPush` — nor before the push, and no restart finds a
  kernel that has not been pushed,
* `Calling` — what a callback has read still backs what it is about to write,
* `announced` — in every run of this kind a dynamic job in `waiting_kernel` has
  made the transition to `pushing_kernel`, or has been pushed.

`announced_early` — a callback that stores during the upload spoils this.
-/
import KaggleRelay.Cancellation
import KaggleRelay.Footprint

namespace KaggleRelay

open Effects Lifecycle

namespace World

variable {s : Settings} {w w' : World} {ph ph' : Phases} {id : JobId} {c : Choice} {σ : Side}

/-- A callback that is going to store its progress reads the row of a dynamic
job that is neither cancelled nor ended. -/
def ReadsToStore (s : Settings) (w : World) (a : Action) (id : JobId) (job : Job) : Prop :=
  ∃ n c data payload attempts, a = .loose n c ∧
    w.loose[n]? = some (Relay.storeProgress s id data payload (attempts + 1)) ∧
    w.jobs id = some job ∧ s.ignoreStartupProgress job data = .ok false ∧
    job.schedulingMode = .dynamic ∧ job.cancelRequestedAt = none ∧ job.status.terminal = false

/-- No callback stores over a dynamic job that has not moved to `pushing_kernel`. -/
def AfterUpload (s : Settings) (w : World) (a : Action) : Prop :=
  ∀ id job, ReadsToStore s w a id job → job.status.submitted = true

/-- The recovery's question for the kernel of a dynamic job in `pushing_kernel`
is answered only if the job has been pushed. -/
def KnowsPushed (w : World) (a : Action) : Prop :=
  ∀ c kernelRef, a = .recover c → w.performs a = some (.call (.kernelStatus kernelRef)) →
    (∃ answer, c.answers (.call (.kernelStatus kernelRef)) = .ok answer) →
    ∀ id job, w.jobs id = some job → job.kernelRef = kernelRef → job.schedulingMode = .dynamic →
      job.status = .pushingKernel → Event.pushed id ∈ w.trace

/-- No callback stores over a dynamic job that has not been pushed, and no
restart finds the kernel of one. -/
def AfterPush (s : Settings) (w : World) (a : Action) : Prop :=
  AfterUpload s w a ∧ KnowsPushed w a ∧
    ∀ id job, ReadsToStore s w a id job → job.status = .pushingKernel → Event.pushed id ∈ w.trace

/-! ### What a callback has read -/

/-- What a callback has read of a job backs a write that announces the kernel. -/
def Backs (K : View → Prop) (v : View) (current : Job) : Prop :=
  v.known = true ∧ (∀ c, v.row = some c → c.dynamic = (current.schedulingMode == .dynamic)) ∧
    (current.schedulingMode = .dynamic → K v)

theorem backs_move {K : View → Prop} (hK : ∀ {σ v v'}, Move σ v v' → K v → K v') {v v' : View}
    {current : Job} (hm : Move σ v v') (h : Backs K v current) : Backs K v' current := by
  obtain ⟨hknown, hrow, hbacked⟩ := h
  obtain ⟨hknown', hkept⟩ := kept_move hm hknown
  refine ⟨hknown', fun c' hc' => ?_, fun hd => hK hm (hbacked hd)⟩
  obtain ⟨c, hc, hdynamic, -⟩ := hkept c' hc'
  exact hdynamic.trans (hrow c hc)

/-- A program that announces no kernel. -/
def Unannouncing : RelayOp → Prop
  | .updateJobIfStatus _ _ _ _ values => values.status ≠ some .waitingKernel
  | _ => True

/-- A program without a lock is no callback, a callback before its first look or
before a turn of its loop, or one that is about to write what it has read. -/
def Calling (s : Settings) (K : View → Prop) (w : World) (ph : Phases) (p : Relay Unit) : Prop :=
  Uses Unannouncing p ∨
    (∃ id authorized payload, p = Relay.updateJobProgress s id authorized payload) ∨
    (∃ id data payload attempts, p = Relay.storeProgress s id data payload attempts) ∨
    ∃ id current data payload attempts ek values k,
      p = .op (.updateJobIfStatus id [current.status] false ek values) k ∧
      (values.status = some .waitingKernel → Backs K (w.view ph id) current) ∧
      ∀ updated, k updated = .pure (.ok ()) ∨ k updated = Relay.storeProgress s id data payload attempts

/-! ### A callback's turns -/

theorem unannouncing_schedulePendingJob : Uses Unannouncing (Relay.schedulePendingJob id) := by
  refine ⟨trivial, fun job => ?_⟩
  rcases job with _ | current
  · trivial
  · show Uses Unannouncing (if current.status ≠ .queued ∨ awaitingAssignment current = false then
      pure () else _ : Relay Unit)
    split
    · trivial
    · refine ⟨trivial, fun r => ?_⟩
      rcases r with e | _ | reason | ⟨keyId, username⟩
      · trivial
      · exact ⟨nofun, fun _ => trivial⟩
      · exact ⟨nofun, fun _ => trivial⟩
      · show Uses (S := RelaySig) Unannouncing
          (Eff.bind (Eff.lift (rewriteRefOwner current.datasetRef username)) _)
        refine Uses.seq (Uses.pure _) fun datasetRef => Uses.seq (Uses.pure _) fun kernelRef => ?_
        exact ⟨trivial, fun _ => trivial⟩

/-- A callback that goes on after its first look is going to store its progress. -/
theorem callback_look (s : Settings) (id : JobId) (authorized : Bool)
    (payload : Relay.ProgressRequest) :
    ∃ k : Option Job → Relay Unit,
      Relay.updateJobProgress s id authorized payload = .op (.getJob id) k ∧
      ∀ job, returned (k job) = true ∨
        ∃ data, k job = Relay.storeProgress s id data payload 5 := by
  refine ⟨_, rfl, fun job => ?_⟩
  rcases job with _ | job
  · exact .inl rfl
  · cases authorized with
    | false => exact .inl rfl
    | true =>
      show returned (Relay.applyProgressCallback s id job payload) = true ∨
        ∃ data, Relay.applyProgressCallback s id job payload = _
      unfold Relay.applyProgressCallback
      by_cases hrefused : job.schedulingMode = .dynamic ∧
        (awaitingAssignment job = true ∨ job.status ∈ [.receiving, .assembling, .queued])
      · left
        rw [Eff.raiseIf, if_pos hrefused]
        rfl
      · rw [Eff.raiseIf, if_neg hrefused]
        cases hinvalid : payload.invalidStartup with
        | true => exact .inl rfl
        | false =>
          cases hstop : payload.trainingStop with
          | true => exact .inl rfl
          | false => exact .inr ⟨payload.data job, rfl⟩

/-- The status a callback writes over a row. -/
def storedStatus (current : Job) : Option Status :=
  if current.status.terminal then none
  else some (if current.cancelRequestedAt.isSome then .cancelRequested else .waitingKernel)

/-- A job that has ended keeps its status, and a cancelled one stays cancelled. -/
theorem storedStatus_iff {current : Job} : storedStatus current = some .waitingKernel ↔
    current.cancelRequestedAt = none ∧ current.status.terminal = false := by
  unfold storedStatus
  cases ht : current.status.terminal <;> cases hc : current.cancelRequestedAt <;> simp

/-- A turn of the loop writes over the row it has read, where it stores. -/
theorem callback_turn (s : Settings) (id : JobId) (data : String) (payload : Relay.ProgressRequest)
    (attempts : ℕ) :
    ∃ k : Option Job → Relay Unit,
      Relay.storeProgress s id data payload (attempts + 1) = .op (.getJob id) k ∧
      returned (k none) = true ∧ ∀ current : Job,
        (s.ignoreStartupProgress current data ≠ .ok false → returned (k (some current)) = true) ∧
        (s.ignoreStartupProgress current data = .ok false → ∃ ek values k',
          values.status = storedStatus current ∧
          k (some current) = .op (.updateJobIfStatus id [current.status] false ek values) k' ∧
          ∀ updated, k' updated = .pure (.ok ()) ∨
            k' updated = Relay.storeProgress s id data payload attempts) := by
  refine ⟨_, rfl, rfl, fun current => ⟨fun hignored => ?_, fun hstores => ?_⟩⟩
  · show returned (Eff.bind (Eff.lift
      ((s.ignoreStartupProgress current data).mapError .typeError)) _) = true
    cases hcurrent : s.ignoreStartupProgress current data with
    | error text => rfl
    | ok ignored =>
      cases ignored with
      | true => rfl
      | false => exact absurd hcurrent hignored
  · refine ⟨some current.kernelStatus,
      { status := storedStatus current, kernelStatus := some data
        kaggleOutput := some payload.message, progress := some (payload.progress current) },
      fun updated : Bool =>
        (if updated then pure () else Relay.storeProgress s id data payload attempts : Relay Unit),
      rfl, ?_, fun updated => ?_⟩
    · show Eff.bind (Eff.lift (Except.mapError Exc.typeError (s.ignoreStartupProgress current data))) _ = _
      rw [hstores]
      rfl
    · cases updated with
      | true => exact .inl rfl
      | false => exact .inr rfl

/-! ### Steps -/

/-- A program without a lock comes from a request, and goes on by its own
steps. -/
theorem loose_cases {a : Action} (hs : step s a w = some w') {p : Relay Unit} (hp : p ∈ w'.loose) :
    p ∈ w.loose ∨ (∃ (id : JobId) (request : LooseRequest), p = request.program s id) ∨
      ∃ (n : ℕ) (c : Choice) (o : RelayOp) (k : o.Res → Relay Unit),
        a = .loose n c ∧ w.loose[n]? = some (.op o k) ∧
        returned (k (perform s c o w).1) = false ∧ p = k (perform s c o w).1 := by
  have hkeeps : ∀ {c : Choice} {o : RelayOp} {r : o.Res} {w₁ : World},
      perform s c o w = (r, w₁) → w₁.loose = w.loose := by
    intro c o r w₁ hperform
    obtain ⟨id, hon⟩ := exists_on o
    exact (frame_of_perform hon hperform).loose
  cases stepped_of_step hs with
  | worker _ _ _ hperform | lock _ hperform | recover _ _ hperform =>
    exact .inl (hkeeps hperform ▸ hp)
  | memory h => exact (h.loose p hp).imp_right .inl
  | @loose n c o k r w₁ hn hperform =>
    obtain rfl : r = (perform s c o w).1 := by rw [hperform]
    replace hp : p ∈ if returned (k (perform s c o w).1) then w₁.loose.eraseIdx n
      else w₁.loose.set n (k (perform s c o w).1) := hp
    rw [hkeeps hperform] at hp
    split at hp
    case isTrue => exact .inl (List.mem_of_mem_eraseIdx hp)
    case isFalse hrest =>
      rcases List.mem_or_eq_of_mem_set hp with hold | hnew
      · exact .inl hold
      · exact .inr (.inr ⟨n, c, o, k, rfl, hn, by simpa using hrest, hnew⟩)

/-- What a callback has read backs it as long as the views move. -/
theorem Calling.moves {K : View → Prop} (hK : ∀ {σ v v'}, Move σ v v' → K v → K v') {p : Relay Unit}
    (hmoves : Moves σ w w' ph ph') (h : Calling s K w ph p) : Calling s K w' ph' p := by
  rcases h with hother | hlook | hturn |
    ⟨id, current, data, payload, attempts, ek, values, k, rfl, hbacks, hk⟩
  · exact .inl hother
  · exact .inr (.inl hlook)
  · exact .inr (.inr (.inl hturn))
  · refine .inr (.inr (.inr ⟨id, current, data, payload, attempts, ek, values, k, rfl,
      fun hstatus => ?_, hk⟩))
    rcases hmoves id with hsame | hm
    · rw [hsame]
      exact hbacks hstatus
    · exact backs_move hK hm (hbacks hstatus)

/-- A turn that goes on is about to write over the row it has read. -/
theorem calling_turn {K : View → Prop} (hinv : Inv w ph) {n : ℕ}
    (hreads : ∀ id job, ReadsToStore s w (.loose n c) id job → K (w.view ph id))
    {o : RelayOp} {k : o.Res → Relay Unit} (hn : w.loose[n]? = some (.op o k))
    {data : String} {payload : Relay.ProgressRequest} {attempts : ℕ}
    (heq : Prog.op o k = Relay.storeProgress s id data payload attempts)
    (hrest : returned (k (perform s c o w).1) = false) :
    Calling s K w ph (k (perform s c o w).1) := by
  cases attempts with
  | zero => cases heq
  | succ attempts =>
    obtain ⟨k', hk', hnone, hgoes⟩ := callback_turn s id data payload attempts
    rw [hk'] at heq
    cases heq
    replace hrest : returned (k' (w.jobs id)) = false := hrest
    show Calling s K w ph (k' (w.jobs id))
    rcases hjob : w.jobs id with _ | current
    · rw [hjob, hnone] at hrest
      cases hrest
    · rw [hjob] at hrest
      have hstores : s.ignoreStartupProgress current data = .ok false := by
        by_contra hne
        rw [(hgoes current).1 hne] at hrest
        cases hrest
      obtain ⟨ek, values, k'', hvalues, hstore, hk''⟩ := (hgoes current).2 hstores
      have hrow : (w.view ph id).row = some current.core := view_row hjob
      have hknown : (w.view ph id).known = true := by
        by_contra hne
        obtain ⟨-, hnone, -⟩ := (hinv.coupled id).unknown (by simpa using hne)
        rw [hrow] at hnone
        cases hnone
      refine .inr (.inr (.inr ⟨id, current, data, payload, attempts, ek, values, k'', hstore,
        fun hstatus => ⟨hknown, fun c' hc' => ?_, fun hdynamic => ?_⟩, hk''⟩))
      · rw [hrow, Option.some.injEq] at hc'
        rw [← hc']
        rfl
      · obtain ⟨huncanceled, hlive⟩ := storedStatus_iff.mp (hvalues.symm.trans hstatus)
        exact hreads id current ⟨n, c, data, payload, attempts, rfl, hk' ▸ hn, hjob, hstores,
          hdynamic, huncanceled, hlive⟩

/-- **What a callback is about to write stays backed** where what it reads is. -/
theorem calling_step {K : View → Prop} (hK : ∀ {σ v v'}, Move σ v v' → K v → K v')
    (hinv : Inv w ph) (hcalls : ∀ p ∈ w.loose, Calling s K w ph p) {a : Action}
    (hreads : ∀ id job, ReadsToStore s w a id job → K (w.view ph id))
    (hs : step s a w = some w') (hmoves : Moves (w.side a) w w' ph ph') :
    ∀ p ∈ w'.loose, Calling s K w' ph' p := by
  intro p hp
  refine Calling.moves hK hmoves ?_
  rcases loose_cases hs hp with hold | ⟨id, request, rfl⟩ | ⟨n, c, o, k, rfl, hn, hrest, rfl⟩
  · exact hcalls p hold
  · cases request with
    | progress authorized payload => exact .inr (.inl ⟨id, authorized, payload, rfl⟩)
    | schedulePending => exact .inl unannouncing_schedulePendingJob
  · rcases hcalls _ (List.mem_of_getElem? hn) with hother | ⟨id, authorized, payload, heq⟩ |
      ⟨id, data, payload, attempts, heq⟩ |
      ⟨id, current, data, payload, attempts, ek, values, k', heq, -, hk⟩
    · exact .inl (hother.2 _)
    · obtain ⟨k', hk', hgoes⟩ := callback_look s id authorized payload
      rw [hk'] at heq
      cases heq
      rcases hgoes (perform s c (.getJob id) w).1 with hret | ⟨data, hstore⟩
      · cases hrest.symm.trans hret
      · exact .inr (.inr (.inl ⟨id, data, payload, 5, hstore⟩))
    · exact calling_turn hinv hreads hn heq hrest
    · cases heq
      rcases hk (perform s c (.updateJobIfStatus id [current.status] false ek values) w).1 with
        hret | hstore
      · rw [hret] at hrest
        cases hrest
      · exact .inr (.inr (.inl ⟨id, data, payload, attempts, hstore⟩))

/-- **A callback's announcement comes after what backs it.** -/
theorem reportsAfter {K : View → Prop} {event : JobId → Event}
    (hK : ∀ id, K (w.view ph id) → event id ∈ w.trace)
    (hcalls : ∀ p ∈ w.loose, Calling s K w ph p) (a : Action) : w.ReportsAfter event a := by
  intro n c ha i expected nc ek values job hperforms hstatus hjob hmem hdynamic
  subst ha
  obtain ⟨p, hp, hnext⟩ := Option.bind_eq_some_iff.mp hperforms
  obtain ⟨k, rfl⟩ := nextOp_some hnext
  rcases hcalls _ (List.mem_of_getElem? hp) with hother | ⟨id, authorized, payload, heq⟩ |
    ⟨id, data, payload, attempts, heq⟩ |
    ⟨id, current, data, payload, attempts, ek', values', k', heq, hbacks, -⟩
  · exact absurd hstatus hother.1
  · obtain ⟨k', hk', -⟩ := callback_look s id authorized payload
    rw [hk'] at heq
    cases heq
  · cases attempts with
    | zero => cases heq
    | succ attempts =>
      obtain ⟨k', hk', -, -⟩ := callback_turn s id data payload attempts
      rw [hk'] at heq
      cases heq
  · cases heq
    obtain ⟨-, hmode, hbacked⟩ := hbacks hstatus
    have hcurrent := hmode _ (view_row hjob)
    rw [show job.core.dynamic = (job.schedulingMode == .dynamic) from rfl, hdynamic] at hcurrent
    exact hK _ (hbacked (by simpa using hcurrent.symm))

/-! ### What a restart finds -/

/-- A dynamic job in `pushing_kernel` has been pushed. -/
def Cleared (v : View) : Prop :=
  ∀ c, v.row = some c → c.dynamic = true → c.status = .pushingKernel → v.pushes ≠ 0

/-- Without a task no job gets to `pushing_kernel`. -/
theorem cleared_move {v v' : View} (hd : v.driver = none) (hm : Move σ v v') (h : Cleared v) :
    Cleared v' := by
  cases hm with
  | look hd' | note hd' | transition hd' | commit hd' | push hd' | advance hd' | finalize hd'
  | park hd' | record hd' => exact nomatch hd.symm.trans hd'
  | accept | discard | pend | leave | flush | learn | crash | serve => exact h
  | delete => exact fun _ hc => nomatch hc
  | create hk hs => grind -linarith [Cleared]
  | reserve hc | cancel hc | expire hc | assemble hc | unassemble hc | enqueue hc | requeue hc
  | resume hc | report hc | refuse hc | bind hc | recoverEnd _ _ _ hc | recoverQueue _ _ _ hc
  | recoverReserve _ _ _ hc =>
    have := h _ hc
    grind -linarith [Cleared, Core.moved, Core.cancelStatus]

/-- The recovery of a job in `pushing_kernel` that is about to ask for its
kernel. -/
def askKernel (s : Settings) (id : JobId) (job : Job) : Relay (Option QueueItem) := do
  match ← Eff.attempt (Relay.call (.kernelStatus job.kernelRef)) with
  | .ok _ => pure (some ⟨.resumeKernel none, id⟩)
  | .error e =>
    if Relay.notFoundError s e then
      Relay.failRecoveredJob s id
        "restart during kernel push before submission could be verified; resubmit job"
    else
      Relay.failRecoveredJob s id
        ("restart during kernel push and kernel status could not be verified; resubmit job: " ++
          e.text)

/-- The recovery of a job has still to ask for its kernel, or finds none, or
need not ask. -/
def Asking (s : Settings) (w : World) (ph : Phases) (p : Relay (Option QueueItem)) : Prop :=
  (∃ id job, w.jobs id = some job ∧ (p = Relay.recoverPushing s id job ∨ p = askKernel s id job)) ∨
    (∃ id message, p = Relay.failRecoveredJob s id message) ∨
    (∃ r, p = .pure r ∧ ∀ item, r ≠ .ok (some item)) ∨
    ∃ id rp, Follows (recovering id) (post (Recovers id) fun _ _ => True) p rp ∧
      Cleared (w.view ph id)

/-- What a restart resumes of a job in `pushing_kernel` it has found. -/
structure Finding (s : Settings) (w : World) (ph : Phases) (r : Recovery) : Prop where
  items : ∀ item ∈ r.items, item.action.isResume = true → Cleared (w.view ph item.jobId)
  current : ∀ p, r.current = some p → Asking s w ph p

theorem asking_step {r : Recovery} (hrecovery : w.recovery = some r)
    {o : RelayOp} {k : o.Res → Relay (Option QueueItem)} (hcurrent : r.current = some (.op o k))
    (hasking : Asking s w ph (.op o k)) (hknows : KnowsPushed w (.recover c))
    {w₁ : World} {a : o.Res} (hperform : perform s c o w = (a, w₁)) (hlegal : legal o a = true)
    (hcleared : ∀ id, Cleared (w.view ph id) → Cleared (w₁.view ph id)) :
    Asking s w₁ ph (k a) := by
  have hperforms : w.performs (.recover c) = some o := by
    rw [performs, hrecovery, Option.bind_some, hcurrent]
    rfl
  rcases hasking with ⟨id, job, hjob, heq | heq⟩ | ⟨id, message, heq⟩ | ⟨r', heq, -⟩ |
    ⟨id, rp, hfollows, hclear⟩
  · cases heq
    have hjobs : w₁.jobs = w.jobs := by cases hperform; rfl
    rcases a with e | _
    · exact .inr (.inr (.inl ⟨_, rfl, by rintro _ ⟨⟩⟩))
    · exact .inl ⟨id, job, hjobs ▸ hjob, .inr rfl⟩
  · cases heq
    obtain rfl : w₁ = w := by cases hperform; rfl
    rcases a with e | answer
    · refine .inr (.inl ?_)
      by_cases hnotFound : Relay.notFoundError s e = true
      · exact ⟨id, _, if_pos hnotFound⟩
      · exact ⟨id, _, if_neg hnotFound⟩
    · -- the kernel is there, so it has been pushed
      have hanswer : c.answers (.call (.kernelStatus job.kernelRef)) = .ok answer :=
        congrArg Prod.fst hperform
      refine .inr (.inr (.inr ⟨id, .live .pushingKernel, .pure (Relay.recovers_some
        Relay.sound_resumeKernel_none rfl (by rintro ⟨⟩) fun _ => rfl), fun core hcore hdynamic hs => ?_⟩))
      rw [view_row hjob, Option.some.injEq] at hcore
      subst hcore
      exact pushes_view.mpr (hknows c job.kernelRef rfl hperforms ⟨answer, hanswer⟩ id job hjob rfl
        (by simpa [Job.core] using hdynamic) hs)
  · cases heq
    exact .inr (.inr (.inl ⟨_, rfl, by rintro _ ⟨⟩⟩))
  · cases heq
  · exact .inr (.inr (.inr ⟨id, _, hfollows.of_op.2 a hlegal, hcleared id hclear⟩))

/-- **A step of the recovery resumes only what it has found.** -/
theorem finding_recover (hinv : Inv w ph) {r : Recovery} (hrecovery : w.recovery = some r)
    (hfinding : Finding s w ph r) (hknows : KnowsPushed w (.recover c))
    (hs : recoveryStep s c w r = some w') (hmoves : Moves σ w w' ph ph) {r' : Recovery}
    (hr' : w'.recovery = some r') : Finding s w' ph r' := by
  have hcleared : ∀ id, Cleared (w.view ph id) → Cleared (w'.view ph id) := by
    intro id hclear
    rcases hmoves id with hsame | hm
    · rwa [hsame]
    · exact cleared_move ((hinv.recovery r hrecovery).quiet id).1.1 hm hclear
  have hitems : ∀ item ∈ r.items, item.action.isResume = true → Cleared (w'.view ph item.jobId) :=
    fun item hitem hresume => hcleared _ (hfinding.items item hitem hresume)
  unfold recoveryStep at hs
  split at hs
  case h_1 _ _ found hcurrent =>
    cases hs
    obtain rfl : (⟨r.todo, none, r.items ++ found.toList⟩ : Recovery) = r' := by simpa using hr'
    refine ⟨fun item hitem hresume => ?_, nofun⟩
    rcases List.mem_append.mp hitem with hold | hnew
    · exact hitems item hold hresume
    · obtain rfl : found = some item := by simpa using hnew
      rcases hfinding.current _ hcurrent with ⟨id, job, -, heq | heq⟩ | ⟨id, message, heq⟩ |
        ⟨a, heq, hnone⟩ | ⟨id, rp, hfollows, hclear⟩
      · cases heq
      · cases heq
      · cases heq
      · cases heq
        exact absurd rfl (hnone item)
      · have hrecovers : Recovers id (some item) rp := hfollows.of_pure
        obtain ⟨rfl, -⟩ := hrecovers.item item rfl
        exact hcleared _ hclear
  case h_2 _ _ p _ hcurrent =>
    obtain ⟨⟨p', w₁⟩, hadvance, rfl⟩ := Option.map_eq_some_iff.mp hs
    obtain ⟨o, k, a, rfl, hperform, hlegal, rfl⟩ := advance_some hadvance
    obtain rfl : { r with current := some (k a) } = r' := by simpa using hr'
    refine ⟨hitems, fun p hp => ?_⟩
    obtain rfl : k a = p := by simpa using hp
    have hasking : Asking s w₁ ph (k a) :=
      asking_step hrecovery hcurrent (hfinding.current _ hcurrent) hknows hperform hlegal hcleared
    exact hasking
  case h_3 _ _ id job todo _ htodo =>
    cases hs
    obtain rfl : (⟨todo, some (Relay.recoverJobAfterRestart s id job), r.items⟩ : Recovery) = r' := by
      simpa using hr'
    refine ⟨hitems, fun p hp => ?_⟩
    obtain rfl : Relay.recoverJobAfterRestart s id job = p := by simpa using hp
    obtain ⟨-, hjob⟩ := (hinv.recovery r hrecovery).todo (id, job) (htodo ▸ List.mem_cons_self)
    replace hjob : w.jobs id = some job := hjob
    by_cases hpushing : job.status = .pushingKernel
    · refine .inl ⟨id, job, hjob, .inl ?_⟩
      rw [Relay.recoverJobAfterRestart, hpushing]
    · refine .inr (.inr (.inr ⟨id, _, follows_recoverJobAfterRestart s id job, ?_⟩))
      intro core hcore _ hs
      replace hcore : (w.view ph id).row = some core := hcore
      rw [view_row hjob, Option.some.injEq] at hcore
      subst hcore
      exact absurd hs hpushing
  case h_4 =>
    cases hs
    cases hr'

theorem finding_step (hinv : Inv w ph) (hfinding : ∀ r, w.recovery = some r → Finding s w ph r)
    {a : Action} (hknows : KnowsPushed w a) (hs : step s a w = some w') :
    ∃ ph', Inv w' ph' ∧ ∀ r, w'.recovery = some r → Finding s w' ph' r := by
  obtain ⟨ph', hinv', hmoves⟩ := inv_step hinv hs
  by_cases hcrash : a = .crash
  · subst hcrash
    refine ⟨ph', hinv', fun r hr => ?_⟩
    have hw : w' = w.crash := by
      unfold step at hs
      split at hs <;> exact (Option.some.inj hs).symm
    subst hw
    obtain rfl : (⟨w.incompleteJobs, none, []⟩ : Recovery) = r := by
      simpa only [crash, Option.some.injEq] using hr
    exact ⟨by rintro _ ⟨⟩, by rintro _ ⟨⟩⟩
  · rcases hrecovery : w.recovery with _ | r
    · refine ⟨ph', hinv', fun r hr => ?_⟩
      have hserving : w'.recovery = none := by
        rcases step_cases hs with ⟨-, -, -, -, -, -, -, -, hkept⟩ | ⟨-, hkept, -⟩
        · exact hkept hrecovery
        · exact hkept hrecovery hcrash
      rw [hserving] at hr
      cases hr
    · simp only [step, hrecovery] at hs
      cases a with
      | crash => exact absurd rfl hcrash
      | recover c =>
        obtain ⟨hinv'', hmoves'⟩ :=
          inv_recover (σ := w.side .crash) hinv hrecovery (.inl rfl) id hs
        exact ⟨ph, hinv'', fun r' hr' => finding_recover hinv hrecovery
          (hfinding r hrecovery) hknows hs hmoves' hr'⟩
      | _ => cases hs

/-- **A restart resumes only kernels that have been pushed**, where what it is
told of them is so. -/
theorem findsPushed_of_reachableWith (h : ReachableWith s KnowsPushed w) : w.FindsPushed := by
  have hfinds : ∃ ph, Inv w ph ∧ ∀ r, w.recovery = some r → Finding s w ph r := by
    induction h with
    | empty => exact ⟨_, inv_empty, nofun⟩
    | step _ a hknows hs ih =>
      obtain ⟨ph, hinv, hfinding⟩ := ih
      exact finding_step hinv hfinding hknows hs
  obtain ⟨ph, -, hfinding⟩ := hfinds
  intro r item job hrecovery hitem hresume hjob hdynamic hs
  exact pushes_view.mp ((hfinding r hrecovery).items item hitem hresume _ (view_row hjob)
    (by simpa [Job.core] using hdynamic) hs)

/-! ### Refusals -/

/-- A callback is refused as not submitted exactly while a dynamic job waits for
its account, or its row is in the intake or queued. -/
theorem refused_iff (s : Settings) (id : JobId) (job : Job) (payload : Relay.ProgressRequest) :
    Relay.applyProgressCallback s id job payload =
        Eff.throw (.http 409 "job has not been submitted to Kaggle") ↔
      job.schedulingMode = .dynamic ∧
        (awaitingAssignment job = true ∨ job.status ∈ [.receiving, .assembling, .queued]) := by
  unfold Relay.applyProgressCallback
  by_cases hrefused : job.schedulingMode = .dynamic ∧
    (awaitingAssignment job = true ∨ job.status ∈ [.receiving, .assembling, .queued])
  · rw [Eff.raiseIf, if_pos hrefused]
    exact iff_of_true rfl hrefused
  · rw [Eff.raiseIf, if_neg hrefused]
    refine iff_of_false (fun heq => ?_) hrefused
    cases hinvalid : payload.invalidStartup with
    | true =>
      rw [hinvalid] at heq
      cases heq
    | false =>
      rw [hinvalid] at heq
      cases hstop : payload.trainingStop with
      | true =>
        rw [hstop] at heq
        cases heq
      | false =>
        rw [hstop] at heq
        cases heq

/-- A dynamic job that has not moved to `pushing_kernel` is in the intake,
queued, or uploads its dataset or waits for it. -/
theorem early_of_announced {v : View} {job : Job} (hv : Coupled v) (h : v.Announced)
    (hrow : v.row = some job.core) (hdynamic : job.schedulingMode = .dynamic)
    (hcommitted : v.committed = false) (huncanceled : job.cancelRequestedAt = none)
    (hlive : job.status.terminal = false) :
    job.status ∈ [.receiving, .assembling, .queued] ∨
      job.status = .uploadingDataset ∨ job.status = .waitingDataset := by
  have hcore : job.core.status = job.status := rfl
  have hnot : ¬(job.status = .pushingKernel ∨ job.status = .waitingKernel ∨
      job.status = .downloadingOutput) := by
    intro hs
    rw [h _ hrow (by simpa [Job.core] using hdynamic) hs] at hcommitted
    cases hcommitted
  have hcancel : job.status ≠ .cancelRequested := by
    intro hs
    have hcanceled : job.cancelRequestedAt.isSome = true := (hv.sound _ hrow).canceled (hcore.trans hs)
    rw [huncanceled] at hcanceled
    cases hcanceled
  rw [not_or, not_or] at hnot
  obtain ⟨hpushing, hwaiting, hdownloading⟩ := hnot
  cases hs : job.status with
  | receiving | assembling | queued => exact .inl (by decide)
  | uploadingDataset => exact .inr (.inl rfl)
  | waitingDataset => exact .inr (.inr rfl)
  | pushingKernel => exact absurd hs hpushing
  | waitingKernel => exact absurd hs hwaiting
  | downloadingOutput => exact absurd hs hdownloading
  | cancelRequested => exact absurd hs hcancel
  | complete | failed | canceled =>
    rw [hs] at hlive
    cases hlive

/-- Before its submission a callback for a dynamic job is refused, but while it
uploads its dataset or waits for it. -/
theorem refused_of_announced {job : Job} (hv : Coupled (w.view ph id)) (h : (w.view ph id).Announced)
    (payload : Relay.ProgressRequest) (hjob : w.jobs id = some job)
    (hdynamic : job.schedulingMode = .dynamic) (hnot : Event.submitting id none ∉ w.trace)
    (huncanceled : job.cancelRequestedAt = none) (hlive : job.status.terminal = false) :
    Relay.applyProgressCallback s id job payload =
        Eff.throw (.http 409 "job has not been submitted to Kaggle") ↔
      job.status ≠ .uploadingDataset ∧ job.status ≠ .waitingDataset := by
  have hrow : (w.view ph id).row = some job.core := view_row hjob
  have hearly := early_of_announced hv h hrow hdynamic (holds_eq_false.mpr hnot) huncanceled hlive
  rw [refused_iff]
  refine ⟨fun hrefused => ?_, fun hlet => ⟨hdynamic, .inr (hearly.resolve_right (not_or.mpr hlet))⟩⟩
  -- a job that waits for its account is in the intake or queued
  rcases hrefused.2 with hw | hmem
  · have hawaiting := (hv.sound _ hrow).awaiting hw
    refine ⟨fun heq => ?_, fun heq => ?_⟩ <;>
      simp [Job.core, heq, Status.intake, Status.terminal] at hawaiting
  · refine ⟨fun heq => ?_, fun heq => ?_⟩ <;> simp [heq] at hmem

/-! ### Runs -/

theorem committed_stays {v v' : View} (hm : Move σ v v') (h : v.committed = true) :
    v'.committed = true := by
  cases hm <;> first | exact h | rfl

theorem pushes_stay {v v' : View} (hm : Move σ v v') (h : v.pushes ≠ 0) : v'.pushes ≠ 0 := by
  cases hm with
  | push => exact Nat.succ_ne_zero _
  | _ => exact h

/-- **An invariant of a job's life over runs with callbacks**, where what they
read backs what they write. -/
theorem calls_of_reachableWith {good : World → Action → Prop} {P K : View → Prop}
    (habsent : P absent) (hK : ∀ {σ v v'}, Move σ v v' → K v → K v')
    (hreads : ∀ {w ph a}, Inv w ph → (∀ id, P (w.view ph id)) → good w a →
      ∀ id job, ReadsToStore s w a id job → K (w.view ph id))
    (hmove : ∀ {w ph a v v'}, ReachableWith s good w → (∀ p ∈ w.loose, Calling s K w ph p) →
      Coupled v → P v → Move (w.side a) v v' → P v')
    (h : ReachableWith s good w) :
    ∃ ph, Inv w ph ∧ (∀ id, P (w.view ph id)) ∧ ∀ p ∈ w.loose, Calling s K w ph p := by
  induction h with
  | empty =>
    refine ⟨_, inv_empty, fun id => ?_, nofun⟩
    rw [view_empty]
    exact habsent
  | @step w w' hr a hgood hs ih =>
    obtain ⟨ph, hinv, hP, hcalls⟩ := ih
    obtain ⟨ph', hinv', hmoves⟩ := inv_step hinv hs
    refine ⟨ph', hinv', fun id => ?_,
      calling_step hK hinv hcalls (hreads hinv hP hgood) hs hmoves⟩
    rcases hmoves id with hsame | hm
    · rw [hsame]
      exact hP id
    · exact hmove hr hcalls (hinv.coupled id) (hP id) hm

theorem announced_of_reachableWith (h : ReachableWith s (AfterUpload s) w) :
    ∃ ph, Inv w ph ∧ (∀ id, (w.view ph id).Announced) ∧
      ∀ p ∈ w.loose, Calling s (·.committed = true) w ph p := by
  refine calls_of_reachableWith nofun committed_stays ?_ ?_ h
  · intro w ph a hinv hP hgood id job hreads
    have hsubmitted := hgood id job hreads
    obtain ⟨n, c, data, payload, attempts, -, -, hjob, -, hdynamic, huncanceled, hlive⟩ := hreads
    by_contra hne
    rcases early_of_announced (hinv.coupled id) (hP id) (view_row hjob) hdynamic (by simpa using hne)
      huncanceled hlive with hearly | hs | hs
    · simp only [List.mem_cons, List.not_mem_nil, or_false] at hearly
      rcases hearly with hs | hs | hs <;> rw [hs] at hsubmitted <;> cases hsubmitted
    · rw [hs] at hsubmitted
      cases hsubmitted
    · rw [hs] at hsubmitted
      cases hsubmitted
  · intro w ph a v v' _ hcalls hv hP hm
    exact announced_move hv hP (reportsAfter (fun _ => holds_eq_true.mp) hcalls a) hm

theorem pushed_of_reachableWith (h : ReachableWith s (AfterPush s) w) :
    ∃ ph, Inv w ph ∧ (∀ id, (w.view ph id).Pushed) ∧
      ∀ p ∈ w.loose, Calling s (·.pushes ≠ 0) w ph p := by
  refine calls_of_reachableWith nofun pushes_stay ?_ ?_ h
  · rintro w ph a hinv hP ⟨hgood, -, hpushed⟩ id job hreads
    have hsubmitted := hgood id job hreads
    have hpushing := hpushed id job hreads
    obtain ⟨n, c, data, payload, attempts, -, -, hjob, -, hdynamic, huncanceled, hlive⟩ := hreads
    have hrow : (w.view ph id).row = some job.core := view_row hjob
    have hwaits := hP id _ hrow (by simpa [Job.core] using hdynamic)
    cases hs : job.status with
    | receiving | assembling | queued | uploadingDataset | waitingDataset =>
      rw [hs] at hsubmitted
      cases hsubmitted
    | pushingKernel => exact pushes_view.mpr (hpushing hs)
    | waitingKernel => exact hwaits.running (.inl hs)
    | downloadingOutput => exact hwaits.running (.inr hs)
    | cancelRequested =>
      have hcanceled : job.cancelRequestedAt.isSome = true := ((hinv.coupled id).sound _ hrow).canceled hs
      rw [huncanceled] at hcanceled
      cases hcanceled
    | complete | failed | canceled =>
      rw [hs] at hlive
      cases hlive
  · intro w ph a v v' hr hcalls hv hP hm
    exact pushed_move hv hP (reportsAfter (fun _ => pushes_view.mp) hcalls a)
      (findsPushed_of_reachableWith (hr.mono fun _ _ hgood => hgood.2.1)) hm

/-- What a recovery resumes has been pushed. -/
theorem resumed_of_pushed (hinv : Inv w ph) (hpushed : ∀ id, (w.view ph id).Pushed)
    (hfinds : w.FindsPushed) {r : Recovery} {item : QueueItem} {job : Job} (hr : w.recovery = some r)
    (hitem : item ∈ r.items) (hresume : item.action.isResume = true)
    (hjob : w.jobs item.jobId = some job) (hdynamic : job.schedulingMode = .dynamic)
    (hne : job.status ≠ .cancelRequested) : Event.pushed item.jobId ∈ w.trace := by
  have hrow : (w.view ph item.jobId).row = some job.core := view_row hjob
  obtain ⟨-, -, core, hcore, -, hsubmitted⟩ := (hinv.recovery r hr).items item hitem
  rw [hrow, Option.some.injEq] at hcore
  subst hcore
  obtain ⟨hsub, hlive⟩ := hsubmitted hresume
  have hwaits := hpushed item.jobId _ hrow (by simpa [Job.core] using hdynamic)
  rcases (Status.submitted_iff _).mp hsub with hs | hs | hs | hs | hended
  · exact hfinds r item job hr hitem hresume hjob hdynamic hs
  · exact pushes_view.mp (hwaits.running (.inl hs))
  · exact pushes_view.mp (hwaits.running (.inr hs))
  · exact absurd hs hne
  · rw [(Status.terminal_iff _).mpr hended] at hlive
    cases hlive

/-- A row does not get to `waiting_kernel` in the step that records its
submission. -/
theorem committed_of_waiting {v v' : View} (hm : Move σ v v') {c' : Core} (hc' : v'.row = some c')
    (hs : c'.status = .waitingKernel) (h : v'.committed = true) : v.committed = true := by
  cases hm with
  | commit hd hc =>
    cases hc'
    cases hs
  | _ => exact h

/-- **A callback announces a kernel only after its submission**, in every run in
which none stores over a dynamic job that has not moved to `pushing_kernel`: a
dynamic job in `waiting_kernel` has made the transition, and had made it when its
row got that status.  Until it makes it, callbacks are refused, while the job
uploads its dataset or waits for it apart.  Where no callback stores over one
that has not been pushed either, and no restart finds the kernel of one, a
dynamic job in `waiting_kernel` has been pushed, and so has what a recovery
resumes. -/
theorem announced (s : Settings) {w : World} (h : ReachableWith s (AfterUpload s) w) :
    (∀ id job, w.jobs id = some job → job.schedulingMode = .dynamic →
      job.status = .waitingKernel → Event.submitting id none ∈ w.trace) ∧
    (∀ a w' id job', step s a w = some w' → w'.jobs id = some job' →
      job'.schedulingMode = .dynamic → job'.status = .waitingKernel →
      Event.submitting id none ∈ w.trace) ∧
    (∀ id job payload, w.jobs id = some job → job.schedulingMode = .dynamic →
      Event.submitting id none ∉ w.trace → job.cancelRequestedAt = none →
      job.status.terminal = false →
      (Relay.applyProgressCallback s id job payload =
          Eff.throw (.http 409 "job has not been submitted to Kaggle") ↔
        job.status ≠ .uploadingDataset ∧ job.status ≠ .waitingDataset)) ∧
    (ReachableWith s (AfterPush s) w →
      (∀ id job, w.jobs id = some job → job.schedulingMode = .dynamic →
        job.status = .waitingKernel → Event.pushed id ∈ w.trace) ∧
      ∀ r item job, w.recovery = some r → item ∈ r.items → item.action.isResume = true →
        w.jobs item.jobId = some job → job.schedulingMode = .dynamic →
        job.status ≠ .cancelRequested → Event.pushed item.jobId ∈ w.trace) := by
  obtain ⟨ph, hinv, hannounced, hcalls⟩ := announced_of_reachableWith h
  have hdyn : ∀ job : Job, job.schedulingMode = .dynamic → job.core.dynamic = true := by
    intro job hjob
    simpa [Job.core] using hjob
  refine ⟨fun id job hjob hd hs => ?_, fun a w' id job' hs hjob' hd hst => ?_,
    fun id job payload hjob hd hnot huncanceled hlive => ?_, fun hpush => ?_⟩
  · exact holds_eq_true.mp (hannounced id _ (view_row hjob) (hdyn job hd) (.inr (.inl hs)))
  · obtain ⟨ph', hinv', hmoves⟩ := inv_step hinv hs
    have hrow : (w'.view ph' id).row = some job'.core := view_row hjob'
    rcases hmoves id with hsame | hm
    · rw [hsame] at hrow
      exact holds_eq_true.mp (hannounced id _ hrow (hdyn job' hd) (.inr (.inl hst)))
    · have hannounced' := announced_move (hinv.coupled id) (hannounced id)
        (reportsAfter (fun _ => holds_eq_true.mp) hcalls a) hm
      have hcommitted := hannounced' _ hrow (hdyn job' hd) (.inr (.inl hst))
      exact holds_eq_true.mp (committed_of_waiting hm hrow hst hcommitted)
  · exact refused_of_announced (hinv.coupled id) (hannounced id) payload hjob hd hnot huncanceled hlive
  · obtain ⟨ph, hinv, hpushed, -⟩ := pushed_of_reachableWith hpush
    refine ⟨fun id job hjob hd hs => ?_, fun r item job hr hitem hresume hjob hd hne => ?_⟩
    · exact pushes_view.mp ((hpushed id _ (view_row hjob) (hdyn job hd)).running (.inl hs))
    · exact resumed_of_pushed hinv hpushed
        (findsPushed_of_reachableWith (hpush.mono fun _ _ hgood => hgood.2.1)) hr hitem hresume hjob hd hne

/-- A dynamic job that has got its account. -/
def trialAssigned : List Action :=
  trialCompleted .dynamic 24 ++ .beginLoose "x" .schedulePending ::
    List.replicate 3 (.loose 0 succeeds) ++ [.take "alice"]

/-- A callback reports 30 percent. -/
def trialReported : List Action :=
  .beginLoose "x" (.progress true ⟨false, false, fun _ => "\x7b\x7d", "", fun _ => 30⟩) ::
    List.replicate 3 (.loose 0 succeeds)

/-- Checks that no callback stores over a dynamic job that has not been pushed,
and that no restart asks for a kernel. -/
def afterPush (w : World) : Action → Bool
  | .loose n _ =>
    match w.loose[n]? with
    | some (.op (.getJob id) k) =>
      match nextOp (k (w.jobs id)), w.jobs id with
      | some (.updateJobIfStatus _ _ _ _ values), some job =>
        values.status != some .waitingKernel || (job.status.submitted &&
          (job.status != .pushingKernel || decide (Event.pushed id ∈ w.trace)))
      | _, _ => true
    | _ => true
  | .recover c =>
    match w.performs (.recover c) with
    | some (.call (.kernelStatus _)) => false
    | _ => true
  | _ => true

theorem afterPush_sound {a : Action} (h : afterPush w a = true) : AfterPush s w a := by
  have hstored : ∀ id job, ReadsToStore s w a id job → job.status.submitted = true ∧
      (job.status = .pushingKernel → Event.pushed id ∈ w.trace) := by
    rintro id job ⟨n, c, data, payload, attempts, rfl, hloose, hjob, hstores, -, huncanceled, hlive⟩
    obtain ⟨k, hk, -, hgoes⟩ := callback_turn s id data payload attempts
    obtain ⟨ek, values, k', hvalues, hstore, -⟩ := (hgoes job).2 hstores
    have hstatus : values.status = some .waitingKernel :=
      hvalues.trans (storedStatus_iff.mpr ⟨huncanceled, hlive⟩)
    simp only [afterPush, hloose, hk, hjob, hstore, nextOp, hstatus, bne_self_eq_false,
      Bool.false_or, Bool.and_eq_true, Bool.or_eq_true, bne_iff_ne, decide_eq_true_eq] at h
    exact ⟨h.1, fun hs => h.2.resolve_left (not_not.mpr hs)⟩
  refine ⟨fun id job hreads => (hstored id job hreads).1, ?_,
    fun id job hreads => (hstored id job hreads).2⟩
  rintro c kernelRef rfl hperforms
  simp only [afterPush, hperforms] at h
  cases h

/-- A dynamic job is pushed, a callback stores over it, and the relay restarts. -/
def trialRestarted : List Action :=
  trialAssigned ++ List.replicate 74 (.worker "x" succeeds) ++ trialReported ++
    [.crash, .recover succeeds, .recover succeeds]

theorem announced_trial :
    ∃ w r item job, runIf afterPush trialSettings trialRestarted empty = some w ∧
      w.recovery = some r ∧ item ∈ r.items ∧ item.action.isResume = true ∧
      w.jobs item.jobId = some job ∧ job.status = .waitingKernel ∧
      Event.submitting item.jobId none ∈ w.trace ∧ Event.pushed item.jobId ∈ w.trace := by
  have hread : (runIf afterPush trialSettings trialRestarted empty).map (fun w =>
      (w.recovery.map (·.items), (w.jobs "x").map fun job => (job.schedulingMode, job.status))) =
      some (some [⟨.resumeKernel none, "x"⟩], some (.dynamic, .waitingKernel)) := by decide +kernel
  obtain ⟨w, hw, hpair⟩ := Option.map_eq_some_iff.mp hread
  obtain ⟨r, hr, hitems⟩ := Option.map_eq_some_iff.mp (congrArg Prod.fst hpair)
  obtain ⟨job, hjob, hrow⟩ := Option.map_eq_some_iff.mp (congrArg Prod.snd hpair)
  have hmode : job.schedulingMode = .dynamic := congrArg Prod.fst hrow
  have hstatus : job.status = .waitingKernel := congrArg Prod.snd hrow
  have hpush : ReachableWith trialSettings (AfterPush trialSettings) w :=
    reachableWith_of_runIf (fun _ _ => afterPush_sound) hw .empty
  obtain ⟨hsubmitted, -, -, hpushed⟩ :=
    announced trialSettings (hpush.mono fun _ _ hgood => hgood.1)
  have hmem : (⟨.resumeKernel none, "x"⟩ : QueueItem) ∈ r.items := by simp [hitems]
  refine ⟨w, r, ⟨.resumeKernel none, "x"⟩, job, hw, hr, hmem, rfl, hjob, hstatus,
    hsubmitted "x" job hjob hmode hstatus, (hpushed hpush).2 r _ job hr hmem rfl hjob hmode ?_⟩
  rw [hstatus]
  rintro ⟨⟩

/-- A callback that comes during the upload of the dataset announces a kernel
that nobody has pushed. -/
theorem announced_early :
    ¬∀ (s : Settings) (w : World), Reachable s w → ∀ id job, w.jobs id = some job →
      job.schedulingMode = .dynamic → job.status = .waitingKernel →
      Event.submitting id none ∈ w.trace := by
  intro h
  have hread : (run trialSettings (trialAssigned ++ List.replicate 15 (.worker "x" succeeds) ++
      trialReported) empty).map (fun w =>
        (w.trace, (w.jobs "x").map fun job => (job.schedulingMode, job.status))) =
      some ([], some (.dynamic, .waitingKernel)) := by decide +kernel
  obtain ⟨w, hw, hrow⟩ := Option.map_eq_some_iff.mp hread
  obtain ⟨job, hjob, hstatus⟩ := Option.map_eq_some_iff.mp (congrArg Prod.snd hrow)
  have hmem := h trialSettings w (reachable_of_run hw) "x" job hjob (congrArg Prod.fst hstatus)
    (congrArg Prod.snd hstatus)
  rw [show w.trace = [] from congrArg Prod.fst hrow] at hmem
  cases hmem

end World

end KaggleRelay

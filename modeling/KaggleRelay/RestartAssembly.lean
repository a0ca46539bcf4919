/-
Assembly after a restart.

`complete_job` assembles the archives of a job, and `recover_job_after_restart`
does it again where a crash has left the row in `assembling`.  Both run the same
`assembleAndValidateJob` and decide on its outcome.

* `liveStatus` — the status that each outcome is to leave;
* `uses_assembleAndValidateJob` — the assembly changes no status;
* `finishOutcome_status`, `recoverOutcome_status` — what the two make of an outcome;
* `restart_assembly_iff` — `complete_job` leaves the status that the outcome is to
  leave, and the recovery the same one if and only if the outcome is no shortage
  of space.
-/
import Mathlib.Control.Monad.Basic
import KaggleRelay.Retention

namespace KaggleRelay

open Effects

variable (s : Settings)

namespace World

/-- One operation of a program that runs by itself. -/
def soloSem : Prog.Sem RelaySig Choice World := fun o c w => some (perform s c o w)

/-- The status of a job. -/
def statusOf (w : World) (id : JobId) : Option Status := (w.jobs id).map (·.status)

/-- The status of a job after a program that ran by itself. -/
def statusAfter {α : Type} (p : Relay α) (cs : List Choice) (w : World) (id : JobId) : Option Status :=
  (alone s p cs w).2.statusOf id

/-- The status that the outcome of an assembly is to leave. -/
def liveStatus : Except Exc Unit → Status
  | .ok () => .queued
  | .error e => if e.cls = .capacityError then .receiving else .failed

/-- The status that the recovery leaves on it. -/
def recoveredStatus : Except Exc Unit → Status
  | .ok () => .queued
  | .error _ => .failed

/-! ### The assembly itself -/

/-- An operation that changes no status and removes nothing. -/
def Steady : RelayOp → Prop
  | .updateJob _ values => values.status = none
  | .updateJobIfStatus .. | .finalizeJob .. | .resumeIfInactive .. | .updateJobIfStatusAndPut ..
  | .deleteJobRecord _ | .removeFiles _ => False
  | _ => True

theorem statusOf_modifyJob {w : World} {f : Job → Job} (hf : ∀ job, (f job).status = job.status)
    (id id' : JobId) : (w.modifyJob id f).statusOf id' = w.statusOf id' := by
  show (Function.update w.jobs id ((w.jobs id).map f) id').map (·.status) = (w.jobs id').map (·.status)
  by_cases heq : id' = id
  · rw [heq, Function.update_self]
    cases w.jobs id with
    | none => rfl
    | some job => exact congrArg some (hf job)
  · rw [Function.update_of_ne heq]

theorem perform_steady {o : RelayOp} (h : Steady o) (c : Choice) (w : World) (id : JobId) :
    (perform s c o w).2.statusOf id = w.statusOf id := by
  cases o with
  | updateJob id' values =>
    refine statusOf_modifyJob ?_ id' id
    intro job
    rw [updateJob_status, show values.status = none from h]
    rfl
  | consume id' size =>
    have hkeeps : ∀ job : Job, { job with reservedBytes := job.reservedBytes - size }.status = job.status :=
      fun _ => rfl
    exact statusOf_modifyJob hkeeps id' id
  | updateJobIfStatus | finalizeJob | resumeIfInactive | updateJobIfStatusAndPut | deleteJobRecord
  | removeFiles => exact h.elim
  | writeIntent path intent =>
    simp only [perform]
    split
    · rfl
    · split <;> rfl
  | contentDigest dir =>
    simp only [perform]
    split <;> rfl
  | call c' =>
    simp only [perform]
    cases c' with
    | requireFile dir name =>
      simp only [performCall]
      split <;> rfl
    | extractArchive id' archiveType =>
      simp only [performCall]
      split <;> rfl
    | _ => rfl
  | _ => rfl

section Uses

open Relay

theorem steady_perform {o : RelayOp} (h : Steady o) :
    Uses Steady (Eff.perform (S := RelaySig) o : Relay o.Res) := ⟨h, fun _ => trivial⟩

theorem uses_steadyCall (c : Call) : Uses Steady (Relay.call c) := Uses.perform trivial

theorem uses_steadyConsume (id : JobId) (size : ℕ) : Uses Steady (consume id size) :=
  steady_perform trivial

theorem uses_reserve (id : JobId) (needed : ℕ) : Uses Steady (reserve id needed) := by
  have hset : Steady (.updateJob id { reservedBytes := some needed }) := rfl
  exact Uses.seq (uses_steadyCall _) fun _ => steady_perform hset

theorem uses_steadyCache (datasetRef payloadHash keyId : String) :
    Uses Steady (getReadyDatasetCache s datasetRef payloadHash keyId) := by
  have hread : ∀ datasetRef keyId, Uses Steady (getCurrentDatasetCache datasetRef keyId) :=
    fun _ _ => steady_perform trivial
  have hlast : ∀ datasetRef keyId, Uses Steady (getCurrentLastDatasetJob datasetRef keyId) :=
    fun _ _ => steady_perform trivial
  have hupsert : ∀ row, Uses Steady (upsertDatasetCache row) := fun _ => steady_perform trivial
  have hget : ∀ datasetRef payloadHash keyId, Uses Steady (getDatasetCache datasetRef payloadHash keyId) :=
    fun _ _ _ => steady_perform trivial
  unfold getReadyDatasetCache
  split
  · exact Uses.pure _
  · refine Uses.seq (hread _ _) fun cache => ?_
    rcases cache with _ | cache
    · refine Uses.seq (hlast _ _) fun last => ?_
      rcases last with _ | last
      · exact Uses.pure _
      · dsimp only
        split
        · exact Uses.seq (hupsert _) fun _ => hget _ _ _
        · exact Uses.pure _
    · dsimp only
      split
      · exact Uses.pure _
      · exact Uses.pure _

theorem uses_assembleArchives (id : JobId) (job : Job) (hit : Bool) :
    Uses Steady (assembleArchives id job hit) := by
  refine Uses.seq (uses_reserve id _) fun _ => ?_
  cases hit with
  | true => exact uses_steadyCall _
  | false =>
    refine Uses.seq (uses_steadyCall _) fun _ => ?_
    exact Uses.seq (uses_steadyConsume id _) fun _ => uses_steadyCall _

theorem uses_extractArchives (id : JobId) (hit : Bool) : Uses Steady (extractArchives id hit) := by
  refine Uses.seq (uses_steadyCall _) fun kernelSize => ?_
  cases hit with
  | true =>
    refine Uses.seq (Uses.pure _) fun datasetSize => Uses.seq (uses_reserve id _) fun _ => ?_
    exact Uses.seq (uses_steadyCall _) fun _ => uses_steadyConsume id _
  | false =>
    refine Uses.seq (uses_steadyCall _) fun datasetSize => Uses.seq (uses_reserve id _) fun _ => ?_
    refine Uses.seq (uses_steadyCall _) fun _ => Uses.seq (uses_steadyCall _) fun _ => ?_
    exact uses_steadyConsume id _

theorem uses_prepareMetadataRef (dir : String) (file : MetadataFile) (expectedRef finalDatasetRef : String) :
    Uses Steady (prepareMetadataRef s dir file expectedRef finalDatasetRef) := by
  have hread : Uses Steady (readMetadata dir file) := Uses.perform trivial
  have hwrite : ∀ metadata, Uses Steady (writeMetadata dir file metadata) := fun _ => Uses.perform trivial
  refine Uses.seq hread fun metadata => Uses.seq (Uses.pure _) fun _ => ?_
  dsimp only
  exact Uses.ite (Uses.seq (hwrite _) fun _ => Uses.pure _) (Uses.pure _)

theorem uses_validateKernelPayload (kernelDir kernelRef username datasetRef : String) :
    Uses Steady (validateKernelPayload s kernelDir kernelRef username datasetRef) := by
  refine Uses.seq (uses_steadyCall _) fun _ => ?_
  refine Uses.seq (uses_prepareMetadataRef s _ _ _ _) fun metadata => ?_
  exact Uses.seq (Uses.pure _) fun _ => uses_steadyCall _

theorem uses_validatePayloads (datasetDir kernelDir datasetRef kernelRef username : String) :
    Uses Steady (validatePayloads s datasetDir kernelDir datasetRef kernelRef username) := by
  refine Uses.seq (uses_steadyCall _) fun _ => ?_
  refine Uses.seq (uses_prepareMetadataRef s _ _ _ _) fun metadata => ?_
  exact Uses.seq (Uses.pure _) fun _ => uses_validateKernelPayload s _ _ _ _

/-- The assembly changes no status, and removes nothing. -/
theorem uses_assembleAndValidateJob (id : JobId) (job : Job) :
    Uses Steady (assembleAndValidateJob s id job) := by
  have hrest : ∀ username : String, Uses Steady (do
      let cache ← getReadyDatasetCache s job.datasetRef job.payloadHash job.kaggleKeyId
      let datasetCacheHit := cache.isSome && !awaitingAssignment job
      assembleArchives id job datasetCacheHit
      extractArchives id datasetCacheHit
      if datasetCacheHit then
        validateKernelPayload s (s.kernelDir id) job.kernelRef username job.datasetRef
      else validatePayloads s (s.datasetDir id) (s.kernelDir id) job.datasetRef job.kernelRef
            username : Relay Unit) := by
    intro username
    refine Uses.seq (uses_steadyCache s _ _ _) fun cache => ?_
    refine Uses.seq (uses_assembleArchives id job _) fun _ => ?_
    refine Uses.seq (uses_extractArchives id _) fun _ => ?_
    split
    · exact uses_validateKernelPayload s _ _ _ _
    · exact uses_validatePayloads s _ _ _ _ _
  rw [assembleAndValidateJob]
  split
  · exact hrest ""
  · exact Uses.seq (uses_steadyCall _) fun username => hrest username

end Uses

/-! ### The two drivers -/

/-- The assembly leaves the row where it was. -/
theorem statusOf_assembly {w w₁ : World} {id : JobId} {job : Job} {cs : List Choice} {o : Except Exc Unit}
    (h : Prog.Runs (soloSem s) (Relay.assembleAndValidateJob s id job) cs w o w₁) (id' : JobId) :
    w₁.statusOf id' = w.statusOf id' := by
  have hkeeps : ∀ o, Steady o → ∀ (c : Choice) (v : World) r v', soloSem s o c v = some (r, v') →
      v.statusOf id' = w.statusOf id' → v'.statusOf id' = w.statusOf id' := by
    intro o ho c v r v' hstep hv
    obtain rfl : (perform s c o v).2 = v' := congrArg Prod.snd (Option.some.inj hstep)
    rw [perform_steady s ho, hv]
  exact Uses.runs_inv (J := fun v => v.statusOf id' = w.statusOf id') hkeeps (uses_assembleAndValidateJob s id job) h rfl

theorem statusOf_updateJob {w : World} {id : JobId} {t : ℚ} {values : JobValues} {status before : Status}
    (hstatus : values.status = some status) (hbefore : w.statusOf id = some before) :
    (w.modifyJob id (updateJob t values)).statusOf id = some status := by
  obtain ⟨job, hjob, -⟩ := Option.map_eq_some_iff.mp hbefore
  show (Function.update w.jobs id ((w.jobs id).map (updateJob t values)) id).map (·.status) = _
  rw [Function.update_self, hjob, Option.map_some, Option.map_some, updateJob_status, hstatus]
  rfl

/-- A compare-and-set on a row that is still `assembling`. -/
theorem statusOf_updateIfStatus {w : World} {id : JobId} {t : ℚ} {values : JobValues} {status : Status}
    (hstatus : values.status = some status) (hbefore : w.statusOf id = some .assembling) :
    ∃ w', w.updateIfStatus t id [.assembling] false none values = some w' ∧ w'.statusOf id = some status := by
  obtain ⟨job, hjob, hassembling⟩ := Option.map_eq_some_iff.mp hbefore
  have hset : updateJobIfStatus t [.assembling] false none values job = some (updateJob t values job) := by
    rw [updateJobIfStatus, if_pos ⟨by rw [hassembling]; exact List.mem_singleton_self _, by simp, by simp⟩]
    rfl
  refine ⟨_, by rw [updateIfStatus, hjob, Option.bind_some, hset]; rfl, ?_⟩
  show (Function.update w.jobs id (some (updateJob t values job)) id).map (·.status) = _
  rw [Function.update_self, Option.map_some, updateJob_status, hstatus]
  rfl

/-- What `complete_job` does with the outcome of the assembly. -/
def finishOutcome (id : JobId) (job : Job) : Except Exc Unit → Relay Unit
  | .error e =>
    if e.cls = .capacityError then do
      let _ ← Relay.updateJobIfStatus id [.assembling] false none
        { status := some .receiving, error := some e.text }
      Eff.throw (.http 503 e.text)
    else do
      let message := s.redactSecrets e.text
      let _ ← Relay.updateJobIfStatus id [.assembling] false none
        { status := some .failed, progress := some 0, error := some message }
      Eff.throw (.http 400 message)
  | .ok () => do
    let queueReason := if awaitingAssignment job then
        "waiting for an idle authorized account with GPU quota"
      else "waiting for an available worker"
    let _ ← Relay.updateJobIfStatusAndPut id [.assembling] false
      { status := some .queued, progress := some 15, queueReason := some queueReason
        error := some "" } (!awaitingAssignment job) .process

/-- What `recover_job_after_restart` does with it. -/
def recoverOutcome (id : JobId) : Except Exc Unit → Relay (Option QueueItem)
  | .error e => Relay.failRecoveredJob s id (s.redactSecrets e.text)
  | .ok () => do
    Relay.updateJob id { status := some .queued, progress := some 15, error := some "" }
    pure (some ⟨.process, id⟩)

/-- One operation of a program that runs by itself. -/
theorem alone_op {α : Type} {o : RelayOp} {k : RelaySig.Res o → Relay α} (c : Choice) (cs : List Choice)
    (w : World) :
    alone s (Prog.op o k) (c :: cs) w = alone s (k (perform s c o w).1) cs (perform s c o w).2 := rfl

/-- The assembly by itself, and what is done with its outcome. -/
theorem alone_attempt {w w₁ : World} {p : Relay Unit} {cs : List Choice} {o : Except Exc Unit}
    (h : Prog.Runs (soloSem s) p cs w o w₁) {α : Type} (f : Except Exc Unit → Relay α) (ds : List Choice) :
    alone s (Eff.bind (Eff.attempt p) f) (cs ++ ds) w = alone s (f o) ds w₁ := by
  have hbind := congrArg (fun q => Prog.exec (soloSem s) q (cs ++ ds) w) (Eff.attempt_bind p f)
  exact hbind.trans (h.exec_bind ds)

theorem alone_finishAssembly {w w₁ : World} {id : JobId} {job : Job} {cs : List Choice} {o : Except Exc Unit}
    (hassembly : Prog.Runs (soloSem s) (Relay.assembleAndValidateJob s id job) cs w o w₁)
    {slot : Choice} (hslot : slot.answers (.call .assemblySlot) = .ok ()) (ds : List Choice) :
    alone s (Relay.finishAssembly s id job) (slot :: (cs ++ ds)) w = alone s (finishOutcome s id job o) ds w₁ := by
  have hop : perform s slot (.call .assemblySlot) w = (.ok (), w) := by
    simp only [perform, performCall, hslot]
  -- with the slot held, the assembly starts in the same world
  have hslotted : alone s (Relay.finishAssembly s id job) (slot :: (cs ++ ds)) w =
      alone s (Eff.bind (Eff.attempt (Relay.assembleAndValidateJob s id job)) (finishOutcome s id job))
        (cs ++ ds) w := by
    refine (alone_op s slot (cs ++ ds) w).trans ?_
    rw [hop]
    rfl
  rw [hslotted, alone_attempt s hassembly]

theorem alone_recoverAssembling {w w₁ : World} {id : JobId} {job : Job} {cs : List Choice}
    {o : Except Exc Unit}
    (hassembly : Prog.Runs (soloSem s) (Relay.assembleAndValidateJob s id job) cs w o w₁) (ds : List Choice) :
    alone s (Relay.recoverAssembling s id job) (cs ++ ds) w = alone s (recoverOutcome s id o) ds w₁ :=
  alone_attempt s hassembly (recoverOutcome s id) ds

/-- A compare-and-set from `assembling`, and what ends with it. -/
theorem status_of_set {α : Type} {w : World} {id : JobId} {d : Choice} {values : JobValues} {status : Status}
    {f : Bool → Relay α} (hstatus : values.status = some status) (hbefore : w.statusOf id = some .assembling)
    (hends : ∀ r, ∃ a, f r = Prog.pure a) :
    statusAfter s (Eff.bind (Relay.updateJobIfStatus id [.assembling] false none values) f) [d] w id =
      some status := by
  obtain ⟨w', hset, hafter⟩ := statusOf_updateIfStatus (t := d.answers .now) hstatus hbefore
  have hop : perform s d (.updateJobIfStatus id [.assembling] false none values) w = (true, w') := by
    simp only [perform, hset]
  obtain ⟨a, ha⟩ := hends true
  have hrun : alone s (Eff.bind (Relay.updateJobIfStatus id [.assembling] false none values) f) [d] w =
      alone s (f true) [] w' :=
    congrArg (fun r : Bool × World => alone s (f r.1) [] r.2) hop
  rw [statusAfter, hrun, ha]
  exact hafter

/-- `complete_job` leaves the status that the outcome is to leave. -/
theorem finishOutcome_status {w : World} {id : JobId} (job : Job) (o : Except Exc Unit) (d : Choice)
    (hassembling : w.statusOf id = some .assembling) :
    statusAfter s (finishOutcome s id job o) [d] w id = some (liveStatus o) := by
  have hends : ∀ e : Exc, ∀ r : Bool, ∃ a, (fun _ => Eff.throw e : Bool → Relay Unit) r = Prog.pure a :=
    fun e _ => ⟨.error e, rfl⟩
  match o with
  | .error e =>
    by_cases hcapacity : e.cls = .capacityError
    · rw [finishOutcome, if_pos hcapacity, liveStatus, if_pos hcapacity]
      exact status_of_set s rfl hassembling (hends _)
    · rw [finishOutcome, if_neg hcapacity, liveStatus, if_neg hcapacity]
      exact status_of_set s rfl hassembling (hends _)
  | .ok () =>
    have hwritten : ∃ w', w.updateIfStatus (d.answers .now) id [.assembling] false none
        { status := some .queued, progress := some 15
          queueReason := some (if awaitingAssignment job then
              "waiting for an idle authorized account with GPU quota"
            else "waiting for an available worker")
          error := some "" } = some w' ∧ w'.statusOf id = some .queued :=
      statusOf_updateIfStatus rfl hassembling
    obtain ⟨w', hset, hafter⟩ := hwritten
    show (perform s d (.updateJobIfStatusAndPut id [.assembling] false _ (!awaitingAssignment job) .process)
      w).2.statusOf id = _
    simp only [perform, hset]
    exact hafter

/-- The recovery leaves `failed` on every exception. -/
theorem recoverOutcome_status {w : World} {id : JobId} (o : Except Exc Unit) (d : Choice)
    (hassembling : w.statusOf id = some .assembling) :
    statusAfter s (recoverOutcome s id o) [d] w id =
      some (recoveredStatus o) := by
  match o with
  | .error e => exact statusOf_updateJob rfl hassembling
  | .ok () => exact statusOf_updateJob rfl hassembling

/-- An operation that leaves the files and the record of every job. -/
def Retains : RelayOp → Prop
  | .removeFiles _ | .deleteJobRecord _ => False
  | _ => True

section Retains

open Relay

theorem retains_of_steady {o : RelayOp} (h : Steady o) : Retains o := by
  cases o with
  | removeFiles | deleteJobRecord => exact h
  | _ => trivial

theorem retains_assembleAndValidateJob (id : JobId) (job : Job) :
    Uses Retains (assembleAndValidateJob s id job) :=
  (uses_assembleAndValidateJob s id job).mono fun _ => retains_of_steady

theorem retains_set (id : JobId) (values : JobValues) :
    Uses Retains (Relay.updateJobIfStatus id [.assembling] false none values) := ⟨trivial, fun _ => trivial⟩

/-- `complete_job` keeps the chunks, whatever comes of the assembly. -/
theorem retains_finishAssembly (id : JobId) (job : Job) : Uses Retains (finishAssembly s id job) := by
  have hslot : Uses Retains (Relay.call .assemblySlot) := Uses.perform trivial
  have houtcome : ∀ o, Uses Retains (finishOutcome s id job o) := by
    rintro (e | ⟨⟩)
    · exact Uses.ite (Uses.seq (retains_set id _) fun _ => trivial) (Uses.seq (retains_set id _) fun _ => trivial)
    · exact ⟨trivial, fun _ => trivial⟩
  refine Uses.seq (Uses.attempt hslot) ?_
  rintro (e | ⟨⟩)
  · exact Uses.seq (retains_set id _) fun _ => trivial
  · exact Uses.seq (Uses.attempt (retains_assembleAndValidateJob s id job)) houtcome

/-- So does the recovery. -/
theorem retains_recoverAssembling (id : JobId) (job : Job) : Uses Retains (recoverAssembling s id job) := by
  have houtcome : ∀ o, Uses Retains (recoverOutcome s id o) := by
    rintro (e | ⟨⟩) <;> exact ⟨trivial, fun _ => trivial⟩
  exact Uses.seq (Uses.attempt (retains_assembleAndValidateJob s id job)) houtcome

end Retains

/-- **Assembly after a restart**: `complete_job` and the recovery are given the
same outcome, each of its own run of the assembly.  `complete_job` always leaves
the status that the outcome is to leave; the recovery leaves the same one if and
only if the outcome is no shortage of space.  Neither of them removes anything. -/
theorem restart_assembly_iff {w w₁ v v₁ : World} {id : JobId} {job job' : Job} {cs ds : List Choice}
    {o : Except Exc Unit} {slot : Choice} (c d : Choice)
    (hassembling : w.statusOf id = some .assembling)
    (hslot : slot.answers (.call .assemblySlot) = .ok ())
    (hassembly : Prog.Runs (soloSem s) (Relay.assembleAndValidateJob s id job) cs w o w₁)
    (hrow : v.jobs id = some job') (hcrashed : job'.status = .assembling)
    (hagain : Prog.Runs (soloSem s) (Relay.assembleAndValidateJob s id job') ds v o v₁) :
    statusAfter s (Relay.finishAssembly s id job) (slot :: (cs ++ [c])) w id = some (liveStatus o) ∧
      Uses Retains (Relay.finishAssembly s id job) ∧
      Uses Retains (Relay.recoverJobAfterRestart s id job') ∧
      (statusAfter s (Relay.recoverJobAfterRestart s id job') (ds ++ [d]) v id =
          statusAfter s (Relay.finishAssembly s id job) (slot :: (cs ++ [c])) w id ↔
        ∀ e, o = .error e → e.cls ≠ .capacityError) := by
  have hrecover : Relay.recoverJobAfterRestart s id job' = Relay.recoverAssembling s id job' := by
    simp only [Relay.recoverJobAfterRestart, hcrashed]
  have hlive : statusAfter s (Relay.finishAssembly s id job) (slot :: (cs ++ [c])) w id =
      some (liveStatus o) := by
    rw [statusAfter, alone_finishAssembly s hassembly hslot]
    exact finishOutcome_status s job o c ((statusOf_assembly s hassembly id).trans hassembling)
  have hredone : statusAfter s (Relay.recoverAssembling s id job') (ds ++ [d]) v id =
      some (recoveredStatus o) := by
    have hkept : v.statusOf id = some .assembling := by rw [statusOf, hrow, Option.map_some, hcrashed]
    rw [statusAfter, alone_recoverAssembling s hagain]
    exact recoverOutcome_status s o d ((statusOf_assembly s hagain id).trans hkept)
  refine ⟨hlive, retains_finishAssembly s id job, ?_, ?_⟩
  · rw [hrecover]
    exact retains_recoverAssembling s id job'
  rw [hlive, hrecover, hredone]
  match o with
  | .ok () => exact ⟨fun _ _ => nofun, fun _ => rfl⟩
  | .error e =>
    by_cases hcapacity : e.cls = .capacityError
    · rw [liveStatus, if_pos hcapacity]
      exact ⟨nofun, fun h => absurd hcapacity (h e rfl)⟩
    · rw [liveStatus, if_neg hcapacity]
      refine ⟨fun _ e' h => ?_, fun _ => rfl⟩
      rwa [← Except.error.inj h]

/-! ### An assembly to try -/

/-- A job whose archives are put together. -/
def trialAssembling : List Action := trialCompleted .fixed 5

def diskFull : Exc :=
  ⟨.capacityError, "relay storage is full or below its reserved free-space limit; retry later"⟩

/-- The disk is full. -/
def lacksSpace : Choice where
  answers
    | .call (.checkFree _) => .error diskFull
    | o => succeeds.answers o
  landed := false

/-- What the assembly of the trial gives, before the crash and after it. -/
def trialOutcomes (cs : List Choice) (w : World) :
    Option (Status × List (Option (Except Exc Unit))) :=
  (w.jobs "x").map fun job => (job.status, [w, w.crash].map fun v =>
    (alone trialSettings (Relay.assembleAndValidateJob trialSettings "x" job) cs v).1.result?)

theorem runs_of_trialOutcomes {cs : List Choice} {o : Except Exc Unit}
    (h : (run trialSettings trialAssembling empty).map (trialOutcomes cs) =
      some (some (.assembling, [some o, some o]))) :
    ∃ w job, Reachable trialSettings w ∧ w.jobs "x" = some job ∧ job.status = .assembling ∧
      (∃ ds w₁, Prog.Runs (soloSem trialSettings)
        (Relay.assembleAndValidateJob trialSettings "x" job) ds w o w₁) ∧
      ∃ ds v₁, Prog.Runs (soloSem trialSettings)
        (Relay.assembleAndValidateJob trialSettings "x" job) ds w.crash o v₁ := by
  obtain ⟨w, hw, houtcomes⟩ := Option.map_eq_some_iff.mp h
  obtain ⟨job, hjob, hrow⟩ := Option.map_eq_some_iff.mp houtcomes
  obtain ⟨hlive, hlast⟩ := List.cons.inj (congrArg Prod.snd hrow)
  obtain ⟨hcrashed, -⟩ := List.cons.inj hlast
  exact ⟨w, job, reachable_of_run hw, hjob, congrArg Prod.fst hrow,
    Prog.Runs.of_exec (Prog.result?_eq_some.mp hlive),
    Prog.Runs.of_exec (Prog.result?_eq_some.mp hcrashed)⟩

/-- An assembly that succeeds is requeued by both: by `complete_job`, and after a
crash by the recovery. -/
theorem restart_assembly_trial :
    ∃ w job cs ds, Reachable trialSettings w ∧ Reachable trialSettings w.crash ∧
      w.jobs "x" = some job ∧ job.status = .assembling ∧
      statusAfter trialSettings (Relay.finishAssembly trialSettings "x" job)
        (succeeds :: (cs ++ [succeeds])) w "x" = some .queued ∧
      statusAfter trialSettings (Relay.recoverJobAfterRestart trialSettings "x" job)
        (ds ++ [succeeds]) w.crash "x" = some .queued := by
  have houtcomes : (run trialSettings trialAssembling empty).map
      (trialOutcomes (List.replicate 18 succeeds)) =
        some (some (.assembling, [some (.ok ()), some (.ok ())])) := by decide +kernel
  obtain ⟨w, job, hreach, hjob, hassembling, ⟨cs, w₁, hassembly⟩, ds, v₁, hagain⟩ :=
    runs_of_trialOutcomes houtcomes
  have hstatus : w.statusOf "x" = some .assembling := by rw [statusOf, hjob, Option.map_some, hassembling]
  have hslot : succeeds.answers (.call .assemblySlot) = .ok () := rfl
  have hcrashed : w.crash.jobs "x" = some job := hjob
  obtain ⟨hlive, -, -, hboth⟩ := restart_assembly_iff trialSettings succeeds succeeds hstatus hslot
    hassembly hcrashed hassembling hagain
  refine ⟨w, job, cs, ds, hreach, hreach.step .crash step_crash, hjob, hassembling, hlive, ?_⟩
  exact (hboth.mpr (by rintro _ ⟨⟩)).trans hlive

/-- On a full disk `complete_job` leaves the job to its client, and the recovery
fails it. -/
theorem full_disk_fails_recovery :
    ∃ w job cs ds, Reachable trialSettings w ∧ Reachable trialSettings w.crash ∧
      w.jobs "x" = some job ∧ job.status = .assembling ∧
      (∃ w₁, Prog.Runs (soloSem trialSettings)
        (Relay.assembleAndValidateJob trialSettings "x" job) cs w (.error diskFull) w₁) ∧
      (∃ v₁, Prog.Runs (soloSem trialSettings)
        (Relay.assembleAndValidateJob trialSettings "x" job) ds w.crash (.error diskFull) v₁) ∧
      statusAfter trialSettings (Relay.finishAssembly trialSettings "x" job)
        (succeeds :: (cs ++ [lacksSpace])) w "x" = some .receiving ∧
      statusAfter trialSettings (Relay.recoverJobAfterRestart trialSettings "x" job)
        (ds ++ [lacksSpace]) w.crash "x" = some .failed := by
  have houtcomes : (run trialSettings trialAssembling empty).map
      (trialOutcomes [lacksSpace, lacksSpace]) =
        some (some (.assembling, [some (.error diskFull), some (.error diskFull)])) := by decide +kernel
  obtain ⟨w, job, hreach, hjob, hassembling, ⟨cs, w₁, hassembly⟩, ds, v₁, hagain⟩ :=
    runs_of_trialOutcomes houtcomes
  have hstatus : w.statusOf "x" = some .assembling := by rw [statusOf, hjob, Option.map_some, hassembling]
  have hslot : succeeds.answers (.call .assemblySlot) = .ok () := rfl
  have hcrashed : w.crash.statusOf "x" = some .assembling := hstatus
  refine ⟨w, job, cs, ds, hreach, hreach.step .crash step_crash, hjob, hassembling, ⟨w₁, hassembly⟩,
    ⟨v₁, hagain⟩, ?_, ?_⟩
  · rw [statusAfter, alone_finishAssembly trialSettings hassembly hslot]
    exact finishOutcome_status trialSettings job _ lacksSpace
      ((statusOf_assembly trialSettings hassembly "x").trans hstatus)
  · have hrecover : Relay.recoverJobAfterRestart trialSettings "x" job =
        Relay.recoverAssembling trialSettings "x" job := by
      simp only [Relay.recoverJobAfterRestart, hassembling]
    rw [hrecover, statusAfter, alone_recoverAssembling trialSettings hagain]
    exact recoverOutcome_status trialSettings _ lacksSpace
      ((statusOf_assembly trialSettings hagain "x").trans hcrashed)

end World

end KaggleRelay

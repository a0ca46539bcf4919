/-
What the programs of the relay may write.

Every operation carries the marks of what it writes besides the life of a job:
an upload intent, the account a job is bound to, the schedule of its rechecks,
a metadata file, a push of its kernel.

* `RelayOp.Within M` — an operation whose marks are all in `M`;
* `marked_…` — the marks of each program of the worker, the endpoints, the
  schedulers and the recovery;
* `Stepped` — a step is one operation of a program, or something in memory;
* `performs_within` — a step writes what the programs of its host may write.
-/
import KaggleRelay.Runs

namespace KaggleRelay

open Effects

/-! ### Marks -/

/-- What an operation may write. -/
inductive Mark where
  /-- An upload intent, the Dataset behind it, and the receipt of an upload. -/
  | intent
  /-- The account of a job and its references. -/
  | binding
  /-- The schedule of the rechecks of a job's Dataset. -/
  | recheck
  | metadata
  | push
  deriving DecidableEq

/-- The values say nothing about the account. -/
def JobValues.Unbound (values : JobValues) : Prop :=
  (values.kaggleKeyId, values.assignmentState, values.datasetRef, values.kernelRef) = (none, none, none, none)

/-- The values say nothing about the rechecks. -/
def JobValues.Unscheduled (values : JobValues) : Prop :=
  (values.datasetRecheckState, values.datasetRecheckAt, values.datasetRecheckStartedAt,
    values.datasetRecheckFailures, values.datasetRecheckCount) = (none, none, none, none, none)

/-- The marks that values may not carry are not there. -/
structure JobValues.Within (M : Mark → Prop) (values : JobValues) : Prop where
  binding : ¬M .binding → values.Unbound
  recheck : ¬M .recheck → values.Unscheduled

/-- The marks of the operation are all in `M`. -/
def RelayOp.Within (M : Mark → Prop) : RelayOp → Prop
  | .updateJob _ values | .updateJobIfStatus _ _ _ _ values | .finalizeJob _ _ values
  | .resumeIfInactive _ values _ | .updateJobIfStatusAndPut _ _ _ values _ _ => values.Within M
  | .writeIntent _ _ | .mutateDataset _ _ _ | .printReceipt _ _ => M .intent
  | .writeMetadata _ _ _ => M .metadata
  | .pushKernel _ _ => M .push
  | _ => True

theorem JobValues.Within.withStatus {M : Mark → Prop} {values : JobValues} (h : values.Within M)
    (status : Option Status) : ({ values with status } : JobValues).Within M :=
  ⟨h.binding, h.recheck⟩

theorem JobValues.Within.of_plain {M : Mark → Prop} {values : JobValues} (hb : values.Unbound)
    (hr : values.Unscheduled) : values.Within M := ⟨fun _ => hb, fun _ => hr⟩

theorem JobValues.Within.of_recheck {M : Mark → Prop} {values : JobValues} (hM : M .recheck)
    (hb : values.Unbound) : values.Within M := ⟨fun _ => hb, fun h => absurd hM h⟩

theorem JobValues.Within.mono {M N : Mark → Prop} {values : JobValues} (h : values.Within M)
    (hMN : ∀ m, M m → N m) : values.Within N :=
  ⟨fun hN => h.binding fun hM => hN (hMN _ hM), fun hN => h.recheck fun hM => hN (hMN _ hM)⟩

theorem RelayOp.Within.mono {M N : Mark → Prop} {o : RelayOp} (h : o.Within M) (hMN : ∀ m, M m → N m) :
    o.Within N := by
  cases o with
  | updateJob | updateJobIfStatus | finalizeJob | resumeIfInactive | updateJobIfStatusAndPut =>
    exact JobValues.Within.mono h hMN
  | writeIntent | mutateDataset | printReceipt | writeMetadata | pushKernel => exact hMN _ h
  | _ => trivial

namespace Relay

section Within

variable {s : Settings} {M : Mark → Prop} {α : Type}

-- what the marks of a program are does not depend on how a status is read
attribute [local irreducible] Settings.readyDatasetVersion Settings.isReadyDatasetStatus

/-- The program stays within the marks. -/
abbrev Marked (M : Mark → Prop) (p : Relay α) : Prop :=
  Uses (S := RelaySig) (RelayOp.Within M) (p : Prog RelaySig (Except Exc α))

theorem marked_perform {o : RelayOp} (h : o.Within M) : Marked M (Eff.perform (S := RelaySig) o : Relay o.Res) :=
  ⟨h, fun _ => trivial⟩

theorem marked_call (c : Call) : Marked M (call c) := Uses.perform trivial

theorem marked_getJob (id : JobId) : Marked M (getJob id) := marked_perform trivial

theorem marked_updateJob {id : JobId} {values : JobValues} (h : values.Within M) :
    Marked M (updateJob id values) := marked_perform h

theorem marked_updateJobIfStatus {id : JobId} {expected : List Status} {nc : Bool} {ek : Option String}
    {values : JobValues} (h : values.Within M) : Marked M (updateJobIfStatus id expected nc ek values) :=
  marked_perform h

theorem marked_finalizeJob {id : JobId} {preferred : Status} {values : JobValues} (h : values.Within M) :
    Marked M (finalizeJob id preferred values) := marked_perform h

theorem marked_put {id : JobId} {expected : List Status} {nc put : Bool} {values : JobValues}
    {action : QueueAction} (h : values.Within M) :
    Marked M (updateJobIfStatusAndPut id expected nc values put action) := marked_perform h

theorem marked_now : Marked M now := marked_perform trivial

theorem marked_contentDigest (dir : String) : Marked M (contentDigest dir) := Uses.perform trivial

theorem marked_readIntent (path : String) : Marked M (readIntent path) := Uses.perform trivial

theorem marked_ofVerify {β : Type} (p : Prog VerifySig β) :
    Uses (S := RelaySig) (RelayOp.Within M) (ofVerify p) := by
  induction p with
  | pure a => trivial
  | op o k ih => exact ⟨trivial, fun r => ih r⟩
  | stuck => trivial

theorem marked_sdkCall {failed : Exc → Exc} {p : Relay α} (hp : Marked M p) : Marked M (sdkCall failed p) := by
  induction p with
  | pure r =>
    refine ⟨trivial, fun r => ?_⟩
    rcases r with _ | e <;> trivial
  | op o k ih =>
    rw [Relay.sdkCall]
    refine ⟨trivial, fun r => ?_⟩
    rcases r with _ | e
    · exact ⟨hp.1, fun r => ih r (hp.2 r)⟩
    · trivial
  | stuck =>
    refine ⟨trivial, fun r => ?_⟩
    rcases r with _ | e <;> trivial

/-! ### Files and metadata -/

theorem marked_pinKernelDatasetVersion (hM : M .metadata) (kernelDir datasetRef : String) (version : ℤ) :
    Marked M (pinKernelDatasetVersion s kernelDir datasetRef version) := by
  have hread : Marked M (readMetadata kernelDir .kernel) := Uses.perform trivial
  unfold pinKernelDatasetVersion
  refine Uses.ite (Uses.pure _) (Uses.seq (marked_call _) fun _ => Uses.seq hread fun metadata => ?_)
  split
  · exact Uses.perform hM
  · exact Uses.pure _

theorem marked_prepareMetadataRef (hM : M .metadata) (dir : String) (file : MetadataFile)
    (expectedRef finalDatasetRef : String) : Marked M (prepareMetadataRef s dir file expectedRef finalDatasetRef) := by
  have hread : Marked M (readMetadata dir file) := Uses.perform trivial
  have hwrite : ∀ metadata, Marked M (writeMetadata dir file metadata) := fun _ => Uses.perform hM
  refine Uses.seq hread fun metadata => Uses.seq (Uses.pure _) fun _ => ?_
  dsimp only
  exact Uses.ite (Uses.seq (hwrite _) fun _ => Uses.pure _) (Uses.pure _)

theorem marked_validateKernelPayload (hM : M .metadata) (kernelDir kernelRef username datasetRef : String) :
    Marked M (validateKernelPayload s kernelDir kernelRef username datasetRef) :=
  Uses.seq (marked_call _) fun _ => Uses.seq (marked_prepareMetadataRef hM _ _ _ _) fun _ =>
    Uses.seq (Uses.pure _) fun _ => marked_call _

theorem marked_validatePayloads (hM : M .metadata) (datasetDir kernelDir datasetRef kernelRef username : String) :
    Marked M (validatePayloads s datasetDir kernelDir datasetRef kernelRef username) :=
  Uses.seq (marked_call _) fun _ => Uses.seq (marked_prepareMetadataRef hM _ _ _ _) fun _ =>
    Uses.seq (Uses.pure _) fun _ => marked_validateKernelPayload hM _ _ _ _

theorem marked_getReadyDatasetCache (datasetRef payloadHash keyId : String) :
    Marked M (getReadyDatasetCache s datasetRef payloadHash keyId) := by
  unfold getReadyDatasetCache
  split
  · exact Uses.pure _
  · refine Uses.seq (marked_perform trivial) fun cache => ?_
    rcases cache with _ | cache
    · refine Uses.seq (marked_perform trivial) fun last => ?_
      rcases last with _ | last
      · exact Uses.pure _
      · exact Uses.ite (Uses.seq (marked_perform trivial) fun _ => marked_perform trivial) (Uses.pure _)
    · exact Uses.ite (Uses.pure _) (Uses.pure _)

/-! ### Verifying a version -/

theorem marked_verifyDatasetContent (receipt : DatasetUploadReceipt) (datasetRef : String)
    (background : Bool) : Marked M (verifyDatasetContent s receipt datasetRef background) := by
  refine marked_sdkCall ?_
  refine Uses.seq (Uses.pure _) fun _ => Uses.seq (marked_contentDigest _) fun _ => Uses.seq (Uses.pure _) fun _ =>
    Uses.seq (marked_call _) fun _ => Uses.seq ?_ fun scope => Uses.seq (marked_contentDigest _) fun _ =>
    Uses.seq (Uses.pure _) fun _ => Uses.seq (marked_ofVerify _) fun _ => ?_
  · refine Uses.seq (marked_call _) fun available => ?_
    cases available with
    | true => exact Uses.seq (marked_call _) fun _ => Uses.pure _
    | false => exact Uses.seq (marked_ofVerify _) fun _ => Uses.pure _
  · rcases scope with _ | scope
    · exact Uses.pure _
    · exact marked_ofVerify _

theorem marked_backoff {cancelCheck : Relay Unit} (hc : Marked M cancelCheck) (wakeAt : ℚ) (n : ℕ) :
    Marked M ((waitActions s cancelCheck).backoff wakeAt n) := by
  induction n with
  | zero => trivial
  | succ n ih =>
    refine Uses.seq (marked_perform trivial) fun t => Uses.ite (Uses.pure _) ?_
    exact Uses.seq (marked_call _) fun _ => Uses.seq hc fun _ => Uses.seq (marked_perform trivial) fun _ =>
      Uses.seq (marked_call _) fun _ => ih

theorem marked_retryTransient {cancelCheck : Relay Unit} (hc : Marked M cancelCheck) (grace : ℤ)
    (elapsed : ℚ) (failure : Failure) (detail : String) (st : WaitState) :
    Marked M ((waitActions s cancelCheck).retryTransient grace elapsed failure detail st) := by
  have htail : ∀ deadline, Marked M (do
      let attempts := st.transientAttempts + 1
      let now ← (waitActions s cancelCheck).monotonic
      let remaining := min (deadline - now) (grace - elapsed)
      let jitter ← (waitActions s cancelCheck).uniform
      let delay := max (failure.retryAfter.getD 0) (min 60 (5 * 2 ^ min (attempts - 1) 4) + jitter)
      Eff.raiseIf (5 < attempts ∨ remaining ≤ delay)
        (retryExhausted (Text.lastChars 1200 detail) failure.httpStatus failure.retryAfter)
      let now ← (waitActions s cancelCheck).monotonic
      let turns ← (waitActions s cancelCheck).turns
      (waitActions s cancelCheck).backoff (now + delay) turns
      pure { st with transientAttempts := attempts, retryDeadline := some deadline } :
        Relay WaitState) := fun deadline =>
    Uses.seq (marked_perform trivial) fun _ => Uses.seq (marked_perform trivial) fun _ =>
      Uses.seq (Uses.pure _) fun _ => Uses.seq (marked_perform trivial) fun _ =>
      Uses.seq (marked_perform trivial) fun n => Uses.seq (marked_backoff hc _ n) fun _ => Uses.pure _
  unfold WaitActions.retryTransient
  split
  · exact htail _
  · exact Uses.seq (marked_perform trivial) fun _ => htail _

theorem marked_retryVerification {cancelCheck : Relay Unit} (hc : Marked M cancelCheck)
    (pollSeconds visibilityGrace grace version : ℤ) (background : Bool) (e : Exc) (st : WaitState) :
    Marked M ((waitActions s cancelCheck).retryVerification s.redactSecrets pollSeconds visibilityGrace grace
      version background e st) := by
  refine Uses.seq (marked_perform trivial) fun t => ?_
  dsimp only
  refine Uses.ite (Uses.pure _) (Uses.ite ?_ (Uses.ite ?_ (Uses.ite ?_ (Uses.pure _))))
  · exact Uses.seq (Uses.pure _) fun _ => Uses.seq (marked_call _) fun _ => Uses.pure _
  · exact Uses.seq (Uses.pure _) fun _ => Uses.seq (marked_call _) fun _ => Uses.pure _
  · exact marked_retryTransient hc _ _ _ _ _

theorem marked_retryRemaining (cancelCheck : Relay Unit) (st : WaitState) :
    Marked M ((waitActions s cancelCheck).retryRemaining st) := by
  unfold WaitActions.retryRemaining
  split
  · exact Uses.pure _
  · exact Uses.seq (marked_perform trivial) fun _ => Uses.seq (Uses.pure _) fun _ => Uses.pure _

theorem marked_waitTurns {cancelCheck : Relay Unit} (hc : Marked M cancelCheck)
    (pollSeconds visibilityGrace grace : ℤ) (datasetRef : String) (receipt : DatasetUploadReceipt)
    (background : Bool) (n : ℕ) (st : WaitState) :
    Marked M ((waitActions s cancelCheck).waitTurns s.redactSecrets pollSeconds visibilityGrace grace datasetRef
      receipt background n st) := by
  induction n generalizing st with
  | zero => trivial
  | succ n ih =>
    refine Uses.seq (marked_call _) fun _ => Uses.seq hc fun _ => Uses.seq (marked_retryRemaining _ _) fun _ =>
      Uses.seq ?_ fun _ => Uses.seq (Uses.attempt (marked_verifyDatasetContent _ _ _)) fun verified =>
      Uses.seq (marked_perform trivial) fun _ => ?_
    · exact Uses.seq (marked_perform trivial) fun _ => Uses.seq (Uses.pure _) fun _ => Uses.pure _
    · rcases verified with e | _
      · exact Uses.seq (marked_retryVerification hc _ _ _ _ _ _ _) fun st' => ih st'
      · exact Uses.pure _

theorem marked_waitDataset {cancelCheck : Relay Unit} (hc : Marked M cancelCheck) (datasetRef : String)
    (receipt : DatasetUploadReceipt) (background : Bool) :
    Marked M (waitDataset s cancelCheck datasetRef receipt background) :=
  Uses.seq (marked_perform trivial) fun _ => Uses.seq (marked_perform trivial) fun _ =>
    marked_waitTurns hc _ _ _ _ _ _ _ _

/-! ### The worker -/

theorem marked_updateFinishStatus (id : JobId) (running : Status) {valuesForJob : Job → JobValues}
    (h : ∀ job, (valuesForJob job).Within M) (attempts : ℕ) :
    Marked M (updateFinishStatus s id running valuesForJob attempts) := by
  induction attempts with
  | zero => trivial
  | succ attempts ih =>
    refine Uses.seq (marked_getJob _) fun current => ?_
    rcases current with _ | current
    · exact Uses.pure _
    · refine Uses.ite (Uses.pure _) (Uses.seq (Uses.pure _) fun _ => Uses.ite (Uses.pure _) ?_)
      exact Uses.seq (marked_updateJobIfStatus ((h current).withStatus _)) fun _ =>
        Uses.ite (marked_getJob _) ih

theorem marked_reportProgress (id : JobId) (remoteProgress : ℚ) (data : String) :
    Marked M (reportProgress s id remoteProgress data) := by
  refine Uses.seq (marked_updateFinishStatus _ _ ?_ _) fun _ => Uses.pure _
  exact fun _ => .of_plain rfl rfl

theorem marked_waitKernel (id : JobId) (kernelRef : String) (turns : ℕ) :
    Marked M (waitKernel s id kernelRef turns) := by
  induction turns with
  | zero => trivial
  | succ turns ih =>
    refine Uses.seq (marked_call _) fun observed => ?_
    rcases observed with _ | ⟨output, progress, finished⟩
    · exact ih
    · rcases progress with _ | ⟨remote, data⟩
      · rcases finished with _ | _ | _
        · exact ih
        · exact Uses.pure _
        · exact Uses.pure _
      · refine Uses.seq (marked_reportProgress _ _ _) fun _ => ?_
        rcases finished with _ | _ | _
        · exact ih
        · exact Uses.pure _
        · exact Uses.pure _

theorem marked_kernelWaitFailed (id : JobId) (e : Exc) : Marked M (kernelWaitFailed s id e) := by
  refine Uses.ite (Uses.seq (marked_getJob _) fun _ => Uses.ite (Uses.pure _) ?_) (Uses.pure _)
  exact Uses.seq (marked_updateJob (.of_plain rfl rfl)) fun _ => Uses.pure _

theorem marked_finishKernelJob (id : JobId) (finalStatus : Option Status) :
    Marked M (finishKernelJob s id finalStatus) := by
  have hplain : ∀ (progress : ℚ) (kernelStatus error artifactPath : Option String),
      ({ progress := some progress, kernelStatus, error, artifactPath } : JobValues).Within M :=
    fun _ _ _ _ => .of_plain rfl rfl
  exact Uses.seq (marked_updateFinishStatus _ _ (fun _ => hplain _ _ _ _) _) fun _ => Uses.seq (Uses.pure _) fun _ =>
    Uses.seq (marked_perform trivial) fun _ =>
    Uses.seq (Uses.tryCatch (marked_waitKernel _ _ _) fun _ => marked_kernelWaitFailed _ _) fun _ =>
    Uses.seq (marked_getJob _) fun _ => Uses.seq (marked_updateJob (hplain _ _ _ _)) fun _ =>
    Uses.seq (marked_updateFinishStatus _ _ (fun _ => hplain _ _ _ _) _) fun _ => Uses.seq (marked_call _) fun _ =>
    Uses.seq (marked_call _) fun _ => Uses.seq (marked_finalizeJob (hplain _ _ _ _)) fun _ => Uses.pure _

theorem marked_resumeKernelJob (id : JobId) (finalStatus : Option Status) :
    Marked M (resumeKernelJob s id finalStatus) := by
  refine Uses.seq (marked_getJob _) fun job => ?_
  rcases job with _ | job
  · exact Uses.pure _
  · exact Uses.seq (marked_call _) fun _ => marked_finishKernelJob _ _

theorem marked_latestJob (id : JobId) (job : Job) : Marked M (latestJob id job) :=
  Uses.seq (marked_getJob _) fun _ => Uses.pure _

theorem marked_stopIfCancelRequested (id : JobId) (job : Job) : Marked M (stopIfCancelRequested id job) :=
  Uses.seq (marked_latestJob _ _) fun _ => Uses.pure _

theorem marked_transitionBeforeSubmission (id : JobId) (job : Job) (expected : List Status) (status : Status)
    (progress : ℚ) : Marked M (transitionBeforeSubmission id job expected status progress) := by
  refine Uses.seq (marked_updateJobIfStatus (.of_plain rfl rfl)) fun _ => ?_
  refine Uses.ite (Uses.pure _) (Uses.seq (marked_stopIfCancelRequested _ _) fun _ => ?_)
  exact Uses.seq (marked_latestJob _ _) fun _ => Uses.pure _

theorem marked_checkRetained (id : JobId) (job : Job) (saved : Option Intent) :
    Marked M (checkRetained s id job saved) := by
  rcases saved with _ | intent
  · exact Uses.pure _
  · exact Uses.seq (Uses.pure _) fun _ => Uses.seq (marked_contentDigest _) fun _ => Uses.seq (Uses.pure _) fun _ =>
      Uses.pure _

theorem marked_reuseDataset (hM : M .metadata) (id : JobId) (job : Job) (username : String) (cache : DatasetCache) :
    Marked M (reuseDataset s id job username cache) := by
  refine Uses.seq (marked_perform trivial) fun _ => Uses.seq (marked_perform trivial) fun _ =>
    Uses.seq (Uses.pure _) fun _ => Uses.seq (marked_validateKernelPayload hM _ _ _ _) fun _ =>
    Uses.seq (marked_contentDigest _) fun _ => ?_
  split
  · exact Uses.pure _
  · refine Uses.seq (marked_waitDataset (marked_stopIfCancelRequested _ _) _ _ _) fun _ =>
      Uses.seq (marked_pinKernelDatasetVersion hM _ _ _) fun _ => ?_
    exact marked_updateJob (.of_plain rfl rfl)

theorem marked_recordDataset (hM : M .metadata) (id : JobId) (job : Job) (datasetStatus : String) :
    Marked M (recordDataset s id job datasetStatus) := by
  unfold recordDataset
  split
  · exact Uses.pure _
  · have hcache : ∀ row, Marked M (upsertDatasetCache row) := fun _ => marked_perform trivial
    have hlast : ∀ row, Marked M (upsertLastDatasetJob row) := fun _ => marked_perform trivial
    refine Uses.seq (marked_pinKernelDatasetVersion hM _ _ _) fun _ => ?_
    split
    · exact Uses.seq (hcache _) fun _ => hlast _
    · exact Uses.pure _

theorem marked_retainedCandidate (id : JobId) (job : Job) (retainedCandidateOnly : Bool)
    (saved : Option Intent) : Marked M (retainedCandidate s id job retainedCandidateOnly saved) :=
  Uses.ite (Uses.seq (marked_checkRetained _ _ _) fun _ => Uses.pure _) (Uses.pure _)

theorem marked_failJob (id : JobId) (current : Job) (e : Exc) : Marked M (failJob s id current e) :=
  Uses.seq (marked_finalizeJob (.of_plain rfl rfl)) fun _ => Uses.pure _

theorem marked_intentForRecovery (id : JobId) (datasetRef : String) :
    Marked M (intentForRecovery s id datasetRef) :=
  Uses.tryCatch (marked_readIntent _) fun _ => Uses.ite (Uses.pure _) (Uses.pure _)

theorem marked_handleCanceled (id : JobId) (job : Job) (e : Exc) : Marked M (handleCanceled s id job e) := by
  have hfinish : ∀ reason : String, Marked M (do
      let _ ← finalizeJob id .canceled { error := some (s.redactSecrets reason) } : Relay Unit) := fun reason =>
    Uses.seq (marked_finalizeJob (.of_plain rfl rfl)) fun _ => Uses.pure _
  refine Uses.ite (hfinish _) ?_
  exact Uses.seq (marked_latestJob _ _) fun _ => hfinish _

theorem marked_markWorkerException (id : JobId) (e : Exc) : Marked M (markWorkerException s id e) := by
  refine Uses.seq (marked_getJob _) fun _ => Uses.ite (Uses.pure _) (Uses.ite ?_ (Uses.seq ?_ fun _ => Uses.pure _))
  · exact marked_updateJob (.of_plain rfl rfl)
  · exact marked_finalizeJob (.of_plain rfl rfl)

/-! ### Rechecks -/

theorem marked_scheduleRecheck (hM : M .recheck) (id : JobId) (retryAfter now? : Option ℚ) (progress : Bool) :
    Marked M (scheduleRecheck s id retryAfter now? progress) := by
  have hat : ∀ t, Marked M (scheduleRecheck s id retryAfter (some t) progress) := by
    intro t
    refine Uses.seq (Uses.pure _) fun _ => Uses.seq (marked_getJob _) fun job => ?_
    rcases job with _ | job
    · exact Uses.pure _
    · refine Uses.ite (Uses.pure _) (Uses.seq ?_ fun _ => Uses.pure _)
      exact marked_updateJobIfStatus (.of_recheck hM rfl)
  rcases now? with _ | t
  · exact Uses.seq marked_now hat
  · exact hat t

theorem marked_blockRecheck (hM : M .recheck) (id : JobId) (reason : String) :
    Marked M (blockRecheck id reason) :=
  Uses.seq (marked_updateJobIfStatus (.of_recheck hM rfl)) fun _ => Uses.pure _

theorem marked_parkJob (hM : M .recheck) (id : JobId) (e : Exc) : Marked M (parkJob s id e) := by
  refine Uses.seq (marked_updateJob (.of_plain rfl rfl)) fun _ => ?_
  exact Uses.ite (marked_scheduleRecheck hM _ _ _ _) (marked_blockRecheck hM _ _)

theorem marked_handleFailure (hM : M .recheck) (id : JobId) (job : Job) (e : Exc) :
    Marked M (handleFailure s id job e) := by
  refine Uses.seq (marked_latestJob _ _) fun _ => Uses.ite ?_ (marked_failJob _ _ _)
  exact Uses.seq (marked_intentForRecovery _ _) fun _ => Uses.ite (marked_parkJob hM _ _) (marked_failJob _ _ _)

theorem marked_handleException (hM : M .recheck) (id : JobId) (job : Job) (e : Exc) :
    Marked M (handleException s id job e) := by
  unfold handleException
  split
  · exact Uses.pure _
  · exact Uses.pure _
  · exact marked_handleCanceled _ _ _
  · exact marked_handleFailure hM _ _ _

/-! ### Uploads -/

theorem marked_settleUpload (hM : M .intent) (path : String) (intent : Intent) (response : MutationResponse) :
    Marked M (settleUpload s path intent response) := by
  have hwrite : ∀ intent, Marked M (writeIntent path intent) := fun _ => Uses.perform hM
  refine Uses.seq (Uses.pure _) fun _ => Uses.ite (Uses.seq (hwrite _) fun _ => Uses.pure _) ?_
  exact Uses.seq (marked_contentDigest _) fun _ => Uses.seq (Uses.pure _) fun _ => hwrite _

theorem marked_submitDataset (hM : M .intent) (datasetDir datasetRef digest : String) :
    Marked M (submitDataset s datasetDir datasetRef digest) := by
  have hmutate : ∀ operation, Marked M (mutateDataset operation datasetDir datasetRef) := fun _ => Uses.perform hM
  refine Uses.seq (marked_call _) fun _ => Uses.seq (marked_call _) fun _ => Uses.seq (marked_call _) fun _ =>
    Uses.seq (marked_call _) fun existing => Uses.seq ?_ fun _ => Uses.seq (Uses.perform hM) fun _ =>
    Uses.seq (Uses.tryCatch (hmutate _) fun _ => Uses.pure _) fun _ =>
    Uses.seq (marked_settleUpload hM _ _ _) fun _ => Uses.pure _
  exact Uses.ite (Uses.seq (marked_call _) fun _ => Uses.seq (Uses.pure _) fun _ => Uses.pure _) (Uses.pure _)

theorem marked_uploadDataset (hM : M .intent) (datasetDir datasetRef : String) :
    Marked M (uploadDataset s datasetDir datasetRef) := by
  refine marked_sdkCall (Uses.seq ?_ fun _ => Uses.seq (marked_perform hM) fun _ => Uses.pure _)
  refine Uses.seq (marked_call _) fun _ => Uses.seq (marked_call _) fun _ => Uses.seq (marked_contentDigest _) fun _ =>
    Uses.seq (marked_readIntent _) fun intent => ?_
  rcases intent with _ | intent
  · exact marked_submitDataset hM _ _ _
  · exact Uses.seq (Uses.pure _) fun _ => Uses.seq (Uses.pure _) fun _ => Uses.seq (marked_call _) fun _ => Uses.pure _

theorem marked_datasetReceipt (hM : M .intent) (id : JobId) (job : Job) (retained : Option Intent) :
    Marked M (datasetReceipt s id job retained) := by
  rcases retained with _ | intent
  · refine Uses.seq (marked_transitionBeforeSubmission _ _ _ _ _) fun _ => ?_
    exact Uses.seq (marked_uploadDataset hM _ _) fun _ =>
      Uses.seq (marked_transitionBeforeSubmission _ _ _ _ _) fun _ => Uses.pure _
  · exact Uses.seq (marked_transitionBeforeSubmission _ _ _ _ _) fun _ => Uses.pure _

/-! ### A job -/

/-- What is known once a version has verified. -/
theorem within_verified (hM : M .recheck) (datasetStatus : String) :
    ({ datasetStatus := some datasetStatus, progress := some 40, datasetRecheckState := some .none
       datasetRecheckAt := some none, queueReason := some "", error := some "" } : JobValues).Within M :=
  .of_recheck hM rfl

theorem marked_pushJob (hP : M .push) (id : JobId) (job : Job) : Marked M (do
      call (.applyPolicies (s.kernelDir id) (contractOf job))
      transitionBeforeSubmission id job [.queued, .waitingDataset] .pushingKernel 45
      pushKernel id (s.kernelDir id) : Relay Unit) :=
  Uses.seq (marked_call _) fun _ => Uses.seq (marked_transitionBeforeSubmission _ _ _ _ _) fun _ =>
    Uses.perform hP

theorem marked_provideDataset (hI : M .intent) (hR : M .recheck) (hM : M .metadata) (id : JobId) (job : Job)
    (username : String) (retained : Option Intent) : Marked M (provideDataset s id job username retained) := by
  refine Uses.seq (marked_stopIfCancelRequested _ _) fun _ => ?_
  refine Uses.seq (marked_validatePayloads hM _ _ _ _ _) fun _ => ?_
  refine Uses.seq (marked_datasetReceipt hI _ _ _) fun _ => ?_
  refine Uses.seq (marked_waitDataset (marked_stopIfCancelRequested _ _) _ _ _) fun datasetStatus => ?_
  refine Uses.seq (marked_updateJob (within_verified hR datasetStatus)) fun _ => ?_
  exact Uses.seq (marked_stopIfCancelRequested _ _) fun _ => marked_recordDataset hM _ _ _

theorem marked_prepareDataset (hI : M .intent) (hR : M .recheck) (hM : M .metadata) (id : JobId) (job : Job)
    (username : String) (saved : Option Intent) (cache : Option DatasetCache) (retained : Option Intent) :
    Marked M (prepareDataset s id job username saved cache retained) := by
  unfold prepareDataset
  split
  · exact marked_reuseDataset hM _ _ _ _
  · exact marked_provideDataset hI hR hM _ _ _ _

theorem marked_submitKernel (hI : M .intent) (hR : M .recheck) (hM : M .metadata) (hP : M .push) (id : JobId)
    (job : Job) (username : String) (retainedCandidateOnly : Bool) :
    Marked M (submitKernel s id job username retainedCandidateOnly) := by
  refine Uses.seq (marked_stopIfCancelRequested _ _) fun _ => Uses.seq (Uses.pure _) fun _ => ?_
  refine Uses.seq (marked_call _) fun _ => Uses.seq (marked_getReadyDatasetCache _ _ _) fun _ => ?_
  refine Uses.seq (marked_readIntent _) fun _ => Uses.seq (marked_retainedCandidate _ _ _ _) fun _ => ?_
  exact Uses.seq (marked_prepareDataset hI hR hM _ _ _ _ _ _) fun _ => marked_pushJob hP _ _

theorem marked_withDatasetLock {datasetRef : String} {body : Relay α} (h : Marked M body) :
    Marked M (withDatasetLock datasetRef body) :=
  Uses.seq (marked_call _) fun _ => Uses.seq (Uses.attempt h) fun _ => Uses.seq (marked_perform trivial) fun _ =>
    Uses.pure _

theorem marked_processJob (hI : M .intent) (hR : M .recheck) (hM : M .metadata) (hP : M .push) (id : JobId)
    (retainedCandidateOnly : Bool) : Marked M (processJob s id retainedCandidateOnly) := by
  refine Uses.seq (marked_getJob _) fun job => ?_
  rcases job with _ | job
  · exact Uses.pure _
  · refine Uses.tryCatch ?_ fun _ => marked_handleException hR _ _ _
    refine Uses.seq (marked_call _) fun _ => Uses.seq (marked_call _) fun _ => Uses.seq ?_ fun _ =>
      marked_finishKernelJob _ _
    exact marked_withDatasetLock (marked_submitKernel hI hR hM hP _ _ _ _)

theorem marked_runWorkerItem (hI : M .intent) (hR : M .recheck) (hM : M .metadata) (hP : M .push) (id : JobId)
    (action : QueueAction) : Marked M (runWorkerItem s id action) := by
  refine Uses.seq (marked_updateJob (.of_plain rfl rfl)) fun _ =>
    Uses.tryCatch ?_ fun _ => marked_markWorkerException _ _
  rcases action with _ | _ | finalStatus
  · exact marked_processJob hI hR hM hP _ _
  · exact marked_processJob hI hR hM hP _ _
  · exact marked_resumeKernelJob _ _

/-! ### The service -/

theorem marked_getAuthorizedJob (id : JobId) (authorized : Bool) : Marked M (getAuthorizedJob id authorized) := by
  refine Uses.seq (marked_getJob _) fun job => ?_
  rcases job with _ | job
  · exact Uses.pure _
  · exact Uses.ite (Uses.pure _) (Uses.pure _)

theorem marked_requestJobCancel (id : JobId) (attempts : ℕ) (job : Job) :
    Marked M (requestJobCancel id attempts job) := by
  induction attempts generalizing job with
  | zero => trivial
  | succ attempts ih =>
    refine Uses.ite (Uses.pure _) (Uses.ite (Uses.pure _) (Uses.seq marked_now fun _ => Uses.seq ?_ fun _ =>
      Uses.ite (Uses.pure _) (Uses.seq (marked_getJob _) fun job => ?_)))
    · refine marked_updateJobIfStatus (.of_plain ?_ ?_) <;> unfold cancelValues
      · split <;> rfl
      · split <;> rfl
    · rcases job with _ | job
      · exact Uses.pure _
      · exact ih job

theorem marked_cancelJob (id : JobId) (authorized : Bool) : Marked M (cancelJob id authorized) :=
  Uses.seq (marked_getAuthorizedJob _ _) fun _ => marked_requestJobCancel _ _ _

theorem marked_storeProgress (id : JobId) (data : String) (payload : ProgressRequest) (attempts : ℕ) :
    Marked M (storeProgress s id data payload attempts) := by
  induction attempts with
  | zero => trivial
  | succ attempts ih =>
    refine Uses.seq (marked_getJob _) fun current => ?_
    rcases current with _ | current
    · exact Uses.pure _
    · refine Uses.seq (Uses.pure _) fun _ => Uses.ite (Uses.pure _) (Uses.seq ?_ fun _ => Uses.ite (Uses.pure _) ih)
      exact marked_updateJobIfStatus (.of_plain rfl rfl)

theorem marked_updateJobProgress (id : JobId) (authorized : Bool) (payload : ProgressRequest) :
    Marked M (updateJobProgress s id authorized payload) := by
  refine Uses.seq (marked_getJob _) fun job => ?_
  rcases job with _ | job
  · exact Uses.pure _
  · exact Uses.seq (Uses.pure _) fun _ => Uses.seq (Uses.pure _) fun _ => Uses.seq (Uses.pure _) fun _ =>
      Uses.ite (Uses.pure _) (marked_storeProgress _ _ _ _)

theorem marked_expireReceivingUpload (id : JobId) (job : Job) : Marked M (expireReceivingUpload s id job) := by
  refine Uses.seq marked_now fun _ => Uses.ite (Uses.pure _) (Uses.seq ?_ fun _ => Uses.pure _)
  exact marked_updateJobIfStatus (.of_plain rfl rfl)

theorem marked_rejectExpiredUpload (id : JobId) (job : Job) : Marked M (rejectExpiredUpload s id job) :=
  Uses.seq (marked_expireReceivingUpload _ _) fun _ => Uses.pure _

theorem marked_uploadChunk (id : JobId) (authorized : Bool) : Marked M (uploadChunk s id authorized) :=
  Uses.seq (marked_getAuthorizedJob _ _) fun _ => marked_rejectExpiredUpload _ _

theorem marked_cleanupExpiredJob (id : JobId) : Marked M (cleanupExpiredJob id) := by
  refine Uses.seq (marked_getJob _) fun job => ?_
  rcases job with _ | job
  · exact Uses.pure _
  · refine Uses.ite (Uses.pure _) (Uses.seq (Uses.perform trivial) fun _ => Uses.seq marked_now fun _ => ?_)
    exact marked_updateJob (.of_plain rfl rfl)

theorem marked_cleanupJob (id : JobId) (stale : Bool) (receivingCutoff : ℚ) :
    Marked M (cleanupJob s id stale receivingCutoff) := by
  refine Uses.seq (marked_getJob _) fun job => ?_
  rcases job with _ | job
  · exact Uses.pure _
  · refine Uses.ite (Uses.pure _) (Uses.seq (marked_expireReceivingUpload _ _) fun _ =>
      Uses.seq (marked_perform trivial) fun _ => Uses.seq (marked_perform trivial) fun _ => Uses.ite (Uses.pure _)
      (Uses.ite (Uses.ite (Uses.pure _) (Uses.seq marked_now fun _ => Uses.seq ?_ fun _ =>
      Uses.ite (marked_cleanupExpiredJob _) (Uses.pure _))) (marked_cleanupExpiredJob _)))
    exact marked_updateJobIfStatus (.of_plain rfl rfl)

theorem marked_deleteJob (id : JobId) (authorized : Bool) : Marked M (deleteJob id authorized) :=
  Uses.seq (marked_getAuthorizedJob _ _) fun _ => Uses.seq (Uses.pure _) fun _ =>
    Uses.seq (marked_perform trivial) fun _ => Uses.seq (Uses.pure _) fun _ =>
    Uses.seq (marked_perform trivial) fun _ =>
    Uses.seq (Uses.pure _) fun _ => Uses.seq (Uses.tryCatch (Uses.perform trivial) fun _ => Uses.pure _) fun _ =>
    marked_perform trivial

/-! ### Completing an upload -/

theorem marked_reserve (id : JobId) (needed : ℕ) : Marked M (reserve id needed) :=
  Uses.seq (marked_call _) fun _ => marked_updateJob (.of_plain rfl rfl)

theorem marked_consume (id : JobId) (size : ℕ) : Marked M (consume id size) :=
  marked_perform (o := .consume id size) trivial

theorem marked_assembleArchives (id : JobId) (job : Job) (hit : Bool) : Marked M (assembleArchives id job hit) := by
  refine Uses.seq (marked_reserve _ _) fun _ => ?_
  refine Uses.ite (marked_call _) (Uses.seq (marked_call _) fun _ => ?_)
  exact Uses.seq (marked_consume _ _) fun _ => marked_call _

theorem marked_extractArchives (id : JobId) (hit : Bool) : Marked M (extractArchives id hit) := by
  rcases hit with _ | _
  · exact Uses.seq (marked_call _) fun _ => Uses.seq (marked_call _) fun _ => Uses.seq (marked_reserve _ _) fun _ =>
      Uses.seq (marked_call _) fun _ => Uses.seq (marked_call _) fun _ => marked_consume _ _
  · refine Uses.seq (marked_call _) fun _ => Uses.seq (Uses.pure _) fun _ => Uses.seq (marked_reserve _ _) fun _ => ?_
    exact Uses.seq (marked_call _) fun _ => marked_consume _ _

theorem marked_assembleAndValidateJob (hM : M .metadata) (id : JobId) (job : Job) :
    Marked M (assembleAndValidateJob s id job) := by
  have htail : ∀ username : String, Marked M (do
      let cache ← getReadyDatasetCache s job.datasetRef job.payloadHash job.kaggleKeyId
      let datasetCacheHit := cache.isSome && !awaitingAssignment job
      assembleArchives id job datasetCacheHit
      extractArchives id datasetCacheHit
      if datasetCacheHit then
        validateKernelPayload s (s.kernelDir id) job.kernelRef username job.datasetRef
      else validatePayloads s (s.datasetDir id) (s.kernelDir id) job.datasetRef job.kernelRef username :
        Relay Unit) := by
    intro username
    refine Uses.seq (marked_getReadyDatasetCache _ _ _) fun _ => Uses.seq (marked_assembleArchives _ _ _) fun _ =>
      Uses.seq (marked_extractArchives _ _) fun _ => ?_
    exact Uses.ite (marked_validateKernelPayload hM _ _ _ _) (marked_validatePayloads hM _ _ _ _ _)
  exact Uses.ite (htail _) (Uses.seq (marked_call _) htail)

theorem marked_archiveUploaded (id : JobId) (archiveType : ArchiveType) :
    Marked M (archiveUploaded id archiveType) :=
  marked_perform (o := .archiveUploaded id archiveType) trivial

theorem marked_checkUploaded (id : JobId) (hit : Bool) : Marked M (checkUploaded id hit) := by
  have hkernel : Marked M (do
      let kernel ← archiveUploaded id .kernel
      Eff.raiseIf (kernel = false) (.http 409 "upload incomplete; resume missing chunks") : Relay Unit) :=
    Uses.seq (marked_archiveUploaded _ _) fun _ => Uses.pure _
  refine Uses.ite hkernel (Uses.seq (marked_archiveUploaded _ _) fun _ => ?_)
  exact Uses.seq (Uses.pure _) fun _ => hkernel

theorem marked_finishAssembly (hM : M .metadata) (id : JobId) (job : Job) : Marked M (finishAssembly s id job) := by
  have hplain : ∀ (status : Status) (progress : Option ℚ) (queueReason error : Option String),
      ({ status := some status, progress, queueReason, error } : JobValues).Within M :=
    fun _ _ _ _ => .of_plain rfl rfl
  refine Uses.seq (Uses.attempt (marked_call _)) fun slot => ?_
  rcases slot with e | _
  · exact Uses.seq (marked_updateJobIfStatus (hplain _ _ _ _)) fun _ => Uses.pure _
  · refine Uses.seq (Uses.attempt (marked_assembleAndValidateJob hM _ _)) fun outcome => ?_
    rcases outcome with e | _
    · exact Uses.ite (Uses.seq (marked_updateJobIfStatus (hplain _ _ _ _)) fun _ => Uses.pure _)
        (Uses.seq (marked_updateJobIfStatus (hplain _ _ _ _)) fun _ => Uses.pure _)
    · exact Uses.seq (marked_put (hplain _ _ _ _)) fun _ => Uses.pure _

theorem marked_completeUpload (hM : M .metadata) (id : JobId) (job : Job) : Marked M (completeUpload s id job) := by
  refine Uses.seq (marked_getReadyDatasetCache _ _ _) fun _ => Uses.seq (marked_checkUploaded _ _) fun _ =>
    Uses.seq ?_ fun _ => Uses.ite (marked_finishAssembly hM _ _) (Uses.pure _)
  exact marked_updateJobIfStatus (.of_plain rfl rfl)

theorem marked_requestRecheck (hM : M .recheck) (id : JobId) (job : Job) (restartRecheck : Bool) :
    Marked M (requestRecheck s id job restartRecheck) := by
  refine Uses.ite (Uses.pure _) (Uses.seq (Uses.pure _) fun _ => Uses.seq (Uses.pure _) fun _ => Uses.seq
    (Uses.tryCatch (marked_readIntent _) fun _ => Uses.ite (Uses.pure _) (Uses.pure _)) fun _ =>
    Uses.seq (Uses.pure _) fun _ => Uses.seq marked_now fun _ => Uses.seq ?_ fun _ => Uses.pure _)
  exact marked_put (.of_recheck hM rfl)

theorem marked_completeJob (hR : M .recheck) (hM : M .metadata) (id : JobId) (authorized restartRecheck : Bool) :
    Marked M (completeJob s id authorized restartRecheck) := by
  refine Uses.seq (marked_getAuthorizedJob _ _) fun _ => Uses.seq (marked_rejectExpiredUpload _ _) fun _ =>
    Uses.ite ?_ (Uses.ite (marked_requestRecheck hR _ _ _) (Uses.ite (Uses.pure _) (marked_completeUpload hM _ _)))
  have hplain : ({ error := some "" } : JobValues).Within M := .of_plain rfl rfl
  exact marked_perform hplain

/-! ### The schedulers -/

theorem marked_startRecheck (hM : M .recheck) (id : JobId) (job : Job) (t : ℚ) :
    Marked M (startRecheck s id job t) := by
  refine Uses.seq (marked_call _) fun _ => Uses.ite ?_ (Uses.seq (marked_call _) fun _ =>
    Uses.ite (marked_blockRecheck hM _ _) (Uses.seq ?_ fun _ => Uses.ite (marked_blockRecheck hM _ _) ?_))
  · exact Uses.seq (marked_updateJobIfStatus (.of_recheck hM rfl)) fun _ => Uses.pure _
  · exact Uses.seq (marked_intentForRecovery _ _) fun _ => Uses.pure _
  · exact Uses.seq (marked_put (.of_recheck hM rfl)) fun _ => Uses.pure _

theorem marked_scheduleDatasetRecheck (hM : M .recheck) (id : JobId) (t : ℚ) :
    Marked M (scheduleDatasetRecheck s id t) := by
  refine Uses.seq (marked_getJob _) fun job => ?_
  rcases job with _ | job
  · exact Uses.pure _
  · refine Uses.seq (marked_perform trivial) fun _ => Uses.ite (Uses.pure _) ?_
    split
    · exact Uses.ite (marked_scheduleRecheck hM _ _ _ _) (marked_blockRecheck hM _ _)
    · exact Uses.ite (Uses.pure _) (Uses.ite (marked_scheduleRecheck hM _ _ _ _) (marked_startRecheck hM _ _ _))
    · exact Uses.pure _

theorem marked_schedulePendingJob (hM : M .binding) (id : JobId) : Marked M (schedulePendingJob id) := by
  have hplain : ∀ (status : Option Status) (queueReason error : Option String),
      ({ status, queueReason, error } : JobValues).Within M :=
    fun _ _ _ => .of_plain rfl rfl
  refine Uses.seq (marked_getJob _) fun current => ?_
  rcases current with _ | current
  · exact Uses.pure _
  · refine Uses.ite (Uses.pure _) (Uses.seq (marked_call _) fun choice => ?_)
    rcases choice with _ | reason | ⟨keyId, username⟩
    · exact Uses.seq (marked_updateJobIfStatus (hplain _ _ _)) fun _ => Uses.pure _
    · exact Uses.seq (marked_updateJobIfStatus (hplain _ _ _)) fun _ => Uses.pure _
    · exact Uses.seq (Uses.pure _) fun _ => Uses.seq (Uses.pure _) fun _ => Uses.seq
        (marked_put ⟨fun h => absurd hM h, fun _ => rfl⟩) fun _ => Uses.pure _

/-! ### Recovery -/

theorem marked_failRecoveredJob (id : JobId) (message : String) : Marked M (failRecoveredJob s id message) :=
  Uses.seq (marked_updateJob (.of_plain rfl rfl)) fun _ => Uses.pure _

theorem marked_recoverJobAfterRestart (hM : M .metadata) (id : JobId) (job : Job) :
    Marked M (recoverJobAfterRestart s id job) := by
  have hplain : ∀ (status : Status) (progress : Option ℚ) (error : Option String),
      ({ status := some status, progress, error } : JobValues).Within M :=
    fun _ _ _ => .of_plain rfl rfl
  have hmark : Marked M (do
      updateJob id
        { status := some .canceled
          error := some (if job.cancelReason = "" then "cancel requested" else job.cancelReason) }
      pure none : Relay (Option QueueItem)) :=
    Uses.seq (marked_updateJob (hplain _ _ _)) fun _ => Uses.pure _
  have hdataset : Marked M (recoverDataset s id job) := by
    refine Uses.ite (Uses.pure _) (Uses.seq (Uses.attempt (marked_readIntent _)) fun outcome => ?_)
    rcases outcome with e | intent
    · exact Uses.ite (marked_failRecoveredJob _ _) (Uses.pure _)
    · exact Uses.ite (Uses.seq (marked_updateJobIfStatus (hplain _ _ _)) fun _ => Uses.pure _)
        (marked_failRecoveredJob _ _)
  unfold recoverJobAfterRestart
  split
  · exact Uses.pure _
  · exact Uses.pure _
  · exact Uses.pure _
  · refine Uses.seq (marked_perform trivial) fun _ => Uses.ite (Uses.pure _) (Uses.ite ?_ hmark)
    refine Uses.seq (marked_call _) fun _ => Uses.seq (Uses.attempt (marked_call _)) fun outcome => ?_
    rcases outcome with e | _
    · exact Uses.ite hmark (marked_failRecoveredJob _ _)
    · exact Uses.pure _
  · refine Uses.seq (marked_call _) fun _ => Uses.seq (Uses.attempt (marked_call _)) fun outcome => ?_
    rcases outcome with e | _
    · exact Uses.ite (marked_failRecoveredJob _ _) (marked_failRecoveredJob _ _)
    · exact Uses.pure _
  · exact hdataset
  · exact hdataset
  · refine Uses.seq (Uses.attempt (marked_assembleAndValidateJob hM _ _)) fun outcome => ?_
    rcases outcome with e | _
    · exact marked_failRecoveredJob _ _
    · exact Uses.seq (marked_updateJob (hplain _ _ _)) fun _ => Uses.pure _
  all_goals exact Uses.pure _

end Within

end Relay

/-! ### What a step does -/

namespace World

open Relay

variable {s : Settings} {w w' : World} {a : Action}

/-- The worker loop has accepted an item of the queue. -/
structure Accepted (s : Settings) (w : World) (id : JobId) (t : Task) : Prop where
  idle : w.active id = none
  program : t.program = runWorkerItem s id t.action
  queued : ⟨t.action, id⟩ ∈ w.queue
  expected : ∃ job, w.jobs id = some job ∧ job.status ∈ queueItemExpectedStatuses ⟨t.action, id⟩ ∧
    awaitingAssignment job = false

/-- A step that performs no operation: what is stored stays, and the programs
that are new have just begun. -/
structure Memory (s : Settings) (w : World) (a : Action) (w' : World) : Prop where
  silent : w.performs a = none
  intents : w'.intents = w.intents
  dirs : w'.dirs = w.dirs
  caches : w'.caches = w.caches
  lastJobs : w'.lastJobs = w.lastJobs
  trace : w'.trace = w.trace
  jobs : ∀ id, w'.jobs id = w.jobs id ∨ w'.jobs id = (w.jobs id).map (·.set slotValues) ∨
    (∃ d datasetRef kernelRef keyId reserved, id ∉ w.ids ∧
      a = .create id d datasetRef kernelRef keyId reserved ∧
      w'.jobs id = some (createdJob d datasetRef kernelRef keyId reserved))
  active : ∀ id t, w'.active id = some t → w.active id = some t ∨ Accepted s w id t
  sections : ∀ id p, w'.sections id = some p → w.sections id = some p ∨
    (w.sections id = none ∧ ∃ request, a = .begin id request ∧ p = request.program s id)
  loose : ∀ p ∈ w'.loose, p ∈ w.loose ∨ ∃ id request, p = LooseRequest.program s id request
  recovery : ∀ rec p, w'.recovery = some rec → rec.current = some p →
    (∃ rec₀, w.recovery = some rec₀ ∧ rec₀.current = some p) ∨ ∃ id job, p = recoverJobAfterRestart s id job

/-- What a step does: one operation of a program, or something in memory. -/
inductive Stepped (s : Settings) (w : World) : Action → World → Prop
  | worker {id : JobId} {c : Choice} {t : Task} {o : RelayOp} {k : o.Res → Relay Unit} {r : o.Res} {w₁ : World}
    (gaveUp : Bool) (ht : w.active id = some t) (hp : t.program = .op o k) (hperform : perform s c o w = (r, w₁))
    (hlegal : legal o r = true) :
    Stepped s w (.worker id c)
      { w₁ with active := Function.update w₁.active id (some { t with program := k r, gaveUp }) }
  | lock {id : JobId} {c : Choice} {o : RelayOp} {k : o.Res → Relay Unit} {r : o.Res} {w₁ : World}
    (hp : w.sections id = some (.op o k)) (hperform : perform s c o w = (r, w₁)) (hlegal : legal o r = true) :
    Stepped s w (.lock id c)
      { w₁ with sections := Function.update w₁.sections id (if returned (k r) then none else some (k r)) }
  | loose {n : ℕ} {c : Choice} {o : RelayOp} {k : o.Res → Relay Unit} {r : o.Res} {w₁ : World}
    (hp : w.loose[n]? = some (.op o k)) (hperform : perform s c o w = (r, w₁)) (hlegal : legal o r = true) :
    Stepped s w (.loose n c)
      { w₁ with loose := if returned (k r) then w₁.loose.eraseIdx n else w₁.loose.set n (k r) }
  | recover {c : Choice} {rec : Recovery} {o : RelayOp} {k : o.Res → Relay (Option QueueItem)} {r : o.Res}
    {w₁ : World} (hrec : w.recovery = some rec) (hp : rec.current = some (.op o k))
    (hperform : perform s c o w = (r, w₁)) (hlegal : legal o r = true) :
    Stepped s w (.recover c) { w₁ with recovery := some { rec with current := some (k r) } }
  | memory {a : Action} {w' : World} (h : Memory s w a w') : Stepped s w a w'

/-- A step that leaves programs and rows alone. -/
theorem Memory.of_same (hsilent : w.performs a = none) (hintents : w'.intents = w.intents)
    (hdirs : w'.dirs = w.dirs) (hcaches : w'.caches = w.caches) (hlast : w'.lastJobs = w.lastJobs)
    (htrace : w'.trace = w.trace) (hjobs : w'.jobs = w.jobs) (hactive : w'.active = w.active)
    (hsections : w'.sections = w.sections) (hloose : w'.loose = w.loose)
    (hrecovery : ∀ rec p, w'.recovery = some rec → rec.current = some p →
      ∃ id job, p = recoverJobAfterRestart s id job) : Memory s w a w' where
  silent := hsilent
  intents := hintents
  dirs := hdirs
  caches := hcaches
  lastJobs := hlast
  trace := htrace
  jobs _ := .inl (congrFun hjobs _)
  active _ _ h := .inl (hactive ▸ h)
  sections _ _ h := .inl (hsections ▸ h)
  loose _ h := .inl (hloose ▸ h)
  recovery rec p h hp := .inr (hrecovery rec p h hp)

theorem memory_crash : Memory s w .crash w.crash where
  silent := rfl
  intents := rfl
  dirs := rfl
  caches := rfl
  lastJobs := rfl
  trace := rfl
  jobs _ := .inl rfl
  active _ _ h := by cases h
  sections _ _ h := by cases h
  loose _ h := by cases h
  recovery rec p h hp := by
    cases h
    cases hp

theorem memory_accept {account : String} {item : QueueItem} {queue : List QueueItem} {job : Job}
    (hserving : w.recovery = none) (hqueue : w.queue = item :: queue) (hidle : w.active item.jobId = none)
    (hjob : w.jobs item.jobId = some job) (hexpected : job.status ∈ queueItemExpectedStatuses item)
    (hbound : awaitingAssignment job = false) :
    Memory s w (.take account) (accept s { w with queue } item account) := by
  have hnone : ∀ rec p, w.recovery = some rec → rec.current = some p →
      (∃ rec₀, w.recovery = some rec₀ ∧ rec₀.current = some p) ∨ ∃ id job, p = recoverJobAfterRestart s id job := by
    intro rec p h
    rw [hserving] at h
    cases h
  unfold accept
  split
  · -- the item waits for a slot of its account
    refine ⟨rfl, rfl, rfl, rfl, rfl, rfl, fun id => ?_, fun _ _ h => .inl h, fun _ _ h => .inl h,
      fun _ h => .inl h, hnone⟩
    by_cases hid : id = item.jobId
    · subst hid
      exact .inr (.inl (Function.update_self _ _ _))
    · exact .inl (Function.update_of_ne hid _ _)
  · refine ⟨rfl, rfl, rfl, rfl, rfl, rfl, fun _ => .inl rfl, fun id t h => ?_, fun _ _ h => .inl h,
      fun _ h => .inl h, hnone⟩
    by_cases hid : id = item.jobId
    · subst hid
      have ht := (Function.update_self _ _ _).symm.trans h
      cases ht
      refine .inr ⟨hidle, rfl, ?_, job, hjob, hexpected, hbound⟩
      rw [hqueue]
      exact List.mem_cons_self
    · exact .inl ((Function.update_of_ne hid _ _).symm.trans h)

theorem memory_take {account : String} {item : QueueItem} {queue : List QueueItem} (hserving : w.recovery = none)
    (hqueue : w.queue = item :: queue) : Memory s w (.take account) (take s { w with queue } item account) := by
  have hsame : Memory s w (.take account) { w with queue } := by
    refine .of_same rfl rfl rfl rfl rfl rfl rfl rfl rfl rfl ?_
    intro rec p h
    rw [show ({ w with queue } : World).recovery = none from hserving] at h
    cases h
  unfold take
  rcases hjob : w.jobs item.jobId with _ | job
  · exact hsame
  · dsimp only
    split
    · exact hsame
    · rename_i hfresh
      simp only [not_or, not_not, Bool.not_eq_true, Option.isSome_eq_false_iff, Option.isNone_iff_eq_none] at hfresh
      exact memory_accept hserving hqueue hfresh.2.1 hjob hfresh.1 hfresh.2.2

/-- **A step is one operation of a program, or something in memory.** -/
theorem stepped_of_step (hs : step s a w = some w') : Stepped s w a w' := by
  unfold step at hs
  split at hs
  case h_1 hserving =>
    have hnone : ∀ {rec : Recovery} {p : Relay (Option QueueItem)}, w.recovery = some rec → rec.current = some p →
        ∃ id job, p = recoverJobAfterRestart s id job := by
      intro rec p h
      rw [hserving] at h
      cases h
    cases a with
    | create id d datasetRef kernelRef keyId reserved =>
      simp only [serving] at hs
      split at hs
      · cases hs
      · rename_i hnew
        cases hs
        refine .memory ⟨rfl, rfl, rfl, rfl, rfl, rfl, fun x => ?_, fun _ _ h => .inl h, fun _ _ h => .inl h,
          fun _ h => .inl h, fun _ _ h hp => .inr (hnone h hp)⟩
        by_cases hx : x = id
        · subst hx
          exact .inr (.inr ⟨d, datasetRef, kernelRef, keyId, reserved, hnew, rfl, Function.update_self _ _ _⟩)
        · exact .inl (Function.update_of_ne hx _ _)
    | take account =>
      simp only [serving] at hs
      split at hs
      · cases hs
      · rename_i item queue hqueue
        cases hs
        exact .memory (memory_take hserving hqueue)
    | worker id c =>
      obtain ⟨t, ht, hstep⟩ := Option.bind_eq_some_iff.mp hs
      simp only [workerStep] at hstep
      split at hstep
      · obtain ⟨⟨p, w₁⟩, hadvance, rfl⟩ := Option.map_eq_some_iff.mp hstep
        obtain ⟨o, k, r, hp, hperform, hlegal, rfl⟩ := advance_some hadvance
        exact .worker _ ht hp hperform hlegal
      · cases hstep
    | leave id =>
      simp only [serving] at hs
      split at hs
      · split at hs <;> cases hs
        refine .memory ⟨rfl, rfl, rfl, rfl, rfl, rfl, fun _ => .inl rfl, fun x t h => .inl ?_, fun _ _ h => .inl h,
          fun _ h => .inl h, fun _ _ h hp => .inr (hnone h hp)⟩
        by_cases hx : x = id
        · subst hx
          cases (Function.update_self _ _ _).symm.trans h
        · exact (Function.update_of_ne hx _ _).symm.trans h
      · cases hs
    | begin id request =>
      simp only [serving] at hs
      split at hs
      · rename_i hfree
        cases hs
        refine .memory ⟨rfl, rfl, rfl, rfl, rfl, rfl, fun _ => .inl rfl, fun _ _ h => .inl h, fun x p h => ?_,
          fun _ h => .inl h, fun _ _ h hp => .inr (hnone h hp)⟩
        by_cases hx : x = id
        · subst hx
          cases (Function.update_self _ _ _).symm.trans h
          exact .inr ⟨Option.isNone_iff_eq_none.mp hfree.1, request, rfl, rfl⟩
        · exact .inl ((Function.update_of_ne hx _ _).symm.trans h)
      · cases hs
    | lock id c =>
      obtain ⟨p, hp, hstep⟩ := Option.bind_eq_some_iff.mp hs
      obtain ⟨⟨p', w₁⟩, hadvance, rfl⟩ := Option.map_eq_some_iff.mp hstep
      obtain ⟨o, k, r, rfl, hperform, hlegal, rfl⟩ := advance_some hadvance
      exact .lock hp hperform hlegal
    | beginLoose id request =>
      cases hs
      refine .memory ⟨rfl, rfl, rfl, rfl, rfl, rfl, fun _ => .inl rfl, fun _ _ h => .inl h, fun _ _ h => .inl h,
        fun p h => ?_, fun _ _ h hp => .inr (hnone h hp)⟩
      rcases List.mem_append.mp h with h | h
      · exact .inl h
      · exact .inr ⟨id, request, List.mem_singleton.mp h⟩
    | loose n c =>
      obtain ⟨p, hp, hstep⟩ := Option.bind_eq_some_iff.mp hs
      obtain ⟨⟨p', w₁⟩, hadvance, rfl⟩ := Option.map_eq_some_iff.mp hstep
      obtain ⟨o, k, r, rfl, hperform, hlegal, rfl⟩ := advance_some hadvance
      exact .loose hp hperform hlegal
    | crash =>
      cases hs
      exact .memory memory_crash
    | recover c => cases hs
  case h_2 rec hrec =>
    cases a with
    | crash =>
      cases hs
      exact .memory memory_crash
    | recover c =>
      simp only [recoveryStep] at hs
      split at hs
      · rename_i hcurrent
        cases hs
        refine .memory (.of_same ?_ rfl rfl rfl rfl rfl rfl rfl rfl rfl ?_)
        · rw [performs, hrec, Option.bind_some, hcurrent]
          rfl
        · rintro _ _ h hp
          cases h
          cases hp
      · rename_i hcurrent
        obtain ⟨⟨p', w₁⟩, hadvance, rfl⟩ := Option.map_eq_some_iff.mp hs
        obtain ⟨o, k, r, rfl, hperform, hlegal, rfl⟩ := advance_some hadvance
        exact .recover hrec hcurrent hperform hlegal
      · rename_i hcurrent _
        cases hs
        refine .memory (.of_same ?_ rfl rfl rfl rfl rfl rfl rfl rfl rfl ?_)
        · rw [performs, hrec, Option.bind_some, hcurrent]
          rfl
        · rintro _ _ h hp
          cases h
          exact ⟨_, _, (Option.some.inj hp).symm⟩
      · rename_i hcurrent _
        cases hs
        refine .memory (.of_same ?_ rfl rfl rfl rfl rfl rfl rfl rfl rfl ?_)
        · rw [performs, hrec, Option.bind_some, hcurrent]
          rfl
        · rintro _ _ h
          cases h
    | _ => cases hs

/-! ### What no program may write -/

/-- Where a program runs. -/
inductive Host where
  | worker | lock | loose | recovery
  deriving DecidableEq

/-- What the programs of a host write. -/
def Host.marks : Host → Mark → Prop
  | .worker, m => m ≠ .binding
  | .lock, m => m = .recheck ∨ m = .metadata
  | .loose, m => m = .binding
  | .recovery, m => m = .metadata

/-- The host of the program a step is an operation of. -/
def Action.host : Action → Host
  | .lock _ _ => .lock
  | .loose _ _ => .loose
  | .recover _ => .recovery
  | _ => .worker

/-- Every program writes what its host's programs write. -/
structure Confined (w : World) : Prop where
  worker : ∀ id t, w.active id = some t → Marked Host.worker.marks t.program
  lock : ∀ id p, w.sections id = some p → Marked Host.lock.marks p
  loose : ∀ p ∈ w.loose, Marked Host.loose.marks p
  recovery : ∀ rec p, w.recovery = some rec → rec.current = some p → Marked Host.recovery.marks p

theorem marked_request (id : JobId) (request : Request) : Marked Host.lock.marks (request.program s id) := by
  cases request with
  | upload authorized => exact marked_uploadChunk _ _
  | complete authorized restartRecheck => exact marked_completeJob (M := Host.lock.marks) (.inl rfl) (.inr rfl) _ _ _
  | cancel authorized => exact marked_cancelJob _ _
  | recheck t => exact marked_scheduleDatasetRecheck (M := Host.lock.marks) (.inl rfl) _ _
  | cleanup stale receivingCutoff => exact marked_cleanupJob _ _ _
  | delete authorized => exact marked_deleteJob _ _

theorem marked_looseRequest (id : JobId) (request : LooseRequest) :
    Marked Host.loose.marks (request.program s id) := by
  cases request with
  | progress authorized payload => exact marked_updateJobProgress _ _ _
  | schedulePending => exact marked_schedulePendingJob (M := Host.loose.marks) rfl _

theorem confined_empty : Confined empty where
  worker _ _ h := by cases h
  lock _ _ h := by cases h
  loose _ h := by cases h
  recovery _ _ h := by cases h

theorem Confined.frame {o : RelayOp} {c : Choice} {r : o.Res} {w₁ : World} (h : Confined w)
    (hperform : perform s c o w = (r, w₁)) : Confined w₁ := by
  obtain ⟨id, hon⟩ := exists_on o
  obtain hframe := frame_of_perform hon hperform
  exact ⟨hframe.active ▸ h.worker, hframe.sections ▸ h.lock, hframe.loose ▸ h.loose, hframe.recovery ▸ h.recovery⟩

theorem confined_step (h : Confined w) (hs : step s a w = some w') : Confined w' := by
  cases stepped_of_step hs with
  | @worker id c t o k r w₁ gaveUp ht hp hperform hlegal =>
    have h₁ := h.frame hperform
    refine ⟨fun x t' hx => ?_, h₁.lock, h₁.loose, h₁.recovery⟩
    by_cases heq : x = id
    · subst heq
      cases (Function.update_self _ _ _).symm.trans hx
      have hmarked := h.worker x t ht
      rw [hp] at hmarked
      exact hmarked.2 r
    · exact h₁.worker x t' ((Function.update_of_ne heq _ _).symm.trans hx)
  | @lock id c o k r w₁ hp hperform hlegal =>
    have h₁ := h.frame hperform
    refine ⟨h₁.worker, fun x p hx => ?_, h₁.loose, h₁.recovery⟩
    by_cases heq : x = id
    · subst heq
      have hx := (Function.update_self _ _ _).symm.trans hx
      split at hx <;> cases hx
      exact (h.lock x _ hp).2 r
    · exact h₁.lock x p ((Function.update_of_ne heq _ _).symm.trans hx)
  | @loose n c o k r w₁ hp hperform hlegal =>
    have h₁ := h.frame hperform
    refine ⟨h₁.worker, h₁.lock, fun p hx => ?_, h₁.recovery⟩
    dsimp only at hx
    split at hx
    · exact h₁.loose p (List.mem_of_mem_eraseIdx hx)
    · rcases List.mem_or_eq_of_mem_set hx with hx | rfl
      · exact h₁.loose p hx
      · exact (h.loose _ (List.mem_of_getElem? hp)).2 r
  | @recover c rec o k r w₁ hrec hp hperform hlegal =>
    have h₁ := h.frame hperform
    refine ⟨h₁.worker, h₁.lock, h₁.loose, ?_⟩
    rintro _ _ hx hcurrent
    cases hx
    cases hcurrent
    exact (h.recovery rec _ hrec hp).2 r
  | memory hm =>
    refine ⟨fun x t hx => ?_, fun x p hx => ?_, fun p hx => ?_, fun rec p hx hcurrent => ?_⟩
    · rcases hm.active x t hx with hx | haccepted
      · exact h.worker x t hx
      · rw [haccepted.program]
        exact marked_runWorkerItem (by rintro ⟨⟩) (by rintro ⟨⟩) (by rintro ⟨⟩) (by rintro ⟨⟩) _ _
    · rcases hm.sections x p hx with hx | ⟨-, request, -, rfl⟩
      · exact h.lock x p hx
      · exact marked_request _ _
    · rcases hm.loose p hx with hx | ⟨id, request, rfl⟩
      · exact h.loose p hx
      · exact marked_looseRequest _ _
    · rcases hm.recovery rec p hx hcurrent with ⟨rec₀, hx, hcurrent⟩ | ⟨id, job, rfl⟩
      · exact h.recovery rec₀ p hx hcurrent
      · exact marked_recoverJobAfterRestart (M := Host.recovery.marks) rfl _ _

theorem confined_of_reachable (h : Reachable s w) : Confined w := by
  induction h with
  | empty => exact confined_empty
  | step _ a hs ih => exact confined_step ih hs

/-- What a step performs is marked with what its host's programs write. -/
theorem performs_within (h : Confined w) {o : RelayOp} (hp : w.performs a = some o) :
    o.Within a.host.marks := by
  cases a with
  | worker id c =>
    obtain ⟨t, ht, hnext⟩ := Option.bind_eq_some_iff.mp hp
    obtain ⟨k, hk⟩ := nextOp_some hnext
    have hmarked := h.worker id t ht
    rw [hk] at hmarked
    exact hmarked.1
  | lock id c =>
    obtain ⟨p, hsection, hnext⟩ := Option.bind_eq_some_iff.mp hp
    obtain ⟨k, rfl⟩ := nextOp_some hnext
    exact (h.lock id _ hsection).1
  | loose n c =>
    obtain ⟨p, hloose, hnext⟩ := Option.bind_eq_some_iff.mp hp
    obtain ⟨k, rfl⟩ := nextOp_some hnext
    exact (h.loose _ (List.mem_of_getElem? hloose)).1
  | recover c =>
    obtain ⟨rec, hrec, hp⟩ := Option.bind_eq_some_iff.mp hp
    obtain ⟨p, hcurrent, hnext⟩ := Option.bind_eq_some_iff.mp hp
    obtain ⟨k, rfl⟩ := nextOp_some hnext
    exact (h.recovery rec _ hrec hcurrent).1
  | _ => cases hp

end World

end KaggleRelay

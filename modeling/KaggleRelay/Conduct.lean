/-
Programs that leave a job's life alone.

Most of what the relay's programs do neither reads nor changes what the rest of
the relay has to know about a job: it looks at files, caches and intents, and
calls what is outside.  `Stays P S p` — a program that keeps to a protocol and
never leaves the phases `S`, and raises nothing of what only a poll of the
kernel raises.  The rules follow the shape of a program, and each program of
the adapter and of the payload checks `Stays` in any phases that tolerate such
operations.
-/
import KaggleRelay.Machine

namespace KaggleRelay

open Effects

/-! ### Values -/

/-- The values set the status and the error as given, and nothing else that the
rest of the relay looks at. -/
structure JobValues.Sets (values : JobValues) (status : Option Status) (error : Option String) :
    Prop where
  status : values.status = status
  error : values.error = error
  cancelRequestedAt : values.cancelRequestedAt = none
  completedAt : values.completedAt = none
  reservedBytes : values.reservedBytes = none
  assignmentState : values.assignmentState = none

theorem JobValues.Sets.withStatus {values : JobValues} {status : Option Status}
    {error : Option String} (h : values.Sets status error) (status' : Option Status) :
    ({ values with status := status' } : JobValues).Sets status' error :=
  { h with status := rfl }

/-- The values say nothing new about an error. -/
def Forgetful (error : Option String) : Prop := error = none ∨ error = some ""

/-! ### Operations and exceptions -/

/-- A poll of a kernel. -/
def RelayOp.polls : RelayOp → Bool
  | .call (.pollKernel _) | .call (.kernelStatus _) => true
  | _ => false

/-- The operation reads or writes what the rest of the relay looks at, or polls. -/
def RelayOp.touches : RelayOp → Bool
  | .getJob _ | .updateJob _ _ | .updateJobIfStatus _ _ _ _ _ | .finalizeJob _ _ _ | .consume _ _
  | .isActive _ | .resumeIfInactive _ _ _ | .updateJobIfStatusAndPut _ _ _ _ _ _
  | .deleteJobRecord _ | .pushKernel _ _ => true
  | .call (.pollKernel _) | .call (.kernelStatus _) => true
  | _ => false

/-- No poll of a kernel, and no shutdown, has raised the exception. -/
def Exc.Ordinary (e : Exc) : Prop :=
  e.cls ≠ .kaggleAdapterInterrupted ∧ e.cls ≠ .kernelStatusUnavailable

theorem RelayOp.polls_of_touches {o : RelayOp} (h : o.touches = false) : o.polls = false := by
  unfold polls
  split
  · cases h
  · cases h
  · rfl

theorem ordinary_of_legal {o : RelayOp} {r : o.Res} {e : Exc} (h : o.polls = false)
    (hr : World.legal o r = true) (he : World.raised o r = some e) : e.Ordinary := by
  unfold World.legal at hr
  rw [he] at hr
  simp only [Bool.and_eq_true, bne_iff_ne, Bool.or_eq_true] at hr
  refine ⟨hr.1, ?_⟩
  rcases hr.2 with hne | hpoll
  · exact hne
  · -- only a poll may say that the status is unavailable
    split at hpoll
    · cases h
    · cases h
    · cases hpoll

/-! ### Staying in some phases -/

section Stays

variable {Ph : Type} {P : Protocol RelaySig Ph} {S : Ph → Prop} {α β : Type}

/-- In the phases `S` a program may perform whatever touches nothing. -/
structure Tolerates (P : Protocol RelaySig Ph) (S : Ph → Prop) : Prop where
  allows : ∀ ph o, S ph → o.touches = false → P.allows ph o
  after : ∀ ph o r, o.touches = false → P.after ph o r = ph
  answers : ∀ ph o r, P.answers ph o r → World.legal o r = true

/-- From any phase of `S` the program stays in `S`. -/
def Stays (P : Protocol RelaySig Ph) (S : Ph → Prop) (p : Relay α) : Prop :=
  ∀ ph, S ph → Follows P (post (fun _ ph' => S ph') fun e ph' => e.Ordinary ∧ S ph') p ph

namespace Stays

theorem pure (a : α) : Stays P S (Pure.pure a : Relay α) := fun _ h => .pure h

theorem bind {p : Relay α} {f : α → Relay β} (hp : Stays P S p) (hf : ∀ a, Stays P S (f a)) :
    Stays P S (p >>= f) :=
  fun ph h => Follows.seq (hp ph h) fun a ph' h' => hf a ph' h'

theorem throw {e : Exc} (he : e.Ordinary) :
    Stays P S (Eff.throw e : Relay α) :=
  fun _ h => .pure ⟨he, h⟩

theorem hang : Stays P S (Eff.hang : Relay α) := fun _ _ => .stuck

theorem lift {r : Except Exc α} (he : ∀ e, r = .error e → e.Ordinary) :
    Stays P S (Eff.lift r : Relay α) := by
  intro ph h
  exact Follows.lift (fun _ _ => h) fun e hr => ⟨he e hr, h⟩

theorem raiseIf {c : Prop} [Decidable c] {e : Exc}
    (he : e.Ordinary) :
    Stays P S (Eff.raiseIf c e : Relay Unit) := by
  intro ph h
  by_cases hc : c
  · rw [Eff.raiseIf, if_pos hc]
    exact .pure ⟨he, h⟩
  · rw [Eff.raiseIf, if_neg hc]
    exact .pure h

theorem ite {c : Prop} [Decidable c] {p q : Relay α} (hp : Stays P S p) (hq : Stays P S q) :
    Stays P S (if c then p else q) := by
  split
  · exact hp
  · exact hq

theorem tryCatch {p : Relay α} {handler : Exc → Relay α} (hp : Stays P S p)
    (hh : ∀ e, e.Ordinary → Stays P S (handler e)) : Stays P S (Eff.tryCatch p handler) :=
  fun ph h => Follows.tryCatch (hp ph h) fun e ph' he => hh e he.1 ph' he.2

/-- An outcome that is looked at is a value or an ordinary exception. -/
theorem attempt {p : Relay α} {f : Except Exc α → Relay β} (hp : Stays P S p)
    (hok : ∀ a, Stays P S (f (.ok a))) (herr : ∀ e, e.Ordinary → Stays P S (f (.error e))) :
    Stays P S (Eff.attempt p >>= f) := by
  intro ph h
  refine Follows.seq (Follows.attempt (hp ph h)) ?_
  rintro (e | a) ph' hq
  · exact herr e hq.1 ph' hq.2
  · exact hok a ph' hq

theorem map {p : Relay α} {f : α → β} (hp : Stays P S p) : Stays P S (f <$> p) :=
  bind hp fun _ => pure _

/-- An operation that touches nothing. -/
theorem op (hP : Tolerates P S) {o : RelayOp} {k : o.Res → Relay α} (h : o.touches = false)
    (hk : ∀ r, World.legal o r = true → Stays P S (k r)) : Stays P S (Prog.op o k : Relay α) := by
  intro ph hph
  refine .op (hP.allows ph o hph h) fun r hr => ?_
  rw [hP.after ph o r h]
  exact hk r (hP.answers ph o r hr) ph hph

/-- One that cannot raise. -/
theorem perform (hP : Tolerates P S) {o : RelayOp} (h : o.touches = false) :
    Stays P S (Eff.perform (S := RelaySig) o : Relay o.Res) := op hP h fun r _ => pure r

variable (hP : Tolerates P S)
include hP

theorem call {c : Call} (h : (RelayOp.call c).touches = false) : Stays P S (Relay.call c) :=
  op hP h fun _ hr => lift fun _ he =>
    ordinary_of_legal (RelayOp.polls_of_touches h) hr (by rw [he]; rfl)

theorem contentDigest (dir : String) : Stays P S (Relay.contentDigest dir) :=
  op hP rfl fun _ hr => lift fun _ he => ordinary_of_legal rfl hr (by rw [he]; rfl)

theorem readIntent (path : String) : Stays P S (Relay.readIntent path) :=
  op hP rfl fun _ hr => lift fun _ he => ordinary_of_legal rfl hr (by rw [he]; rfl)

theorem readMetadata (dir : String) (file : MetadataFile) : Stays P S (Relay.readMetadata dir file) :=
  op hP rfl fun _ hr => lift fun _ he => ordinary_of_legal rfl hr (by rw [he]; rfl)

theorem writeMetadata (dir : String) (file : MetadataFile) (metadata : JsonObject) :
    Stays P S (Relay.writeMetadata dir file metadata) :=
  op hP rfl fun _ hr => lift fun _ he => ordinary_of_legal rfl hr (by rw [he]; rfl)

theorem removeFiles (id : JobId) : Stays P S (Relay.removeFiles id) :=
  op hP rfl fun _ hr => lift fun _ he => ordinary_of_legal rfl hr (by rw [he]; rfl)

/-- A process of its own raises what its parent makes of a failure. -/
theorem sdkCall {failed : Exc → Exc} (hfailed : ∀ e, (failed e).Ordinary) {p : Relay α}
    (hp : Uses (S := RelaySig) (fun o => o.touches = false) p) :
    Stays P S (Relay.sdkCall failed p) := by
  have hwait : ∀ k : Option Exc → Relay α, Stays P S (k none) → (∀ e, k (some e) = Eff.throw e) →
      Stays P S (Prog.op RelayOp.sdkWait k : Relay α) := by
    intro k hnone hsome
    refine op hP rfl fun r hr => ?_
    rcases r with _ | e
    · exact hnone
    · rw [hsome e]
      exact throw (ordinary_of_legal rfl hr rfl)
  induction p with
  | pure r =>
    refine hwait _ (lift ?_) fun _ => rfl
    intro e he
    rcases r with e' | a
    · cases he
      exact hfailed e'
    · cases he
  | op o k ih =>
    rw [Relay.sdkCall]
    exact hwait _ (op hP hp.1 fun r _ => ih r (hp.2 r)) fun _ => rfl
  | stuck => exact hwait _ (fun _ _ => .stuck) fun _ => rfl

end Stays

end Stays

/-! ### The payload checks -/

/-- Whatever error the outcome is, it is ordinary. -/
def OrdinaryError {α : Type} (r : Except Exc α) : Prop := ∀ e, r = .error e → e.Ordinary

namespace OrdinaryError

variable {α β : Type}

theorem ok (a : α) : OrdinaryError (.ok a) := fun _ h => nomatch h

theorem error {e : Exc} (h : e.Ordinary := by exact ⟨nofun, nofun⟩) :
    OrdinaryError (.error e : Except Exc α) := by
  intro e' he
  cases he
  exact h

theorem bind {r : Except Exc α} {f : α → Except Exc β} (hr : OrdinaryError r)
    (hf : ∀ a, OrdinaryError (f a)) : OrdinaryError (r >>= f) := by
  rcases r with e | a
  · exact error (hr e rfl)
  · exact hf a

theorem ite {c : Prop} [Decidable c] {r r' : Except Exc α} (h : OrdinaryError r)
    (h' : OrdinaryError r') : OrdinaryError (if c then r else r') := by
  split
  · exact h
  · exact h'

end OrdinaryError

theorem ordinary_splitKaggleRef (value name : String) :
    OrdinaryError (splitKaggleRef value name) := by
  have hordinary : ∀ text, (⟨.archiveError, text⟩ : Exc).Ordinary := fun _ => ⟨by rintro ⟨⟩, by rintro ⟨⟩⟩
  unfold splitKaggleRef
  dsimp only
  split
  · exact .error (hordinary _)
  · exact .ite (.error (hordinary _)) (.ok _)

namespace Relay

variable (s : Settings)

theorem ordinary_checkMetadataId (file : MetadataFile) (metadataRef expectedRef : String) :
    OrdinaryError (checkMetadataId s file metadataRef expectedRef) :=
  .ite (.ok _) (.bind (ordinary_splitKaggleRef _ _) fun _ => .bind (ordinary_splitKaggleRef _ _)
    fun _ => .ite (.error) (.ok _))

theorem ordinary_validateMetadataRef (metadata : JsonObject) (file : MetadataFile)
    (expectedRef username : String) :
    OrdinaryError (validateMetadataRef s metadata file expectedRef username) := by
  have hthrow : ∀ (α : Type) (text : String),
      OrdinaryError (throw ⟨.archiveError, text⟩ : Except Exc α) := fun _ _ => .error
  refine .ite (hthrow _ _) (.bind (ordinary_splitKaggleRef _ _) fun _ => ?_)
  exact .ite (hthrow _ _) (.ite (hthrow _ _) (.ok _))

/-! ### Processes of their own -/

theorem uses_call {c : Call} (h : (RelayOp.call c).touches = false) :
    Uses (S := RelaySig) (fun o => o.touches = false) (call c) := .perform h

theorem uses_ofVerify {α : Type} (p : Prog VerifySig α) :
    Uses (S := RelaySig) (fun o => o.touches = false) (ofVerify p) := by
  induction p with
  | pure a => trivial
  | op o k ih => exact ⟨rfl, fun r => ih r⟩
  | stuck => trivial

theorem uses_verifyDatasetContentInProcess (receipt : DatasetUploadReceipt) (datasetRef : String)
    (background : Bool) : Uses (S := RelaySig) (fun o => o.touches = false)
      (verifyDatasetContentInProcess s receipt datasetRef background) := by
  have hdigest : Uses (S := RelaySig) (fun o => o.touches = false)
    (contentDigest receipt.datasetDir) := .perform rfl
  refine .seq trivial fun _ => .seq hdigest fun _ => .seq trivial fun _ => .seq (uses_call rfl) fun _ =>
    .seq ?_ fun scope => .seq hdigest fun _ => .seq trivial fun _ => .seq (uses_ofVerify _) fun _ => ?_
  · refine .seq (uses_call rfl) fun available => ?_
    cases available with
    | true => exact .seq (uses_call rfl) fun _ => trivial
    | false => exact .seq (uses_ofVerify _) fun _ => trivial
  · cases scope with
    | some scope => exact uses_ofVerify _
    | none => trivial

theorem uses_settleUpload (path : String) (intent : Intent) (response : MutationResponse) :
    Uses (S := RelaySig) (fun o => o.touches = false) (settleUpload s path intent response) := by
  refine .seq trivial fun _ => ?_
  split
  · exact .seq ⟨rfl, fun _ => trivial⟩ fun _ => trivial
  · exact .seq ⟨rfl, fun _ => trivial⟩ fun _ => .seq trivial fun _ => ⟨rfl, fun _ => trivial⟩

theorem uses_submitDataset (datasetDir datasetRef digest : String) :
    Uses (S := RelaySig) (fun o => o.touches = false)
      (submitDataset s datasetDir datasetRef digest) := by
  refine .seq (uses_call rfl) fun _ => .seq (uses_call rfl) fun _ => .seq (uses_call rfl) fun _ =>
    .seq (uses_call rfl) fun existing => .seq ?_ fun _ => .seq ⟨rfl, fun _ => trivial⟩ fun _ =>
    .seq (.tryCatch ⟨rfl, fun _ => trivial⟩ fun _ => trivial) fun _ =>
    .seq (uses_settleUpload s _ _ _) fun _ => trivial
  cases existing with
  | true => exact .seq (uses_call rfl) fun _ => .seq trivial fun _ => trivial
  | false => trivial

theorem uses_uploadProcess (datasetDir datasetRef : String) :
    Uses (S := RelaySig) (fun o => o.touches = false) (uploadProcess s datasetDir datasetRef) := by
  refine .seq ?_ fun _ => .seq ⟨rfl, fun _ => trivial⟩ fun _ => trivial
  refine .seq (uses_call rfl) fun _ => .seq (uses_call rfl) fun _ => .seq ⟨rfl, fun _ => trivial⟩
    fun _ => .seq ⟨rfl, fun _ => trivial⟩ fun intent => ?_
  cases intent with
  | some intent =>
    exact .seq trivial fun _ => .seq trivial fun _ => .seq (uses_call rfl) fun _ => trivial
  | none => exact uses_submitDataset s _ _ _

/-! ### Programs that stay -/

section Programs

variable {s} {Ph : Type} {P : Protocol RelaySig Ph} {S : Ph → Prop} (hP : Tolerates P S)
include hP

theorem stays_uploadDataset (datasetDir datasetRef : String) :
    Stays P S (uploadDataset s datasetDir datasetRef) :=
  Stays.sdkCall hP (fun _ => by exact ⟨nofun, nofun⟩) (uses_uploadProcess s _ _)

theorem stays_verifyDatasetContent (receipt : DatasetUploadReceipt) (datasetRef : String)
    (background : Bool) : Stays P S (verifyDatasetContent s receipt datasetRef background) :=
  Stays.sdkCall hP (fun _ => by exact ⟨nofun, nofun⟩) (uses_verifyDatasetContentInProcess s _ _ _)

theorem stays_backoff {cancelCheck : Relay Unit} (hc : Stays P S cancelCheck) (wakeAt : ℚ) (n : ℕ) :
    Stays P S ((waitActions s cancelCheck).backoff wakeAt n) := by
  induction n with
  | zero => exact .hang
  | succ n ih =>
    refine .bind (.perform hP rfl) fun t => ?_
    split
    · exact .pure _
    · exact .bind (.call hP rfl) fun _ => .bind hc fun _ => .bind (.perform hP rfl) fun _ =>
        .bind (.call hP rfl) fun _ => ih

theorem stays_retryRemaining (cancelCheck : Relay Unit) (st : WaitState) :
    Stays P S ((waitActions s cancelCheck).retryRemaining st) := by
  unfold WaitActions.retryRemaining
  split
  · exact .pure _
  · exact .bind (.perform hP rfl) fun _ => .bind (.raiseIf ⟨nofun, nofun⟩) fun _ => .pure _

theorem stays_publicationRemaining (cancelCheck : Relay Unit) (grace : ℤ) (st : WaitState) :
    Stays P S ((waitActions s cancelCheck).publicationRemaining grace st) :=
  .bind (.perform hP rfl) fun _ => .bind (.raiseIf ⟨nofun, nofun⟩) fun _ => .pure _

theorem stays_retryTransient {cancelCheck : Relay Unit} (hc : Stays P S cancelCheck) (grace : ℤ)
    (elapsed : ℚ) (failure : Failure) (detail : String) (st : WaitState) :
    Stays P S ((waitActions s cancelCheck).retryTransient grace elapsed failure detail st) := by
  have htail : ∀ deadline, Stays P S (do
      let attempts := st.transientAttempts + 1
      let now ← (waitActions s cancelCheck).monotonic
      let remaining := min (deadline - now) (grace - elapsed)
      let jitter ← (waitActions s cancelCheck).uniform
      let delay := max (failure.retryAfter.getD 0) (min 60 (5 * 2 ^ min (attempts - 1) 4) + jitter)
      Eff.raiseIf (5 < attempts ∨ remaining ≤ delay)
        (retryExhausted (Text.lastChars 1200 detail) failure.httpStatus failure.retryAfter)
      let now ← (waitActions s cancelCheck).monotonic
      let turns ← (waitActions s cancelCheck).turns
      (waitActions s cancelCheck).backoff (now + delay) turns
      pure { st with transientAttempts := attempts, retryDeadline := some deadline } :
        Relay WaitState) := fun deadline =>
    .bind (.perform hP rfl) fun _ => .bind (.perform hP rfl) fun _ =>
      .bind (.raiseIf ⟨nofun, nofun⟩) fun _ => .bind (.perform hP rfl) fun _ =>
      .bind (.perform hP rfl) fun n => .bind (stays_backoff hP hc _ n) fun _ => .pure _
  unfold WaitActions.retryTransient
  split
  · exact htail _
  · exact .bind (.perform hP rfl) fun _ => htail _

theorem stays_retryVerification {cancelCheck : Relay Unit} (hc : Stays P S cancelCheck)
    (pollSeconds visibilityGrace grace version : ℤ) (background : Bool) {e : Exc}
    (he : e.Ordinary) (st : WaitState) :
    Stays P S ((waitActions s cancelCheck).retryVerification s.redactSecrets pollSeconds
      visibilityGrace grace version background e st) := by
  refine .bind (.perform hP rfl) fun t => ?_
  dsimp only
  split
  · exact .throw ⟨nofun, nofun⟩
  · split
    · exact .bind (.raiseIf ⟨nofun, nofun⟩) fun _ => .bind (.call hP rfl) fun _ => .pure _
    · split
      · exact .bind (.raiseIf he) fun _ => .bind (.call hP rfl) fun _ => .pure _
      · split
        · exact stays_retryTransient hP hc _ _ _ _ _
        · exact .throw he

theorem stays_waitTurns {cancelCheck : Relay Unit} (hc : Stays P S cancelCheck)
    (pollSeconds visibilityGrace grace : ℤ) (datasetRef : String) (receipt : DatasetUploadReceipt)
    (background : Bool) (n : ℕ) (st : WaitState) :
    Stays P S ((waitActions s cancelCheck).waitTurns s.redactSecrets pollSeconds visibilityGrace
      grace datasetRef receipt background n st) := by
  induction n generalizing st with
  | zero => exact .hang
  | succ n ih =>
    refine .bind (.call hP rfl) fun _ => .bind hc fun _ => .bind (stays_retryRemaining hP _ _)
      fun _ => .bind (stays_publicationRemaining hP _ _ _) fun _ =>
      .attempt (stays_verifyDatasetContent hP _ _ _) (fun _ => ?_) fun e he => ?_
    · exact .bind (.perform hP rfl) fun _ => .pure _
    · exact .bind (.perform hP rfl) fun _ =>
        .bind (stays_retryVerification hP hc _ _ _ _ _ he _) fun st => ih st

/-- The wait for a version that verifies, with its checks for a cancellation. -/
theorem stays_waitDataset {cancelCheck : Relay Unit} (hc : Stays P S cancelCheck)
    (datasetRef : String) (receipt : DatasetUploadReceipt) (background : Bool) :
    Stays P S (waitDataset s cancelCheck datasetRef receipt background) :=
  .bind (.perform hP rfl) fun _ => .bind (.perform hP rfl) fun n =>
    stays_waitTurns hP hc _ _ _ _ _ _ n _

theorem stays_requireFile (dir name : String) : Stays P S (requireFile dir name) := .call hP rfl

theorem stays_pinKernelDatasetVersion (kernelDir datasetRef : String) (version : ℤ) :
    Stays P S (pinKernelDatasetVersion s kernelDir datasetRef version) := by
  unfold pinKernelDatasetVersion
  split
  · exact .pure _
  · refine .bind (stays_requireFile hP _ _) fun _ => .bind (.readMetadata hP _ _) fun metadata => ?_
    split
    · exact .writeMetadata hP _ _ _
    · exact .pure _

theorem stays_prepareMetadataRef (dir : String) (file : MetadataFile)
    (expectedRef finalDatasetRef : String) :
    Stays P S (prepareMetadataRef s dir file expectedRef finalDatasetRef) := by
  refine .bind (.readMetadata hP _ _) fun metadata => .bind (.lift ?_) fun _ => ?_
  · exact OrdinaryError.ite (.ok _) (ordinary_checkMetadataId s _ _ _)
  · dsimp only
    exact .ite (.bind (.writeMetadata hP _ _ _) fun _ => .pure _) (.pure _)

theorem stays_validateKernelPayload (kernelDir kernelRef username datasetRef : String) :
    Stays P S (validateKernelPayload s kernelDir kernelRef username datasetRef) :=
  .bind (stays_requireFile hP _ _) fun _ => .bind (stays_prepareMetadataRef hP _ _ _ _) fun _ =>
    .bind (.lift (ordinary_validateMetadataRef s _ _ _ _)) fun _ => stays_requireFile hP _ _

theorem stays_validatePayloads (datasetDir kernelDir datasetRef kernelRef username : String) :
    Stays P S (validatePayloads s datasetDir kernelDir datasetRef kernelRef username) :=
  .bind (stays_requireFile hP _ _) fun _ => .bind (stays_prepareMetadataRef hP _ _ _ _) fun _ =>
    .bind (.lift (ordinary_validateMetadataRef s _ _ _ _)) fun _ =>
    stays_validateKernelPayload hP _ _ _ _

theorem stays_getReadyDatasetCache (datasetRef payloadHash keyId : String) :
    Stays P S (getReadyDatasetCache s datasetRef payloadHash keyId) := by
  unfold getReadyDatasetCache
  split
  · exact .pure _
  · refine .bind (.perform hP rfl) fun cache => ?_
    rcases cache with _ | cache
    · refine .bind (.perform hP rfl) fun last => ?_
      rcases last with _ | last
      · exact .pure _
      · dsimp only
        split
        · exact .bind (.perform hP rfl) fun _ => .perform hP rfl
        · exact .pure _
    · dsimp only
      split
      · exact .pure _
      · exact .pure _

/-- An intent that cannot be read counts as none, or what reading it raises is
ordinary. -/
theorem stays_intentForRecovery (id : JobId) (datasetRef : String) :
    Stays P S (intentForRecovery s id datasetRef) := by
  refine .tryCatch (.readIntent hP _) fun e he => ?_
  split
  · exact .pure _
  · exact .throw he

end Programs

end Relay

end KaggleRelay

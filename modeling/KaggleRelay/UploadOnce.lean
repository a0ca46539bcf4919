/-
A Dataset directory is uploaded at most once.

An upload writes an intent before it calls the provider, and the outcome after
it.  Between the two the relay may die, the SDK process may be stopped, and the
provider's answer may be lost; rechecks, resumed jobs and restarts come back to
the same directory any number of times.

* `UploadEvent` and `Logged` — the calls that change a Dataset, and the receipts, of
  a run;
* `uploading` — the rules a job's tasks keep to, and `obeys_runWorkerItem`;
* `uploads_step` — what the rules mean for the intents on disk;
* `uploaded_at_most_once` — one call for one directory, behind an intent that
  only moves from `unknown` to its outcome, and one receipt.
-/
import KaggleRelay.Footprint

namespace KaggleRelay

open Effects JsonText

/-! ### What a run uploads -/

/-- An intent that is written, a call that changes a Dataset, or a receipt that
an upload process prints. -/
inductive UploadEvent where
  | recorded (path : String) (intent : Intent)
  | mutated (operation : UploadOperation) (datasetDir datasetRef : String)
  | printed (datasetRef : String) (receipt : DatasetUploadReceipt)
  deriving DecidableEq, Repr

namespace UploadEvent

/-- It is a call for this directory and this Dataset. -/
def mutates (datasetDir datasetRef : String) : UploadEvent → Bool
  | mutated _ dir ref => dir == datasetDir && ref == datasetRef
  | _ => false

/-- It is a call or a receipt for this directory and this Dataset. -/
def About (datasetDir datasetRef : String) : UploadEvent → Prop
  | recorded _ _ => False
  | mutated _ dir ref => dir = datasetDir ∧ ref = datasetRef
  | printed ref receipt => receipt.datasetDir = datasetDir ∧ ref = datasetRef

/-- It is what the intent says. -/
def Agrees (intent : Intent) : UploadEvent → Prop
  | recorded _ _ => True
  | mutated operation datasetDir datasetRef => intent.operation = operation ∧
      intent.datasetDir = datasetDir ∧ intent.datasetRef = datasetRef
  | printed datasetRef receipt => intent.state ≠ .rejected ∧ intent.datasetRef = datasetRef ∧
      receipt = ⟨intent.versionNumber, intent.datasetDir, intent.contentSha256⟩

theorem about_of_mutates {datasetDir datasetRef : String} {event : UploadEvent}
    (h : event.mutates datasetDir datasetRef = true) : event.About datasetDir datasetRef := by
  cases event with
  | mutated operation dir ref =>
    simp only [mutates, Bool.and_eq_true, beq_iff_eq] at h
    exact h
  | _ => cases h

/-- A call or a receipt has the scope of an intent that it agrees with. -/
theorem Agrees.scope {intent : Intent} {event : UploadEvent} {datasetDir datasetRef : String}
    (h : event.Agrees intent) (habout : event.About datasetDir datasetRef) :
    intent.datasetDir = datasetDir ∧ intent.datasetRef = datasetRef := by
  cases event with
  | recorded path intent => exact habout.elim
  | mutated operation dir ref => exact ⟨h.2.1.trans habout.1, h.2.2.trans habout.2⟩
  | printed ref receipt =>
    refine ⟨?_, h.2.1.trans habout.2⟩
    rw [← habout.1, h.2.2]

end UploadEvent

def RelayOp.uploads : RelayOp → List UploadEvent
  | .writeIntent path intent => [.recorded path intent]
  | .mutateDataset operation datasetDir datasetRef => [.mutated operation datasetDir datasetRef]
  | .printReceipt datasetRef receipt => [.printed datasetRef receipt]
  | _ => []

/-- No two scopes share the path of their intents: the digests in the paths do
not collide on the scopes of the run. -/
def Distinct (log : List UploadEvent) : Prop :=
  ∀ path intent intent', .recorded path intent ∈ log → .recorded path intent' ∈ log →
    intent.datasetDir = intent'.datasetDir ∧ intent.datasetRef = intent'.datasetRef

theorem Distinct.of_append {new log : List UploadEvent} (h : Distinct (new ++ log)) : Distinct log :=
  fun path intent intent' hmem hmem' =>
    h path intent intent' (List.mem_append_right _ hmem) (List.mem_append_right _ hmem')

namespace World

/-- The states a relay reaches, with what it has uploaded on the way, the last
first. -/
inductive Logged (s : Settings) : World → List UploadEvent → Prop where
  | empty : Logged s empty []
  | step {w w' : World} {log : List UploadEvent} (h : Logged s w log) (a : Action) (hs : step s a w = some w') :
    Logged s w' ((w.performs a).elim [] RelayOp.uploads ++ log)

variable {s : Settings} {w w' : World} {log : List UploadEvent}

theorem Logged.reachable (h : Logged s w log) : Reachable s w := by
  induction h with
  | empty => exact .empty
  | step _ a hs ih => exact .step ih a hs

/-- Every run has a log. -/
theorem Logged.of_reachable (h : Reachable s w) : ∃ log, Logged s w log := by
  induction h with
  | empty => exact ⟨[], .empty⟩
  | step _ a hs ih =>
    obtain ⟨log, hlog⟩ := ih
    exact ⟨_, hlog.step a hs⟩

end World

/-! ### The rules -/

/-- How far a task is with an upload. -/
inductive UploadPhase where
  | idle
  /-- It has found no intent at the path. -/
  | clear (path : String)
  /-- It has written the intent. -/
  | recorded (intent : Intent)
  /-- It has called the provider. -/
  | issued (intent : Intent)
  /-- It knows the intent at the path. -/
  | known (path : String) (intent : Intent)

/-- The outcome of an intent. -/
def Intent.Settles (intent settled : Intent) : Prop :=
  settled.state ≠ .unknown ∧ settled = { intent with state := settled.state }

/-- A receipt that the intent stands for. -/
def Intent.Covers (intent : Intent) (datasetDir datasetRef : String) (receipt : DatasetUploadReceipt) : Prop :=
  intent.state ≠ .rejected ∧ intent.datasetRef = datasetRef ∧ intent.datasetDir = datasetDir ∧
    receipt = ⟨intent.versionNumber, intent.datasetDir, intent.contentSha256⟩

namespace Relay

variable (s : Settings) (id : JobId)

/-- What a task of the job may do in a phase. -/
inductive UploadOp : UploadPhase → RelayOp → Prop
  | record {intent : Intent} (hstate : intent.state = .unknown) (hdir : intent.datasetDir = s.datasetDir id) :
    UploadOp (.clear (intentPath s intent.datasetDir intent.datasetRef))
      (.writeIntent (intentPath s intent.datasetDir intent.datasetRef) intent)
  | issue {intent : Intent} :
    UploadOp (.recorded intent) (.mutateDataset intent.operation intent.datasetDir intent.datasetRef)
  | settle {intent settled : Intent} (h : intent.Settles settled) :
    UploadOp (.issued intent) (.writeIntent (intentPath s intent.datasetDir intent.datasetRef) settled)
  | print {intent : Intent} {datasetRef : String} {receipt : DatasetUploadReceipt}
    (h : intent.Covers (s.datasetDir id) datasetRef receipt) :
    UploadOp (.known (intentPath s (s.datasetDir id) datasetRef) intent) (.printReceipt datasetRef receipt)
  | other {ph : UploadPhase} {o : RelayOp} (h : o.Within (· ≠ .intent)) : UploadOp ph o

/-- The phase an answer leads to. -/
def uploadAfter : UploadPhase → (o : RelayOp) → o.Res → UploadPhase
  | _, .readIntent path, .ok none => .clear path
  | _, .readIntent path, .ok (some intent) => .known path intent
  | _, .readIntent _, .error _ => .idle
  | _, .writeIntent path intent, .ok () => if intent.state = .unknown then .recorded intent else .known path intent
  | _, .writeIntent _ _, .error _ => .idle
  | .recorded intent, .mutateDataset _ _ _, _ => .issued intent
  | ph, _, _ => ph

theorem uploadAfter_written (ph : UploadPhase) (path : String) (intent : Intent) :
    uploadAfter ph (.writeIntent path intent) (.ok ()) =
      if intent.state = .unknown then .recorded intent else .known path intent := by
  cases ph <;> rfl

/-- An operation without the mark leaves the phase, unless it reads an intent. -/
theorem uploadAfter_aside (ph : UploadPhase) {o : RelayOp} (h : o.Within (· ≠ .intent))
    (hread : ∀ path, o ≠ .readIntent path) (r : o.Res) : uploadAfter ph o r = ph := by
  cases o with
  | readIntent path => exact absurd rfl (hread path)
  | writeIntent path intent => exact absurd rfl h
  | mutateDataset operation datasetDir datasetRef => exact absurd rfl h
  | _ => cases ph <;> rfl

/-- The rules for the tasks of a job. -/
def uploading : Protocol RelaySig UploadPhase where
  allows := UploadOp s id
  answers _ _ _ := True
  after := uploadAfter

/-- The program keeps to the rules from every phase. -/
def Obeys {α : Type} (p : Relay α) : Prop :=
  ∀ ph, Follows (uploading s id) (fun _ _ => True) (p : Prog RelaySig (Except Exc α)) ph

variable {s id}

namespace Obeys

variable {α β : Type}

theorem seq {p : Relay α} {f : α → Relay β} (hp : Obeys s id p) (hf : ∀ a, Obeys s id (f a)) :
    Obeys s id (Eff.bind p f) := by
  refine fun ph => Follows.bind (hp ph) ?_
  rintro (e | a) ph' -
  · exact .pure trivial
  · exact hf a ph'

theorem tryCatch {p : Relay α} {handler : Exc → Relay α} (hp : Obeys s id p)
    (hh : ∀ e, Obeys s id (handler e)) : Obeys s id (Eff.tryCatch p handler) := by
  refine fun ph => Follows.bind (hp ph) ?_
  rintro (e | a) ph' -
  · exact hh e ph'
  · exact .pure trivial

theorem attempt {p : Relay α} (hp : Obeys s id p) : Obeys s id (Eff.attempt p) :=
  fun ph => Follows.bind (hp ph) fun _ _ _ => .pure trivial

theorem pure (a : Except Exc α) : Obeys s id (Prog.pure a : Relay α) := fun _ => .pure trivial

/-- A program that leaves the intents alone. -/
theorem of_marked {p : Relay α} (hp : Marked (· ≠ .intent) p) : Obeys s id p :=
  fun _ => Follows.of_allowed (fun _ h _ => UploadOp.other h) hp

theorem sdkCall {failed : Exc → Exc} {p : Relay α} {ph : UploadPhase}
    (hp : Follows (uploading s id) (fun _ _ => True) (p : Prog RelaySig (Except Exc α)) ph) :
    Follows (uploading s id) (fun _ _ => True) (Relay.sdkCall failed p : Prog RelaySig (Except Exc α)) ph := by
  have hwait : ∀ (p : Relay α) (k : Option Exc → Relay α) (ph : UploadPhase),
      (∀ e, k (some e) = Prog.pure (.error e)) →
      Follows (uploading s id) (fun _ _ => True) (k none : Prog RelaySig (Except Exc α)) ph →
      Follows (uploading s id) (fun _ _ => True) (Prog.op RelayOp.sdkWait k : Prog RelaySig (Except Exc α)) ph := by
    intro p k ph hstop hgo
    refine .op (UploadOp.other trivial) fun r _ => ?_
    rcases r with _ | e
    · exact hgo
    · rw [hstop e]
      exact .pure trivial
  induction p generalizing ph with
  | pure r => exact hwait (.pure r) _ _ (fun _ => rfl) (.pure trivial)
  | op o k ih =>
    rw [Relay.sdkCall]
    obtain ⟨hallows, hk⟩ := hp.of_op
    exact hwait (.op o k) _ _ (fun _ => rfl) (.op hallows fun r hr => ih r (hk r hr))
  | stuck => exact hwait .stuck _ _ (fun _ => rfl) .stuck

end Obeys

/-! ### The upload itself -/

/-- An operation that leaves the intents and the phase alone. -/
theorem follows_aside {α : Type} {o : RelayOp} {ph : UploadPhase} {f : o.Res → Except Exc α}
    (h : o.Within (· ≠ .intent)) (hafter : ∀ r, uploadAfter ph o r = ph) :
    Follows (uploading s id) (post (fun _ ph' => ph' = ph) fun _ _ => True)
      (Prog.op o fun r => .pure (f r) : Prog RelaySig (Except Exc α)) ph := by
  refine .op (UploadOp.other h) fun r _ => .pure ?_
  rcases f r with e | a
  · trivial
  · exact hafter r

theorem follows_uploadCall (c : Call) (ph : UploadPhase) :
    Follows (uploading s id) (post (fun _ ph' => ph' = ph) fun _ _ => True) (call c) ph :=
  follows_aside (o := .call c) (f := fun r => r) trivial fun _ => rfl

theorem follows_uploadDigest (dir : String) (ph : UploadPhase) :
    Follows (uploading s id) (post (fun _ ph' => ph' = ph) fun _ _ => True) (contentDigest dir) ph :=
  follows_aside (o := .contentDigest dir) (f := fun r => r) trivial fun _ => rfl

/-- Writing the outcome of an intent. -/
theorem follows_settle {intent settled : Intent} (h : intent.Settles settled) :
    Follows (uploading s id)
      (post (fun _ ph' => ph' = .known (intentPath s intent.datasetDir intent.datasetRef) settled) fun _ _ => True)
      (writeIntent (intentPath s intent.datasetDir intent.datasetRef) settled) (.issued intent) := by
  refine .op (UploadOp.settle h) fun r _ => .pure ?_
  rcases r with e | _
  · trivial
  · exact if_neg h.1

theorem follows_settleUpload (intent : Intent) (response : MutationResponse) :
    Follows (uploading s id)
      (post (fun _ ph' => ph' = .known (intentPath s intent.datasetDir intent.datasetRef)
        { intent with state := .accepted }) fun _ _ => True)
      (settleUpload s (intentPath s intent.datasetDir intent.datasetRef) intent response) (.issued intent) := by
  have hrejected : intent.Settles { intent with state := .rejected } := ⟨by rintro ⟨⟩, rfl⟩
  have haccepted : intent.Settles { intent with state := .accepted } := ⟨by rintro ⟨⟩, rfl⟩
  refine Follows.seq (Follows.raiseIf fun _ => trivial) ?_
  rintro _ _ ⟨-, rfl⟩
  refine Follows.ite (fun _ => ?_) fun _ => ?_
  · exact Follows.seq (follows_settle hrejected) fun _ _ _ => .pure trivial
  · refine Follows.seq (follows_uploadDigest _ _) ?_
    rintro _ _ rfl
    refine Follows.seq (Follows.raiseIf fun _ => trivial) ?_
    rintro _ _ ⟨-, rfl⟩
    exact follows_settle haccepted

/-- An upload ends with a receipt that a settled intent stands for. -/
theorem follows_submitDataset (datasetRef digest : String) :
    Follows (uploading s id)
      (post (fun receipt ph' => ∃ intent, intent.Covers (s.datasetDir id) datasetRef receipt ∧
        ph' = .known (intentPath s (s.datasetDir id) datasetRef) intent) fun _ _ => True)
      (submitDataset s (s.datasetDir id) datasetRef digest)
      (.clear (intentPath s (s.datasetDir id) datasetRef)) := by
  refine Follows.seq (follows_uploadCall (.authenticate _) _) ?_
  rintro _ _ rfl
  refine Follows.seq (follows_uploadCall .checkDownloadSupport _) ?_
  rintro _ _ rfl
  refine Follows.seq (follows_uploadCall (.checkMetadataId _ _) _) ?_
  rintro _ _ rfl
  refine Follows.seq (follows_uploadCall (.ownedDatasetExists _) _) ?_
  rintro existing _ rfl
  have hversion : ∀ ph, Follows (uploading s id) (post (fun _ ph' => ph' = ph) fun _ _ => True)
      (expectedVersion datasetRef existing) ph := by
    intro ph
    refine Follows.ite (fun _ => ?_) fun _ => .pure rfl
    refine Follows.seq (follows_uploadCall (.datasetVersionNumber _) _) ?_
    rintro _ _ rfl
    exact Follows.seq (Follows.raiseIf fun _ => trivial) fun _ _ h => .pure h.2
  refine Follows.seq (hversion _) ?_
  rintro version _ rfl
  dsimp only
  generalize hintent : (⟨datasetRef, s.datasetDir id, digest, version,
    if existing = true then UploadOperation.version else .create, .unknown⟩ : Intent) = intent
  have hdir : intent.datasetDir = s.datasetDir id := by rw [← hintent]
  have href : intent.datasetRef = datasetRef := by rw [← hintent]
  have hstate : intent.state = .unknown := by rw [← hintent]
  -- the intent is on disk before the provider is called
  have hrecord : Follows (uploading s id) (post (fun _ ph' => ph' = .recorded intent) fun _ _ => True)
      (writeIntent (intentPath s intent.datasetDir intent.datasetRef) intent)
      (.clear (intentPath s intent.datasetDir intent.datasetRef)) := by
    refine .op (UploadOp.record hstate hdir) fun r _ => .pure ?_
    rcases r with e | _
    · trivial
    · exact if_pos hstate
  have hissue : ∀ operation, operation = intent.operation → Follows (uploading s id)
      (post (fun _ ph' => ph' = .issued intent) fun _ _ => True)
      (Eff.tryCatch (mutateDataset operation intent.datasetDir intent.datasetRef) fun _ =>
        Eff.throw (.uploadUnknown "Dataset upload outcome unknown; original candidate retained"))
      (.recorded intent) := by
    rintro _ rfl
    have hcall : Follows (uploading s id) (post (fun _ ph' => ph' = .issued intent) fun _ _ => True)
        (mutateDataset intent.operation intent.datasetDir intent.datasetRef) (.recorded intent) := by
      refine .op UploadOp.issue fun r _ => .pure ?_
      rcases r with e | _
      · trivial
      · rfl
    exact Follows.tryCatch hcall fun _ _ _ => .pure trivial
  have hcovers : ({ intent with state := .accepted } : Intent).Covers (s.datasetDir id) datasetRef
      ⟨version, s.datasetDir id, digest⟩ := by
    rw [← hintent]
    exact ⟨by rintro ⟨⟩, rfl, rfl, rfl⟩
  rw [← hdir, ← href] at hcovers ⊢
  refine Follows.seq hrecord ?_
  rintro _ _ rfl
  refine Follows.seq (hissue _ (by rw [← hintent])) ?_
  rintro response _ rfl
  refine Follows.seq (follows_settleUpload intent response) ?_
  rintro _ _ rfl
  exact .pure ⟨_, hcovers, rfl⟩

theorem follows_uploadInProcess (datasetRef : String) (ph : UploadPhase) :
    Follows (uploading s id)
      (post (fun receipt ph' => ∃ intent, intent.Covers (s.datasetDir id) datasetRef receipt ∧
        ph' = .known (intentPath s (s.datasetDir id) datasetRef) intent) fun _ _ => True)
      (uploadDatasetInProcess s (s.datasetDir id) datasetRef) ph := by
  refine Follows.seq (follows_uploadCall .checkInterrupted _) ?_
  rintro _ _ rfl
  refine Follows.seq (follows_uploadCall (.uploadInventory _) _) ?_
  rintro _ _ rfl
  refine Follows.seq (follows_uploadDigest _ _) ?_
  rintro digest _ rfl
  have hread : ∀ (path : String) (ph : UploadPhase), Follows (uploading s id)
      (post (fun saved ph' => ph' = saved.elim (.clear path) (.known path)) fun _ _ => True) (readIntent path) ph := by
    intro path ph
    refine .op (UploadOp.other trivial) fun r _ => .pure ?_
    rcases r with e | _ | intent
    · trivial
    · rfl
    · rfl
  refine Follows.seq (hread _ _) ?_
  rintro saved _ rfl
  rcases saved with _ | intent
  · exact follows_submitDataset datasetRef digest
  · refine Follows.seq (Follows.raiseIf fun _ => trivial) ?_
    rintro _ _ ⟨hscope, rfl⟩
    simp only [not_or, not_not] at hscope
    obtain ⟨href, hdigest, hdir⟩ := hscope
    refine Follows.seq (Follows.raiseIf fun _ => trivial) ?_
    rintro _ _ ⟨haccepted, rfl⟩
    refine Follows.seq (follows_uploadCall (.requireIdentity _) _) ?_
    rintro _ _ rfl
    refine .pure ⟨intent, ⟨haccepted, href, hdir, ?_⟩, rfl⟩
    rw [hdir, hdigest]

theorem obeys_uploadDataset (datasetRef : String) :
    Obeys s id (uploadDataset s (s.datasetDir id) datasetRef) := by
  refine fun ph => Obeys.sdkCall (Follows.mono (Q := post (fun _ _ => True) fun _ _ => True) ?_ fun _ _ _ => trivial)
  refine Follows.seq (follows_uploadInProcess datasetRef ph) ?_
  rintro receipt _ ⟨intent, hcovers, rfl⟩
  refine .op (UploadOp.print hcovers) fun _ _ => .pure trivial

/-! ### The tasks of a job -/

attribute [local irreducible] Settings.readyDatasetVersion Settings.isReadyDatasetStatus

theorem obeys_datasetReceipt (job : Job) (retained : Option Intent) :
    Obeys s id (datasetReceipt s id job retained) := by
  rcases retained with _ | intent
  · refine .seq (.of_marked (marked_transitionBeforeSubmission _ _ _ _ _)) fun _ => ?_
    exact .seq (obeys_uploadDataset _) fun _ =>
      .seq (.of_marked (marked_transitionBeforeSubmission _ _ _ _ _)) fun _ => .pure _
  · exact .seq (.of_marked (marked_transitionBeforeSubmission _ _ _ _ _)) fun _ => .pure _

theorem recheck_ne_intent : Mark.recheck ≠ .intent := by rintro ⟨⟩

theorem metadata_ne_intent : Mark.metadata ≠ .intent := by rintro ⟨⟩

theorem push_ne_intent : Mark.push ≠ .intent := by rintro ⟨⟩

theorem obeys_provideDataset (job : Job) (username : String) (retained : Option Intent) :
    Obeys s id (provideDataset s id job username retained) := by
  refine .seq (.of_marked (marked_stopIfCancelRequested _ _)) fun _ => ?_
  refine .seq (.of_marked (marked_validatePayloads metadata_ne_intent _ _ _ _ _)) fun _ => ?_
  refine .seq (obeys_datasetReceipt _ _) fun _ => .of_marked ?_
  refine Uses.seq (marked_waitDataset (marked_stopIfCancelRequested _ _) _ _ _) fun datasetStatus => ?_
  refine Uses.seq (marked_updateJob (within_verified recheck_ne_intent datasetStatus)) fun _ => ?_
  exact Uses.seq (marked_stopIfCancelRequested _ _) fun _ => marked_recordDataset metadata_ne_intent _ _ _

theorem obeys_submitKernel (job : Job) (username : String) (retainedCandidateOnly : Bool) :
    Obeys s id (submitKernel s id job username retainedCandidateOnly) := by
  refine .seq (.of_marked (marked_stopIfCancelRequested _ _)) fun _ => .seq (.pure _) fun _ =>
    .seq (.of_marked (marked_call _)) fun _ => .seq (.of_marked (marked_getReadyDatasetCache _ _ _)) fun cache =>
    .seq (.of_marked (marked_readIntent _)) fun saved =>
    .seq (.of_marked (marked_retainedCandidate _ _ _ _)) fun retained => .seq ?_ fun _ =>
    .of_marked (marked_pushJob push_ne_intent _ _)
  unfold prepareDataset
  split
  · exact .of_marked (marked_reuseDataset metadata_ne_intent _ _ _ _)
  · exact obeys_provideDataset _ _ _

theorem obeys_processJob (retainedCandidateOnly : Bool) : Obeys s id (processJob s id retainedCandidateOnly) := by
  refine .seq (.of_marked (marked_getJob _)) fun job => ?_
  rcases job with _ | job
  · exact .pure _
  · refine .tryCatch ?_ fun _ => .of_marked (marked_handleException recheck_ne_intent _ _ _)
    refine .seq (.of_marked (marked_call _)) fun _ => .seq (.of_marked (marked_call _)) fun _ => .seq ?_ fun _ =>
      .of_marked (marked_finishKernelJob _ _)
    refine .seq (.of_marked (marked_call _)) fun _ => .seq (.attempt (obeys_submitKernel _ _ _)) fun _ => ?_
    exact .seq (.of_marked (marked_perform (o := .unlockDataset _) trivial)) fun _ => .pure _

/-- A task of the worker loop keeps to the rules. -/
theorem obeys_runWorkerItem (action : QueueAction) : Obeys s id (runWorkerItem s id action) := by
  refine .seq (.of_marked (marked_updateJob (.of_plain rfl rfl))) fun _ =>
    .tryCatch ?_ fun _ => .of_marked (marked_markWorkerException _ _)
  rcases action with _ | _ | finalStatus
  · exact obeys_processJob _
  · exact obeys_processJob _
  · exact .of_marked (marked_resumeKernelJob _ _)

end Relay

namespace World

open Relay

variable {s : Settings} {w w' w₁ : World} {log : List UploadEvent} {id : JobId} {a : Action}

theorem datasetDir_injective (s : Settings) : Function.Injective s.datasetDir := by
  intro id id' h
  simp only [Settings.datasetDir, String.append_assoc] at h
  have htail := String.append_right_inj _ |>.mp (String.append_right_inj _ |>.mp h)
  exact String.append_left_inj _ |>.mp htail

/-! ### What the rules mean for the intents on disk -/

/-- Nothing of this scope has been uploaded. -/
def Unissued (log : List UploadEvent) (intent : Intent) : Prop :=
  ∀ event ∈ log, ¬event.About intent.datasetDir intent.datasetRef

/-- What a task in a phase can rely on. -/
def Holds (s : Settings) (w : World) (log : List UploadEvent) (id : JobId) : UploadPhase → Prop
  | .idle => True
  | .clear path => ∀ intent, w.intents path = some intent → intent.datasetDir ≠ s.datasetDir id
  | .recorded intent => intent.datasetDir = s.datasetDir id ∧ intent.state = .unknown ∧
      w.intents (intentPath s intent.datasetDir intent.datasetRef) = some intent ∧ Unissued log intent
  | .issued intent => intent.datasetDir = s.datasetDir id ∧ intent.state = .unknown ∧
      w.intents (intentPath s intent.datasetDir intent.datasetRef) = some intent ∧
      ∀ receipt, .printed intent.datasetRef receipt ∈ log → receipt.datasetDir ≠ intent.datasetDir
  | .known path intent => intent.datasetDir = s.datasetDir id → w.intents path = some intent

/-- Every intent has been written, every call and receipt is covered by an
intent, and a scope is uploaded once. -/
structure Accounted (s : Settings) (w : World) (log : List UploadEvent) : Prop where
  written : ∀ path intent, w.intents path = some intent → .recorded path intent ∈ log
  covered : ∀ datasetDir datasetRef, ∀ event ∈ log, event.About datasetDir datasetRef →
    ∃ intent, w.intents (intentPath s datasetDir datasetRef) = some intent ∧ event.Agrees intent
  once : ∀ datasetDir datasetRef, (log.filter (UploadEvent.mutates datasetDir datasetRef)).length ≤ 1

/-- The tasks keep to the rules, and what they rely on holds. -/
structure Uploading (s : Settings) (w : World) (log : List UploadEvent) (ph : JobId → UploadPhase) : Prop where
  follows : ∀ id t, w.active id = some t →
    Follows (uploading s id) (fun _ _ => True) (t.program : Prog RelaySig (Except Exc Unit)) (ph id)
  holds : ∀ id, Holds s w log id (ph id)
  accounted : Accounted s w log

/-- The intent stays, or its outcome is written. -/
def Evolves (w w' : World) : Prop :=
  ∀ path intent, w.intents path = some intent → ∃ settled, w'.intents path = some settled ∧
    (settled = intent ∨ (intent.state = .unknown ∧ intent.Settles settled))

/-- Only intents of the directory are written. -/
structure Apart (w w' : World) (datasetDir : String) : Prop where
  kept : ∀ path intent, w.intents path = some intent → intent.datasetDir ≠ datasetDir →
    w'.intents path = some intent
  own : ∀ path intent, w'.intents path = some intent →
    w.intents path = some intent ∨ intent.datasetDir = datasetDir

theorem uploading_empty : Uploading s empty [] fun _ => .idle where
  follows _ _ h := by cases h
  holds _ := trivial
  accounted := ⟨fun _ _ h => (by cases h), fun _ _ _ h => (by cases h), fun _ _ => Nat.zero_le 1⟩

theorem Evolves.of_eq (h : w'.intents = w.intents) : Evolves w w' :=
  fun path intent hpath => ⟨intent, (congrFun h path).trans hpath, .inl rfl⟩

theorem Apart.of_eq {datasetDir : String} (h : w'.intents = w.intents) : Apart w w' datasetDir :=
  ⟨fun path _ hpath _ => (congrFun h path).trans hpath, fun path _ hpath => .inl ((congrFun h path).symm.trans hpath)⟩

/-- An operation without the mark leaves the intents as they are. -/
theorem intents_perform {c : Choice} {o : RelayOp} {r : o.Res} (h : o.Within (· ≠ .intent))
    (hperform : perform s c o w = (r, w₁)) : w₁.intents = w.intents := by
  have hw : (perform s c o w).2.intents = w.intents := by
    cases o with
    | writeIntent path intent => exact absurd rfl h
    | updateJobIfStatus id' expected nc ek values =>
      simp only [perform, updateIfStatus]
      rcases w.jobs id' with _ | job
      · rfl
      · rw [Option.bind_some]
        rcases KaggleRelay.updateJobIfStatus (c.answers .now) expected nc ek values job with _ | job' <;> rfl
    | updateJobIfStatusAndPut id' expected nc values put action =>
      simp only [perform, updateIfStatus]
      rcases w.jobs id' with _ | job
      · rfl
      · rw [Option.bind_some]
        rcases KaggleRelay.updateJobIfStatus (c.answers .now) expected nc none values job with _ | job' <;> rfl
    | resumeIfInactive id' values action =>
      simp only [perform]
      split <;> rfl
    | removeFiles id' =>
      simp only [perform]
      split <;> rfl
    | contentDigest dir =>
      simp only [perform]
      split <;> rfl
    | call c' =>
      simp only [perform]
      cases c' with
      | requireFile dir name =>
        simp only [performCall]
        split <;> rfl
      | extractArchive id' archiveType =>
        simp only [performCall]
        split <;> rfl
      | _ => rfl
    | _ => rfl
  rwa [hperform] at hw

theorem uploads_nil {o : RelayOp} (h : o.Within (· ≠ .intent)) : o.uploads = [] := by
  cases o with
  | writeIntent | mutateDataset | printReceipt => exact absurd rfl h
  | _ => rfl

/-- A write leaves the intent at its path, whether or not it says so. -/
theorem intents_write {c : Choice} {path : String} {intent : Intent} {r : Except Exc Unit}
    (hperform : perform s c (.writeIntent path intent) w = (r, w₁)) :
    w₁.intents = Function.update w.intents path (some intent) ∨ (w₁.intents = w.intents ∧ ∃ e, r = .error e) := by
  simp only [perform] at hperform
  split at hperform
  · cases hperform
    exact .inl rfl
  · split at hperform
    · cases hperform
      exact .inl rfl
    · cases hperform
      exact .inr ⟨rfl, _, rfl⟩

/-- What a task of another job relies on. -/
theorem Holds.apart {new : List UploadEvent} {ph : UploadPhase} {datasetDir : String} (h : Holds s w log id ph)
    (hother : datasetDir ≠ s.datasetDir id) (hapart : Apart w w' datasetDir)
    (hnew : ∀ event ∈ new, ∀ ref, ¬event.About (s.datasetDir id) ref) : Holds s w' (new ++ log) id ph := by
  have hkept : ∀ path intent, intent.datasetDir = s.datasetDir id → w.intents path = some intent →
      w'.intents path = some intent := fun path intent hdir hpath =>
    hapart.kept path intent hpath fun heq => hother (heq.symm.trans hdir)
  cases ph with
  | idle => trivial
  | clear path =>
    intro intent hpath
    rcases hapart.own path intent hpath with hpath | hdir
    · exact h intent hpath
    · exact fun heq => hother (hdir.symm.trans heq)
  | recorded intent =>
    obtain ⟨hdir, hstate, hintent, hlog⟩ := h
    refine ⟨hdir, hstate, hkept _ _ hdir hintent, fun event hmem => ?_⟩
    rcases List.mem_append.mp hmem with hmem | hmem
    · rw [hdir]
      exact hnew event hmem _
    · exact hlog event hmem
  | issued intent =>
    obtain ⟨hdir, hstate, hintent, hlog⟩ := h
    refine ⟨hdir, hstate, hkept _ _ hdir hintent, fun receipt hmem hscope => ?_⟩
    rcases List.mem_append.mp hmem with hmem | hmem
    · exact hnew _ hmem _ ⟨hscope.trans hdir, rfl⟩
    · exact hlog receipt hmem hscope
  | known path intent => exact fun hdir => hkept path intent hdir (h hdir)

theorem Accounted.of_eq (h : Accounted s w log) (hintents : w'.intents = w.intents) : Accounted s w' log :=
  ⟨fun path intent hpath => h.written path intent ((congrFun hintents path).symm.trans hpath),
    fun datasetDir datasetRef event hmem habout => by
      rw [hintents]
      exact h.covered datasetDir datasetRef event hmem habout, h.once⟩

/-- A write at a path where every upload agrees with what is written. -/
theorem Accounted.write {path : String} {settled : Intent} (h : Accounted s w log)
    (hintents : w'.intents = Function.update w.intents path (some settled))
    (hagrees : ∀ datasetDir datasetRef, ∀ event ∈ log, event.About datasetDir datasetRef →
      intentPath s datasetDir datasetRef = path → event.Agrees settled) :
    Accounted s w' (.recorded path settled :: log) := by
  refine ⟨fun x intent hx => ?_, fun datasetDir datasetRef event hmem habout => ?_, h.once⟩
  · rw [hintents] at hx
    by_cases hpath : x = path
    · subst hpath
      cases (Function.update_self _ _ _).symm.trans hx
      exact List.mem_cons_self
    · exact List.mem_cons_of_mem _ (h.written x intent ((Function.update_of_ne hpath _ _).symm.trans hx))
  · rcases List.mem_cons.mp hmem with rfl | hmem
    · exact habout.elim
    · rw [hintents]
      by_cases hpath : intentPath s datasetDir datasetRef = path
      · refine ⟨settled, ?_, hagrees datasetDir datasetRef event hmem habout hpath⟩
        rw [hpath, Function.update_self]
      · rw [Function.update_of_ne hpath]
        exact h.covered datasetDir datasetRef event hmem habout

/-- A write that does not reach the disk. -/
theorem Accounted.lost {path : String} {intent : Intent} (h : Accounted s w log) (hintents : w'.intents = w.intents) :
    Accounted s w' (.recorded path intent :: log) := by
  have h' := h.of_eq hintents
  refine ⟨fun x intent hx => List.mem_cons_of_mem _ (h'.written x intent hx),
    fun datasetDir datasetRef event hmem habout => ?_, h'.once⟩
  rcases List.mem_cons.mp hmem with rfl | hmem
  · exact habout.elim
  · exact h'.covered datasetDir datasetRef event hmem habout

/-- One more upload that agrees with the intent of its scope. -/
theorem Accounted.push {event : UploadEvent} {intent : Intent} {datasetDir datasetRef : String}
    (h : Accounted s w log) (habout : event.About datasetDir datasetRef) (hagrees : event.Agrees intent)
    (hintent : w.intents (intentPath s datasetDir datasetRef) = some intent)
    (hfirst : event.mutates datasetDir datasetRef = true →
      ∀ earlier ∈ log, ¬earlier.About datasetDir datasetRef) : Accounted s w (event :: log) := by
  have hscope : ∀ {dir ref}, event.About dir ref → dir = datasetDir ∧ ref = datasetRef := by
    intro dir ref h
    obtain ⟨hdir, href⟩ := hagrees.scope habout
    obtain ⟨hdir', href'⟩ := hagrees.scope h
    exact ⟨hdir'.symm.trans hdir, href'.symm.trans href⟩
  refine ⟨fun path x hx => List.mem_cons_of_mem _ (h.written path x hx), fun dir ref x hmem hx => ?_,
    fun dir ref => ?_⟩
  · rcases List.mem_cons.mp hmem with rfl | hmem
    · obtain ⟨rfl, rfl⟩ := hscope hx
      exact ⟨intent, hintent, hagrees⟩
    · exact h.covered dir ref x hmem hx
  · rw [List.filter_cons]
    split
    · rename_i hmutates
      obtain ⟨rfl, rfl⟩ := hscope (UploadEvent.about_of_mutates hmutates)
      have hnone : log.filter (UploadEvent.mutates dir ref) = [] :=
        List.filter_eq_nil_iff.mpr fun earlier hmem hm =>
          hfirst hmutates earlier hmem (UploadEvent.about_of_mutates hm)
      rw [hnone]
      exact le_refl 1
    · exact h.once dir ref

theorem Evolves.write {path : String} {settled : Intent}
    (hintents : w'.intents = Function.update w.intents path (some settled))
    (h : ∀ intent, w.intents path = some intent → intent.state = .unknown ∧ intent.Settles settled) :
    Evolves w w' := by
  intro x intent hx
  rw [hintents]
  by_cases hpath : x = path
  · subst hpath
    exact ⟨settled, Function.update_self _ _ _, .inr (h intent hx)⟩
  · exact ⟨intent, (Function.update_of_ne hpath _ _).trans hx, .inl rfl⟩

theorem Apart.write {path datasetDir : String} {settled : Intent} (hdir : settled.datasetDir = datasetDir)
    (hintents : w'.intents = Function.update w.intents path (some settled))
    (h : ∀ intent, w.intents path = some intent → intent.datasetDir = datasetDir) : Apart w w' datasetDir := by
  refine ⟨fun x intent hx hother => ?_, fun x intent hx => ?_⟩
  · rw [hintents, Function.update_of_ne ?_]
    · exact hx
    · rintro rfl
      exact hother (h intent hx)
  · rw [hintents] at hx
    by_cases hpath : x = path
    · subst hpath
      cases (Function.update_self _ _ _).symm.trans hx
      exact .inr hdir
    · exact .inl ((Function.update_of_ne hpath _ _).symm.trans hx)

/-- What an operation of a task does to the intents and the log. -/
structure UploadEffect (s : Settings) (w w' : World) (log new : List UploadEvent) (id : JobId) (ph : UploadPhase) :
    Prop where
  holds : Holds s w' (new ++ log) id ph
  accounted : Accounted s w' (new ++ log)
  evolves : Evolves w w'
  apart : Apart w w' (s.datasetDir id)
  own : ∀ event ∈ new, ∀ dir ref, event.About dir ref → dir = s.datasetDir id

/-- The intent is written where there is none. -/
theorem effect_record (hacc : Accounted s w log) {c : Choice} {intent : Intent} {r : Except Exc Unit}
    (hstate : intent.state = .unknown) (hdir : intent.datasetDir = s.datasetDir id)
    (hdistinct : Distinct (.recorded (intentPath s intent.datasetDir intent.datasetRef) intent :: log))
    (hholds : Holds s w log id (.clear (intentPath s intent.datasetDir intent.datasetRef)))
    (hperform : perform s c (.writeIntent (intentPath s intent.datasetDir intent.datasetRef) intent) w = (r, w₁)) :
    UploadEffect s w w₁ log [.recorded (intentPath s intent.datasetDir intent.datasetRef) intent] id
      (uploadAfter (.clear (intentPath s intent.datasetDir intent.datasetRef))
        (.writeIntent (intentPath s intent.datasetDir intent.datasetRef) intent) r) := by
  have hnone : w.intents (intentPath s intent.datasetDir intent.datasetRef) = none := by
    rcases hpath : w.intents (intentPath s intent.datasetDir intent.datasetRef) with _ | earlier
    · rfl
    · -- another directory's intent would share the path
      obtain ⟨hsame, -⟩ := hdistinct _ _ _ (List.mem_cons_of_mem _ (hacc.written _ _ hpath)) List.mem_cons_self
      exact absurd (hsame.trans hdir) (hholds earlier hpath)
  have hunissued : Unissued log intent := by
    intro event hmem habout
    obtain ⟨earlier, hearlier, -⟩ := hacc.covered _ _ event hmem habout
    rw [hnone] at hearlier
    cases hearlier
  have hown : ∀ event ∈ [UploadEvent.recorded (intentPath s intent.datasetDir intent.datasetRef) intent],
      ∀ dir ref, event.About dir ref → dir = s.datasetDir id := by
    intro event hmem dir ref habout
    cases List.mem_singleton.mp hmem
    exact habout.elim
  have hfree : ∀ {p : Prop} (earlier : Intent),
      w.intents (intentPath s intent.datasetDir intent.datasetRef) = some earlier → p := by
    intro p earlier hearlier
    rw [hnone] at hearlier
    cases hearlier
  rcases intents_write hperform with hintents | ⟨hintents, e, rfl⟩
  · refine ⟨?_, hacc.write hintents fun dir ref event hmem habout hpath => ?_, .write hintents fun _ h => hfree _ h,
      .write hdir hintents fun _ h => hfree _ h, hown⟩
    · rcases r with e | _
      · trivial
      · rw [uploadAfter_written, if_pos hstate]
        refine ⟨hdir, hstate, ?_, fun event hmem => ?_⟩
        · rw [hintents, Function.update_self]
        · rcases List.mem_cons.mp hmem with rfl | hmem
          · exact fun habout => habout
          · exact hunissued event hmem
    · obtain ⟨earlier, hearlier, -⟩ := hacc.covered _ _ event hmem habout
      rw [hpath] at hearlier
      exact hfree _ hearlier
  · exact ⟨trivial, hacc.lost hintents, .of_eq hintents, .of_eq hintents, hown⟩

/-- The outcome is written over the intent. -/
theorem effect_settle (hacc : Accounted s w log) {c : Choice} {intent settled : Intent} {r : Except Exc Unit}
    (hsettles : intent.Settles settled) (hholds : Holds s w log id (.issued intent))
    (hperform : perform s c (.writeIntent (intentPath s intent.datasetDir intent.datasetRef) settled) w = (r, w₁)) :
    UploadEffect s w w₁ log [.recorded (intentPath s intent.datasetDir intent.datasetRef) settled] id
      (uploadAfter (.issued intent)
        (.writeIntent (intentPath s intent.datasetDir intent.datasetRef) settled) r) := by
  obtain ⟨hdir, hstate, hintent, hreceipts⟩ := hholds
  have hown : ∀ event ∈ [UploadEvent.recorded (intentPath s intent.datasetDir intent.datasetRef) settled],
      ∀ dir ref, event.About dir ref → dir = s.datasetDir id := by
    intro event hmem dir ref habout
    cases List.mem_singleton.mp hmem
    exact habout.elim
  have hsame : ∀ earlier, w.intents (intentPath s intent.datasetDir intent.datasetRef) = some earlier →
      earlier = intent := fun earlier h => Option.some.inj (h.symm.trans hintent)
  have hdir' : settled.datasetDir = s.datasetDir id := by
    rw [hsettles.2]
    exact hdir
  rcases intents_write hperform with hintents | ⟨hintents, e, rfl⟩
  · refine ⟨?_, hacc.write hintents fun dir ref event hmem habout hpath => ?_,
      .write hintents fun earlier h => ?_, .write hdir' hintents fun earlier h => ?_, hown⟩
    · rcases r with e | _
      · trivial
      · rw [uploadAfter_written, if_neg hsettles.1]
        intro _
        rw [hintents, Function.update_self]
    · obtain ⟨earlier, hearlier, hagrees⟩ := hacc.covered _ _ event hmem habout
      rw [hpath] at hearlier
      cases hsame _ hearlier
      cases event with
      | recorded path x => trivial
      | mutated operation datasetDir datasetRef =>
        rw [hsettles.2]
        exact hagrees
      | printed datasetRef receipt =>
        -- the receipts of the scope come after its outcome
        obtain ⟨-, rfl, hreceipt⟩ := hagrees
        exact absurd (by rw [hreceipt]) (hreceipts receipt hmem)
    · rw [hsame _ h]
      exact ⟨hstate, hsettles⟩
    · rw [hsame _ h]
      exact hdir
  · exact ⟨trivial, hacc.lost hintents, .of_eq hintents, .of_eq hintents, hown⟩

theorem Holds.of_eq {ph : UploadPhase} (h : Holds s w log id ph) (hintents : w'.intents = w.intents) :
    Holds s w' log id ph := by
  cases ph with
  | idle => trivial
  | clear path => exact fun intent hpath => h intent ((congrFun hintents path).symm.trans hpath)
  | recorded intent => exact ⟨h.1, h.2.1, (congrFun hintents _).trans h.2.2.1, h.2.2.2⟩
  | issued intent => exact ⟨h.1, h.2.1, (congrFun hintents _).trans h.2.2.1, h.2.2.2⟩
  | known path intent => exact fun hdir => (congrFun hintents path).trans (h hdir)

/-- **What the rules allow keeps the intents and the log in step.** -/
theorem effect_of_uploadOp (hacc : Accounted s w log) {c : Choice} {ph : UploadPhase} {o : RelayOp} {r : o.Res}
    (hop : UploadOp s id ph o) (hholds : Holds s w log id ph) (hdistinct : Distinct (o.uploads ++ log))
    (hperform : perform s c o w = (r, w₁)) :
    UploadEffect s w w₁ log o.uploads id (uploadAfter ph o r) := by
  cases hop with
  | record hstate hdir => exact effect_record hacc hstate hdir hdistinct hholds hperform
  | settle hsettles => exact effect_settle hacc hsettles hholds hperform
  | @issue intent =>
    obtain ⟨hdir, hstate, hintent, hlog⟩ := hholds
    have hw : w₁ = w := (congrArg Prod.snd hperform).symm
    subst hw
    refine ⟨⟨hdir, hstate, hintent, fun receipt hmem hscope => ?_⟩, ?_, .of_eq rfl, .of_eq rfl,
      fun event hmem dir ref habout => ?_⟩
    · rcases List.mem_append.mp hmem with hmem | hmem
      · cases List.mem_singleton.mp hmem
      · exact hlog _ hmem ⟨hscope, rfl⟩
    · exact hacc.push ⟨rfl, rfl⟩ ⟨rfl, rfl, rfl⟩ hintent fun _ => hlog
    · cases List.mem_singleton.mp hmem
      exact habout.1.symm.trans hdir
  | @print intent datasetRef receipt hcovers =>
    obtain ⟨haccepted, href, hdir, hreceipt⟩ := hcovers
    have hw : w₁ = w := (congrArg Prod.snd hperform).symm
    subst hw
    have hscope : receipt.datasetDir = s.datasetDir id := by rw [hreceipt, ← hdir]
    refine ⟨hholds, ?_, .of_eq rfl, .of_eq rfl, fun event hmem dir ref habout => ?_⟩
    · refine hacc.push ⟨hscope, rfl⟩ ⟨haccepted, href, hreceipt⟩ (hholds hdir) fun hm => ?_
      cases hm
    · cases List.mem_singleton.mp hmem
      exact habout.1.symm.trans hscope
  | other h =>
    have hintents := intents_perform h hperform
    rw [uploads_nil h]
    refine ⟨?_, hacc.of_eq hintents, .of_eq hintents, .of_eq hintents, fun _ h => (by cases h)⟩
    by_cases hread : ∃ path, o = .readIntent path
    · obtain ⟨path, rfl⟩ := hread
      obtain ⟨hr, rfl⟩ := Prod.mk.inj hperform
      rcases hanswer : c.answers (.readIntent path) with e | x
      · rw [hanswer] at hr
        subst hr
        trivial
      · rw [hanswer] at hr
        subst hr
        -- the answer is what is on disk
        rcases hpath : w.intents path with _ | intent
        · intro intent h
          rw [hpath] at h
          cases h
        · exact fun _ => hpath
    · rw [uploadAfter_aside ph h (fun path heq => hread ⟨path, heq⟩)]
      exact hholds.of_eq hintents

/-! ### Steps and runs -/

/-- Only the tasks of the worker upload. -/
theorem within_of_host (h : Confined w) (ha : a.host ≠ .worker) {o : RelayOp} (hp : w.performs a = some o) :
    o.Within (· ≠ .intent) := by
  refine (performs_within h hp).mono fun m hm => ?_
  cases hhost : a.host with
  | worker => exact absurd hhost ha
  | lock =>
    rw [hhost] at hm
    rcases hm with rfl | rfl <;> rintro ⟨⟩
  | _ =>
    rw [hhost] at hm
    rw [show m = _ from hm]
    rintro ⟨⟩

/-- A step without an upload. -/
theorem uploads_aside {ph : JobId → UploadPhase} (h : Uploading s w log ph) (hactive : w'.active = w.active)
    (hintents : w'.intents = w.intents) : Uploading s w' log ph where
  follows id t ht := h.follows id t (hactive ▸ ht)
  holds id := (h.holds id).of_eq hintents
  accounted := h.accounted.of_eq hintents

theorem uploads_op {ph : JobId → UploadPhase} (h : Uploading s w log ph) (hconfined : Confined w)
    (ha : a.host ≠ .worker) {c : Choice} {o : RelayOp} {r : o.Res} (hp : w.performs a = some o)
    (hperform : perform s c o w = (r, w₁)) (hactive : w'.active = w₁.active) (hintents : w'.intents = w₁.intents) :
    Uploading s w' ((w.performs a).elim [] RelayOp.uploads ++ log) ph ∧ Evolves w w' := by
  have hwithin := within_of_host hconfined ha hp
  have hsame : w'.intents = w.intents := hintents.trans (intents_perform hwithin hperform)
  obtain ⟨x, hon⟩ := exists_on o
  rw [hp, Option.elim_some, uploads_nil hwithin]
  exact ⟨uploads_aside h (hactive.trans (frame_of_perform hon hperform).active) hsame, .of_eq hsame⟩

/-- **A step keeps the intents and the log in step.** -/
theorem uploads_step {ph : JobId → UploadPhase} (h : Uploading s w log ph) (hconfined : Confined w)
    (hdistinct : Distinct ((w.performs a).elim [] RelayOp.uploads ++ log)) (hs : step s a w = some w') :
    ∃ ph', Uploading s w' ((w.performs a).elim [] RelayOp.uploads ++ log) ph' ∧ Evolves w w' := by
  cases stepped_of_step hs with
  | @worker id c t o k r w₁ gaveUp ht hp hperform hlegal =>
    have hfollows := h.follows id t ht
    rw [hp] at hfollows
    obtain ⟨hop, hrest⟩ := hfollows.of_op
    obtain ⟨x, hon⟩ := exists_on o
    have hactive := (frame_of_perform hon hperform).active
    have hperforms : w.performs (.worker id c) = some o := by
      rw [performs, ht, Option.bind_some, hp]
      rfl
    rw [hperforms, Option.elim_some] at hdistinct ⊢
    have heffect := effect_of_uploadOp h.accounted hop (h.holds id) hdistinct hperform
    refine ⟨Function.update ph id (uploadAfter (ph id) o r), ⟨fun x t' hx => ?_, fun x => ?_, ?_⟩, ?_⟩
    · by_cases heq : x = id
      · subst heq
        cases (Function.update_self _ _ _).symm.trans hx
        rw [Function.update_self]
        exact hrest r trivial
      · rw [Function.update_of_ne heq]
        exact h.follows x t' (hactive ▸ (Function.update_of_ne heq _ _).symm.trans hx)
    · by_cases heq : x = id
      · subst heq
        rw [Function.update_self]
        exact heffect.holds.of_eq rfl
      · rw [Function.update_of_ne heq]
        have hdirs : s.datasetDir id ≠ s.datasetDir x := fun hdir => heq (datasetDir_injective s hdir.symm)
        have hholds := (h.holds x).apart hdirs heffect.apart fun event hmem ref habout =>
          hdirs (heffect.own event hmem _ _ habout).symm
        exact hholds.of_eq rfl
    · exact heffect.accounted.of_eq rfl
    · exact heffect.evolves
  | @lock id c o k r w₁ hp hperform hlegal =>
    refine ⟨ph, uploads_op h hconfined (by rintro ⟨⟩) ?_ hperform rfl rfl⟩
    rw [performs, hp]
    rfl
  | @loose n c o k r w₁ hp hperform hlegal =>
    refine ⟨ph, uploads_op h hconfined (by rintro ⟨⟩) ?_ hperform rfl rfl⟩
    rw [performs, hp]
    rfl
  | @recover c rec o k r w₁ hrec hp hperform hlegal =>
    refine ⟨ph, uploads_op h hconfined (by rintro ⟨⟩) ?_ hperform rfl rfl⟩
    rw [performs, hrec, Option.bind_some, hp]
    rfl
  | memory hm =>
    rw [hm.silent]
    refine ⟨fun id => if (w.active id).isSome then ph id else .idle, ⟨fun id t ht => ?_, fun id => ?_,
      h.accounted.of_eq hm.intents⟩, .of_eq hm.intents⟩
    · rcases hm.active id t ht with ht | haccepted
      · rw [if_pos (by rw [ht]; rfl)]
        exact h.follows id t ht
      · rw [haccepted.program]
        exact obeys_runWorkerItem _ _
    · split
      · exact (h.holds id).of_eq hm.intents
      · trivial

theorem uploads_of_logged (h : Logged s w log) (hdistinct : Distinct log) : ∃ ph, Uploading s w log ph := by
  induction h with
  | empty => exact ⟨_, uploading_empty⟩
  | step h a hs ih =>
    obtain ⟨ph, hu⟩ := ih hdistinct.of_append
    obtain ⟨ph', hu', -⟩ := uploads_step hu (confined_of_reachable h.reachable) hdistinct hs
    exact ⟨ph', hu'⟩

/-- The intent is on disk when the provider is called. -/
theorem recorded_before {ph : JobId → UploadPhase} (h : Uploading s w log ph) (hconfined : Confined w)
    {operation : UploadOperation} {datasetDir datasetRef : String}
    (hp : w.performs a = some (.mutateDataset operation datasetDir datasetRef)) :
    ∃ intent, w.intents (intentPath s datasetDir datasetRef) = some intent ∧ intent.state = .unknown ∧
      (UploadEvent.mutated operation datasetDir datasetRef).Agrees intent := by
  by_cases ha : a.host = .worker
  · cases a with
    | worker id c =>
      obtain ⟨t, ht, hnext⟩ := Option.bind_eq_some_iff.mp hp
      obtain ⟨k, hk⟩ := nextOp_some hnext
      have hfollows := h.follows id t ht
      rw [hk] at hfollows
      have hholds := h.holds id
      obtain ⟨hop, -⟩ := hfollows.of_op
      generalize hph : ph id = phase at hop hholds
      cases hop with
      | issue => exact ⟨_, hholds.2.2.1, hholds.2.1, rfl, rfl, rfl⟩
      | other h => exact absurd rfl h
    | lock => cases ha
    | loose => cases ha
    | recover => cases ha
    | _ => cases hp
  · exact absurd rfl (within_of_host hconfined ha hp)

/-- **A directory is uploaded at most once.**  In every run, through any number
of crashes, restarts, rechecks and lost answers, there is at most one call for a
directory and a Dataset; its intent is on disk before it, and stays, and moves
only from `unknown` to its outcome; and all its receipts are one. -/
theorem uploaded_at_most_once (s : Settings) {w : World} {log : List UploadEvent} (h : Logged s w log)
    (hdistinct : Distinct log) (datasetDir datasetRef : String) :
    (log.filter (UploadEvent.mutates datasetDir datasetRef)).length ≤ 1 ∧
    (∀ event ∈ log, event.About datasetDir datasetRef →
      ∃ intent, w.intents (intentPath s datasetDir datasetRef) = some intent ∧ event.Agrees intent) ∧
    (∀ a operation, w.performs a = some (.mutateDataset operation datasetDir datasetRef) →
      ∃ intent, w.intents (intentPath s datasetDir datasetRef) = some intent ∧ intent.state = .unknown ∧
        (UploadEvent.mutated operation datasetDir datasetRef).Agrees intent) ∧
    (∀ a w', step s a w = some w' → Distinct ((w.performs a).elim [] RelayOp.uploads ++ log) → Evolves w w') ∧
    ∀ receipt receipt', .printed datasetRef receipt ∈ log → .printed datasetRef receipt' ∈ log →
      receipt.datasetDir = datasetDir → receipt'.datasetDir = datasetDir → receipt = receipt' := by
  obtain ⟨ph, hu⟩ := uploads_of_logged h hdistinct
  have hconfined := confined_of_reachable h.reachable
  have hcovered := hu.accounted.covered datasetDir datasetRef
  refine ⟨hu.accounted.once _ _, hcovered, fun a operation => recorded_before hu hconfined,
    fun a w' hs hnext => ?_, fun receipt receipt' hmem hmem' hdir hdir' => ?_⟩
  · obtain ⟨-, -, hevolves⟩ := uploads_step hu hconfined hnext hs
    exact hevolves
  · obtain ⟨intent, hpath, -, -, hreceipt⟩ := hcovered _ hmem ⟨hdir, rfl⟩
    obtain ⟨intent', hpath', -, -, hreceipt'⟩ := hcovered _ hmem' ⟨hdir', rfl⟩
    have hsame : intent = intent' := Option.some.inj (hpath.symm.trans hpath')
    rw [hreceipt, hreceipt', hsame]

/-- The state after some actions, and what is uploaded on the way. -/
def runLog (s : Settings) (actions : List Action) (start : World × List UploadEvent) :
    Option (World × List UploadEvent) :=
  actions.foldlM
    (fun p a => (step s a p.1).map fun w' => (w', (p.1.performs a).elim [] RelayOp.uploads ++ p.2)) start

theorem logged_of_runLog {actions : List Action} {start final : World × List UploadEvent}
    (h : runLog s actions start = some final) (hstart : Logged s start.1 start.2) : Logged s final.1 final.2 := by
  induction actions generalizing start with
  | nil =>
    cases h
    exact hstart
  | cons a actions ih =>
    obtain ⟨next, hnext, hrest⟩ := Option.bind_eq_some_iff.mp h
    obtain ⟨w', hs, rfl⟩ := Option.map_eq_some_iff.mp hnext
    exact ih hrest (hstart.step a hs)

/-- The relay dies right after the call, and another task takes up the upload. -/
def trialResumed : List Action :=
  trialStarted succeeds 35 ++ .crash :: List.replicate 5 (.recover succeeds) ++
    .take "alice" :: List.replicate 28 (.worker "x" succeeds)

def trialIntent : Intent := ⟨"alice/data", "jobs/x/extracted/dataset", "digest", 1, .create, .unknown⟩

/-- The upload is called once, and the receipt is that of the intent. -/
theorem uploaded_at_most_once_trial :
    ∃ w log, Logged trialSettings w log ∧
      .printed "alice/data" ⟨1, "jobs/x/extracted/dataset", "digest"⟩ ∈ log ∧
      (log.filter (UploadEvent.mutates "jobs/x/extracted/dataset" "alice/data")).length = 1 := by
  have hread : (runLog trialSettings trialResumed (empty, [])).map (·.2) =
      some [.printed "alice/data" ⟨1, "jobs/x/extracted/dataset", "digest"⟩,
        .mutated .create "jobs/x/extracted/dataset" "alice/data",
        .recorded "storage/dataset_upload_intents/sha256.json" trialIntent] := by decide +kernel
  obtain ⟨⟨w, log⟩, hrun, hlog⟩ := Option.map_eq_some_iff.mp hread
  dsimp only at hlog
  have hlogged : Logged trialSettings w log := logged_of_runLog hrun .empty
  have hone : ∀ path intent, UploadEvent.recorded path intent ∈ log → intent = trialIntent := by
    intro path intent hmem
    rw [hlog] at hmem
    simp only [List.mem_cons, List.not_mem_nil, or_false, reduceCtorEq, false_or, UploadEvent.recorded.injEq] at hmem
    exact hmem.2
  have hdistinct : Distinct log := by
    intro path intent intent' hmem hmem'
    rw [hone path intent hmem, hone path intent' hmem']
    exact ⟨rfl, rfl⟩
  have honce := (uploaded_at_most_once trialSettings hlogged hdistinct "jobs/x/extracted/dataset" "alice/data").1
  refine ⟨w, log, hlogged, ?_, ?_⟩
  · rw [hlog]
    exact List.mem_cons_self
  · rw [hlog] at honce ⊢
    exact Nat.le_antisymm honce (by decide)

end World

end KaggleRelay

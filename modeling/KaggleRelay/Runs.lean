/-
Runs of the relay.

`ReachableWith` — the states reached by steps that all meet a condition, and
`views_of_reachableWith`, the rule by which an invariant of a job's life holds
over such runs.  `terminal_absorbing` — a job that has ended stays as it ended.
`pushed_at_most_once` — the kernel of a job is pushed at most once, after a
transition to `pushing_kernel` that met no cancellation.
-/
import Mathlib.Logic.Relation
import KaggleRelay.Simulation

namespace KaggleRelay

open Effects Lifecycle

namespace World

variable {s : Settings} {w w' : World} {ph ph' : Phases} {id : JobId} {c : Choice} {σ : Side}

/-! ### Runs that meet a condition -/

/-- One state comes after another. -/
def Next (s : Settings) (w w' : World) : Prop := ∃ a, step s a w = some w'

/-- The states a relay reaches by steps that all meet a condition. -/
inductive ReachableWith (s : Settings) (good : World → Action → Prop) : World → Prop where
  | empty : ReachableWith s good empty
  | step {w w' : World} (h : ReachableWith s good w) (a : Action) (hgood : good w a)
    (hs : step s a w = some w') : ReachableWith s good w'

variable {good : World → Action → Prop}

theorem ReachableWith.reachable (h : ReachableWith s good w) : Reachable s w := by
  induction h with
  | empty => exact .empty
  | step _ a _ hs ih => exact .step ih a hs

theorem ReachableWith.mono {good' : World → Action → Prop} (h : ReachableWith s good w)
    (himp : ∀ w a, good w a → good' w a) : ReachableWith s good' w := by
  induction h with
  | empty => exact .empty
  | step _ a hgood hs ih => exact .step ih a (himp _ a hgood) hs

/-- The view of a job that no one has created. -/
def absent : View := ⟨false, none, none, .free, false, false, false, false, 0⟩

theorem view_empty : empty.view ⟨fun _ => .fresh false, fun _ => .free⟩ id = absent := by
  simp [view, empty, holds, absent]

/-- **An invariant of a job's life holds over every run.** -/
theorem views_of_reachableWith {P : View → Prop} (h : ReachableWith s good w) (habsent : P absent)
    (hmove : ∀ w a v v', ReachableWith s good w → good w a → Coupled v → P v →
      Move (w.side a) v v' → P v') :
    ∃ ph, Inv w ph ∧ ∀ id, P (w.view ph id) := by
  induction h with
  | empty =>
    refine ⟨_, inv_empty, fun id => ?_⟩
    rw [view_empty]
    exact habsent
  | @step w w' hr a hgood hs ih =>
    obtain ⟨ph, hinv, hP⟩ := ih
    obtain ⟨ph', hinv', hmoves⟩ := inv_step hinv hs
    refine ⟨ph', hinv', fun id => ?_⟩
    rcases hmoves id with hsame | hm
    · rw [hsame]
      exact hP id
    · exact hmove w a _ _ hr hgood (hinv.coupled id) (hP id) hm

/-! ### What a step does to the trace -/

/-- An operation is about one job. -/
theorem exists_on (o : RelayOp) : ∃ id, On id o := by
  cases o <;> first | exact ⟨_, rfl⟩ | exact ⟨"", trivial⟩

/-- A program whose next operation is known. -/
theorem nextOp_some {α : Type} {p : Relay α} {o : RelayOp} (h : nextOp p = some o) :
    ∃ k, p = .op o k := by
  cases p with
  | op o' k =>
    have ho : o' = o := Option.some.inj h
    subst ho
    exact ⟨k, rfl⟩
  | _ => cases h

/-- What a job gets that waits for a slot of its account. -/
def slotValues : JobValues := { queueReason := some "waiting for an available Kaggle account slot" }

/-- The step creates a job. -/
def Action.creates : Action → Bool
  | .create .. => true
  | _ => false

/-- A step is an operation of a program, or something in memory. -/
theorem step_cases {a : Action} (hs : step s a w = some w') :
    (∃ (o : RelayOp) (c : Choice) (r : o.Res) (w₁ : World), w.performs a = some o ∧
      perform s c o w = (r, w₁) ∧ w'.jobs = w₁.jobs ∧ w'.trace = w₁.trace ∧
      (w.recovery = none → w'.recovery = none)) ∨
    (w'.trace = w.trace ∧ (w.recovery = none → a ≠ .crash → w'.recovery = none) ∧
      (a.creates = false → w'.jobs = w.jobs ∨ ∃ id, w'.jobs = (w.modifyJob id (·.set slotValues)).jobs)) := by
  have hprogram : ∀ {α : Type} {p p' : Relay α} {c : Choice} {w₁ : World},
      advance s c p w = some (p', w₁) → ∃ (o : RelayOp) (r : o.Res), nextOp p = some o ∧
        perform s c o w = (r, w₁) ∧ w₁.recovery = w.recovery := by
    intro α p p' c w₁ h
    obtain ⟨o, k, r, rfl, hperform, -, rfl⟩ := advance_some h
    obtain ⟨id, hon⟩ := exists_on o
    exact ⟨o, r, rfl, hperform, (frame_of_perform hon hperform).recovery⟩
  unfold step at hs
  split at hs
  case h_1 hserving =>
    cases a with
    | create id d datasetRef kernelRef keyId reserved =>
      simp only [serving] at hs
      split at hs <;> cases hs
      exact .inr ⟨rfl, fun _ _ => hserving, (by rintro ⟨⟩)⟩
    | take account =>
      simp only [serving] at hs
      split at hs
      · cases hs
      · cases hs
        refine .inr ?_
        unfold take
        split
        · exact ⟨rfl, fun _ _ => hserving, fun _ => .inl rfl⟩
        · split
          · exact ⟨rfl, fun _ _ => hserving, fun _ => .inl rfl⟩
          · unfold accept
            split
            · exact ⟨rfl, fun _ _ => hserving, fun _ => .inr ⟨_, rfl⟩⟩
            · exact ⟨rfl, fun _ _ => hserving, fun _ => .inl rfl⟩
    | worker id c =>
      obtain ⟨t, ht, hstep⟩ := Option.bind_eq_some_iff.mp hs
      simp only [workerStep] at hstep
      split at hstep
      · obtain ⟨⟨p, w₁⟩, hadvance, rfl⟩ := Option.map_eq_some_iff.mp hstep
        obtain ⟨o, r, hnext, hperform, hrecovery⟩ := hprogram hadvance
        refine .inl ⟨o, c, r, w₁, ?_, hperform, rfl, rfl, fun _ => hrecovery.trans hserving⟩
        rw [performs, ht, Option.bind_some, hnext]
      · cases hstep
    | leave id =>
      simp only [serving] at hs
      split at hs
      · split at hs <;> cases hs
        exact .inr ⟨rfl, fun _ _ => hserving, fun _ => .inl rfl⟩
      · cases hs
    | begin id request =>
      simp only [serving] at hs
      split at hs <;> cases hs
      exact .inr ⟨rfl, fun _ _ => hserving, fun _ => .inl rfl⟩
    | lock id c =>
      obtain ⟨p, hp, hstep⟩ := Option.bind_eq_some_iff.mp hs
      obtain ⟨⟨p', w₁⟩, hadvance, rfl⟩ := Option.map_eq_some_iff.mp hstep
      obtain ⟨o, r, hnext, hperform, hrecovery⟩ := hprogram hadvance
      refine .inl ⟨o, c, r, w₁, ?_, hperform, rfl, rfl, fun _ => hrecovery.trans hserving⟩
      rw [performs, hp, Option.bind_some, hnext]
    | beginLoose id request =>
      cases hs
      exact .inr ⟨rfl, fun _ _ => hserving, fun _ => .inl rfl⟩
    | loose n c =>
      obtain ⟨p, hp, hstep⟩ := Option.bind_eq_some_iff.mp hs
      obtain ⟨⟨p', w₁⟩, hadvance, rfl⟩ := Option.map_eq_some_iff.mp hstep
      obtain ⟨o, r, hnext, hperform, hrecovery⟩ := hprogram hadvance
      refine .inl ⟨o, c, r, w₁, ?_, hperform, rfl, rfl, fun _ => hrecovery.trans hserving⟩
      rw [performs, hp, Option.bind_some, hnext]
    | crash =>
      cases hs
      exact .inr ⟨rfl, fun _ ha => absurd rfl ha, fun _ => .inl rfl⟩
    | recover c => cases hs
  case h_2 r hrecovery =>
    have hdown : w.recovery ≠ none := by
      rw [hrecovery]
      rintro ⟨⟩
    cases a with
    | crash =>
      cases hs
      exact .inr ⟨rfl, fun h => absurd h hdown, fun _ => .inl rfl⟩
    | recover c =>
      simp only [recoveryStep] at hs
      split at hs
      · cases hs
        exact .inr ⟨rfl, fun h => absurd h hdown, fun _ => .inl rfl⟩
      · rename_i hcurrent
        obtain ⟨⟨p', w₁⟩, hadvance, rfl⟩ := Option.map_eq_some_iff.mp hs
        obtain ⟨o, a, hnext, hperform, -⟩ := hprogram hadvance
        refine .inl ⟨o, c, a, w₁, ?_, hperform, rfl, rfl, fun h => absurd h hdown⟩
        rw [performs, hrecovery, Option.bind_some, hcurrent, Option.bind_some, hnext]
      · cases hs
        exact .inr ⟨rfl, fun h => absurd h hdown, fun _ => .inl rfl⟩
      · cases hs
        exact .inr ⟨rfl, fun h => absurd h hdown, fun _ => .inl rfl⟩
    | _ => cases hs

/-- A relay that does not crash goes on serving. -/
theorem serving_step (hserving : w.recovery = none) {a : Action} (ha : a ≠ .crash)
    (hs : step s a w = some w') : w'.recovery = none := by
  rcases step_cases hs with ⟨_, _, _, _, -, -, -, -, h⟩ | ⟨-, h, -⟩
  · exact h hserving
  · exact h hserving ha

theorem serving_of_reachableWith (hgood : ∀ w a, good w a → a ≠ .crash)
    (h : ReachableWith s good w) : w.recovery = none := by
  induction h with
  | empty => rfl
  | step _ a ha hs ih => exact serving_step ih (hgood _ a ha) hs

/-- The operation moves a row to `pushing_kernel` only where the job is not
cancelled. -/
def Guarded : RelayOp → Prop
  | .updateJobIfStatus _ _ requireNotCanceled _ values =>
    values.status = some .pushingKernel → requireNotCanceled = true
  | .updateJobIfStatusAndPut _ _ _ values _ _ => values.status ≠ some .pushingKernel
  | _ => True

theorem guarded_of_quiet {o : RelayOp} (h : o.touches = false) : Guarded o := by
  cases o <;> trivial

theorem guarded_workerOp {p : WorkerPhase} {o : RelayOp} (h : WorkerOp id p o) : Guarded o := by
  cases h with
  | quiet _ h => exact guarded_of_quiet h
  | transition | commit => exact fun _ => rfl
  | noteIf _ hv =>
    intro hs
    rw [hv.status] at hs
    cases hs
  | advance _ hst _ hv =>
    intro hs
    rw [hv.status] at hs
    rcases hst with rfl | rfl | ⟨rfl, -⟩ <;> cases hs
  | _ => trivial

theorem guarded_sectionOp {l : LockPhase} {o : RelayOp} (h : SectionOp id l o) : Guarded o := by
  cases h with
  | quiet h => exact guarded_of_quiet h
  | noteIf hv | expire hv | assemble hv =>
    intro hs
    rw [hv.status] at hs
    cases hs
  | unassemble hst hv =>
    intro hs
    rw [hv.status] at hs
    rcases hst with rfl | rfl <;> cases hs
  | cancel =>
    intro hs
    unfold cancelValues at hs
    split at hs <;> cases hs
  | enqueue hv | requeue _ hv =>
    intro hs
    rw [hv.status] at hs
    cases hs
  | _ => trivial

theorem guarded_looseOp {p : LoosePhase} {o : RelayOp} (h : LooseOp id p o) : Guarded o := by
  cases h with
  | quiet h => exact guarded_of_quiet h
  | read => trivial
  | noteIf hv | refuse hv =>
    intro hs
    rw [hv.status] at hs
    cases hs
  | @report _ _ canceled _ _ _ _ hv =>
    intro hs
    rw [hv.status] at hs
    cases canceled <;> cases hs
  | bind hv =>
    intro hs
    have hnone := hv.status
    dsimp only at hnone
    rw [hnone] at hs
    cases hs

theorem guarded_recoveryOp {p : RecoveryPhase} {o : RelayOp} (h : RecoveryOp id p o) : Guarded o := by
  cases h with
  | quiet h => exact guarded_of_quiet h
  | requeueIf => exact fun _ => rfl
  | _ => trivial

/-- **Every operation of the relay is guarded.** -/
theorem performs_guarded (h : Inv w ph) {a : Action} {o : RelayOp} (hp : w.performs a = some o) :
    Guarded o := by
  cases a with
  | worker id c =>
    obtain ⟨t, ht, hnext⟩ := Option.bind_eq_some_iff.mp hp
    obtain ⟨k, hk⟩ := nextOp_some hnext
    have hfollows := h.worker id t ht
    rw [hk] at hfollows
    exact guarded_workerOp hfollows.of_op.1
  | lock id c =>
    obtain ⟨p, hsection, hnext⟩ := Option.bind_eq_some_iff.mp hp
    obtain ⟨k, rfl⟩ := nextOp_some hnext
    exact guarded_sectionOp (h.sections id _ hsection).of_op.1
  | loose n c =>
    obtain ⟨p, hloose, hnext⟩ := Option.bind_eq_some_iff.mp hp
    obtain ⟨k, rfl⟩ := nextOp_some hnext
    obtain ⟨id, lp, hfollows, -⟩ := h.loose _ (List.mem_of_getElem? hloose)
    exact guarded_looseOp hfollows.of_op.1
  | recover c =>
    obtain ⟨r, hrecovery, hcurrent⟩ := Option.bind_eq_some_iff.mp hp
    obtain ⟨p, hcur, hnext⟩ := Option.bind_eq_some_iff.mp hcurrent
    obtain ⟨k, rfl⟩ := nextOp_some hnext
    obtain ⟨id, rp, hfollows, -⟩ := (h.recovery r hrecovery).current _ hcur
    exact guarded_recoveryOp hfollows.of_op.1
  | _ => cases hp

/-- What a guarded operation records. -/
theorem trace_perform {o : RelayOp} {r : o.Res} (hg : Guarded o) (h : perform s c o w = (r, w')) :
    w'.trace = w.trace ∨ (∃ id, w'.trace = .pushed id :: w.trace) ∨
      ∃ id, w'.trace = .submitting id none :: w.trace := by
  by_cases hquiet : o.touches = false
  · obtain ⟨_, _, _, _, heq⟩ := perform_quiet (s := s) (c := c) (w := w) hquiet
    rw [h] at heq
    replace heq : w' = _ := heq
    rw [heq]
    exact .inl rfl
  have hsubmits : ∀ {id : JobId} {values : JobValues} {job : Job},
      (values.status = some .pushingKernel → job.cancelRequestedAt = none) →
      submission id values job ++ w.trace = w.trace ∨
        (∃ i, submission id values job ++ w.trace = .pushed i :: w.trace) ∨
        ∃ i, submission id values job ++ w.trace = .submitting i none :: w.trace := by
    intro id values job hnone
    unfold submission
    split
    · rw [hnone ‹_›]
      exact .inr (.inr ⟨id, rfl⟩)
    · exact .inl rfl
  cases o with
  | updateJobIfStatus i expected nc ek values =>
    rcases perform_updateIfStatus h with ⟨-, hw⟩ | ⟨-, rfl⟩
    · obtain ⟨job, -, -, hn, rfl⟩ := updateIfStatus_some hw
      exact hsubmits fun hs => hn (hg hs)
    · exact .inl rfl
  | updateJobIfStatusAndPut i expected nc values put action =>
    rcases perform_updateIfStatusAndPut h with ⟨-, w₁, hw, rfl⟩ | ⟨-, rfl⟩
    · obtain ⟨job, -, -, -, rfl⟩ := updateIfStatus_some hw
      exact hsubmits fun hs => absurd hs hg
    · exact .inl rfl
  | resumeIfInactive i values action =>
    simp only [perform] at h
    split at h <;> cases h <;> exact .inl rfl
  | pushKernel i kernelDir =>
    cases h
    exact .inr (.inl ⟨i, rfl⟩)
  | getJob | updateJob | finalizeJob | consume | isActive | deleteJobRecord =>
    cases h
    exact .inl rfl
  | call call =>
    cases call with
    | pollKernel | kernelStatus =>
      cases h
      exact .inl rfl
    | _ => exact absurd rfl hquiet
  | _ => exact absurd rfl hquiet

/-! ### Runs of listed actions -/

/-- The state after some actions, where each of them is possible and passes a
check. -/
def runIf (check : World → Action → Bool) (s : Settings) (actions : List Action) (w : World) :
    Option World :=
  actions.foldlM (fun w a => if check w a then step s a w else none) w

/-- The state after some actions. -/
def run (s : Settings) (actions : List Action) (w : World) : Option World :=
  runIf (fun _ _ => true) s actions w

theorem reachableWith_of_runIf {check : World → Action → Bool}
    (hgood : ∀ w a, check w a = true → good w a) {actions : List Action}
    (h : runIf check s actions w = some w') (hw : ReachableWith s good w) :
    ReachableWith s good w' := by
  induction actions generalizing w with
  | nil =>
    cases h
    exact hw
  | cons a actions ih =>
    obtain ⟨w₁, hs, hrest⟩ := Option.bind_eq_some_iff.mp h
    dsimp only at hs
    split at hs
    · exact ih hrest (.step hw a (hgood w a ‹_›) hs)
    · cases hs

theorem reachable_of_run {actions : List Action} (h : run s actions empty = some w) :
    Reachable s w :=
  have hreach : ReachableWith s (fun _ _ => True) w :=
    reachableWith_of_runIf (fun _ _ _ => trivial) h .empty
  hreach.reachable

/-- The action is not a crash. -/
def goesOn : World → Action → Bool
  | _, .crash => false
  | _, _ => true

theorem ne_crash_of_goesOn {a : Action} (h : goesOn w a = true) : a ≠ .crash := by
  rintro rfl
  cases h

/-! ### A relay to try -/

/-- A relay with one worker for each account. -/
def trialSettings : Settings where
  lib := ⟨fun _ => "sha256", fun text => text, fun text => text⟩
  redactSecrets text := text
  ignoreStartupProgress _ _ := .ok false
  structuredKernelFailureError _ := ""
  accountKey owner := owner
  textOf _ := ""
  intOf _ := none
  statusLines _ := []
  isoformat _ := ""
  wholeSeconds _ := ""
  jobsDir := "jobs"
  storageDir := "storage"
  artifactsDir := "artifacts"
  accountConcurrency := 1
  receivingTimeoutHours := 3
  datasetPollSeconds := 20
  datasetStatusPermissionGraceSeconds := 60

/-- Calls that all succeed. -/
def trialCall : (call : Call) → call.Res
  | .cooldownRemaining _ => (0 : ℚ)
  | .accountAuthorized _ => true
  | .chooseAccount _ => .account "key" "alice"
  | .credentialsFor _ => "alice"
  | .pollKernel _ => none
  | .ownedDatasetExists _ => false
  | .datasetVersionNumber _ => (1 : ℤ)
  | .downloadArchive _ _ => true
  | .unpackedSize _ _ => (1 : ℕ)
  | .validateTrainingRequest _ _ | .requireIdentity _ | .lockDataset _ | .applyPolicies _ _
  | .requireFile _ _ | .kernelStatus _ | .downloadOutput _ _ | .packageArtifacts _ _
  | .checkInterrupted | .uploadInventory _ | .authenticate _ | .checkDownloadSupport
  | .checkMetadataId _ _ | .verifyUploadArchive _ | .checkFree _ | .assemblySlot
  | .assembleArchive _ _ | .extractArchive _ _ => ()

/-- Answers from outside: everything succeeds but the verification of single
files, and `mutated` says how the upload of a dataset went. -/
def trialAnswers (mutated : Except Exc MutationResponse) : Answers
  | .call call => .ok (trialCall call)
  | .mutateDataset _ _ _ => mutated
  | .readMetadata _ .dataset => .ok [("id", .str "alice/data")]
  | .readMetadata _ .kernel => .ok [("id", .str "alice/kernel")]
  | .contentDigest _ => .ok "digest"
  | .readIntent _ => .ok none
  | .archiveUploaded _ _ | .isDir _ => true
  | .now => (1 : ℚ)
  | .monotonic | .contentSeconds => (0 : ℚ)
  | .turns => (3 : ℕ)
  | .verify o => match o with
    | .turns => (1 : ℕ)
    | .monotonic => (0 : ℚ)
    | .datasetListFiles .. | .uploadContentInventory .. | .downloadDataset .. | .nextBlock ..
    | .load .. => .error ⟨.other, ""⟩
    | .check | .buildKaggleClient | .markFile .. | .markComplete .. => .ok ()
  | .getJob _ | .finalizeJob .. | .getCurrentDatasetCache .. | .getDatasetCache ..
  | .getCurrentLastDatasetJob .. | .sdkWait => none
  | .updateJobIfStatus .. | .updateJobIfStatusAndPut .. | .isActive _ | .isUploading _
  | .pushLogged _ => false
  | .updateJob _ _ | .consume .. | .upsertDatasetCache .. | .upsertLastDatasetJob ..
  | .resumeIfInactive .. | .deleteJobRecord _ | .unlockDataset _ | .printReceipt .. => ()
  | .removeFiles _ | .writeIntent .. | .writeMetadata .. | .pushKernel .. => .ok ()

/-- Everything succeeds. -/
def succeeds : Choice := ⟨trialAnswers (.ok ⟨true, none, "ok"⟩), false⟩

/-- The response to a dataset upload is lost. -/
def losesUpload : Choice := ⟨trialAnswers (.error ⟨.other, "connection lost"⟩), false⟩

def trialJob (schedulingMode : SchedulingMode) : Declared where
  datasetArchiveSha256 := ""
  kernelArchiveSha256 := ""
  datasetSize := 1
  kernelSize := 1
  chunkSize := 1
  chunkSize_pos := Nat.one_pos
  payloadHash := ""
  artifactContract := "yolo"
  relayTokenId := ""
  schedulingMode
  createdAt := 0

/-- A job is created and its archives are complete. -/
def trialCompleted (schedulingMode : SchedulingMode) (n : ℕ) : List Action :=
  [.create "x" (trialJob schedulingMode) "alice/data" "alice/kernel" "key" 0,
    .begin "x" (.complete true false)] ++ List.replicate n (.lock "x" succeeds)

/-- Its task takes some steps. -/
def trialStarted (c : Choice) (n : ℕ) : List Action :=
  trialCompleted .fixed 25 ++ .take "alice" :: List.replicate n (.worker "x" c)

/-- It is cancelled. -/
def trialCanceled : List Action :=
  .begin "x" (.cancel true) :: List.replicate 3 (.lock "x" succeeds)

/-! ### One push -/

/-- Pushes follow their transition, and no transition met a cancellation. -/
structure Ordered (trace : List Event) : Prop where
  preceded : ∀ id later earlier, trace = later ++ .pushed id :: earlier →
    Event.submitting id none ∈ earlier
  uncanceled : ∀ id t, Event.submitting id (some t) ∉ trace

theorem Ordered.push {trace : List Event} (h : Ordered trace)
    (hid : Event.submitting id none ∈ trace) : Ordered (.pushed id :: trace) := by
  refine ⟨fun x later earlier heq => ?_, fun x t hmem => ?_⟩
  · rcases List.cons_eq_append_iff.mp heq with ⟨-, hcons⟩ | ⟨later', -, htrace⟩
    · cases hcons
      exact hid
    · exact h.preceded x later' earlier htrace
  · rcases List.mem_cons.mp hmem with heq | hmem
    · cases heq
    · exact h.uncanceled x t hmem

theorem Ordered.submit {trace : List Event} (h : Ordered trace) :
    Ordered (.submitting id none :: trace) := by
  refine ⟨fun x later earlier heq => ?_, fun x t hmem => ?_⟩
  · rcases List.cons_eq_append_iff.mp heq with ⟨-, hcons⟩ | ⟨later', -, htrace⟩
    · cases hcons
    · exact h.preceded x later' earlier htrace
  · rcases List.mem_cons.mp hmem with heq | hmem
    · cases heq
    · exact h.uncanceled x t hmem

/-- A move that counts a push comes after the transition. -/
theorem committed_of_push {v v' : View} (h : Coupled v) (hm : Move σ v v')
    (hpushes : v'.pushes ≠ v.pushes) : v.committed = true := by
  cases hm with
  | push hd hp => exact h.committed (.inr ⟨_, hd, hp⟩)
  | _ => exact absurd rfl hpushes

theorem ordered_step (h : Inv w ph) (ho : Ordered w.trace) {a : Action} (hs : step s a w = some w') :
    Ordered w'.trace := by
  obtain ⟨ph', -, hmoves⟩ := inv_step h hs
  rcases step_cases hs with ⟨o, c, r, w₁, hp, hperform, -, htrace, -⟩ | ⟨hsame, -⟩
  swap
  · rwa [hsame]
  · rcases trace_perform (performs_guarded h hp) hperform with hsame | ⟨id, hpushed⟩ | ⟨id, hsubmitting⟩
    · rwa [htrace, hsame]
    · have hpushes : (w'.view ph' id).pushes ≠ (w.view ph id).pushes := by
        simp only [view, htrace, hpushed, List.count_cons_self]
        exact Nat.succ_ne_self _
      rw [htrace, hpushed]
      refine ho.push ?_
      rcases hmoves id with hview | hm
      · exact absurd (by rw [hview]) hpushes
      · exact holds_eq_true.mp (committed_of_push (h.coupled id) hm hpushes)
    · rw [htrace, hsubmitting]
      exact ho.submit

theorem ordered_of_reachable (h : Reachable s w) : Ordered w.trace := by
  induction h with
  | empty =>
    refine ⟨fun id later earlier heq => ?_, fun _ _ hmem => nomatch hmem⟩
    cases later <;> cases heq
  | step hr a hs ih =>
    obtain ⟨ph, hinv⟩ := inv_of_reachable hr
    exact ordered_step hinv ih hs

/-- **The kernel of a job is pushed at most once**, whatever runs side by side,
crashes and restarts: every push follows a transition of the row to
`pushing_kernel`, and no such transition found a stored cancellation. -/
theorem pushed_at_most_once (s : Settings) {w : World} (h : Reachable s w) (id : JobId) :
    w.trace.count (.pushed id) ≤ 1 ∧
      (∀ later earlier, w.trace = later ++ .pushed id :: earlier →
        Event.submitting id none ∈ earlier) ∧
      ∀ t, Event.submitting id (some t) ∉ w.trace := by
  obtain ⟨ph, hinv⟩ := inv_of_reachable h
  have hordered := ordered_of_reachable h
  exact ⟨(hinv.coupled id).pushes, hordered.preceded id, hordered.uncanceled id⟩

theorem pushed_at_most_once_trial :
    ∃ w, run trialSettings (trialStarted succeeds 71) empty = some w ∧ Event.pushed "x" ∈ w.trace ∧
      w.trace.count (.pushed "x") ≤ 1 := by
  have hread : (run trialSettings (trialStarted succeeds 71) empty).map (·.trace) =
      some [.pushed "x", .submitting "x" none] := by decide +kernel
  obtain ⟨w, hw, htrace⟩ := Option.map_eq_some_iff.mp hread
  refine ⟨w, hw, ?_, (pushed_at_most_once trialSettings (reachable_of_run hw) "x").1⟩
  rw [htrace]
  exact List.mem_cons_self

/-! ### Terminal statuses -/

/-- A job that has ended stays as it ended. -/
theorem terminal_stays (h : Inv w ph) {a : Action} (hs : step s a w = some w') {job job' : Job}
    (hjob : w.jobs id = some job) (hterminal : job.status.terminal = true)
    (hjob' : w'.jobs id = some job') : job'.status = job.status := by
  obtain ⟨ph', -, hmoves⟩ := inv_step h hs
  have hrow : (w.view ph id).row = some job.core := view_row hjob
  have hrow' : (w'.view ph' id).row = some job'.core := view_row hjob'
  rcases hmoves id with hview | hm
  · rw [hview, hrow, Option.some.injEq] at hrow'
    exact (congrArg Core.status hrow').symm
  · exact terminal_move (h.coupled id) hm hrow hrow' hterminal

/-- A job that was deleted does not come back. -/
theorem deleted_stays (h : Inv w ph) {a : Action} (hs : step s a w = some w')
    (hknown : (w.view ph id).known = true) (hjob : w.jobs id = none) :
    ∃ ph', Inv w' ph' ∧ (w'.view ph' id).known = true ∧ w'.jobs id = none := by
  obtain ⟨ph', hinv', hmoves⟩ := inv_step h hs
  have hrow : (w.view ph id).row = none := by simp only [view, hjob, Option.map_none]
  refine ⟨ph', hinv', ?_⟩
  have hkept : (w'.view ph' id).known = true ∧ (w'.view ph' id).row = none := by
    rcases hmoves id with hview | hm
    · rw [hview]
      exact ⟨hknown, hrow⟩
    · obtain ⟨hknown', hkept⟩ := kept_move hm hknown
      refine ⟨hknown', ?_⟩
      by_contra hne
      obtain ⟨c', hc'⟩ := Option.ne_none_iff_exists'.mp hne
      obtain ⟨c, hc, -⟩ := hkept c' hc'
      rw [hrow] at hc
      cases hc
  exact ⟨hkept.1, by simpa only [view, Option.map_eq_none_iff] using hkept.2⟩

/-- **Terminal statuses are absorbing**: a reachable row is terminal exactly
when `completed_at` is set, then it reserves nothing, and after any further
steps it has the same status or is deleted. -/
theorem terminal_absorbing (s : Settings) {w w' : World} (h : Reachable s w)
    (hnext : Relation.ReflTransGen (Next s) w w') (id : JobId) {job : Job}
    (hjob : w.jobs id = some job) :
    (job.status.terminal = true ↔ job.completedAt.isSome = true) ∧
      (job.status.terminal = true → job.reservedBytes = 0 ∧
        ∀ job', w'.jobs id = some job' → job'.status = job.status) := by
  obtain ⟨ph, hinv⟩ := inv_of_reachable h
  have hrow : (w.view ph id).row = some job.core := view_row hjob
  have hsound := (hinv.coupled id).sound _ hrow
  refine ⟨hsound.completed_iff, fun hterminal => ⟨?_, ?_⟩⟩
  · have hreserves : (job.reservedBytes != 0) = false := hsound.reserves hterminal
    simpa using hreserves
  · have hrun : (∃ job', w'.jobs id = some job' ∧ job'.status = job.status) ∨
        ∃ ph', Inv w' ph' ∧ (w'.view ph' id).known = true ∧ w'.jobs id = none := by
      have hreach : ∀ w', Relation.ReflTransGen (Next s) w w' → Reachable s w' := by
        intro w' hw'
        induction hw' with
        | refl => exact h
        | tail _ hs ih =>
          obtain ⟨a, ha⟩ := hs
          exact .step ih a ha
      induction hnext with
      | refl => exact .inl ⟨job, hjob, rfl⟩
      | @tail w₁ w₂ hw₁ hs ih =>
        obtain ⟨a, ha⟩ := hs
        obtain ⟨ph₁, hinv₁⟩ := inv_of_reachable (hreach w₁ hw₁)
        rcases ih with ⟨job₁, hjob₁, hstatus⟩ | ⟨ph₁', hinv₁', hknown, hnone⟩
        · rcases hjob₂ : w₂.jobs id with _ | job₂
          · obtain ⟨ph₂, hinv₂, hmoves⟩ := inv_step hinv₁ ha
            have hknown : (w₁.view ph₁ id).known = true := by
              by_contra hne
              obtain ⟨-, hnone, -⟩ := (hinv₁.coupled id).unknown (by simpa using hne)
              rw [view_row hjob₁] at hnone
              cases hnone
            refine .inr ⟨ph₂, hinv₂, ?_, rfl⟩
            rcases hmoves id with hview | hm
            · rwa [hview]
            · exact (kept_move hm hknown).1
          · refine .inl ⟨job₂, rfl, ?_⟩
            rw [terminal_stays hinv₁ ha hjob₁ (hstatus ▸ hterminal) hjob₂, hstatus]
        · exact .inr (deleted_stays hinv₁' ha hknown hnone)
    intro job' hjob'
    rcases hrun with ⟨job₁, hjob₁, hstatus⟩ | ⟨-, -, -, hnone⟩
    · obtain rfl : job₁ = job' := by simpa only [hjob₁, Option.some.injEq] using hjob'
      exact hstatus
    · rw [hnone] at hjob'
      cases hjob'

theorem step_crash : step s .crash w = some w.crash := by
  unfold step
  split <;> rfl

theorem terminal_absorbing_trial :
    ∃ w job, run trialSettings (trialCompleted .fixed 25 ++ trialCanceled) empty = some w ∧ w.jobs "x" = some job ∧
      job.status = .canceled ∧ job.completedAt.isSome = true ∧ job.reservedBytes = 0 ∧
      ∀ job', w.crash.jobs "x" = some job' → job'.status = .canceled := by
  have hread : ((run trialSettings (trialCompleted .fixed 25 ++ trialCanceled) empty).bind (·.jobs "x")).map (·.status) =
        some .canceled := by decide +kernel
  obtain ⟨job, hsome, hstatus⟩ := Option.map_eq_some_iff.mp hread
  obtain ⟨w, hw, hjob⟩ := Option.bind_eq_some_iff.mp hsome
  have hterminal : job.status.terminal = true := by
    rw [hstatus]
    rfl
  obtain ⟨hcompleted, hstays⟩ := terminal_absorbing trialSettings (reachable_of_run hw)
    (.single ⟨.crash, step_crash⟩) "x" hjob
  obtain ⟨hreserved, hstatus'⟩ := hstays hterminal
  refine ⟨w, job, hw, hjob, hstatus, hcompleted.mp hterminal, hreserved, fun job' hjob' => ?_⟩
  rw [hstatus' job' hjob', hstatus]

end World

end KaggleRelay

/-
Expired artifacts.

`cleanup_expired_job` removes a job's files and leaves a text in the column
`kaggle_output` by which `artifact_download_metadata` tells an expired artifact
from one that is missing.  `expired_stays` — after the cleanup of a finished job
the artifact is reported expired for as long as no progress callback is stored
over that text.  `expired_lost` — the callbacks of a finished job are stored.
-/
import KaggleRelay.Runs

namespace KaggleRelay

open Effects

/-! ### What a download reports -/

/-- What `stat` finds at an artifact's path. -/
inductive ArtifactStat where
  | notFound
  | inaccessible
  | notFile
  | file (size : ℕ)
  deriving DecidableEq

structure DownloadMetadata where
  canDownload : Bool := false
  artifactSize : Option ℕ := none
  artifactFilename : String
  downloadUnavailableReason : String := ""
  downloadUnavailableCode : String := ""
  artifactExpiresAt : Option ℚ := none
  deriving DecidableEq

/-- The text `cleanup_expired_job` leaves. -/
def expiredText : String := "expired by relay retention cleanup"

/-- `artifact_download_metadata`; `receiptBinds` says that the receipt next to a
file binds the job. -/
def artifactDownloadMetadata (stat : String → ArtifactStat) (receiptBinds : Job → Bool)
    (retentionHours : ℕ) (id : JobId) (job : Job) : DownloadMetadata :=
  let metadata : DownloadMetadata := { artifactFilename := id ++ "-artifacts.zip" }
  if job.status ∉ [.complete, .canceled] then
    { metadata with
      downloadUnavailableReason := "job is not complete", downloadUnavailableCode := "not_ready" }
  else if job.artifactPath = "" then
    if job.kaggleOutput = expiredText then
      { metadata with
        downloadUnavailableReason := expiredText, downloadUnavailableCode := "expired" }
    else
      { metadata with
        downloadUnavailableReason := "artifact path is missing", downloadUnavailableCode := "missing" }
  else
    match stat job.artifactPath with
    | .notFound =>
      { metadata with
        downloadUnavailableReason := "artifact file is missing", downloadUnavailableCode := "missing" }
    | .inaccessible =>
      { metadata with
        downloadUnavailableReason := "artifact file is inaccessible"
        downloadUnavailableCode := "inaccessible" }
    | .notFile =>
      { metadata with
        downloadUnavailableReason := "artifact path is not a file"
        downloadUnavailableCode := "missing" }
    | .file size =>
      let bound := job.artifactContract ∉
        ["patchcore_dinov2_251_onnx_v1", "patchcore_dinov2_251_onnx_v2"] ∨ receiptBinds job = true
      { metadata with
        canDownload := decide bound
        artifactSize := some size
        downloadUnavailableReason :=
          if bound then "" else "verified P6 result receipt missing or invalid"
        downloadUnavailableCode := if bound then "" else "receipt_invalid"
        artifactExpiresAt := job.completedAt.map (· + retentionHours * 3600) }

/-- The artifact is reported expired exactly where the row of a finished job has
no path and the text of the cleanup. -/
theorem expired_iff (stat : String → ArtifactStat) (receiptBinds : Job → Bool) (retentionHours : ℕ)
    (id : JobId) (job : Job) :
    (artifactDownloadMetadata stat receiptBinds retentionHours id job).downloadUnavailableCode =
        "expired" ↔
      (job.status = .complete ∨ job.status = .canceled) ∧ job.artifactPath = "" ∧
        job.kaggleOutput = expiredText := by
  have hmem : job.status ∈ [Status.complete, .canceled] ↔
      job.status = .complete ∨ job.status = .canceled := by simp
  unfold artifactDownloadMetadata
  by_cases hs : job.status ∈ [Status.complete, .canceled]
  · rw [if_neg (not_not.mpr hs)]
    by_cases hp : job.artifactPath = ""
    · rw [if_pos hp]
      by_cases ho : job.kaggleOutput = expiredText
      · rw [if_pos ho]
        exact ⟨fun _ => ⟨hmem.mp hs, hp, ho⟩, fun _ => rfl⟩
      · rw [if_neg ho]
        exact ⟨fun h => absurd h (by simp), fun h => absurd h.2.2 ho⟩
    · rw [if_neg hp]
      refine ⟨fun h => ?_, fun h => absurd h.2.1 hp⟩
      cases hstat : stat job.artifactPath with
      | file size =>
        simp only [hstat] at h
        split at h <;> exact absurd h (by decide)
      | _ =>
        simp only [hstat] at h
        exact absurd h (by decide)
  · rw [if_pos hs]
    exact ⟨fun h => absurd h (by simp), fun h => absurd (hmem.mpr h.1) hs⟩

namespace World

variable (s : Settings)

/-! ### Requests one after another -/

/-- A program by itself: nothing else runs between its operations. -/
def alone {α : Type} (p : Relay α) (cs : List Choice) (w : World) : Relay α × World :=
  Prog.exec (fun o (c : Choice) w => some (perform s c o w)) p cs w

/-- A progress callback, and the answers its operations get. -/
structure Report where
  authorized : Bool
  payload : Relay.ProgressRequest
  c : Choice

/-- A callback by itself: it looks at the row, reads it again and writes it. -/
def Report.run (id : JobId) (r : Report) (w : World) : Relay Unit × World :=
  alone s (Relay.updateJobProgress s id r.authorized r.payload) [r.c, r.c, r.c] w

/-- The property holds before, between and after the callbacks. -/
def Along (id : JobId) (P : World → Prop) : List Report → World → Prop
  | [], w => P w
  | r :: rs, w => P w ∧ Along id P rs (r.run s id w).2

/-- The callback is let in and stores its progress. -/
def Stores (job : Job) (r : Report) : Prop :=
  r.authorized = true ∧
    ¬(job.schedulingMode = .dynamic ∧
      (awaitingAssignment job = true ∨ job.status ∈ [.receiving, .assembling, .queued])) ∧
    r.payload.invalidStartup = false ∧ r.payload.trainingStop = false ∧
    s.ignoreStartupProgress job (r.payload.data job) = .ok false

/-- No callback stores a text of its own over the one in the row. -/
def Spares (id : JobId) : List Report → World → Prop
  | [], _ => True
  | r :: rs, w =>
    (∀ job, w.jobs id = some job → Stores s job r → r.payload.message = job.kaggleOutput) ∧
      Spares id rs (r.run s id w).2

/-- The artifact of the job is reported expired. -/
def Expired (stat : String → ArtifactStat) (receiptBinds : Job → Bool) (retentionHours : ℕ)
    (id : JobId) (w : World) : Prop :=
  ∃ job, w.jobs id = some job ∧
    (artifactDownloadMetadata stat receiptBinds retentionHours id job).downloadUnavailableCode =
      "expired"

variable {s} {id : JobId} {w w' : World} {job : Job}

/-- What a callback writes over the row of a job that has ended. -/
def reported (r : Report) (job : Job) : Job :=
  updateJob (r.c.answers .now)
    { status := none, kernelStatus := some (r.payload.data job)
      kaggleOutput := some r.payload.message, progress := some (r.payload.progress job) } job

/-- A callback that is let in reads the row and writes over it at once. -/
theorem alone_storeProgress {c : Choice} {payload : Relay.ProgressRequest} {data : String}
    (hjob : w.jobs id = some job) (hterminal : job.status.terminal = true)
    (hstores : s.ignoreStartupProgress job data = .ok false) (n : ℕ) :
    alone s (Relay.storeProgress s id data payload (n + 1)) [c, c] w =
      (.pure (.ok ()), { w with
        jobs := Function.update w.jobs id (some (updateJob (c.answers .now)
          { status := none, kernelStatus := some data, kaggleOutput := some payload.message
            progress := some (payload.progress job) } job)) }) := by
  let values : JobValues :=
    { status := none, kernelStatus := some data, kaggleOutput := some payload.message
      progress := some (payload.progress job) }
  have hread : alone s (Relay.storeProgress s id data payload (n + 1)) [c, c] w =
      alone s (Eff.bind (Relay.updateJobIfStatus id [job.status] false (some job.kernelStatus) values)
        fun updated => if updated then pure () else Relay.storeProgress s id data payload n) [c] w := by
    change alone s (Prog.bind (Prog.pure (Except.ok (w.jobs id))) _) [c] w = _
    rw [hjob]
    change alone s (Eff.bind (Eff.lift ((s.ignoreStartupProgress job data).mapError .typeError)) _) [c] w = _
    rw [hstores]
    change alone s (Eff.bind (Relay.updateJobIfStatus id [job.status] false (some job.kernelStatus)
      { values with status := if job.status.terminal then none else _ }) _) [c] w = _
    rw [if_pos hterminal]
  have hcas : w.updateIfStatus (c.answers .now) id [job.status] false (some job.kernelStatus) values =
      some { w with jobs := Function.update w.jobs id (some (updateJob (c.answers .now) values job)) } := by
    unfold updateIfStatus
    rw [hjob, Option.bind_some, updateJobIfStatus, if_pos ⟨List.mem_singleton_self _, by simp, (by rintro ⟨⟩)⟩]
    rfl
  have hset : perform s c (.updateJobIfStatus id [job.status] false (some job.kernelStatus) values) w =
      (true, { w with
        jobs := Function.update w.jobs id (some (updateJob (c.answers .now) values job)) }) := by
    simp only [perform, hcas]
  rw [hread]
  change Prog.exec _ (Prog.bind (Prog.pure (Except.ok (perform s c
    (.updateJobIfStatus id [job.status] false (some job.kernelStatus) values) w).1)) _) []
      (perform s c (.updateJobIfStatus id [job.status] false (some job.kernelStatus) values) w).2 = _
  rw [hset]
  rfl

/-- **A callback after the end** writes its text, or does nothing. -/
theorem report_of_terminal {r : Report} (hjob : w.jobs id = some job)
    (hterminal : job.status.terminal = true) :
    returned (r.run s id w).1 = true ∧
      (Stores s job r → (r.run s id w).2.jobs id = some (reported r job)) ∧
      (¬Stores s job r → (r.run s id w).2 = w) := by
  obtain ⟨authorized, payload, c⟩ := r
  have hlook : Report.run s id ⟨authorized, payload, c⟩ w =
      alone s (Eff.bind (Eff.raiseIf (authorized = false) (.http 401 "unauthorized")) fun _ =>
        Relay.applyProgressCallback s id job payload) [c, c] w := by
    change alone s (Prog.bind (Prog.pure (Except.ok (w.jobs id))) _) [c, c] w = _
    rw [hjob]
    rfl
  rw [hlook]
  cases authorized with
  | false => exact ⟨rfl, fun h => absurd h.1 (by rintro ⟨⟩), fun _ => rfl⟩
  | true =>
    change returned (alone s (Relay.applyProgressCallback s id job payload) [c, c] w).1 = true ∧
      (_ → (alone s (Relay.applyProgressCallback s id job payload) [c, c] w).2.jobs id = _) ∧
      (_ → (alone s (Relay.applyProgressCallback s id job payload) [c, c] w).2 = w)
    unfold Relay.applyProgressCallback
    by_cases hrefused : job.schedulingMode = .dynamic ∧
      (awaitingAssignment job = true ∨ job.status ∈ [.receiving, .assembling, .queued])
    · rw [Eff.raiseIf, if_pos hrefused]
      exact ⟨rfl, fun h => absurd hrefused h.2.1, fun _ => rfl⟩
    · rw [Eff.raiseIf, if_neg hrefused]
      by_cases hinvalid : payload.invalidStartup = true
      · rw [Eff.raiseIf, if_pos hinvalid]
        exact ⟨rfl, fun h => absurd (h.2.2.1.symm.trans hinvalid) (by rintro ⟨⟩), fun _ => rfl⟩
      · rw [Eff.raiseIf, if_neg hinvalid]
        by_cases hstop : payload.trainingStop = true
        · rw [if_pos hstop]
          exact ⟨rfl, fun h => absurd (h.2.2.2.1.symm.trans hstop) (by rintro ⟨⟩), fun _ => rfl⟩
        · rw [if_neg hstop]
          change returned (alone s (Relay.storeProgress s id (payload.data job) payload 5) [c, c] w).1 =
              true ∧
            (_ → (alone s (Relay.storeProgress s id (payload.data job) payload 5) [c, c] w).2.jobs id =
              _) ∧
            (_ → (alone s (Relay.storeProgress s id (payload.data job) payload 5) [c, c] w).2 = w)
          by_cases hstored : s.ignoreStartupProgress job (payload.data job) = .ok false
          · have hstores : Stores s job ⟨true, payload, c⟩ :=
              ⟨rfl, hrefused, by simpa using hinvalid, by simpa using hstop, hstored⟩
            rw [alone_storeProgress hjob hterminal hstored 4]
            exact ⟨rfl, fun _ => Function.update_self .., fun h => absurd hstores h⟩
          · -- the guard ignores the progress, or raises
            have hnothing : ∃ r, alone s (Relay.storeProgress s id (payload.data job) payload 5) [c, c] w =
                (.pure r, w) := by
              change ∃ r, alone s (Prog.bind (Prog.pure (Except.ok (w.jobs id))) _) [c] w = (.pure r, w)
              rw [hjob]
              change ∃ r, alone s (Eff.bind (Eff.lift
                ((s.ignoreStartupProgress job (payload.data job)).mapError .typeError)) _) [c] w = (.pure r, w)
              cases hguard : s.ignoreStartupProgress job (payload.data job) with
              | error text => exact ⟨_, rfl⟩
              | ok ignored =>
                cases ignored with
                | true => exact ⟨_, rfl⟩
                | false => exact absurd hguard hstored
            obtain ⟨r, hnothing⟩ := hnothing
            rw [hnothing]
            exact ⟨rfl, fun h => absurd h.2.2.2.2 hstored, fun _ => rfl⟩

/-- A row that `cleanup_expired_job` has left behind, or a callback that has
kept its text. -/
structure Cleaned (job : Job) : Prop where
  terminal : job.status.terminal = true
  artifactPath : job.artifactPath = ""
  kaggleOutput : job.kaggleOutput = expiredText

theorem Cleaned.reported {r : Report} (h : Cleaned job) (hm : r.payload.message = job.kaggleOutput) :
    Cleaned (reported r job) :=
  ⟨h.terminal, h.artifactPath, hm.trans h.kaggleOutput⟩

variable {stat : String → ArtifactStat} {receiptBinds : Job → Bool} {retentionHours : ℕ}

theorem Cleaned.expired_iff (h : Cleaned job) (hjob : w.jobs id = some job) :
    Expired stat receiptBinds retentionHours id w ↔ job.status ≠ .failed := by
  have hterminal := (Status.terminal_iff _).mp h.terminal
  constructor
  · rintro ⟨job', hjob', hcode⟩
    rw [hjob, Option.some.injEq] at hjob'
    subst hjob'
    rcases ((KaggleRelay.expired_iff ..).mp hcode).1 with hs | hs <;> rw [hs] <;> nofun
  · intro hs
    refine ⟨job, hjob, (KaggleRelay.expired_iff ..).mpr ⟨?_, h.artifactPath, h.kaggleOutput⟩⟩
    rcases hterminal with hc | hf | hc
    · exact .inl hc
    · exact absurd hf hs
    · exact .inr hc

theorem along_head {P : World → Prop} {rs : List Report} (h : Along s id P rs w) : P w := by
  cases rs with
  | nil => exact h
  | cons r rs => exact h.1

/-- From a cleaned row on: one callback after another. -/
theorem along_iff (rs : List Report) (hjob : w.jobs id = some job) (h : Cleaned job) :
    Along s id (Expired stat receiptBinds retentionHours id) rs w ↔
      job.status ≠ .failed ∧ Spares s id rs w := by
  induction rs generalizing w job with
  | nil => exact (h.expired_iff hjob).trans ⟨fun hs => ⟨hs, trivial⟩, And.left⟩
  | cons r rs ih =>
    obtain ⟨-, hwrites, hnothing⟩ := report_of_terminal (s := s) (r := r) hjob h.terminal
    have hspares : Spares s id (r :: rs) w ↔
        (Stores s job r → r.payload.message = job.kaggleOutput) ∧ Spares s id rs (r.run s id w).2 := by
      refine and_congr_left' ⟨fun hall => hall job hjob, fun hone job' hjob' => ?_⟩
      rw [hjob, Option.some.injEq] at hjob'
      exact hjob' ▸ hone
    rw [hspares, Along, h.expired_iff hjob]
    by_cases hstores : Stores s job r
    · have hjob' := hwrites hstores
      by_cases hm : r.payload.message = job.kaggleOutput
      · rw [ih hjob' (h.reported hm)]
        have hstatus : (reported r job).status = job.status := rfl
        rw [hstatus]
        exact ⟨fun ⟨hs, _, hrest⟩ => ⟨hs, fun _ => hm, hrest⟩, fun ⟨hs, _, hrest⟩ => ⟨hs, hs, hrest⟩⟩
      · -- its own text takes the place of the text of the cleanup
        refine ⟨fun ⟨_, hrest⟩ => ?_, fun ⟨_, hkeep, _⟩ => absurd (hkeep hstores) hm⟩
        obtain ⟨job', hsome, hcode⟩ := along_head hrest
        rw [hjob', Option.some.injEq] at hsome
        subst hsome
        have hout : (reported r job).kaggleOutput = expiredText :=
          ((KaggleRelay.expired_iff ..).mp hcode).2.2
        exact absurd (hout.trans h.kaggleOutput.symm) hm
    · rw [hnothing hstores, ih hjob h]
      exact ⟨fun ⟨hs, _, hrest⟩ => ⟨hs, fun h => absurd h hstores, hrest⟩,
        fun ⟨hs, _, hrest⟩ => ⟨hs, hs, hrest⟩⟩

/-- The cleanup of a job that has ended. -/
theorem cleaned_of_cleanup {c : Choice} (hjob : w.jobs id = some job)
    (hterminal : job.status.terminal = true) (hnew : job.cleanedAt = none)
    (hfiles : c.answers (.removeFiles id) = .ok ()) :
    ∃ job', (alone s (Relay.cleanupExpiredJob id) [c, c, c, c] w).2.jobs id = some job' ∧
      job'.status = job.status ∧ Cleaned job' := by
  let values (t : ℚ) : JobValues :=
    { artifactPath := some "", kaggleOutput := some expiredText
      cleanedAt := some (some t), cleanupDueAt := some none, reservedBytes := some 0 }
  have hread : alone s (Relay.cleanupExpiredJob id) [c, c, c, c] w =
      alone s (Eff.bind (Relay.removeFiles id) fun _ => Eff.bind Relay.now fun t =>
        Relay.updateJob id (values t)) [c, c, c] w := by
    change alone s (Prog.bind (Prog.pure (Except.ok (w.jobs id))) _) [c, c, c] w = _
    rw [hjob]
    change alone s (if job.cleanedAt.isSome = true then _ else _) [c, c, c] w = _
    rw [hnew]
    rfl
  have hremove : (perform s c (.removeFiles id) w).1 = .ok () ∧
      (perform s c (.removeFiles id) w).2.jobs = w.jobs := by
    constructor <;> simp only [perform, hfiles]
  obtain ⟨hok, hjobs⟩ := hremove
  have hwrite : alone s (Relay.cleanupExpiredJob id) [c, c, c, c] w =
      (.pure (.ok ()), (perform s c (.removeFiles id) w).2.modifyJob id
        (updateJob (c.answers .now) (values (c.answers .now)))) := by
    rw [hread]
    change Prog.exec _ (Prog.bind (Prog.pure (perform s c (.removeFiles id) w).1) _) [c, c]
      (perform s c (.removeFiles id) w).2 = _
    rw [hok]
    rfl
  refine ⟨updateJob (c.answers .now) (values (c.answers .now)) job, ?_, rfl, ?_⟩
  · rw [hwrite]
    show Function.update _ id _ id = _
    rw [Function.update_self, hjobs, hjob]
    rfl
  · exact ⟨hterminal, rfl, rfl⟩

/-- **An expired artifact stays expired** exactly as long as its job has not
failed and no callback stores a text of its own. -/
theorem expired_stays (s : Settings) (stat : String → ArtifactStat) (receiptBinds : Job → Bool)
    (retentionHours : ℕ) (id : JobId) {w : World} {job : Job} (hjob : w.jobs id = some job)
    (hterminal : job.status.terminal = true) (hnew : job.cleanedAt = none) (c : Choice)
    (hfiles : c.answers (.removeFiles id) = .ok ()) (rs : List Report) :
    Along s id (Expired stat receiptBinds retentionHours id) rs
        (alone s (Relay.cleanupExpiredJob id) [c, c, c, c] w).2 ↔
      job.status ≠ .failed ∧
        Spares s id rs (alone s (Relay.cleanupExpiredJob id) [c, c, c, c] w).2 := by
  obtain ⟨job', hjob', hstatus, hcleaned⟩ := cleaned_of_cleanup (s := s) hjob hterminal hnew hfiles
  rw [along_iff rs hjob' hcleaned, hstatus]

/-- A job whose artifact is there. -/
def trialFinished : Job :=
  { createdJob (trialJob .fixed) "alice/data" "alice/kernel" "key" 0 with
    status := .complete, completedAt := some 1, artifactPath := "artifacts/x/x-artifacts.zip" }

/-- A relay with a job that has ended. -/
def trialEnded : World := { empty with ids := ["x"], jobs := Function.update empty.jobs "x" trialFinished }

theorem trialEnded_job : trialEnded.jobs "x" = some trialFinished := by
  simp only [trialEnded, Function.update_self]

/-- The relay after its cleanup. -/
def trialCleaned : World :=
  (alone trialSettings (Relay.cleanupExpiredJob "x")
    [succeeds, succeeds, succeeds, succeeds] trialEnded).2

/-- A late callback of its kernel. -/
def trialLate : Report := ⟨true, ⟨false, false, fun _ => "\x7b\x7d", "Epoch 1", fun job => job.progress⟩, succeeds⟩

/-- One that is not let in. -/
def trialRefused : Report := { trialLate with authorized := false }

/-- One that says again what the row holds. -/
def trialKept : Report :=
  { trialLate with payload := { trialLate.payload with message := expiredText } }

theorem expired_stays_trial :
    (∃ job, trialCleaned.jobs "x" = some job ∧ Stores trialSettings job trialKept) ∧
      Along trialSettings "x" (Expired (fun _ => .notFound) (fun _ => false) 168 "x")
        [trialRefused, trialKept] trialCleaned := by
  have hread : (trialCleaned.jobs "x").map (fun job => (job.schedulingMode, job.kaggleOutput)) =
      some (.fixed, expiredText) := by decide +kernel
  obtain ⟨job, hjob, hrow⟩ := Option.map_eq_some_iff.mp hread
  have hfixed : job.schedulingMode = .fixed := congrArg Prod.fst hrow
  have hrefuses : ¬Stores trialSettings job trialRefused := fun h => absurd h.1 (by decide)
  have hterminal : job.status.terminal = true := by
    obtain ⟨job', hjob', -, hcleaned⟩ :=
      cleaned_of_cleanup (s := trialSettings) trialEnded_job rfl rfl (c := succeeds) rfl
    obtain rfl : job' = job := Option.some.inj (hjob'.symm.trans hjob)
    exact hcleaned.terminal
  have hstays : (trialRefused.run trialSettings "x" trialCleaned).2 = trialCleaned :=
    (report_of_terminal hjob hterminal).2.2 hrefuses
  refine ⟨⟨job, hjob, rfl, fun h => absurd (hfixed.symm.trans h.1) (by decide), rfl, rfl, rfl⟩, ?_⟩
  refine (expired_stays trialSettings _ _ 168 "x" trialEnded_job rfl rfl succeeds rfl _).mpr
    ⟨by decide, fun job' hjob' hstores => absurd hstores.1 (by decide), ?_, trivial⟩
  rw [show (alone trialSettings (Relay.cleanupExpiredJob "x")
    [succeeds, succeeds, succeeds, succeeds] trialEnded).2 = trialCleaned from rfl, hstays]
  intro job' hjob' _
  obtain rfl : job' = job := Option.some.inj (hjob'.symm.trans hjob)
  exact (congrArg Prod.snd hrow).symm

/-- A late callback writes over the text of the cleanup: the artifact is
reported missing. -/
theorem expired_lost :
    ¬∀ (s : Settings) (stat : String → ArtifactStat) (receiptBinds : Job → Bool) (retentionHours : ℕ)
      (id : JobId) (w : World) (job : Job), w.jobs id = some job → job.status.terminal = true →
      job.cleanedAt = none → ∀ c : Choice, c.answers (.removeFiles id) = .ok () →
      ∀ rs, Along s id (fun w => Expired stat receiptBinds retentionHours id w ∨
        ∃ job, w.jobs id = some job ∧ job.status = .failed) rs
          (alone s (Relay.cleanupExpiredJob id) [c, c, c, c] w).2 := by
  intro h
  have hread : ((trialLate.run trialSettings "x" (alone trialSettings (Relay.cleanupExpiredJob "x")
      [succeeds, succeeds, succeeds, succeeds] trialEnded).2).2.jobs "x").map
        (fun job => (job.status, job.kaggleOutput)) = some (.complete, "Epoch 1") := by
    decide +kernel
  obtain ⟨job, hjob, hrow⟩ := Option.map_eq_some_iff.mp hread
  obtain ⟨-, hlast⟩ := h trialSettings (fun _ => .notFound) (fun _ => false) 168 "x" trialEnded
    trialFinished trialEnded_job rfl rfl succeeds rfl [trialLate]
  rcases hlast with ⟨job', hjob', hcode⟩ | ⟨job', hjob', hs⟩
  · rw [hjob, Option.some.injEq] at hjob'
    subst hjob'
    have hout : job.kaggleOutput = expiredText := ((KaggleRelay.expired_iff ..).mp hcode).2.2
    rw [show job.kaggleOutput = "Epoch 1" from congrArg Prod.snd hrow] at hout
    exact absurd hout (by simp [expiredText])
  · rw [hjob, Option.some.injEq] at hjob'
    subst hjob'
    rw [show job.status = .complete from congrArg Prod.fst hrow] at hs
    cases hs

end World

end KaggleRelay

/-
The space that is reserved for a job's upload.

`create_job` reserves space, every accepted chunk and every assembly change what
is reserved, and the start of the relay computes some of it anew.

* `outstanding` — the declared size of the chunks that are not yet accepted;
* `Move` — a section of the intake, or a crash with the start that follows it;
* `Booked` — while a job is receiving, what is reserved covers what is
  outstanding;
* `Covered` — the condition on a move under which this stays so;
* `reservation_covers` — over whole runs; `assembly_drops_reservation` — a run
  that does not meet the condition.
-/
import KaggleRelay.ChunkUploadSound
import KaggleRelay.Machine

namespace KaggleRelay

open Tiling

namespace Intake

variable {hours : ℕ} {lib : Library} {d : Declared} {w w' : Intake}

/-! ### What is outstanding -/

/-- The declared size of the chunks of an archive that have no row. -/
def outstandingOf (d : Declared) (chunks : ArchiveType → ChunkRows) (k : ArchiveType) : ℕ :=
  ∑ i ∈ Finset.range (count d k), if (chunks k)[i]?.isSome then 0 else sizeOf d k i

/-- The declared size of the chunks that are not yet accepted. -/
def outstanding (d : Declared) (chunks : ArchiveType → ChunkRows) : ℕ :=
  outstandingOf d chunks .dataset + outstandingOf d chunks .kernel

/-- `SUM(size)` over the rows of an archive. -/
def storedBytes (rows : ChunkRows) : ℕ := (rows.keys.map fun i => (rows[i]?.map (·.size)).getD 0).sum

/-- The rows have the sizes the job declared. -/
def RowsSized (d : Declared) (chunks : ArchiveType → ChunkRows) : Prop :=
  ∀ k i row, (chunks k)[i]? = some row → row.size = sizeOf d k i

theorem outstandingOf_le (d : Declared) (chunks : ArchiveType → ChunkRows) (k : ArchiveType) :
    outstandingOf d chunks k ≤ d.size k := by
  have hsum : ∑ i ∈ Finset.range (count d k), sizeOf d k i = d.size k :=
    sum_pieceSize (le_chunkCount_mul d.chunkSize_pos)
  rw [← hsum]
  refine Finset.sum_le_sum fun i _ => ?_
  split_ifs
  · exact Nat.zero_le _
  · exact le_rfl

theorem outstanding_le (d : Declared) (chunks : ArchiveType → ChunkRows) :
    outstanding d chunks ≤ d.datasetSize + d.kernelSize :=
  Nat.add_le_add (outstandingOf_le d chunks .dataset) (outstandingOf_le d chunks .kernel)

/-- A chunk past the end has no size. -/
theorem sizeOf_eq_zero {k : ArchiveType} {i : ℕ} (h : count d k ≤ i) : sizeOf d k i = 0 := by
  have hcover : d.size k ≤ count d k * d.chunkSize := le_chunkCount_mul d.chunkSize_pos
  have hle : count d k * d.chunkSize ≤ i * d.chunkSize := Nat.mul_le_mul_right _ h
  rw [sizeOf, pieceSize]
  omega

/-- **The accepted chunks and the outstanding ones** make up the archive. -/
theorem storedBytes_add_outstandingOf {chunks : ArchiveType → ChunkRows} (h : RowsSized d chunks) (k : ArchiveType) :
    storedBytes (chunks k) + outstandingOf d chunks k = d.size k := by
  have hsum : ∑ i ∈ Finset.range (count d k), sizeOf d k i = d.size k :=
    sum_pieceSize (le_chunkCount_mul d.chunkSize_pos)
  have hkeys : storedBytes (chunks k) = ∑ i ∈ (chunks k).keys.toFinset, sizeOf d k i := by
    rw [storedBytes, List.sum_toFinset]
    · congr 1
      refine List.map_congr_left fun i hi => ?_
      obtain ⟨row, hrow⟩ := Option.isSome_iff_exists.mp
        (Std.ExtTreeMap.isSome_getElem?_iff_mem.mpr (Std.ExtTreeMap.mem_keys.mp hi))
      rw [hrow, Option.map_some, Option.getD_some, h k i row hrow]
    · exact Std.ExtTreeMap.nodup_keys
  have hstored : storedBytes (chunks k) =
      ∑ i ∈ Finset.range (count d k), if (chunks k)[i]?.isSome then sizeOf d k i else 0 := by
    rw [hkeys, ← Finset.sum_filter]
    refine (Finset.sum_subset ?_ ?_).symm
    · intro i hi
      rw [List.mem_toFinset, Std.ExtTreeMap.mem_keys]
      exact Std.ExtTreeMap.isSome_getElem?_iff_mem.mp (Finset.mem_filter.mp hi).2
    · intro i hi hnot
      refine sizeOf_eq_zero (not_lt.mp fun hlt => hnot ?_)
      rw [List.mem_toFinset, Std.ExtTreeMap.mem_keys] at hi
      exact Finset.mem_filter.mpr ⟨Finset.mem_range.mpr hlt, Std.ExtTreeMap.isSome_getElem?_iff_mem.mpr hi⟩
  rw [hstored, outstandingOf, ← Finset.sum_add_distrib, ← hsum]
  refine Finset.sum_congr rfl fun i _ => ?_
  split_ifs
  · rw [Nat.add_zero]
  · rw [Nat.zero_add]

/-- **A chunk that is stored** takes no more from the reservation than from what
is outstanding. -/
theorem outstanding_insert {chunks : ArchiveType → ChunkRows} (h : RowsSized d chunks) (k₀ : ArchiveType) (i₀ : ℕ)
    {row : ChunkRow} (hsize : row.size = sizeOf d k₀ i₀) :
    outstanding d (Function.update chunks k₀ ((chunks k₀).insert i₀ row)) +
      (row.size - ((chunks k₀)[i₀]?.map (·.size)).getD 0) ≤ outstanding d chunks := by
  have hother : ∀ k, k ≠ k₀ →
      outstandingOf d (Function.update chunks k₀ ((chunks k₀).insert i₀ row)) k = outstandingOf d chunks k := by
    intro k hk
    rw [outstandingOf, outstandingOf, Function.update_of_ne hk]
  have hsame : outstandingOf d (Function.update chunks k₀ ((chunks k₀).insert i₀ row)) k₀ +
      (row.size - ((chunks k₀)[i₀]?.map (·.size)).getD 0) ≤ outstandingOf d chunks k₀ := by
    -- what one chunk of the sum loses
    have hpoint : ∀ i, (if (((Function.update chunks k₀ ((chunks k₀).insert i₀ row)) k₀)[i]?).isSome then 0
        else sizeOf d k₀ i) + (if i = i₀ then (if (chunks k₀)[i₀]?.isSome then 0 else sizeOf d k₀ i₀) else 0) =
          if (chunks k₀)[i]?.isSome then 0 else sizeOf d k₀ i := by
      intro i
      rw [getElem?_update_insert]
      by_cases hi : i = i₀
      · simp [hi]
      · simp [hi]
    have hloss : (row.size - ((chunks k₀)[i₀]?.map (·.size)).getD 0) ≤
        ∑ i ∈ Finset.range (count d k₀),
          if i = i₀ then (if (chunks k₀)[i₀]?.isSome then 0 else sizeOf d k₀ i₀) else 0 := by
      rw [Finset.sum_ite_eq']
      cases hold : (chunks k₀)[i₀]? with
      | some old =>
        rw [Option.map_some, Option.getD_some, hsize, h k₀ i₀ old hold, Nat.sub_self]
        exact Nat.zero_le _
      | none =>
        rw [Option.map_none, Option.getD_none, hsize, Nat.sub_zero]
        by_cases hlt : i₀ < count d k₀
        · rw [if_pos (Finset.mem_range.mpr hlt), Option.isSome_none, if_neg Bool.false_ne_true]
        · rw [sizeOf_eq_zero (not_lt.mp hlt)]
          exact Nat.zero_le _
    rw [outstandingOf, outstandingOf, ← Finset.sum_congr rfl fun i _ => hpoint i, Finset.sum_add_distrib]
    exact Nat.add_le_add_left hloss _
  unfold outstanding
  cases k₀ with
  | dataset =>
    rw [hother .kernel (by decide)]
    omega
  | kernel =>
    rw [hother .dataset (by decide)]
    omega

/-! ### A crash and the start after it -/

/-- What a crash leaves, and what the start after it meets. -/
structure Crash where
  /-- The upload whose part file is in place, but not yet its row. -/
  torn : Option ℕ
  /-- What is left of an assembly that was cut off. -/
  archives : ArchiveType → Option Assembled
  reserved : ℕ
  now : ℚ
  /-- The assembly of the recovery; `none` where that is cut off too. -/
  recovery : Option AssemblyAnswers

/-- The row is in `assembling`. -/
def inAssembly (w : Intake) : Bool := w.job.any (·.status == .assembling)

/-- The uploads and the sections are gone. -/
def crash (c : Crash) (w : Intake) : Intake where
  job := if w.inAssembly then w.job.map fun job => { job with reservedBytes := c.reserved } else w.job
  chunks := w.chunks
  parts := match c.torn.bind (w.uploads[·]?) with
    | some u => Function.update w.parts u.archiveType
        (Function.update (w.parts u.archiveType) u.index (some u.received))
    | none => w.parts
  archives := if w.inAssembly then c.archives else w.archives
  uploads := []
  assembling := none

/-- The reservation that `RelayDb` computes anew. -/
def recomputed (chunks : ArchiveType → ChunkRows) (job : Job) : Job :=
  if job.status = .receiving ∧ job.reservedBytes = 0 then
    { job with reservedBytes :=
        3 * (job.datasetSize + job.kernelSize) - (storedBytes (chunks .dataset) + storedBytes (chunks .kernel)) }
  else job

/-- `recover_job_after_restart` on a row in `assembling`. -/
def recoverAssembly (lib : Library) (now : ℚ) (answers : AssemblyAnswers) (w : Intake) : Intake :=
  match w.job with
  | none => w
  | some job =>
    if job.status ≠ .assembling then w
    else
      match w.assembleAndValidateJob lib answers job with
      | (.error e, w) => w.updateJob now { status := some .failed, progress := some 0, error := some e.text }
      | (.ok (), w) => w.updateJob now { status := some .queued, progress := some 15, error := some "" }

/-- The relay dies and starts again. -/
def restart (lib : Library) (c : Crash) (w : Intake) : Intake :=
  let w := { w.crash c with job := (w.crash c).job.map (recomputed w.chunks) }
  match c.recovery with
  | some answers => w.recoverAssembly lib c.now answers
  | none => w

/-- A section of a request, or a crash. -/
inductive Move where
  | act (action : Action)
  | restart (c : Crash)

def Move.step (hours : ℕ) (lib : Library) : Move → Intake → Option Intake
  | .act action, w => Intake.step hours lib action w
  | .restart c, w => some (w.restart lib c)

/-- What moves that all meet a condition lead to from one state. -/
inductive History (hours : ℕ) (lib : Library) (good : Move → Intake → Prop) : Intake → Intake → Prop
  | refl (w : Intake) : History hours lib good w w
  | step {w w' w'' : Intake} (history : History hours lib good w w') (m : Move) (hgood : good m w')
      (h : m.step hours lib w' = some w'') : History hours lib good w w''

/-! ### The condition -/

/-- The error is a shortage of space. -/
def spaceless {α : Type} : Except Exc α → Bool
  | .error e => e.cls == .capacityError
  | .ok _ => false

/-- An assembly that runs out of space after its first reservation has reserved
as much as is `missing`: twice the size of the kernel where the cache stands in
for the dataset, and what the archives unpack to once they are unpacked. -/
structure AssemblyAnswers.Covers (answers : AssemblyAnswers) (job : Job) (missing : ℕ) : Prop where
  copied : (answers.cacheHit && !awaitingAssignment job) = true →
    missing ≤ 2 * job.kernelSize ∨
      ((∀ i, answers.space .kernel i = true) ∧ spaceless answers.sizes = false ∧ answers.reserveExtracted = true)
  unpacked : spaceless answers.extract = true → ∀ sizes, answers.sizes = .ok sizes → missing ≤ sizes
  validated : spaceless answers.validate = true → missing = 0

/-- The assemblies of `complete_job` cover what is missing. -/
def Covered : Move → Intake → Prop
  | .act (.completeFinish answers), w =>
    ∀ job, w.assembling = some job → answers.Covers job (outstanding job.toDeclared w.chunks)
  | _, _ => True

/-! ### The invariant -/

/-- While a job is receiving, and while a request assembles it, what is reserved
covers what is outstanding. -/
structure Booked (d : Declared) (w : Intake) : Prop where
  job : ∀ job, w.job = some job → job.toDeclared = d
  assembling : ∀ job, w.assembling = some job → job.toDeclared = d
  upload : ∀ u ∈ w.uploads, u.chunkSize = sizeOf d u.archiveType u.index
  row : RowsSized d w.chunks
  covers : ∀ job, w.job = some job →
    job.status = .receiving ∨ (job.status = .assembling ∧ w.assembling.isSome = true) →
    outstanding d w.chunks ≤ job.reservedBytes
  /-- No job is receiving while it is being assembled. -/
  locked : ∀ job, w.job = some job → w.assembling.isSome = true → job.status ≠ .receiving
  /-- A job of the intake has not been completed. -/
  incomplete : ∀ job, w.job = some job → inIntake job.status = true → job.completedAt = none

/-- The section changes no more than the row, and a row of the intake is as it
was before, as far as the invariant looks. -/
structure Idle (w w' : Intake) : Prop where
  quiet : Quiet w w'
  row : ∀ job', w'.job = some job' → inIntake job'.status = true →
    ∃ job, w.job = some job ∧ job'.status = job.status ∧ job'.reservedBytes = job.reservedBytes ∧
      job'.completedAt = job.completedAt

theorem Idle.refl (w : Intake) : Idle w w := ⟨.refl w, fun job' h _ => ⟨job', h, rfl, rfl, rfl⟩⟩

theorem inIntake_of_receiving {status : Status} (h : status = .receiving) : inIntake status = true := by
  rw [h]
  rfl

theorem inIntake_of_assembling {status : Status} (h : status = .assembling) : inIntake status = true := by
  rw [h]
  rfl

theorem Booked.idle (h : Booked d w) (hi : Idle w w') : Booked d w' where
  job := by
    intro job' hjob'
    obtain ⟨job, hjob, hd⟩ := hi.quiet.job job' hjob'
    exact hd.trans (h.job job hjob)
  assembling := by
    rw [hi.quiet.assembling]
    exact h.assembling
  upload := by
    rw [hi.quiet.uploads]
    exact h.upload
  row := by
    rw [hi.quiet.chunks]
    exact h.row
  covers := by
    intro job' hjob' hstatus'
    have hin : inIntake job'.status = true := by
      obtain hstatus | ⟨hstatus, -⟩ := hstatus'
      · exact inIntake_of_receiving hstatus
      · exact inIntake_of_assembling hstatus
    obtain ⟨job, hjob, hstatus, hreserved, -⟩ := hi.row job' hjob' hin
    rw [hi.quiet.chunks, hreserved]
    refine h.covers job hjob ?_
    rw [hstatus, hi.quiet.assembling] at hstatus'
    exact hstatus'
  locked := by
    intro job' hjob' hlock hreceiving
    obtain ⟨job, hjob, hstatus, -⟩ := hi.row job' hjob' (inIntake_of_receiving hreceiving)
    rw [hi.quiet.assembling] at hlock
    exact h.locked job hjob hlock (hstatus ▸ hreceiving)
  incomplete := by
    intro job' hjob' hin
    obtain ⟨job, hjob, hstatus, -, hcompleted⟩ := hi.row job' hjob' hin
    rw [hcompleted]
    exact h.incomplete job hjob (hstatus ▸ hin)

theorem Booked.withUploads (h : Booked d w) {uploads : List Upload}
    (hu : ∀ u ∈ uploads, u.chunkSize = sizeOf d u.archiveType u.index) : Booked d { w with uploads } :=
  ⟨h.job, h.assembling, hu, h.row, h.covers, h.locked, h.incomplete⟩

theorem Booked.release (h : Booked d w) (n : ℕ) : Booked d (w.releaseUpload n) :=
  h.withUploads fun u hu => h.upload u (List.mem_of_mem_eraseIdx hu)

/-! ### Sections that leave the reservation alone -/

theorem idle_touchUpload (now : ℚ) (w : Intake) : Idle w (w.touchUpload now) := by
  refine ⟨quiet_touchUpload now w, ?_⟩
  intro job' hjob' _
  obtain ⟨job, hjob, rfl⟩ := Option.map_eq_some_iff.mp hjob'
  refine ⟨job, hjob, ?_⟩
  split_ifs
  · exact ⟨rfl, rfl, rfl⟩
  · exact ⟨rfl, rfl, rfl⟩

/-- A write that takes the job out of the intake. -/
theorem idle_updateJobIfStatus {now : ℚ} {expected : List Status} {values : JobValues} {status : Status}
    (hvalues : values.status = some status) (hout : inIntake status = false)
    (h : w.updateJobIfStatus now expected values = some w') : Idle w w' := by
  refine ⟨quiet_updateJobIfStatus h, ?_⟩
  obtain ⟨job', hjob', rfl⟩ := Option.map_eq_some_iff.mp h
  obtain ⟨job, -, hset⟩ := Option.bind_eq_some_iff.mp hjob'
  obtain ⟨-, -, -, rfl⟩ := updateJobIfStatus_some hset
  intro job'' hjob'' hin
  obtain rfl := Option.some.inj hjob''
  rw [updateJob_status, hvalues, Option.getD_some, hout] at hin
  cases hin

theorem idle_tryUpdate {now : ℚ} {expected : List Status} {values : JobValues} (status : Status)
    (hvalues : values.status = some status) (hout : inIntake status = false) (w : Intake) :
    Idle w (w.tryUpdate now expected values) := by
  unfold tryUpdate
  cases h : w.updateJobIfStatus now expected values with
  | none => exact .refl w
  | some w' => exact idle_updateJobIfStatus hvalues hout h

theorem idle_expireReceivingUpload (now : ℚ) (job : Job) (w : Intake) :
    Idle w (w.expireReceivingUpload hours now job).2 := by
  unfold expireReceivingUpload
  split_ifs
  · exact .refl w
  · dsimp only
    split
    · next h => exact idle_updateJobIfStatus rfl rfl h
    · exact .refl w

theorem idle_rejectExpiredUpload {now : ℚ} {job : Job} {r : Except Exc Unit}
    (h : w.rejectExpiredUpload hours now job = (r, w')) : Idle w w' := by
  have hi : Idle w (w.expireReceivingUpload hours now job).2 := idle_expireReceivingUpload now job w
  unfold rejectExpiredUpload at h
  dsimp only at h
  split_ifs at h <;> cases h <;> exact hi

/-! ### Uploads -/

/-- An index that passes is not negative. -/
theorem nonneg_of_validateChunkIndex {index totalSize chunkSize : ℤ}
    (h : validateChunkIndex index totalSize chunkSize = .ok ()) : 0 ≤ index := by
  unfold validateChunkIndex at h
  split at h
  · cases h
  · split_ifs at h with hindex
    omega

/-- The declared size of an upload is that of its chunk. -/
theorem checkRequest_size {job : Job} {request : ChunkRequest} (hd : job.toDeclared = d)
    (h : checkRequest job request = .ok ()) :
    request.xChunkSize.toNat = sizeOf d request.archiveType request.index.toNat := by
  subst hd
  unfold checkRequest at h
  dsimp only at h
  by_cases hstatus : job.status ≠ .receiving
  · rw [if_pos hstatus] at h
    cases h
  rw [if_neg hstatus] at h
  split at h
  · cases h
  · next hindex =>
    split_ifs at h with hsizes hhex
    rw [not_not] at hsizes
    obtain ⟨i, hi⟩ := Int.eq_ofNat_of_zero_le (nonneg_of_validateChunkIndex hindex)
    rw [hsizes, hi, Int.toNat_natCast, sizeOf, pieceSize]
    have hcast : (i : ℤ) * (job.chunkSize : ℤ) = ((i * job.chunkSize : ℕ) : ℤ) := by push_cast; rfl
    rw [hcast]
    omega

theorem booked_uploadStart (h : Booked d w) (now : ℚ) (authorized : Bool) (request : ChunkRequest)
    (slots space : Bool) : Booked d (w.uploadStart hours lib now authorized request slots space).2 := by
  unfold uploadStart
  split
  · exact h
  · next job hjob =>
    have hd := h.job job (job_of_getAuthorizedJob hjob)
    split
    · next hr => exact h.idle (idle_rejectExpiredUpload hr)
    · next w₁ hr =>
      have h₁ : Booked d w₁ := h.idle (idle_rejectExpiredUpload hr)
      split
      · exact h₁
      · next hcheck =>
        dsimp only
        split
        · split_ifs
          · exact h₁.idle (idle_touchUpload now w₁)
          · exact h₁
        · split_ifs
          · exact h₁
          · exact h₁
          · -- the request becomes an upload
            have h₂ := h₁.idle (idle_touchUpload now w₁)
            refine h₂.withUploads fun u hu => ?_
            obtain hu | hu := List.mem_append.mp hu
            · exact h₁.upload u hu
            · rw [List.mem_singleton.mp hu]
              exact checkRequest_size hd hcheck

theorem booked_uploadPart (h : Booked d w) {n : ℕ} {u : Upload} (hu : w.uploads[n]? = some u) (part : Bytes)
    (space : Option Bool) : Booked d (w.uploadPart n u part space).2 := by
  unfold uploadPart
  split_ifs
  · exact h.release n
  · exact h.release n
  · refine h.withUploads fun v hv => ?_
    obtain hv | rfl := List.mem_or_eq_of_mem_set hv
    · exact h.upload v hv
    · exact h.upload u (List.mem_of_getElem? hu)

theorem booked_uploadPastDeadline (h : Booked d w) (now : ℚ) (n : ℕ) (u : Upload) :
    Booked d (w.uploadPastDeadline hours now n u).2 := by
  unfold uploadPastDeadline
  split
  · next hr => exact (h.idle (idle_rejectExpiredUpload hr)).release n
  · next hr => exact (h.idle (idle_rejectExpiredUpload hr)).release n

/-- A chunk is stored. -/
theorem Booked.storeChunk (h : Booked d w) {u : Upload} (hsize : u.received.length = sizeOf d u.archiveType u.index)
    (now : ℚ) : Booked d (w.storeChunk lib now u) where
  job := by
    intro job' hjob'
    obtain ⟨job, hjob, rfl⟩ := Option.map_eq_some_iff.mp hjob'
    exact h.job job hjob
  assembling := h.assembling
  upload := h.upload
  row := by
    intro k i row hrow
    change (Function.update w.chunks _ _ k)[i]? = some row at hrow
    rw [getElem?_update_insert] at hrow
    split_ifs at hrow with hki
    · obtain ⟨rfl, rfl⟩ := hki
      obtain rfl := Option.some.inj hrow
      exact hsize
    · exact h.row k i row hrow
  covers := by
    intro job' hjob' hstatus
    obtain ⟨job, hjob, rfl⟩ := Option.map_eq_some_iff.mp hjob'
    have hbefore := h.covers job hjob hstatus
    have hrow : (⟨u.received.length, lib.sha256 u.received, now⟩ : ChunkRow).size = sizeOf d u.archiveType u.index :=
      hsize
    have hstored := outstanding_insert h.row u.archiveType u.index hrow
    exact Nat.le_sub_of_add_le (le_trans hstored hbefore)
  locked := by
    intro job' hjob' hlock
    obtain ⟨job, hjob, rfl⟩ := Option.map_eq_some_iff.mp hjob'
    exact h.locked job hjob hlock
  incomplete := by
    intro job' hjob' hin
    obtain ⟨job, hjob, rfl⟩ := Option.map_eq_some_iff.mp hjob'
    exact h.incomplete job hjob hin

theorem booked_uploadFinish (h : Booked d w) {n : ℕ} {u : Upload} (hu : w.uploads[n]? = some u)
    (hbody : checkBody lib u = .ok ()) (now : ℚ) (authorized : Bool) :
    Booked d (w.uploadFinish hours lib now authorized n u).2 := by
  have hsize : u.received.length = sizeOf d u.archiveType u.index :=
    (checkBody_ok hbody).1.trans (h.upload u (List.mem_of_getElem? hu))
  unfold uploadFinish
  split
  · exact h.release n
  · next job hjob =>
    split
    · next hr => exact (h.idle (idle_rejectExpiredUpload hr)).release n
    · next w₁ hr =>
      have h₁ : Booked d w₁ := h.idle (idle_rejectExpiredUpload hr)
      by_cases hstatus : job.status ≠ .receiving
      · rw [if_pos hstatus]
        exact h₁.release n
      · rw [if_neg hstatus]
        split
        · split_ifs
          · exact h₁.release n
          · exact h₁.release n
          · exact (h₁.storeChunk hsize now).release n
        · exact (h₁.storeChunk hsize now).release n

/-! ### Assembling -/

/-- What is reserved covers `missing`. -/
def Reserves (missing : ℕ) (w : Intake) : Prop := ∀ job, w.job = some job → missing ≤ job.reservedBytes

/-- The assembly changes the reservation and the archives. -/
structure Assembly (w w' : Intake) : Prop where
  chunks : w'.chunks = w.chunks
  uploads : w'.uploads = w.uploads
  assembling : w'.assembling = w.assembling
  row : ∀ job', w'.job = some job' → ∃ job, w.job = some job ∧ job'.toDeclared = job.toDeclared ∧
    job'.status = job.status ∧ job'.completedAt = job.completedAt

theorem Assembly.refl (w : Intake) : Assembly w w := ⟨rfl, rfl, rfl, fun job h => ⟨job, h, rfl, rfl, rfl⟩⟩

theorem Assembly.trans (h : Assembly w w') {w'' : Intake} (h' : Assembly w' w'') : Assembly w w'' := by
  refine ⟨h'.chunks.trans h.chunks, h'.uploads.trans h.uploads, h'.assembling.trans h.assembling, ?_⟩
  intro job'' hjob''
  obtain ⟨job', hjob', hd', hstatus', hcompleted'⟩ := h'.row job'' hjob''
  obtain ⟨job, hjob, hd, hstatus, hcompleted⟩ := h.row job' hjob'
  exact ⟨job, hjob, hd'.trans hd, hstatus'.trans hstatus, hcompleted'.trans hcompleted⟩

/-- A write to the row that keeps its status. -/
theorem assembly_mapJob {f : Job → Job} (hf : ∀ job, (f job).toDeclared = job.toDeclared ∧
    (f job).status = job.status ∧ (f job).completedAt = job.completedAt) (w : Intake) :
    Assembly w { w with job := w.job.map f } := by
  refine ⟨rfl, rfl, rfl, ?_⟩
  intro job' hjob'
  obtain ⟨job, hjob, rfl⟩ := Option.map_eq_some_iff.mp hjob'
  exact ⟨job, hjob, hf job⟩

theorem assembly_consume (size : ℕ) (w : Intake) : Assembly w (w.consume size) :=
  assembly_mapJob (f := fun job => { job with reservedBytes := job.reservedBytes - size }) (fun _ => ⟨rfl, rfl, rfl⟩) w

theorem reserves_consume {missing size : ℕ} (h : Reserves (missing + size) w) : Reserves missing (w.consume size) := by
  intro job' hjob'
  obtain ⟨job, hjob, rfl⟩ := Option.map_eq_some_iff.mp hjob'
  have hbefore := h job hjob
  show missing ≤ job.reservedBytes - size
  omega

/-- A reservation that is refused changes nothing. -/
theorem reserve_cases {now : ℚ} {free : Bool} {needed : ℕ} {r : Except Exc Unit}
    (h : w.reserve now free needed = (r, w')) :
    (free = false ∧ w' = w) ∨ (free = true ∧ r = .ok () ∧ Assembly w w' ∧ Reserves needed w') := by
  unfold reserve at h
  split_ifs at h with hfree
  · obtain ⟨rfl, rfl⟩ := Prod.mk.inj h
    refine .inr ⟨hfree, rfl, assembly_mapJob (f := KaggleRelay.updateJob now { reservedBytes := some needed })
      (fun _ => ⟨rfl, rfl, rfl⟩) w, ?_⟩
    intro job' hjob'
    obtain ⟨job, -, rfl⟩ := Option.map_eq_some_iff.mp hjob'
    exact le_rfl
  · exact .inl ⟨by simpa using hfree, (Prod.mk.inj h).2.symm⟩

theorem copyBlocks_space {space : ℕ → Bool} (hspace : ∀ i, space i = true) (reads : ℕ) (src : Bytes)
    (wr : Writer) : (copyBlocks space reads src wr).1 = .ok () := by
  induction reads generalizing src wr with
  | zero => rfl
  | succ reads ih =>
    rw [copyBlocks]
    split_ifs
    · rfl
    · exact ih _ _
    · exact absurd (hspace _) ‹_›

/-- With space enough only a missing chunk stops the copying. -/
theorem copyChunks_space {space : ℕ → Bool} (hspace : ∀ i, space i = true) (parts : ℕ → Option Bytes)
    (is : List ℕ) (wr : Writer) : spaceless (copyChunks space parts is wr).1 = false := by
  induction is generalizing wr with
  | nil => rfl
  | cons i is ih =>
    rw [copyChunks]
    split
    · rfl
    · next src _ =>
      split
      · next hcopy =>
        have hok : (copyFile space src wr).1 = .ok () := copyBlocks_space hspace (src.length + 1) src wr
        rw [hcopy] at hok
        cases hok
      · exact ih _

theorem assembleArchive_space {space : ℕ → Bool} (hspace : ∀ i, space i = true) (lib : Library)
    (parts : ℕ → Option Bytes) (totalSize chunkSize : ℕ) (expected : String) :
    spaceless (assembleArchive space lib parts totalSize chunkSize expected).1 = false := by
  unfold assembleArchive
  split
  · next hcount =>
    unfold expectedChunkCount at hcount
    split_ifs at hcount
    cases hcount
    rfl
  · next count _ =>
    split
    · next hcopy =>
      have hfalse := copyChunks_space hspace parts (List.range count) ⟨[], 0⟩
      rw [hcopy] at hfalse
      exact hfalse
    · split_ifs
      · rfl
      · rfl
      · rfl

theorem assemble_cases (lib : Library) (space : ℕ → Bool) (job : Job) (k : ArchiveType) (w : Intake) :
    Assembly w (w.assemble lib space job k).2 ∧ (w.assemble lib space job k).2.job = w.job := by
  unfold assemble
  split
  · exact ⟨⟨rfl, rfl, rfl, fun job h => ⟨job, h, rfl, rfl, rfl⟩⟩, rfl⟩
  · exact ⟨⟨rfl, rfl, rfl, fun job h => ⟨job, h, rfl, rfl, rfl⟩⟩, rfl⟩

theorem assemble_spaceless (lib : Library) {space : ℕ → Bool} (hspace : ∀ i, space i = true) (job : Job) (k : ArchiveType)
    (w : Intake) : spaceless (w.assemble lib space job k).1 = false := by
  have hfalse := assembleArchive_space hspace lib (w.parts k) (job.size k) job.chunkSize (job.archiveSha256 k)
  unfold assemble
  split
  · next h =>
    rw [h] at hfalse
    exact hfalse
  · rfl

/-- The dataset is assembled with its own share of the reservation. -/
theorem assembleDataset_cases (lib : Library) (answers : AssemblyAnswers) (cacheHit : Bool) (job : Job) (w : Intake) :
    Assembly w (w.assembleDataset lib answers cacheHit job).2 ∧
      (cacheHit = true → (w.assembleDataset lib answers cacheHit job).2 = w ∧
        (w.assembleDataset lib answers cacheHit job).1 = .ok ()) ∧
      ∀ missing, Reserves (missing + job.datasetSize) w →
        Reserves missing (w.assembleDataset lib answers cacheHit job).2 := by
  unfold assembleDataset
  by_cases hhit : cacheHit = true
  · rw [if_pos hhit]
    exact ⟨.refl w, fun _ => ⟨rfl, rfl⟩, fun missing h job' hjob' => le_trans (Nat.le_add_right _ _) (h job' hjob')⟩
  · rw [if_neg hhit]
    obtain ⟨hassembly, hjob⟩ := assemble_cases lib (answers.space .dataset) job .dataset w
    have hkept : ∀ missing, Reserves (missing + job.datasetSize) w →
        Reserves (missing + job.datasetSize) (w.assemble lib (answers.space .dataset) job .dataset).2 := by
      intro missing h job' hjob'
      rw [hjob] at hjob'
      exact h job' hjob'
    split
    · next h =>
      rw [h] at hassembly hkept
      refine ⟨hassembly, fun hhit' => absurd hhit' hhit, fun missing hR job' hjob' => ?_⟩
      exact le_trans (Nat.le_add_right _ _) (hkept missing hR job' hjob')
    · next h =>
      rw [h] at hassembly hkept
      refine ⟨hassembly.trans (assembly_consume _ _), fun hhit' => absurd hhit' hhit, fun missing hR => ?_⟩
      exact reserves_consume (hkept missing hR)

/-- Behind the copying: a shortage of space leaves what was reserved before, or
what the archives unpack to. -/
theorem validateArchives_cases (answers : AssemblyAnswers) (w : Intake) :
    Assembly w (w.validateArchives answers).2 ∧
      ∀ missing, Reserves missing w ∨
          (spaceless answers.sizes = false ∧ answers.reserveExtracted = true) →
        (spaceless answers.extract = true → ∀ sizes, answers.sizes = .ok sizes → missing ≤ sizes) →
        (spaceless answers.validate = true → missing = 0) →
        spaceless (w.validateArchives answers).1 = true → Reserves missing (w.validateArchives answers).2 := by
  unfold validateArchives
  split
  · next e he =>
    refine ⟨.refl w, fun missing hR _ _ hspaceless => ?_⟩
    obtain hR | ⟨hfalse, -⟩ := hR
    · exact hR
    · rw [he] at hfalse
      exact absurd (hspaceless.symm.trans hfalse) (by decide)
  · next sizes hsizes =>
    split
    · next e w₁ hr =>
      obtain ⟨hrefused, rfl⟩ | ⟨-, hok, -⟩ := reserve_cases hr
      · refine ⟨.refl w₁, fun missing hR _ _ _ => ?_⟩
        obtain hR | ⟨-, hfree⟩ := hR
        · exact hR
        · exact absurd (hrefused.symm.trans hfree) (by decide)
      · cases hok
    · next w₁ hr =>
      obtain ⟨hrefused, -⟩ | ⟨-, -, hassembly, hreserves⟩ := reserve_cases hr
      · unfold reserve at hr
        rw [hrefused, if_neg Bool.false_ne_true] at hr
        cases hr
      · split
        · next e hextract =>
          refine ⟨hassembly, fun missing _ hunpacked _ hspaceless job' hjob' => ?_⟩
          rw [hextract] at hunpacked
          exact le_trans (hunpacked hspaceless sizes hsizes) (hreserves job' hjob')
        · refine ⟨hassembly.trans (assembly_consume _ _), fun missing _ _ hvalidated hspaceless job' _ => ?_⟩
          rw [hvalidated hspaceless]
          exact Nat.zero_le _

/-- **An assembly** changes the reservation of the row only; and where it ends
for want of space, the condition has kept what is missing covered. -/
theorem assembleAndValidateJob_cases (lib : Library) (answers : AssemblyAnswers) (job : Job) (w : Intake) :
    Assembly w (w.assembleAndValidateJob lib answers job).2 ∧
      ∀ missing, missing ≤ job.datasetSize + job.kernelSize → answers.Covers job missing → Reserves missing w →
        spaceless (w.assembleAndValidateJob lib answers job).1 = true →
          Reserves missing (w.assembleAndValidateJob lib answers job).2 := by
  unfold assembleAndValidateJob
  split_ifs
  · exact ⟨.refl w, fun _ _ _ hR _ => hR⟩
  · dsimp only
    set cacheHit := answers.cacheHit && !awaitingAssignment job with hhit
    split
    · next e w₁ hr =>
      obtain ⟨-, rfl⟩ | ⟨-, hok, -⟩ := reserve_cases hr
      · exact ⟨.refl w₁, fun _ _ _ hR _ => hR⟩
      · cases hok
    · next w₁ hr =>
      have hreserved : Assembly w w₁ ∧ Reserves ((job.kernelSize + if cacheHit then 0 else job.datasetSize) * 2) w₁ := by
        obtain ⟨hrefused, -⟩ | ⟨-, -, hassembly, hreserves⟩ := reserve_cases hr
        · unfold reserve at hr
          rw [hrefused, if_neg Bool.false_ne_true] at hr
          cases hr
        · exact ⟨hassembly, hreserves⟩
      obtain ⟨hassembly₁, hreserves₁⟩ := hreserved
      obtain ⟨hassembly₂, hcached, hdataset⟩ := assembleDataset_cases lib answers cacheHit job w₁
      -- what is reserved once the dataset is assembled
      have hreserves₂ : ∀ missing, missing ≤ job.datasetSize + job.kernelSize →
          (cacheHit = true → missing ≤ 2 * job.kernelSize) →
          Reserves missing (w₁.assembleDataset lib answers cacheHit job).2 := by
        intro missing hmissing htwice
        by_cases hc : cacheHit = true
        · rw [(hcached hc).1]
          intro job' hjob'
          have hle := hreserves₁ job' hjob'
          rw [if_pos hc] at hle
          have hmissing' := htwice hc
          omega
        · refine hdataset missing fun job' hjob' => ?_
          have hle := hreserves₁ job' hjob'
          rw [if_neg hc] at hle
          omega
      split
      · next e w₂ h₂ =>
        rw [h₂] at hassembly₂ hcached hreserves₂
        refine ⟨hassembly₁.trans hassembly₂, fun missing hmissing _ _ _ => hreserves₂ missing hmissing fun hc => ?_⟩
        exact absurd (hcached hc).2 (by simp)
      · next w₂ h₂ =>
        rw [h₂] at hassembly₂ hreserves₂
        obtain ⟨hassembly₃, hjob₃⟩ := assemble_cases lib (answers.space .kernel) job .kernel w₂
        have hroomy : (∀ i, answers.space .kernel i = true) →
            spaceless (w₂.assemble lib (answers.space .kernel) job .kernel).1 = false :=
          fun hspace => assemble_spaceless lib hspace job .kernel w₂
        have hreserves₃ : ∀ missing, Reserves missing w₂ →
            Reserves missing (w₂.assemble lib (answers.space .kernel) job .kernel).2 := by
          intro missing hR job' hjob'
          rw [hjob₃] at hjob'
          exact hR job' hjob'
        split
        · next e w₃ h₃ =>
          rw [h₃] at hassembly₃ hroomy hreserves₃
          refine ⟨(hassembly₁.trans hassembly₂).trans hassembly₃, fun missing hmissing hcovers _ hspaceless => ?_⟩
          refine hreserves₃ missing (hreserves₂ missing hmissing fun hc => ?_)
          obtain hle | ⟨hspace, -⟩ := hcovers.copied hc
          · exact hle
          · exact absurd (hspaceless.symm.trans (hroomy hspace)) (by decide)
        · next w₃ h₃ =>
          rw [h₃] at hassembly₃ hreserves₃
          obtain ⟨hassembly₄, hvalidated⟩ := validateArchives_cases answers w₃
          refine ⟨((hassembly₁.trans hassembly₂).trans hassembly₃).trans hassembly₄, ?_⟩
          intro missing hmissing hcovers _ hspaceless
          refine hvalidated missing ?_ hcovers.unpacked hcovers.validated hspaceless
          by_cases hc : cacheHit = true
          · obtain hle | ⟨-, hrest⟩ := hcovers.copied hc
            · exact .inl (hreserves₃ missing (hreserves₂ missing hmissing fun _ => hle))
            · exact .inr hrest
          · exact .inl (hreserves₃ missing (hreserves₂ missing hmissing fun hc' => absurd hc' hc))

/-! ### Completing -/

/-- The request takes the lock, and the row leaves `receiving`. -/
theorem Booked.lock (h : Booked d w) {now : ℚ} {job : Job} (hjob : job.toDeclared = d)
    (hset : w.updateJobIfStatus now [.receiving] { status := some .assembling, progress := some 10 } = some w') :
    Booked d { w' with assembling := some job } := by
  obtain ⟨row', hrow', rfl⟩ := Option.map_eq_some_iff.mp hset
  obtain ⟨row, hrow, hreceiving⟩ := Option.bind_eq_some_iff.mp hrow'
  obtain ⟨hstatus, -, -, rfl⟩ := updateJobIfStatus_some hreceiving
  have hreceiving : row.status = .receiving := List.mem_singleton.mp hstatus
  refine ⟨?_, ?_, h.upload, h.row, ?_, ?_, ?_⟩
  · intro job' hjob'
    rw [← Option.some.inj hjob']
    exact h.job row hrow
  · intro job' hjob'
    rw [← Option.some.inj hjob']
    exact hjob
  · intro job' hjob' _
    rw [← Option.some.inj hjob']
    exact h.covers row hrow (.inl hreceiving)
  · intro job' hjob' _
    rw [← Option.some.inj hjob']
    exact nofun
  · intro job' hjob' _
    rw [← Option.some.inj hjob']
    exact h.incomplete row hrow (inIntake_of_receiving hreceiving)

theorem booked_completeStart (h : Booked d w) (now : ℚ) (authorized cacheHit : Bool) :
    Booked d (w.completeStart hours now authorized cacheHit).2 := by
  unfold completeStart
  split
  · exact h
  · next job hjob =>
    split
    · next hr => exact h.idle (idle_rejectExpiredUpload hr)
    · next w₁ hr =>
      have h₁ : Booked d w₁ := h.idle (idle_rejectExpiredUpload hr)
      split_ifs
      · exact h₁
      · split
        · next hset => exact h₁.lock (h.job job (job_of_getAuthorizedJob hjob)) hset
        · exact h₁
      · exact h₁

/-- The request lets the lock go after an assembly, and the row leaves
`assembling`; where it goes back to `receiving`, what is outstanding is covered. -/
theorem Booked.unlock (h : Booked d w) (hlock : w.assembling.isSome = true) {w₁ : Intake} (ha : Assembly w w₁)
    {now : ℚ} {values : JobValues} {status : Status} (hvalues : values.status = some status)
    (hback : inIntake status = true → (values.sealed now).reservedBytes = none ∧
      (values.sealed now).completedAt = none ∧
      ∀ job, w₁.job = some job → job.status = .assembling → outstanding d w.chunks ≤ job.reservedBytes) :
    Booked d { w₁.tryUpdate now [.assembling] values with assembling := none } := by
  have hdeclared : ∀ job', w₁.job = some job' → job'.toDeclared = d := by
    intro job' hjob'
    obtain ⟨job, hjob, hd, -⟩ := ha.row job' hjob'
    exact hd.trans (h.job job hjob)
  have huploads : ∀ u ∈ w₁.uploads, u.chunkSize = sizeOf d u.archiveType u.index := by
    rw [ha.uploads]
    exact h.upload
  have hrows : RowsSized d w₁.chunks := by
    rw [ha.chunks]
    exact h.row
  have hunlocked : ∀ job : Job, none = some job → job.toDeclared = d := fun _ hnone => (by cases hnone)
  cases hset : w₁.updateJobIfStatus now [.assembling] values with
  | none =>
    rw [tryUpdate, hset, Option.getD_none]
    refine ⟨hdeclared, hunlocked, huploads, hrows, ?_, fun _ _ hnone => absurd hnone Bool.false_ne_true, ?_⟩
    · rintro job' hjob' (hreceiving | ⟨-, hnone⟩)
      · obtain ⟨job, hjob, -, hstatus, -⟩ := ha.row job' hjob'
        exact absurd (hstatus ▸ hreceiving) (h.locked job hjob hlock)
      · cases hnone
    · intro job' hjob' hin
      obtain ⟨job, hjob, -, hstatus, hcompleted⟩ := ha.row job' hjob'
      rw [hcompleted]
      exact h.incomplete job hjob (hstatus ▸ hin)
  | some w₂ =>
    rw [tryUpdate, hset, Option.getD_some]
    obtain ⟨row', hrow', rfl⟩ := Option.map_eq_some_iff.mp hset
    obtain ⟨row, hrow, hassembling⟩ := Option.bind_eq_some_iff.mp hrow'
    obtain ⟨hmem, -, -, rfl⟩ := updateJobIfStatus_some hassembling
    have hassembling : row.status = .assembling := List.mem_singleton.mp hmem
    have hstatus : (KaggleRelay.updateJob now values row).status = status := by
      rw [updateJob_status, hvalues, Option.getD_some]
    obtain ⟨job, hjob, -, hbefore, hcompleted⟩ := ha.row row hrow
    refine ⟨?_, hunlocked, huploads, hrows, ?_, fun _ _ hnone => absurd hnone Bool.false_ne_true, ?_⟩
    · intro job' hjob'
      rw [← Option.some.inj hjob']
      exact hdeclared row hrow
    · rintro job' hjob' (hreceiving | ⟨-, hnone⟩)
      · obtain rfl := Option.some.inj hjob'
        rw [hstatus] at hreceiving
        obtain ⟨hreserved, -, hcovers⟩ := hback (inIntake_of_receiving hreceiving)
        show outstanding d w₁.chunks ≤ (values.sealed now).reservedBytes.getD row.reservedBytes
        rw [ha.chunks, hreserved]
        exact hcovers row hrow hassembling
      · cases hnone
    · intro job' hjob' hin
      obtain rfl := Option.some.inj hjob'
      rw [hstatus] at hin
      obtain ⟨-, hnone, -⟩ := hback hin
      show (values.sealed now).completedAt.getD row.completedAt = none
      rw [hnone, Option.getD_none, hcompleted]
      exact h.incomplete job hjob (inIntake_of_assembling (hbefore ▸ hassembling))

theorem booked_completeInterrupted (h : Booked d w) (hlock : w.assembling.isSome = true) (now : ℚ) :
    Booked d (w.completeInterrupted now) := by
  refine h.unlock hlock (Assembly.refl w) rfl fun _ => ⟨rfl, rfl, fun job hjob hassembling => ?_⟩
  exact h.covers job hjob (.inr ⟨hassembling, hlock⟩)

theorem booked_completeFinish (h : Booked d w) {answers : AssemblyAnswers} {job : Job}
    (hjob : w.assembling = some job) (hcovers : answers.Covers job (outstanding job.toDeclared w.chunks)) :
    Booked d (w.completeFinish lib answers job).2 := by
  have hlock : w.assembling.isSome = true := by rw [hjob, Option.isSome_some]
  obtain ⟨hassembly, hkeeps⟩ := assembleAndValidateJob_cases lib answers job w
  unfold completeFinish
  split
  · next e w₁ hrun =>
    rw [hrun] at hassembly hkeeps
    split_ifs with hcapacity
    · refine h.unlock hlock hassembly rfl fun _ => ⟨rfl, rfl, fun row hrow hstatus => ?_⟩
      have hd : job.toDeclared = d := h.assembling job hjob
      have hall : outstanding d w.chunks ≤ job.datasetSize + job.kernelSize := by
        rw [← hd]
        exact outstanding_le job.toDeclared w.chunks
      rw [hd] at hcovers
      refine hkeeps _ hall hcovers ?_ (by simpa [spaceless] using hcapacity) row hrow
      -- the row has been in `assembling` since the lock was taken
      intro row₀ hrow₀
      obtain ⟨row₁, hrow₁, -, hsame, -⟩ := hassembly.row row hrow
      obtain rfl : row₁ = row₀ := Option.some.inj (hrow₁.symm.trans hrow₀)
      exact h.covers row₁ hrow₁ (.inr ⟨hsame ▸ hstatus, hlock⟩)
    · exact h.unlock hlock hassembly rfl nofun
  · next w₁ hrun =>
    rw [hrun] at hassembly
    exact h.unlock hlock hassembly rfl nofun

/-! ### Cancelling, cleaning up, deleting, starting again -/

/-- A row outside the intake asks for nothing. -/
theorem Booked.outside (hjob : ∀ job, w.job = some job → job.toDeclared = d ∧ inIntake job.status = false)
    (hassembling : ∀ job, w.assembling = some job → job.toDeclared = d)
    (hupload : ∀ u ∈ w.uploads, u.chunkSize = sizeOf d u.archiveType u.index) (hrow : RowsSized d w.chunks) :
    Booked d w := by
  have hout : ∀ job, w.job = some job → inIntake job.status ≠ true := by
    intro job hj hin
    rw [(hjob job hj).2] at hin
    cases hin
  refine ⟨fun job hj => (hjob job hj).1, hassembling, hupload, hrow, ?_, ?_, ?_⟩
  · rintro job hj (hreceiving | ⟨hin, -⟩)
    · exact absurd (inIntake_of_receiving hreceiving) (hout job hj)
    · exact absurd (inIntake_of_assembling hin) (hout job hj)
  · intro job hj _ hreceiving
    exact hout job hj (inIntake_of_receiving hreceiving)
  · intro job hj hin
    exact absurd hin (hout job hj)

theorem booked_cancelJob (h : Booked d w) (now : ℚ) (authorized : Bool) :
    Booked d (w.cancelJob now authorized).2 := by
  unfold cancelJob
  split
  · exact h
  · next job _ =>
    split_ifs
    · exact h
    · exact h
    · by_cases hstatus : job.status ∈ [.receiving, .assembling, .queued]
      · refine h.idle (idle_tryUpdate .canceled ?_ rfl w)
        rw [cancelValues, if_pos hstatus]
      · refine h.idle (idle_tryUpdate .cancelRequested ?_ rfl w)
        rw [cancelValues, if_neg hstatus]

theorem Booked.rmtree (h : Booked d w) (left : Leftover) : Booked d (w.rmtree left) :=
  ⟨h.job, h.assembling, h.upload, h.row, h.covers, h.locked, h.incomplete⟩

/-- The end of the retention of a job that has left the intake. -/
theorem Booked.cleanup (h : Booked d w) (hout : ∀ job, w.job = some job → inIntake job.status = false) (now : ℚ)
    (left : Option Leftover) : Booked d (w.cleanupExpiredJob now left) := by
  unfold cleanupExpiredJob
  split
  · exact h.rmtree _
  · refine .outside ?_ h.assembling h.upload h.row
    intro job' hjob'
    obtain ⟨job, hjob, rfl⟩ := Option.map_eq_some_iff.mp hjob'
    exact ⟨h.job job hjob, by rw [updateJob_status]; exact hout job hjob⟩

/-- The upload has timed out, or nothing has been written. -/
theorem expireReceivingUpload_cases (hours : ℕ) (now : ℚ) (job : Job) (w : Intake) :
    w.expireReceivingUpload hours now job = ("", w) ∨
      ∀ row, (w.expireReceivingUpload hours now job).2.job = some row → inIntake row.status = false := by
  unfold expireReceivingUpload
  split_ifs
  · exact .inl rfl
  · dsimp only
    split
    · next hset =>
      refine .inr fun row hrow => ?_
      obtain ⟨job', hjob', rfl⟩ := Option.map_eq_some_iff.mp hset
      obtain ⟨job, -, hwritten⟩ := Option.bind_eq_some_iff.mp hjob'
      obtain ⟨-, -, -, rfl⟩ := updateJobIfStatus_some hwritten
      rw [← Option.some.inj hrow, updateJob_status]
      rfl
    · exact .inl rfl

theorem booked_cleanupJob (h : Booked d w) (now receivingCutoff : ℚ) (stale workerActive : Bool)
    (left : Option Leftover) (hcompleted : stale = false → (w.job.bind (·.completedAt)).isSome = true) :
    Booked d (w.cleanupJob hours now receivingCutoff stale workerActive left) := by
  unfold cleanupJob
  split
  · exact h
  · next job hjob =>
    by_cases hcleaned : job.cleanedAt.isSome = true
    · rw [if_pos hcleaned]
      exact h
    · rw [if_neg hcleaned]
      have h₁ : Booked d (w.expireReceivingUpload hours now job).2 :=
        h.idle (idle_expireReceivingUpload now job w)
      have hcases := expireReceivingUpload_cases hours now job w
      rcases hexpired : w.expireReceivingUpload hours now job with ⟨timedOut, w₁⟩
      rw [hexpired] at h₁ hcases
      dsimp only at h₁ ⊢
      split_ifs with _ hstale _
      · exact h₁
      · exact h₁
      · split
        · next w₂ hset =>
          refine (h₁.idle (idle_updateJobIfStatus rfl rfl hset)).cleanup ?_ now left
          intro row hrow
          obtain ⟨job', hjob', rfl⟩ := Option.map_eq_some_iff.mp hset
          obtain ⟨job, -, hwritten⟩ := Option.bind_eq_some_iff.mp hjob'
          obtain ⟨-, -, -, rfl⟩ := updateJobIfStatus_some hwritten
          rw [← Option.some.inj hrow, updateJob_status]
          rfl
        · exact h₁
      · refine h₁.cleanup ?_ now left
        obtain hnone | hout := hcases
        · -- not timed out: the scan has found the job completed
          obtain ⟨rfl, rfl⟩ := Prod.mk.inj hnone
          have hdone := hcompleted (by simpa using hstale)
          intro row hrow
          by_contra hin
          have hopen := h.incomplete row hrow (by simpa using hin)
          rw [hrow, Option.bind_some, hopen] at hdone
          cases hdone
        · exact hout

theorem booked_deleteJob (h : Booked d w) (authorized workerActive : Bool) (left : Option Leftover) :
    Booked d (w.deleteJob authorized workerActive left).2 := by
  unfold deleteJob
  split
  · exact h
  · split_ifs
    · exact h
    · exact h
    · exact h
    · split
      · exact h.rmtree _
      · refine .outside (fun job hjob => by cases hjob) h.assembling h.upload ?_
        intro k i row hrow
        simp at hrow

/-- The reservation that the start computes covers what is outstanding. -/
theorem recomputed_covers {chunks : ArchiveType → ChunkRows} (h : RowsSized d chunks) {job : Job}
    (hd : job.toDeclared = d) (hcovers : outstanding d chunks ≤ job.reservedBytes) :
    outstanding d chunks ≤ (recomputed chunks job).reservedBytes := by
  unfold recomputed
  split_ifs
  · have hdataset : storedBytes (chunks .dataset) + outstandingOf d chunks .dataset = d.datasetSize :=
      storedBytes_add_outstandingOf h .dataset
    have hkernel : storedBytes (chunks .kernel) + outstandingOf d chunks .kernel = d.kernelSize :=
      storedBytes_add_outstandingOf h .kernel
    rw [← hd] at hdataset hkernel
    rw [outstanding, ← hd]
    show _ ≤ 3 * (job.datasetSize + job.kernelSize) - (storedBytes (chunks .dataset) + storedBytes (chunks .kernel))
    omega
  · exact hcovers

theorem recomputed_kept (chunks : ArchiveType → ChunkRows) (job : Job) :
    (recomputed chunks job).toDeclared = job.toDeclared ∧ (recomputed chunks job).status = job.status ∧
      (recomputed chunks job).completedAt = job.completedAt := by
  unfold recomputed
  split_ifs
  · exact ⟨rfl, rfl, rfl⟩
  · exact ⟨rfl, rfl, rfl⟩

/-- What a crash leaves of the row: all but the reservation of an assembly. -/
theorem crash_job {c : Crash} {job' : Job} (h : (w.crash c).job = some job') :
    ∃ job, w.job = some job ∧ job'.toDeclared = job.toDeclared ∧ job'.status = job.status ∧
      job'.completedAt = job.completedAt ∧ (job.status = .receiving → job'.reservedBytes = job.reservedBytes) := by
  unfold crash at h
  dsimp only at h
  split_ifs at h with hin
  · obtain ⟨job, hjob, rfl⟩ := Option.map_eq_some_iff.mp h
    refine ⟨job, hjob, rfl, rfl, rfl, fun hreceiving => ?_⟩
    rw [inAssembly, hjob, Option.any_some, hreceiving] at hin
    cases hin
  · exact ⟨job', h, rfl, rfl, rfl, fun _ => rfl⟩

theorem booked_started (h : Booked d w) (c : Crash) :
    Booked d { w.crash c with job := (w.crash c).job.map (recomputed w.chunks) } := by
  have hrow : ∀ job', (w.crash c).job.map (recomputed w.chunks) = some job' → ∃ job, w.job = some job ∧
      job'.toDeclared = job.toDeclared ∧ job'.status = job.status ∧ job'.completedAt = job.completedAt ∧
        (job.status = .receiving → outstanding d w.chunks ≤ job'.reservedBytes) := by
    intro job' hjob'
    obtain ⟨job₁, hjob₁, rfl⟩ := Option.map_eq_some_iff.mp hjob'
    obtain ⟨job, hjob, hd, hstatus, hcompleted, hreserved⟩ := crash_job hjob₁
    obtain ⟨hd₁, hstatus₁, hcompleted₁⟩ := recomputed_kept w.chunks job₁
    refine ⟨job, hjob, hd₁.trans hd, hstatus₁.trans hstatus, hcompleted₁.trans hcompleted, fun hreceiving => ?_⟩
    refine recomputed_covers h.row (hd.trans (h.job job hjob)) ?_
    rw [hreserved hreceiving]
    exact h.covers job hjob (.inl hreceiving)
  refine ⟨?_, fun _ hnone => (by cases hnone), fun _ hu => absurd hu List.not_mem_nil, h.row, ?_, ?_, ?_⟩
  · intro job' hjob'
    obtain ⟨job, hjob, hd, -⟩ := hrow job' hjob'
    exact hd.trans (h.job job hjob)
  · rintro job' hjob' (hreceiving | ⟨-, hnone⟩)
    · obtain ⟨job, -, -, hstatus, -, hcovers⟩ := hrow job' hjob'
      exact hcovers (hstatus ▸ hreceiving)
    · cases hnone
  · exact fun _ _ hnone => absurd hnone Bool.false_ne_true
  · intro job' hjob' hin
    obtain ⟨job, hjob, -, hstatus, hcompleted, -⟩ := hrow job' hjob'
    rw [hcompleted]
    exact h.incomplete job hjob (hstatus ▸ hin)

/-- The recovery ends an assembly with the job failed or queued. -/
theorem booked_recoverAssembly (h : Booked d w) (now : ℚ) (answers : AssemblyAnswers) :
    Booked d (w.recoverAssembly lib now answers) := by
  have hleave : ∀ (w₁ : Intake) (values : JobValues) (status : Status), Assembly w w₁ →
      values.status = some status → inIntake status = false → Booked d (w₁.updateJob now values) := by
    intro w₁ values status ha hvalues hout
    refine .outside ?_ ?_ ?_ ?_
    · intro job'' hjob''
      obtain ⟨job', hjob', rfl⟩ := Option.map_eq_some_iff.mp hjob''
      obtain ⟨job, hjob, hd, -⟩ := ha.row job' hjob'
      exact ⟨hd.trans (h.job job hjob), by rw [updateJob_status, hvalues, Option.getD_some, hout]⟩
    · intro job hjob
      exact h.assembling job (ha.assembling ▸ hjob)
    · intro u hu
      exact h.upload u (ha.uploads ▸ hu)
    · show RowsSized d w₁.chunks
      rw [ha.chunks]
      exact h.row
  unfold recoverAssembly
  split
  · exact h
  · next job _ =>
    obtain ⟨hassembly, -⟩ := assembleAndValidateJob_cases lib answers job w
    by_cases hstatus : job.status ≠ .assembling
    · rw [if_pos hstatus]
      exact h
    · rw [if_neg hstatus]
      split
      · next hrun =>
        rw [hrun] at hassembly
        exact hleave _ _ .failed hassembly rfl rfl
      · next hrun =>
        rw [hrun] at hassembly
        exact hleave _ _ .queued hassembly rfl rfl

theorem booked_restart (h : Booked d w) (c : Crash) : Booked d (w.restart lib c) := by
  unfold restart
  dsimp only
  split
  · exact booked_recoverAssembly (booked_started h c) c.now _
  · exact booked_started h c

/-! ### Whole runs -/

/-- **One move that meets the condition keeps the invariant.** -/
theorem booked_step (h : Booked d w) {m : Move} (hgood : Covered m w) (hs : m.step hours lib w = some w') :
    Booked d w' := by
  cases m with
  | restart c =>
    obtain rfl := Option.some.inj hs
    exact booked_restart h c
  | act action =>
    change Intake.step hours lib action w = some w' at hs
    cases action with
    | uploadStart now authorized request slots space =>
      simp only [step] at hs
      split_ifs at hs
      cases hs
      exact booked_uploadStart h now authorized request slots space
    | uploadPart n now part space =>
      simp only [step] at hs
      split at hs
      · cases hs
      · next u hu =>
        split_ifs at hs <;> cases hs
        · exact booked_uploadPastDeadline h now n u
        · exact booked_uploadPart h hu part space
    | uploadFinish n now authorized =>
      simp only [step] at hs
      split at hs
      · cases hs
      · next u hu =>
        split at hs
        · cases hs
          exact h.release n
        · next hbody =>
          split_ifs at hs
          cases hs
          exact booked_uploadFinish h hu hbody now authorized
    | uploadAbort n =>
      cases hs
      exact h.release n
    | completeStart now authorized cacheHit =>
      simp only [step] at hs
      split_ifs at hs
      cases hs
      exact booked_completeStart h now authorized cacheHit
    | completeFinish answers =>
      obtain ⟨job, hjob, rfl⟩ := Option.map_eq_some_iff.mp hs
      exact booked_completeFinish h hjob (hgood job hjob)
    | completeInterrupted now =>
      obtain ⟨job, hjob, rfl⟩ := Option.map_eq_some_iff.mp hs
      exact booked_completeInterrupted h (by rw [hjob, Option.isSome_some]) now
    | cancel now authorized =>
      simp only [step] at hs
      split_ifs at hs
      cases hs
      exact booked_cancelJob h now authorized
    | cleanup now receivingCutoff stale workerActive left =>
      simp only [step] at hs
      split_ifs at hs with hc
      cases hs
      refine booked_cleanupJob h now receivingCutoff stale workerActive left fun hstale => ?_
      by_contra hnone
      exact hc (.inr ⟨hstale, by simpa using hnone⟩)
    | delete authorized workerActive left =>
      simp only [step] at hs
      split_ifs at hs
      cases hs
      exact booked_deleteJob h authorized workerActive left
    | relay job' =>
      simp only [step] at hs
      split at hs
      · cases hs
      · next job hjob =>
        split_ifs at hs with hin
        cases hs
        refine .outside ?_ h.assembling h.upload h.row
        intro row hrow
        rw [← Option.some.inj hrow]
        exact ⟨h.job job hjob, by simpa using (not_or.mp hin).2⟩

/-- The reservation of a new job is three times the size of its archives. -/
theorem booked_created (d : Declared) (datasetRef kernelRef keyId : String) :
    Booked d (created (World.createdJob d datasetRef kernelRef keyId (3 * (d.datasetSize + d.kernelSize)))) := by
  refine ⟨?_, fun _ hnone => (by cases hnone), fun _ hu => absurd hu List.not_mem_nil, ?_, ?_, ?_, ?_⟩
  · intro job hjob
    rw [← Option.some.inj hjob]
    rfl
  · intro k i row hrow
    simp [created] at hrow
  · intro job hjob _
    rw [← Option.some.inj hjob]
    have hle := outstanding_le d fun _ => (∅ : ChunkRows)
    show outstanding d (fun _ => ∅) ≤ 3 * (d.datasetSize + d.kernelSize)
    omega
  · exact fun _ _ hnone => absurd hnone Bool.false_ne_true
  · intro job hjob _
    rw [← Option.some.inj hjob]
    rfl

theorem Booked.history (h : Booked d w) (hrun : History hours lib Covered w w') : Booked d w' := by
  induction hrun with
  | refl => exact h
  | step _ m hgood hs ih => exact booked_step ih hgood hs

/-- **A reservation covers the rest of the upload.**  In every state that
requests, crashes and restarts lead a new job to, with assemblies that cover
what is missing: while the job is receiving, no less is reserved than the
declared size of the chunks that are not yet accepted. -/
theorem reservation_covers (hours : ℕ) (lib : Library) (d : Declared) (datasetRef kernelRef keyId : String)
    {w : Intake} (hrun : History hours lib Covered
      (created (World.createdJob d datasetRef kernelRef keyId (3 * (d.datasetSize + d.kernelSize)))) w)
    {job : Job} (hjob : w.job = some job) (hreceiving : job.status = .receiving) :
    outstanding d w.chunks ≤ job.reservedBytes :=
  ((booked_created d datasetRef kernelRef keyId).history hrun).covers job hjob (.inl hreceiving)

/-- Listed sections, none of which ends an assembly. -/
theorem history_of_runActions {good : Move → Intake → Prop} {actions : List Action} {w₀ : Intake}
    (hgood : ∀ action ∈ actions, ∀ w, good (.act action) w) (hrun : History hours lib good w₀ w)
    (h : runActions hours lib actions w = some w') : History hours lib good w₀ w' := by
  induction actions generalizing w with
  | nil =>
    cases h
    exact hrun
  | cons action actions ih =>
    obtain ⟨w₁, hs, hrest⟩ := Option.bind_eq_some_iff.mp h
    have hfirst := hgood action List.mem_cons_self w
    exact ih (fun a ha => hgood a (List.mem_cons_of_mem _ ha)) (hrun.step (.act action) hfirst hs) hrest

/-! ### An assembly that runs out of space -/

/-- A dataset of three bytes and a kernel of one. -/
def trialDeclared : Declared where
  datasetArchiveSha256 := zeroDigest
  kernelArchiveSha256 := zeroDigest
  datasetSize := 3
  kernelSize := 1
  chunkSize := 2
  chunkSize_pos := Nat.two_pos
  payloadHash := ""
  artifactContract := "yolo"
  relayTokenId := ""
  schedulingMode := .fixed
  createdAt := 0

def trialCreated : Intake := created (World.createdJob trialDeclared "p/d" "p/k" "" (3 * (3 + 1)))

/-- The kernel is uploaded, and the cache stands in for the dataset. -/
def trialSections : List Action :=
  [.uploadStart 1 true ⟨.kernel, 0, zeroDigest, 1⟩ true true, .uploadPart 0 1 [7] none, .uploadFinish 0 1 true,
    .completeStart 2 true true]

/-- Space runs out: while the kernel is copied, or while it is unpacked. -/
def trialAssembly (copied : Bool) : AssemblyAnswers where
  now := 3
  credentials := .ok ()
  cacheHit := true
  reserveInputs := true
  reserveExtracted := true
  space _ _ := copied
  sizes := .ok 5
  extract := .error .storageFull
  validate := .ok ()

/-- What is read of a state: whether the job is receiving, what is outstanding,
and what is reserved. -/
def booking (w : Intake) : Option (Bool × ℕ × ℕ) :=
  w.job.map fun job => (job.status == .receiving, outstanding trialDeclared w.chunks, job.reservedBytes)

/-- Space runs out while the archives are unpacked, with room for five bytes. -/
theorem reservation_covers_trial :
    ∃ (w : Intake) (job : Job), w.job = some job ∧ outstanding trialDeclared w.chunks = 3 ∧
      outstanding trialDeclared w.chunks ≤ job.reservedBytes := by
  have hstart : (runActions 3 uploadLibrary trialSections trialCreated).map
      (fun w => (w.assembling.map (·.kernelSize), outstanding trialDeclared w.chunks)) = some (some 1, 3) := by
    decide +kernel
  obtain ⟨w₁, hw₁, hread₁⟩ := Option.map_eq_some_iff.mp hstart
  have hmissing : outstanding trialDeclared w₁.chunks = 3 := congrArg Prod.snd hread₁
  have hfirst : History 3 uploadLibrary Covered trialCreated w₁ := by
    refine history_of_runActions ?_ (.refl _) hw₁
    intro action haction w
    simp only [trialSections, List.mem_cons, List.not_mem_nil, or_false] at haction
    obtain rfl | rfl | rfl | rfl := haction <;> trivial
  have hend : ((runActions 3 uploadLibrary trialSections trialCreated).bind
      (step 3 uploadLibrary (.completeFinish (trialAssembly true)))).bind booking = some (true, 3, 5) := by
    decide +kernel
  rw [hw₁, Option.bind_some] at hend
  obtain ⟨w, hlast, hread⟩ := Option.bind_eq_some_iff.mp hend
  obtain ⟨job, hjob, hbooking⟩ := Option.map_eq_some_iff.mp hread
  have hcovered : Covered (.act (.completeFinish (trialAssembly true))) w₁ := by
    intro read hassembling
    have hd : read.toDeclared = trialDeclared :=
      ((booked_created trialDeclared "p/d" "p/k" "").history hfirst).assembling read hassembling
    rw [hd, hmissing]
    refine ⟨fun _ => .inr ⟨fun _ => rfl, rfl, rfl⟩, fun _ sizes hsizes => ?_, fun hfull => by cases hfull⟩
    rw [← Except.ok.inj hsizes]
    decide
  have hreceiving : job.status = .receiving := by simpa using congrArg Prod.fst hbooking
  exact ⟨w, job, hjob, congrArg (fun b => b.2.1) hbooking,
    reservation_covers 3 uploadLibrary trialDeclared "p/d" "p/k" "" (hfirst.step _ hcovered hlast) hjob hreceiving⟩

/-- Space runs out while the kernel is copied: three bytes are outstanding, and
two are reserved. -/
theorem assembly_drops_reservation :
    ∃ w job, Run 3 uploadLibrary trialCreated w ∧ w.job = some job ∧ job.status = .receiving ∧
      outstanding trialDeclared w.chunks = 3 ∧ job.reservedBytes = 2 := by
  have hend : (runActions 3 uploadLibrary (trialSections ++ [.completeFinish (trialAssembly false)])
      trialCreated).bind booking = some (true, 3, 2) := by decide +kernel
  obtain ⟨w, hw, hread⟩ := Option.bind_eq_some_iff.mp hend
  obtain ⟨job, hjob, hbooking⟩ := Option.map_eq_some_iff.mp hread
  exact ⟨w, job, run_of_runActions (.refl _) hw, hjob, by simpa using congrArg Prod.fst hbooking,
    congrArg (fun b => b.2.1) hbooking, congrArg (fun b => b.2.2) hbooking⟩

end Intake

end KaggleRelay

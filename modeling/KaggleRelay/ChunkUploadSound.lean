/-
Chunked uploads lose and mix nothing.

`StoreEffect` says once what a section can do to the chunk rows, the part files
and the archives: nothing, store one received chunk, assemble, or remove.  The
invariant `Sound` and the three parts of `chunked_upload_sound` are read off
it.
-/
import KaggleRelay.ChunkUpload

namespace KaggleRelay

open Tiling

namespace Intake

variable {hours : ℕ} {lib : Library} {w w' w'' : Intake}

/-! ### Sections that only write the row -/

/-- `w'` differs from `w` in the row at most, and there in no declared column. -/
structure Quiet (w w' : Intake) : Prop where
  chunks : w'.chunks = w.chunks
  parts : w'.parts = w.parts
  archives : w'.archives = w.archives
  uploads : w'.uploads = w.uploads
  assembling : w'.assembling = w.assembling
  job : ∀ job', w'.job = some job' → ∃ job, w.job = some job ∧ job'.toDeclared = job.toDeclared

theorem Quiet.refl (w : Intake) : Quiet w w := ⟨rfl, rfl, rfl, rfl, rfl, fun job h => ⟨job, h, rfl⟩⟩

theorem Quiet.trans (h : Quiet w w') (h' : Quiet w' w'') : Quiet w w'' where
  chunks := h'.chunks.trans h.chunks
  parts := h'.parts.trans h.parts
  archives := h'.archives.trans h.archives
  uploads := h'.uploads.trans h.uploads
  assembling := h'.assembling.trans h.assembling
  job := by
    intro job'' hjob''
    obtain ⟨job', hjob', hd'⟩ := h'.job job'' hjob''
    obtain ⟨job, hjob, hd⟩ := h.job job' hjob'
    exact ⟨job, hjob, hd'.trans hd⟩

/-- A write to the row that keeps what the job declares. -/
theorem quiet_mapJob (f : Job → Job) (hf : ∀ job, (f job).toDeclared = job.toDeclared)
    (w : Intake) : Quiet w { w with job := w.job.map f } := by
  refine ⟨rfl, rfl, rfl, rfl, rfl, ?_⟩
  intro job' hjob'
  obtain ⟨job, hjob, rfl⟩ := Option.map_eq_some_iff.mp hjob'
  exact ⟨job, hjob, hf job⟩

theorem quiet_updateJob (now : ℚ) (values : JobValues) (w : Intake) :
    Quiet w (w.updateJob now values) :=
  quiet_mapJob (KaggleRelay.updateJob now values) (fun _ => rfl) w

theorem quiet_touchUpload (now : ℚ) (w : Intake) : Quiet w (w.touchUpload now) := by
  refine quiet_mapJob _ (fun job => ?_) w
  split_ifs <;> rfl

theorem quiet_consume (size : ℕ) (w : Intake) : Quiet w (w.consume size) :=
  quiet_mapJob (fun job => { job with reservedBytes := job.reservedBytes - size }) (fun _ => rfl) w

theorem quiet_updateJobIfStatus {now : ℚ} {expected : List Status} {values : JobValues}
    (h : w.updateJobIfStatus now expected values = some w') : Quiet w w' := by
  obtain ⟨job', hjob', rfl⟩ := Option.map_eq_some_iff.mp h
  obtain ⟨job, hjob, hset⟩ := Option.bind_eq_some_iff.mp hjob'
  obtain ⟨-, -, -, rfl⟩ := updateJobIfStatus_some hset
  refine ⟨rfl, rfl, rfl, rfl, rfl, ?_⟩
  intro job'' hjob''
  cases hjob''
  exact ⟨job, hjob, rfl⟩

theorem quiet_tryUpdate (now : ℚ) (expected : List Status) (values : JobValues) (w : Intake) :
    Quiet w (w.tryUpdate now expected values) := by
  unfold tryUpdate
  cases h : w.updateJobIfStatus now expected values with
  | none => exact .refl w
  | some w' => exact quiet_updateJobIfStatus h

theorem quiet_expireReceivingUpload (now : ℚ) (job : Job) (w : Intake) :
    Quiet w (w.expireReceivingUpload hours now job).2 := by
  unfold expireReceivingUpload
  split_ifs
  · exact .refl w
  · dsimp only
    split
    · next h => exact quiet_updateJobIfStatus h
    · exact .refl w

theorem quiet_rejectExpiredUpload {now : ℚ} {job : Job} {r : Except Exc Unit}
    (h : w.rejectExpiredUpload hours now job = (r, w')) : Quiet w w' := by
  have hq : Quiet w (w.expireReceivingUpload hours now job).2 :=
    quiet_expireReceivingUpload now job w
  unfold rejectExpiredUpload at h
  dsimp only at h
  split_ifs at h <;> cases h <;> exact hq

theorem quiet_reserve {now : ℚ} {free : Bool} {needed : ℕ} {r : Except Exc Unit}
    (h : w.reserve now free needed = (r, w')) : Quiet w w' := by
  unfold reserve at h
  split_ifs at h
  · cases h
    exact quiet_updateJob now _ w
  · cases h
    exact .refl w

theorem quiet_validateArchives (answers : AssemblyAnswers) (w : Intake) :
    Quiet w (w.validateArchives answers).2 := by
  unfold validateArchives
  split
  · exact .refl w
  · next sizes _ =>
    split
    · next hr => exact quiet_reserve hr
    · next hr =>
      split
      · exact quiet_reserve hr
      · exact (quiet_reserve hr).trans (quiet_consume sizes _)

/-- A job that a request has read is the row's. -/
theorem job_of_getAuthorizedJob {authorized : Bool} {job : Job}
    (h : w.getAuthorizedJob authorized = .ok job) : w.job = some job := by
  unfold getAuthorizedJob at h
  split at h
  · next hjob =>
    split_ifs at h
    cases h
    exact hjob
  · cases h

/-! ### The invariant -/

/-- The number of chunks of an archive. -/
def count (d : Declared) (k : ArchiveType) : ℕ := chunkCount (d.size k) d.chunkSize

/-- The size of a chunk. -/
def sizeOf (d : Declared) (k : ArchiveType) (i : ℕ) : ℕ := pieceSize d.chunkSize (d.size k) i

/-- A chunk row tells the size and the digest of `bytes`. -/
def ChunkRow.Of (lib : Library) (row : ChunkRow) (bytes : Bytes) : Prop :=
  row.size = bytes.length ∧ row.sha256 = lib.sha256 bytes

/-- `content` is the accepted chunks of an archive in index order, of the
declared length and digest; a part file that is still there holds its chunk. -/
def Accepted (lib : Library) (d : Declared) (w : Intake) (k : ArchiveType) (content : Bytes)
    (digest : String) : Prop :=
  ∃ chunk : ℕ → Bytes, content = glue (count d k) chunk ∧ content.length = d.size k ∧
    digest = lib.sha256 content ∧ lib.lower digest = lib.lower (d.archiveSha256 k) ∧
    ∀ i < count d k, ∃ row, (w.chunks k)[i]? = some row ∧ ChunkRow.Of lib row (chunk i) ∧
      ∀ bytes, w.parts k i = some bytes → bytes = chunk i

structure Sound (lib : Library) (d : Declared) (w : Intake) : Prop where
  job : ∀ job, w.job = some job → job.toDeclared = d
  assembling : ∀ job, w.assembling = some job → job.toDeclared = d
  upload : ∀ u ∈ w.uploads, u.index < count d u.archiveType ∧
    u.chunkSize = sizeOf d u.archiveType u.index
  row : ∀ k i row, (w.chunks k)[i]? = some row → i < count d k ∧ row.size = sizeOf d k i
  /-- A part file has its row. -/
  part : ∀ k i bytes, w.parts k i = some bytes →
    ∃ row, (w.chunks k)[i]? = some row ∧ ChunkRow.Of lib row bytes
  /-- Nobody uploads a chunk whose row has lost its file. -/
  present : ∀ u ∈ w.uploads, ∀ row, (w.chunks u.archiveType)[u.index]? = some row →
    ∃ bytes, w.parts u.archiveType u.index = some bytes
  archive : ∀ k content digest, w.archives k = some ⟨content, some digest⟩ →
    Accepted lib d w k content digest

/-! ### What a section can do -/

/-- The sections that remove a job's files. -/
def Action.removes : Action → Bool
  | .cleanup .. | .delete .. => true
  | _ => false

/-- The effect of a section on what is stored; only a section that `removes`
takes files away. -/
inductive StoreEffect (lib : Library) (d : Declared) (removes : Prop) (w w' : Intake) : Prop
  | same (chunks : w'.chunks = w.chunks) (parts : w'.parts = w.parts)
      (archives : w'.archives = w.archives)
  | stored (u : Upload) (now : ℚ) (mem : u ∈ w.uploads) (body : checkBody lib u = .ok ())
      (receiving : ∃ job, w.job = some job ∧ job.status = .receiving)
      (absent : (w.chunks u.archiveType)[u.index]? = none)
      (chunks : w'.chunks = Function.update w.chunks u.archiveType
        ((w.chunks u.archiveType).insert u.index
          ⟨u.received.length, lib.sha256 u.received, now⟩))
      (parts : w'.parts = Function.update w.parts u.archiveType
        (Function.update (w.parts u.archiveType) u.index (some u.received)))
      (archives : w'.archives = w.archives)
  | assembled (chunks : w'.chunks = w.chunks) (parts : w'.parts = w.parts)
      (archives : ∀ k content digest, w'.archives k = some ⟨content, some digest⟩ →
        w.archives k = some ⟨content, some digest⟩ ∨
          ∃ space, assembleArchive space lib (w.parts k) (d.size k) d.chunkSize
            (d.archiveSha256 k) = (.ok digest, content))
  | removed (removes : removes) (chunks : w'.chunks = w.chunks)
      (parts : ∀ k i bytes, w'.parts k i = some bytes → w.parts k i = some bytes)
      (archives : ∀ k a, w'.archives k = some a → w.archives k = some a)
      (uploads : w'.uploads = [])
  | deleted (removes : removes) (job : w'.job = none) (chunks : w'.chunks = fun _ => ∅)
      (parts : w'.parts = fun _ _ => none) (archives : w'.archives = fun _ => none)
      (uploads : w'.uploads = [])

/-- An upload that the first section lets stream. -/
def Admitted (d : Declared) (w : Intake) (u : Upload) : Prop :=
  u.index < count d u.archiveType ∧ u.chunkSize = sizeOf d u.archiveType u.index ∧
    (w.chunks u.archiveType)[u.index]? = none

/-- The effect of a section. -/
structure Effect (lib : Library) (d : Declared) (removes : Prop) (w w' : Intake) : Prop where
  store : StoreEffect lib d removes w w'
  job : ∀ job', w'.job = some job' → ∃ job, w.job = some job ∧ job'.toDeclared = job.toDeclared
  assembling : ∀ job, w'.assembling = some job → w.assembling = some job ∨ w.job = some job
  upload : ∀ u ∈ w'.uploads, Admitted d w u ∨ ∃ u₀ ∈ w.uploads, u.archiveType = u₀.archiveType ∧
    u.index = u₀.index ∧ u.chunkSize = u₀.chunkSize

variable {d : Declared} {removes : Prop}

theorem upload_of_mem {us : List Upload} (h : ∀ u ∈ us, u ∈ w.uploads) :
    ∀ u ∈ us, Admitted d w u ∨ ∃ u₀ ∈ w.uploads, u.archiveType = u₀.archiveType ∧
      u.index = u₀.index ∧ u.chunkSize = u₀.chunkSize :=
  fun u hu => .inr ⟨u, h u hu, rfl, rfl, rfl⟩

theorem Quiet.effect (h : Quiet w w') : Effect lib d removes w w' where
  store := .same h.chunks h.parts h.archives
  job := h.job
  assembling := fun job hjob => .inl (by rw [← h.assembling, hjob])
  upload := upload_of_mem fun u hu => by rwa [← h.uploads]

/-- A section that ends an upload and else only writes the row. -/
theorem Quiet.effect_release (h : Quiet w w') (n : ℕ) : Effect lib d removes w (w'.releaseUpload n) where
  store := .same h.chunks h.parts h.archives
  job := h.job
  assembling := fun job hjob => .inl (by rw [← h.assembling]; exact hjob)
  upload := upload_of_mem fun u hu => by
    rw [← h.uploads]
    exact List.mem_of_mem_eraseIdx hu

/-! ### Uploads -/

/-- What `upload_chunk` has checked about the path and the headers. -/
theorem checkRequest_ok (hsize : ∀ k, d.size k < 2 ^ 53) {job : Job} {request : ChunkRequest}
    (hd : job.toDeclared = d) (h : checkRequest job request = .ok ()) :
    job.status = .receiving ∧ request.index.toNat < count d request.archiveType ∧
      request.xChunkSize.toNat = sizeOf d request.archiveType request.index.toNat := by
  subst hd
  unfold checkRequest at h
  dsimp only at h
  by_cases hstatus : job.status ≠ .receiving
  · rw [if_pos hstatus] at h
    cases h
  rw [if_neg hstatus] at h
  split at h
  · cases h
  · next hindex =>
    split_ifs at h with hsizes hhex
    rw [not_not] at hstatus hsizes
    obtain ⟨i, hi, hlt⟩ := validateChunkIndex_ok (hsize _) job.chunkSize_pos hindex
    refine ⟨hstatus, ?_, ?_⟩
    · rw [hi, Int.toNat_natCast]
      exact hlt
    · rw [hsizes, hi, Int.toNat_natCast, sizeOf, pieceSize]
      have hcast : (i : ℤ) * (job.chunkSize : ℤ) = ((i * job.chunkSize : ℕ) : ℤ) := by push_cast; rfl
      rw [hcast]
      omega

theorem uploadStart_effect (hsize : ∀ k, d.size k < 2 ^ 53) (h : Sound lib d w) (now : ℚ)
    (authorized : Bool) (request : ChunkRequest) (slots space : Bool) :
    Effect lib d removes w (w.uploadStart hours lib now authorized request slots space).2 := by
  unfold uploadStart
  split
  · exact (Quiet.refl w).effect
  · next job hjob =>
    have hd := h.job job (job_of_getAuthorizedJob hjob)
    split
    · next hr => exact (quiet_rejectExpiredUpload hr).effect
    · next w₁ hr =>
      have hq := quiet_rejectExpiredUpload hr
      split
      · exact hq.effect
      · next hcheck =>
        obtain ⟨-, hindex, hchunk⟩ := checkRequest_ok hsize hd hcheck
        dsimp only
        split
        · split_ifs
          · exact (hq.trans (quiet_touchUpload now w₁)).effect
          · exact hq.effect
        · next hnone =>
          split_ifs
          · exact hq.effect
          · exact hq.effect
          · -- the request becomes an upload
            have hq' := hq.trans (quiet_touchUpload now w₁)
            refine ⟨.same hq'.chunks hq'.parts hq'.archives, hq'.job, ?_, ?_⟩
            · intro job' hjob'
              exact .inl (by rw [← hq'.assembling]; exact hjob')
            · intro u hu
              rcases List.mem_append.mp hu with hu | hu
              · rw [hq.uploads] at hu
                exact .inr ⟨u, hu, rfl, rfl, rfl⟩
              · rw [List.mem_singleton.mp hu]
                rw [hq.chunks] at hnone
                exact .inl ⟨hindex, hchunk, hnone⟩

theorem uploadPart_effect {n : ℕ} {u : Upload} (hu : w.uploads[n]? = some u) (part : Bytes)
    (space : Option Bool) : Effect lib d removes w (w.uploadPart n u part space).2 := by
  unfold uploadPart
  split_ifs
  · exact (Quiet.refl w).effect_release n
  · exact (Quiet.refl w).effect_release n
  · refine ⟨.same rfl rfl rfl, fun job hjob => ⟨job, hjob, rfl⟩, fun job hjob => .inl hjob, ?_⟩
    intro v hv
    rcases List.mem_or_eq_of_mem_set hv with hv | rfl
    · exact .inr ⟨v, hv, rfl, rfl, rfl⟩
    · exact .inr ⟨u, List.mem_of_getElem? hu, rfl, rfl, rfl⟩

theorem uploadPastDeadline_effect (now : ℚ) (n : ℕ) (u : Upload) :
    Effect lib d removes w (w.uploadPastDeadline hours now n u).2 := by
  unfold uploadPastDeadline
  split
  · next hr => exact (quiet_rejectExpiredUpload hr).effect_release n
  · next hr => exact (quiet_rejectExpiredUpload hr).effect_release n

/-- Nothing happens to the row of a job that has not expired. -/
theorem eq_of_rejectExpiredUpload {now : ℚ} {job : Job}
    (h : w.rejectExpiredUpload hours now job = (.ok (), w')) : w' = w := by
  unfold rejectExpiredUpload at h
  dsimp only at h
  by_cases herror : (w.expireReceivingUpload hours now job).1 = ""
  swap
  · rw [if_neg herror] at h
    cases h
  rw [if_pos herror] at h
  have hw : (w.expireReceivingUpload hours now job).2 = w' := congrArg Prod.snd h
  rw [← hw]
  unfold expireReceivingUpload at herror ⊢
  split_ifs at herror ⊢ with hc
  · rfl
  · dsimp only at herror ⊢
    split
    · next hs =>
      rw [hs] at herror
      have hlen := congrArg String.length herror
      simp [String.length_append] at hlen
    · rfl

theorem uploadFinish_effect (h : Sound lib d w) {n : ℕ} {u : Upload}
    (hu : w.uploads[n]? = some u) (hbody : checkBody lib u = .ok ()) (now : ℚ) (authorized : Bool) :
    Effect lib d removes w (w.uploadFinish hours lib now authorized n u).2 := by
  have hmem : u ∈ w.uploads := List.mem_of_getElem? hu
  unfold uploadFinish
  split
  · exact (Quiet.refl w).effect_release n
  · next job hjob =>
    have hrow := job_of_getAuthorizedJob hjob
    split
    · next hr => exact (quiet_rejectExpiredUpload hr).effect_release n
    · next w₁ hr =>
      cases eq_of_rejectExpiredUpload hr
      by_cases hstatus : job.status ≠ .receiving
      · rw [if_pos hstatus]
        exact (Quiet.refl w).effect_release n
      · rw [if_neg hstatus]
        rw [not_not] at hstatus
        split
        · next existing hexisting =>
          -- a row for this index has its file, so it is a duplicate or refused
          obtain ⟨bytes, hbytes⟩ := h.present u hmem existing hexisting
          split_ifs with hdiffers hpresent
          · exact (Quiet.refl w).effect_release n
          · exact (Quiet.refl w).effect_release n
          · rw [hbytes] at hpresent
            exact absurd rfl hpresent
        · next hnone =>
          refine ⟨.stored u now hmem hbody ⟨job, hrow, hstatus⟩ hnone rfl rfl rfl, ?_, ?_, ?_⟩
          · intro job' hjob'
            obtain ⟨job, hjob, rfl⟩ := Option.map_eq_some_iff.mp hjob'
            exact ⟨job, hjob, rfl⟩
          · exact fun job hjob => .inl hjob
          · exact upload_of_mem fun v hv => List.mem_of_mem_eraseIdx hv

/-! ### Assembling -/

/-- `w'` differs from `w` in the row and in archives assembled from the parts. -/
structure Assembles (lib : Library) (d : Declared) (w w' : Intake) : Prop where
  chunks : w'.chunks = w.chunks
  parts : w'.parts = w.parts
  uploads : w'.uploads = w.uploads
  job : ∀ job', w'.job = some job' → ∃ job, w.job = some job ∧ job'.toDeclared = job.toDeclared
  archives : ∀ k content digest, w'.archives k = some ⟨content, some digest⟩ →
    w.archives k = some ⟨content, some digest⟩ ∨
      ∃ space, assembleArchive space lib (w.parts k) (d.size k) d.chunkSize
        (d.archiveSha256 k) = (.ok digest, content)

theorem Quiet.assembles (h : Quiet w w') : Assembles lib d w w' where
  chunks := h.chunks
  parts := h.parts
  uploads := h.uploads
  job := h.job
  archives := by
    rw [h.archives]
    exact fun _ _ _ ha => .inl ha

theorem Assembles.trans (h : Assembles lib d w w') (h' : Assembles lib d w' w'') :
    Assembles lib d w w'' where
  chunks := h'.chunks.trans h.chunks
  parts := h'.parts.trans h.parts
  uploads := h'.uploads.trans h.uploads
  job := by
    intro job'' hjob''
    obtain ⟨job', hjob', hd'⟩ := h'.job job'' hjob''
    obtain ⟨job, hjob, hd⟩ := h.job job' hjob'
    exact ⟨job, hjob, hd'.trans hd⟩
  archives := by
    intro k content digest ha
    rcases h'.archives k content digest ha with ha | ⟨space, ha⟩
    · exact h.archives k content digest ha
    · rw [h.parts] at ha
      exact .inr ⟨space, ha⟩

theorem assemble_assembles (space : ℕ → Bool) {job : Job} (hd : job.toDeclared = d)
    (k : ArchiveType) (w : Intake) : Assembles lib d w (w.assemble lib space job k).2 := by
  subst hd
  unfold assemble
  split
  · next e content hasm =>
    refine ⟨rfl, rfl, rfl, fun job hjob => ⟨job, hjob, rfl⟩, ?_⟩
    intro k' content' digest ha
    dsimp only at ha
    by_cases hk : k' = k
    · subst hk
      rw [Function.update_self] at ha
      cases ha
    · rw [Function.update_of_ne hk] at ha
      exact .inl ha
  · next digest content hasm =>
    refine ⟨rfl, rfl, rfl, fun job hjob => ⟨job, hjob, rfl⟩, ?_⟩
    intro k' content' digest' ha
    dsimp only at ha
    by_cases hk : k' = k
    · subst hk
      rw [Function.update_self] at ha
      cases ha
      exact .inr ⟨space, hasm⟩
    · rw [Function.update_of_ne hk] at ha
      exact .inl ha

theorem assembleDataset_assembles (answers : AssemblyAnswers) (cacheHit : Bool) {job : Job}
    (hd : job.toDeclared = d) (w : Intake) :
    Assembles lib d w (w.assembleDataset lib answers cacheHit job).2 := by
  have hasm : Assembles lib d w (w.assemble lib (answers.space .dataset) job .dataset).2 :=
    assemble_assembles _ hd .dataset w
  unfold assembleDataset
  split
  · exact (Quiet.refl w).assembles
  · split
    · next hr =>
      rw [hr] at hasm
      exact hasm
    · next hr =>
      rw [hr] at hasm
      exact hasm.trans (quiet_consume _ _).assembles

theorem assembleAndValidateJob_assembles (answers : AssemblyAnswers) {job : Job}
    (hd : job.toDeclared = d) (w : Intake) :
    Assembles lib d w (w.assembleAndValidateJob lib answers job).2 := by
  unfold assembleAndValidateJob
  split
  · exact (Quiet.refl w).assembles
  · dsimp only
    split
    · next hr => exact (quiet_reserve hr).assembles
    · next w₁ hr =>
      have h₁ : Assembles lib d w w₁ := (quiet_reserve hr).assembles
      have h₂ := h₁.trans (assembleDataset_assembles answers
        (answers.cacheHit && !awaitingAssignment job) hd w₁)
      split
      · next hr₂ =>
        rw [hr₂] at h₂
        exact h₂
      · next w₂ hr₂ =>
        rw [hr₂] at h₂
        have h₃ := h₂.trans (assemble_assembles (answers.space .kernel) hd .kernel w₂)
        split
        · next hr₃ =>
          rw [hr₃] at h₃
          exact h₃
        · next w₃ hr₃ =>
          rw [hr₃] at h₃
          exact h₃.trans (quiet_validateArchives answers w₃).assembles

/-- The end of an assembly: a write to the row, and the lock is released. -/
theorem Assembles.effect (h : Assembles lib d w w') (hq : Quiet w' w'') :
    Effect lib d removes w { w'' with assembling := none } := by
  have h' : Assembles lib d w w'' := h.trans hq.assembles
  refine ⟨.assembled h'.chunks h'.parts h'.archives, h'.job, ?_, ?_⟩
  · intro job hjob
    cases hjob
  · refine upload_of_mem fun u hu => ?_
    rw [← h'.uploads]
    exact hu

theorem completeFinish_effect (answers : AssemblyAnswers) {job : Job} (hd : job.toDeclared = d)
    (w : Intake) : Effect lib d removes w (w.completeFinish lib answers job).2 := by
  have hasm : Assembles lib d w (w.assembleAndValidateJob lib answers job).2 :=
    assembleAndValidateJob_assembles answers hd w
  unfold completeFinish
  split
  · next hr =>
    rw [hr] at hasm
    split_ifs
    · exact hasm.effect (quiet_tryUpdate _ _ _ _)
    · exact hasm.effect (quiet_tryUpdate _ _ _ _)
  · next hr =>
    rw [hr] at hasm
    exact hasm.effect (quiet_tryUpdate _ _ _ _)

theorem completeInterrupted_effect (now : ℚ) (w : Intake) :
    Effect lib d removes w (w.completeInterrupted now) :=
  (Quiet.refl w).assembles.effect (quiet_tryUpdate now _ _ w)

theorem completeStart_effect (now : ℚ) (authorized cacheHit : Bool) (w : Intake) :
    Effect lib d removes w (w.completeStart hours now authorized cacheHit).2 := by
  unfold completeStart
  split
  · exact (Quiet.refl w).effect
  · next job hjob =>
    split
    · next hr => exact (quiet_rejectExpiredUpload hr).effect
    · next w₁ hr =>
      have hq := quiet_rejectExpiredUpload hr
      split_ifs
      · exact hq.effect
      · split
        · next w₂ hset =>
          -- the lock stays with the request, together with the row it has read
          have hq' := hq.trans (quiet_updateJobIfStatus hset)
          refine ⟨.same hq'.chunks hq'.parts hq'.archives, hq'.job, ?_, ?_⟩
          · intro job' hjob'
            cases hjob'
            exact .inr (job_of_getAuthorizedJob hjob)
          · exact upload_of_mem fun u hu => by rwa [← hq'.uploads]
        · exact hq.effect
      · exact hq.effect

/-! ### Removing -/

theorem cancelJob_effect (now : ℚ) (authorized : Bool) (w : Intake) :
    Effect lib d removes w (w.cancelJob now authorized).2 := by
  unfold cancelJob
  split
  · exact (Quiet.refl w).effect
  · split_ifs
    · exact (Quiet.refl w).effect
    · exact (Quiet.refl w).effect
    · exact (quiet_tryUpdate now _ _ w).effect

/-- Removing files while nobody uploads. -/
theorem removed_effect (hr : removes) (left : Leftover) (hq : Quiet w w') (hq' : Quiet (w'.rmtree left) w'')
    (hu : w'.uploads = []) : Effect lib d removes w w'' := by
  have huploads : w''.uploads = [] := by
    rw [hq'.uploads]
    exact hu
  refine ⟨.removed hr ?_ ?_ ?_ huploads, ?_, ?_, ?_⟩
  · rw [hq'.chunks]
    exact hq.chunks
  · intro k i bytes hbytes
    rw [hq'.parts] at hbytes
    simp only [rmtree] at hbytes
    split_ifs at hbytes
    rwa [hq.parts] at hbytes
  · intro k a ha
    rw [hq'.archives] at ha
    simp only [rmtree] at ha
    split_ifs at ha
    rwa [hq.archives] at ha
  · intro job'' hjob''
    obtain ⟨job', hjob', hd'⟩ := hq'.job job'' hjob''
    obtain ⟨job, hjob, hd⟩ := hq.job job' hjob'
    exact ⟨job, hjob, hd'.trans hd⟩
  · intro job hjob
    rw [hq'.assembling] at hjob
    exact .inl (by rw [← hq.assembling]; exact hjob)
  · rw [huploads]
    exact upload_of_mem fun u hu => absurd hu (List.not_mem_nil)

theorem cleanupExpiredJob_effect (hr : removes) (hq : Quiet w w') (hu : w'.uploads = []) (now : ℚ)
    (left : Option Leftover) : Effect lib d removes w (w'.cleanupExpiredJob now left) := by
  cases left with
  | some left => exact removed_effect hr left hq (Quiet.refl _) hu
  | none => exact removed_effect hr nothingLeft hq (quiet_updateJob _ _ _) hu

theorem cleanupJob_effect (hr : removes) (now receivingCutoff : ℚ) (stale workerActive : Bool)
    (left : Option Leftover) (w : Intake) :
    Effect lib d removes w (w.cleanupJob hours now receivingCutoff stale workerActive left) := by
  unfold cleanupJob
  split
  · exact (Quiet.refl w).effect
  · next job hjob =>
    split
    · exact (Quiet.refl w).effect
    · have hq : Quiet w (w.expireReceivingUpload hours now job).2 :=
        quiet_expireReceivingUpload now job w
      generalize w.expireReceivingUpload hours now job = r at hq
      obtain ⟨timedOut, w₁⟩ := r
      dsimp only at hq ⊢
      by_cases hbusy : (!w₁.uploads.isEmpty || workerActive) = true
      · rw [if_pos hbusy]
        exact hq.effect
      rw [if_neg hbusy]
      have hu : w₁.uploads = [] := by
        rcases hw : w₁.uploads with _ | ⟨u, us⟩
        · rfl
        · rw [hw] at hbusy
          exact absurd rfl hbusy
      split
      · split
        · exact hq.effect
        · split
          · next hset =>
            have hq' := quiet_updateJobIfStatus hset
            exact cleanupExpiredJob_effect hr (hq.trans hq') (hq'.uploads.trans hu) now left
          · exact hq.effect
      · exact cleanupExpiredJob_effect hr hq hu now left

theorem deleteJob_effect (hr : removes) (authorized workerActive : Bool) (left : Option Leftover) (w : Intake) :
    Effect lib d removes w (w.deleteJob authorized workerActive left).2 := by
  unfold deleteJob
  split
  · exact (Quiet.refl w).effect
  · split_ifs with hstatus hworker hbusy
    · exact (Quiet.refl w).effect
    · exact (Quiet.refl w).effect
    · exact (Quiet.refl w).effect
    · have hu : w.uploads = [] := by
        rcases hw : w.uploads with _ | ⟨u, us⟩
        · rfl
        · rw [hw] at hbusy
          exact absurd rfl hbusy
      cases left with
      | some left => exact removed_effect hr left (Quiet.refl w) (Quiet.refl _) hu
      | none =>
        refine ⟨.deleted hr rfl rfl rfl rfl hu, ?_, ?_, ?_⟩
        · intro job hjob
          cases hjob
        · exact fun job hjob => .inl hjob
        · exact upload_of_mem fun u hmem => hmem

/-! ### Steps and runs -/

theorem step_effect (hsize : ∀ k, d.size k < 2 ^ 53) (h : Sound lib d w) {action : Action}
    (hs : step hours lib action w = some w') : Effect lib d (action.removes = true) w w' := by
  cases action with
  | uploadStart now authorized request slots space =>
    simp only [step] at hs
    split_ifs at hs
    cases hs
    exact uploadStart_effect hsize h now authorized request slots space
  | uploadPart n now part space =>
    simp only [step] at hs
    split at hs
    · cases hs
    · next u hu =>
      split_ifs at hs <;> cases hs
      · exact uploadPastDeadline_effect now n u
      · exact uploadPart_effect hu part space
  | uploadFinish n now authorized =>
    simp only [step] at hs
    split at hs
    · cases hs
    · next u hu =>
      split at hs
      · cases hs
        exact (Quiet.refl w).effect_release n
      · next hbody =>
        split_ifs at hs
        cases hs
        exact uploadFinish_effect h hu hbody now authorized
  | uploadAbort n =>
    cases hs
    exact (Quiet.refl w).effect_release n
  | completeStart now authorized cacheHit =>
    simp only [step] at hs
    split_ifs at hs
    cases hs
    exact completeStart_effect now authorized cacheHit w
  | completeFinish answers =>
    obtain ⟨job, hjob, rfl⟩ := Option.map_eq_some_iff.mp hs
    exact completeFinish_effect answers (h.assembling job hjob) w
  | completeInterrupted now =>
    obtain ⟨job, hjob, rfl⟩ := Option.map_eq_some_iff.mp hs
    exact completeInterrupted_effect now w
  | cancel now authorized =>
    simp only [step] at hs
    split_ifs at hs
    cases hs
    exact cancelJob_effect now authorized w
  | cleanup now receivingCutoff stale workerActive left =>
    simp only [step] at hs
    split_ifs at hs
    cases hs
    exact cleanupJob_effect rfl now receivingCutoff stale workerActive left w
  | delete authorized workerActive left =>
    simp only [step] at hs
    split_ifs at hs
    cases hs
    exact deleteJob_effect rfl authorized workerActive left w
  | relay job' =>
    simp only [step] at hs
    split at hs
    · cases hs
    · next job hjob =>
      split_ifs at hs
      cases hs
      refine ⟨.same rfl rfl rfl, ?_, fun job hjob => .inl hjob, upload_of_mem fun u hu => hu⟩
      intro job'' hjob''
      cases hjob''
      exact ⟨job, hjob, rfl⟩

/-- Looking up after `add_chunk`. -/
theorem getElem?_update_insert (chunks : ArchiveType → ChunkRows) (k₀ k : ArchiveType) (i₀ i : ℕ)
    (row : ChunkRow) :
    (Function.update chunks k₀ ((chunks k₀).insert i₀ row) k)[i]? =
      if k = k₀ ∧ i = i₀ then some row else (chunks k)[i]? := by
  by_cases hk : k = k₀
  · subst hk
    rw [Function.update_self, Std.ExtTreeMap.getElem?_insert]
    by_cases hi : i = i₀
    · rw [if_pos (compare_eq_iff_eq.mpr hi.symm), if_pos ⟨rfl, hi⟩]
    · rw [if_neg (fun h => hi (compare_eq_iff_eq.mp h).symm), if_neg fun h => hi h.2]
  · rw [Function.update_of_ne hk, if_neg fun h => hk h.1]

/-- Looking up after `tmp_path.replace(chunk_path)`. -/
theorem update_update_eq (parts : ArchiveType → ℕ → Option Bytes) (k₀ k : ArchiveType) (i₀ i : ℕ)
    (part : Option Bytes) :
    Function.update parts k₀ (Function.update (parts k₀) i₀ part) k i =
      if k = k₀ ∧ i = i₀ then part else parts k i := by
  by_cases hk : k = k₀
  · subst hk
    rw [Function.update_self]
    by_cases hi : i = i₀
    · rw [hi, Function.update_self, if_pos ⟨rfl, rfl⟩]
    · rw [Function.update_of_ne hi, if_neg fun h => hi h.2]
  · rw [Function.update_of_ne hk, if_neg fun h => hk h.1]

/-- The rows of `w` stay, and a file that has a row there keeps its content for
as long as it exists. -/
structure Keeps (w w' : Intake) : Prop where
  row : ∀ (k : ArchiveType) (i : ℕ) (row : ChunkRow), (w.chunks k)[i]? = some row →
    (w'.chunks k)[i]? = some row
  file : ∀ (k : ArchiveType) (i : ℕ) (row : ChunkRow) (bytes : Bytes),
    (w.chunks k)[i]? = some row → w'.parts k i = some bytes → w.parts k i = some bytes

theorem Keeps.trans (h : Keeps w w') (h' : Keeps w' w'') : Keeps w w'' where
  row k i row hrow := h'.row k i row (h.row k i row hrow)
  file k i row bytes hrow hbytes :=
    h.file k i row bytes hrow (h'.file k i row bytes (h.row k i row hrow) hbytes)

/-- Rows that stay, and files that may only go. -/
theorem keeps_of_parts (chunks : w'.chunks = w.chunks)
    (parts : ∀ k i bytes, w'.parts k i = some bytes → w.parts k i = some bytes) : Keeps w w' :=
  ⟨fun k i row hrow => by rwa [chunks], fun k i _ bytes _ hbytes => parts k i bytes hbytes⟩

theorem keeps_of_eq (chunks : w'.chunks = w.chunks) (parts : w'.parts = w.parts) : Keeps w w' :=
  keeps_of_parts chunks fun k i bytes hbytes => by rwa [parts] at hbytes

theorem Keeps.accepted (h : Keeps w w') {k : ArchiveType} {content : Bytes} {digest : String}
    (ha : Accepted lib d w k content digest) : Accepted lib d w' k content digest := by
  obtain ⟨chunk, hcontent, hlength, hdigest, hlower, hchunks⟩ := ha
  refine ⟨chunk, hcontent, hlength, hdigest, hlower, ?_⟩
  intro i hi
  obtain ⟨row, hrow, hof, hfile⟩ := hchunks i hi
  exact ⟨row, h.row k i row hrow, hof, fun bytes hbytes => hfile bytes (h.file k i row bytes hrow hbytes)⟩

/-- While the job exists its rows and files are kept. -/
theorem Effect.keeps (h : Effect lib d removes w w') {job : Job} (hjob : w'.job = some job) :
    Keeps w w' := by
  cases h.store with
  | same chunks parts archives => exact keeps_of_eq chunks parts
  | stored u now mem body receiving absent chunks parts archives =>
    -- the index that is stored has no row yet
    have hne : ∀ k i row, (w.chunks k)[i]? = some row → ¬(k = u.archiveType ∧ i = u.index) := by
      rintro k i row hrow ⟨rfl, rfl⟩
      rw [absent] at hrow
      cases hrow
    refine ⟨?_, ?_⟩
    · intro k i row hrow
      rw [chunks, getElem?_update_insert, if_neg (hne k i row hrow)]
      exact hrow
    · intro k i row bytes hrow hbytes
      rwa [parts, update_update_eq, if_neg (hne k i row hrow)] at hbytes
  | assembled chunks parts archives => exact keeps_of_eq chunks parts
  | removed _ chunks parts archives uploads => exact keeps_of_parts chunks parts
  | deleted _ hnone =>
    rw [hjob] at hnone
    cases hnone

theorem checkBody_ok {u : Upload} (h : checkBody lib u = .ok ()) :
    u.received.length = u.chunkSize ∧ lib.sha256 u.received = u.chunkSha256 := by
  unfold checkBody at h
  split_ifs at h with hsize hsha
  exact ⟨not_not.mp hsize, not_not.mp hsha⟩

/-- What a successful assembly has written is accepted. -/
theorem accepted_of_assembleArchive (hsize : ∀ k, d.size k < 2 ^ 53) (h : Sound lib d w)
    {space : ℕ → Bool} {k : ArchiveType} {content : Bytes} {digest : String}
    (ha : assembleArchive space lib (w.parts k) (d.size k) d.chunkSize (d.archiveSha256 k) =
      (.ok digest, content)) : Accepted lib d w k content digest := by
  obtain ⟨hall, hcontent, hlength, hdigest, hlower⟩ :=
    assembleArchive_ok lib (hsize k) d.chunkSize_pos ha
  refine ⟨fun i => (w.parts k i).getD [], hcontent, hlength, hdigest, hlower, ?_⟩
  intro i hi
  obtain ⟨bytes, hbytes⟩ := Option.isSome_iff_exists.mp (hall i hi)
  obtain ⟨row, hrow, hof⟩ := h.part k i bytes hbytes
  dsimp only
  rw [hbytes]
  exact ⟨row, hrow, hof, fun _ h => (Option.some.inj h).symm⟩

/-- **One section keeps the invariant.** -/
theorem Sound.step (hsize : ∀ k, d.size k < 2 ^ 53) (h : Sound lib d w)
    (he : Effect lib d removes w w') : Sound lib d w' := by
  have hjob : ∀ job, w'.job = some job → job.toDeclared = d := by
    intro job' hjob'
    obtain ⟨job, hjob, hd⟩ := he.job job' hjob'
    exact hd.trans (h.job job hjob)
  have hassembling : ∀ job, w'.assembling = some job → job.toDeclared = d := by
    intro job hjob
    rcases he.assembling job hjob with hjob | hjob
    · exact h.assembling job hjob
    · exact h.job job hjob
  have hupload : ∀ u ∈ w'.uploads, u.index < count d u.archiveType ∧
      u.chunkSize = sizeOf d u.archiveType u.index := by
    intro u hu
    rcases he.upload u hu with ⟨hindex, hchunk, -⟩ | ⟨u₀, hu₀, hk, hi, hc⟩
    · exact ⟨hindex, hchunk⟩
    · rw [hk, hi, hc]
      exact h.upload u₀ hu₀
  -- an upload of an index that has a row in `w` has its file in `w`
  have hpresent : ∀ u ∈ w'.uploads, ∀ row, (w.chunks u.archiveType)[u.index]? = some row →
      ∃ bytes, w.parts u.archiveType u.index = some bytes := by
    intro u hu row hrow
    rcases he.upload u hu with ⟨-, -, hnone⟩ | ⟨u₀, hu₀, hk, hi, -⟩
    · rw [hnone] at hrow
      cases hrow
    · rw [hk, hi] at hrow ⊢
      exact h.present u₀ hu₀ row hrow
  cases he.store with
  | same chunks parts archives =>
    refine ⟨hjob, hassembling, hupload, by rw [chunks]; exact h.row, by rw [chunks, parts]; exact h.part,
      by rw [chunks, parts]; exact hpresent, ?_⟩
    intro k content digest ha
    rw [archives] at ha
    exact (keeps_of_eq chunks parts).accepted (h.archive k content digest ha)
  | stored u now mem body receiving absent chunks parts archives =>
    obtain ⟨hbody, -⟩ := checkBody_ok body
    obtain ⟨hindex, hchunk⟩ := h.upload u mem
    obtain ⟨job, hrow, -⟩ := receiving
    refine ⟨hjob, hassembling, hupload, ?_, ?_, ?_, ?_⟩
    · intro k i row hrow
      rw [chunks, getElem?_update_insert] at hrow
      split_ifs at hrow with hki
      · obtain ⟨rfl, rfl⟩ := hki
        cases hrow
        exact ⟨hindex, hbody.trans hchunk⟩
      · exact h.row k i row hrow
    · intro k i bytes hbytes
      rw [parts, update_update_eq] at hbytes
      rw [chunks, getElem?_update_insert]
      split_ifs at hbytes ⊢ with hki
      · cases hbytes
        exact ⟨_, rfl, rfl, rfl⟩
      · exact h.part k i bytes hbytes
    · intro v hv row hrow
      rw [chunks, getElem?_update_insert] at hrow
      rw [parts, update_update_eq]
      split_ifs at hrow ⊢ with hki
      · exact ⟨_, rfl⟩
      · exact hpresent v hv row hrow
    · intro k content digest ha
      rw [archives] at ha
      obtain ⟨chunk, hcontent, hlength, hdigest, hlower, hchunks⟩ := h.archive k content digest ha
      refine ⟨chunk, hcontent, hlength, hdigest, hlower, ?_⟩
      intro i hi
      obtain ⟨row, hrow, hof, hfile⟩ := hchunks i hi
      have hki : ¬(k = u.archiveType ∧ i = u.index) := by
        rintro ⟨rfl, rfl⟩
        rw [absent] at hrow
        cases hrow
      rw [chunks, parts, getElem?_update_insert, update_update_eq, if_neg hki, if_neg hki]
      exact ⟨row, hrow, hof, hfile⟩
  | assembled chunks parts archives =>
    refine ⟨hjob, hassembling, hupload, by rw [chunks]; exact h.row, by rw [chunks, parts]; exact h.part,
      by rw [chunks, parts]; exact hpresent, ?_⟩
    intro k content digest ha
    have hkeeps : Keeps w w' := keeps_of_eq chunks parts
    rcases archives k content digest ha with ha | ⟨space, ha⟩
    · exact hkeeps.accepted (h.archive k content digest ha)
    · exact hkeeps.accepted (accepted_of_assembleArchive hsize h ha)
  | removed _ chunks parts archives uploads =>
    refine ⟨hjob, hassembling, hupload, by rw [chunks]; exact h.row, ?_, ?_, ?_⟩
    · intro k i bytes hbytes
      rw [chunks]
      exact h.part k i bytes (parts k i bytes hbytes)
    · rw [uploads]
      exact fun u hu => absurd hu List.not_mem_nil
    · intro k content digest ha
      exact (keeps_of_parts chunks parts).accepted (h.archive k content digest (archives k _ ha))
  | deleted _ hnone chunks parts archives uploads =>
    refine ⟨hjob, hassembling, hupload, ?_, ?_, ?_, ?_⟩
    · intro k i row hrow
      rw [chunks] at hrow
      simp at hrow
    · intro k i bytes hbytes
      rw [parts] at hbytes
      cases hbytes
    · rw [uploads]
      exact fun u hu => absurd hu List.not_mem_nil
    · intro k content digest ha
      rw [archives] at ha
      cases ha

/-! ### Whole runs -/

theorem sound_created (job : Job) : Sound lib job.toDeclared (created job) where
  job := by
    intro job' hjob'
    cases hjob'
    rfl
  assembling := fun _ h => nomatch h
  upload := fun _ h => nomatch h
  row := fun k i row h => by simp [created] at h
  part := fun _ _ _ h => nomatch h
  present := fun _ h => nomatch h
  archive := fun _ _ _ h => nomatch h

theorem Sound.run (hsize : ∀ k, d.size k < 2 ^ 53) (h : Sound lib d w)
    (hrun : Run hours lib w w') : Sound lib d w' := by
  induction hrun with
  | refl => exact h
  | step _ action hs ih => exact ih.step hsize (step_effect hsize ih hs)

/-- A job that exists at the end has been there all along. -/
theorem Sound.keeps_run (hsize : ∀ k, d.size k < 2 ^ 53) (h : Sound lib d w)
    (hrun : Run hours lib w w') {job : Job} (hjob : w'.job = some job) : Keeps w w' := by
  induction hrun generalizing job with
  | refl => exact keeps_of_eq rfl rfl
  | step run action hs ih =>
    have he := step_effect hsize (h.run hsize run) hs
    obtain ⟨job', hjob', -⟩ := he.job job hjob
    exact (ih hjob').trans (he.keeps hjob)

/-- A chunk row added by a section: the file is there with just this content,
and the job is receiving. -/
theorem Effect.row_added (he : Effect lib d removes w w') {k : ArchiveType} {i : ℕ} {row : ChunkRow}
    (hrow : (w'.chunks k)[i]? = some row) (hnew : (w.chunks k)[i]? ≠ some row) :
    (w.chunks k)[i]? = none ∧ (∃ bytes, w'.parts k i = some bytes ∧ ChunkRow.Of lib row bytes) ∧
      ∃ job, w.job = some job ∧ job.status = .receiving := by
  cases he.store with
  | same chunks parts archives =>
    rw [chunks] at hrow
    exact absurd hrow hnew
  | stored u now mem body receiving absent chunks parts archives =>
    rw [chunks, getElem?_update_insert] at hrow
    split_ifs at hrow with hki
    · obtain ⟨rfl, rfl⟩ := hki
      cases hrow
      refine ⟨absent, ⟨u.received, ?_, rfl, rfl⟩, receiving⟩
      rw [parts, update_update_eq, if_pos ⟨rfl, rfl⟩]
    · exact absurd hrow hnew
  | assembled chunks parts archives =>
    rw [chunks] at hrow
    exact absurd hrow hnew
  | removed _ chunks parts archives uploads =>
    rw [chunks] at hrow
    exact absurd hrow hnew
  | deleted _ hnone chunks parts archives uploads =>
    rw [chunks] at hrow
    simp at hrow

/-- Only a removing section takes a file away or changes it. -/
theorem Effect.part_stays (he : Effect lib d removes w w') (h : Sound lib d w) (hr : ¬removes)
    {k : ArchiveType} {i : ℕ} {bytes : Bytes} (hbytes : w.parts k i = some bytes) :
    w'.parts k i = some bytes := by
  cases he.store with
  | same chunks parts archives => rwa [parts]
  | stored u now mem body receiving absent chunks parts archives =>
    have hki : ¬(k = u.archiveType ∧ i = u.index) := by
      rintro ⟨rfl, rfl⟩
      obtain ⟨row, hrow, -⟩ := h.part _ _ bytes hbytes
      rw [absent] at hrow
      cases hrow
    rw [parts, update_update_eq, if_neg hki]
    exact hbytes
  | assembled chunks parts archives => rwa [parts]
  | removed hremoves => exact absurd hremoves hr
  | deleted hremoves => exact absurd hremoves hr

/-- **Chunked uploads lose and mix nothing.**  In every state that the requests
on a created job lead to: a section adds a chunk row only beside a part file
with just this size and digest, and only while the job is receiving, and no
section but a removal touches a part file; for as long as the job exists every
row stays and its file holds what it held; and an archive that assembly has
passed is the accepted chunks in index order, with the declared length and
digest, where cutting an archive into chunks and gluing them gives it back. -/
theorem chunked_upload_sound (hours : ℕ) (lib : Library) (job : Job)
    (hsize : ∀ k, job.size k < 2 ^ 53) (w : Intake) (hrun : Run hours lib (created job) w) :
    (∀ (action : Action) (w' : Intake), step hours lib action w = some w' →
      (∀ (k : ArchiveType) (i : ℕ) (row : ChunkRow), (w'.chunks k)[i]? = some row →
        (w.chunks k)[i]? ≠ some row →
          (w.chunks k)[i]? = none ∧
          (∃ bytes, w'.parts k i = some bytes ∧ ChunkRow.Of lib row bytes) ∧
          ∃ job, w.job = some job ∧ job.status = .receiving) ∧
      (action.removes = false → ∀ k i bytes, w.parts k i = some bytes →
        w'.parts k i = some bytes)) ∧
    (∀ (w' : Intake) (job' : Job), Run hours lib w w' → w'.job = some job' →
      ∀ (k : ArchiveType) (i : ℕ) (row : ChunkRow), (w.chunks k)[i]? = some row →
        (w'.chunks k)[i]? = some row ∧
          ∀ bytes, w'.parts k i = some bytes → w.parts k i = some bytes) ∧
    (∀ k : ArchiveType,
      expectedChunkCount (job.size k) job.chunkSize = .ok (count job.toDeclared k) ∧
      (∀ (i : ℕ) (row : ChunkRow), (w.chunks k)[i]? = some row →
        i < count job.toDeclared k ∧ row.size = sizeOf job.toDeclared k i) ∧
      (∀ content digest, w.archives k = some ⟨content, some digest⟩ →
        Accepted lib job.toDeclared w k content digest) ∧
      (∀ data : Bytes, data.length = job.size k →
        glue (count job.toDeclared k) (piece job.chunkSize data) = data) ∧
      ∑ i ∈ Finset.range (count job.toDeclared k), sizeOf job.toDeclared k i = job.size k) := by
  have hsound : Sound lib job.toDeclared w := (sound_created job).run hsize hrun
  refine ⟨?_, ?_, ?_⟩
  · intro action w' hs
    have he := step_effect hsize hsound hs
    refine ⟨fun k i row hrow hnew => he.row_added hrow hnew, ?_⟩
    intro hremoves k i bytes hbytes
    exact he.part_stays hsound (by rw [hremoves]; decide) hbytes
  · intro w' job' hrun' hjob' k i row hrow
    have hkeeps := hsound.keeps_run hsize hrun' hjob'
    exact ⟨hkeeps.row k i row hrow, fun bytes hbytes => hkeeps.file k i row bytes hrow hbytes⟩
  · intro k
    have hcover : job.size k ≤ count job.toDeclared k * job.chunkSize :=
      le_chunkCount_mul job.chunkSize_pos
    refine ⟨expectedChunkCount_eq (hsize k) job.chunkSize_pos, hsound.row k, hsound.archive k, ?_,
      sum_pieceSize hcover⟩
    intro data hdata
    exact glue_piece (hdata.trans_le hcover)

/-- The sections of a list, one after the other. -/
def runActions (hours : ℕ) (lib : Library) : List Action → Intake → Option Intake
  | [], w => some w
  | action :: actions, w => (step hours lib action w).bind (runActions hours lib actions)

theorem run_of_runActions {actions : List Action} {w₀ : Intake} (hrun : Run hours lib w₀ w)
    (h : runActions hours lib actions w = some w') : Run hours lib w₀ w' := by
  induction actions generalizing w with
  | nil =>
    cases h
    exact hrun
  | cons action actions ih =>
    obtain ⟨w₁, hs, hrest⟩ := Option.bind_eq_some_iff.mp h
    exact ih (hrun.step action hs) hrest

/-- A job with an empty dataset and a kernel of three bytes, in chunks of two. -/
def sampleJob : Job where
  datasetArchiveSha256 := ""
  kernelArchiveSha256 := ""
  datasetSize := 0
  kernelSize := 3
  chunkSize := 2
  chunkSize_pos := Nat.two_pos
  payloadHash := ""
  artifactContract := "yolo"
  relayTokenId := ""
  schedulingMode := .fixed
  createdAt := 0
  datasetRef := "owner/data"
  kernelRef := "owner/kernel"
  kaggleKeyId := ""
  assignmentState := .bound
  status := .receiving
  progress := 0
  datasetStatus := ""
  kernelStatus := ""
  kaggleOutput := ""
  error := ""
  queueReason := ""
  artifactPath := ""
  cancelRequestedAt := none
  cancelReason := ""
  completedAt := none
  reservedBytes := 9
  uploadActivityAt := 0
  datasetRecheckState := .none
  datasetRecheckAt := none
  datasetRecheckStartedAt := none
  datasetRecheckFailures := 0
  datasetRecheckCount := 0
  cleanupDueAt := none
  cleanedAt := none

/-- A digest of 64 zeros for everything. -/
def zeroDigest : String := String.ofList (List.replicate 64 '0')

def uploadLibrary : Library where
  sha256 _ := zeroDigest
  casefold := id
  lower := id

/-- The kernel's second chunk, then its first twice at the same time. -/
def sampleUploads : List Action :=
  [.uploadStart 1 true ⟨.kernel, 1, zeroDigest, 1⟩ true true, .uploadPart 0 1 [3] none,
    .uploadFinish 0 1 true, .uploadStart 2 true ⟨.kernel, 0, zeroDigest, 2⟩ true true,
    .uploadStart 2 true ⟨.kernel, 0, zeroDigest, 2⟩ true true, .uploadPart 0 2 [1] none,
    .uploadPart 1 2 [7, 7] none, .uploadPart 0 2 [2] none, .uploadFinish 0 3 true,
    .uploadFinish 0 3 true]

theorem chunked_upload_sound_sample :
    ∃ w, runActions 3 uploadLibrary sampleUploads (created sampleJob) = some w ∧
      (∀ i row, (w.chunks .kernel)[i]? = some row → i < 2) ∧
      ∀ w' job', Run 3 uploadLibrary w w' → w'.job = some job' →
        ∀ bytes, w'.parts .kernel 0 = some bytes → bytes = [1, 2] := by
  have hrun : (runActions 3 uploadLibrary sampleUploads (created sampleJob)).map
      (fun w => ((w.chunks .kernel)[0]?.isSome, w.parts .kernel 0)) = some (true, some [1, 2]) := by
    decide +kernel
  obtain ⟨w, hw, hread⟩ := Option.map_eq_some_iff.mp hrun
  obtain ⟨-, hkept, hall⟩ := chunked_upload_sound 3 uploadLibrary sampleJob
    (fun k => by cases k <;> decide) w (run_of_runActions (.refl _) hw)
  obtain ⟨row, hrow⟩ := Option.isSome_iff_exists.mp (congrArg Prod.fst hread)
  have hpart : w.parts .kernel 0 = some [1, 2] := congrArg Prod.snd hread
  refine ⟨w, hw, fun i row hrow => ((hall .kernel).2.1 i row hrow).1, ?_⟩
  intro w' job' hrun' hjob' bytes hbytes
  have hsame := (hkept w' job' hrun' hjob' .kernel 0 row hrow).2 bytes hbytes
  rw [hpart] at hsame
  exact (Option.some.inj hsame).symm

end Intake

end KaggleRelay

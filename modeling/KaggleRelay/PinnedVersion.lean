/-
The pushed kernel reads the version that has been verified.

A run of `process_job` rewrites `kernel-metadata.json` on every branch before it
pushes, whatever earlier runs have left there.  With the file as the state and
everything performed on record, the file at the moment of the push names, for
the Dataset of the job, the very version whose bytes this run has verified.

* `Verified` — a verification that has returned is on record, and what that
  says about the bytes;
* `readyDatasetVersion_readyStatus` — the version is read back out of the text
  that `wait_dataset` returns;
* `pushes_verified_version` — the file at the push, on every branch.
-/
import KaggleRelay.DatasetSources
import KaggleRelay.Footprint
import KaggleRelay.Recording
import KaggleRelay.Runs

namespace KaggleRelay

open Effects JsonText Redirects

namespace Relay

variable {s : Settings} {id : JobId} {job : Job}

/-! ### The record -/

/-- What a run has performed. -/
abbrev Events := List (Performed RelaySig)

/-- The file, and everything performed so far. -/
abbrev onRecord (s : Settings) (id : JobId) : Prog.Sem RelaySig Answers (JsonObject × Events) :=
  recording (kernelFile (s.kernelDir id))

/-- A verification of the receipt's version is on record that has returned. -/
def Verified (s : Settings) (events : Events) (datasetRef : String) (receipt : DatasetUploadReceipt) : Prop :=
  ∃ background earlier run later, events = earlier ++ run ++ later ∧
    Ran (verifyDatasetContent s receipt datasetRef background : Prog RelaySig (Except Exc Unit)) run (.ok ())

theorem Verified.append {events : Events} {datasetRef : String} {receipt : DatasetUploadReceipt}
    (h : Verified s events datasetRef receipt) (more : Events) : Verified s (events ++ more) datasetRef receipt := by
  obtain ⟨background, earlier, run, later, rfl, hran⟩ := h
  exact ⟨background, earlier, run, later ++ more, by simp, hran⟩

end Relay

/-! ### The text that `wait_dataset` returns -/

section Braces

variable (l : List Char)

/-- A text between braces. -/
def braced : String := String.ofList (openBrace :: (l ++ [closeBrace]))

theorem strip_braced : Text.strip (braced l) = braced l := by
  have hopen : Text.isSpace openBrace = false := by decide
  have hclose : Text.isSpace closeBrace = false := by decide
  rw [Text.strip, braced, String.toList_ofList, Text.stripList,
    List.dropWhile_cons_of_neg (by rw [hopen]; simp), List.reverse_cons, List.reverse_append]
  simp only [List.reverse_cons, List.reverse_nil, List.nil_append, List.cons_append]
  rw [List.dropWhile_cons_of_neg (by rw [hclose]; simp)]
  simp

theorem find_braced : Text.find (braced l) openBrace = some 0 := by
  rw [Text.find, braced, String.toList_ofList, List.findIdx?_cons, if_pos (beq_self_eq_true _)]

theorem rfind_braced : Text.rfind (braced l) closeBrace = some (l.length + 1) := by
  have hlength : (braced l).length = l.length + 2 := by
    rw [braced, String.length_ofList]
    simp
  rw [Text.rfind, hlength, braced, String.toList_ofList, List.reverse_cons, List.reverse_append]
  simp only [List.reverse_cons, List.reverse_nil, List.nil_append, List.cons_append]
  rw [List.findIdx?_cons, if_pos (beq_self_eq_true _)]
  rfl

theorem slice_braced : Text.slice (braced l) 0 (l.length + 1) = braced l := by
  rw [Text.slice, braced, String.toList_ofList, List.drop_zero, List.take_of_length_le (by simp)]

end Braces

variable {s : Settings}

/-- The version is read back out of the text. -/
theorem readyDatasetVersion_readyStatus {v version : ℤ}
    (h : s.readyDatasetVersion (readyStatus v) = some version) : version = v := by
  have hfields : Plain (.obj [("status", .str "ready"), ("current_version_number", .int v)]) := by
    simp [Plain, PlainFields]
  obtain ⟨l, hl⟩ : ∃ l, readyStatus v = braced l := ⟨_, rfl⟩
  have hloads : loads (braced l) =
      some (.obj [("status", .str "ready"), ("current_version_number", .int v)]) := by
    rw [← hl]
    exact loads_dumps .spaced hfields
  have hparse : (s.parseKaggleDatasetStatus (readyStatus v)).2 = some v := by
    rw [hl, Settings.parseKaggleDatasetStatus, strip_braced, find_braced, rfind_braced]
    simp only [Nat.succ_pos, if_true, slice_braced, hloads]
    rfl
  unfold Settings.readyDatasetVersion at h
  split at h
  · rename_i name found heq
    split at h
    · rw [heq] at hparse
      exact (Option.some.inj h).symm.trans (Option.some.inj hparse)
    · cases h
  · cases h

namespace Relay

variable {id : JobId} {job : Job} {α β : Type} {w : JsonObject × Events} {datasetRef : String}

/-! ### What parts of a run do to the file and the record -/

/-- The entries of the job's Dataset name this version. -/
def PinnedAt (s : Settings) (datasetRef : String) (version : ℤ) (metadata : JsonObject) : Prop :=
  ∀ slug sources, s.slugOf (.str datasetRef) = some slug → datasetSources metadata = some sources →
    ∀ source ∈ sources, s.slugOf source = some slug → source = .str (versionedRef datasetRef version)

/-- They name a version that has been verified. -/
def Pinned (s : Settings) (datasetRef : String) (w : JsonObject × Events) : Prop :=
  ∃ receipt, Verified s w.2 datasetRef receipt ∧ PinnedAt s datasetRef receipt.expectedVersionNumber w.1

/-- The run has begun with this row. -/
def Starts (id : JobId) (job : Job) (events : Events) : Prop :=
  events.head? = some ⟨.getJob id, some job⟩

theorem Starts.append {events : Events} (h : Starts id job events) (more : Events) :
    Starts id job (events ++ more) := by
  rw [Starts, List.head?_append, h]
  rfl

theorem Pinned.append {metadata : JsonObject} {events : Events} (h : Pinned s datasetRef (metadata, events))
    (more : Events) : Pinned s datasetRef (metadata, events ++ more) := by
  obtain ⟨receipt, hverified, hpinned⟩ := h
  exact ⟨receipt, hverified.append more, hpinned⟩

theorem safe_skip (p : Relay α) (w : JsonObject × Events) :
    Safe (onRecord s id) (fun _ => True) (post (fun _ _ => True) fun _ _ => True) p w :=
  (Safe.any _ _).mono (by rintro (e | a) _ - <;> trivial)

theorem safe_grows (p : Relay α) (w : JsonObject × Events) :
    Safe (onRecord s id) (fun _ => True) (fun _ w' => ∃ more, w'.2 = w.2 ++ more) p w :=
  (Safe.recorded (Safe.any p w.1)).mono fun _ _ h => h.2

/-- A program that writes no metadata leaves the file. -/
theorem safe_calm {p : Relay α} (hp : Marked (· ≠ .metadata) p) (w : JsonObject × Events) :
    Safe (onRecord s id) (fun _ => True) (fun _ w' => w'.1 = w.1 ∧ ∃ more, w'.2 = w.2 ++ more) p w := by
  refine (Safe.recorded (Q := fun _ metadata => metadata = w.1) ?_).mono fun _ _ h => h
  refine Safe.of_uses (fun _ _ => trivial) (fun o ho c r metadata metadata' hsame hstep => ?_) hp rfl
  rw [← hsame]
  cases o with
  | writeMetadata dir file value => exact absurd rfl ho
  | readMetadata dir file =>
    simp only [kernelFile] at hstep
    split at hstep
    · exact (congrArg Prod.snd (Option.some.inj hstep)).symm
    · exact (congrArg Prod.snd (Option.some.inj hstep)).symm
  | _ => exact (congrArg Prod.snd (Option.some.inj hstep)).symm

/-- A wait that returns has verified the version, and says which. -/
theorem safe_waitTurns (cancelCheck : Relay Unit) (pollSeconds visibilityGrace grace : ℤ)
    (receipt : DatasetUploadReceipt) (background : Bool) (n : ℕ) (st : WaitState) (w : JsonObject × Events) :
    Safe (onRecord s id) (fun _ => True)
      (post (fun status w' => status = readyStatus receipt.expectedVersionNumber ∧ Verified s w'.2 datasetRef receipt)
        fun _ _ => True)
      ((waitActions s cancelCheck).waitTurns s.redactSecrets pollSeconds visibilityGrace grace datasetRef receipt
        background n st) w := by
  induction n generalizing st w with
  | zero => trivial
  | succ n ih =>
    refine Safe.seq (safe_skip _ w) fun _ w _ => Safe.seq (safe_skip _ w) fun _ w _ => ?_
    refine Safe.seq (safe_skip _ w) fun _ w _ => Safe.seq (safe_skip _ w) fun _ w _ => ?_
    have hverify : Safe (onRecord s id) (fun _ => True)
        (post (fun verified w' => verified = .ok () → Verified s w'.2 datasetRef receipt) fun _ _ => True)
        (Eff.attempt (verifyDatasetContent s receipt datasetRef background)) w := by
      refine Safe.bind Safe.ran fun verified w' hran heq => ?_
      obtain ⟨run, hrun, hran⟩ := hran
      subst heq
      exact ⟨background, w.2, run, [], by rw [List.append_nil, hrun], hran⟩
    refine Safe.seq hverify fun verified w hverified => ?_
    have hseconds : Safe (onRecord s id) (fun _ => True)
        (post (fun _ w' => ∃ more, w'.2 = w.2 ++ more) fun _ _ => True) contentSeconds w :=
      (safe_grows contentSeconds w).mono (by
        rintro (e | a) _ h
        · trivial
        · exact h)
    refine Safe.seq hseconds fun _ w' hmore => ?_
    rcases verified with e | _
    · exact Safe.seq (safe_skip _ w') fun st w _ => ih st w
    · obtain ⟨more, hmore⟩ := hmore
      refine ⟨rfl, ?_⟩
      rw [hmore]
      exact (hverified rfl).append more

theorem safe_waitDataset (cancelCheck : Relay Unit) (receipt : DatasetUploadReceipt) (background : Bool)
    (w : JsonObject × Events) :
    Safe (onRecord s id) (fun _ => True)
      (post (fun status w' => status = readyStatus receipt.expectedVersionNumber ∧ Verified s w'.2 datasetRef receipt)
        fun _ _ => True)
      (waitDataset s cancelCheck datasetRef receipt background) w :=
  Safe.seq (safe_skip _ w) fun _ w _ => Safe.seq (safe_skip _ w) fun _ w _ => safe_waitTurns _ _ _ _ _ _ _ _ w

/-! ### Pinning -/

theorem rewriteDatasetSources_none {metadata : JsonObject} (h : datasetSources metadata = none) (ref : String) :
    s.rewriteDatasetSources metadata ref = none := by
  unfold Settings.rewriteDatasetSources
  dsimp only
  split
  · rfl
  · split
    · rename_i sources hsources
      rw [datasetSources, hsources] at h
      cases h
    · rfl

/-- Whatever the file says, pinned it names the version. -/
theorem safe_pin {version : ℤ} (hversion : 0 < version) (metadata : JsonObject) :
    Safe (kernelFile (s.kernelDir id)) (fun _ => True)
      (post (fun _ metadata' => PinnedAt s datasetRef version metadata') fun _ _ => True)
      (pinKernelDatasetVersion s (s.kernelDir id) datasetRef version) metadata := by
  rcases hsources : datasetSources metadata with _ | sources
  · -- there is no list, and nothing to write
    rw [pinKernelDatasetVersion, if_neg (by omega)]
    refine Safe.seq (safe_requireFile _) ?_
    intro _ metadata' hrequired
    obtain rfl : metadata' = metadata := hrequired
    refine Safe.seq safe_readMetadata ?_
    intro content metadata hread
    rw [hread.1, hread.2, rewriteDatasetSources_none hsources]
    intro slug sources _ hsome
    rw [hsources] at hsome
    cases hsome
  · refine (safe_pinKernelDatasetVersion hsources datasetRef hversion).mono ?_
    rintro (e | _) metadata' hpost
    · trivial
    · have hpost : datasetSources metadata' =
          some (sources.map (redirect s.slugOf (.str (versionedRef datasetRef version)))) := hpost
      intro slug sources' hslug hsources' source hmem hnamed
      rw [hpost] at hsources'
      cases hsources'
      obtain ⟨before, -, rfl⟩ := List.mem_map.mp hmem
      have hpinned := slugOf_versionedRef version hslug
      have hbefore : s.slugOf before = some slug := key_redirect.symm.trans hnamed
      exact redirect_of_names ⟨by rw [hpinned]; rfl, by rw [hbefore, hpinned]⟩

/-- The version that has been verified is pinned. -/
theorem safe_pinVerified (receipt : DatasetUploadReceipt) (hversion : 0 < receipt.expectedVersionNumber)
    (h : Verified s w.2 datasetRef receipt) :
    Safe (onRecord s id) (fun _ => True) (post (fun _ w' => Pinned s datasetRef w') fun _ _ => True)
      (pinKernelDatasetVersion s (s.kernelDir id) datasetRef receipt.expectedVersionNumber) w := by
  refine (Safe.recorded (safe_pin hversion w.1)).mono ?_
  rintro (e | _) w' ⟨hpinned, more, hmore⟩
  · trivial
  · refine ⟨receipt, ?_, hpinned⟩
    rw [hmore]
    exact h.append more

theorem Pinned.calm {p : Relay α} (hp : Marked (· ≠ .metadata) p) (h : Pinned s datasetRef w) :
    Safe (onRecord s id) (fun _ => True) (post (fun _ w' => Pinned s datasetRef w') fun _ _ => True) p w := by
  refine (safe_calm hp w).mono ?_
  rintro (e | a) ⟨metadata, events⟩ ⟨hsame, more, hmore⟩
  · trivial
  · obtain rfl : metadata = w.1 := hsame
    obtain rfl : events = w.2 ++ more := hmore
    exact h.append more

theorem readyDatasetVersion_pos {status : String} {version : ℤ}
    (h : s.readyDatasetVersion status = some version) : 0 < version := by
  unfold Settings.readyDatasetVersion at h
  split at h
  · split at h
    · rename_i hready
      exact Option.some.inj h ▸ hready.2
    · cases h
  · cases h

section Branches

attribute [local irreducible] Settings.readyDatasetVersion Settings.isReadyDatasetStatus

theorem safe_reuseDataset (username : String) (cache : DatasetCache) (w : JsonObject × Events) :
    Safe (onRecord s id) (fun _ => True) (post (fun _ w' => Pinned s job.datasetRef w') fun _ _ => True)
      (reuseDataset s id job username cache) w := by
  refine Safe.seq (safe_skip _ w) fun own w _ => Safe.seq (safe_skip _ w) fun there w _ => ?_
  refine Safe.seq (safe_skip _ w) fun _ w _ => Safe.seq (safe_skip _ w) fun _ w _ => ?_
  refine Safe.seq (safe_skip _ w) fun digest w _ => ?_
  rcases hready : s.readyDatasetVersion cache.datasetStatus with _ | version
  · trivial
  · refine Safe.seq (safe_waitDataset _ _ _ w) fun datasetStatus w hverified => ?_
    have hversion := readyDatasetVersion_pos hready
    refine Safe.seq (safe_pinVerified ⟨version, _, digest⟩ hversion hverified.2) fun _ w hpinned => ?_
    exact hpinned.calm (marked_updateJob (.of_plain rfl rfl))

theorem safe_recordDataset {receipt : DatasetUploadReceipt} (h : Verified s w.2 job.datasetRef receipt) :
    Safe (onRecord s id) (fun _ => True) (post (fun _ w' => Pinned s job.datasetRef w') fun _ _ => True)
      (recordDataset s id job (readyStatus receipt.expectedVersionNumber)) w := by
  unfold recordDataset
  split
  · trivial
  · rename_i version hready
    have hversion := readyDatasetVersion_pos hready
    obtain rfl := readyDatasetVersion_readyStatus hready
    refine Safe.seq (safe_pinVerified receipt hversion h) fun _ w hpinned => ?_
    have hcache : ∀ row, Marked (· ≠ .metadata) (upsertDatasetCache row) := fun _ => marked_perform trivial
    have hlast : ∀ row, Marked (· ≠ .metadata) (upsertLastDatasetJob row) := fun _ => marked_perform trivial
    split
    · exact hpinned.calm (Uses.seq (hcache _) fun _ => hlast _)
    · exact hpinned

theorem safe_provideDataset (username : String) (retained : Option Intent) (w : JsonObject × Events) :
    Safe (onRecord s id) (fun _ => True) (post (fun _ w' => Pinned s job.datasetRef w') fun _ _ => True)
      (provideDataset s id job username retained) w := by
  refine Safe.seq (safe_skip _ w) fun _ w _ => Safe.seq (safe_skip _ w) fun _ w _ => ?_
  refine Safe.seq (safe_skip _ w) fun receipt w _ => ?_
  refine Safe.seq (safe_waitDataset _ receipt _ w) fun datasetStatus w hverified => ?_
  obtain ⟨rfl, hverified⟩ := hverified
  have hgrows : ∀ {α : Type} (p : Relay α) (w : JsonObject × Events), Verified s w.2 job.datasetRef receipt →
      Safe (onRecord s id) (fun _ => True)
        (post (fun _ w' => Verified s w'.2 job.datasetRef receipt) fun _ _ => True) p w := by
    intro α p w hverified
    refine (safe_grows p w).mono ?_
    rintro (e | a) w' ⟨more, hmore⟩
    · trivial
    · show Verified s w'.2 job.datasetRef receipt
      rw [hmore]
      exact hverified.append more
  refine Safe.seq (hgrows _ w hverified) fun _ w hverified => ?_
  exact Safe.seq (hgrows _ w hverified) fun _ w hverified => safe_recordDataset hverified

theorem safe_prepareDataset (username : String) (saved : Option Intent) (cache : Option DatasetCache)
    (retained : Option Intent) (w : JsonObject × Events) :
    Safe (onRecord s id) (fun _ => True) (post (fun _ w' => Pinned s job.datasetRef w') fun _ _ => True)
      (prepareDataset s id job username saved cache retained) w := by
  unfold prepareDataset
  split
  · exact safe_reuseDataset _ _ w
  · exact safe_provideDataset _ _ w

/-! ### The push -/

/-- At the push the file names the version that has been verified. -/
def PushesVerified (s : Settings) (id : JobId) (w : JsonObject × Events) : Prop :=
  ∀ before kernelDir answer, w.2 = before ++ [⟨.pushKernel id kernelDir, answer⟩] →
    ∃ job receipt, Starts id job before ∧ Verified s before job.datasetRef receipt ∧
      PinnedAt s job.datasetRef receipt.expectedVersionNumber w.1

/-- A program that pushes nothing. -/
theorem safe_quiet {Q : Except Exc α → JsonObject × Events → Prop} {p : Relay α} (hp : Marked (· ≠ .push) p)
    (h : Safe (onRecord s id) (fun _ => True) Q p w) : Safe (onRecord s id) (PushesVerified s id) Q p w := by
  refine Safe.within hp (fun o ho c r w w' hstep before kernelDir answer hpush => ?_) h
  obtain ⟨-, hrecord⟩ := Safe.of_recording hstep
  rw [hrecord] at hpush
  have hlast := List.append_inj_right' hpush rfl
  cases (List.cons.inj hlast).1
  exact absurd rfl ho

theorem safe_quietStart {p : Relay α} (hp : Marked (· ≠ .push) p) (h : Starts id job w.2) :
    Safe (onRecord s id) (PushesVerified s id) (post (fun _ w' => Starts id job w'.2) fun _ _ => True) p w := by
  refine safe_quiet hp ((safe_grows p w).mono ?_)
  rintro (e | a) w' ⟨more, hmore⟩
  · trivial
  · show Starts id job w'.2
    rw [hmore]
    exact h.append more

/-- What holds at the end of a part, with what the run began with. -/
theorem safe_starting {Q : α → JsonObject × Events → Prop} {p : Relay α} (hp : Marked (· ≠ .push) p)
    (hstarts : Starts id job w.2)
    (h : Safe (onRecord s id) (fun _ => True) (post Q fun _ _ => True) p w) :
    Safe (onRecord s id) (PushesVerified s id) (post (fun a w' => Q a w' ∧ Starts id job w'.2) fun _ _ => True) p
      w := by
  refine (Safe.and (safe_quiet hp h) (safe_quietStart hp hstarts)).mono ?_
  rintro (e | a) w' hpost
  · trivial
  · exact hpost

theorem safe_submitKernel (username : String) (retainedCandidateOnly : Bool) (h : Starts id job w.2) :
    Safe (onRecord s id) (PushesVerified s id) (post (fun _ _ => True) fun _ _ => True)
      (submitKernel s id job username retainedCandidateOnly) w := by
  refine Safe.seq (safe_quietStart (marked_stopIfCancelRequested _ _) h) fun _ w h => ?_
  refine Safe.seq (safe_quietStart (Uses.pure _) h) fun _ w h => ?_
  refine Safe.seq (safe_quietStart (marked_call _) h) fun _ w h => ?_
  refine Safe.seq (safe_quietStart (marked_getReadyDatasetCache _ _ _) h) fun cache w h => ?_
  refine Safe.seq (safe_quietStart (marked_readIntent _) h) fun saved w h => ?_
  refine Safe.seq (safe_quietStart (marked_retainedCandidate _ _ _ _) h) fun retained w h => ?_
  refine Safe.seq (safe_starting (marked_prepareDataset (by rintro ⟨⟩) (by rintro ⟨⟩) (by rintro ⟨⟩) _ _ _ _ _ _) h
    (safe_prepareDataset _ _ _ _ w)) fun _ w hpinned => ?_
  refine Safe.seq (safe_starting (marked_call _) hpinned.2 (hpinned.1.calm (marked_call _))) fun _ w hpinned => ?_
  refine Safe.seq (safe_starting (marked_transitionBeforeSubmission _ _ _ _ _) hpinned.2
    (hpinned.1.calm (marked_transitionBeforeSubmission _ _ _ _ _))) fun _ w hpinned => ?_
  obtain ⟨⟨receipt, hverified, hentries⟩, hstarts⟩ := hpinned
  intro c r w' hstep
  obtain ⟨hsem, hrecord⟩ := Safe.of_recording hstep
  refine ⟨fun before kernelDir answer hpush => ?_, ?_⟩
  · rw [hrecord] at hpush
    obtain rfl := List.append_inj_left' hpush rfl
    have hsame : w'.1 = w.1 := (congrArg Prod.snd (Option.some.inj hsem)).symm
    rw [hsame]
    exact ⟨job, receipt, hstarts, hverified, hentries⟩
  · rcases r with e | _ <;> trivial

theorem safe_runJob (retainedCandidateOnly : Bool) (h : Starts id job w.2) :
    Safe (onRecord s id) (PushesVerified s id) (post (fun _ _ => True) fun _ _ => True)
      (runJob s id job retainedCandidateOnly) w := by
  have hquiet : ∀ {α : Type} {p : Relay α} (w : JsonObject × Events), Marked (· ≠ .push) p →
      Safe (onRecord s id) (PushesVerified s id) (post (fun _ _ => True) fun _ _ => True) p w :=
    fun w hp => safe_quiet hp (safe_skip _ w)
  refine Safe.seq (safe_quietStart (marked_call _) h) fun username w h => ?_
  refine Safe.seq (safe_quietStart (marked_call _) h) fun _ w h => ?_
  refine Safe.seq (P := fun _ _ => True) ?_ fun _ w _ => hquiet w (marked_finishKernelJob _ _)
  refine Safe.seq (safe_quietStart (marked_call _) h) fun _ w h => ?_
  refine Safe.seq (P := fun _ _ => True) (Safe.bind (safe_submitKernel _ _ h) fun _ _ _ => trivial) fun r w _ => ?_
  refine Safe.seq (P := fun _ _ => True) (hquiet w (marked_perform (o := .unlockDataset _) trivial)) fun _ w _ => ?_
  exact Safe.lift (fun _ _ => trivial) fun _ _ => trivial

theorem safe_processJob (retainedCandidateOnly : Bool) (metadata : JsonObject) :
    Safe (onRecord s id) (PushesVerified s id) (fun _ _ => True) (processJob s id retainedCandidateOnly)
      (metadata, []) := by
  have hstart : Safe (onRecord s id) (PushesVerified s id)
      (post (fun found w' => ∀ job, found = some job → Starts id job w'.2) fun _ _ => True) (getJob id)
      (metadata, []) := by
    refine safe_quiet (marked_getJob _) ?_
    intro c r w' hstep
    obtain ⟨-, hrecord⟩ := Safe.of_recording hstep
    refine ⟨trivial, ?_⟩
    rintro job rfl
    show Starts id job w'.2
    rw [hrecord]
    rfl
  refine Safe.mono (Safe.seq (Q := fun _ _ => True) hstart fun found w hfound => ?_) fun _ _ _ => trivial
  rcases found with _ | job
  · trivial
  · refine Safe.bind (safe_runJob retainedCandidateOnly (hfound job rfl)) ?_
    rintro (e | _) w -
    · exact safe_quiet (marked_handleException (by rintro ⟨⟩) _ _ _) (safe_skip _ w)
    · trivial

end Branches

/-! ### What a verification says -/

/-- The receipt's bytes have been compared: the archive of the exact version, or
its files one by one, between two digests of the directory. -/
structure BytesVerified (s : Settings) (events : Events) (datasetRef : String) (receipt : DatasetUploadReceipt) :
    Prop where
  version : 0 < receipt.expectedVersionNumber
  digest : ⟨.contentDigest receipt.datasetDir, .ok receipt.contentSha256⟩ ∈ events
  content : (⟨.call (.downloadArchive datasetRef receipt.expectedVersionNumber), .ok true⟩ ∈ events ∧
      ⟨.call (.verifyUploadArchive receipt.datasetDir), .ok ()⟩ ∈ events) ∨
    ∃ background run scope, run.Sublist events ∧
      Ran (ofVerify (verifyVersionFiles s.lib ⟨datasetRef, receipt.expectedVersionNumber, receipt.datasetDir,
        receipt.contentSha256⟩ background)) run (.ok scope)

/-- A process that has returned has run its program, between the looks of its
parent. -/
theorem ran_of_sdkCall {failed : Exc → Exc} {p : Relay α} {run : Events} {a : α}
    (h : Ran (sdkCall failed p : Prog RelaySig (Except Exc α)) run (.ok a)) :
    ∃ own, own.Sublist run ∧ Ran (p : Prog RelaySig (Except Exc α)) own (.ok a) := by
  induction p generalizing run with
  | pure r =>
    rw [sdkCall] at h
    cases h with
    | @op _ _ answer tail _ h =>
      rcases answer with _ | e
      · rcases r with e | b
        · cases h
        · cases h
          exact ⟨[], List.nil_sublist _, .pure _⟩
      · cases h
  | op o k ih =>
    rw [sdkCall] at h
    cases h with
    | @op _ _ answer tail _ h =>
      rcases answer with _ | e
      · cases h with
        | @op _ _ answer tail _ h =>
          obtain ⟨own, hsub, hran⟩ := ih answer h
          exact ⟨⟨o, answer⟩ :: own, (hsub.cons_cons _).cons _, .op hran⟩
      · cases h
  | stuck =>
    rw [sdkCall] at h
    cases h with
    | @op _ _ answer tail _ h =>
      rcases answer with _ | e <;> cases h

theorem bytesVerified_of_verified {events : Events} {receipt : DatasetUploadReceipt}
    (h : Verified s events datasetRef receipt) : BytesVerified s events datasetRef receipt := by
  obtain ⟨background, earlier, run, later, rfl, hran⟩ := h
  obtain ⟨own, hsub, hran⟩ := ran_of_sdkCall hran
  have hevents : ∀ {part : Events}, part.Sublist own → part.Sublist (earlier ++ run ++ later) := fun hpart =>
    (hpart.trans hsub).trans ((List.sublist_append_right _ _).trans (List.sublist_append_left _ _))
  obtain ⟨_, rest₁, _, rfl, hpositive, hran₁⟩ := Ran.of_seq hran
  obtain ⟨hversion, rfl⟩ := Ran.of_raiseIf hpositive
  obtain ⟨digested, rest₂, before, rfl, hdigest, hran₂⟩ := Ran.of_seq hran₁
  obtain rfl := Ran.of_perform hdigest
  obtain ⟨_, rest₃, _, rfl, hchecked, hran₃⟩ := Ran.of_seq hran₂
  obtain ⟨hbefore, rfl⟩ := Ran.of_raiseIf hchecked
  obtain ⟨authenticated, rest₄, _, rfl, hauthenticate, hran₄⟩ := Ran.of_seq hran₃
  obtain ⟨compared, rest, scope, rfl, hcontent, -⟩ := Ran.of_seq hran₄
  have hcompared : compared.Sublist
      ([] ++ ([⟨.contentDigest receipt.datasetDir, .ok before⟩] ++ ([] ++ (authenticated ++ (compared ++ rest))))) := by
    have hlater : compared.Sublist (authenticated ++ (compared ++ rest)) :=
      (List.sublist_append_left compared rest).trans (List.sublist_append_right authenticated _)
    exact hlater.cons _
  refine ⟨by omega, ?_, ?_⟩
  · have hsame : before = receipt.contentSha256 := not_not.mp hbefore
    rw [← hsame]
    exact (hevents (List.Sublist.refl _)).subset List.mem_cons_self
  · obtain ⟨downloaded, rest₅, available, rfl, hdownload, hcompare⟩ := Ran.of_seq hcontent
    obtain rfl := Ran.of_perform hdownload
    rcases available with _ | _
    · obtain ⟨files, rest₆, scope, rfl, hfiles, -⟩ := Ran.of_seq hcompare
      refine .inr ⟨background, files, scope, hevents (List.Sublist.trans ?_ hcompared), hfiles⟩
      exact (List.sublist_append_left _ _).trans (List.sublist_append_right _ _)
    · obtain ⟨verified, rest₆, _, rfl, hverify, -⟩ := Ran.of_seq hcompare
      obtain rfl := Ran.of_perform hverify
      have hsubset := (hevents hcompared).subset
      exact .inl ⟨hsubset List.mem_cons_self, hsubset (List.mem_cons_of_mem _ List.mem_cons_self)⟩

/-- **The pushed kernel reads the version that has been verified.**  Wherever a
run of `process_job` pushes, from any metadata file and on every branch, it has
verified the bytes of one version against a directory with the receipt's digest,
and the entries of the job's Dataset in the file are exactly that version. -/
theorem pushes_verified_version (s : Settings) (id : JobId) (retainedCandidateOnly : Bool) (metadata : JsonObject)
    (answers : List Answers) (before : Events) (kernelDir : String) (answer : Except Exc Unit)
    (hpush : ((processJob s id retainedCandidateOnly : Prog RelaySig (Except Exc Unit)).exec (onRecord s id) answers
      (metadata, [])).2.2 = before ++ [⟨.pushKernel id kernelDir, answer⟩]) :
    ∃ job receipt, before.head? = some ⟨.getJob id, some job⟩ ∧
      BytesVerified s before job.datasetRef receipt ∧
      ∀ slug sources, s.slugOf (.str job.datasetRef) = some slug →
        datasetSources ((processJob s id retainedCandidateOnly : Prog RelaySig (Except Exc Unit)).exec
          (onRecord s id) answers (metadata, [])).2.1 = some sources →
        ∀ source ∈ sources, s.slugOf source = some slug →
          source = .str (versionedRef job.datasetRef receipt.expectedVersionNumber) := by
  have hnone : PushesVerified s id (metadata, ([] : Events)) := by
    intro before kernelDir answer h
    exact absurd h (by simp)
  have hinv : PushesVerified s id ((processJob s id retainedCandidateOnly : Prog RelaySig (Except Exc Unit)).exec
      (onRecord s id) answers (metadata, [])).2 := (safe_processJob retainedCandidateOnly metadata).exec_inv hnone
  obtain ⟨job, receipt, hstarts, hverified, hpinned⟩ := hinv before kernelDir answer hpush
  exact ⟨job, receipt, hstarts, bytesVerified_of_verified hverified, hpinned⟩

/-- A queued job, and everything succeeds. -/
def trialQueued : Answers
  | .getJob _ =>
    some { World.createdJob (World.trialJob .fixed) "alice/data" "alice/kernel" "key" 0 with status := .queued }
  | .updateJobIfStatus .. => true
  | o => World.trialAnswers (.ok ⟨true, none, "ok"⟩) o

/-- The run up to its push. -/
def trialPush : JsonObject × Events :=
  ((processJob World.trialSettings "x" false : Prog RelaySig (Except Exc Unit)).exec
    (onRecord World.trialSettings "x") (List.replicate 72 trialQueued)
    ([("dataset_sources", .arr [.str "Alice/Data/7", .str "bob/other"])], [])).2

/-- What is pushed last. -/
def lastPush (events : Events) : Option (JobId × String) :=
  events.getLast?.bind fun
    | ⟨.pushKernel id kernelDir, _⟩ => some (id, kernelDir)
    | _ => none

theorem eq_of_lastPush {events : Events} {kernelDir : String} (h : lastPush events = some (id, kernelDir)) :
    ∃ before answer, events = before ++ [⟨.pushKernel id kernelDir, answer⟩] := by
  obtain ⟨⟨o, answer⟩, hlast, hpush⟩ := Option.bind_eq_some_iff.mp h
  obtain ⟨before, hevents⟩ := List.getLast?_eq_some_iff.mp hlast
  cases o with
  | pushKernel id' kernelDir' =>
    cases hpush
    exact ⟨before, answer, hevents⟩
  | _ => cases hpush

theorem lastPush_trialPush : lastPush trialPush.2 = some ("x", World.trialSettings.kernelDir "x") := by decide +kernel

theorem pushes_verified_version_trial :
    ∃ before answer job receipt,
      trialPush.2 = before ++ [⟨.pushKernel "x" (World.trialSettings.kernelDir "x"), answer⟩] ∧
      BytesVerified World.trialSettings before job.datasetRef receipt ∧
      before.head? = some ⟨.getJob "x", some job⟩ := by
  obtain ⟨before, answer, hpush⟩ := eq_of_lastPush lastPush_trialPush
  have hrun := hpush
  rw [trialPush] at hrun
  obtain ⟨job, receipt, hstarts, hverified, -⟩ := pushes_verified_version _ _ _ _ _ _ _ _ hrun
  exact ⟨before, answer, job, receipt, hpush, hverified, hstarts⟩

end Relay

end KaggleRelay

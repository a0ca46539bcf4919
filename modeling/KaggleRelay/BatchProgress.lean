/-
Background batches that are reported as progress.

A batch that is put off (by its deadline, by the pacing of the account or by its
own limits) ends with the category `progress`, which resets the backoff of the
rechecks.  The documentation speaks of a successful partial batch; the code
raises the same exception before a single file has been verified.

* `batchSem` — a background batch with a record of what it has met: the answers
  of everything but the store;
* `Unhurried` — what it has met did not put it off before a file had come to its
  end;
* `progress_iff_unhurried` — a batch that ends as progress has verified a file
  exactly then;
* `progress_without_file` — a batch that ends as progress and has not.
-/
import KaggleRelay.Pacing
import KaggleRelay.ResumableVerification
import KaggleRelay.Runs

namespace KaggleRelay

open Effects

/-! ### Recorded batches -/

/-- `Except.error`, if it is one. -/
def raised {α : Type} : Except Exc α → Option Exc
  | .error e => some e
  | .ok _ => none

/-- The exception in the answer of an operation. -/
def VerifyOp.raises : Raises VerifySig Exc
  | .check, r => raised (α := Unit) r
  | .datasetListFiles _ _, r => raised (α := ListResponse) r
  | .uploadContentInventory _ _, r => raised (α := Inventory) r
  | .buildKaggleClient, r => raised (α := Unit) r
  | .downloadDataset _, r => raised (α := Unit) r
  | .nextBlock _, r => raised (α := Option (List UInt8)) r
  | .load _ _, r => raised (α := String × Inventory) r
  | .markFile _ _ _, r => raised (α := Unit) r
  | .markComplete _, r => raised (α := Unit) r
  | .turns, _ => none
  | .monotonic, _ => none

def RelayOp.raises : Raises RelaySig Exc
  | .verify o, r => VerifyOp.raises o r
  | .call c, r => raised (α := c.Res) r
  | .contentDigest _, r => raised (α := String) r
  | _, _ => none

/-- An operation of a batch with its answer. -/
abbrev BatchStep := (o : RelayOp) × o.Res

/-- The store, and what the batch has met, the last answer first. -/
structure Batch where
  store : Verification
  met : List BatchStep

/-- The store of the candidates answers the operation. -/
def VerifyOp.ofStore : VerifyOp → Bool
  | .load _ _ | .markFile _ _ _ | .markComplete _ => true
  | _ => false

variable (lib : Library)

/-- The store computes its answers; everything else answers as proposed. -/
def verifyBatchSem : Prog.Sem VerifySig Answers Batch := fun o answers w =>
  (verifySem lib o (fun o' => answers (.verify o')) w.store).map fun r =>
    (r.1, ⟨r.2, if o.ofStore then w.met else ⟨.verify o, r.1⟩ :: w.met⟩)

def batchSem : Prog.Sem RelaySig Answers Batch
  | .verify o, answers, w => verifyBatchSem lib o answers w
  | o, answers, w => some (answers o, ⟨w.store, ⟨o, answers o⟩ :: w.met⟩)

/-- The exception is one that puts a batch off. -/
def Exc.isProgress (e : Exc) : Prop := (verificationError e).category = .progress

instance (e : Exc) : Decidable e.isProgress := inferInstanceAs (Decidable (_ = _))

/-- A file that is being received has come to its end. -/
def BatchStep.ends : BatchStep → Bool
  | ⟨.verify (.nextBlock _), .ok none⟩ => true
  | _ => false

/-- The first reading of the clock. -/
def firstReading : List BatchStep → Option ℚ
  | [] => none
  | ⟨.verify .monotonic, t⟩ :: met => some ((firstReading met).getD t)
  | _ :: met => firstReading met

/-- Two minutes have passed since the first reading. -/
def Overdue (older : List BatchStep) (now : ℚ) : Prop :=
  ∃ started, firstReading older = some started ∧ fileBatchSeconds ≤ now - started

/-- The answer puts the batch off: it is a deferral, or the clock shows two
minutes more than at first. -/
def BatchStep.defers (d : BatchStep) (older : List BatchStep) : Prop :=
  match d with
  | ⟨.verify .monotonic, t⟩ => Overdue older t
  | ⟨o, r⟩ => ∃ e, RelayOp.raises o r = some e ∧ e.isProgress

/-- Nothing that the batch has met puts it off before its first remaining file
has come to its end. -/
def Unhurried : List BatchStep → Prop
  | [] => True
  | d :: older => (d.defers older → older.any BatchStep.ends = true) ∧ Unhurried older

/-- `verified_files` of a candidate. -/
def verifiedFiles (scope : String) (rows : Candidates) : ℕ :=
  (rows[scope]?.map Candidate.verifiedFiles).getD 0

/-- Runs of the Verify operations are runs of the relay's. -/
theorem safe_ofVerify {I : Batch → Prop} {α : Type} {Q : α → Batch → Prop} {p : Prog VerifySig α}
    {w : Batch} (h : Safe (verifyBatchSem lib) I Q p w) :
    Safe (batchSem lib) I Q (Relay.ofVerify p) w := by
  induction p generalizing w with
  | pure a => exact h
  | op o k ih =>
    intro answers r w' hs
    obtain ⟨hI, hk⟩ := h answers r w' hs
    exact ⟨hI, ih r hk⟩
  | stuck => trivial

/-! ### What a batch does before it ends -/

/-- Operations that are not answered by the store, do not read the clock and
receive nothing. -/
def VerifyOp.plain : VerifyOp → Prop
  | .load _ _ | .markFile _ _ _ | .markComplete _ | .monotonic | .nextBlock _ => False
  | _ => True

/-- A batch that has not been put off too early: its rows, whether a file has
come to its end, and its first reading of the clock. -/
structure Batch.At (rows : Candidates) (ended : Bool) (first : Option ℚ) (w : Batch) : Prop where
  rows_eq : w.store.candidates = rows
  unhurried : Unhurried w.met
  ended_eq : w.met.any BatchStep.ends = ended
  first_eq : firstReading w.met = first

/-- The rows count what the batch has verified: something, once a file has been
marked. -/
def Tally (scope : String) (n : ℕ) (rows : Candidates) (marked : Bool) : Prop :=
  if marked = true then n < verifiedFiles scope rows else verifiedFiles scope rows = n

/-- How a batch ends that raises: as progress with a file exactly if it was not
put off too early, and only as progress if it was. -/
structure Batch.Ends (scope : String) (n : ℕ) (e : Exc) (w : Batch) : Prop where
  progress : e.isProgress → (n < verifiedFiles scope w.store.candidates ↔ Unhurried w.met)
  other : ¬e.isProgress → Unhurried w.met

variable {lib} {scope : String} {n : ℕ} {rows : Candidates} {ended : Bool} {first : Option ℚ}
  {w : Batch}

theorem tally_lt (h : Tally scope n rows ended) : n < verifiedFiles scope rows ↔ ended = true := by
  cases ended with
  | true => exact iff_of_true h rfl
  | false =>
    have heq : verifiedFiles scope rows = n := h
    rw [heq]
    simp

/-- An exception of the batch's own. -/
theorem Batch.At.ends (h : w.At rows ended first) {e : Exc} (he : ¬e.isProgress) :
    w.Ends scope n e :=
  ⟨fun hp => (he hp).elim, fun _ => h.unhurried⟩

/-- The last answer puts the batch off. -/
theorem Batch.At.deferred (h : w.At rows ended first) {store : Verification} {d : BatchStep} {e : Exc}
    (hn : Tally scope n store.candidates ended) (hd : d.defers w.met ↔ e.isProgress) :
    Batch.Ends scope n e ⟨store, d :: w.met⟩ := by
  have hunhurried : Unhurried (d :: w.met) ↔ (e.isProgress → ended = true) := by
    rw [Unhurried, hd, h.ended_eq]
    exact and_iff_left h.unhurried
  refine ⟨fun he => ?_, fun he => ?_⟩
  · rw [hunhurried, tally_lt hn]
    exact ⟨fun hmarked _ => hmarked, fun hmarked => hmarked he⟩
  · rw [hunhurried]
    exact fun hp => (he hp).elim

/-- An answer of the store. -/
theorem Batch.At.restore (h : w.At rows ended first) (store : Verification) :
    Batch.At store.candidates ended first ⟨store, w.met⟩ :=
  ⟨rfl, h.unhurried, h.ended_eq, h.first_eq⟩

/-- What an answer is that neither ends a file nor is a reading. -/
structure BatchStep.Quiet (d : BatchStep) : Prop where
  ends : d.ends = false
  defers : ∀ older, d.defers older ↔ ∃ e, RelayOp.raises d.1 d.2 = some e ∧ e.isProgress
  reading : ∀ older, firstReading (d :: older) = firstReading older

theorem quiet_of_ne {o : RelayOp} (hends : ∀ request, o ≠ .verify (.nextBlock request))
    (hread : o ≠ .verify .monotonic) (r : o.Res) : BatchStep.Quiet ⟨o, r⟩ := by
  cases o with
  | verify o =>
    cases o with
    | nextBlock request => exact (hends request rfl).elim
    | monotonic => exact (hread rfl).elim
    | _ => exact ⟨rfl, fun _ => Iff.rfl, fun _ => rfl⟩
  | _ => exact ⟨rfl, fun _ => Iff.rfl, fun _ => rfl⟩

theorem quiet_of_plain {o : VerifyOp} (h : o.plain) (r : o.Res) :
    BatchStep.Quiet ⟨.verify o, r⟩ := by
  refine quiet_of_ne (o := .verify o) ?_ ?_ r
  · rintro request ⟨⟩
    exact h
  · rintro ⟨⟩
    exact h

/-- A quiet answer. -/
theorem Batch.At.step (h : w.At rows ended first) (store : Verification)
    (hn : Tally scope n store.candidates ended) {o : RelayOp} {r : o.Res}
    (hquiet : BatchStep.Quiet ⟨o, r⟩) :
    match RelayOp.raises o r with
    | some e => Batch.Ends scope n e ⟨store, ⟨o, r⟩ :: w.met⟩
    | none => Batch.At store.candidates ended first ⟨store, ⟨o, r⟩ :: w.met⟩ := by
  cases hr : RelayOp.raises o r with
  | none =>
    refine ⟨rfl, ⟨fun hd => ?_, h.unhurried⟩, ?_, (hquiet.reading _).trans h.first_eq⟩
    · obtain ⟨e, he, -⟩ := (hquiet.defers _).mp hd
      rw [show RelayOp.raises o r = none from hr] at he
      cases he
    · rw [List.any_cons, hquiet.ends, h.ended_eq, Bool.false_or]
  | some e =>
    refine h.deferred hn ?_
    rw [hquiet.defers]
    simp [hr]

/-- A program of plain operations that stops at the first exception. -/
theorem safe_of_forwards {α : Type} {p : Verify α}
    (hp : Forwards VerifyOp.raises (fun e => ¬e.isProgress) VerifyOp.plain p)
    (h : w.At rows ended first) (hn : Tally scope n rows ended) :
    Safe (verifyBatchSem lib) (fun _ => True)
      (post (fun _ w' => w'.At rows ended first) (Batch.Ends scope n)) p w := by
  refine hp.safe ?_ (fun e w' he hw' => hw'.ends he) h
  intro o ho answers r w₀ w' hw₀ hs
  obtain ⟨⟨r', store⟩, hstore, hr⟩ := Option.map_eq_some_iff.mp hs
  obtain ⟨rfl, rfl⟩ := Prod.mk.inj hr
  -- a plain operation leaves the rows alone
  have hrows : store.candidates = rows ∧ o.ofStore = false := by
    rw [← hw₀.rows_eq]
    cases o with
    | load b expected => exact ho.elim
    | markFile scope name value => exact ho.elim
    | markComplete scope => exact ho.elim
    | monotonic => exact ho.elim
    | nextBlock request => exact ho.elim
    | datasetListFiles target token =>
      simp only [verifySem] at hstore
      split at hstore <;> cases hstore <;> exact ⟨rfl, rfl⟩
    | uploadContentInventory dir names =>
      simp only [verifySem] at hstore
      split at hstore <;> cases hstore <;> exact ⟨rfl, rfl⟩
    | downloadDataset request =>
      simp only [verifySem] at hstore
      split at hstore <;> cases hstore <;> exact ⟨rfl, rfl⟩
    | _ =>
      cases hstore
      exact ⟨rfl, rfl⟩
  have hstep := hw₀.step store (hrows.1 ▸ hn) (quiet_of_plain ho r')
  rw [if_neg (by rw [hrows.2]; exact Bool.false_ne_true)]
  dsimp only
  cases hr : VerifyOp.raises o r' with
  | none =>
    rw [show RelayOp.raises (.verify o) r' = none from hr, hrows.1] at hstep
    exact hstep
  | some e =>
    rw [show RelayOp.raises (.verify o) r' = some e from hr] at hstep
    exact hstep

/-! ### The programs -/

/-- The programs that stop at the first exception and raise no deferral. -/
abbrev Forwarding {α : Type} (p : Verify α) : Prop :=
  Forwards VerifyOp.raises (fun e => ¬e.isProgress) VerifyOp.plain p

theorem forwarding_check : Forwarding Verify.check :=
  ⟨trivial, fun r => by cases r <;> trivial⟩

theorem forwarding_turns : Forwarding Verify.turns := Forwards.perform trivial fun _ => rfl

theorem not_isProgress_addFiles {files : List RemoteFile} {inventory : Dict ℕ}
    {names : List String} {e : Exc} (h : addFiles lib files inventory names = .error e) :
    ¬e.isProgress := by
  induction files generalizing inventory names with
  | nil => cases h
  | cons file files ih =>
    unfold addFiles at h
    split at h
    · split at h
      · cases h
        decide
      · exact ih h
    · cases h
      decide

theorem forwarding_listPages (target : String) (n : ℕ) (token : Option String)
    (inventory : Dict ℕ) (names tokens : List String) :
    Forwarding (listPages lib target n token inventory names tokens) := by
  induction n generalizing token inventory names tokens with
  | zero => trivial
  | succ n ih =>
    unfold listPages
    refine Forwards.seq forwarding_check fun _ => ?_
    refine Forwards.seq (p := Verify.datasetListFiles target token) ?_ fun response => ?_
    · exact ⟨trivial, fun r => by cases r <;> trivial⟩
    refine Forwards.seq (Forwards.raiseIf (by decide)) fun _ => ?_
    refine Forwards.seq (Forwards.orRaise (by decide)) fun files => ?_
    refine Forwards.seq (Forwards.lift fun e he => not_isProgress_addFiles he) fun added => ?_
    refine Forwards.seq (Forwards.raiseIf (by decide)) fun _ => ?_
    split
    · exact Forwards.seq (Forwards.raiseIf (by decide)) fun _ => Forwards.pure _
    · refine Forwards.seq (Forwards.orRaise (by decide)) fun t => ?_
      exact Forwards.seq (Forwards.raiseIf (by decide)) fun _ => ih _ _ _ _

theorem forwarding_versionFileInventory (target : String) :
    Forwarding (versionFileInventory lib target) :=
  Forwards.seq forwarding_turns fun n => forwarding_listPages target n none ∅ [] []

/-- A block of a file, or its end. -/
theorem safe_nextBlock (request : DownloadRequest) (h : w.At rows ended first)
    (hn : Tally scope n rows ended) :
    Safe (verifyBatchSem lib) (fun _ => True)
      (post (fun block w' => w'.At rows (ended || block.isNone) first) (Batch.Ends scope n))
      (Verify.nextBlock request) w := by
  intro answers r w' hs
  obtain ⟨⟨r', store⟩, hstore, hr⟩ := Option.map_eq_some_iff.mp hs
  obtain ⟨rfl, rfl⟩ := Prod.mk.inj hr
  refine ⟨trivial, ?_⟩
  simp only [verifySem] at hstore
  split at hstore <;> cases hstore
  · refine ⟨h.rows_eq, ⟨?_, h.unhurried⟩, ?_, h.first_eq⟩
    · rintro ⟨e, he, -⟩
      cases he
    · rw [Option.isNone_some, Bool.or_false, ← h.ended_eq]
      rfl
  · refine ⟨h.rows_eq, ⟨?_, h.unhurried⟩, ?_, h.first_eq⟩
    · rintro ⟨e, he, -⟩
      cases he
    · rw [Option.isNone_none, Bool.or_true]
      rfl
  · next e _ =>
    refine h.deferred (h.rows_eq.symm ▸ hn) ⟨?_, fun hp => ⟨e, rfl, hp⟩⟩
    rintro ⟨e', he', hp⟩
    exact Option.some.inj he' ▸ hp

/-- A file that is received comes to its end. -/
theorem safe_readBody (request : DownloadRequest) (size m : ℕ) (received : List UInt8)
    (h : w.At rows ended first) (hn : Tally scope n rows ended) :
    Safe (verifyBatchSem lib) (fun _ => True)
      (post (fun _ w' => w'.At rows true first) (Batch.Ends scope n))
      (readBody request size m received) w := by
  induction m generalizing received w with
  | zero => trivial
  | succ m ih =>
    unfold readBody
    refine Safe.seq (safe_nextBlock request h hn) fun block w₁ h₁ => ?_
    cases block with
    | none =>
      rw [Option.isNone_none, Bool.or_true] at h₁
      exact h₁
    | some bytes =>
      rw [Option.isNone_some, Bool.or_false] at h₁
      refine Safe.seq (safe_of_forwards forwarding_check h₁ hn) fun _ w₂ h₂ => ?_
      refine Safe.seq (safe_of_forwards (Forwards.raiseIf (by decide)) h₂ hn) fun _ w₃ h₃ => ?_
      exact ih _ h₃

/-- A file that is verified has come to its end. -/
theorem safe_verifyFile (request : DownloadRequest) (value : ℕ × String)
    (h : w.At rows ended first) (hn : Tally scope n rows ended) :
    Safe (verifyBatchSem lib) (fun _ => True)
      (post (fun _ w' => w'.At rows true first) (Batch.Ends scope n))
      (verifyFile lib request value) w := by
  have hdownload : Forwarding (Verify.downloadDataset request) :=
    ⟨trivial, fun r => by cases r <;> trivial⟩
  have hraise : ∀ {c : Prop} [Decidable c] {e : Exc} {w : Batch}, ¬e.isProgress →
      w.At rows true first → Safe (verifyBatchSem lib) (fun _ => True)
        (post (fun _ w' => w'.At rows true first) (Batch.Ends scope n))
        (Eff.raiseIf c e : Verify Unit) w := by
    intro c _ e w he hw
    unfold Eff.raiseIf
    split
    · exact hw.ends he
    · exact hw
  unfold verifyFile
  refine Safe.seq (safe_of_forwards hdownload h hn) fun _ w₁ h₁ => ?_
  refine Safe.seq (safe_of_forwards forwarding_turns h₁ hn) fun turns w₂ h₂ => ?_
  refine Safe.seq (safe_readBody request value.1 turns [] h₂ hn) fun received w₃ h₃ => ?_
  refine Safe.seq (hraise (by decide) h₃) fun _ w₄ h₄ => ?_
  exact hraise (by decide) h₄

/-! ### The store and the clock -/

theorem tally_size {c : Checkpoint} (hrow : rows[scope]? = some c.row) :
    verifiedFiles scope rows = c.verified.size := by
  rw [verifiedFiles, hrow]
  rfl

/-- A batch that loads counts what it has loaded. -/
theorem safe_load {trace : List VerifyEvent} (b : Binding) (expected : Inventory)
    (hrec : Recorded lib ⟨rows, trace⟩) (h : w.At rows false first)
    (hn : Tally (b.scope lib) n rows false) :
    Safe (verifyBatchSem lib) (fun _ => True)
      (post (fun (r : String × Inventory) w' => r.1 = b.scope lib ∧ ∃ rows' c,
          w'.At rows' false first ∧ Tally (b.scope lib) n rows' false ∧
          rows'[b.scope lib]? = some (Checkpoint.row c) ∧ c.expected = expected ∧
          c.verified = r.2) (Batch.Ends (b.scope lib) n))
      (Verify.load b expected) w := by
  intro answers r w' hs
  obtain ⟨⟨r', store⟩, hstore, hr⟩ := Option.map_eq_some_iff.mp hs
  obtain ⟨rfl, rfl⟩ := Prod.mk.inj hr
  refine ⟨trivial, ?_⟩
  simp only [verifySem, h.rows_eq] at hstore
  cases hrow : rows[b.scope lib]? with
  | none =>
    rw [load_none lib hrow] at hstore
    cases hstore
    have hn' : Tally (b.scope lib) n
        (rows.insert (b.scope lib) (Checkpoint.start b expected).row) false := by
      have hzero : n = 0 := by
        have : verifiedFiles (b.scope lib) rows = n := hn
        simpa [verifiedFiles, hrow] using this.symm
      show verifiedFiles _ _ = n
      rw [tally_size (c := Checkpoint.start b expected) Std.ExtTreeMap.getElem?_insert_self, hzero]
      rfl
    have hstep := h.restore
      ⟨rows.insert (b.scope lib) (Checkpoint.start b expected).row, w.store.trace⟩
    exact ⟨rfl, _, Checkpoint.start b expected, hstep, hn', Std.ExtTreeMap.getElem?_insert_self,
      rfl, rfl⟩
  | some row =>
    obtain ⟨c, rfl, hscope, -⟩ := hrec _ _ hrow
    by_cases hb : b ≠ c.binding ∨ expected ≠ c.expected
    · rw [load_row_of_ne lib hrow hb] at hstore
      cases hstore
      exact (h.restore ⟨rows, w.store.trace⟩).ends (by decide)
    · rw [not_or, not_not, not_not] at hb
      obtain ⟨rfl, rfl⟩ := hb
      rw [load_row lib hrow] at hstore
      cases hstore
      exact ⟨rfl, rows, c, h.restore ⟨rows, w.store.trace⟩, hn, hrow, rfl, rfl⟩

/-- A file that is marked is one more. -/
theorem safe_markFile {c : Checkpoint} {name : String} {value : ℕ × String}
    (h : w.At rows true first) (hn : Tally scope n rows ended)
    (hrow : rows[scope]? = some c.row) (hv : c.expected[name]? = some value)
    (hnew : c.verified.contains name = false) :
    Safe (verifyBatchSem lib) (fun _ => True)
      (post (fun _ w' => ∃ rows', w'.At rows' true first ∧ Tally scope n rows' true ∧
          rows'[scope]? = some (c.mark name value hv).row) (Batch.Ends scope n))
      (Verify.markFile scope name value) w := by
  intro answers r w' hs
  obtain ⟨⟨r', store⟩, hstore, hr⟩ := Option.map_eq_some_iff.mp hs
  obtain ⟨rfl, rfl⟩ := Prod.mk.inj hr
  refine ⟨trivial, ?_⟩
  simp only [verifySem, h.rows_eq, markFile_row hrow, dif_pos hv] at hstore
  cases hstore
  refine ⟨rows.insert scope (c.mark name value hv).row,
    h.restore ⟨rows.insert scope (c.mark name value hv).row, w.store.trace⟩, ?_,
    Std.ExtTreeMap.getElem?_insert_self⟩
  show n < verifiedFiles _ _
  rw [tally_size (c := c.mark name value hv) Std.ExtTreeMap.getElem?_insert_self]
  have hsize : (c.mark name value hv).verified.size = c.verified.size + 1 := by
    show (c.verified.insert name value).size = _
    rw [Std.ExtTreeMap.size_insert, if_neg]
    simp [hnew]
  have hle : n ≤ c.verified.size := by
    rw [← tally_size hrow]
    unfold Tally at hn
    split at hn <;> omega
  omega

/-- A reading of the clock. -/
def readingStep (now : ℚ) : BatchStep := ⟨.verify .monotonic, now⟩

theorem safe_reading {E : Exc → Batch → Prop} :
    Safe (verifyBatchSem lib) (fun _ => True)
      (post (fun now w' => w' = ⟨w.store, readingStep now :: w.met⟩) E) Verify.monotonic w := by
  intro answers r w' hs
  obtain ⟨⟨t, store⟩, hstore, hr⟩ := Option.map_eq_some_iff.mp hs
  obtain ⟨rfl, rfl⟩ := Prod.mk.inj hr
  cases hstore
  exact ⟨trivial, rfl⟩

theorem any_readingStep (now : ℚ) (met : List BatchStep) :
    (readingStep now :: met).any BatchStep.ends = met.any BatchStep.ends := rfl

theorem firstReading_readingStep (now : ℚ) (met : List BatchStep) :
    firstReading (readingStep now :: met) = some ((firstReading met).getD now) := rfl

theorem defers_readingStep (now : ℚ) (older : List BatchStep) :
    (readingStep now).defers older ↔ Overdue older now := Iff.rfl

/-- The limits of a batch: past them it ends as progress. -/
theorem safe_batchDue {started : ℚ} {checked : ℕ} (verified total : ℕ)
    (h : w.At rows ended (some started)) (hn : Tally scope n rows ended)
    (hchecked : 0 < checked → ended = true) :
    Safe (verifyBatchSem lib) (fun _ => True)
      (post (fun _ w' => w'.At rows ended (some started)) (Batch.Ends scope n))
      (batchDue true started checked verified total) w := by
  refine Safe.seq safe_reading ?_
  rintro now _ rfl
  have hdefers : (readingStep now).defers w.met ↔ fileBatchSeconds ≤ now - started := by
    rw [defers_readingStep, Overdue, h.first_eq]
    simp
  have hprogress : (batchPending verified total).isProgress := rfl
  unfold Eff.raiseIf
  split
  · next hdue =>
    by_cases htime : fileBatchSeconds ≤ now - started
    · exact h.deferred (h.rows_eq.symm ▸ hn) (hdefers.trans (iff_of_true htime hprogress))
    · -- the limit of files needs a file
      have hpos : 0 < checked :=
        lt_of_lt_of_le (by decide : 0 < fileBatchLimit) (hdue.resolve_right htime)
      have hended : Unhurried (readingStep now :: w.met) :=
        ⟨fun hd => absurd (hdefers.mp hd) htime, h.unhurried⟩
      refine ⟨fun _ => iff_of_true ?_ hended, fun he => absurd hprogress he⟩
      show n < verifiedFiles scope w.store.candidates
      rw [h.rows_eq]
      exact (tally_lt hn).mpr (hchecked hpos)
  · next hdue =>
    refine ⟨h.rows_eq, ⟨fun hd => ?_, h.unhurried⟩, (any_readingStep now w.met).trans h.ended_eq, ?_⟩
    · exact (hdue (Or.inr (hdefers.mp hd))).elim
    · rw [firstReading_readingStep, h.first_eq, Option.getD_some]

/-- The loop over the files. -/
theorem safe_verifyFiles {owner slug : String} {version : ℤ} {started : ℚ} {total : ℕ}
    {c : Checkpoint} {files : List (String × (ℕ × String))} {checked : ℕ}
    (hfiles : ∀ item ∈ files, c.expected[item.1]? = some item.2)
    (h : w.At rows ended (some started)) (hn : Tally scope n rows ended)
    (hrow : rows[scope]? = some c.row) (hchecked : 0 < checked → ended = true) :
    Safe (verifyBatchSem lib) (fun _ => True)
      (post (fun _ w' => ∃ rows' ended', w'.At rows' ended' (some started) ∧
        Tally scope n rows' ended' ∧ ∃ c', rows'[scope]? = some (Checkpoint.row c'))
        (Batch.Ends scope n))
      (verifyFiles lib owner slug version scope true started total files c.verified checked) w := by
  induction files generalizing w rows ended c checked with
  | nil => exact ⟨rows, ended, h, hn, c, hrow⟩
  | cons item files ih =>
    obtain ⟨name, value⟩ := item
    have hv : c.expected[name]? = some value := hfiles _ List.mem_cons_self
    have hrest : ∀ item ∈ files, c.expected[item.1]? = some item.2 :=
      fun item hitem => hfiles item (List.mem_cons_of_mem _ hitem)
    unfold verifyFiles
    refine Safe.seq (safe_of_forwards forwarding_check h hn) fun _ w₁ h₁ => ?_
    by_cases hin : c.verified.contains name = true
    · rw [if_pos hin]
      exact ih hrest h₁ hn hrow hchecked
    · rw [if_neg hin]
      refine Safe.seq (safe_batchDue c.verified.size total h₁ hn hchecked) fun _ w₂ h₂ => ?_
      refine Safe.seq (safe_verifyFile _ value h₂ hn) fun _ w₃ h₃ => ?_
      refine Safe.seq (safe_markFile h₃ hn hrow hv ((Bool.not_eq_true _).mp hin)) ?_
      rintro _ w₄ ⟨rows', h₄, hn', hrow'⟩
      exact ih (c := c.mark name value hv) hrest h₄ hn' hrow' fun _ => rfl

theorem forwarding_uploadContentInventory (dir : String) (names : List String) :
    Forwarding (Verify.uploadContentInventory dir names) :=
  ⟨trivial, fun r => by cases r <;> trivial⟩

theorem forwarding_buildKaggleClient : Forwarding Verify.buildKaggleClient :=
  ⟨trivial, fun r => by cases r <;> trivial⟩

theorem not_isProgress_ownerAndSlug {datasetRef : String} {e : Exc}
    (h : ownerAndSlug datasetRef = .error e) : ¬e.isProgress := by
  unfold ownerAndSlug at h
  split at h
  · simp at h
  · obtain rfl := Except.error.inj h
    decide
  · obtain rfl := Except.error.inj h
    decide

theorem not_isProgress_versionNotReady (detail : String) :
    ¬(Exc.versionNotReady detail).isProgress := nofun

/-- The first reading of the clock. -/
theorem safe_started (h : w.At rows ended none) :
    Safe (verifyBatchSem lib) (fun _ => True)
      (post (fun started w' => w'.At rows ended (some started)) (Batch.Ends scope n))
      Verify.monotonic w := by
  refine Safe.mono (safe_reading (E := Batch.Ends scope n)) ?_
  rintro (e | now) w' hw'
  · exact hw'
  · obtain rfl : w' = _ := hw'
    refine ⟨h.rows_eq, ⟨?_, h.unhurried⟩, (any_readingStep now w.met).trans h.ended_eq, ?_⟩
    · rintro ⟨started, hstarted, -⟩
      rw [h.first_eq] at hstarted
      simp at hstarted
    · rw [firstReading_readingStep, h.first_eq, Option.getD_none]

/-- The file by file verification of a version. -/
theorem safe_verifyVersionFiles {trace : List VerifyEvent} (b : Binding)
    (hrec : Recorded lib ⟨rows, trace⟩) (h : w.At rows false none)
    (hn : Tally (b.scope lib) n rows false) :
    Safe (verifyBatchSem lib) (fun _ => True)
      (post (fun scope w' => scope = b.scope lib ∧ ∃ rows' ended first, w'.At rows' ended first ∧
        Tally (b.scope lib) n rows' ended ∧ ∃ c, rows'[b.scope lib]? = some (Checkpoint.row c))
        (Batch.Ends (b.scope lib) n))
      (verifyVersionFiles lib b true) w := by
  have hpre : ∀ {α : Type} {p : Verify α}, Forwarding p → Safe (verifyBatchSem lib) (fun _ => True)
      (post (fun _ w' => w'.At rows false none) (Batch.Ends (b.scope lib) n)) p w :=
    fun hp => safe_of_forwards hp h hn
  unfold verifyVersionFiles
  refine Safe.seq (hpre (Forwards.raiseIf (by decide))) fun _ w₁ h₁ => ?_
  refine Safe.seq (safe_of_forwards (Forwards.lift fun e he => not_isProgress_ownerAndSlug he) h₁ hn)
    fun ref w₂ h₂ => ?_
  refine Safe.seq (safe_of_forwards (forwarding_versionFileInventory _) h₂ hn) fun actual w₃ h₃ => ?_
  refine Safe.seq (safe_of_forwards (forwarding_uploadContentInventory _ _) h₃ hn)
    fun expected w₄ h₄ => ?_
  refine Safe.seq (safe_of_forwards (Forwards.raiseIf (not_isProgress_versionNotReady _)) h₄ hn) fun _ w₅ h₅ => ?_
  refine Safe.seq (safe_of_forwards (Forwards.raiseIf (not_isProgress_versionNotReady _)) h₅ hn) fun _ w₆ h₆ => ?_
  refine Safe.seq (safe_load b expected hrec h₆ hn) ?_
  rintro ⟨scope, verified⟩ w₇ ⟨rfl, rows', c, h₇, hn', hrow, rfl, rfl⟩
  refine Safe.seq (safe_started h₇) fun started w₈ h₈ => ?_
  refine Safe.seq (safe_of_forwards forwarding_buildKaggleClient h₈ hn') fun _ w₉ h₉ => ?_
  have hfiles : ∀ item ∈ c.expected.toList, c.expected[item.1]? = some item.2 :=
    fun item hitem => Std.ExtTreeMap.mem_toList_iff_getElem?_eq_some.mp hitem
  refine Safe.seq (safe_verifyFiles hfiles h₉ hn' hrow (by simp)) ?_
  rintro _ w₁₀ ⟨rows'', ended, h₁₀, hn'', c', hrow'⟩
  refine Safe.seq (safe_of_forwards (forwarding_versionFileInventory _) h₁₀ hn'')
    fun last w₁₁ h₁₁ => ?_
  refine Safe.seq (safe_of_forwards (Forwards.raiseIf (by decide)) h₁₁ hn'') fun _ w₁₂ h₁₂ => ?_
  exact ⟨rfl, rows'', ended, some started, h₁₂, hn'', c', hrow'⟩

/-! ### A whole batch -/

/-- A program of the relay's plain operations that stops at the first
exception. -/
theorem safe_of_forwards_relay {α : Type} {p : Relay α}
    (hp : Forwards RelayOp.raises (fun e => ¬e.isProgress)
      (fun o => ∀ o', o ≠ .verify o') p)
    (h : w.At rows ended first) (hn : Tally scope n rows ended) :
    Safe (batchSem lib) (fun _ => True)
      (post (fun _ w' => w'.At rows ended first) (Batch.Ends scope n)) p w := by
  refine hp.safe ?_ (fun e w' he hw' => hw'.ends he) h
  intro o ho answers r w₀ w' hw₀ hs
  have hquiet := quiet_of_ne (fun _ => ho _) (ho _) r
  have hstep := hw₀.step w₀.store (hw₀.rows_eq.symm ▸ hn) hquiet
  have hw' : w' = ⟨w₀.store, ⟨o, r⟩ :: w₀.met⟩ := by
    cases o with
    | verify o => exact (ho o rfl).elim
    | _ =>
      cases hs
      rfl
  rw [hw']
  cases hr : RelayOp.raises o r with
  | none =>
    rw [hr, hw₀.rows_eq] at hstep
    exact hstep
  | some e =>
    rw [hr] at hstep
    exact hstep

theorem forwards_call (c : Call) :
    Forwards RelayOp.raises (fun e => ¬e.isProgress) (fun o => ∀ o', o ≠ .verify o')
      (Relay.call c) :=
  ⟨nofun, fun r => by cases r <;> trivial⟩

theorem forwards_contentDigest (dir : String) :
    Forwards RelayOp.raises (fun e => ¬e.isProgress) (fun o => ∀ o', o ≠ .verify o')
      (Relay.contentDigest dir) :=
  ⟨nofun, fun r => by cases r <;> trivial⟩

theorem not_isProgress_adapterError (text : String) : ¬(Exc.adapterError text).isProgress := nofun

/-- Where the content check of a version has ended: its rows, and the
checkpoint of the version where its files were verified. -/
def Batch.Checked (scope : String) (n : ℕ) (result : Option String) (w : Batch) : Prop :=
  ∃ rows ended first, w.At rows ended first ∧ Tally scope n rows ended ∧
    ∀ scope', result = some scope' → scope' = scope ∧ ∃ c, rows[scope]? = some (Checkpoint.row c)

theorem safe_verifyContent {trace : List VerifyEvent} (s : Settings)
    (receipt : DatasetUploadReceipt) (datasetRef : String)
    (hrec : Recorded s.lib ⟨rows, trace⟩) (h : w.At rows false none)
    (hscope : scope = candidateScope s.lib datasetRef receipt.datasetDir)
    (hn : Tally scope n rows false) :
    Safe (batchSem s.lib) (fun _ => True)
      (post (Batch.Checked scope n) (Batch.Ends scope n))
      (Relay.verifyContent s receipt datasetRef true) w := by
  subst hscope
  refine Safe.seq (safe_of_forwards_relay (forwards_call _) h hn) fun available w₁ h₁ => ?_
  split
  · refine Safe.seq (safe_of_forwards_relay (forwards_call _) h₁ hn) fun _ w₂ h₂ => ?_
    exact ⟨rows, false, none, h₂, hn, nofun⟩
  · let b : Binding :=
      ⟨datasetRef, receipt.expectedVersionNumber, receipt.datasetDir, receipt.contentSha256⟩
    have hfiles := safe_verifyVersionFiles b hrec h₁ (hn : Tally (b.scope s.lib) n rows false)
    refine Safe.seq (safe_ofVerify s.lib hfiles) ?_
    rintro _ w₂ ⟨rfl, rows', ended, first, h₂, hn', c, hrow⟩
    refine ⟨rows', ended, first, h₂, hn', ?_⟩
    rintro _ ⟨⟩
    exact ⟨rfl, c, hrow⟩

/-- Completing the candidate is the last step of a batch. -/
theorem safe_markComplete {c : Checkpoint} (h : w.At rows ended first)
    (hrow : rows[scope]? = some c.row) :
    Safe (verifyBatchSem lib) (fun _ => True)
      (post (fun _ w' => Unhurried w'.met) (Batch.Ends scope n))
      (Verify.markComplete scope) w := by
  intro answers r w' hs
  obtain ⟨⟨r', store⟩, hstore, hr⟩ := Option.map_eq_some_iff.mp hs
  obtain ⟨rfl, rfl⟩ := Prod.mk.inj hr
  refine ⟨trivial, ?_⟩
  simp only [verifySem, h.rows_eq, markComplete_row hrow] at hstore
  split at hstore <;> cases hstore
  · exact h.unhurried
  · exact (h.restore ⟨rows, w.store.trace⟩).ends (by decide)

theorem safe_verifyDatasetContent {trace : List VerifyEvent} (s : Settings)
    (receipt : DatasetUploadReceipt) (datasetRef : String)
    (hrec : Recorded s.lib ⟨rows, trace⟩) (h : w.At rows false none)
    (hscope : scope = candidateScope s.lib datasetRef receipt.datasetDir)
    (hn : Tally scope n rows false) :
    Safe (batchSem s.lib) (fun _ => True)
      (post (fun _ w' => Unhurried w'.met) (Batch.Ends scope n))
      (Relay.verifyDatasetContentInProcess s receipt datasetRef true) w := by
  refine Safe.seq (safe_of_forwards_relay
    (Forwards.raiseIf (not_isProgress_adapterError _)) h hn) fun _ w₁ h₁ => ?_
  refine Safe.seq (safe_of_forwards_relay (forwards_contentDigest _) h₁ hn) fun before w₂ h₂ => ?_
  refine Safe.seq (safe_of_forwards_relay
    (Forwards.raiseIf (not_isProgress_adapterError _)) h₂ hn) fun _ w₃ h₃ => ?_
  refine Safe.seq (safe_of_forwards_relay (forwards_call _) h₃ hn) fun _ w₄ h₄ => ?_
  refine Safe.seq (safe_verifyContent s receipt datasetRef hrec h₄ hscope hn) ?_
  rintro result w₅ ⟨rows', ended, first, h₅, hn', hresult⟩
  refine Safe.seq (safe_of_forwards_relay (forwards_contentDigest _) h₅ hn') fun after w₆ h₆ => ?_
  refine Safe.seq (safe_of_forwards_relay
    (Forwards.raiseIf (not_isProgress_adapterError _)) h₆ hn') fun _ w₇ h₇ => ?_
  refine Safe.seq (safe_ofVerify _ (safe_of_forwards forwarding_check h₇ hn')) fun _ w₈ h₈ => ?_
  cases result with
  | none => exact h₈.unhurried
  | some scope' =>
    obtain ⟨rfl, c, hrow⟩ := hresult scope' rfl
    exact safe_ofVerify _ (safe_markComplete h₈ hrow)

/-- A background batch over a store. -/
def runBatch (s : Settings) (receipt : DatasetUploadReceipt) (datasetRef : String)
    (answers : List Answers) (store : Verification) : Relay Unit × Batch :=
  Prog.exec (batchSem s.lib) (Relay.verifyDatasetContentInProcess s receipt datasetRef true) answers
    ⟨store, []⟩

/-- **Progress of a batch.**  A background batch over any store that batches can
lead to, once it has ended: if it ends as progress it has verified a file,
exactly when nothing that it has met put it off before its first remaining file
had come to its end. -/
theorem progress_iff_unhurried (s : Settings) {store : Verification}
    (hstore : Verification.Reachable s.lib store) (receipt : DatasetUploadReceipt)
    (datasetRef : String) (answers : List Answers) (outcome : Except Exc Unit)
    (hrun : (runBatch s receipt datasetRef answers store).1 = .pure outcome) :
    let scope := candidateScope s.lib datasetRef receipt.datasetDir
    let w := (runBatch s receipt datasetRef answers store).2
    (∀ e, outcome = .error e → e.isProgress →
      verifiedFiles scope store.candidates < verifiedFiles scope w.store.candidates) ↔
    Unhurried w.met := by
  intro scope w
  have hstart : Batch.At store.candidates false none ⟨store, []⟩ := ⟨rfl, trivial, rfl, rfl⟩
  have hsafe := safe_verifyDatasetContent s receipt datasetRef (recorded_of_reachable hstore) hstart
    rfl (rfl : Tally scope (verifiedFiles scope store.candidates) store.candidates false)
  have hpost : post (fun _ w' => Unhurried w'.met)
      (Batch.Ends scope (verifiedFiles scope store.candidates)) outcome w := hsafe.exec_post hrun
  cases outcome with
  | ok u => exact ⟨fun _ => hpost, fun _ => nofun⟩
  | error e =>
    have hends : Batch.Ends scope (verifiedFiles scope store.candidates) e w := hpost
    by_cases he : e.isProgress
    · rw [← hends.progress he]
      exact ⟨fun hmeasure => hmeasure e rfl he, fun hless _ _ _ => hless⟩
    · refine ⟨fun _ => hends.other he, fun _ e' he' hp => ?_⟩
      cases he'
      exact absurd hp he

/-! ### A batch without a file -/

/-- The receipt of a version whose only file `a` has one byte. -/
def lateReceipt : DatasetUploadReceipt := ⟨1, "d", "digest"⟩

/-- Answers from outside: the archive has no URL, and the file comes in blocks of
one byte.  `checked` is what the deadline says. -/
def lateAnswers (checked : Except Exc Unit) : Answers
  | .call (.downloadArchive _ _) => .ok false
  | .verify .check => checked
  | .verify (.datasetListFiles _ _) => Except.ok ⟨false, some [⟨some "a", some 1⟩], .missing⟩
  | .verify (.uploadContentInventory _ _) => Except.ok ((∅ : Inventory).insert "a" (1, "sha256"))
  | .verify (.nextBlock _) => Except.ok (some [65])
  | .verify .turns => (1 : ℕ)
  | .verify .monotonic => (0 : ℚ)
  | .verify .buildKaggleClient => Except.ok ()
  | .verify (.downloadDataset _) => Except.ok ()
  | o => World.trialAnswers (.error (.adapterError "")) o

/-- The deadline passes while the first file is being received. -/
def lateBatch : Relay Unit × Batch :=
  runBatch World.trialSettings lateReceipt "alice/data"
    (List.replicate 15 (lateAnswers (.ok ())) ++ [lateAnswers (.error budgetReached)]) ⟨∅, []⟩

/-- How a program has ended. -/
def ended? : Relay Unit → Option (Except Exc Unit)
  | .pure outcome => some outcome
  | _ => none

theorem eq_pure_of_ended {p : Relay Unit} {outcome : Except Exc Unit} (h : ended? p = some outcome) :
    p = .pure outcome := by
  cases p with
  | pure result => rw [Option.some.inj h]
  | op o k => cases h
  | stuck => cases h

theorem lateBatch_ended : lateBatch.1 = .pure (.error budgetReached) :=
  eq_pure_of_ended (by decide +kernel)

theorem lateBatch_verified :
    verifiedFiles (candidateScope World.trialSettings.lib "alice/data" "d") lateBatch.2.store.candidates =
      0 := by decide +kernel

theorem progress_iff_unhurried_sample :
    (∀ e, Except.error budgetReached = (Except.error e : Except Exc Unit) → e.isProgress →
      verifiedFiles (candidateScope World.trialSettings.lib "alice/data" "d") ∅ <
        verifiedFiles (candidateScope World.trialSettings.lib "alice/data" "d")
          lateBatch.2.store.candidates) ↔ Unhurried lateBatch.2.met :=
  progress_iff_unhurried World.trialSettings .empty lateReceipt "alice/data" _
    (.error budgetReached) lateBatch_ended

/-- **A batch reported as progress need not have verified a file.** -/
theorem progress_without_file :
    ¬∀ (s : Settings) (store : Verification), Verification.Reachable s.lib store →
      ∀ (receipt : DatasetUploadReceipt) (datasetRef : String) (answers : List Answers) (e : Exc),
        (runBatch s receipt datasetRef answers store).1 = .pure (.error e) → e.isProgress →
        verifiedFiles (candidateScope s.lib datasetRef receipt.datasetDir) store.candidates <
          verifiedFiles (candidateScope s.lib datasetRef receipt.datasetDir)
            (runBatch s receipt datasetRef answers store).2.store.candidates := by
  intro h
  have hless := h World.trialSettings ⟨∅, []⟩ .empty lateReceipt "alice/data" _ budgetReached
    lateBatch_ended rfl
  have hzero : verifiedFiles (candidateScope World.trialSettings.lib "alice/data" "d")
      lateBatch.2.store.candidates = 0 := lateBatch_verified
  exact Nat.not_lt_zero _ (hzero ▸ hless)

end KaggleRelay

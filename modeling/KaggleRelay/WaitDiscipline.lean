/-
The discipline of the retries of `wait_dataset`.

The loop of `DatasetWait` runs with operations that are recorded: each reading
of the clock, each time control leaves the loop, and each attempt to verify,
with its start, its end and its outcome.  The clock shows any times that do not
run backwards, and the attempts end in any way.

* `Disciplined` — what the record of a run has to look like;
* `wait_dataset_disciplined` — every run of the loop, wherever it is cut off,
  is disciplined, and a version is reported ready only right after an attempt at
  exactly this version succeeded.
-/
import Mathlib.Tactic.Linarith
import KaggleRelay.DatasetWait

namespace KaggleRelay

open Effects

/-! ### Recorded runs -/

namespace Waiting

/-- What the loop does to its surroundings. -/
inductive Op where
  | monotonic
  | uniform
  | turns
  | checkInterrupted
  | cancelCheck
  | sleep (seconds : ℚ)
  | verifyDatasetContent (args : VerifyArgs)
  | contentSeconds

/-- The answers. -/
def Op.Res : Op → Type
  | .monotonic => ℚ
  | .uniform => ℚ
  | .turns => ℕ
  | .checkInterrupted => Except Exc Unit
  | .cancelCheck => Except Exc Unit
  | .sleep _ => Except Exc Unit
  | .verifyDatasetContent _ => Except Exc Unit
  | .contentSeconds => ℚ

def Sig : Effects.Sig := ⟨Op, Op.Res⟩

/-- The loop's operations, each one recorded. -/
def actions : WaitActions Sig where
  monotonic := Eff.perform (S := Sig) .monotonic
  uniform := Eff.perform (S := Sig) .uniform
  turns := Eff.perform (S := Sig) .turns
  checkInterrupted := Prog.perform (S := Sig) .checkInterrupted
  cancelCheck := Prog.perform (S := Sig) .cancelCheck
  sleep seconds := Prog.perform (S := Sig) (.sleep seconds)
  verifyDatasetContent args := Prog.perform (S := Sig) (.verifyDatasetContent args)
  contentSeconds := Eff.perform (S := Sig) .contentSeconds

/-- An attempt to verify. -/
structure Attempt where
  args : VerifyArgs
  start : ℚ
  finish : ℚ
  outcome : Except Exc Unit

/-- How an attempt failed. -/
def Attempt.failure? (a : Attempt) : Option Failure :=
  match a.outcome with
  | .ok () => none
  | .error e => some (verificationError e)

inductive Event where
  /-- A reading of the clock. -/
  | read (t : ℚ)
  /-- Control left the loop: for a check or to sleep. -/
  | left
  | attempt (a : Attempt)

/-- The clock, and what has happened, the last event first. -/
structure World where
  clock : ℚ
  trace : List Event

/-- What the outside does at an operation: time passes, and it answers. -/
structure Choice where
  elapsed : ℚ
  duration : ℚ
  uniform : ℚ
  turns : ℕ
  outcome : Except Exc Unit
  contentSeconds : ℚ

/-- The clock when an operation begins. -/
def World.after (w : World) (c : Choice) : ℚ := w.clock + max 0 c.elapsed

def sem : Prog.Sem Sig Choice World
  | .monotonic, c, w => some (w.after c, ⟨w.after c, .read (w.after c) :: w.trace⟩)
  | .uniform, c, w => some ((max 0 (min 3 c.uniform) : ℚ), w)
  | .turns, c, w => some (c.turns, w)
  | .checkInterrupted, c, w => some (c.outcome, ⟨w.after c, .left :: w.trace⟩)
  | .cancelCheck, c, w => some (c.outcome, ⟨w.after c, .left :: w.trace⟩)
  | .sleep _, c, w => some (c.outcome, ⟨w.after c, .left :: w.trace⟩)
  | .verifyDatasetContent args, c, w =>
    let finish := w.after c + max 0 c.duration
    some (c.outcome, ⟨finish, .attempt ⟨args, w.after c, finish, c.outcome⟩ :: w.trace⟩)
  | .contentSeconds, c, w => some ((max 0 c.contentSeconds : ℚ), w)

theorem clock_le_after (w : World) (c : Choice) : w.clock ≤ w.after c :=
  le_add_of_nonneg_right (le_max_left 0 c.elapsed)

/-! ### Discipline -/

/-- Failures that the network or the server is to blame for. -/
def transient (f : Failure) : Bool :=
  f.category = .transport || (f.category = .http && retriedHttpStatus f.httpStatus)

/-- Failures that may be retried. -/
def retried (f : Failure) : Bool :=
  f.category = .publication ||
    (f.category = .http && [some 403, some 404].contains f.httpStatus) || transient f

def Attempt.transient (a : Attempt) : Bool := a.failure?.any Waiting.transient

def Event.attempt? : Event → Option Attempt
  | .attempt a => some a
  | _ => none

/-- The attempts, the last one first. -/
def attempts (trace : List Event) : List Attempt := trace.filterMap Event.attempt?

def Event.isRead : Event → Bool
  | .read _ => true
  | _ => false

/-- The clock showed `t` right before what comes next: nothing but other
readings lies between. -/
def ReadLast (t : ℚ) (events : List Event) : Prop :=
  ∃ reads rest, events = reads ++ .read t :: rest ∧ ∀ e ∈ reads, e.isRead = true

/-- The clock showed `t` right after what came before. -/
def ReadFirst (t : ℚ) (events : List Event) : Prop :=
  ∃ rest reads, events = rest ++ .read t :: reads ∧ ∀ e ∈ reads, e.isRead = true

/-- The record of a disciplined run:
* every attempt is at exactly this version;
* an attempt that is not the first one retries a failure that may be retried, in
  the foreground, and no earlier than the server asked for;
* at most five attempts retry a transient failure;
* no attempt starts 600 seconds after the first transient failure, by the
  readings taken right after the failure and right before the attempt. -/
structure Disciplined (datasetRef : String) (receipt : DatasetUploadReceipt) (background : Bool)
    (trace : List Event) : Prop where
  exact : ∀ a ∈ attempts trace,
    a.args.datasetRef = datasetRef ∧ a.args.receipt = receipt ∧ a.args.background = background
  retries : ∀ newer a b older, attempts trace = newer ++ a :: b :: older →
    background = false ∧ ∃ f, b.failure? = some f ∧ retried f = true ∧
      (transient f = true → b.finish + f.retryAfter.getD 0 ≤ a.start)
  five : ((attempts trace).tail.filter Attempt.transient).length ≤ 5
  window : ∀ later a mid b before,
    trace = later ++ .attempt a :: (mid ++ .attempt b :: before) → b.transient = true →
    (∀ b' ∈ attempts before, b'.transient = false) →
    ∃ c d, ReadLast c mid ∧ ReadFirst d mid ∧ c < d + 600

/-! ### Records -/

@[simp] theorem attempts_nil : attempts [] = [] := rfl

@[simp] theorem attempts_attempt (a : Attempt) (trace : List Event) :
    attempts (.attempt a :: trace) = a :: attempts trace := rfl

@[simp] theorem attempts_read (t : ℚ) (trace : List Event) :
    attempts (.read t :: trace) = attempts trace := rfl

@[simp] theorem attempts_left (trace : List Event) : attempts (.left :: trace) = attempts trace := rfl

theorem attempts_append (events trace : List Event) :
    attempts (events ++ trace) = attempts events ++ attempts trace := List.filterMap_append

theorem attempts_cons_of_none {e : Event} (h : e.attempt? = none) (trace : List Event) :
    attempts (e :: trace) = attempts trace := List.filterMap_cons_none h

theorem ReadFirst.append {t : ℚ} {events : List Event} (h : ReadFirst t events)
    (newer : List Event) : ReadFirst t (newer ++ events) := by
  obtain ⟨rest, reads, rfl, hreads⟩ := h
  exact ⟨newer ++ rest, reads, by simp, hreads⟩

/-- The first transient failure of a record is one event of it. -/
theorem first_transient_unique {mid mid' before before' : List Event} {b b' : Attempt}
    (h : mid ++ .attempt b :: before = mid' ++ .attempt b' :: before')
    (hb : b.transient = true) (hb' : b'.transient = true)
    (hfirst : ∀ x ∈ attempts before, x.transient = false)
    (hfirst' : ∀ x ∈ attempts before', x.transient = false) : mid = mid' := by
  induction mid generalizing mid' with
  | nil =>
    cases mid' with
    | nil => rfl
    | cons e mid' =>
      -- the other one would be an earlier failure
      obtain ⟨-, rfl⟩ := List.cons.inj h
      have := hfirst b' (by simp [attempts_append])
      rw [hb'] at this
      simp at this
  | cons e mid ih =>
    cases mid' with
    | nil =>
      obtain ⟨-, rfl⟩ := List.cons.inj h
      have := hfirst' b (by simp [attempts_append])
      rw [hb] at this
      simp at this
    | cons e' mid' =>
      obtain ⟨rfl, h'⟩ := List.cons.inj h
      rw [ih h']

/-- Readings at the end of a record belong to what follows its last attempt. -/
theorem ReadLast.of_append {t : ℚ} {mid before : List Event} {b : Attempt}
    (h : ReadLast t (mid ++ .attempt b :: before)) : ReadLast t mid := by
  obtain ⟨reads, rest, heq, hreads⟩ := h
  induction mid generalizing reads with
  | nil =>
    cases reads with
    | nil => simp at heq
    | cons e reads =>
      obtain ⟨rfl, -⟩ := List.cons.inj heq
      have := hreads _ (List.mem_cons_self ..)
      simp [Event.isRead] at this
  | cons e mid ih =>
    cases reads with
    | nil =>
      obtain ⟨rfl, -⟩ := List.cons.inj heq
      exact ⟨[], mid, rfl, by simp⟩
    | cons e' reads =>
      obtain ⟨rfl, heq'⟩ := List.cons.inj heq
      obtain ⟨reads', rest', rfl, hreads'⟩ :=
        ih reads heq' fun x hx => hreads x (List.mem_cons_of_mem _ hx)
      refine ⟨e :: reads', rest', rfl, ?_⟩
      rintro x (_ | ⟨_, hx⟩)
      · exact hreads e (List.mem_cons_self ..)
      · exact hreads' x hx

variable {datasetRef : String} {receipt : DatasetUploadReceipt} {background : Bool}

theorem disciplined_nil : Disciplined datasetRef receipt background [] where
  exact := by simp
  retries := by simp
  five := by simp
  window := by simp

/-- Between two attempts nothing can break the discipline. -/
theorem Disciplined.cons {trace : List Event} (h : Disciplined datasetRef receipt background trace)
    {e : Event} (he : e.attempt? = none) : Disciplined datasetRef receipt background (e :: trace) where
  exact := by
    rw [attempts_cons_of_none he]
    exact h.exact
  retries := by
    rw [attempts_cons_of_none he]
    exact h.retries
  five := by
    rw [attempts_cons_of_none he]
    exact h.five
  window := by
    intro later a mid b before heq hb hfirst
    cases later with
    | nil =>
      obtain ⟨rfl, -⟩ := List.cons.inj heq
      simp [Event.attempt?] at he
    | cons x later => exact h.window later a mid b before (List.cons.inj heq).2 hb hfirst

/-! ### Between two attempts -/

/-- The state of the loop counts the transient failures and knows the first. -/
structure Counted (datasetRef : String) (receipt : DatasetUploadReceipt) (background : Bool)
    (st : WaitState) (w : World) : Prop where
  disciplined : Disciplined datasetRef receipt background w.trace
  count : ((attempts w.trace).filter Attempt.transient).length = st.transientAttempts
  five : st.transientAttempts ≤ 5
  unlimited : st.retryDeadline = none → ∀ b ∈ attempts w.trace, b.transient = false
  limited : ∀ deadline, st.retryDeadline = some deadline → ∃ mid b before d,
    w.trace = mid ++ .attempt b :: before ∧ b.transient = true ∧
      (∀ b' ∈ attempts before, b'.transient = false) ∧ ReadFirst d mid ∧ deadline = d + 600

/-- The last attempt may be retried now. -/
def Due (background : Bool) (w : World) : Prop :=
  ∀ b older, attempts w.trace = b :: older →
    background = false ∧ ∃ f, b.failure? = some f ∧ retried f = true ∧
      (transient f = true → b.finish + f.retryAfter.getD 0 ≤ w.clock)

/-- Time has passed, and nothing but a reading or a check has happened. -/
def Passes (w w' : World) : Prop :=
  w.clock ≤ w'.clock ∧ ∃ e : Event, e.attempt? = none ∧ w'.trace = e :: w.trace

variable {st : WaitState} {w w' : World}

theorem Counted.passes (h : Counted datasetRef receipt background st w) (hw : Passes w w') :
    Counted datasetRef receipt background st w' := by
  obtain ⟨-, e, he, htrace⟩ := hw
  refine ⟨?_, ?_, h.five, ?_, ?_⟩
  · rw [htrace]
    exact h.disciplined.cons he
  · rw [htrace, attempts_cons_of_none he]
    exact h.count
  · rw [htrace, attempts_cons_of_none he]
    exact h.unlimited
  · intro deadline hdeadline
    obtain ⟨mid, b, before, d, heq, hb, hfirst, hread, hd⟩ := h.limited deadline hdeadline
    exact ⟨e :: mid, b, before, d, by rw [htrace, heq]; rfl, hb, hfirst, hread.append [e], hd⟩

theorem Due.passes (h : Due background w) (hw : Passes w w') : Due background w' := by
  obtain ⟨hclock, e, he, htrace⟩ := hw
  intro b older hattempts
  rw [htrace, attempts_cons_of_none he] at hattempts
  obtain ⟨hforeground, f, hf, hretried, hdue⟩ := h b older hattempts
  exact ⟨hforeground, f, hf, hretried, fun ht => (hdue ht).trans hclock⟩

/-- Only the count and the deadline of the state matter. -/
theorem Counted.congr {st' : WaitState} (h : Counted datasetRef receipt background st w)
    (hcount : st'.transientAttempts = st.transientAttempts)
    (hdeadline : st'.retryDeadline = st.retryDeadline) :
    Counted datasetRef receipt background st' w := by
  refine ⟨h.disciplined, ?_, ?_, ?_, ?_⟩
  · rw [hcount]
    exact h.count
  · rw [hcount]
    exact h.five
  · rw [hdeadline]
    exact h.unlimited
  · rw [hdeadline]
    exact h.limited

/-- An attempt that is due and before the deadline is disciplined. -/
theorem Counted.attempt (h : Counted datasetRef receipt background st w) (hdue : Due background w)
    (hread : ∀ deadline, st.retryDeadline = some deadline →
      ∃ c, ReadLast c w.trace ∧ c < deadline)
    {a : Attempt} (hargs : a.args.datasetRef = datasetRef ∧ a.args.receipt = receipt ∧
      a.args.background = background) (hstart : w.clock ≤ a.start) :
    Disciplined datasetRef receipt background (.attempt a :: w.trace) where
  exact := by
    rintro b (_ | ⟨_, hb⟩)
    · exact hargs
    · exact h.disciplined.exact b hb
  retries := by
    intro newer a' b older heq
    rw [attempts_attempt] at heq
    cases newer with
    | nil =>
      obtain ⟨rfl, heq'⟩ := List.cons.inj heq
      obtain ⟨hforeground, f, hf, hretried, hafter⟩ := hdue b older heq'
      exact ⟨hforeground, f, hf, hretried, fun ht => (hafter ht).trans hstart⟩
    | cons x newer => exact h.disciplined.retries newer a' b older (List.cons.inj heq).2
  five := by
    rw [attempts_attempt, List.tail_cons, h.count]
    exact h.five
  window := by
    intro later a' mid b before heq hb hfirst
    cases later with
    | cons x later =>
      exact h.disciplined.window later a' mid b before (List.cons.inj heq).2 hb hfirst
    | nil =>
      have htrace : w.trace = mid ++ .attempt b :: before := (List.cons.inj heq).2
      cases hdeadline : st.retryDeadline with
      | none =>
        have := h.unlimited hdeadline b (by simp [htrace, attempts_append])
        rw [hb] at this
        simp at this
      | some deadline =>
        obtain ⟨mid', b', before', d, htrace', hb', hfirst', hd, rfl⟩ := h.limited deadline hdeadline
        obtain rfl : mid = mid' :=
          first_transient_unique (htrace.symm.trans htrace') hb hb' hfirst hfirst'
        obtain ⟨c, hc, hlt⟩ := hread _ hdeadline
        rw [htrace] at hc
        exact ⟨c, d, hc.of_append, hd, hlt⟩

/-! ### The programs -/

/-- The record is disciplined wherever the run is cut off. -/
abbrev Kept (datasetRef : String) (receipt : DatasetUploadReceipt) (background : Bool) (w : World) :
    Prop := Disciplined datasetRef receipt background w.trace

theorem passes_read (w : World) (c : Choice) :
    Passes w ⟨w.after c, .read (w.after c) :: w.trace⟩ := ⟨clock_le_after w c, _, rfl, rfl⟩

theorem passes_left (w : World) (c : Choice) : Passes w ⟨w.after c, .left :: w.trace⟩ :=
  ⟨clock_le_after w c, _, rfl, rfl⟩

/-- An assertion that the time between two attempts does not break. -/
structure Steady (datasetRef : String) (receipt : DatasetUploadReceipt) (background : Bool)
    (J : World → Prop) : Prop where
  kept : ∀ {w}, J w → Kept datasetRef receipt background w
  passes : ∀ {w w'}, J w → Passes w w' → J w'

/-- What a program may leave behind where it raises. -/
abbrev Anything (_ : Exc) (_ : World) : Prop := True

variable {J : World → Prop}

/-- A reading of the clock: the world after it shows what was read. -/
theorem safe_monotonic (hJ : Steady datasetRef receipt background J) (hw : J w) :
    Safe sem (Kept datasetRef receipt background)
      (post (fun t w' => J w' ∧ Passes w w' ∧ w'.clock = t ∧ w'.trace = .read t :: w.trace) Anything)
      actions.monotonic w := by
  intro c r w' hs
  simp only [sem, Option.some.injEq] at hs
  obtain ⟨rfl, rfl⟩ := hs
  have hpass := passes_read w c
  exact ⟨hJ.kept (hJ.passes hw hpass), hJ.passes hw hpass, hpass, rfl, rfl⟩

/-- A check or a sleep. -/
theorem safe_left (hJ : Steady datasetRef receipt background J) (hw : J w) {p : Eff Sig Exc Unit}
    (hp : p = actions.checkInterrupted ∨ p = actions.cancelCheck ∨
      ∃ seconds, p = actions.sleep seconds) :
    Safe sem (Kept datasetRef receipt background) (post (fun _ w' => J w') Anything) p w := by
  have hleft : ∀ (c : Choice) (r : Except Exc Unit),
      Kept datasetRef receipt background ⟨w.after c, .left :: w.trace⟩ ∧
        post (fun _ w' => J w') Anything r ⟨w.after c, .left :: w.trace⟩ := by
    intro c r
    have h := hJ.passes hw (passes_left w c)
    refine ⟨hJ.kept h, ?_⟩
    cases r with
    | error e => trivial
    | ok u => exact h
  obtain rfl | rfl | ⟨seconds, rfl⟩ := hp
  all_goals
    intro c r w' hs
    simp only [sem, Option.some.injEq] at hs
    obtain ⟨rfl, rfl⟩ := hs
    exact hleft c _

/-- The waiting between two attempts ends when it is time. -/
theorem safe_backoff (hJ : Steady datasetRef receipt background J) (hw : J w) (wakeAt : ℚ) (n : ℕ) :
    Safe sem (Kept datasetRef receipt background)
      (post (fun _ w' => J w' ∧ wakeAt ≤ w'.clock) Anything) (actions.backoff wakeAt n) w := by
  induction n generalizing w with
  | zero => trivial
  | succ n ih =>
    refine Safe.seq (safe_monotonic hJ hw) ?_
    rintro t w₁ ⟨h₁, -, rfl, -⟩
    split
    · exact ⟨h₁, ‹_›⟩
    · refine Safe.seq (safe_left hJ h₁ (.inl rfl)) fun _ w₂ h₂ => ?_
      refine Safe.seq (safe_left hJ h₂ (.inr (.inl rfl))) fun _ w₃ h₃ => ?_
      refine Safe.seq (safe_monotonic hJ h₃) fun _ w₄ h₄ => ?_
      exact Safe.seq (safe_left hJ h₄.1 (.inr (.inr ⟨_, rfl⟩))) fun _ w₅ h₅ => ih h₅

/-- The check of the retry deadline leaves a reading before it. -/
theorem safe_retryRemaining (hJ : Steady datasetRef receipt background J) (hw : J w)
    (st : WaitState) :
    Safe sem (Kept datasetRef receipt background)
      (post (fun _ w' => J w' ∧ ∀ deadline, st.retryDeadline = some deadline →
        ∃ c, ReadLast c w'.trace ∧ c < deadline) Anything)
      (actions.retryRemaining st) w := by
  unfold WaitActions.retryRemaining
  split
  · next hnone => exact ⟨hw, fun deadline h => by simp [hnone] at h⟩
  · next deadline hsome =>
    refine Safe.seq (safe_monotonic hJ hw) ?_
    rintro t w₁ ⟨h₁, -, rfl, htrace⟩
    refine Safe.seq (Safe.raiseIf fun _ => trivial) ?_
    rintro _ w₂ ⟨hremaining, h₂⟩
    rw [h₂]
    refine ⟨h₁, fun deadline' h => ?_⟩
    obtain rfl : deadline = deadline' := Option.some.inj (hsome.symm.trans h)
    refine ⟨w₁.clock, ⟨[], w.trace, htrace, by simp⟩, ?_⟩
    by_contra hle
    exact hremaining (max_le le_rfl (by linarith))

/-- The check of the publication deadline only reads the clock. -/
theorem safe_publicationRemaining (hJ : Steady datasetRef receipt background J) (hw : J w)
    (grace : ℤ) (st : WaitState) :
    Safe sem (Kept datasetRef receipt background)
      (post (fun _ w' => J w' ∧ ∃ t, w'.trace = .read t :: w.trace) Anything)
      (actions.publicationRemaining grace st) w := by
  refine Safe.seq (safe_monotonic hJ hw) ?_
  rintro t w₁ ⟨h₁, -, -, htrace⟩
  refine Safe.seq (Safe.raiseIf fun _ => trivial) ?_
  rintro _ _ ⟨-, rfl⟩
  exact ⟨h₁, t, htrace⟩

theorem safe_pure_op {o : Op} {R : o.Res → Prop}
    (ho : ∀ c w r w', sem o c w = some (r, w') → R r ∧ w' = w)
    (hw : Kept datasetRef receipt background w) :
    Safe sem (Kept datasetRef receipt background) (post (fun r w' => R r ∧ w' = w) Anything)
      (Eff.perform (S := Sig) o : Eff Sig Exc o.Res) w := by
  intro c r w' hs
  obtain ⟨hr, rfl⟩ := ho c w r w' hs
  exact ⟨hw, hr, rfl⟩

theorem safe_uniform (hw : Kept datasetRef receipt background w) :
    Safe sem (Kept datasetRef receipt background)
      (post (fun jitter w' => (0 : ℚ) ≤ jitter ∧ w' = w) Anything) actions.uniform w := by
  refine safe_pure_op (o := .uniform) (R := fun r : ℚ => 0 ≤ r) (fun c w r w' hs => ?_) hw
  simp only [sem, Option.some.injEq] at hs
  obtain ⟨rfl, rfl⟩ := hs
  exact ⟨le_max_left _ _, rfl⟩

theorem safe_turns (hw : Kept datasetRef receipt background w) :
    Safe sem (Kept datasetRef receipt background) (post (fun _ w' => True ∧ w' = w) Anything)
      actions.turns w := by
  refine safe_pure_op (o := .turns) (R := fun _ => True) (fun c w r w' hs => ?_) hw
  simp only [sem, Option.some.injEq] at hs
  obtain ⟨rfl, rfl⟩ := hs
  exact ⟨trivial, rfl⟩

theorem safe_contentSeconds (hw : Kept datasetRef receipt background w) :
    Safe sem (Kept datasetRef receipt background) (post (fun _ w' => True ∧ w' = w) Anything)
      actions.contentSeconds w := by
  refine safe_pure_op (o := .contentSeconds) (R := fun _ => True) (fun c w r w' hs => ?_) hw
  simp only [sem, Option.some.injEq] at hs
  obtain ⟨rfl, rfl⟩ := hs
  exact ⟨trivial, rfl⟩

/-! ### A failed attempt -/

/-- The last attempt failed, and only readings have followed. -/
structure Failed (datasetRef : String) (receipt : DatasetUploadReceipt) (background : Bool)
    (st : WaitState) (b : Attempt) (f : Failure) (w : World) : Prop where
  kept : Kept datasetRef receipt background w
  finished : b.finish ≤ w.clock
  failure : b.failure? = some f
  before : ∃ reads w₀, w.trace = reads ++ .attempt b :: w₀.trace ∧
    (∀ e ∈ reads, e.isRead = true) ∧ Counted datasetRef receipt background st w₀

theorem attempts_of_reads {reads : List Event} (h : ∀ e ∈ reads, e.isRead = true) :
    attempts reads = [] := by
  refine List.filterMap_eq_nil_iff.mpr fun e he => ?_
  cases e with
  | read t => rfl
  | left => rfl
  | attempt a =>
    have := h _ he
    simp [Event.isRead] at this

variable {b : Attempt} {f : Failure}

theorem Failed.transient_eq (h : Failed datasetRef receipt background st b f w) :
    b.transient = transient f := by
  rw [Attempt.transient, h.failure, Option.any_some]

theorem Failed.congr {st' : WaitState} (h : Failed datasetRef receipt background st b f w)
    (hcount : st'.transientAttempts = st.transientAttempts)
    (hdeadline : st'.retryDeadline = st.retryDeadline) :
    Failed datasetRef receipt background st' b f w := by
  obtain ⟨hkept, hfinished, hfailure, reads, w₀, heq, hreads, hcounted⟩ := h
  exact ⟨hkept, hfinished, hfailure, reads, w₀, heq, hreads, hcounted.congr hcount hdeadline⟩

theorem Failed.read (h : Failed datasetRef receipt background st b f w) (hw : Passes w w') {t : ℚ}
    (ht : w'.trace = .read t :: w.trace) : Failed datasetRef receipt background st b f w' := by
  obtain ⟨hkept, hfinished, hfailure, reads, w₀, htrace, hreads, hcounted⟩ := h
  refine ⟨?_, hfinished.trans hw.1, hfailure, .read t :: reads, w₀, ?_, ?_, hcounted⟩
  · rw [Kept, ht]
    exact hkept.cons rfl
  · rw [ht, htrace]
    rfl
  · rintro e (_ | ⟨_, he⟩)
    · rfl
    · exact hreads e he

theorem Failed.attempts (h : Failed datasetRef receipt background st b f w) :
    ∃ older, attempts w.trace = b :: older := by
  obtain ⟨-, -, -, reads, w₀, htrace, hreads, -⟩ := h
  exact ⟨Waiting.attempts w₀.trace, by
    rw [htrace, attempts_append, attempts_of_reads hreads]
    rfl⟩

/-- A failure that is not transient leaves the count and the deadline alone. -/
theorem Failed.counted (h : Failed datasetRef receipt background st b f w)
    (hf : transient f = false) : Counted datasetRef receipt background st w := by
  have hb := h.transient_eq.trans hf
  obtain ⟨hkept, -, -, reads, w₀, htrace, hreads, hcounted⟩ := h
  have hattempts : Waiting.attempts w.trace = b :: Waiting.attempts w₀.trace := by
    rw [htrace, attempts_append, attempts_of_reads hreads]
    rfl
  refine ⟨hkept, ?_, hcounted.five, ?_, ?_⟩
  · rw [hattempts, List.filter_cons_of_neg (by simp [hb])]
    exact hcounted.count
  · intro hnone x hx
    rw [hattempts] at hx
    obtain rfl | hx := List.mem_cons.mp hx
    · exact hb
    · exact hcounted.unlimited hnone x hx
  · intro deadline hdeadline
    obtain ⟨mid, x, before, d, heq, hx, hfirst, hread, hd⟩ := hcounted.limited deadline hdeadline
    refine ⟨reads ++ .attempt b :: mid, x, before, d, ?_, hx, hfirst, ?_, hd⟩
    · rw [htrace, heq]
      simp
    · have := hread.append (reads ++ [.attempt b])
      simpa using this

/-- A transient failure is counted, and the first one starts the clock. -/
theorem Failed.counted_transient (h : Failed datasetRef receipt background st b f w)
    (hf : transient f = true) {deadline : ℚ}
    (hdeadline : st.retryDeadline = some deadline ∨
      ∃ d, (∃ w₁ : World, w.trace = .read d :: w₁.trace) ∧ deadline = d + 600 ∧
        st.retryDeadline = none)
    (hfive : st.transientAttempts + 1 ≤ 5) :
    Counted datasetRef receipt background
      { st with transientAttempts := st.transientAttempts + 1, retryDeadline := some deadline } w := by
  have hb := h.transient_eq.trans hf
  obtain ⟨hkept, -, -, reads, w₀, htrace, hreads, hcounted⟩ := h
  have hattempts : Waiting.attempts w.trace = b :: Waiting.attempts w₀.trace := by
    rw [htrace, attempts_append, attempts_of_reads hreads]
    rfl
  refine ⟨hkept, ?_, hfive, nofun, ?_⟩
  · rw [hattempts, List.filter_cons_of_pos hb, List.length_cons, hcounted.count]
  · intro deadline' heq'
    obtain rfl : deadline = deadline' := Option.some.inj heq'
    obtain hsome | ⟨d, ⟨w₁, hread⟩, hd, hnone⟩ := hdeadline
    · obtain ⟨mid, x, before, d, heq, hx, hfirst, hread, hd⟩ := hcounted.limited deadline hsome
      refine ⟨reads ++ .attempt b :: mid, x, before, d, ?_, hx, hfirst, ?_, hd⟩
      · rw [htrace, heq]
        simp
      · have := hread.append (reads ++ [.attempt b])
        simpa using this
    · -- this failure is the first one, and the reading has just followed it
      refine ⟨reads, b, w₀.trace, d, htrace, hb, hcounted.unlimited hnone, ?_, hd⟩
      cases reads with
      | nil =>
        rw [hread] at htrace
        simp at htrace
      | cons e reads =>
        rw [hread] at htrace
        obtain ⟨rfl, -⟩ := List.cons.inj htrace
        exact ⟨[], reads, rfl, fun e he => hreads e (List.mem_cons_of_mem _ he)⟩

/-- The state of the next turn fits the record, and the attempt is due. -/
def Ready (datasetRef : String) (receipt : DatasetUploadReceipt) (background : Bool)
    (st : WaitState) (w : World) : Prop :=
  Counted datasetRef receipt background st w ∧ Due background w

theorem steady_kept :
    Steady datasetRef receipt background (Kept datasetRef receipt background) := by
  refine ⟨fun h => h, ?_⟩
  rintro v v' hkept ⟨-, e, he, htrace⟩
  rw [Kept, htrace]
  exact Disciplined.cons hkept he

theorem steady_ready (st : WaitState) :
    Steady datasetRef receipt background (Ready datasetRef receipt background st) :=
  ⟨fun h => h.1.disciplined, fun h hpass => ⟨h.1.passes hpass, h.2.passes hpass⟩⟩

theorem safe_retryTransient (h : Failed datasetRef receipt background st b f w)
    (hf : transient f = true) (hforeground : background = false) (grace : ℤ) (elapsed : ℚ)
    (detail : String) :
    Safe sem (Kept datasetRef receipt background)
      (post (fun st' w' => Ready datasetRef receipt background st' w') Anything)
      (actions.retryTransient grace elapsed f detail st) w := by
  have hfailure := h.failure
  -- what comes after the deadline is known, in a world that counts the failure
  have htail : ∀ (deadline : ℚ) (w₁ : World), Failed datasetRef receipt background st b f w₁ →
      (st.transientAttempts + 1 ≤ 5 → Counted datasetRef receipt background
        { st with transientAttempts := st.transientAttempts + 1, retryDeadline := some deadline }
        w₁) →
      Safe sem (Kept datasetRef receipt background)
        (post (fun st' w' => Ready datasetRef receipt background st' w') Anything) (do
          let attempts := st.transientAttempts + 1
          let now ← actions.monotonic
          let remaining := min (deadline - now) (grace - elapsed)
          let jitter ← actions.uniform
          let delay := max (f.retryAfter.getD 0) (min 60 (5 * 2 ^ min (attempts - 1) 4) + jitter)
          Eff.raiseIf (5 < attempts ∨ remaining ≤ delay)
            (retryExhausted (Text.lastChars 1200 detail) f.httpStatus f.retryAfter)
          let now ← actions.monotonic
          let turns ← actions.turns
          actions.backoff (now + delay) turns
          pure { st with transientAttempts := attempts, retryDeadline := some deadline } :
            Eff Sig Exc WaitState) w₁ := by
    intro deadline w₁ h₁ hcounted
    obtain ⟨older, hattempts⟩ := h₁.attempts
    have hJ : Steady datasetRef receipt background fun w' =>
        Kept datasetRef receipt background w' ∧ b.finish ≤ w'.clock ∧
        attempts w'.trace = b :: older ∧
        (st.transientAttempts + 1 ≤ 5 → Counted datasetRef receipt background
          { st with transientAttempts := st.transientAttempts + 1, retryDeadline := some deadline }
          w') := by
      refine ⟨fun h => h.1, ?_⟩
      rintro v v' ⟨hkept, hfinish, hv, hcount⟩ hpass
      obtain ⟨hclock, e, he, htrace⟩ := hpass
      refine ⟨?_, hfinish.trans hclock, ?_, fun h5 => (hcount h5).passes ⟨hclock, e, he, htrace⟩⟩
      · rw [Kept, htrace]
        exact hkept.cons he
      · rw [htrace, attempts_cons_of_none he, hv]
    refine Safe.seq (safe_monotonic hJ ⟨h₁.kept, h₁.finished, hattempts, hcounted⟩) ?_
    rintro now w₂ ⟨h₂, -, -, -⟩
    refine Safe.seq (safe_uniform h₂.1) ?_
    rintro jitter w₃ ⟨-, h₃⟩
    rw [h₃]
    refine Safe.seq (Safe.raiseIf fun _ => trivial) ?_
    rintro _ w₄ ⟨hgo, h₄⟩
    rw [h₄]
    refine Safe.seq (safe_monotonic hJ h₂) ?_
    rintro now' w₅ ⟨h₅, -, hnow', -⟩
    refine Safe.seq (safe_turns h₅.1) ?_
    rintro turns w₆ ⟨-, h₆⟩
    rw [h₆]
    refine Safe.seq (safe_backoff hJ h₅ _ turns) ?_
    rintro - w₇ ⟨⟨hkept, -, hattempts₇, hcount⟩, hwake⟩
    have hfive : st.transientAttempts + 1 ≤ 5 := not_lt.mp fun hlt => hgo (Or.inl hlt)
    refine ⟨hcount hfive, ?_⟩
    intro b' older' hb'
    obtain ⟨rfl, -⟩ := List.cons.inj (hattempts₇.symm.trans hb')
    refine ⟨hforeground, f, hfailure, by simp [retried, hf], fun _ => ?_⟩
    -- the wait began after the failure and lasted at least as long as asked for
    have hfinish : b.finish ≤ now' := hnow' ▸ h₅.2.1
    have hdelay := le_max_left (f.retryAfter.getD 0)
      (min 60 (5 * 2 ^ min (st.transientAttempts + 1 - 1) 4) + jitter)
    linarith
  unfold WaitActions.retryTransient
  split
  · next deadline hsome =>
    exact htail deadline w h fun h5 => h.counted_transient hf (.inl hsome) h5
  · next hnone =>
    refine Safe.seq (safe_monotonic steady_kept h.kept) ?_
    rintro now w₁ ⟨-, hpass, -, htrace⟩
    have h₁ := h.read hpass htrace
    exact htail (now + 600) w₁ h₁ fun h5 =>
      h₁.counted_transient hf (.inr ⟨now, ⟨w, htrace⟩, rfl, hnone⟩) h5

/-- A failed attempt is raised, or retried when it is due. -/
theorem safe_retryVerification (redactSecrets : String → String)
    (pollSeconds visibilityGrace grace version : ℤ) {e : Exc}
    (h : Failed datasetRef receipt background st b (verificationError e) w) :
    Safe sem (Kept datasetRef receipt background)
      (post (fun st' w' => Ready datasetRef receipt background st' w') Anything)
      (actions.retryVerification redactSecrets pollSeconds visibilityGrace grace version background
        e st) w := by
  refine Safe.seq (safe_monotonic steady_kept h.kept) ?_
  rintro now w₁ ⟨-, hpass, -, htrace⟩
  have h₁ := h.read hpass htrace
  obtain ⟨older, hattempts⟩ := h₁.attempts
  -- a failure that is retried without being transient is due at once
  have hready : ∀ {detail : String}, background = false → retried (verificationError e) = true →
      transient (verificationError e) = false →
      Ready datasetRef receipt background { st with publicationDetail := detail } w₁ := by
    intro detail hforeground hretried htransient
    refine ⟨(h₁.counted htransient).congr rfl rfl, ?_⟩
    intro b' older' hb'
    obtain ⟨rfl, -⟩ := List.cons.inj (hattempts.symm.trans hb')
    refine ⟨hforeground, _, h₁.failure, hretried, fun ht => ?_⟩
    rw [htransient] at ht
    simp at ht
  dsimp only
  generalize Text.lastChars 1200 (redactSecrets e.text) = publicationDetail
  split
  · trivial
  next hforeground =>
  have hforeground : background = false := by simpa using hforeground
  split
  · next hpublication =>
    refine Safe.seq (Safe.raiseIf fun _ => trivial) ?_
    rintro - w₂ ⟨-, h₂⟩
    rw [h₂]
    refine Safe.seq (safe_left (steady_ready _) (hready hforeground ?_ ?_) (.inr (.inr ⟨_, rfl⟩)))
      fun _ w₃ h₃ => h₃
    · simp [retried, hpublication]
    · simp [transient, hpublication]
  split
  · next hpublication hpermission =>
    obtain ⟨hhttp, hstatus⟩ := hpermission
    refine Safe.seq (Safe.raiseIf fun _ => trivial) ?_
    rintro - w₂ ⟨-, h₂⟩
    rw [h₂]
    have hdenied : retriedHttpStatus (verificationError e).httpStatus = false := by
      simp only [List.mem_cons, List.not_mem_nil, or_false] at hstatus
      obtain hstatus | hstatus := hstatus <;> rw [hstatus] <;> rfl
    refine Safe.seq (safe_left (steady_ready _) (hready hforeground ?_ ?_) (.inr (.inr ⟨_, rfl⟩)))
      fun _ w₃ h₃ => h₃
    · simp only [retried, hhttp, List.contains_eq_mem, hstatus]
      simp
    · simp [transient, hhttp, hdenied]
  split
  · next htransient =>
    have hf : transient (verificationError e) = true := by
      simpa [transient] using htransient
    have hfailed : Failed datasetRef receipt background
        { st with publicationDetail := publicationDetail } b (verificationError e) w₁ :=
      h₁.congr rfl rfl
    exact safe_retryTransient hfailed hf hforeground grace _ _
  · trivial

/-! ### The loop -/

/-- What a run that returns a text has just done. -/
def Verified (receipt : DatasetUploadReceipt) (text : String) (w : World) : Prop :=
  text = readyStatus receipt.expectedVersionNumber ∧
    ∃ a earlier, w.trace = .attempt a :: earlier ∧ a.outcome = .ok ()

/-- An attempt, whatever it ends with. -/
theorem safe_attempt (h : Ready datasetRef receipt background st w)
    (hread : ∀ deadline, st.retryDeadline = some deadline →
      ∃ c, ReadLast c w.trace ∧ c < deadline) (publicationRemaining : ℚ)
    (retryRemaining : Option ℚ) :
    Safe sem (Kept datasetRef receipt background)
      (post (fun verified w' => Kept datasetRef receipt background w' ∧
        ∃ b, w'.trace = .attempt b :: w.trace ∧ b.outcome = verified ∧ b.finish ≤ w'.clock) Anything)
      (Eff.attempt (actions.verifyDatasetContent
        ⟨datasetRef, receipt, background, publicationRemaining, retryRemaining⟩)) w := by
  intro c r w' hs
  simp only [sem, Option.some.injEq] at hs
  obtain ⟨rfl, rfl⟩ := hs
  have hkept : Disciplined datasetRef receipt background (.attempt
      ⟨⟨datasetRef, receipt, background, publicationRemaining, retryRemaining⟩, w.after c,
        w.after c + max 0 c.duration, c.outcome⟩ :: w.trace) :=
    h.1.attempt h.2 hread ⟨rfl, rfl, rfl⟩ (clock_le_after w c)
  exact ⟨hkept, hkept, _, rfl, rfl, le_rfl⟩

theorem safe_waitTurns (redactSecrets : String → String)
    (pollSeconds visibilityGrace grace : ℤ) (n : ℕ)
    (h : Ready datasetRef receipt background st w) :
    Safe sem (Kept datasetRef receipt background) (post (Verified receipt) Anything)
      (actions.waitTurns redactSecrets pollSeconds visibilityGrace grace datasetRef receipt
        background n st) w := by
  induction n generalizing st w with
  | zero => trivial
  | succ n ih =>
    refine Safe.seq (safe_left (steady_ready st) h (.inl rfl)) fun _ w₁ h₁ => ?_
    refine Safe.seq (safe_left (steady_ready st) h₁ (.inr (.inl rfl))) fun _ w₂ h₂ => ?_
    refine Safe.seq (safe_retryRemaining (steady_ready st) h₂ st) ?_
    rintro retryRemaining w₃ ⟨h₃, hread⟩
    refine Safe.seq (safe_publicationRemaining (steady_ready st) h₃ grace st) ?_
    rintro publicationRemaining w₄ ⟨h₄, t, htrace⟩
    -- the readings of the two deadlines come right before the attempt
    have hread₄ : ∀ deadline, st.retryDeadline = some deadline →
        ∃ c, ReadLast c w₄.trace ∧ c < deadline := by
      intro deadline hdeadline
      obtain ⟨c, ⟨reads, rest, heq, hreads⟩, hlt⟩ := hread deadline hdeadline
      refine ⟨c, ⟨.read t :: reads, rest, by rw [htrace, heq]; rfl, ?_⟩, hlt⟩
      rintro e (_ | ⟨_, he⟩)
      · rfl
      · exact hreads e he
    refine Safe.seq (safe_attempt h₄ hread₄ publicationRemaining retryRemaining) ?_
    rintro verified w₅ ⟨hkept, b, htrace₅, houtcome, hfinish⟩
    refine Safe.seq (safe_contentSeconds hkept) ?_
    rintro seconds w₆ ⟨-, h₆⟩
    rw [h₆]
    cases verified with
    | ok u => exact ⟨rfl, b, w₄.trace, htrace₅, houtcome⟩
    | error e =>
      have hfailed : Failed datasetRef receipt background
          { st with publicationStart := st.publicationStart + seconds } b (verificationError e) w₅ :=
        ⟨hkept, hfinish, by simp [Attempt.failure?, houtcome], [], w₄, htrace₅, by simp,
          h₄.1.congr rfl rfl⟩
      exact Safe.seq (safe_retryVerification redactSecrets pollSeconds visibilityGrace grace
        receipt.expectedVersionNumber hfailed) fun st' w₇ h₇ => ih h₇

theorem ready_start (start : ℚ) (clock : ℚ) :
    Ready datasetRef receipt background ⟨start, "", 0, none⟩ ⟨clock, []⟩ := by
  refine ⟨⟨disciplined_nil, rfl, Nat.zero_le 5, by simp, nofun⟩, ?_⟩
  intro b older h
  simp at h

/-- **The discipline of `wait_dataset`.**  Whatever the attempts to verify end
with, whatever the server asks for and whatever times the clock shows: the record
of a run is disciplined wherever the run is cut off; and where it returns, it
reports the receipt's version ready, right after an attempt that succeeded. -/
theorem wait_dataset_disciplined (redactSecrets : String → String)
    (pollSeconds statusGrace permissionGrace : ℤ) (datasetRef : String)
    (receipt : DatasetUploadReceipt) (background : Bool) (clock : ℚ) (choices : List Choice) :
    let run := (actions.waitDataset redactSecrets pollSeconds statusGrace permissionGrace datasetRef
      receipt background).exec sem choices ⟨clock, []⟩
    Disciplined datasetRef receipt background run.2.trace ∧
      ∀ text, run.1 = .pure (.ok text) → Verified receipt text run.2 := by
  have hsafe : Safe sem (Kept datasetRef receipt background) (post (Verified receipt) Anything)
      (actions.waitDataset redactSecrets pollSeconds statusGrace permissionGrace datasetRef receipt
        background) ⟨clock, []⟩ := by
    refine Safe.seq (safe_monotonic (steady_ready ⟨0, "", 0, none⟩) (ready_start 0 clock)) ?_
    rintro start w₁ ⟨h₁, -, -, -⟩
    refine Safe.seq (safe_turns h₁.1.disciplined) ?_
    rintro turns w₂ ⟨-, h₂⟩
    rw [h₂]
    exact safe_waitTurns redactSecrets _ _ _ turns ⟨h₁.1.congr rfl rfl, h₁.2⟩
  exact ⟨hsafe.exec_inv disciplined_nil, fun text htext => hsafe.exec_post htext⟩

end Waiting

end KaggleRelay

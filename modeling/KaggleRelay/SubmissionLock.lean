/-
The lock of a Dataset submission.

Workers that publish to one Dataset take turns.  The registry makes a lock for
a ref when the first worker asks for it and drops it with the last one.

* `datasetSubmissionLock` — the context manager, one operation at a time; the
  two sections under the guard are one operation each;
* `lockProtocol` — where an activation stands between its entry and its exit;
* `Submission.World` — any number of activations over one registry;
* `submission_lock_registry` — one activation in the body for a ref, one lock
  for a ref, and a registry that lists exactly the refs in use, in every
  interleaving.
-/
import Mathlib.Data.Finset.Card
import Mathlib.Logic.Function.Basic
import KaggleRelay.Dict
import KaggleRelay.KernelMetadata
import KaggleRelay.Protocol

namespace KaggleRelay

open Effects

namespace Submission

/-! ### The code -/

/-- `str(dataset_ref or "").strip().lower()`. -/
def lockKey (lib : Library) (datasetRef : String) : String := lib.lowerText (Text.strip datasetRef)

/-- `[threading.Lock(), 0]`: a list object, known by a number. -/
structure Entry where
  locked : Bool
  count : ℤ
  deriving DecidableEq

/-- What the context manager does. -/
inductive Op where
  /-- How many turns the endless loop gets. -/
  | turns
  /-- The first section under the guard. -/
  | register (key : String)
  /-- `shutdown_event.is_set()`. -/
  | isSet
  /-- `lock.acquire(timeout=0.5)`, or `lock.acquire()`. -/
  | acquire (entry : ℕ) (timed : Bool)
  /-- The body of the `with` statement. -/
  | body
  | release (entry : ℕ)
  /-- The second section under the guard. -/
  | unregister (key : String) (entry : ℕ)

/-- The answers.  `release` raises where the lock is not held. -/
def Op.Res : Op → Type
  | .turns => ℕ
  | .register _ => ℕ
  | .isSet => Bool
  | .acquire _ _ => Bool
  | .body => Except Exc Unit
  | .release _ => Except Exc Unit
  | .unregister _ _ => Unit

def Sig : Effects.Sig := ⟨Op, Op.Res⟩

abbrev Locking (α : Type) := Eff Sig Exc α

def turns : Locking ℕ := Eff.perform (S := Sig) .turns
def register (key : String) : Locking ℕ := Eff.perform (S := Sig) (.register key)
def isSet : Locking Bool := Eff.perform (S := Sig) .isSet
def acquire (entry : ℕ) (timed : Bool) : Locking Bool :=
  Eff.perform (S := Sig) (.acquire entry timed)
def body : Locking Unit := Prog.perform (S := Sig) .body
def release (entry : ℕ) : Locking Unit := Prog.perform (S := Sig) (.release entry)
def unregister (key : String) (entry : ℕ) : Locking Unit :=
  Eff.perform (S := Sig) (.unregister key entry)

/-- `KaggleAdapterInterrupted` of a wait that the shutdown ends. -/
def interrupted : Exc :=
  ⟨.kaggleAdapterInterrupted, "relay shutdown interrupted dataset submission wait"⟩

/-- `shutdown_event and shutdown_event.is_set()`. -/
def shutdownSet (shutdownEvent : Bool) : Locking Bool :=
  if shutdownEvent then isSet else pure false

/-- `while not acquired`. -/
def waitForLock (entry : ℕ) (shutdownEvent : Bool) : ℕ → Locking Unit
  | 0 => Eff.hang
  | n + 1 => do
    let stop ← shutdownSet shutdownEvent
    Eff.raiseIf (stop = true) interrupted
    let acquired ← acquire entry shutdownEvent
    if acquired then pure () else waitForLock entry shutdownEvent n

/-- The `finally` block. -/
def leave (key : String) (entry : ℕ) (acquired : Bool) : Locking Unit :=
  if acquired then do
    release entry
    unregister key entry
  else unregister key entry

/-- `dataset_submission_lock`, with or without a shutdown event. -/
def datasetSubmissionLock (lib : Library) (datasetRef : String) (shutdownEvent : Bool) :
    Locking Unit := do
  let key := lockKey lib datasetRef
  let entry ← register key
  let n ← turns
  let waited ← Eff.attempt (waitForLock entry shutdownEvent n)
  match waited with
  | .error e => do
    leave key entry false
    throw e
  | .ok () => do
    let outcome ← Eff.attempt body
    leave key entry true
    Eff.lift outcome

/-! ### Where an activation stands -/

/-- An activation before its entry and after its exit, waiting for the lock,
inside the critical section, and between the release and the exit. -/
inductive Stage where
  | outside
  | waiting (key : String) (entry : ℕ)
  | inside (key : String) (entry : ℕ)
  | released (key : String) (entry : ℕ)
  deriving DecidableEq

/-- The ref and the lock of an activation that has entered and not yet left. -/
def Stage.uses? : Stage → Option (String × ℕ)
  | .outside => none
  | .waiting key entry | .inside key entry | .released key entry => some (key, entry)

/-- The ref whose critical section an activation is in, and the lock it holds. -/
def Stage.holds? : Stage → Option (String × ℕ)
  | .inside key entry => some (key, entry)
  | _ => none

theorem Stage.uses_of_holds {stage : Stage} {key : String} {entry : ℕ}
    (h : stage.holds? = some (key, entry)) : stage.uses? = some (key, entry) := by
  cases stage with
  | inside k e => exact h
  | _ => simp [Stage.holds?] at h

/-- The stage an operation leads to.  An acquired lock opens the critical
section and the release closes it. -/
def Stage.after : Stage → (o : Op) → o.Res → Stage
  | .outside, .register key, entry => .waiting key (entry : ℕ)
  | .waiting key entry, .acquire _ _, (true : Bool) => .inside key entry
  | .inside key entry, .release _, (.ok () : Except Exc Unit) => .released key entry
  | .waiting _ _, .unregister _ _, _ => .outside
  | .released _ _, .unregister _ _, _ => .outside
  | stage, _, _ => stage

/-- The order of the operations, for an activation of one ref. -/
def Stage.Allows (ref : String) : Stage → Op → Prop
  | .outside, .register key => key = ref
  | .waiting _ _, .turns => True
  | .waiting _ _, .isSet => True
  | .waiting _ entry, .acquire e _ => e = entry
  | .waiting key entry, .unregister k e => k = key ∧ e = entry
  | .inside _ _, .body => True
  | .inside _ entry, .release e => e = entry
  | .released key entry, .unregister k e => k = key ∧ e = entry
  | _, _ => False

/-- A holder need not reckon with a release that fails. -/
def Stage.Answers : Stage → (o : Op) → o.Res → Prop
  | .inside _ _, .release _, (r : Except Exc Unit) => r = .ok ()
  | _, _, _ => True

def lockProtocol (ref : String) : Protocol Sig Stage where
  allows := Stage.Allows ref
  answers := Stage.Answers
  after := Stage.after

theorem follows_waitForLock (ref key : String) (entry : ℕ) (shutdownEvent : Bool) (n : ℕ) :
    Follows (lockProtocol ref)
      (post (fun _ stage => stage = .inside key entry) fun _ stage => stage = .waiting key entry)
      (waitForLock entry shutdownEvent n) (Stage.waiting key entry) := by
  induction n with
  | zero => exact Follows.stuck
  | succ n ih =>
    rw [waitForLock]
    have hset : Follows (lockProtocol ref)
        (post (fun _ stage => stage = .waiting key entry) fun _ stage => stage = .waiting key entry)
        (shutdownSet shutdownEvent) (Stage.waiting key entry) := by
      cases shutdownEvent with
      | false => exact Follows.pure rfl
      | true => exact Follows.op trivial fun _ _ => Follows.pure rfl
    refine Follows.seq hset ?_
    rintro stop _ rfl
    refine Follows.seq (Follows.raiseIf fun _ => rfl) ?_
    rintro - _ ⟨-, rfl⟩
    have hacquire : Follows (lockProtocol ref)
        (post (fun (acquired : Bool) stage =>
          stage = if acquired then .inside key entry else .waiting key entry)
          fun _ stage => stage = .waiting key entry)
        (acquire entry shutdownEvent) (Stage.waiting key entry) := by
      refine Follows.op rfl fun (acquired : Bool) _ => Follows.pure ?_
      cases acquired <;> rfl
    refine Follows.seq hacquire ?_
    rintro acquired _ rfl
    cases acquired with
    | false => exact ih
    | true => exact Follows.pure rfl

/-- The `finally` block leaves, whether the lock was acquired or not. -/
theorem follows_leave (ref key : String) (entry : ℕ) (acquired : Bool) :
    Follows (lockProtocol ref) (post (fun _ stage => stage = .outside) fun _ stage => stage = .outside)
      (leave key entry acquired)
      (if acquired then Stage.inside key entry else .waiting key entry) := by
  cases acquired with
  | false => exact Follows.op ⟨rfl, rfl⟩ fun _ _ => Follows.pure rfl
  | true =>
    have hrelease : Follows (lockProtocol ref)
        (post (fun _ stage => stage = .released key entry) fun _ stage => stage = .outside)
        (release entry) (Stage.inside key entry) := by
      refine Follows.op rfl fun r hr => ?_
      obtain rfl : r = (.ok () : Except Exc Unit) := hr
      exact Follows.pure rfl
    refine Follows.seq hrelease ?_
    rintro - _ rfl
    exact Follows.op ⟨rfl, rfl⟩ fun _ _ => Follows.pure rfl

/-- A whole activation enters, and has left when it returns or raises. -/
theorem follows_datasetSubmissionLock (lib : Library) (datasetRef : String) (shutdownEvent : Bool) :
    Follows (lockProtocol (lockKey lib datasetRef))
      (post (fun _ stage => stage = .outside) fun _ stage => stage = .outside)
      (datasetSubmissionLock lib datasetRef shutdownEvent) Stage.outside := by
  rw [datasetSubmissionLock]
  have hregister : Follows (lockProtocol (lockKey lib datasetRef))
      (post (fun (entry : ℕ) stage => stage = .waiting (lockKey lib datasetRef) entry)
        fun _ stage => stage = .outside)
      (register (lockKey lib datasetRef)) Stage.outside :=
    Follows.op rfl fun (entry : ℕ) _ => Follows.pure rfl
  refine Follows.seq hregister ?_
  rintro entry _ rfl
  have hturns : Follows (lockProtocol (lockKey lib datasetRef))
      (post (fun (_ : ℕ) stage => stage = .waiting (lockKey lib datasetRef) entry)
        fun _ stage => stage = .outside)
      turns (Stage.waiting (lockKey lib datasetRef) entry) :=
    Follows.op trivial fun (n : ℕ) _ => Follows.pure rfl
  refine Follows.seq hturns ?_
  rintro n _ rfl
  refine Follows.seq (Follows.attempt (follows_waitForLock _ _ entry shutdownEvent n)) ?_
  rintro (e | u) _ h
  · obtain rfl := h
    refine Follows.seq (follows_leave _ _ entry false) ?_
    rintro - _ rfl
    exact Follows.pure rfl
  · obtain rfl := h
    have hbody : Follows (lockProtocol (lockKey lib datasetRef))
        (post (fun _ stage => stage = .inside (lockKey lib datasetRef) entry)
          fun _ stage => stage = .inside (lockKey lib datasetRef) entry)
        body (Stage.inside (lockKey lib datasetRef) entry) := by
      refine Follows.op trivial fun r _ => ?_
      cases (r : Except Exc Unit) <;> exact Follows.pure rfl
    have hattempt : Follows (lockProtocol (lockKey lib datasetRef))
        (post (post (fun _ stage => stage = .inside (lockKey lib datasetRef) entry)
          fun _ stage => stage = .inside (lockKey lib datasetRef) entry) fun _ stage => stage = Stage.outside)
        (Eff.attempt body) (Stage.inside (lockKey lib datasetRef) entry) := Follows.attempt hbody
    refine Follows.seq hattempt ?_
    intro outcome stage hstage
    obtain rfl : stage = .inside (lockKey lib datasetRef) entry := by
      cases outcome <;> exact hstage
    refine Follows.seq (follows_leave _ _ entry true) ?_
    rintro - _ rfl
    exact Follows.lift (fun _ _ => rfl) fun _ _ => rfl

/-! ### Interleavings -/

/-- What the activations share. -/
structure Shared where
  /-- `_DATASET_SUBMISSION_LOCKS`. -/
  registry : Dict ℕ
  /-- The objects made so far, the ones of the numbers below `next`. -/
  entries : ℕ → Entry
  next : ℕ

/-- No entry yet. -/
def Shared.empty : Shared := ⟨∅, fun _ => ⟨false, 0⟩, 0⟩

/-- Another value of an object. -/
def Shared.set (s : Shared) (entry : ℕ) (value : Entry) : Shared :=
  { s with entries := Function.update s.entries entry value }

/-- What the outside would answer where it has a choice. -/
structure Choice where
  turns : ℕ
  isSet : Bool
  /-- A timed acquisition gives up, though the lock may just have become free. -/
  timeout : Bool
  body : Except Exc Unit

/-- `RuntimeError` of a release that nobody has a right to. -/
def unlocked : Exc := ⟨.runtimeError, "release unlocked lock"⟩

/-- The first section under the guard. -/
def Shared.register (s : Shared) (key : String) : ℕ × Shared :=
  match s.registry[key]? with
  | some entry => (entry, s.set entry { s.entries entry with count := (s.entries entry).count + 1 })
  | none => (s.next,
      { registry := s.registry.insert key s.next
        entries := Function.update s.entries s.next ⟨false, 0 + 1⟩
        next := s.next + 1 })

/-- The second section under the guard. -/
def Shared.unregister (s : Shared) (key : String) (entry : ℕ) : Shared :=
  let count := (s.entries entry).count - 1
  let s := s.set entry { s.entries entry with count := count }
  if count = 0 ∧ s.registry[key]? = some entry then { s with registry := s.registry.erase key }
  else s

/-- An operation; `none` where it blocks. -/
def Op.answer (choice : Choice) (s : Shared) : (o : Op) → Option (o.Res × Shared)
  | .turns => some (choice.turns, s)
  | .register key => some (s.register key)
  | .isSet => some (choice.isSet, s)
  | .acquire entry timed =>
    if (s.entries entry).locked then if timed then some (false, s) else none
    else if timed ∧ choice.timeout then some (false, s)
    else some (true, s.set entry { s.entries entry with locked := true })
  | .body => some (choice.body, s)
  | .release entry =>
    if (s.entries entry).locked then
      some (.ok (), s.set entry { s.entries entry with locked := false })
    else some (.error unlocked, s)
  | .unregister key entry => some ((), s.unregister key entry)

/-- Activations over one registry.  A worker that enters again while it is in
one is another activation. -/
structure World (ι : Type) where
  shared : Shared
  /-- What is left of the program of an activation. -/
  program : ι → Option (Locking Unit)
  /-- The normalised ref of its call. -/
  ref : ι → String
  /-- Where it stands, by the operations it has performed. -/
  stage : ι → Stage

/-- Nobody has entered yet. -/
def World.start (ι : Type) : World ι := ⟨.empty, fun _ => none, fun _ => "", fun _ => .outside⟩

/-- A move: an activation begins, or goes on. -/
inductive Move (ι : Type) where
  | call (p : ι) (datasetRef : String) (shutdownEvent : Bool)
  | resume (p : ι) (choice : Choice)

variable {ι : Type}

section Steps

variable [DecidableEq ι]

/-- A move that is not possible, or blocks, changes nothing. -/
def World.step (lib : Library) (w : World ι) : Move ι → World ι
  | .call p datasetRef shutdownEvent =>
    match w.program p with
    | some _ => w
    | none =>
      { w with program := Function.update w.program p
                 (some (datasetSubmissionLock lib datasetRef shutdownEvent))
               ref := Function.update w.ref p (lockKey lib datasetRef) }
  | .resume p choice =>
    match w.program p with
    | none => w
    | some (.pure _) => { w with program := Function.update w.program p none }
    | some .stuck => w
    | some (.op o k) =>
      match o.answer choice w.shared with
      | none => w
      | some (r, shared) =>
        { shared := shared
          program := Function.update w.program p (some (k r))
          ref := w.ref
          stage := Function.update w.stage p ((w.stage p).after o r) }

/-- A whole interleaving. -/
def World.run (lib : Library) (w : World ι) (moves : List (Move ι)) : World ι :=
  moves.foldl (World.step lib) w

end Steps

/-! ### The invariant -/

/-- How the registry, the counts and the locks fit the stages. -/
structure Consistent (s : Shared) (stage : ι → Stage) : Prop where
  /-- Whoever uses a lock uses the registered one. -/
  current : ∀ p key entry, (stage p).uses? = some (key, entry) → s.registry[key]? = some entry
  fresh : ∀ (key : String) entry, s.registry[key]? = some entry → entry < s.next
  distinct : ∀ (key key' : String) entry,
    s.registry[key]? = some entry → s.registry[key']? = some entry → key = key'
  counted : ∀ (key : String) entry, s.registry[key]? = some entry →
    ∃ users : Finset ι, users.Nonempty ∧ (∀ p, p ∈ users ↔ (stage p).uses? = some (key, entry)) ∧
      (s.entries entry).count = users.card
  held : ∀ (key : String) entry, s.registry[key]? = some entry →
    ((s.entries entry).locked = true ↔ ∃ p, (stage p).holds? = some (key, entry))
  exclusive : ∀ p q key entry, (stage p).holds? = some (key, entry) →
    (stage q).holds? = some (key, entry) → p = q

theorem consistent_empty : Consistent Shared.empty (fun _ : ι => Stage.outside) := by
  constructor <;> simp [Shared.empty, Stage.uses?, Stage.holds?]

theorem Shared.entries_set (s : Shared) (entry other : ℕ) (value : Entry) :
    (s.set entry value).entries other = if other = entry then value else s.entries other :=
  Function.update_apply s.entries entry value other

/-- A count is set apart from the lock. -/
theorem Shared.locked_set_count (s : Shared) (entry other : ℕ) (count : ℤ) :
    ((s.set entry { s.entries entry with count := count }).entries other).locked =
      (s.entries other).locked := by
  rw [Shared.entries_set]
  split
  · next heq => rw [heq]
  · rfl

section Operations

variable [DecidableEq ι] {s : Shared} {stage : ι → Stage} {p : ι} {st : Stage}

theorem uses_update (h : st.uses? = (stage p).uses?) (q : ι) :
    (Function.update stage p st q).uses? = (stage q).uses? := by
  by_cases hqp : q = p
  · rw [hqp, Function.update_self, h]
  · rw [Function.update_of_ne hqp]

theorem holds_update (h : st.holds? = (stage p).holds?) (q : ι) :
    (Function.update stage p st q).holds? = (stage q).holds? := by
  by_cases hqp : q = p
  · rw [hqp, Function.update_self, h]
  · rw [Function.update_of_ne hqp]

/-- One more user of a registered lock. -/
theorem Consistent.join (h : Consistent s stage) (hp : stage p = .outside) {key : String}
    {entry : ℕ} (hentry : s.registry[key]? = some entry) :
    Consistent (s.set entry { s.entries entry with count := (s.entries entry).count + 1 })
      (Function.update stage p (.waiting key entry)) := by
  have hholds : ∀ q, (Function.update stage p (.waiting key entry) q).holds? = (stage q).holds? :=
    holds_update (by rw [hp]; rfl)
  constructor
  case current =>
    intro q key' entry' hq
    by_cases hqp : q = p
    · subst hqp
      simp only [Function.update_self, Stage.uses?, Option.some.injEq, Prod.mk.injEq] at hq
      obtain ⟨rfl, rfl⟩ := hq
      exact hentry
    · rw [Function.update_of_ne hqp] at hq
      exact h.current q key' entry' hq
  case fresh => exact h.fresh
  case distinct => exact h.distinct
  case counted =>
    intro key' entry' hkey'
    obtain ⟨users, hne, hmem, hcount⟩ := h.counted key' entry' hkey'
    by_cases heq : entry' = entry
    · subst heq
      obtain rfl := h.distinct _ _ _ hkey' hentry
      have hfresh : p ∉ users := by
        rw [hmem, hp]
        simp [Stage.uses?]
      refine ⟨insert p users, Finset.insert_nonempty p users, fun q => ?_, ?_⟩
      · by_cases hqp : q = p
        · simp [hqp, Stage.uses?]
        · simp [hqp, hmem]
      · rw [Finset.card_insert_of_notMem hfresh, Shared.entries_set, if_pos rfl]
        push_cast
        rw [hcount]
    · refine ⟨users, hne, fun q => ?_, ?_⟩
      · by_cases hqp : q = p
        · subst hqp
          rw [hmem, hp, Function.update_self]
          simpa [Stage.uses?] using fun _ => Ne.symm heq
        · rw [hmem, Function.update_of_ne hqp]
      · rw [Shared.entries_set, if_neg heq, hcount]
  case held =>
    intro key' entry' hkey'
    simp only [hholds, Shared.locked_set_count]
    exact h.held key' entry' hkey'
  case exclusive =>
    simp only [hholds]
    exact h.exclusive

/-- The only user of a new lock. -/
theorem Consistent.create (h : Consistent s stage) (hp : stage p = .outside) {key : String}
    (hnone : s.registry[key]? = none) :
    Consistent
      { registry := s.registry.insert key s.next
        entries := Function.update s.entries s.next ⟨false, 0 + 1⟩
        next := s.next + 1 }
      (Function.update stage p (.waiting key s.next)) := by
  have hholds : ∀ q, (Function.update stage p (.waiting key s.next) q).holds? = (stage q).holds? :=
    holds_update (by rw [hp]; rfl)
  -- a registered lock is the new one, or an old one of another ref
  have hold : ∀ (key' : String) entry', (s.registry.insert key s.next)[key']? = some entry' →
      (key' = key ∧ entry' = s.next) ∨
        (key' ≠ key ∧ s.registry[key']? = some entry' ∧ entry' < s.next) := by
    intro key' entry' hkey'
    rw [Std.ExtTreeMap.getElem?_insert] at hkey'
    by_cases heq : key' = key
    · subst heq
      rw [if_pos (by simp), Option.some.injEq] at hkey'
      exact .inl ⟨rfl, hkey'.symm⟩
    · rw [if_neg (by simpa using Ne.symm heq)] at hkey'
      exact .inr ⟨heq, hkey', h.fresh key' entry' hkey'⟩
  have hnobody : ∀ q entry', (stage q).uses? ≠ some (key, entry') := by
    intro q entry' hq
    rw [h.current q key entry' hq] at hnone
    cases hnone
  constructor
  case current =>
    intro q key' entry' hq
    by_cases hqp : q = p
    · subst hqp
      simp only [Function.update_self, Stage.uses?, Option.some.injEq, Prod.mk.injEq] at hq
      obtain ⟨rfl, rfl⟩ := hq
      exact Std.ExtTreeMap.getElem?_insert_self
    · rw [Function.update_of_ne hqp] at hq
      have hne : key ≠ key' := by
        rintro rfl
        exact hnobody q entry' hq
      rw [Std.ExtTreeMap.getElem?_insert, if_neg (by simpa using hne)]
      exact h.current q key' entry' hq
  case fresh =>
    intro key' entry' hkey'
    obtain ⟨-, rfl⟩ | ⟨-, -, hlt⟩ := hold key' entry' hkey'
    · exact Nat.lt_succ_self s.next
    · exact Nat.lt_succ_of_lt hlt
  case distinct =>
    intro k k' entry' hk hk'
    obtain ⟨rfl, rfl⟩ | ⟨-, hk, hlt⟩ := hold k entry' hk
    · obtain ⟨rfl, -⟩ | ⟨-, -, hlt⟩ := hold k' _ hk'
      · rfl
      · omega
    · obtain ⟨-, rfl⟩ | ⟨-, hk', -⟩ := hold k' entry' hk'
      · omega
      · exact h.distinct k k' entry' hk hk'
  case counted =>
    intro key' entry' hkey'
    obtain ⟨rfl, rfl⟩ | ⟨hne, hkey', hlt⟩ := hold key' entry' hkey'
    · refine ⟨{p}, Finset.singleton_nonempty p, fun q => ?_, by simp⟩
      by_cases hqp : q = p
      · simp [hqp, Stage.uses?]
      · rw [Function.update_of_ne hqp]
        simp [hqp, hnobody q s.next]
    · obtain ⟨users, hne', hmem, hcount⟩ := h.counted key' entry' hkey'
      refine ⟨users, hne', fun q => ?_, ?_⟩
      · by_cases hqp : q = p
        · subst hqp
          rw [hmem, hp, Function.update_self]
          simp [Stage.uses?, Ne.symm hne]
        · rw [hmem, Function.update_of_ne hqp]
      · show (Function.update s.entries s.next ⟨false, 0 + 1⟩ entry').count = _
        rw [Function.update_of_ne (by omega), hcount]
  case held =>
    intro key' entry' hkey'
    simp only [hholds]
    obtain ⟨rfl, rfl⟩ | ⟨-, hkey', hlt⟩ := hold key' entry' hkey'
    · rw [Function.update_self]
      constructor
      · intro h'
        cases h'
      · rintro ⟨q, hq⟩
        exact absurd (Stage.uses_of_holds hq) (hnobody q s.next)
    · show (Function.update s.entries s.next ⟨false, 0 + 1⟩ entry').locked = true ↔ _
      rw [Function.update_of_ne (by omega)]
      exact h.held key' entry' hkey'
  case exclusive =>
    simp only [hholds]
    exact h.exclusive

/-- The first section under the guard. -/
theorem Consistent.register (h : Consistent s stage) (hp : stage p = .outside) (key : String) :
    Consistent (s.register key).2 (Function.update stage p (.waiting key (s.register key).1)) := by
  unfold Shared.register
  split
  · next entry hentry => exact h.join hp hentry
  · next hnone => exact h.create hp hnone

/-- The same users, and another state of one lock that fits its holders. -/
theorem Consistent.relock (h : Consistent s stage) {key : String} {entry : ℕ}
    (hp : (stage p).uses? = some (key, entry)) (hst : st.uses? = some (key, entry)) {locked : Bool}
    (hheld : locked = true ↔ st.holds? = some (key, entry))
    (hothers : ∀ q, q ≠ p → (stage q).holds? ≠ some (key, entry)) :
    Consistent (s.set entry { s.entries entry with locked := locked })
      (Function.update stage p st) := by
  have huses : ∀ q, (Function.update stage p st q).uses? = (stage q).uses? :=
    uses_update (by rw [hp, hst])
  have hentry := h.current p key entry hp
  have hholder : ∀ q, (Function.update stage p st q).holds? = some (key, entry) → q = p := by
    intro q hq
    by_contra hqp
    rw [Function.update_of_ne hqp] at hq
    exact hothers q hqp hq
  -- the holders of the other locks are the same
  have hother : ∀ q key' entry', entry' ≠ entry →
      ((Function.update stage p st q).holds? = some (key', entry') ↔
        (stage q).holds? = some (key', entry')) := by
    intro q key' entry' hne
    by_cases hqp : q = p
    · subst hqp
      rw [Function.update_self]
      constructor
      · intro hq
        have := hst.symm.trans (Stage.uses_of_holds hq)
        simp only [Option.some.injEq, Prod.mk.injEq] at this
        exact absurd this.2.symm hne
      · intro hq
        have := hp.symm.trans (Stage.uses_of_holds hq)
        simp only [Option.some.injEq, Prod.mk.injEq] at this
        exact absurd this.2.symm hne
    · rw [Function.update_of_ne hqp]
  constructor
  case current =>
    simp only [huses]
    exact h.current
  case fresh => exact h.fresh
  case distinct => exact h.distinct
  case counted =>
    intro key' entry' hkey'
    obtain ⟨users, hne, hmem, hcount⟩ := h.counted key' entry' hkey'
    simp only [huses]
    refine ⟨users, hne, hmem, ?_⟩
    rw [Shared.entries_set, ← hcount]
    split
    · next heq => rw [heq]
    · rfl
  case held =>
    intro key' entry' hkey'
    rw [Shared.entries_set]
    by_cases heq : entry' = entry
    · subst heq
      obtain rfl := h.distinct _ _ _ hkey' hentry
      rw [if_pos rfl]
      constructor
      · intro hlocked
        exact ⟨p, by rw [Function.update_self]; exact hheld.mp hlocked⟩
      · rintro ⟨q, hq⟩
        obtain rfl := hholder q hq
        rw [Function.update_self] at hq
        exact hheld.mpr hq
    · rw [if_neg heq]
      simp only [hother _ key' entry' heq]
      exact h.held key' entry' hkey'
  case exclusive =>
    intro q q' key' entry' hq hq'
    by_cases heq : entry' = entry
    · subst heq
      have hkey' : key' = key := by
        have hcur := h.current q key' entry' (by rw [← huses]; exact Stage.uses_of_holds hq)
        exact h.distinct _ _ _ hcur hentry
      subst hkey'
      rw [hholder q hq, hholder q' hq']
    · rw [hother q key' entry' heq] at hq
      rw [hother q' key' entry' heq] at hq'
      exact h.exclusive q q' key' entry' hq hq'

/-- Who still uses a lock after somebody has left has used it before. -/
theorem uses_of_left {q : ι} {use : String × ℕ}
    (hq : (Function.update stage p .outside q).uses? = some use) : (stage q).uses? = some use := by
  by_cases hqp : q = p
  · rw [hqp, Function.update_self] at hq
    cases hq
  · rwa [Function.update_of_ne hqp] at hq

/-- The users of the other locks stay when somebody leaves. -/
theorem Consistent.counted_left (h : Consistent s stage) {key key' : String} {entry entry' : ℕ}
    (hp : (stage p).uses? = some (key, entry)) (hkey' : s.registry[key']? = some entry')
    (hne : entry' ≠ entry) :
    ∃ users : Finset ι, users.Nonempty ∧
      (∀ q, q ∈ users ↔ (Function.update stage p .outside q).uses? = some (key', entry')) ∧
      (s.entries entry').count = users.card := by
  obtain ⟨users, hnonempty, hmem, hcount⟩ := h.counted key' entry' hkey'
  refine ⟨users, hnonempty, fun q => ?_, hcount⟩
  rw [hmem]
  refine ⟨fun hq => ?_, uses_of_left⟩
  have hqp : q ≠ p := by
    rintro rfl
    rw [hp, Option.some.injEq, Prod.mk.injEq] at hq
    exact hne hq.2.symm
  rw [Function.update_of_ne hqp]
  exact hq

/-- One user less; the last one takes the lock out of the registry. -/
theorem Consistent.unregister (h : Consistent s stage) {key : String} {entry : ℕ}
    (hp : (stage p).uses? = some (key, entry)) (hheld : (stage p).holds? = none) :
    Consistent (s.unregister key entry) (Function.update stage p .outside) := by
  have hholds : ∀ q, (Function.update stage p .outside q).holds? = (stage q).holds? :=
    holds_update hheld.symm
  have hentry := h.current p key entry hp
  obtain ⟨users, -, hmem, hcount⟩ := h.counted key entry hentry
  have hpu : p ∈ users := (hmem p).mpr hp
  have hcard : (users.erase p).card + 1 = users.card := Finset.card_erase_add_one hpu
  have huses : ∀ q, q ∈ users.erase p ↔
      (Function.update stage p .outside q).uses? = some (key, entry) := by
    intro q
    by_cases hqp : q = p
    · simp [hqp, Stage.uses?]
    · rw [Finset.mem_erase, hmem, Function.update_of_ne hqp]
      exact and_iff_right hqp
  simp only [Shared.unregister]
  split
  · next hlast =>
    -- nobody uses the lock any more
    have hempty : users.erase p = ∅ := by
      rw [← Finset.card_eq_zero]
      omega
    have hkeep : ∀ (key' : String) entry', (s.registry.erase key)[key']? = some entry' →
        key' ≠ key ∧ s.registry[key']? = some entry' := by
      intro key' entry' hkey'
      rw [Std.ExtTreeMap.getElem?_erase] at hkey'
      by_cases heq : key' = key
      · rw [if_pos (by simp [heq])] at hkey'
        cases hkey'
      · rw [if_neg (by simpa using Ne.symm heq)] at hkey'
        exact ⟨heq, hkey'⟩
    constructor
    case current =>
      intro q key' entry' hq
      have hcur := h.current q key' entry' (uses_of_left hq)
      have hne : key ≠ key' := by
        rintro rfl
        obtain rfl := Option.some.inj (hentry.symm.trans hcur)
        have := (huses q).mpr hq
        rw [hempty] at this
        simp at this
      show (s.registry.erase key)[key']? = some entry'
      rw [Std.ExtTreeMap.getElem?_erase, if_neg (by simpa using hne)]
      exact hcur
    case fresh =>
      intro key' entry' hkey'
      exact h.fresh key' entry' (hkeep key' entry' hkey').2
    case distinct =>
      intro k k' entry' hk hk'
      exact h.distinct k k' entry' (hkeep k entry' hk).2 (hkeep k' entry' hk').2
    case counted =>
      intro key' entry' hkey'
      obtain ⟨hne, hold⟩ := hkeep key' entry' hkey'
      have hne' : entry' ≠ entry := by
        intro heq
        exact hne (h.distinct key' key entry (heq ▸ hold) hentry)
      obtain ⟨users', hnonempty, hmem', hcount'⟩ := h.counted_left hp hold hne'
      refine ⟨users', hnonempty, hmem', ?_⟩
      show ((s.set entry _).entries entry').count = _
      rw [Shared.entries_set, if_neg hne', hcount']
    case held =>
      intro key' entry' hkey'
      simp only [hholds]
      show ((s.set entry _).entries entry').locked = true ↔ _
      rw [Shared.locked_set_count]
      exact h.held key' entry' (hkeep key' entry' hkey').2
    case exclusive =>
      simp only [hholds]
      exact h.exclusive
  · next hlast =>
    constructor
    case current =>
      intro q key' entry' hq
      exact h.current q key' entry' (uses_of_left hq)
    case fresh => exact h.fresh
    case distinct => exact h.distinct
    case counted =>
      intro key' entry' hkey'
      by_cases hne : entry' = entry
      · subst hne
        obtain rfl := h.distinct _ _ _ hkey' hentry
        refine ⟨users.erase p, ?_, huses, ?_⟩
        · rw [← Finset.card_pos]
          by_contra hzero
          refine hlast ⟨?_, hentry⟩
          omega
        · rw [Shared.entries_set, if_pos rfl]
          show (s.entries entry').count - 1 = _
          omega
      · obtain ⟨users', hnonempty, hmem', hcount'⟩ := h.counted_left hp hkey' hne
        refine ⟨users', hnonempty, hmem', ?_⟩
        rw [Shared.entries_set, if_neg hne, hcount']
    case held =>
      intro key' entry' hkey'
      simp only [hholds, Shared.locked_set_count]
      exact h.held key' entry' hkey'
    case exclusive =>
      simp only [hholds]
      exact h.exclusive

/-- **Step lemma**: an allowed operation gives an answer the activation reckons
with and keeps the registry consistent. -/
theorem Consistent.answer (h : Consistent s stage) {ref : String} {o : Op} {choice : Choice}
    {r : o.Res} {s' : Shared} (ho : (stage p).Allows ref o) (hr : o.answer choice s = some (r, s')) :
    (stage p).Answers o r ∧ Consistent s' (Function.update stage p ((stage p).after o r)) := by
  cases hstage : stage p with
  | outside =>
    rw [hstage] at ho
    cases o with
    | register key =>
      have hreg : s.register key = (r, s') := Option.some.inj hr
      have hcons := h.register hstage key
      rw [hreg] at hcons
      exact ⟨trivial, hcons⟩
    | _ => exact ho.elim
  | waiting key entry =>
    have huses : (stage p).uses? = some (key, entry) := by rw [hstage]; rfl
    have hstay : Consistent s (Function.update stage p (stage p)) := by
      rw [Function.update_eq_self]
      exact h
    rw [hstage] at ho hstay
    cases o with
    | turns =>
      obtain rfl : s = s' := (Prod.mk.inj (Option.some.inj hr)).2
      exact ⟨trivial, hstay⟩
    | isSet =>
      obtain rfl : s = s' := (Prod.mk.inj (Option.some.inj hr)).2
      exact ⟨trivial, hstay⟩
    | acquire e timed =>
      obtain rfl : e = entry := ho
      refine ⟨trivial, ?_⟩
      by_cases hlocked : (s.entries e).locked = true
      · -- a timed wait that goes on
        simp only [Op.answer, if_pos hlocked] at hr
        cases timed with
        | false => cases hr
        | true =>
          obtain ⟨rfl, rfl⟩ := Prod.mk.inj (Option.some.inj hr)
          exact hstay
      · simp only [Op.answer, if_neg hlocked] at hr
        split at hr
        · obtain ⟨rfl, rfl⟩ := Prod.mk.inj (Option.some.inj hr)
          exact hstay
        · obtain ⟨rfl, rfl⟩ := Prod.mk.inj (Option.some.inj hr)
          refine h.relock huses rfl (by simp [Stage.after, Stage.holds?]) fun q _ hq => ?_
          exact hlocked ((h.held key e (h.current p key e huses)).mpr ⟨q, hq⟩)
    | unregister k e =>
      obtain ⟨rfl, rfl⟩ : k = key ∧ e = entry := ho
      obtain rfl : s.unregister k e = s' := (Prod.mk.inj (Option.some.inj hr)).2
      exact ⟨trivial, h.unregister huses (by rw [hstage]; rfl)⟩
    | _ => exact ho.elim
  | inside key entry =>
    have huses : (stage p).uses? = some (key, entry) := by rw [hstage]; rfl
    have hholds : (stage p).holds? = some (key, entry) := by rw [hstage]; rfl
    have hstay : Consistent s (Function.update stage p (stage p)) := by
      rw [Function.update_eq_self]
      exact h
    rw [hstage] at ho hstay
    cases o with
    | body =>
      obtain rfl : s = s' := (Prod.mk.inj (Option.some.inj hr)).2
      exact ⟨trivial, hstay⟩
    | release e =>
      obtain rfl : e = entry := ho
      have hlocked : (s.entries e).locked = true :=
        (h.held key e (h.current p key e huses)).mpr ⟨p, hholds⟩
      simp only [Op.answer, if_pos hlocked] at hr
      obtain ⟨rfl, rfl⟩ := Prod.mk.inj (Option.some.inj hr)
      refine ⟨rfl, h.relock huses rfl (by simp [Stage.after, Stage.holds?]) fun q hqp hq => ?_⟩
      exact hqp (h.exclusive q p key e hq hholds)
    | _ => exact ho.elim
  | released key entry =>
    have huses : (stage p).uses? = some (key, entry) := by rw [hstage]; rfl
    rw [hstage] at ho
    cases o with
    | unregister k e =>
      obtain ⟨rfl, rfl⟩ : k = key ∧ e = entry := ho
      obtain rfl : s.unregister k e = s' := (Prod.mk.inj (Option.some.inj hr)).2
      exact ⟨trivial, h.unregister huses (by rw [hstage]; rfl)⟩
    | _ => exact ho.elim

end Operations

/-! ### Every interleaving -/

/-- The postcondition of an activation: it has left, returning or raising. -/
abbrev hasLeft : Except Exc Unit → Stage → Prop :=
  post (fun _ stage => stage = .outside) fun _ stage => stage = .outside

/-- Every activation keeps to the protocol of its ref, and the registry fits the
stages. -/
structure Inv (w : World ι) : Prop where
  follows : ∀ p program, w.program p = some program →
    Follows (lockProtocol (w.ref p)) hasLeft program (w.stage p)
  idle : ∀ p, w.program p = none → w.stage p = .outside
  named : ∀ p key entry, (w.stage p).uses? = some (key, entry) → key = w.ref p
  consistent : Consistent w.shared w.stage

theorem inv_start : Inv (World.start ι) where
  follows p program h := by cases h
  idle p _ := rfl
  named p key entry h := by cases h
  consistent := consistent_empty

/-- What the invariant asks of one activation that has moved. -/
theorem Inv.update [DecidableEq ι] {w : World ι} (h : Inv w) {p : ι} {shared : Shared}
    {rest : Option (Locking Unit)} {ref : String} {stage : Stage}
    (hfollows : ∀ program, rest = some program → Follows (lockProtocol ref) hasLeft program stage)
    (hidle : rest = none → stage = .outside)
    (hnamed : ∀ key entry, stage.uses? = some (key, entry) → key = ref)
    (hconsistent : Consistent shared (Function.update w.stage p stage)) :
    Inv ⟨shared, Function.update w.program p rest, Function.update w.ref p ref,
      Function.update w.stage p stage⟩ := by
  refine ⟨fun q program hq => ?_, fun q hq => ?_, fun q key entry hq => ?_, hconsistent⟩
  · by_cases hqp : q = p
    · subst hqp
      simp only [Function.update_self] at hq ⊢
      exact hfollows program hq
    · simp only [Function.update_of_ne hqp] at hq ⊢
      exact h.follows q program hq
  · by_cases hqp : q = p
    · subst hqp
      simp only [Function.update_self] at hq ⊢
      exact hidle hq
    · simp only [Function.update_of_ne hqp] at hq ⊢
      exact h.idle q hq
  · by_cases hqp : q = p
    · subst hqp
      simp only [Function.update_self] at hq ⊢
      exact hnamed key entry hq
    · simp only [Function.update_of_ne hqp] at hq ⊢
      exact h.named q key entry hq

/-- The same for an activation that begins or ends, outside. -/
theorem Inv.restart [DecidableEq ι] {w : World ι} (h : Inv w) {p : ι}
    {rest : Option (Locking Unit)} {ref : String} (hp : w.stage p = .outside)
    (hfollows : ∀ program, rest = some program →
      Follows (lockProtocol ref) hasLeft program Stage.outside) :
    Inv { w with program := Function.update w.program p rest, ref := Function.update w.ref p ref } := by
  have hsame : Function.update w.stage p .outside = w.stage := by
    rw [← hp, Function.update_eq_self]
  have hupdate := h.update (p := p) hfollows (fun _ => rfl) (fun _ _ huses => by cases huses)
    (hsame.symm ▸ h.consistent)
  rw [hsame] at hupdate
  exact hupdate

/-- An operation enters for the ref of the activation, or for none. -/
theorem named_after {ref : String} {stage : Stage} {o : Op} {r : o.Res}
    (h : ∀ key entry, stage.uses? = some (key, entry) → key = ref) (ho : stage.Allows ref o) :
    ∀ key entry, (stage.after o r).uses? = some (key, entry) → key = ref := by
  intro key entry hafter
  cases stage with
  | outside =>
    cases o with
    | register k =>
      obtain ⟨rfl, -⟩ := Prod.mk.inj (Option.some.inj hafter)
      exact ho
    | _ => cases ho
  | waiting k e =>
    cases o with
    | acquire e' timed =>
      cases (r : Bool) <;> exact h key entry hafter
    | unregister k' e' => cases hafter
    | _ => exact h key entry hafter
  | inside k e =>
    cases o with
    | release e' =>
      cases (r : Except Exc Unit) <;> exact h key entry hafter
    | _ => exact h key entry hafter
  | released k e =>
    cases o with
    | unregister k' e' => cases hafter
    | _ => exact h key entry hafter

theorem Inv.step [DecidableEq ι] {lib : Library} {w : World ι} (h : Inv w) (move : Move ι) :
    Inv (w.step lib move) := by
  cases move with
  | call p datasetRef shutdownEvent =>
    rw [World.step]
    split
    · exact h
    · next hnone =>
      refine h.restart (h.idle p hnone) fun program hprogram => ?_
      rw [← Option.some.inj hprogram]
      exact follows_datasetSubmissionLock lib datasetRef shutdownEvent
  | resume p choice =>
    have hsame : Function.update w.ref p (w.ref p) = w.ref := Function.update_eq_self p w.ref
    rw [World.step]
    split
    · exact h
    · next outcome hsome =>
      have hleft : w.stage p = .outside := by
        have := Follows.of_pure (h.follows p _ hsome)
        cases outcome <;> exact this
      have hended : Inv { w with program := Function.update w.program p none,
                                 ref := Function.update w.ref p (w.ref p) } :=
        h.restart hleft fun program hprogram => by cases hprogram
      rw [hsame] at hended
      exact hended
    · exact h
    · next o k hsome =>
      split
      · exact h
      · next r shared hr =>
        obtain ⟨hallows, hrest⟩ := Follows.of_op (h.follows p _ hsome)
        obtain ⟨hanswers, hconsistent⟩ := h.consistent.answer hallows hr
        have hfollows : ∀ program, some (k r) = some program →
            Follows (lockProtocol (w.ref p)) hasLeft program ((w.stage p).after o r) := by
          intro program hprogram
          rw [← Option.some.inj hprogram]
          exact hrest r hanswers
        have hmoved := h.update hfollows (fun hnone => by cases hnone) (named_after (h.named p) hallows)
          hconsistent
        rw [hsame] at hmoved
        exact hmoved

theorem inv_run [DecidableEq ι] {lib : Library} {w : World ι} (h : Inv w) (moves : List (Move ι)) :
    Inv (w.run lib moves) := by
  induction moves generalizing w with
  | nil => exact h
  | cons move moves ih => exact ih (h.step move)

/-! ### What the registry guarantees -/

/-- The activation is in the body of its `with` statement. -/
def World.InBody (w : World ι) (p : ι) : Prop := ∃ k, w.program p = some (.op .body k)

/-- What the registry guarantees. -/
structure Orderly (w : World ι) : Prop where
  /-- At most one activation is in the body of the `with` statement for a ref. -/
  exclusive : ∀ p q, w.InBody p → w.InBody q → w.ref p = w.ref q → p = q
  /-- It has the registered lock of its ref, which is locked, and nobody else has
  acquired a lock for the ref and not yet released it. -/
  holder : ∀ p, w.InBody p → ∃ entry, w.stage p = .inside (w.ref p) entry ∧
    w.shared.registry[w.ref p]? = some entry ∧ (w.shared.entries entry).locked = true ∧
    ∀ q entry', (w.stage q).holds? = some (w.ref p, entry') → q = p
  /-- All who have entered for a ref and not yet left have one lock. -/
  single : ∀ p q key entry entry', (w.stage p).uses? = some (key, entry) →
    (w.stage q).uses? = some (key, entry') → entry = entry'
  /-- It is the registered one, and no other ref is registered. -/
  registered : ∀ (key : String) entry,
    w.shared.registry[key]? = some entry ↔ ∃ p, (w.stage p).uses? = some (key, entry)
  counted : ∀ (key : String) entry, w.shared.registry[key]? = some entry →
    ∃ users : Finset ι, (∀ p, p ∈ users ↔ ∃ entry', (w.stage p).uses? = some (key, entry')) ∧
      (w.shared.entries entry).count = users.card
  /-- Who has entered has entered for the ref of its call. -/
  named : ∀ p key entry, (w.stage p).uses? = some (key, entry) → key = w.ref p
  /-- An activation with an operation ahead has entered, or enters with it. -/
  entering : ∀ p o k, w.program p = some (.op o k) → (w.stage p).uses? = none → o = .register (w.ref p)
  /-- An activation that has returned or raised has left. -/
  left : ∀ p, w.program p = none ∨ (∃ outcome, w.program p = some (.pure outcome)) →
    w.stage p = .outside

/-- In the body an activation holds the lock. -/
theorem Inv.inside {w : World ι} (h : Inv w) {p : ι} (hp : w.InBody p) :
    ∃ entry, w.stage p = .inside (w.ref p) entry := by
  obtain ⟨k, hk⟩ := hp
  obtain ⟨hallows, -⟩ := Follows.of_op (h.follows p _ hk)
  cases hstage : w.stage p with
  | inside key entry =>
    obtain rfl := h.named p key entry (by rw [hstage]; rfl)
    exact ⟨entry, rfl⟩
  | _ =>
    rw [hstage] at hallows
    cases hallows

theorem Inv.orderly {w : World ι} (h : Inv w) : Orderly w := by
  have hsingle : ∀ p q key entry entry', (w.stage p).uses? = some (key, entry) →
      (w.stage q).uses? = some (key, entry') → entry = entry' := by
    intro p q key entry entry' hp hq
    have hcur := h.consistent.current p key entry hp
    exact Option.some.inj (hcur.symm.trans (h.consistent.current q key entry' hq))
  have hsole : ∀ p q key entry entry', (w.stage p).holds? = some (key, entry) →
      (w.stage q).holds? = some (key, entry') → p = q := by
    intro p q key entry entry' hp hq
    obtain rfl := hsingle p q key entry entry' (Stage.uses_of_holds hp) (Stage.uses_of_holds hq)
    exact h.consistent.exclusive p q key entry hp hq
  constructor
  case exclusive =>
    intro p q hp hq href
    obtain ⟨entry, hinside⟩ := h.inside hp
    obtain ⟨entry', hinside'⟩ := h.inside hq
    refine hsole p q (w.ref p) entry entry' (by rw [hinside]; rfl) ?_
    rw [hinside', href]
    rfl
  case holder =>
    intro p hp
    obtain ⟨entry, hinside⟩ := h.inside hp
    have hholds : (w.stage p).holds? = some (w.ref p, entry) := by rw [hinside]; rfl
    have hcurrent := h.consistent.current p _ entry (Stage.uses_of_holds hholds)
    refine ⟨entry, hinside, hcurrent, (h.consistent.held _ entry hcurrent).mpr ⟨p, hholds⟩, ?_⟩
    intro q entry' hq
    exact hsole q p _ entry' entry hq hholds
  case single => exact hsingle
  case registered =>
    intro key entry
    constructor
    · intro hentry
      obtain ⟨users, ⟨p, hp⟩, hmem, -⟩ := h.consistent.counted key entry hentry
      exact ⟨p, (hmem p).mp hp⟩
    · rintro ⟨p, hp⟩
      exact h.consistent.current p key entry hp
  case counted =>
    intro key entry hentry
    obtain ⟨users, -, hmem, hcount⟩ := h.consistent.counted key entry hentry
    refine ⟨users, fun p => ⟨fun hp => ⟨entry, (hmem p).mp hp⟩, ?_⟩, hcount⟩
    rintro ⟨entry', hp⟩
    have hcur := h.consistent.current p key entry' hp
    obtain rfl := Option.some.inj (hentry.symm.trans hcur)
    exact (hmem p).mpr hp
  case named => exact h.named
  case entering =>
    intro p o k hk hnone
    obtain ⟨hallows, -⟩ := Follows.of_op (h.follows p _ hk)
    cases hstage : w.stage p with
    | outside =>
      rw [hstage] at hallows
      cases o with
      | register key => exact congrArg Op.register hallows
      | _ => cases hallows
    | _ =>
      rw [hstage] at hnone
      cases hnone
  case left =>
    rintro p (hnone | ⟨outcome, hsome⟩)
    · exact h.idle p hnone
    · have := Follows.of_pure (h.follows p _ hsome)
      cases outcome <;> exact this

/-- **The submission locks**: whatever activations do, in whatever order, for
whatever refs, wherever they are interrupted or their bodies raise, one ref has
at most one activation in its body and one lock, and the registry lists the locks
in use with the number of their users. -/
theorem submission_lock_registry [DecidableEq ι] (lib : Library) (moves : List (Move ι)) :
    Orderly ((World.start ι).run lib moves) :=
  (inv_run inv_start moves).orderly

end Submission

end KaggleRelay

/-
Request pacing that processes share.

The table `accounts` holds, for each owner, the start of the next free slot and
the end of the cooldown.  Every verification child reserves a slot in it before
it sends a request to Kaggle, and puts a cooldown into it when it is told 429.

* `cooldown`, `cooldownRemaining`, `reserveRequest`, `beforeRequest`, `send` —
  the code, one operation at a time;
* `Pacing.World` — any number of processes over one table and one clock that
  does not run backwards, and a record of all that they did;
* `Pacing.Justified` — what an event has to be preceded by;
* `pacing` — every event of every interleaving is justified, cooldowns only
  grow, and a refusal changes nothing.
-/
import Mathlib.Tactic.Linarith
import KaggleRelay.Dict
import KaggleRelay.FileVerification
import KaggleRelay.Protocol

namespace KaggleRelay

open Effects

/-! ### The table -/

/-- A row of `accounts`. -/
structure Account where
  nextRequestAt : ℚ
  cooldownUntil : ℚ
  deriving DecidableEq

/-- The defaults of the columns. -/
def Account.default : Account := ⟨0, 0⟩

/-- The table `accounts`, by owner. -/
abbrev Accounts := Dict Account

/-- The row of an owner, or the one `INSERT OR IGNORE` would add. -/
def Accounts.row (rows : Accounts) (owner : String) : Account := rows[owner]?.getD .default

def requestIntervalSeconds : ℚ := 3 / 2

/-- `VerificationDeferred` for an account in a cooldown. -/
def accountCooldown (seconds : ℚ) : Exc :=
  ⟨.verificationDeferred seconds true, "dataset_account_cooldown: original version retained"⟩

/-- `VerificationDeferred` for an account whose next slot is too far away. -/
def accountPacing (seconds : ℚ) : Exc :=
  ⟨.verificationDeferred seconds false, "dataset_account_pacing: yielding verification slot"⟩

/-- `VerificationDeferred` for a slot after the end of the batch. -/
def budgetReached : Exc :=
  ⟨.verificationDeferred progressRecheckSeconds false,
    "dataset_verification_batch_pending: time budget reached"⟩

/-- The transaction of `cooldown`: an upsert that keeps the later end. -/
def upsertCooldown (owner : String) (until_ : ℚ) (rows : Accounts) : Accounts :=
  match rows[owner]? with
  | none => rows.insert owner { Account.default with cooldownUntil := until_ }
  | some row => rows.insert owner { row with cooldownUntil := max row.cooldownUntil until_ }

/-- The transaction of `reserve_request`.  An exception rolls all of it back,
the row it may have inserted included. -/
def reserveSlot (owner : String) (now : ℚ) (rows : Accounts) : Except Exc ℚ × Accounts :=
  let row := Accounts.row rows owner
  let delay := max 0 (row.nextRequestAt - now)
  if now < row.cooldownUntil then (.error (accountCooldown (row.cooldownUntil - now)), rows)
  else if 5 < delay then (.error (accountPacing delay), rows)
  else
    (.ok delay, rows.insert owner { row with nextRequestAt := now + delay + requestIntervalSeconds })

-- two requests at one time: the second one waits for its slot
example : (reserveSlot "ada" 10 (reserveSlot "ada" 10 ∅).2).1 = .ok (3 / 2) := by decide +kernel

/-- What a granted reservation tells. -/
theorem reserveSlot_ok {owner : String} {now delay : ℚ} {rows rows' : Accounts}
    (h : reserveSlot owner now rows = (.ok delay, rows')) :
    (Accounts.row rows owner).cooldownUntil ≤ now ∧ delay ≤ 5 ∧
      (Accounts.row rows owner).nextRequestAt ≤ now + delay ∧
      rows' = rows.insert owner
        { Accounts.row rows owner with nextRequestAt := now + delay + requestIntervalSeconds } := by
  simp only [reserveSlot] at h
  split at h
  · simp at h
  next hcooldown =>
  split at h
  · simp at h
  next hdelay =>
  simp only [Prod.mk.injEq, Except.ok.injEq] at h
  obtain ⟨rfl, rfl⟩ := h
  refine ⟨not_lt.mp hcooldown, not_lt.mp hdelay, ?_, rfl⟩
  linarith [le_max_right 0 ((Accounts.row rows owner).nextRequestAt - now)]

/-- A refused reservation leaves the table alone. -/
theorem reserveSlot_error {owner : String} {now : ℚ} {e : Exc} {rows rows' : Accounts}
    (h : reserveSlot owner now rows = (.error e, rows')) : rows' = rows := by
  simp only [reserveSlot] at h
  split at h
  · exact (Prod.mk.inj h).2.symm
  split at h
  · exact (Prod.mk.inj h).2.symm
  · simp at h

/-- No row disappears, no slot is given back and no cooldown shortened. -/
def Grows (rows rows' : Accounts) : Prop :=
  ∀ (owner : String) row, rows[owner]? = some row → ∃ row', rows'[owner]? = some row' ∧
    row.nextRequestAt ≤ row'.nextRequestAt ∧ row.cooldownUntil ≤ row'.cooldownUntil

theorem Grows.refl (rows : Accounts) : Grows rows rows :=
  fun _ row h => ⟨row, h, le_rfl, le_rfl⟩

theorem Grows.trans {rows rows' rows'' : Accounts} (h : Grows rows rows') (h' : Grows rows' rows'') :
    Grows rows rows'' := by
  intro owner row hrow
  obtain ⟨row', hrow', hnext, hcooldown⟩ := h owner row hrow
  obtain ⟨row'', hrow'', hnext', hcooldown'⟩ := h' owner row' hrow'
  exact ⟨row'', hrow'', hnext.trans hnext', hcooldown.trans hcooldown'⟩

/-- A new row for one owner grows the table if it grows the old one. -/
theorem grows_insert {rows : Accounts} {owner : String} {account : Account}
    (h : ∀ row, rows[owner]? = some row →
      row.nextRequestAt ≤ account.nextRequestAt ∧ row.cooldownUntil ≤ account.cooldownUntil) :
    Grows rows (rows.insert owner account) := by
  intro other row hrow
  by_cases heq : owner = other
  · subst heq
    exact ⟨account, by simp, h row hrow⟩
  · refine ⟨row, ?_, le_rfl, le_rfl⟩
    rw [Std.ExtTreeMap.getElem?_insert, if_neg (by simpa using heq), hrow]

theorem grows_upsertCooldown (owner : String) (until_ : ℚ) (rows : Accounts) :
    Grows rows (upsertCooldown owner until_ rows) := by
  unfold upsertCooldown
  split
  · next hnone => exact grows_insert fun row hrow => by simp [hnone] at hrow
  · next row' hsome =>
    refine grows_insert fun row hrow => ?_
    obtain rfl : row' = row := Option.some.inj (hsome.symm.trans hrow)
    exact ⟨le_rfl, le_max_left _ _⟩

theorem grows_reserveSlot (owner : String) (now : ℚ) (rows : Accounts) :
    Grows rows (reserveSlot owner now rows).2 := by
  obtain ⟨outcome, rows', h⟩ : ∃ outcome rows', reserveSlot owner now rows = (outcome, rows') :=
    ⟨_, _, rfl⟩
  rw [h]
  cases outcome with
  | error e => exact reserveSlot_error h ▸ Grows.refl rows
  | ok delay =>
    obtain ⟨-, -, hnext, rfl⟩ := reserveSlot_ok h
    refine grows_insert fun row hrow => ?_
    have hdefault : Accounts.row rows owner = row := by rw [Accounts.row, hrow, Option.getD_some]
    rw [hdefault] at hnext ⊢
    refine ⟨?_, le_rfl⟩
    have : (0 : ℚ) ≤ requestIntervalSeconds := by norm_num [requestIntervalSeconds]
    linarith

/-- The cooldown an upsert records is in the table. -/
theorem upsertCooldown_covers (owner : String) (until_ : ℚ) (rows : Accounts) :
    ∃ row, (upsertCooldown owner until_ rows)[owner]? = some row ∧ until_ ≤ row.cooldownUntil := by
  unfold upsertCooldown
  split
  · exact ⟨_, Std.ExtTreeMap.getElem?_insert_self, le_rfl⟩
  · exact ⟨_, Std.ExtTreeMap.getElem?_insert_self, le_max_right _ _⟩

/-! ### Programs -/

namespace Pacing

/-- A response, its `Retry-After` as `retry_after_seconds` reads it. -/
structure Response where
  statusCode : ℕ
  retryAfter : Option ℚ
  deriving DecidableEq

/-- What a paced process does to the outside. -/
inductive Op where
  /-- How many turns an endless loop gets. -/
  | turns
  /-- `time.time()`. -/
  | time
  /-- `time.monotonic()`. -/
  | monotonic
  /-- The `check` callback of the gate. -/
  | check
  | sleep (seconds : ℚ)
  | reserve (owner : String) (now : ℚ)
  | upsert (owner : String) (until_ : ℚ)
  /-- `SELECT cooldown_until`. -/
  | select (owner : String)
  /-- The original `send`, of a request to a Kaggle host or not. -/
  | request (owner : String) (paced : Bool)

/-- The answers. -/
def Op.Res : Op → Type
  | .turns => ℕ
  | .time => ℚ
  | .monotonic => ℚ
  | .check => Except Exc Unit
  | .sleep _ => Unit
  | .reserve _ _ => Except Exc ℚ
  | .upsert _ _ => Unit
  | .select _ => Option ℚ
  | .request _ _ => Except Exc Response

def Sig : Effects.Sig := ⟨Op, Op.Res⟩

/-- Programs of a paced process. -/
abbrev Paced (α : Type) := Eff Sig Exc α

def turns : Paced ℕ := Eff.perform (S := Sig) .turns
def time : Paced ℚ := Eff.perform (S := Sig) .time
def monotonic : Paced ℚ := Eff.perform (S := Sig) .monotonic
def check : Paced Unit := Prog.perform (S := Sig) .check
def sleep (seconds : ℚ) : Paced Unit := Eff.perform (S := Sig) (.sleep seconds)
def reserve (owner : String) (now : ℚ) : Paced ℚ := Prog.perform (S := Sig) (.reserve owner now)
def upsert (owner : String) (until_ : ℚ) : Paced Unit := Eff.perform (S := Sig) (.upsert owner until_)
def select (owner : String) : Paced (Option ℚ) := Eff.perform (S := Sig) (.select owner)
def request (owner : String) (paced : Bool) : Paced Response :=
  Prog.perform (S := Sig) (.request owner paced)

/-- `VerificationStore.cooldown`. -/
def cooldown (owner : String) (seconds : ℚ) : Paced Unit := do
  let now ← time
  upsert owner (now + max 0 seconds)

/-- `VerificationStore.cooldown_remaining`: the clock is read after the row, and
only where there is one. -/
def cooldownRemaining (owner : String) : Paced ℚ := do
  match ← select owner with
  | none => pure 0
  | some until_ => do
    let now ← time
    pure (max 0 (until_ - now))

/-- `VerificationStore.reserve_request`. -/
def reserveRequest (owner : String) : Paced ℚ := do
  let now ← time
  reserve owner now

/-- `DatasetRequestGate`, its `check` apart. -/
structure DatasetRequestGate where
  owner : String
  deadline : Option ℚ
  deriving DecidableEq

/-- The loop that waits for the slot. -/
def waitForSlot (until_ : ℚ) : ℕ → Paced Unit
  | 0 => Eff.hang
  | n + 1 => do
    let now ← monotonic
    if now < until_ then do
      check
      let now ← monotonic
      sleep (min (1 / 5) (max 0 (until_ - now)))
      waitForSlot until_ n
    else pure ()

/-- `DatasetRequestGate.before_request`. -/
def DatasetRequestGate.beforeRequest (gate : DatasetRequestGate) : Paced Unit := do
  check
  let delay ← reserveRequest gate.owner
  match gate.deadline with
  | none => pure ()
  | some deadline => do
    let now ← monotonic
    Eff.raiseIf (deadline ≤ now + delay) budgetReached
  let now ← monotonic
  let n ← turns
  waitForSlot (now + delay) n
  check
  -- a different worker may have been told 429 after this reservation
  let remaining ← cooldownRemaining gate.owner
  Eff.raiseIf (remaining ≠ 0) (accountCooldown remaining)

/-- `retry_after_seconds(...) or 60`. -/
def Response.cooldownSeconds (r : Response) : ℚ :=
  match r.retryAfter with
  | none => 60
  | some seconds => if seconds = 0 then 60 else seconds

/-- `send` of `verification_request_timeouts`, with a gate. -/
def DatasetRequestGate.send (gate : DatasetRequestGate) (paced : Bool) : Paced Unit := do
  if paced then gate.beforeRequest else check
  let response ← request gate.owner paced
  if paced ∧ response.statusCode = 429 then cooldown gate.owner response.cooldownSeconds
  else pure ()

/-! ### Processes -/

/-- The calls of the store and of a gate. -/
inductive Call where
  | reserveRequest (owner : String)
  | cooldown (owner : String) (seconds : ℚ)
  | beforeRequest (gate : DatasetRequestGate)
  | send (gate : DatasetRequestGate) (paced : Bool)
  deriving DecidableEq

/-- The code of a call; only a reservation returns a value. -/
def Call.program : Call → Paced (Option ℚ)
  | .reserveRequest owner => do
    let delay ← Pacing.reserveRequest owner
    pure (some delay)
  | .cooldown owner seconds => do
    Pacing.cooldown owner seconds
    pure none
  | .beforeRequest gate => do
    gate.beforeRequest
    pure none
  | .send gate paced => do
    gate.send paced
    pure none

/-- An operation with its answer. -/
abbrev Done := (o : Op) × o.Res

/-- What happens in an interleaving. -/
inductive Event (ι : Type) where
  | called (p : ι) (call : Call)
  /-- An operation, and what the clock showed then. -/
  | performed (p : ι) (done : Done) (clock : ℚ)
  | returned (p : ι) (call : Call) (outcome : Except Exc (Option ℚ))

/-- Who did it. -/
def Event.process {ι : Type} : Event ι → ι
  | .called p _ => p
  | .performed p _ _ => p
  | .returned p _ _ => p

/-- Processes over one table and one clock.  The trace has the last event
first. -/
structure World (ι : Type) where
  clock : ℚ
  accounts : Accounts
  /-- The call a process is in, and what is left of its program. -/
  process : ι → Option (Call × Paced (Option ℚ))
  trace : List (Event ι)

/-- No process in a call yet. -/
def World.start {ι : Type} (clock : ℚ) (accounts : Accounts) : World ι where
  clock := clock
  accounts := accounts
  process := fun _ => none
  trace := []

/-- What the outside would answer where it has a choice. -/
structure Choice where
  turns : ℕ
  monotonic : ℚ
  check : Except Exc Unit
  response : Except Exc Response

variable (lib : Library)

/-- An operation on the table; every access folds the case of the owner. -/
def Op.answer (choice : Choice) (clock : ℚ) (rows : Accounts) : (o : Op) → o.Res × Accounts
  | .turns => (choice.turns, rows)
  | .time => (clock, rows)
  | .monotonic => (choice.monotonic, rows)
  | .check => (choice.check, rows)
  | .sleep _ => ((), rows)
  | .reserve owner now => reserveSlot (lib.casefold owner) now rows
  | .upsert owner until_ => ((), upsertCooldown (lib.casefold owner) until_ rows)
  | .select owner => (rows[lib.casefold owner]?.map Account.cooldownUntil, rows)
  | .request _ _ => (choice.response, rows)

/-- A move: time passes, a process begins a call, or it goes on with the one it
is in. -/
inductive Move (ι : Type) where
  | tick (elapsed : ℚ)
  | call (p : ι) (call : Call)
  | resume (p : ι) (choice : Choice)

variable {ι : Type}

section Steps

variable [DecidableEq ι]

/-- A move that is not possible changes nothing. -/
def World.step (w : World ι) : Move ι → World ι
  | .tick elapsed => { w with clock := w.clock + max 0 elapsed }
  | .call p call =>
    match w.process p with
    | some _ => w
    | none => { w with
        process := Function.update w.process p (some (call, call.program))
        trace := .called p call :: w.trace }
  | .resume p choice =>
    match w.process p with
    | none => w
    | some (call, .pure outcome) => { w with
        process := Function.update w.process p none
        trace := .returned p call outcome :: w.trace }
    | some (_, .stuck) => w
    | some (call, .op o k) =>
      let answer := o.answer lib choice w.clock w.accounts
      { w with
        accounts := answer.2
        process := Function.update w.process p (some (call, k answer.1))
        trace := .performed p ⟨o, answer.1⟩ w.clock :: w.trace }

/-- A whole interleaving. -/
def World.run (w : World ι) (moves : List (Move ι)) : World ι := moves.foldl (World.step lib) w

end Steps

/-! ### What an event has to be preceded by -/

/-- The owner, the reading and the delay of a granted reservation. -/
def Event.grant? : Event ι → Option (String × ℚ × ℚ)
  | .performed _ ⟨.reserve owner now, .ok delay⟩ _ => some (owner, now, delay)
  | _ => none

/-- The owner and the end of a recorded cooldown. -/
def Event.cooldown? : Event ι → Option (String × ℚ)
  | .performed _ ⟨.upsert owner until_, _⟩ _ => some (owner, until_)
  | _ => none

/-- A reservation may be granted: the reading is not from the future, the delay
is short, every earlier slot of the owner lies an interval before this one, and
every earlier cooldown of the owner is over. -/
structure Granted (owner : String) (now delay clock : ℚ) (earlier : List (Event ι)) : Prop where
  read : now ≤ clock
  short : delay ≤ 5
  spaced : ∀ e ∈ earlier, ∀ owner' now' delay', e.grant? = some (owner', now', delay') →
    lib.casefold owner' = lib.casefold owner →
    now' + delay' + requestIntervalSeconds ≤ now + delay
  cooled : ∀ e ∈ earlier, ∀ owner' until_, e.cooldown? = some (owner', until_) →
    lib.casefold owner' = lib.casefold owner → until_ ≤ now

/-- What a look at the cooldown has to show. -/
def Selected (owner : String) (row : Option ℚ) (earlier : List (Event ι)) : Prop :=
  ∀ e ∈ earlier, ∀ owner' until_, e.cooldown? = some (owner', until_) →
    lib.casefold owner' = lib.casefold owner → ∃ end_, row = some end_ ∧ until_ ≤ end_

/-- The process has looked at the cooldown last, apart from reading the clock
after it, and at that reading every cooldown recorded before the look, by
whatever process, was over. -/
def Checked (p : ι) (owner : String) (earlier : List (Event ι)) : Prop :=
  ∃ after row clock before,
    earlier = after ++ .performed p ⟨.select owner, row⟩ clock :: before ∧
    (∀ e ∈ after, e.process = p → ∃ t at_, e = .performed p ⟨.time, t⟩ at_) ∧
    ∀ e ∈ before, ∀ owner' until_, e.cooldown? = some (owner', until_) →
      lib.casefold owner' = lib.casefold owner →
      ∃ t at_, .performed p ⟨.time, t⟩ at_ ∈ after ∧ until_ ≤ t

/-- Whether an event is justified by the ones before it. -/
def Justified (earlier : List (Event ι)) : Event ι → Prop
  | .performed _ ⟨.time, t⟩ clock => t = clock
  | .performed _ ⟨.reserve owner now, .ok delay⟩ clock => Granted lib owner now delay clock earlier
  | .performed _ ⟨.select owner, row⟩ _ => Selected lib owner row earlier
  | .performed p ⟨.request owner true, _⟩ _ => Checked lib p owner earlier
  | .returned p (.beforeRequest gate) (.ok _) => Checked lib p gate.owner earlier
  | _ => True

/-- Every event is justified. -/
def Sound (trace : List (Event ι)) : Prop :=
  ∀ later e earlier, trace = later ++ e :: earlier → Justified lib earlier e

variable {lib}

theorem sound_nil : Sound lib ([] : List (Event ι)) := by
  intro later e earlier h
  simp at h

theorem Sound.cons {e : Event ι} {trace : List (Event ι)} (h : Sound lib trace)
    (he : Justified lib trace e) : Sound lib (e :: trace) := by
  intro later e' earlier heq
  cases later with
  | nil =>
    obtain ⟨rfl, rfl⟩ := List.cons.inj heq
    exact he
  | cons x later => exact h later e' earlier (List.cons.inj heq).2

/-! ### What a process has done in its call -/

variable [DecidableEq ι]

/-- The operations of a process since it began its call, the last one first. -/
def history (p : ι) : List (Event ι) → List Done
  | [] => []
  | .called q _ :: earlier => if q = p then [] else history p earlier
  | .performed q done _ :: earlier =>
    if q = p then done :: history p earlier else history p earlier
  | .returned q _ _ :: earlier => if q = p then [] else history p earlier

theorem history_cons_of_ne {p : ι} {e : Event ι} {trace : List (Event ι)} (h : e.process ≠ p) :
    history p (e :: trace) = history p trace := by
  cases e <;> exact if_neg h

/-- The last operation of a call, found in the trace. -/
theorem exists_of_history {p : ι} {done : Done} {rest : List Done} {trace : List (Event ι)}
    (h : history p trace = done :: rest) :
    ∃ after clock before, trace = after ++ .performed p done clock :: before ∧
      (∀ e ∈ after, e.process ≠ p) ∧ history p before = rest := by
  induction trace with
  | nil => simp [history] at h
  | cons e trace ih =>
    by_cases hp : e.process = p
    · cases e with
      | called q call =>
        rw [history, if_pos (show q = p from hp)] at h
        simp at h
      | returned q call outcome =>
        rw [history, if_pos (show q = p from hp)] at h
        simp at h
      | performed q done' clock =>
        obtain rfl : q = p := hp
        rw [history, if_pos rfl] at h
        obtain ⟨rfl, rfl⟩ := List.cons.inj h
        exact ⟨[], clock, trace, rfl, by simp, rfl⟩
    · rw [history_cons_of_ne hp] at h
      obtain ⟨after, clock, before, rfl, hafter, hrest⟩ := ih h
      refine ⟨e :: after, clock, before, rfl, ?_, hrest⟩
      rintro e' (_ | ⟨_, he'⟩)
      · exact hp
      · exact hafter e' he'

/-- The final check of a call: a look at the cooldown that found no row, or a
cooldown that is over at the reading taken next. -/
def Passed (owner : String) (done : List Done) : Prop :=
  (∃ rest, done = ⟨.select owner, none⟩ :: rest) ∨
  ∃ t end_ rest, done = ⟨.time, t⟩ :: ⟨.select owner, some end_⟩ :: rest ∧ end_ ≤ t

/-- A call that has passed its final check has looked and seen no cooldown. -/
theorem Sound.checked {p : ι} {owner : String} {trace : List (Event ι)} (h : Sound lib trace)
    (hp : Passed owner (history p trace)) : Checked lib p owner trace := by
  obtain ⟨rest, hdone⟩ | ⟨t, end_, rest, hdone, hle⟩ := hp
  · obtain ⟨after, clock, before, rfl, hafter, -⟩ := exists_of_history hdone
    refine ⟨after, none, clock, before, rfl, fun e he hep => (hafter e he hep).elim, ?_⟩
    intro e he owner' until_ hc hfold
    -- no row, so no cooldown had been recorded
    obtain ⟨_, hrow, -⟩ := h _ _ _ rfl e he owner' until_ hc hfold
    simp at hrow
  · obtain ⟨after, clock, before, rfl, hafter, hrest⟩ := exists_of_history hdone
    obtain ⟨mid, clock', before, rfl, hmid, -⟩ := exists_of_history hrest
    refine ⟨after ++ .performed p ⟨.time, t⟩ clock :: mid, some end_, clock', before, by simp, ?_, ?_⟩
    · intro e he hep
      rcases List.mem_append.mp he with he | he
      · exact (hafter e he hep).elim
      · rcases List.mem_cons.mp he with rfl | he
        · exact ⟨t, clock, rfl⟩
        · exact (hmid e he hep).elim
    · intro e he owner' until_ hc hfold
      have hsel : Selected lib owner (some end_) before :=
        h (after ++ .performed p ⟨.time, t⟩ clock :: mid)
          (.performed p ⟨.select owner, some end_⟩ clock') before (by simp)
      obtain ⟨end', hrow, (hle' : until_ ≤ end')⟩ := hsel e he owner' until_ hc hfold
      obtain rfl : end_ = end' := by simpa using hrow
      exact ⟨t, clock, by simp, hle'.trans hle⟩

/-! ### The programs -/

/-- What a call may do, by what it has done: it reserves with a reading it has
taken, and sends a paced request right after the final check. -/
def rules : Protocol Sig (List Done) where
  allows done o := match o with
    | .reserve _ now => (⟨.time, now⟩ : Done) ∈ done
    | .request owner true => Passed owner done
    | _ => True
  answers _ _ _ := True
  after done o r := ⟨o, r⟩ :: done

/-- What a call has done when it returns. -/
def Returns (call : Call) (outcome : Except Exc (Option ℚ)) (done : List Done) : Prop :=
  match call, outcome with
  | .beforeRequest gate, .ok _ => Passed gate.owner done
  | _, _ => True

theorem follows_perform {o : Op} {done : List Done} (h : rules.allows done o) :
    Follows rules (post (fun r done' => done' = ⟨o, r⟩ :: done) (fun _ _ => True))
      (Eff.perform (S := Sig) o : Paced o.Res) done :=
  Follows.op h fun _ _ => Follows.pure rfl

theorem follows_cooldown (owner : String) (seconds : ℚ) (done : List Done) :
    Follows rules (post (fun _ _ => True) (fun _ _ => True)) (cooldown owner seconds) done := by
  refine Follows.seq (follows_perform (o := .time) trivial) fun now done' _ => ?_
  exact (follows_perform (o := .upsert ..) trivial).imp (fun _ _ _ => trivial) fun _ _ h => h

theorem follows_reserveRequest (owner : String) (done : List Done) :
    Follows rules (post (fun _ _ => True) (fun _ _ => True)) (reserveRequest owner) done := by
  refine Follows.seq (follows_perform (o := .time) trivial) ?_
  rintro now _ rfl
  -- the reservation is made with the reading just taken
  exact Follows.op (List.mem_cons_self ..) fun r _ => Follows.pure (by cases r <;> trivial)

theorem follows_waitForSlot (until_ : ℚ) (n : ℕ) (done : List Done) :
    Follows rules (post (fun _ _ => True) (fun _ _ => True)) (waitForSlot until_ n) done := by
  induction n generalizing done with
  | zero => exact Follows.stuck
  | succ n ih =>
    refine Follows.seq (follows_perform (o := .monotonic) trivial) fun now done₁ _ => ?_
    refine Follows.ite (fun _ => ?_) fun _ => Follows.pure trivial
    refine Follows.seq (Q := fun _ _ => True) ?_ fun _ done₂ _ => ?_
    · exact Follows.op trivial fun r _ => Follows.pure (by cases r <;> trivial)
    · refine Follows.seq (follows_perform (o := .monotonic) trivial) fun now' done₃ _ => ?_
      refine Follows.seq (follows_perform (o := .sleep _) trivial) fun _ done₄ _ => ?_
      exact ih done₄

theorem follows_check (done : List Done) :
    Follows rules (post (fun _ _ => True) (fun _ _ => True)) check done :=
  Follows.op trivial fun r _ => Follows.pure (by cases r <;> trivial)

/-- The look at the cooldown is the last thing a call does that goes on after
it. -/
theorem follows_cooldownRemaining (owner : String) (done : List Done) :
    Follows rules (post (fun remaining done => remaining = 0 → Passed owner done) (fun _ _ => True))
      (cooldownRemaining owner) done := by
  refine Follows.seq (follows_perform (o := .select owner) trivial) ?_
  rintro (_ | end_) _ rfl
  · exact Follows.pure fun _ => Or.inl ⟨done, rfl⟩
  · refine Follows.seq (follows_perform (o := .time) trivial) ?_
    rintro t _ rfl
    refine Follows.pure fun h => Or.inr ⟨t, end_, done, rfl, ?_⟩
    have : end_ - t ≤ 0 := max_eq_left_iff.mp h
    exact sub_nonpos.mp this

theorem follows_beforeRequest (gate : DatasetRequestGate) (done : List Done) :
    Follows rules (post (fun _ done => Passed gate.owner done) (fun _ _ => True))
      gate.beforeRequest done := by
  refine Follows.seq (follows_check done) fun _ done₁ _ => ?_
  refine Follows.seq (follows_reserveRequest gate.owner done₁) fun delay done₂ _ => ?_
  have hrest : ∀ done₃, Follows rules (post (fun _ done => Passed gate.owner done) (fun _ _ => True))
      (do
        let now ← monotonic
        let n ← turns
        waitForSlot (now + delay) n
        check
        let remaining ← cooldownRemaining gate.owner
        Eff.raiseIf (remaining ≠ 0) (accountCooldown remaining) : Paced Unit) done₃ := by
    intro done₃
    refine Follows.seq (follows_perform (o := .monotonic) trivial) fun now done₄ _ => ?_
    refine Follows.seq (follows_perform (o := .turns) trivial) fun n done₅ _ => ?_
    refine Follows.seq (follows_waitForSlot _ n done₅) fun _ done₆ _ => ?_
    refine Follows.seq (follows_check done₆) fun _ done₇ _ => ?_
    refine Follows.seq (follows_cooldownRemaining gate.owner done₇) fun remaining done₈ hpassed => ?_
    refine (Follows.raiseIf fun _ => trivial).imp ?_ fun _ _ h => h
    rintro _ _ ⟨hzero, rfl⟩
    exact hpassed (not_not.mp hzero)
  obtain ⟨owner, _ | deadline⟩ := gate
  · exact hrest done₂
  · refine Follows.seq (follows_perform (o := .monotonic) trivial) fun now done₃ _ => ?_
    exact Follows.seq (Follows.raiseIf fun _ => trivial) fun _ done₄ _ => hrest done₄

theorem follows_send (gate : DatasetRequestGate) (paced : Bool) (done : List Done) :
    Follows rules (post (fun _ _ => True) (fun _ _ => True)) (gate.send paced) done := by
  have hrest : ∀ done', (paced = true → Passed gate.owner done') →
      Follows rules (post (fun _ _ => True) (fun _ _ => True)) (do
        let response ← request gate.owner paced
        if paced ∧ response.statusCode = 429 then cooldown gate.owner response.cooldownSeconds
        else pure () : Paced Unit) done' := by
    intro done' hpassed
    refine Follows.seq (Q := fun _ _ => True) ?_ fun response done'' _ => ?_
    · refine Follows.op ?_ fun r _ => Follows.pure (by cases r <;> trivial)
      cases paced with
      | false => trivial
      | true => exact hpassed rfl
    · exact Follows.ite (fun _ => follows_cooldown ..) fun _ => Follows.pure trivial
  cases paced with
  | false => exact Follows.seq (follows_check done) fun _ done' _ => hrest done' (by rintro ⟨⟩)
  | true => exact Follows.seq (follows_beforeRequest gate done) fun _ done' h => hrest done' fun _ => h

/-- Every call keeps to the rules. -/
theorem follows_program (call : Call) : Follows rules (Returns call) call.program [] := by
  cases call with
  | reserveRequest owner =>
    refine Follows.mono (Follows.seq (follows_reserveRequest owner []) (R := fun _ _ => True)
      fun delay done _ => Follows.pure trivial) ?_
    exact fun _ _ _ => trivial
  | cooldown owner seconds =>
    refine Follows.mono (Follows.seq (follows_cooldown owner seconds []) (R := fun _ _ => True)
      fun _ done _ => Follows.pure trivial) ?_
    exact fun _ _ _ => trivial
  | beforeRequest gate =>
    refine Follows.mono (Follows.seq (follows_beforeRequest gate [])
      (R := fun _ done => Passed gate.owner done) fun _ done h => Follows.pure h) ?_
    rintro (e | value) done h
    · trivial
    · exact h
  | send gate paced =>
    refine Follows.mono (Follows.seq (follows_send gate paced []) (R := fun _ _ => True)
      fun _ done _ => Follows.pure trivial) ?_
    exact fun _ _ _ => trivial

/-! ### Interleavings -/

theorem grows_answer (choice : Choice) (clock : ℚ) (rows : Accounts) (o : Op) :
    Grows rows (o.answer lib choice clock rows).2 := by
  cases o with
  | reserve owner now => exact grows_reserveSlot _ now rows
  | upsert owner until_ => exact grows_upsertCooldown _ until_ rows
  | _ => exact Grows.refl rows

/-- What holds in every world: the trace is justified, the table covers what the
trace says, and every process keeps to the rules. -/
structure Inv (lib : Library) (w : World ι) : Prop where
  sound : Sound lib w.trace
  slots : ∀ e ∈ w.trace, ∀ owner now delay, e.grant? = some (owner, now, delay) →
    ∃ row, w.accounts[lib.casefold owner]? = some row ∧
      now + delay + requestIntervalSeconds ≤ row.nextRequestAt
  cooldowns : ∀ e ∈ w.trace, ∀ owner until_, e.cooldown? = some (owner, until_) →
    ∃ row, w.accounts[lib.casefold owner]? = some row ∧ until_ ≤ row.cooldownUntil
  readings : ∀ p t clock, .performed p ⟨.time, t⟩ clock ∈ w.trace → (t : ℚ) ≤ w.clock
  programs : ∀ p call rest, w.process p = some (call, rest) →
    Follows rules (Returns call) rest (history p w.trace)

theorem inv_start (clock : ℚ) (accounts : Accounts) : Inv lib (World.start clock accounts : World ι) where
  sound := sound_nil
  slots := by simp [World.start]
  cooldowns := by simp [World.start]
  readings := by simp [World.start]
  programs := by simp [World.start]

theorem mem_of_mem_history {p : ι} {done : Done} {trace : List (Event ι)}
    (h : done ∈ history p trace) : ∃ clock, .performed p done clock ∈ trace := by
  induction trace with
  | nil => simp [history] at h
  | cons e trace ih =>
    by_cases hp : e.process = p
    · cases e with
      | called q call =>
        rw [history, if_pos (show q = p from hp)] at h
        simp at h
      | returned q call outcome =>
        rw [history, if_pos (show q = p from hp)] at h
        simp at h
      | performed q done' clock =>
        obtain rfl : q = p := hp
        rw [history, if_pos rfl] at h
        obtain rfl | h := List.mem_cons.mp h
        · exact ⟨clock, List.mem_cons_self ..⟩
        · obtain ⟨clock', h'⟩ := ih h
          exact ⟨clock', List.mem_cons_of_mem _ h'⟩
    · rw [history_cons_of_ne hp] at h
      obtain ⟨clock, h'⟩ := ih h
      exact ⟨clock, List.mem_cons_of_mem _ h'⟩

/-- An operation the rules allow is justified by what came before it. -/
theorem Inv.justified {w : World ι} (h : Inv lib w) {p : ι} {o : Op}
    (hallows : rules.allows (history p w.trace) o) (choice : Choice) :
    Justified lib w.trace (.performed p ⟨o, (o.answer lib choice w.clock w.accounts).1⟩ w.clock) := by
  cases o with
  | time => rfl
  | reserve owner now =>
    obtain ⟨outcome, rows', hslot⟩ : ∃ outcome rows',
        reserveSlot (lib.casefold owner) now w.accounts = (outcome, rows') := ⟨_, _, rfl⟩
    simp only [Op.answer, hslot]
    cases outcome with
    | error e => trivial
    | ok delay =>
      obtain ⟨hcooldown, hdelay, hnext, -⟩ := reserveSlot_ok hslot
      obtain ⟨clock, hread⟩ := mem_of_mem_history hallows
      refine ⟨h.readings p now clock hread, hdelay, ?_, ?_⟩
      · intro e he owner' now' delay' hgrant hfold
        obtain ⟨row, hrow, hslot'⟩ := h.slots e he owner' now' delay' hgrant
        rw [hfold] at hrow
        rw [Accounts.row, hrow, Option.getD_some] at hnext
        exact hslot'.trans hnext
      · intro e he owner' until_ hc hfold
        obtain ⟨row, hrow, huntil⟩ := h.cooldowns e he owner' until_ hc
        rw [hfold] at hrow
        rw [Accounts.row, hrow, Option.getD_some] at hcooldown
        exact huntil.trans hcooldown
  | select owner =>
    intro e he owner' until_ hc hfold
    obtain ⟨row, hrow, huntil⟩ := h.cooldowns e he owner' until_ hc
    rw [hfold] at hrow
    exact ⟨row.cooldownUntil, by simp [Op.answer, hrow], huntil⟩
  | request owner paced =>
    cases paced with
    | false => trivial
    | true => exact h.sound.checked hallows
  | _ => trivial

/-- An operation keeps the invariant. -/
theorem Inv.perform {w : World ι} (h : Inv lib w) {p : ι} {call : Call} {o : Op}
    {k : o.Res → Paced (Option ℚ)} (hp : w.process p = some (call, .op o k)) (choice : Choice) :
    Inv lib (w.step lib (.resume p choice)) := by
  obtain ⟨hallows, hk⟩ := (h.programs p call _ hp).of_op
  have hgrows : Grows w.accounts (o.answer lib choice w.clock w.accounts).2 :=
    grows_answer choice w.clock w.accounts o
  have hstep : w.step lib (.resume p choice) = { w with
      accounts := (o.answer lib choice w.clock w.accounts).2
      process := Function.update w.process p
        (some (call, k (o.answer lib choice w.clock w.accounts).1))
      trace := .performed p ⟨o, (o.answer lib choice w.clock w.accounts).1⟩ w.clock :: w.trace } := by
    simp only [World.step, hp]
  rw [hstep]
  refine ⟨h.sound.cons (h.justified hallows choice), ?_, ?_, ?_, ?_⟩
  · rintro e he owner now delay hgrant
    rcases List.mem_cons.mp he with rfl | he
    · -- the slot just granted ends where the next one may start
      cases o with
      | reserve owner' now' =>
        obtain ⟨outcome, rows', hslot⟩ : ∃ outcome rows',
            reserveSlot (lib.casefold owner') now' w.accounts = (outcome, rows') := ⟨_, _, rfl⟩
        simp only [Op.answer, hslot] at hgrant ⊢
        cases outcome with
        | error e => simp [Event.grant?] at hgrant
        | ok delay' =>
          simp only [Event.grant?, Option.some.injEq, Prod.mk.injEq] at hgrant
          obtain ⟨rfl, rfl, rfl⟩ := hgrant
          obtain ⟨-, -, -, rfl⟩ := reserveSlot_ok hslot
          exact ⟨_, Std.ExtTreeMap.getElem?_insert_self, le_rfl⟩
      | _ => simp [Event.grant?] at hgrant
    · obtain ⟨row, hrow, hslot⟩ := h.slots e he owner now delay hgrant
      obtain ⟨row', hrow', hnext, -⟩ := hgrows _ row hrow
      exact ⟨row', hrow', hslot.trans hnext⟩
  · rintro e he owner until_ hc
    rcases List.mem_cons.mp he with rfl | he
    · cases o with
      | upsert owner' until' =>
        simp only [Event.cooldown?, Option.some.injEq, Prod.mk.injEq] at hc
        obtain ⟨rfl, rfl⟩ := hc
        exact upsertCooldown_covers _ _ w.accounts
      | _ => simp [Event.cooldown?] at hc
    · obtain ⟨row, hrow, huntil⟩ := h.cooldowns e he owner until_ hc
      obtain ⟨row', hrow', -, hcooldown⟩ := hgrows _ row hrow
      exact ⟨row', hrow', huntil.trans hcooldown⟩
  · rintro q t clock he
    rcases List.mem_cons.mp he with heq | he
    · simp only [Event.performed.injEq] at heq
      obtain ⟨rfl, hdone, rfl⟩ := heq
      obtain ⟨rfl, hr⟩ := Sigma.mk.inj hdone
      exact le_of_eq (eq_of_heq hr)
    · exact h.readings q t clock he
  · rintro q call' rest hq
    by_cases hqp : q = p
    · subst hqp
      simp only [Function.update_self, Option.some.injEq, Prod.mk.injEq] at hq
      obtain ⟨rfl, rfl⟩ := hq
      rw [history, if_pos rfl]
      exact hk _ trivial
    · simp only [Function.update_of_ne hqp] at hq
      rw [history, if_neg (Ne.symm hqp)]
      exact h.programs q call' rest hq

/-- The return of a call keeps the invariant. -/
theorem Inv.return {w : World ι} (h : Inv lib w) {p : ι} {call : Call}
    {outcome : Except Exc (Option ℚ)} (hp : w.process p = some (call, .pure outcome))
    (choice : Choice) : Inv lib (w.step lib (.resume p choice)) := by
  have hreturns : Returns call outcome (history p w.trace) := (h.programs p call _ hp).of_pure
  have hstep : w.step lib (.resume p choice) = { w with
      process := Function.update w.process p none
      trace := .returned p call outcome :: w.trace } := by
    simp only [World.step, hp]
  rw [hstep]
  refine ⟨h.sound.cons ?_, ?_, ?_, ?_, ?_⟩
  · cases call with
    | beforeRequest gate =>
      cases outcome with
      | error e => trivial
      | ok value => exact h.sound.checked hreturns
    | _ => trivial
  · rintro e (_ | ⟨_, he⟩) owner now delay hgrant
    · simp [Event.grant?] at hgrant
    · exact h.slots e he owner now delay hgrant
  · rintro e (_ | ⟨_, he⟩) owner until_ hc
    · simp [Event.cooldown?] at hc
    · exact h.cooldowns e he owner until_ hc
  · rintro q t clock (_ | ⟨_, he⟩)
    exact h.readings q t clock he
  · rintro q call' rest hq
    by_cases hqp : q = p
    · subst hqp
      simp at hq
    · simp only [Function.update_of_ne hqp] at hq
      rw [history, if_neg (Ne.symm hqp)]
      exact h.programs q call' rest hq

/-- The start of a call keeps the invariant. -/
theorem Inv.call {w : World ι} (h : Inv lib w) (p : ι) (call : Call) :
    Inv lib (w.step lib (.call p call)) := by
  cases hp : w.process p with
  | some busy =>
    have hstep : w.step lib (.call p call) = w := by simp only [World.step, hp]
    rw [hstep]
    exact h
  | none =>
    have hstep : w.step lib (.call p call) = { w with
        process := Function.update w.process p (some (call, call.program))
        trace := .called p call :: w.trace } := by
      simp only [World.step, hp]
    rw [hstep]
    refine ⟨h.sound.cons trivial, ?_, ?_, ?_, ?_⟩
    · rintro e (_ | ⟨_, he⟩) owner now delay hgrant
      · simp [Event.grant?] at hgrant
      · exact h.slots e he owner now delay hgrant
    · rintro e (_ | ⟨_, he⟩) owner until_ hc
      · simp [Event.cooldown?] at hc
      · exact h.cooldowns e he owner until_ hc
    · rintro q t clock (_ | ⟨_, he⟩)
      exact h.readings q t clock he
    · rintro q call' rest hq
      by_cases hqp : q = p
      · subst hqp
        simp only [Function.update_self, Option.some.injEq, Prod.mk.injEq] at hq
        obtain ⟨rfl, rfl⟩ := hq
        rw [history, if_pos rfl]
        exact follows_program call
      · simp only [Function.update_of_ne hqp] at hq
        rw [history, if_neg (Ne.symm hqp)]
        exact h.programs q call' rest hq

/-- Every move keeps the invariant. -/
theorem Inv.step {w : World ι} (h : Inv lib w) (move : Move ι) : Inv lib (w.step lib move) := by
  cases move with
  | tick elapsed =>
    refine ⟨h.sound, h.slots, h.cooldowns, fun p t clock he => ?_, h.programs⟩
    exact (h.readings p t clock he).trans (le_add_of_nonneg_right (le_max_left 0 elapsed))
  | call p call => exact h.call p call
  | resume p choice =>
    obtain hp | ⟨call, rest, hp⟩ : w.process p = none ∨ ∃ call rest, w.process p = some (call, rest) := by
      cases hp : w.process p with
      | none => exact Or.inl rfl
      | some busy => exact Or.inr ⟨busy.1, busy.2, rfl⟩
    · have hstep : w.step lib (.resume p choice) = w := by simp only [World.step, hp]
      rw [hstep]
      exact h
    · match rest, hp with
      | .pure outcome, hp => exact h.return hp choice
      | .op o k, hp => exact h.perform hp choice
      | .stuck, hp =>
        have hstep : w.step lib (.resume p choice) = w := by simp only [World.step, hp]
        rw [hstep]
        exact h

theorem Inv.run {w : World ι} (h : Inv lib w) (moves : List (Move ι)) : Inv lib (w.run lib moves) := by
  induction moves generalizing w with
  | nil => exact h
  | cons move moves ih => exact ih (h.step move)

/-- Every move grows the table. -/
theorem grows_step (w : World ι) (move : Move ι) : Grows w.accounts (w.step lib move).accounts := by
  cases move with
  | tick elapsed => exact Grows.refl _
  | call p call =>
    simp only [World.step]
    split <;> exact Grows.refl _
  | resume p choice =>
    simp only [World.step]
    split
    · exact Grows.refl _
    · exact Grows.refl _
    · exact Grows.refl _
    · exact grows_answer choice w.clock w.accounts _

theorem grows_run (w : World ι) (moves : List (Move ι)) :
    Grows w.accounts (w.run lib moves).accounts := by
  induction moves generalizing w with
  | nil => exact Grows.refl _
  | cons move moves ih => exact (grows_step w move).trans (ih _)

/-- A move that refuses a reservation leaves the table alone. -/
theorem accounts_of_refused {w : World ι} {move : Move ι} {p : ι} {owner : String} {now at_ : ℚ}
    {e : Exc} (h : (w.step lib move).trace = .performed p ⟨.reserve owner now, .error e⟩ at_ :: w.trace) :
    (w.step lib move).accounts = w.accounts := by
  cases move with
  | tick elapsed => rfl
  | call q call =>
    simp only [World.step]
    split <;> rfl
  | resume q choice =>
    simp only [World.step] at h ⊢
    split at h
    · rfl
    · rfl
    · rfl
    next o k _ =>
    simp only [List.cons.injEq, and_true, Event.performed.injEq] at h
    obtain ⟨-, hdone, -⟩ := h
    obtain ⟨rfl, hr⟩ := Sigma.mk.inj hdone
    exact reserveSlot_error (Prod.ext (eq_of_heq hr) rfl)

/-- **Pacing.**  Whatever the interleaving of any number of processes over one
table and one clock that does not run backwards: every event is justified by the
ones before it, so that the granted slots of an owner lie an interval apart,
none of them far in the future or in a recorded cooldown, and no call gets
past the gate in one; the cooldown of an owner is never shortened; and a refused
reservation leaves the table alone. -/
theorem pacing (lib : Library) (clock : ℚ) (accounts : Accounts) (moves more : List (Move ι)) :
    let w := (World.start clock accounts : World ι).run lib moves
    Sound lib w.trace ∧
    (∀ (owner : String) row, w.accounts[owner]? = some row →
      ∃ row', (w.run lib more).accounts[owner]? = some row' ∧
        row.cooldownUntil ≤ row'.cooldownUntil) ∧
    ∀ move p owner now e at_,
      (w.step lib move).trace = .performed p ⟨.reserve owner now, .error e⟩ at_ :: w.trace →
      (w.step lib move).accounts = w.accounts := by
  intro w
  have hinv : Inv lib w := (inv_start clock accounts).run moves
  refine ⟨hinv.sound, ?_, fun move p owner now e at_ => accounts_of_refused⟩
  intro owner row hrow
  obtain ⟨row', hrow', -, hcooldown⟩ := grows_run w more owner row hrow
  exact ⟨row', hrow', hcooldown⟩

end Pacing

end KaggleRelay

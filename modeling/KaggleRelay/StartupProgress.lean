/-
Startup progress of a job.

Callbacks of the runtime and the log poller both write the column
`kernel_status`.  A startup event goes through a guard that compares it with the
progress the column holds at that moment.

* `parseStartupProgress`, `ignoreStartupProgress` — the events and the guard;
* `Step` — one write of the two writers, from a row read at any earlier moment,
  or a change of the row by somebody else, which may put the provider's status
  into the column;
* `ignore_startup_iff` — which events the guard lets through;
* `Ordered` — what the contract says of the progress that was stored;
* `startup_ordered` — it holds of every run whose events meet `Undisturbed`.
-/
import Mathlib.Data.List.Infix
import Mathlib.Data.Rat.Floor
import KaggleRelay.PythonValues
import KaggleRelay.Runs

namespace KaggleRelay

open JsonText

namespace Startup

/-- What `int` and `float` make of texts and of numbers. -/
structure Numerals where
  reader : Reader
  /-- `int(text)`. -/
  intText : String → Option ℤ
  /-- `float(text)`, by its representation. -/
  floatText : String → Option String
  /-- `float(z)`, by its representation; `none` where it overflows. -/
  floatInt : ℤ → Option String

variable (num : Numerals)

/-- `int(payload[key])`. -/
def Numerals.toInt : Option Json → Option ℤ
  | some (.int z) => some z
  | some (.bool b) => some (if b then 1 else 0)
  | some (.float literal) => (num.reader.float literal).map fun q => if 0 ≤ q then ⌊q⌋ else ⌈q⌉
  | some (.str text) => num.intText text
  | _ => none

/-- `float(payload[key])`. -/
def Numerals.toFloat : Option Json → Option String
  | some (.int z) => num.floatInt z
  | some (.bool b) => num.floatInt (if b then 1 else 0)
  | some (.float literal) => some literal
  | some (.str text) => num.floatText text
  | _ => none

/-! ### Startup events -/

structure StartupEvent where
  backend : String
  startupId : String
  startupStage : String
  startupStatus : String
  message : String
  errorCode : Option Json
  /-- A number is kept with its representation. -/
  startupElapsedSeconds : String × ℚ
  stageElapsedSeconds : String × ℚ
  reportedAt : String × ℚ
  startupSequence : ℤ
  heartbeat : Bool
  deriving DecidableEq

/-- `payload.get(key) in options`. -/
def oneOf (payload : JsonObject) (key : String) (options : List String) : Option String :=
  match getField payload key with
  | some (.str s) => if s ∈ options then some s else none
  | _ => none

/-- `isinstance(payload.get(key), str) and payload[key].strip()`. -/
def solidText (payload : JsonObject) (key : String) : Option String :=
  match getField payload key with
  | some (.str s) => if Text.strip s = "" then none else some s
  | _ => none

/-- A number that is finite and not negative. -/
def measure (payload : JsonObject) (key : String) : Option (String × ℚ) := do
  let literal ← num.toFloat (getField payload key)
  let value ← num.reader.float literal
  if value < 0 then none else some (literal, value)

/-- `parse_startup_progress`; `none` is the empty dict. -/
def parseStartupProgress (payload : JsonObject) : Option StartupEvent := do
  let _ ← oneOf payload "event_type" ["startup"]
  let backend ← oneOf payload "backend" ["yolo", "patchcore"]
  let startupStatus ← oneOf payload "startup_status" ["running", "ready", "restarting", "failed"]
  let startupId ← solidText payload "startup_id"
  let startupStage ← solidText payload "startup_stage"
  let message ← solidText payload "message"
  let startupSequence ← num.toInt (getField payload "startup_sequence")
  let startupElapsedSeconds ← measure num payload "startup_elapsed_seconds"
  let stageElapsedSeconds ← measure num payload "stage_elapsed_seconds"
  let reportedAt ← measure num payload "reported_at"
  guard (1 ≤ startupSequence)
  return {
    backend, startupId, startupStage, startupStatus, message
    errorCode := getField payload "error_code"
    startupElapsedSeconds, stageElapsedSeconds, reportedAt, startupSequence
    heartbeat := match getField payload "heartbeat" with
      | some (.bool true) => true
      | _ => false }

/-- The dict that `parse_startup_progress` returns. -/
def StartupEvent.fields (e : StartupEvent) : JsonObject :=
  [("event_type", .str "startup"), ("backend", .str e.backend), ("startup_id", .str e.startupId),
    ("startup_stage", .str e.startupStage), ("startup_status", .str e.startupStatus),
    ("message", .str e.message)] ++ (e.errorCode.map fun code => ("error_code", code)).toList ++
  [("startup_elapsed_seconds", .float e.startupElapsedSeconds.1),
    ("stage_elapsed_seconds", .float e.stageElapsedSeconds.1), ("reported_at", .float e.reportedAt.1),
    ("startup_sequence", .int e.startupSequence), ("heartbeat", .bool e.heartbeat),
    ("progress_source", .str "startup")]

/-! ### The guard -/

/-- `incoming.get("event_type") == "startup"`. -/
def isStartup (incoming : JsonObject) : Bool := (getField incoming "event_type").any (·.isStr "startup")

/-- `previous.get("epoch") is not None`. -/
def hasEpoch (previous : JsonObject) : Bool :=
  match getField previous "epoch" with
  | none | some .null => false
  | _ => true

/-- `bool(previous.get("phase") and previous["phase"] not in {"prepare", "input"})`. -/
def pastPreparation (previous : JsonObject) : Except Exc Bool :=
  match getField previous "phase" with
  | none => .ok false
  | some phase =>
    if num.reader.truthy phase = false then .ok false
    else phase.hashed.map fun phase => !(phase.isStr "prepare" || phase.isStr "input")

/-- `json.loads(previous)`, where the column holds a dict; `none` for another
value. -/
def storedProgress (kernelStatus : String) : Option JsonObject :=
  if kernelStatus = "" then some []
  else
    match loads kernelStatus with
    | some (.obj fields) => some fields
    | some _ => none
    | none => some []

/-- What the guard says of an event over the stored progress. -/
def outdated (event : StartupEvent) (previous : JsonObject) : Except Exc Bool :=
  match parseStartupProgress num previous with
  | some old =>
    if old.startupId = event.startupId then .ok (decide (event.startupSequence ≤ old.startupSequence))
    else .ok (decide (event.reportedAt.2 ≤ old.reportedAt.2))
  | none => if hasEpoch previous then .ok true else pastPreparation num previous

/-- `ignore_startup_progress`. -/
def ignoreStartupProgress (job : Job) (incoming : JsonObject) : Except Exc Bool :=
  if isStartup incoming = false then .ok false
  else
    match parseStartupProgress num incoming with
    | none => .ok true
    | some event =>
      if job.status ∉ [.pushingKernel, .waitingKernel, .cancelRequested] then .ok true
      else
        match storedProgress job.kernelStatus with
        | none => .ok false
        | some previous => outdated num event previous

/-! ### The writers -/

/-- `data.update(fields)`. -/
def update (data fields : JsonObject) : JsonObject :=
  fields.foldl (fun data field => setField data field.1 field.2) data

/-- `if field in data: data[field] = value`. -/
def replaceField (data : JsonObject) (field value : String) : JsonObject :=
  if (getField data field).isSome then setField data field (.str value) else data

/-- What `apply_progress_callback` makes of the data of a request; `none` for a
training stop, which is stored elsewhere. -/
def callbackData (job : Job) (data : JsonObject) : Except Exc (Option JsonObject) := do
  if job.schedulingMode = .dynamic ∧
      (job.assignmentState = .pending ∨ job.status ∈ [.receiving, .assembling, .queued]) then
    .error (.http 409 "job has not been submitted to Kaggle")
  else
    let data ←
      if isStartup data then
        match parseStartupProgress num data with
        | none => .error (.http 422 "invalid startup progress")
        | some startup =>
          .ok (update data (startup.fields ++ [("epoch", .null), ("epochs", .null), ("remote_progress", .null)]))
      else .ok data
    let data := replaceField (replaceField data "kernel_ref" job.kernelRef) "dataset_ref" job.datasetRef
    if (getField data "event_type").any (·.isStr "training_stop") then .ok none else .ok (some data)

/-- `updates` of `apply_progress_callback`. -/
def callbackUpdates (text output : String) (progress : ℚ) (current : Job) : JobValues where
  kernelStatus := some text
  kaggleOutput := some output
  progress := some progress
  status := if current.status.terminal then none
    else some (if current.cancelRequestedAt.isSome then .cancelRequested else .waitingKernel)

/-- The values of `update_finish_status` in `progress_callback`. -/
def pollUpdates (text : String) (progress : ℚ) (current : Job) : JobValues where
  status := some (if jobCancelRequested current then .cancelRequested else .waitingKernel)
  progress := some progress
  kernelStatus := some text

/-- A text that `json.dumps` makes of a dict: it is read back as that dict. -/
def Encodes (text : String) (data : JsonObject) : Prop :=
  ∃ fields, loads text = some (.obj fields) ∧ ∀ key, getField fields key = getField data key

/-- The row of the job, the rows that were there before, and the progress that was
stored. -/
structure Progress where
  row : Job
  rows : List Job
  stored : List JsonObject

/-- A text that is no JSON object, as the provider's status is none. -/
def IsPlain (text : String) : Prop := ∀ fields, loads text ≠ some (.obj fields)

/-- A write of progress, or a change of the row by somebody else.  A writer
decides on a row it has read, and writes if status and progress are still as they
were; the worker writes the provider's status in any case. -/
inductive Step : Progress → Option JsonObject → Progress → Prop
  | callback {p : Progress} {job current row' : Job} {raw data : JsonObject} {text output : String}
      {progress t : ℚ} : current ∈ p.rows → callbackData num job raw = .ok (some data) →
      Encodes text data → ignoreStartupProgress num current data = .ok false →
      updateJobIfStatus t [current.status] false (some current.kernelStatus)
        (callbackUpdates text output progress current) p.row = some row' →
      Step p (some data) ⟨row', row' :: p.rows, p.stored ++ [data]⟩
  | poll {p : Progress} {current row' : Job} {data : JsonObject} {text : String} {progress t : ℚ} :
      current ∈ p.rows → current.status.terminal = false → Encodes text data →
      ignoreStartupProgress num current data = .ok false →
      updateJobIfStatus t [current.status] false (some current.kernelStatus)
        (pollUpdates text progress current) p.row = some row' →
      Step p (some data) ⟨row', row' :: p.rows, p.stored ++ [data]⟩
  | other {p : Progress} {row' : Job} :
      row'.kernelStatus = p.row.kernelStatus ∨ IsPlain row'.kernelStatus →
      Step p none ⟨row', row' :: p.rows, p.stored⟩

/-! ### What the guard lets through -/

/-- A training epoch, or a phase after the preparation. -/
def handedOff (data : JsonObject) : Bool :=
  hasEpoch data || (getField data "phase").any fun phase =>
    num.reader.truthy phase && !(phase.isStr "prepare" || phase.isStr "input")

/-- Dicts with the same fields are the same to the guard. -/
theorem parseStartupProgress_congr {a b : JsonObject} (h : ∀ key, getField a key = getField b key) :
    parseStartupProgress num a = parseStartupProgress num b := by
  simp only [parseStartupProgress, oneOf, solidText, measure, h]

theorem handedOff_congr {a b : JsonObject} (h : ∀ key, getField a key = getField b key) :
    handedOff num a = handedOff num b := by
  simp only [handedOff, hasEpoch, h]

/-- Progress that is no startup event lets events through until the handoff. -/
theorem outdated_other {event : StartupEvent} {previous : JsonObject}
    (h : parseStartupProgress num previous = none) :
    outdated num event previous = .ok false ↔ handedOff num previous = false := by
  rw [outdated, h]
  simp only
  rw [handedOff]
  by_cases hepoch : hasEpoch previous = true
  · rw [if_pos hepoch, hepoch, Bool.true_or]
    constructor <;> intro h <;> cases h
  · rw [if_neg hepoch, Bool.eq_false_iff.mpr hepoch, Bool.false_or, pastPreparation]
    cases hphase : getField previous "phase" with
    | none => exact ⟨fun _ => rfl, fun _ => rfl⟩
    | some phase =>
      simp only [Option.any_some]
      by_cases htruthy : num.reader.truthy phase = false
      · rw [if_pos htruthy, htruthy, Bool.false_and]
        exact ⟨fun _ => rfl, fun _ => rfl⟩
      · have htrue : num.reader.truthy phase = true := by simpa using htruthy
        rw [if_neg htruthy, htrue, Bool.true_and]
        cases phase with
        | arr items =>
          constructor <;> intro h <;> cases h
        | obj fields =>
          constructor <;> intro h <;> cases h
        | _ => exact ⟨Except.ok.inj, congrArg _⟩

/-- An event that replaces another one. -/
def Supersedes (event old : StartupEvent) : Prop :=
  (old.startupId = event.startupId → old.startupSequence < event.startupSequence) ∧
    (old.startupId ≠ event.startupId → old.reportedAt.2 < event.reportedAt.2)

theorem outdated_event {event old : StartupEvent} {previous : JsonObject}
    (h : parseStartupProgress num previous = some old) :
    outdated num event previous = .ok false ↔ Supersedes event old := by
  rw [outdated, h]
  simp only
  by_cases hid : old.startupId = event.startupId
  · rw [if_pos hid, Except.ok.injEq, decide_eq_false_iff_not, not_le]
    exact ⟨fun hlt => ⟨fun _ => hlt, fun hne => (hne hid).elim⟩, fun hs => hs.1 hid⟩
  · rw [if_neg hid, Except.ok.injEq, decide_eq_false_iff_not, not_le]
    exact ⟨fun hlt => ⟨fun heq => (hid heq).elim, fun _ => hlt⟩, fun hs => hs.2 hid⟩

theorem isStartup_of_parse {data : JsonObject} {event : StartupEvent}
    (h : parseStartupProgress num data = some event) : isStartup data = true := by
  rw [parseStartupProgress] at h
  obtain ⟨s, hs, -⟩ := Option.bind_eq_some_iff.mp h
  rw [oneOf] at hs
  rw [isStartup]
  split at hs
  · next text htext =>
    rw [htext]
    split at hs
    · next hmem =>
      rw [List.mem_singleton.mp hmem]
      rfl
    · cases hs
  · cases hs

/-- The events that the guard lets through, over progress that is a dict. -/
theorem ignore_startup_iff {job : Job} {data previous : JsonObject} {event : StartupEvent}
    (hevent : parseStartupProgress num data = some event)
    (hstored : storedProgress job.kernelStatus = some previous) :
    ignoreStartupProgress num job data = .ok false ↔
      job.status ∈ [.pushingKernel, .waitingKernel, .cancelRequested] ∧
        outdated num event previous = .ok false := by
  rw [ignoreStartupProgress, isStartup_of_parse num hevent, if_neg (by simp), hevent]
  simp only [hstored]
  by_cases hstatus : job.status ∈ [.pushingKernel, .waitingKernel, .cancelRequested]
  · rw [if_neg (not_not.mpr hstatus)]
    exact ⟨fun h => ⟨hstatus, h⟩, fun h => h.2⟩
  · rw [if_pos hstatus]
    constructor
    · intro h
      cases h
    · exact fun h => (hstatus h.1).elim

/-! ### The order of what is stored -/

/-- The startup event that was stored last. -/
def lastStartup (stored : List JsonObject) : Option StartupEvent :=
  (stored.filterMap (parseStartupProgress num)).getLast?

/-- What the contract asks of an event after the progress stored `before`. -/
structure Follows (before : List JsonObject) (event : StartupEvent) : Prop where
  /-- The sequence of one startup increases. -/
  sequence : ∀ q ∈ before, ∀ old, parseStartupProgress num q = some old →
    old.startupId = event.startupId → old.startupSequence < event.startupSequence
  /-- Another startup takes over with a later event. -/
  takeover : ∀ old, lastStartup num before = some old → old.startupId ≠ event.startupId →
    old.reportedAt.2 < event.reportedAt.2
  /-- Nothing comes after the handoff. -/
  handoff : ∀ q ∈ before, handedOff num q = false

/-- The startup events among the stored progress are in order. -/
def Ordered (stored : List JsonObject) : Prop := ∀ before data after event,
  stored = before ++ data :: after → parseStartupProgress num data = some event → Follows num before event

theorem ordered_nil : Ordered num [] := by
  intro before data after event h
  have hlength := congrArg List.length h
  simp at hlength

theorem ordered_append {stored : List JsonObject} {data : JsonObject} :
    Ordered num (stored ++ [data]) ↔
      Ordered num stored ∧ ∀ event, parseStartupProgress num data = some event → Follows num stored event := by
  constructor
  · intro h
    refine ⟨?_, fun event => h stored data [] event rfl⟩
    rintro before q after event rfl
    exact h before q (after ++ [data]) event (by simp)
  · rintro ⟨hstored, hdata⟩ before q after event heq hq
    obtain rfl | ⟨after', last, rfl⟩ := List.eq_nil_or_concat after
    · obtain ⟨rfl, heq'⟩ := List.append_inj' heq rfl
      rw [← List.singleton_inj.mp heq'] at hq
      exact hdata event hq
    · rw [List.concat_eq_append, ← List.cons_append, ← List.append_assoc] at heq
      obtain ⟨rfl, -⟩ := List.append_inj' heq rfl
      exact hstored before q after' event rfl hq

/-- The column tells the guard what it needs: it holds a startup event without an
epoch or a phase of its own, and where the incoming event is of another startup
that has been there before, it is newer than the events of that startup. -/
def Told (p : Progress) (event : StartupEvent) : Prop :=
  ∃ previous last, storedProgress p.row.kernelStatus = some previous ∧
    parseStartupProgress num previous = some last ∧ handedOff num previous = false ∧
    (last.startupId = event.startupId ∨ ∀ q ∈ p.stored, ∀ old,
      parseStartupProgress num q = some old → old.startupId = event.startupId →
        old.startupSequence < event.startupSequence)

/-- The guard would let the event through over each progress that was stored, and
there was no handoff. -/
def Unmatched (stored : List JsonObject) (event : StartupEvent) : Prop :=
  ∀ q ∈ stored, handedOff num q = false ∧ outdated num event q = .ok false

/-- A write that needs nothing that the guard has forgotten. -/
def Undisturbed (p : Progress) (data : JsonObject) : Prop :=
  ∀ event, parseStartupProgress num data = some event →
    Told num p event ∨ Unmatched num p.stored event

/-- The states that are reached by writes that all meet a condition. -/
inductive ReachedWith (C : Progress → JsonObject → Prop) : Progress → Prop
  | start {row : Job} : row.kernelStatus = "" → ReachedWith C ⟨row, [row], []⟩
  | step {p p' : Progress} {data : Option JsonObject} : ReachedWith C p → Step num p data p' →
      (∀ d ∈ data, C p d) → ReachedWith C p'

/-- The column holds the progress that was stored last, or a plain text. -/
def Coupled (p : Progress) : Prop :=
  IsPlain p.row.kernelStatus ∨ ∃ q, p.stored.getLast? = some q ∧ Encodes p.row.kernelStatus q

/-- A write has seen the row as it is. -/
theorem Step.write {p p' : Progress} {data : JsonObject} (h : Step num p (some data) p') :
    ∃ current : Job, current.status = p.row.status ∧ current.kernelStatus = p.row.kernelStatus ∧
      ignoreStartupProgress num current data = .ok false ∧ p'.stored = p.stored ++ [data] ∧
      Encodes p'.row.kernelStatus data := by
  have hset : ∀ {t : ℚ} {current row' : Job} {values : JobValues} {text : String},
      values.kernelStatus = some text →
      updateJobIfStatus t [current.status] false (some current.kernelStatus) values p.row = some row' →
      current.status = p.row.status ∧ current.kernelStatus = p.row.kernelStatus ∧ row'.kernelStatus = text := by
    intro t current row' values text htext hupdate
    obtain ⟨hstatus, hkernel, -, rfl⟩ := updateJobIfStatus_some hupdate
    refine ⟨(List.mem_singleton.mp hstatus).symm, (hkernel _ rfl).symm, ?_⟩
    have hsealed : (values.sealed t).kernelStatus = some text := by
      rw [JobValues.sealed]
      split
      · split
        · exact htext
        · exact htext
      · exact htext
    show (values.sealed t).kernelStatus.getD _ = text
    rw [hsealed]
    rfl
  cases h with
  | callback hread hdata hencodes hignore hupdate =>
    obtain ⟨hstatus, hkernel, htext⟩ := hset (by rfl) hupdate
    exact ⟨_, hstatus, hkernel, hignore, rfl, htext ▸ hencodes⟩
  | poll hread hterminal hencodes hignore hupdate =>
    obtain ⟨hstatus, hkernel, htext⟩ := hset (by rfl) hupdate
    exact ⟨_, hstatus, hkernel, hignore, rfl, htext ▸ hencodes⟩

theorem Step.change {p p' : Progress} (h : Step num p none p') :
    (p'.row.kernelStatus = p.row.kernelStatus ∨ IsPlain p'.row.kernelStatus) ∧
      p'.stored = p.stored := by
  cases h with
  | other hkernel => exact ⟨hkernel, rfl⟩

theorem isPlain_empty : IsPlain "" := by
  intro fields h
  cases h

theorem coupled_reached {C : Progress → JsonObject → Prop} {p : Progress} (h : ReachedWith num C p) :
    Coupled p := by
  induction h with
  | @start row hempty =>
    left
    show IsPlain row.kernelStatus
    rw [hempty]
    exact isPlain_empty
  | @step p p' data hreached hstep hcond ih =>
    cases data with
    | none =>
      obtain ⟨hkernel | hplain, hstored⟩ := hstep.change
      · rw [Coupled, hstored, hkernel]
        exact ih
      · exact .inl hplain
    | some d =>
      obtain ⟨current, -, -, -, hstored, hencodes⟩ := hstep.write
      refine .inr ⟨d, ?_, hencodes⟩
      rw [hstored, List.getLast?_concat]

theorem storedProgress_of_encodes {text : String} {data : JsonObject} (h : Encodes text data) :
    ∃ fields, storedProgress text = some fields ∧ ∀ key, getField fields key = getField data key := by
  obtain ⟨fields, hloads, hsame⟩ := h
  refine ⟨fields, ?_, hsame⟩
  have hne : text ≠ "" := by
    rintro rfl
    cases hloads
  rw [storedProgress, if_neg hne, hloads]

/-- A plain text is no progress. -/
theorem storedProgress_of_plain {text : String} {previous : JsonObject} (h : IsPlain text)
    (hprevious : storedProgress text = some previous) : previous = [] := by
  rw [storedProgress] at hprevious
  split at hprevious
  · exact (Option.some.inj hprevious).symm
  · split at hprevious
    · next fields hfields => exact absurd hfields (h fields)
    · cases hprevious
    · exact (Option.some.inj hprevious).symm

theorem parse_nil : parseStartupProgress num [] = none := rfl

/-- A startup event in the column is the progress that was stored last. -/
theorem last_of_told {p : Progress} {previous : JsonObject} {last : StartupEvent} (hcoupled : Coupled p)
    (hprevious : storedProgress p.row.kernelStatus = some previous)
    (hlast : parseStartupProgress num previous = some last) :
    ∃ init q, p.stored = init ++ [q] ∧ parseStartupProgress num q = some last ∧
      handedOff num q = handedOff num previous := by
  obtain hplain | ⟨q, hq, hencodes⟩ := hcoupled
  · rw [storedProgress_of_plain hplain hprevious, parse_nil] at hlast
    cases hlast
  · obtain ⟨init, hinit⟩ := List.getLast?_eq_some_iff.mp hq
    obtain ⟨fields, hfields, hsame⟩ := storedProgress_of_encodes hencodes
    obtain rfl : fields = previous := Option.some.inj (hfields.symm.trans hprevious)
    refine ⟨init, q, hinit, ?_, (handedOff_congr num hsame).symm⟩
    rw [← parseStartupProgress_congr num hsame]
    exact hlast

theorem lastStartup_concat {stored : List JsonObject} {q : JsonObject} {old : StartupEvent}
    (h : parseStartupProgress num q = some old) : lastStartup num (stored ++ [q]) = some old := by
  rw [lastStartup, List.filterMap_append, List.filterMap_cons, h]
  exact List.getLast?_concat ..

theorem mem_of_lastStartup {stored : List JsonObject} {old : StartupEvent}
    (h : lastStartup num stored = some old) : ∃ q ∈ stored, parseStartupProgress num q = some old :=
  List.mem_filterMap.mp (List.mem_of_getLast? h)

/-- What the guard lets through over the event that was stored last follows. -/
theorem follows_of_told {p : Progress} {event : StartupEvent} (hcoupled : Coupled p)
    (hordered : Ordered num p.stored) (htold : Told num p event)
    (hguard : ∀ previous, storedProgress p.row.kernelStatus = some previous →
      outdated num event previous = .ok false) : Follows num p.stored event := by
  obtain ⟨previous, last, hprevious, hlast, hopen, hreplaced⟩ := htold
  obtain ⟨init, q, hstored, hq, hhanded⟩ := last_of_told num hcoupled hprevious hlast
  obtain ⟨hsequence, htakeover⟩ := (outdated_event num hlast).mp (hguard previous hprevious)
  have hbefore := hordered init q [] last (by rw [hstored]) hq
  have hmem : ∀ q' ∈ p.stored, q' ∈ init ∨ q' = q := by
    intro q' hq'
    rw [hstored, List.mem_append, List.mem_singleton] at hq'
    exact hq'
  constructor
  · intro q' hq' old hold hid
    obtain hown | hnewer := hreplaced
    · obtain hinit | rfl := hmem q' hq'
      · -- an earlier event of the startup that was stored last
        exact (hbefore.sequence q' hinit old hold (hid.trans hown.symm)).trans (hsequence hown)
      · rw [hq] at hold
        rw [← Option.some.inj hold]
        exact hsequence hown
    · exact hnewer q' hq' old hold hid
  · intro old hold hid
    rw [hstored, lastStartup_concat num hq] at hold
    rw [← Option.some.inj hold] at hid ⊢
    exact htakeover hid
  · intro q' hq'
    obtain hinit | rfl := hmem q' hq'
    · exact hbefore.handoff q' hinit
    · exact hhanded.trans hopen

/-- What passes over everything that was stored follows. -/
theorem follows_of_unmatched {stored : List JsonObject} {event : StartupEvent}
    (h : Unmatched num stored event) : Follows num stored event := by
  have hsupersedes : ∀ q ∈ stored, ∀ old, parseStartupProgress num q = some old →
      Supersedes event old :=
    fun q hq old hold => (outdated_event num hold).mp (h q hq).2
  refine ⟨fun q hq old hold hid => (hsupersedes q hq old hold).1 hid, fun old hold hid => ?_,
    fun q hq => (h q hq).1⟩
  obtain ⟨q, hq, hparse⟩ := mem_of_lastStartup num hold
  exact (hsupersedes q hq old hparse).2 hid

/-- The startup events that are stored are in order. -/
theorem startup_ordered {p : Progress} (h : ReachedWith num (Undisturbed num) p) : Ordered num p.stored := by
  induction h with
  | start hempty => exact ordered_nil num
  | @step p p' data hreached hstep hcond ih =>
    cases data with
    | none =>
      rw [hstep.change.2]
      exact ih
    | some d =>
      obtain ⟨current, hstatus, hkernel, hignore, hstored, -⟩ := hstep.write
      rw [hstored]
      refine (ordered_append num).mpr ⟨ih, fun event hevent => ?_⟩
      obtain htold | hunmatched := hcond d rfl event hevent
      · refine follows_of_told num (coupled_reached num hreached) ih htold fun previous hprevious => ?_
        rw [← hkernel] at hprevious
        exact ((ignore_startup_iff num hevent hprevious).mp hignore).2
      · exact follows_of_unmatched num hunmatched

/-- Over progress that is neither a startup event nor the handoff every event is
let through. -/
theorem forgotten_passes {job : Job} {data previous : JsonObject} {event : StartupEvent}
    (hevent : parseStartupProgress num data = some event)
    (hstatus : job.status ∈ [.pushingKernel, .waitingKernel, .cancelRequested])
    (hstored : storedProgress job.kernelStatus = some previous)
    (hnone : parseStartupProgress num previous = none) (hopen : handedOff num previous = false) :
    ignoreStartupProgress num job data = .ok false :=
  (ignore_startup_iff num hevent hstored).mpr ⟨hstatus, (outdated_other num hnone).mpr hopen⟩

/-! ### A message between two events -/

section Trial

def trialNumerals : Numerals where
  reader :=
    { loads := fun _ => none
      float := fun literal => if literal = "0.0" then some 0 else if literal = "1.0" then some 1 else none }
  intText _ := none
  floatText _ := none
  floatInt z := some (JsonText.intText z ++ ".0")

def trialRunning : Job :=
  { World.createdJob (World.trialJob .fixed) "owner/data" "owner/kernel" "key" 0 with status := .waitingKernel }

/-- A startup event, as the callback stores it. -/
def startupData (sequence : ℤ) : JsonObject :=
  [("backend", .str "yolo"), ("epoch", .null), ("epochs", .null), ("event_type", .str "startup"),
    ("heartbeat", .bool false), ("log", .str ""), ("message", .str "m"), ("metrics", .obj []),
    ("progress_source", .str "startup"), ("remote_progress", .null), ("reported_at", .float "1.0"),
    ("stage_elapsed_seconds", .float "0.0"), ("startup_elapsed_seconds", .float "0.0"),
    ("startup_id", .str "a"), ("startup_sequence", .int sequence), ("startup_stage", .str "s"),
    ("startup_status", .str "running")]

/-- A message without epoch and phase. -/
def messageData : JsonObject :=
  [("epoch", .null), ("epochs", .null), ("event_type", .str "progress"), ("log", .str ""),
    ("message", .str "m"), ("metrics", .obj []), ("remote_progress", .null)]

def startupEvent (sequence : ℤ) : StartupEvent where
  backend := "yolo"
  startupId := "a"
  startupStage := "s"
  startupStatus := "running"
  message := "m"
  errorCode := none
  startupElapsedSeconds := ("0.0", 0)
  stageElapsedSeconds := ("0.0", 0)
  reportedAt := ("1.0", 1)
  startupSequence := sequence
  heartbeat := false

theorem parse_trial : parseStartupProgress trialNumerals (startupData 1) = some (startupEvent 1) ∧
    parseStartupProgress trialNumerals (startupData 2) = some (startupEvent 2) ∧
    parseStartupProgress trialNumerals messageData = none ∧
    handedOff trialNumerals (startupData 1) = false ∧ handedOff trialNumerals messageData = false := by
  decide +kernel

/-- The text of a dict, read. -/
theorem loads_ofList (l : List Char) : loads (String.ofList l) =
    match value (2 * l.length + 2) (skipBlanks l) with
    | some (x, rest) => if (skipBlanks rest).isEmpty then some x else none
    | none => none :=
  congrArg (fun chars : List Char =>
    match value (2 * chars.length + 2) (skipBlanks chars) with
    | some (x, rest) => if (skipBlanks rest).isEmpty then some x else none
    | none => none) (@String.toList_ofList l)

theorem encodes_trial : Encodes (dumps .spaced (.obj (startupData 1))) (startupData 1) ∧
    Encodes (dumps .spaced (.obj (startupData 2))) (startupData 2) ∧
    Encodes (dumps .spaced (.obj messageData)) messageData := by
  have hread : ∀ data, loads (dumps .spaced (.obj data)) = some (.obj data) →
      Encodes (dumps .spaced (.obj data)) data := fun data h => ⟨data, h, fun _ => rfl⟩
  refine ⟨hread _ ?_, hread _ ?_, hread _ ?_⟩
  · rw [dumps, loads_ofList]
    decide +kernel
  · rw [dumps, loads_ofList]
    decide +kernel
  · rw [dumps, loads_ofList]
    decide +kernel

/-- A callback that finds the row as it has read it. -/
theorem exists_callback {p : Progress} {job : Job} {data : JsonObject} (hrow : p.row ∈ p.rows)
    (hdata : callbackData num job data = .ok (some data))
    (hencodes : Encodes (dumps .spaced (.obj data)) data)
    (hignore : ignoreStartupProgress num p.row data = .ok false)
    (hstatus : p.row.status = .waitingKernel) (hcancel : p.row.cancelRequestedAt = none) :
    ∃ p', Step num p (some data) p' ∧ p'.stored = p.stored ++ [data] ∧ p'.row ∈ p'.rows ∧
      p'.row.kernelStatus = dumps .spaced (.obj data) ∧ p'.row.status = .waitingKernel ∧
      p'.row.cancelRequestedAt = none := by
  have hupdate : updateJobIfStatus 0 [p.row.status] false (some p.row.kernelStatus)
      (callbackUpdates (dumps .spaced (.obj data)) "m" 0 p.row) p.row =
        some (updateJob 0 (callbackUpdates (dumps .spaced (.obj data)) "m" 0 p.row) p.row) := by
    rw [updateJobIfStatus, if_pos ⟨List.mem_singleton_self _, by simp, by simp⟩]
    rfl
  refine ⟨_, .callback hrow hdata hencodes hignore hupdate, rfl, List.mem_cons_self, ?_⟩
  have hvalues : (callbackUpdates (dumps .spaced (.obj data)) "m" 0 p.row).status = some .waitingKernel := by
    rw [callbackUpdates, hstatus, hcancel]
    rfl
  have hsealed : (callbackUpdates (dumps .spaced (.obj data)) "m" 0 p.row).sealed 0 =
      callbackUpdates (dumps .spaced (.obj data)) "m" 0 p.row := by
    rw [JobValues.sealed, hvalues]
    rfl
  rw [updateJob, hsealed]
  refine ⟨rfl, ?_, hcancel⟩
  rw [set_status, hvalues]
  rfl

theorem isStartup_messageData : isStartup messageData = false := by decide

/-- The data are stored as they come. -/
theorem callbackData_trial : ∀ data ∈ [startupData 1, startupData 2, messageData],
    callbackData trialNumerals trialRunning data = .ok (some data) := by
  decide +kernel

/-- A first event is stored. -/
theorem first_reached {C : Progress → JsonObject → Prop} {sequence : ℤ}
    (hparse : parseStartupProgress trialNumerals (startupData sequence) = some (startupEvent sequence))
    (hdata : callbackData trialNumerals trialRunning (startupData sequence) =
      .ok (some (startupData sequence)))
    (hencodes : Encodes (dumps .spaced (.obj (startupData sequence))) (startupData sequence))
    (hcond : ∀ p : Progress, p.stored = [] → C p (startupData sequence)) :
    ∃ p, ReachedWith trialNumerals C p ∧ p.stored = [startupData sequence] ∧ p.row ∈ p.rows ∧
      p.row.kernelStatus = dumps .spaced (.obj (startupData sequence)) ∧
      p.row.status = .waitingKernel ∧ p.row.cancelRequestedAt = none := by
  have hpasses : ignoreStartupProgress trialNumerals trialRunning (startupData sequence) = .ok false :=
    forgotten_passes trialNumerals hparse (by decide) (if_pos rfl) rfl rfl
  obtain ⟨p, hstep, hstored, hrest⟩ :=
    exists_callback trialNumerals (p := ⟨trialRunning, [trialRunning], []⟩) List.mem_cons_self hdata
      hencodes hpasses rfl rfl
  refine ⟨p, .step (.start rfl) hstep fun d hd => ?_, hstored, hrest⟩
  rw [← Option.some.inj hd]
  exact hcond _ rfl

/-- After a startup event the next one, and then the provider's status: the events
are in order. -/
theorem startup_ordered_trial :
    ∃ p : Progress, p.stored = [startupData 1, startupData 2] ∧ p.row.kernelStatus = "complete" ∧
      Ordered trialNumerals p.stored := by
  obtain ⟨hparse₁, hparse₂, -, hopen, -⟩ := parse_trial
  obtain ⟨hencodes₁, hencodes₂, -⟩ := encodes_trial
  have hfirst : ∀ p : Progress, p.stored = [] → Undisturbed trialNumerals p (startupData 1) := by
    intro p hp event _
    right
    rw [hp]
    simp [Unmatched]
  obtain ⟨p₁, hreached₁, hstored₁, hrow₁, hkernel₁, hstatus₁, hcancel₁⟩ :=
    first_reached hparse₁ (callbackData_trial _ (by simp)) hencodes₁ hfirst
  obtain ⟨fields, hfields, hsame⟩ := storedProgress_of_encodes hencodes₁
  rw [← hkernel₁] at hfields
  have hlast : parseStartupProgress trialNumerals fields = some (startupEvent 1) := by
    rw [parseStartupProgress_congr trialNumerals hsame, hparse₁]
  have hnewer : Supersedes (startupEvent 2) (startupEvent 1) :=
    ⟨fun _ => by decide, fun hne => absurd rfl hne⟩
  have hpasses : ignoreStartupProgress trialNumerals p₁.row (startupData 2) = .ok false := by
    refine (ignore_startup_iff trialNumerals hparse₂ hfields).mpr ⟨?_, ?_⟩
    · rw [hstatus₁]
      decide
    · exact (outdated_event trialNumerals hlast).mpr hnewer
  obtain ⟨p₂, hstep₂, hstored₂, -⟩ :=
    exists_callback trialNumerals hrow₁ (callbackData_trial _ (by simp)) hencodes₂ hpasses hstatus₁ hcancel₁
  have hreached₂ : ReachedWith trialNumerals (Undisturbed trialNumerals) p₂ := by
    refine .step hreached₁ hstep₂ fun d hd event hevent => .inl ?_
    rw [← Option.some.inj hd, hparse₂] at hevent
    refine ⟨fields, startupEvent 1, hfields, hlast, ?_, .inl ?_⟩
    · rw [handedOff_congr trialNumerals hsame, hopen]
    · rw [← Option.some.inj hevent]
      rfl
  have hplain : IsPlain "complete" := by
    have hloads : loads "complete" = none := by
      rw [show "complete" = String.ofList ['c', 'o', 'm', 'p', 'l', 'e', 't', 'e'] from rfl, loads_ofList]
      decide +kernel
    intro fields h
    rw [hloads] at h
    cases h
  let row' : Job := { p₂.row with kernelStatus := "complete" }
  have hreached₃ : ReachedWith trialNumerals (Undisturbed trialNumerals)
      ⟨row', row' :: p₂.rows, p₂.stored⟩ :=
    .step hreached₂ (.other (.inr hplain)) fun d hd => by cases hd
  have hstored : p₂.stored = [startupData 1, startupData 2] := by
    rw [hstored₂, hstored₁]
    rfl
  exact ⟨⟨row', row' :: p₂.rows, p₂.stored⟩, hstored, rfl, startup_ordered trialNumerals hreached₃⟩

/-- An older event is stored after a message. -/
theorem older_event_stored : ∃ p, ReachedWith trialNumerals (fun _ _ => True) p ∧
    p.stored = [startupData 2, messageData, startupData 1] ∧ ¬ Ordered trialNumerals p.stored := by
  obtain ⟨hparse₁, hparse₂, hmessage, -, hopen⟩ := parse_trial
  obtain ⟨hencodes₁, hencodes₂, hencodes₃⟩ := encodes_trial
  obtain ⟨p₁, hreached₁, hstored₁, hrow₁, -, hstatus₁, hcancel₁⟩ :=
    first_reached (C := fun _ _ => True) hparse₂ (callbackData_trial _ (by simp)) hencodes₂
      fun _ _ => trivial
  have hignored : ignoreStartupProgress trialNumerals p₁.row messageData = .ok false := by
    rw [ignoreStartupProgress, isStartup_messageData, if_pos rfl]
  obtain ⟨p₂, hstep₂, hstored₂, hrow₂, hkernel₂, hstatus₂, hcancel₂⟩ :=
    exists_callback trialNumerals hrow₁ (callbackData_trial _ (by simp)) hencodes₃ hignored hstatus₁ hcancel₁
  have hpasses : ignoreStartupProgress trialNumerals p₂.row (startupData 1) = .ok false := by
    obtain ⟨fields, hfields, hsame⟩ := storedProgress_of_encodes hencodes₃
    rw [← hkernel₂] at hfields
    refine forgotten_passes trialNumerals hparse₁ (by rw [hstatus₂]; decide) hfields ?_ ?_
    · rw [parseStartupProgress_congr trialNumerals hsame, hmessage]
    · rw [handedOff_congr trialNumerals hsame, hopen]
  obtain ⟨p₃, hstep₃, hstored₃, -⟩ :=
    exists_callback trialNumerals hrow₂ (callbackData_trial _ (by simp)) hencodes₁ hpasses hstatus₂ hcancel₂
  have hstored : p₃.stored = [startupData 2, messageData, startupData 1] := by
    rw [hstored₃, hstored₂, hstored₁]
    rfl
  refine ⟨p₃, .step (.step hreached₁ hstep₂ fun _ _ => trivial) hstep₃ fun _ _ => trivial, hstored, ?_⟩
  intro hordered
  rw [hstored] at hordered
  have hlast := hordered [startupData 2, messageData] (startupData 1) [] (startupEvent 1) rfl hparse₁
  have hlt := hlast.sequence (startupData 2) (by simp) (startupEvent 2) hparse₂ rfl
  exact absurd hlt (by decide)

end Trial

end Startup

end KaggleRelay

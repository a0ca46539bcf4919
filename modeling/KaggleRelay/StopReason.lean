/-
Why a training run stopped: the classification of `stop_reason.py`.

`classifyStopReason` reads a provider status and the log of a kernel.  The
status becomes one of six states; every line of the log may be evidence of a
training reason or carry numbers; the answer is a dict of texts and numbers.

What the module takes from Python stands in `Python`: `json.loads`, and the
Unicode tables behind `\d`, `\b`, `int`, `upper` and `lower`.
-/
import KaggleRelay.Binary64
import KaggleRelay.Redaction
import KaggleRelay.Text

namespace KaggleRelay

/-- A decoded JSON value.  A float is its value, `none` for NaN and infinity. -/
inductive Value where
  | null
  | bool (b : Bool)
  | int (z : ℤ)
  | float (x : Option ℚ)
  | str (s : String)
  | list (items : List Value)
  | dict (fields : List (String × Value))

/-- `json.loads`, `none` where it raises `ValueError` or `RecursionError`, and
the Unicode tables. -/
structure Python where
  loads : String → Option Value
  /-- `\d`, with the value of the digit. -/
  decimal : Char → Option ℕ
  /-- `\w`. -/
  isWord : Char → Bool
  upper : String → String
  lower : String → String

/-! ### Provider states -/

/-- The values of `_STATES`, and `unknown` for a token it does not hold. -/
inductive ProviderState where
  | complete | error | canceled | running | queued | unknown
  deriving DecidableEq

/-- `_STATES`. -/
def states : List (String × ProviderState) :=
  [("COMPLETE", .complete), ("COMPLETED", .complete), ("SUCCESS", .complete),
    ("SUCCEEDED", .complete), ("ERROR", .error), ("FAILED", .error), ("FAILURE", .error),
    ("CANCEL_ACKNOWLEDGED", .canceled), ("CANCELED", .canceled), ("CANCELLED", .canceled),
    ("RUNNING", .running), ("QUEUED", .queued), ("PENDING", .queued), ("NEW", .queued),
    ("INITIALIZING", .queued), ("CANCEL_REQUESTED", .running)]

/-- `[\w.-]` under `re.ASCII`. -/
def refChar (c : Char) : Bool := c.isAlphanum || c == '_' || c == '.' || c == '-'

/-- `\s` under `re.ASCII`. -/
def asciiSpace (c : Char) : Bool := (9 ≤ c.toNat && c.toNat ≤ 13) || c == ' '

/-- `_CLI_STATUS`. -/
def cliStatus : Regex :=
  .cat [.chars refChar 1 none, .lit "/", .chars refChar 1 none, .chars asciiSpace 1 none,
    .lit "has status", .chars asciiSpace 1 none,
    .group 1 (.one fun c => c == '"' || c == '\''),
    .group 2 (.chars (fun c => !(c == '"' || c == '\'' || c == '\r' || c == '\n')) 1 none),
    .back 1, .chars (· == '.') 0 (some 1)]

/-- A JSON status: an object with a `status`, or the text itself. -/
def jsonStatus (payload : Option Value) : Option String :=
  match payload with
  | some (.dict fields) =>
    match fields.lookup "status" with
    | some (.str text) => some (Text.strip text)
    | _ => none
  | some (.str text) => some (Text.strip text)
  | _ => none

/-- The text starts as a JSON object, list or string does. -/
def opensJson (text : String) : Bool :=
  match text.toList.head? with
  | some c => c.toNat == 123 || c == '[' || c == '"'
  | none => false

/-- `_status_token`. -/
def statusToken (py : Python) (status : String) : String :=
  let text := Text.strip status
  match if opensJson text then jsonStatus (py.loads text) else some text with
  | none => "UNKNOWN"
  | some text =>
    let text := match cliStatus.fullmatch text with
      | some m => Text.strip (String.ofList (m.group 2))
      | none => text
    let text := if Text.startswith (py.lower text) "kernelworkerstatus."
      then String.ofList (text.toList.drop "KernelWorkerStatus.".length) else text
    let token := py.upper text
    if (states.lookup token).isSome then token else "UNKNOWN"

/-- `_STATES.get(token, "unknown")`. -/
def stateOf (token : String) : ProviderState := (states.lookup token).getD .unknown

/-! ### Numbers -/

/-- The names of `_NUMBERS`. -/
inductive NumberName where
  | epoch | epochs | bestEpoch | patience | elapsedSeconds
  deriving DecidableEq

/-- All of them. -/
def NumberName.all : List NumberName := [.epoch, .epochs, .bestEpoch, .patience, .elapsedSeconds]

theorem NumberName.mem_all (name : NumberName) : name ∈ all := by
  cases name <;> decide

/-- The key of a number. -/
def NumberName.key : NumberName → String
  | .epoch => "epoch"
  | .epochs => "epochs"
  | .bestEpoch => "best_epoch"
  | .patience => "patience"
  | .elapsedSeconds => "elapsed_seconds"

/-- A dict whose keys are names of numbers. -/
abbrev Numbers := NumberName → Option Value

/-- `{**a, **b}`. -/
def Numbers.update (a b : Numbers) : Numbers := fun name => (b name).or (a name)

/-- `_number`. -/
def number (name : NumberName) : Value → Bool
  | .int z =>
    if name = .elapsedSeconds then 0 ≤ z ∧ z ≤ 1000000000000
    else (if name = .patience then 0 else 1) ≤ z ∧ z ≤ 1000000000
  | .float (some x) => name = .elapsedSeconds ∧ 0 ≤ x ∧ x ≤ 1000000000000
  | _ => false

/-- `result.get(name, default)` for a name whose values are integers. -/
def Numbers.get (n : Numbers) (name : NumberName) (default : ℤ) : ℤ :=
  match n name with
  | some (.int z) => z
  | _ => default

/-- `_numeric_fields`. -/
def numericFields (payload : Numbers) (allowEpochOverrun : Bool) : Option Numbers :=
  if NumberName.all.any fun name => (payload name).any fun value => !number name value then none
  else if !allowEpochOverrun ∧ payload.get .epochs 1000000000 < payload.get .epoch 0 then none
  else if payload.get .epoch (payload.get .epochs 1000000000) < payload.get .bestEpoch 0 then none
  else some payload

/-- The numbers of a JSON object. -/
def numbersOf (fields : List (String × Value)) : Numbers := fun name => fields.lookup name.key

/-! ### The lines of a log -/

/-- `_ANSI`. -/
def ansi : Regex :=
  .cat [.one (·.toNat == 27), .lit "[", .chars (fun c => '0' ≤ c && c ≤ '?') 0 none,
    .chars (fun c => ' ' ≤ c && c ≤ '/') 0 none, .one fun c => '@' ≤ c && c ≤ '~']

/-- `_ANSI.sub("", text)`. -/
def dropAnsi (text : String) : String := String.ofList (ansi.sub (fun _ => []) text.toList)

namespace Python

variable (py : Python)

/-- `\d`. -/
def isDigit (c : Char) : Bool := (py.decimal c).isSome

/-- `int(text)` of a text of digits. -/
def int (text : List Char) : ℕ :=
  text.foldl (fun n c => 10 * n + (py.decimal c).getD 0) 0

/-- `float(text)` of digits with a fraction or without. -/
def float (text : List Char) : ℚ :=
  let whole := text.takeWhile (· != '.')
  let fraction := (text.dropWhile (· != '.')).drop 1
  Binary64.round (py.int whole + py.int fraction / 10 ^ fraction.length)

/-- `\d+(?:\.\d+)?`. -/
def decimals : Regex :=
  .cat [.chars py.isDigit 1 none, .alt (.cat [.lit ".", .chars py.isDigit 1 none]) .empty]

/-- The time of a data record. -/
def recordTime : Option Value → Option Value
  | some (.str text) =>
    if (py.decimals.fullmatch text).isSome then some (.float (some (py.float text.toList)))
    else some (.str text)
  | value => value

/-- `append_record`: the lines of a data record, and its time where that is a
number of seconds. -/
def appendRecord : Option Value → Option (List String × Option Value)
  | some (.dict fields) =>
    match fields.lookup "data" with
    | some (.str data) =>
      let value := py.recordTime (fields.lookup "time")
      some (Text.splitlines (dropAnsi data), value.filter (number .elapsedSeconds))
    | _ => none
  | _ => none

/-- One line of a log that is no JSON record as a whole. -/
def logLine (line : String) : List String × Option Value :=
  let candidate := Text.strip (Text.stripSets ['[', ','] [',', ']'] (Text.strip line))
  match py.appendRecord (py.loads candidate) with
  | some record => record
  | none => ([dropAnsi line], none)

/-- Records in order: all their lines, and the last time. -/
def joinRecords (records : List (List String × Option Value)) : List String × Option Value :=
  records.foldl (fun (lines, elapsed) (more, time) => (lines ++ more, time.or elapsed)) ([], none)

/-- `_log_lines`. -/
def logLines (logs : String) : List String × Option Value :=
  match py.loads logs with
  | some (.list records) =>
    joinRecords (records.filterMap fun record => py.appendRecord (some record))
  | decoded =>
    match py.appendRecord decoded with
    | some record => record
    | none => joinRecords ((Text.splitlines logs).map py.logLine)

/-! ### Training evidence -/

/-- `_EARLY_STOP`. -/
def earlyStop : Regex :=
  .cat [.lit "EarlyStopping:", .chars Text.isSpace 0 none,
    .lit "Training stopped early as no improvement observed in last ",
    .group 1 (.chars py.isDigit 1 (some 10)), .lit " epochs.", .chars Text.isSpace 0 none,
    .lit "Best results observed at epoch ", .group 2 (.chars py.isDigit 1 (some 10)),
    .bound py.isWord]

/-- `_COMPLETED`. -/
def completed : Regex :=
  .cat [.group 1 (.chars py.isDigit 1 (some 10)), .lit " epochs completed in ",
    .group 2 py.decimals, .lit " hours", .chars (· == '.') 0 (some 1)]

/-- `_FINAL_PROGRESS`. -/
def finalProgress : Regex :=
  .cat [.group 1 (.chars py.isDigit 1 (some 10)), .lit "/",
    .group 2 (.chars py.isDigit 1 (some 10)), .chars Text.isSpace 1 none,
    .chars (· != '\n') 0 none, .bound py.isWord, .lit "100%", .chars (· != '\n') 0 none]

/-- `_event`: the JSON object behind a marker. -/
def event (line marker : String) : Option (List (String × Value)) :=
  if !Text.startswith line marker then none
  else
    let suffix := line.toList.drop marker.length
    if !(suffix.head?.any fun c => c == ' ' || c == '\t' || c == ':') then none
    else
      let body := suffix.dropWhile Text.isSpace
      let body := if body.head? = some ':' then body.drop 1 else body
      match py.loads (Text.strip (String.ofList body)) with
      | some (.dict fields) => some fields
      | _ => none

end Python

/-- Evidence of a training reason. -/
structure Training where
  reason : String
  source : String
  confidence : String
  numbers : Numbers

/-- The variables of the loop of `_training_evidence`. -/
structure Evidence where
  marker : Option Training := none
  early : Option Training := none
  completed : Option Training := none
  progress : Numbers := fun _ => none

/-- The training reasons. -/
def trainingReasons : List String := ["early_stopping", "epochs_completed", "time_budget"]

/-- `_REASONS`. -/
def reasons : List String := trainingReasons ++ ["unknown"]

/-- A field that holds this text. -/
def holdsText (fields : List (String × Value)) (key text : String) : Bool :=
  match fields.lookup key with
  | some (.str s) => s == text
  | _ => false

/-- The reason of a confirmed runtime marker. -/
def confirmedReason (fields : List (String × Value)) : Option String :=
  match fields.lookup "reason" with
  | some (.str reason) =>
    if reason ∈ reasons ∧ holdsText fields "source" "runtime" ∧
        holdsText fields "confidence" "confirmed" then some reason
    else none
  | _ => none

/-- The numbers name the last epoch. -/
def Numbers.isFinal (n : Numbers) : Bool :=
  match n .epoch, n .epochs with
  | some (.int a), some (.int b) => a == b
  | _, _ => false

/-- The numbers name an epoch and the number of epochs. -/
def Numbers.isProgress (n : Numbers) : Bool := (n .epoch).isSome && (n .epochs).isSome

/-- A dict of integers. -/
def Numbers.ofInts (items : List (NumberName × ℕ)) : Numbers :=
  fun name => (items.lookup name).map fun n => .int n

namespace Evidence

/-- A `TRAINING_PLATFORM_STOP` line. -/
def readStop (e : Evidence) (payload : List (String × Value)) : Evidence :=
  match confirmedReason payload with
  | none => e
  | some reason =>
    match numericFields (numbersOf payload) (reason == "time_budget") with
    | none => e
    | some numbers =>
      if reason ≠ "epochs_completed" ∨ numbers.isFinal then
        { e with marker := some ⟨reason, "runtime", "confirmed", numbers⟩ }
      else { e with progress := e.progress.update numbers }

/-- Evidence that the last epoch was reached. -/
def ofFinal (numbers : Numbers) : Training := ⟨"epochs_completed", "logs", "inferred", numbers⟩

/-- A `TRAINING_PLATFORM_PROGRESS` line. -/
def readProgress (complete : Bool) (e : Evidence) (payload : List (String × Value)) : Evidence :=
  match numericFields (numbersOf payload) false with
  | none => e
  | some numbers =>
    if numbers.isProgress then
      if complete ∧ numbers.isFinal then
        { e with progress := numbers, completed := some (ofFinal numbers) }
      else { e with progress := numbers }
    else e

variable (py : Python)

/-- The numbers of an early stop. -/
def earlyNumbers (m : Regex.Cursor) : Numbers :=
  .ofInts [(.patience, py.int (m.group 1)), (.bestEpoch, py.int (m.group 2))]

/-- The numbers of a line that says how long the epochs took. -/
def completedNumbers (m : Regex.Cursor) : Numbers
  | .epoch => some (.int (py.int (m.group 1)))
  | .elapsedSeconds => some (.float (some (Binary64.round (py.float (m.group 2) * 3600))))
  | _ => none

/-- The numbers of a full progress bar. -/
def finalNumbers (m : Regex.Cursor) : Numbers :=
  .ofInts [(.epoch, py.int (m.group 1)), (.epochs, py.int (m.group 2))]

/-- An early stop. -/
def readEarly (e : Evidence) (m : Regex.Cursor) : Evidence :=
  match numericFields (earlyNumbers py m) false with
  | some numbers => { e with early := some ⟨"early_stopping", "logs", "confirmed", numbers⟩ }
  | none => e

/-- `_COMPLETED.fullmatch` on a line. -/
def readCompleted (e : Evidence) (line : String) : Evidence :=
  match py.completed.fullmatch line with
  | some m =>
    match numericFields (completedNumbers py m) false with
    -- the same summary is printed after early stops and time budgets
    | some numbers => { e with progress := e.progress.update numbers }
    | none => e
  | none => e

/-- `_FINAL_PROGRESS.fullmatch` on a line. -/
def readFinal (e : Evidence) (line : String) : Evidence :=
  match py.finalProgress.fullmatch line with
  | some m =>
    if m.group 1 = m.group 2 then
      match numericFields (finalNumbers py m) false with
      | some numbers => { e with completed := some (ofFinal numbers) }
      | none => e
    else e
  | none => e

/-- The body of the loop, on a line without its outer white space. -/
def readLine (complete : Bool) (e : Evidence) (line : String) : Evidence :=
  match py.event line "TRAINING_PLATFORM_STOP" with
  | some payload => e.readStop payload
  | none =>
    match py.event line "TRAINING_PLATFORM_PROGRESS" with
    | some payload => e.readProgress complete payload
    | none =>
      match py.earlyStop.matchStart line with
      | some m => e.readEarly py m
      | none => if complete then (e.readCompleted py line).readFinal py line else e

/-- `marker or early or completed`. -/
def training (e : Evidence) : Option Training := (e.marker.or e.early).or e.completed

end Evidence

/-- The loop of `_training_evidence`. -/
def trainingEvidence (py : Python) (lines : List String) (complete : Bool) : Evidence :=
  lines.foldl (fun e line => e.readLine py complete (Text.strip line)) {}

/-! ### The classification -/

/-- The keys of stop details. -/
inductive Field where
  | reason | source | confidence | providerStatus | message | trainingReason | suspectedReason
  | number (name : NumberName)
  deriving DecidableEq

/-- Stop details: a dict with these keys. -/
abbrev Details := Field → Option Value

namespace Details

/-- `result[field] = text`. -/
def text (d : Details) (field : Field) (s : String) : Details :=
  Function.update d field (some (.str s))

/-- `result.update(reason=…, source=…, confidence=…)`. -/
def outcome (d : Details) (reason source confidence : String) : Details :=
  ((d.text .reason reason).text .source source).text .confidence confidence

/-- `result.update(numbers)`. -/
def numbers (d : Details) (n : Numbers) : Details
  | .number name => (n name).or (d (.number name))
  | field => d field

end Details

/-- The fixed messages. -/
inductive Message where
  | unobserved | userCanceled | providerCanceled | nearLimit | failedAfterStop | failed
  | completedUnknown | trained (reason : String) | pending

/-- The text of a message. -/
def Message.text : Message → String
  | .unobserved => "No authoritative terminal provider status has been observed."
  | .userCanceled => "Kaggle confirmed cancellation requested through Relay."
  | .providerCanceled => "Kaggle confirmed cancellation; the cause was not supplied."
  | .nearLimit => "Kaggle confirmed cancellation; the cause was not supplied." ++
      " Last log timing is consistent with a 12-hour limit, but does not prove it."
  | .failedAfterStop =>
      "Kaggle reported failure after a training stop was logged; later processing may have failed."
  | .failed => "Kaggle reported kernel failure; the failing stage is not established."
  | .completedUnknown =>
      "Kaggle completed successfully; the training stop reason is unavailable."
  | .trained reason =>
      if reason = "early_stopping" then
        "Training stopped after no improvement within the patience window."
      else if reason = "epochs_completed" then
        "Training epoch completion was recorded and Kaggle completed successfully."
      else "The runtime reported stopping at its configured training time budget."
  | .pending =>
      "Kaggle has not reported a terminal state; the kernel is still running or queued."

/-- The last log lies near the limit of twelve hours. -/
def nearLimit : Option Value → Bool
  | some (.int z) => 42900 ≤ z ∧ z ≤ 43800
  | some (.float (some x)) => 42900 ≤ x ∧ x ≤ 43800
  | _ => false

/-- The numbers of the answer: those of the progress, the time of the log, then
those of the evidence. -/
def mergedNumbers (progress : Numbers) (elapsed : Option Value) (training : Option Training) :
    Numbers :=
  let details := progress.update fun name => if name = .elapsedSeconds then elapsed else none
  match training with
  | some t => details.update t.numbers
  | none => details

/-- The details before the state is looked at. -/
def observe (token : String) (state : ProviderState) (training : Option Training)
    (details : Numbers) : Details :=
  let result : Details := fun _ => none
  let result := ((result.outcome "unknown" "provider" "unknown").text .providerStatus token).numbers
    details
  match training with
  | some t => if state = .complete then result else result.text .trainingReason t.reason
  | none => result

/-- The answer for one state, without its message text. -/
def conclude (state : ProviderState) (training : Option Training) (elapsed : Option Value)
    (cancelRequested : Bool) (result : Details) : Details × Message :=
  match state with
  | .canceled =>
    if cancelRequested then (result.outcome "user_canceled" "relay" "confirmed", .userCanceled)
    else
      let result := result.outcome "provider_canceled" "provider" "confirmed"
      if nearLimit elapsed then (result.text .suspectedReason "time_limit", .nearLimit)
      else (result, .providerCanceled)
  | .error =>
    let stopped := training.any (·.reason != "unknown")
    ((result.text .reason "provider_failed").text .confidence "confirmed",
      if stopped then .failedAfterStop else .failed)
  | .complete =>
    let result := result.text .reason "completed_unknown"
    match training with
    | some t =>
      if t.reason ≠ "unknown" then
        ((result.outcome t.reason t.source t.confidence).numbers t.numbers, .trained t.reason)
      else (result, .completedUnknown)
    | none => (result, .completedUnknown)
  | .running | .queued => (result, .pending)
  | .unknown => (result, .unobserved)

/-- `classify_stop_reason`. -/
def classifyStopReason (py : Python) (extraSecrets : List String) (providerStatus logs : String)
    (cancelRequested : Bool) : Details :=
  let token := statusToken py providerStatus
  let state := stateOf token
  let log := py.logLines logs
  let evidence := trainingEvidence py log.1 (state = .complete)
  let training := evidence.training
  let result := observe token state training (mergedNumbers evidence.progress log.2 training)
  let answer := conclude state training log.2 cancelRequested result
  answer.1.text .message (redactSecrets extraSecrets answer.2.text)

end KaggleRelay

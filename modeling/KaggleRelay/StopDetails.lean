/-
The stop details of a job.

`recordStopDetails` is `record_stop_details` of `database.py`: the incoming
details are merged with those in the row, and the JSON text of the result is
redacted and stored.  What the callers hand over is `Produced`: an answer of
the classification, one of the dicts of `wait_kernel`, or what a training-stop
callback makes of an answer.

The merge is to keep a training reason once it is there.

* `carries_merge_iff` — it does, unless the update brings a training reason that
  is set but unknown;
* `merge_late_reason` — a late training stop leaves the outcome as it is.
-/
import KaggleRelay.StopVocabulary

namespace KaggleRelay

/-! ### The merge -/

/-- The truth value of `details.get(field)`. -/
def truthy : Option Value → Bool
  | none => false
  | some .null => false
  | some (.bool b) => b
  | some (.int z) => z != 0
  | some (.float (some x)) => x != 0
  | some (.float none) => true
  | some (.str s) => s != ""
  | some (.list items) => !items.isEmpty
  | some (.dict fields) => !fields.isEmpty

/-- `details.get(field) in texts`. -/
def isOneOf (v : Option Value) (texts : List String) : Bool :=
  match v with
  | some (.str s) => s ∈ texts
  | _ => false

/-- `a or b`. -/
def orElse (a b : Option Value) : Option Value := if truthy a then a else b

/-- The fields of stop details, in the order of their keys. -/
def Field.all : List Field :=
  [.number .bestEpoch, .confidence, .number .elapsedSeconds, .number .epoch, .number .epochs,
    .message, .number .patience, .providerStatus, .reason, .source, .suspectedReason,
    .trainingReason]

theorem Field.mem_all (field : Field) : field ∈ all := by
  rcases field with _ | _ | _ | _ | _ | _ | _ | name
  case number => rcases name with _ | _ | _ | _ | _ <;> simp [all]
  all_goals simp [all]

/-- Reasons that a late training stop may replace. -/
def replaceable : List String :=
  ["training_stopped", "unknown", "monitoring_timeout", "status_unavailable"]

namespace Details

/-- `details[field] = v`, for a value read elsewhere. -/
def set (d : Details) (field : Field) (v : Option Value) : Details := Function.update d field v

/-- No details. -/
def empty : Details := fun _ => none

/-- `bool(details)`. -/
def isNonempty (d : Details) : Bool := Field.all.any fun field => (d field).isSome

/-- `details.setdefault` for each of the numbers. -/
def setDefaults (d source : Details) : Details
  | .number name => (d (.number name)).or (source (.number name))
  | field => d field

/-- An outcome is there and the update only says that training stopped. -/
def isLate (previous incoming : Details) : Bool :=
  isOneOf (incoming .reason) ["training_stopped"] && previous.isNonempty &&
    !isOneOf (previous .reason) replaceable

/-- Late runtime evidence can enrich, but never replace, an outcome. -/
def enrich (previous incoming : Details) : Details :=
  if isOneOf (incoming .trainingReason) trainingReasons then
    setDefaults (previous.set .trainingReason
      ((previous .trainingReason).or (incoming .trainingReason))) incoming
  else previous

/-- The training reason of stop details. -/
def training (d : Details) : Option Value := orElse (d .trainingReason) (d .reason)

/-- The message of an outcome that keeps an earlier training reason. -/
def retainedMessage : String :=
  "Kaggle completed; the previously recorded training stop reason is retained."

/-- A later log-fetch failure must not erase a received runtime stop. -/
def retain (previous d : Details) : Details :=
  let d := setDefaults (d.set .trainingReason previous.training) previous
  if isOneOf (d .reason) ["completed_unknown"] && isOneOf (previous .confidence) ["confirmed"] &&
      isOneOf (previous .source) ["runtime", "logs"] then
    (((d.set .reason previous.training).set .source (previous .source)).text .confidence
      "confirmed").text .message retainedMessage
  else d

/-- The training reason is the one recorded before: its numbers are kept. -/
def keepNumbers (previous d : Details) : Details :=
  match previous.training, d.training with
  | some (.str s), some (.str t) => if s ∈ trainingReasons ∧ t = s then setDefaults d previous else d
  | _, _ => d

/-- The details that `record_stop_details` stores. -/
def merge (previous incoming : Details) : Details :=
  let d := if isLate previous incoming then enrich previous incoming else incoming
  let d := keepNumbers previous d
  if isOneOf previous.training trainingReasons && !truthy (d .trainingReason) &&
      !isOneOf (d .reason) trainingReasons then retain previous d
  else d

end Details

/-! ### The stored text -/

/-- `json.loads` of a stored text, `none` where it raises or gives no object, and
`json.dumps` with sorted keys. -/
structure DetailsJson where
  loads : String → Option Details
  dumps : Details → String

/-- The details that `record_stop_details` reads from the row. -/
def storedDetails (js : DetailsJson) (stored : String) : Details :=
  (js.loads (if stored = "" then "\x7b\x7d" else stored)).getD .empty

/-- `record_stop_details`: the column `stop_details` after a call, the row having
this status. -/
def recordStopDetails (js : DetailsJson) (extraSecrets : List String) (stored : String)
    (details : Details) (expectedStatuses : Option (List String)) (status : String) : String :=
  let encoded := redactSecrets extraSecrets
    (js.dumps (Details.merge (storedDetails js stored) details))
  if stored = encoded then stored
  else
    match expectedStatuses with
    | some statuses => if status ∈ statuses then encoded else stored
    | none => encoded

/-! ### What the callers record -/

/-- `provider_state`. -/
def providerStateText (py : Python) (status : String) : String :=
  match stateOf (statusToken py status) with
  | .complete => "COMPLETE"
  | .error => "ERROR"
  | .canceled => "CANCEL_ACKNOWLEDGED"
  | .running => "RUNNING"
  | .queued => "QUEUED"
  | .unknown => ""

/-- Details as `classify_stop_reason`, `wait_kernel` with its caller, and
`apply_progress_callback` produce them. -/
inductive Produced (py : Python) (extraSecrets : List String) : Details → Prop
  | classified (status logs : String) (cancelRequested : Bool) :
      Produced py extraSecrets (classifyStopReason py extraSecrets status logs cancelRequested)
  /-- A cancellation that the relay asked for. -/
  | relayCanceled (status logs : String)
      (h : classifyStopReason py extraSecrets status logs false .reason =
        some (.str "provider_canceled")) :
      Produced py extraSecrets
        ((((classifyStopReason py extraSecrets status logs false).text .reason
          "user_canceled").text .source "relay_and_provider").text .message
            "Relay cancellation was requested and Kaggle confirmed cancellation.")
  /-- The monitoring deadline has passed. -/
  | deadline (output : String) :
      Produced py extraSecrets
        (((Details.empty.outcome "monitoring_timeout" "relay" "unknown").text .providerStatus
          (providerStateText py output)).text .message
            ("Relay monitoring deadline exceeded; the original run is retained " ++
              "and its terminal state is unknown."))
  /-- So has it while the status was being asked for. -/
  | exhausted :
      Produced py extraSecrets
        ((Details.empty.outcome "monitoring_timeout" "relay" "unknown").text .message
          "Relay status-query retry budget exhausted; training termination is unconfirmed.")
  | unavailable (exc : String) :
      Produced py extraSecrets
        ((Details.empty.outcome "status_unavailable" "relay" "unknown").text .message
          (Text.lastChars 2000 (redactSecrets extraSecrets exc)))
  /-- A training-stop callback. -/
  | stopped (message : String)
      (h : truthy (classifyStopReason py extraSecrets "RUNNING" message false .trainingReason) =
        true) :
      Produced py extraSecrets
        ((((classifyStopReason py extraSecrets "RUNNING" message false).outcome
          "training_stopped" "runtime" "confirmed").text .providerStatus "UNKNOWN").text .message
            ("The runtime reported training ended; Kaggle completion and artifact delivery " ++
              "are still pending."))

/-! ### A training reason in stop details -/

namespace Details

/-- A training reason is there, as the reason or as the training reason. -/
def Carries (d : Details) : Prop :=
  isOneOf (d .reason) trainingReasons = true ∨ isOneOf (d .trainingReason) trainingReasons = true

/-- The training reason is set, but is none. -/
def isVague (d : Details) : Bool :=
  truthy (d .trainingReason) && !isOneOf (d .trainingReason) trainingReasons

/-- Details whose training reason is vague do not have one as their reason. -/
def Sound (d : Details) : Prop :=
  d.isVague = true → isOneOf (d .reason) trainingReasons = false

/-- The update takes the place of details that carry a training reason, and its own
is vague. -/
def Erases (previous incoming : Details) : Prop :=
  previous.Carries ∧ isLate previous incoming = false ∧ incoming.isVague = true ∧
    isOneOf (incoming .reason) trainingReasons = false

/-- The details whose outcome stays: the stored ones where the update is late. -/
def upheld (previous incoming : Details) : Details :=
  if isLate previous incoming then previous else incoming

/-- What the stored details and an update can make together: the outcome that is
upheld or a retained one, with a training reason and numbers of either. -/
structure Blends (previous incoming d : Details) : Prop where
  trainingReason : d .trainingReason = previous .trainingReason ∨
    d .trainingReason = previous.training ∨ d .trainingReason = incoming .trainingReason
  number : ∀ name, d (.number name) = previous (.number name) ∨
    d (.number name) = incoming (.number name)
  providerStatus : d .providerStatus = upheld previous incoming .providerStatus
  suspectedReason : d .suspectedReason = upheld previous incoming .suspectedReason
  outcome : (∀ field ∈ [Field.reason, .source, .confidence, .message],
      d field = upheld previous incoming field) ∨
    d .reason = previous.training ∧ d .source = previous .source ∧
      d .confidence = some (.str "confirmed") ∧ d .message = some (.str retainedMessage)

end Details

theorem isOneOf_iff {v : Option Value} {texts : List String} :
    isOneOf v texts = true ↔ ∃ s ∈ texts, v = some (.str s) := by
  constructor
  · intro h
    rcases v with _ | v
    · simp [isOneOf] at h
    rcases v with _ | b | z | x | s | l | f
    case str => exact ⟨s, by simpa [isOneOf] using h, rfl⟩
    all_goals simp [isOneOf] at h
  · rintro ⟨s, hs, rfl⟩
    simpa [isOneOf] using hs

theorem truthy_of_isOneOf {v : Option Value} {texts : List String} (hempty : "" ∉ texts)
    (h : isOneOf v texts = true) : truthy v = true := by
  obtain ⟨s, hs, rfl⟩ := isOneOf_iff.mp h
  have hne : s ≠ "" := fun heq => hempty (heq ▸ hs)
  simpa [truthy] using hne

theorem empty_notin : "" ∉ trainingReasons := by
  simp [trainingReasons]

open Details in
/-- Sound details carry a training reason exactly where `training` is one. -/
theorem carries_iff {d : Details} (hd : d.Sound) :
    d.Carries ↔ isOneOf d.training trainingReasons = true := by
  rw [Details.training, orElse]
  by_cases ht : truthy (d .trainingReason) = true
  · rw [if_pos ht]
    constructor
    · rintro (h | h)
      · by_contra hne
        have hvague : d.isVague = true := by
          simpa [isVague, ht] using hne
        rw [hd hvague] at h
        simp at h
      · exact h
    · exact Or.inr
  · rw [if_neg ht]
    constructor
    · rintro (h | h)
      · exact h
      · exact absurd (truthy_of_isOneOf empty_notin h) ht
    · exact Or.inl

/-! ### What the merge does to it -/

namespace Details

@[simp] theorem setDefaults_reason (d source : Details) :
    setDefaults d source .reason = d .reason := rfl

@[simp] theorem setDefaults_trainingReason (d source : Details) :
    setDefaults d source .trainingReason = d .trainingReason := rfl

theorem keepNumbers_eq (previous d : Details) :
    keepNumbers previous d = d ∨ keepNumbers previous d = setDefaults d previous := by
  rw [keepNumbers]
  split
  · split_ifs
    · exact Or.inr rfl
    · exact Or.inl rfl
  · exact Or.inl rfl

@[simp] theorem keepNumbers_reason (previous d : Details) :
    keepNumbers previous d .reason = d .reason := by
  rcases keepNumbers_eq previous d with h | h <;> rw [h]
  rfl

@[simp] theorem keepNumbers_trainingReason (previous d : Details) :
    keepNumbers previous d .trainingReason = d .trainingReason := by
  rcases keepNumbers_eq previous d with h | h <;> rw [h]
  rfl

theorem enrich_reason (previous incoming : Details) :
    enrich previous incoming .reason = previous .reason := by
  rw [enrich]
  split_ifs <;> rfl

/-- Enriching keeps a training reason and may bring one in. -/
theorem enrich_trainingReason (previous incoming : Details) :
    enrich previous incoming .trainingReason = previous .trainingReason ∨
      previous .trainingReason = none ∧
        isOneOf (enrich previous incoming .trainingReason) trainingReasons = true := by
  rw [enrich]
  split_ifs with h
  · change (previous .trainingReason).or (incoming .trainingReason) = _ ∨ _ ∧
      isOneOf ((previous .trainingReason).or (incoming .trainingReason)) _ = true
    rcases previous .trainingReason with _ | v
    · exact Or.inr ⟨rfl, h⟩
    · exact Or.inl rfl
  · exact Or.inl rfl

/-- The reason after a late failure to fetch logs: that of the update, or the
training reason. -/
theorem retain_reason (previous d : Details) :
    retain previous d .reason = d .reason ∨
      isOneOf (d .reason) ["completed_unknown"] = true ∧
        retain previous d .reason = previous.training := by
  rw [retain]
  split_ifs with h
  · rw [Bool.and_eq_true, Bool.and_eq_true] at h
    exact Or.inr ⟨h.1.1, rfl⟩
  · exact Or.inl rfl

theorem retain_trainingReason (previous d : Details) :
    retain previous d .trainingReason = previous.training := by
  rw [retain]
  split_ifs <;> rfl

/-- The details before the last rule of the merge. -/
def beforeRetain (previous incoming : Details) : Details :=
  keepNumbers previous (if isLate previous incoming then enrich previous incoming else incoming)

theorem merge_eq (previous incoming : Details) :
    merge previous incoming =
      if isOneOf previous.training trainingReasons &&
          !truthy (beforeRetain previous incoming .trainingReason) &&
            !isOneOf (beforeRetain previous incoming .reason) trainingReasons then
        retain previous (beforeRetain previous incoming)
      else beforeRetain previous incoming := rfl

/-- A training reason that is set and not vague is one. -/
theorem isOneOf_of_truthy {d : Details} (ht : truthy (d .trainingReason) = true)
    (hv : d.isVague = false) : isOneOf (d .trainingReason) trainingReasons = true := by
  simpa [isVague, ht] using hv

theorem enrich_isVague {previous incoming : Details} :
    (enrich previous incoming).isVague = true → previous.isVague = true := by
  intro h
  rcases enrich_trainingReason previous incoming with heq | ⟨_, htraining⟩
  · rwa [isVague, heq] at h
  · rw [isVague, htraining] at h
    simp at h

/-- The details before the last rule are vague only where the previous ones are or
the update is. -/
theorem beforeRetain_sound {previous incoming : Details} (hp : previous.Sound)
    (hi : incoming.Sound) : (beforeRetain previous incoming).Sound := by
  intro hvague
  rw [isVague, beforeRetain, keepNumbers_trainingReason] at hvague
  rw [beforeRetain, keepNumbers_reason]
  by_cases hlate : isLate previous incoming = true
  · rw [if_pos hlate] at hvague ⊢
    rw [enrich_reason]
    exact hp (enrich_isVague hvague)
  · rw [if_neg hlate] at hvague ⊢
    exact hi hvague

/-- The merge keeps details sound. -/
theorem merge_sound {previous incoming : Details} (hp : previous.Sound) (hi : incoming.Sound) :
    (merge previous incoming).Sound := by
  rw [merge_eq]
  split_ifs with h
  · rw [Bool.and_eq_true, Bool.and_eq_true] at h
    intro hvague
    rw [isVague, retain_trainingReason, h.1.1] at hvague
    simp at hvague
  · exact beforeRetain_sound hp hi

/-- **A training reason is lost exactly where a vague one takes its place.** -/
theorem carries_merge_iff {previous incoming : Details} (hp : previous.Sound)
    (hcarries : previous.Carries) :
    (merge previous incoming).Carries ↔ ¬ Erases previous incoming := by
  have htraining := (carries_iff hp).mp hcarries
  have hreason : beforeRetain previous incoming .reason =
      if isLate previous incoming then previous .reason else incoming .reason := by
    rw [beforeRetain, keepNumbers_reason]
    split_ifs
    · exact enrich_reason _ _
    · rfl
  have htrainingReason : beforeRetain previous incoming .trainingReason =
      if isLate previous incoming then enrich previous incoming .trainingReason
      else incoming .trainingReason := by
    rw [beforeRetain, keepNumbers_trainingReason]
    split_ifs <;> rfl
  rw [merge_eq, htraining, Bool.true_and]
  split_ifs with hretain
  · -- neither reason is there any more: the training reason is put back
    rw [Bool.and_eq_true, Bool.not_eq_true', Bool.not_eq_true'] at hretain
    refine iff_of_true (Or.inr ?_) ?_
    · rw [retain_trainingReason]
      exact htraining
    · rintro ⟨_, hlate, hvague, _⟩
      rw [htrainingReason, hlate, if_neg (by simp)] at hretain
      rw [isVague, hretain.1] at hvague
      simp at hvague
  · rw [Bool.and_eq_true, Bool.not_eq_true', Bool.not_eq_true', not_and] at hretain
    by_cases hlate : isLate previous incoming = true
    · -- the previous details stay, enriched
      refine iff_of_true ?_ fun h => by simp [h.2.1] at hlate
      rw [Carries, hreason, htrainingReason, if_pos hlate, if_pos hlate]
      rcases hcarries with h | h
      · exact Or.inl h
      · refine Or.inr ?_
        rcases enrich_trainingReason previous incoming with heq | ⟨_, henriched⟩
        · rw [heq]
          exact h
        · exact henriched
    · rw [Carries, hreason, htrainingReason, if_neg hlate, if_neg hlate]
      rw [hreason, htrainingReason, if_neg hlate, if_neg hlate] at hretain
      rw [Bool.not_eq_true] at hlate
      constructor
      · rintro (h | h) ⟨_, _, hvague, hnone⟩
        · rw [h] at hnone
          simp at hnone
        · rw [isVague, h] at hvague
          simp at hvague
      · intro hkeeps
        by_cases hr : isOneOf (incoming .reason) trainingReasons = true
        · exact Or.inl hr
        · refine Or.inr (isOneOf_of_truthy ?_ ?_)
          · by_contra ht
            exact hr (by simpa using hretain (by simpa using ht))
          · by_contra hv
            exact hkeeps ⟨hcarries, hlate, by simpa using hv, by simpa using hr⟩

/-- A late training stop leaves the outcome as it is. -/
theorem merge_late_reason {previous incoming : Details} (hlate : isLate previous incoming = true) :
    merge previous incoming .reason = previous .reason := by
  have hreason : beforeRetain previous incoming .reason = previous .reason := by
    rw [beforeRetain, keepNumbers_reason, if_pos hlate, enrich_reason]
  rw [merge_eq]
  split_ifs with h
  · rcases retain_reason previous (beforeRetain previous incoming) with heq | ⟨hunknown, _⟩
    · rw [heq, hreason]
    · -- a completed kernel without a training reason has none to put back
      rw [Bool.and_eq_true, Bool.and_eq_true, Bool.not_eq_true', Bool.not_eq_true'] at h
      have hunset : truthy (previous .trainingReason) = false := by
        have htraining := h.1.2
        rw [beforeRetain, keepNumbers_trainingReason, if_pos hlate] at htraining
        rcases enrich_trainingReason previous incoming with heq | ⟨hnone, _⟩
        · rwa [heq] at htraining
        · rw [hnone]
          rfl
      have htraining := h.1.1
      rw [training, orElse, hunset, if_neg (by simp)] at htraining
      rw [hreason] at hunknown
      obtain ⟨s, hs, heq⟩ := isOneOf_iff.mp hunknown
      rw [heq, List.mem_singleton.mp hs] at htraining
      simp [isOneOf, trainingReasons] at htraining
  · exact hreason

/-! ### What the merge makes of the two -/

section Blends

variable {previous incoming d : Details}

/-- A number that is set by default is one of the two. -/
theorem setDefaults_number (d source : Details) (name : NumberName) :
    setDefaults d source (.number name) = d (.number name) ∨
      setDefaults d source (.number name) = source (.number name) := by
  change (d (.number name)).or (source (.number name)) = _ ∨
    (d (.number name)).or (source (.number name)) = _
  rcases d (.number name) with _ | v
  · exact Or.inr rfl
  · exact Or.inl rfl

/-- Numbers of the stored details may fill in those that are not there. -/
theorem Blends.setDefaults (h : Blends previous incoming d) :
    Blends previous incoming (setDefaults d previous) where
  trainingReason := h.trainingReason
  number name := by
    rcases setDefaults_number d previous name with heq | heq
    · rw [heq]
      exact h.number name
    · exact Or.inl heq
  providerStatus := h.providerStatus
  suspectedReason := h.suspectedReason
  outcome := by
    refine h.outcome.imp_left fun hkept field hfield => ?_
    rw [← hkept field hfield]
    simp only [List.mem_cons, List.not_mem_nil, or_false] at hfield
    rcases hfield with rfl | rfl | rfl | rfl <;> rfl

/-- The stored details with what a late update adds, or the update. -/
theorem blends_upheld (previous incoming : Details) :
    Blends previous incoming
      (if isLate previous incoming then enrich previous incoming else incoming) := by
  by_cases hlate : isLate previous incoming = true
  · have hupheld : upheld previous incoming = previous := if_pos hlate
    rw [if_pos hlate, enrich]
    split_ifs
    · refine ⟨?_, fun name => setDefaults_number _ _ name, ?_, ?_, Or.inl fun field hfield => ?_⟩
      · change (previous .trainingReason).or (incoming .trainingReason) = _ ∨ _
        rcases previous .trainingReason with _ | v
        · exact Or.inr (Or.inr rfl)
        · exact Or.inl rfl
      · rw [hupheld]
        rfl
      · rw [hupheld]
        rfl
      · rw [hupheld]
        simp only [List.mem_cons, List.not_mem_nil, or_false] at hfield
        rcases hfield with rfl | rfl | rfl | rfl <;> rfl
    · refine ⟨Or.inl rfl, fun _ => Or.inl rfl, ?_, ?_, Or.inl fun _ _ => ?_⟩ <;> rw [hupheld]
  · have hupheld : upheld previous incoming = incoming := if_neg hlate
    rw [if_neg hlate]
    refine ⟨Or.inr (Or.inr rfl), fun _ => Or.inr rfl, ?_, ?_, Or.inl fun _ _ => ?_⟩ <;> rw [hupheld]

theorem Blends.keepNumbers (h : Blends previous incoming d) :
    Blends previous incoming (keepNumbers previous d) := by
  rcases keepNumbers_eq previous d with heq | heq <;> rw [heq]
  · exact h
  · exact h.setDefaults

theorem Blends.retain (h : Blends previous incoming d) :
    Blends previous incoming (retain previous d) := by
  have hset : Blends previous incoming (d.set .trainingReason previous.training) := by
    refine ⟨Or.inr (Or.inl rfl), h.number, h.providerStatus, h.suspectedReason, ?_⟩
    refine h.outcome.imp_left fun hkept field hfield => ?_
    rw [← hkept field hfield]
    simp only [List.mem_cons, List.not_mem_nil, or_false] at hfield
    rcases hfield with rfl | rfl | rfl | rfl <;> rfl
  have hkept := hset.setDefaults
  rw [Details.retain]
  split_ifs
  · exact ⟨hkept.trainingReason, hkept.number, hkept.providerStatus, hkept.suspectedReason,
      Or.inr ⟨rfl, rfl, rfl, rfl⟩⟩
  · exact hkept

theorem merge_blends (previous incoming : Details) :
    Blends previous incoming (merge previous incoming) := by
  have hbefore : Blends previous incoming (beforeRetain previous incoming) :=
    (blends_upheld previous incoming).keepNumbers
  rw [merge_eq]
  split_ifs
  · exact hbefore.retain
  · exact hbefore

end Blends

end Details

end KaggleRelay

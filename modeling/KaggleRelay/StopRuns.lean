/-
Runs of `record_stop_details`.

`evidence_monotone` — on runs whose calls bring no vague training reason in the
place of one that is stored, and whose details redaction leaves alone up to the
message, a training reason stays once it is stored, and a late callback never
replaces an outcome.

`evidence_lost` — without the condition it need not stay: a callback records a
time budget, the kernel then fails, its log has a marker of unknown reason, and
the details of the failure erase the time budget.

What `json` does stands in `DetailsJson.Lawful`.
-/
import KaggleRelay.StopDetails
import Mathlib.Logic.Relation

namespace KaggleRelay

/-! ### Values that JSON carries -/

/-- A text or a number. -/
def Value.IsScalar (v : Value) : Prop := v.IsNumber ∨ ∃ s, v = .str s

namespace Details

/-- Every value is a text or a number. -/
def Scalar (d : Details) : Prop := ∀ field v, d field = some v → v.IsScalar

theorem scalar_empty : empty.Scalar := by
  intro field v h
  simp [empty] at h

theorem Speaks.scalar {d : Details} (h : d.Speaks) : d.Scalar := by
  intro field v hv
  rcases h field v hv with hnumber | ⟨s, hs, _⟩
  · exact Or.inl hnumber
  · exact Or.inr ⟨s, hs⟩

theorem Scalar.set {d : Details} (h : d.Scalar) {field : Field} {w : Option Value}
    (hw : ∀ v, w = some v → v.IsScalar) : (d.set field w).Scalar := by
  intro other v hv
  by_cases heq : other = field
  · subst heq
    rw [Details.set, Function.update_self] at hv
    exact hw v hv
  · rw [Details.set, Function.update_of_ne heq] at hv
    exact h other v hv

theorem Scalar.text {d : Details} (h : d.Scalar) (field : Field) (s : String) :
    (d.text field s).Scalar :=
  h.set fun _ hv => Or.inr ⟨s, (Option.some.inj hv).symm⟩

theorem Scalar.outcome {d : Details} (h : d.Scalar) (reason source confidence : String) :
    (d.outcome reason source confidence).Scalar :=
  ((h.text _ _).text _ _).text _ _

theorem Scalar.training {d : Details} (h : d.Scalar) : ∀ v, d.training = some v → v.IsScalar := by
  intro v hv
  rw [Details.training, orElse] at hv
  split_ifs at hv
  · exact h _ v hv
  · exact h _ v hv

/-- What texts and numbers make together holds nothing else. -/
theorem Blends.scalar {previous incoming d : Details} (h : Blends previous incoming d)
    (hp : previous.Scalar) (hi : incoming.Scalar) : d.Scalar := by
  have hupheld : (upheld previous incoming).Scalar := by
    rw [upheld]
    split_ifs
    · exact hp
    · exact hi
  have houtcome : ∀ field ∈ [Field.reason, .source, .confidence, .message], ∀ v,
      d field = some v → v.IsScalar := by
    intro field hfield v hv
    rcases h.outcome with hkept | ⟨hreason, hsource, hconfidence, hmessage⟩
    · rw [hkept field hfield] at hv
      exact hupheld _ v hv
    · simp only [List.mem_cons, List.not_mem_nil, or_false] at hfield
      rcases hfield with rfl | rfl | rfl | rfl
      · exact hp.training v (hreason ▸ hv)
      · exact hp _ v (hsource ▸ hv)
      · exact Or.inr ⟨_, Option.some.inj (hv.symm.trans hconfidence)⟩
      · exact Or.inr ⟨_, Option.some.inj (hv.symm.trans hmessage)⟩
  intro field v hv
  rcases field with _ | _ | _ | _ | _ | _ | _ | name
  case trainingReason =>
    rcases h.trainingReason with heq | heq | heq
    · exact hp _ v (heq ▸ hv)
    · exact hp.training v (heq ▸ hv)
    · exact hi _ v (heq ▸ hv)
  case number =>
    rcases h.number name with heq | heq
    · exact hp _ v (heq ▸ hv)
    · exact hi _ v (heq ▸ hv)
  case providerStatus => exact hupheld _ v (h.providerStatus ▸ hv)
  case suspectedReason => exact hupheld _ v (h.suspectedReason ▸ hv)
  all_goals exact houtcome _ (by simp) v hv

end Details

section Producing

variable {py : Python} {extraSecrets : List String} {d : Details}

theorem classify_scalar (status logs : String) (cancelRequested : Bool) :
    (classifyStopReason py extraSecrets status logs cancelRequested).Scalar := by
  have hanswer : (answer py status logs cancelRequested).1.Speaks :=
    conclude_speaks (observed_speaks py status logs) fun t ht => worded_of_readings ht
  rw [classifyStopReason_eq]
  exact hanswer.scalar.text _ _

theorem Produced.scalar (h : Produced py extraSecrets d) : d.Scalar := by
  rcases h with ⟨status, logs, cancelRequested⟩ | ⟨status, logs, _⟩ | _ | _ | _ | ⟨message, _⟩
  · exact classify_scalar _ _ _
  · exact (((classify_scalar _ _ _).text _ _).text _ _).text _ _
  · exact ((Details.scalar_empty.outcome _ _ _).text _ _).text _ _
  · exact (Details.scalar_empty.outcome _ _ _).text _ _
  · exact (Details.scalar_empty.outcome _ _ _).text _ _
  · exact (((classify_scalar _ _ _).outcome _ _ _).text _ _).text _ _

/-- A training reason beside the reason is only reported for a kernel that did not
complete, whose reason is none of training. -/
theorem classify_sound (status logs : String) (cancelRequested : Bool) :
    (classifyStopReason py extraSecrets status logs cancelRequested).Sound := by
  intro hvague
  rw [classify_reason]
  have hstate : providerState py status ≠ .complete := by
    intro hcomplete
    rw [Details.isVague, classify_trainingReason, if_pos hcomplete] at hvague
    simp [truthy] at hvague
  rcases h : providerState py status with _ | _ | _ | _ | _ | _
  · exact absurd h hstate
  all_goals rcases cancelRequested with _ | _ <;>
    simp [concludedReason, isOneOf, trainingReasons]

theorem Produced.sound (h : Produced py extraSecrets d) : d.Sound := by
  rcases h with ⟨status, logs, cancelRequested⟩ | ⟨status, logs, _⟩ | _ | _ | _ | ⟨message, _⟩
  · exact classify_sound _ _ _
  all_goals
    intro _
    simp [Details.text, Details.outcome, isOneOf, trainingReasons]

end Producing

/-! ### Runs -/

/-- What the relay relies on in `json`: a written text is not empty, and is read
back as it was. -/
structure DetailsJson.Lawful (js : DetailsJson) : Prop where
  nonempty : ∀ d : Details, d.Scalar → js.dumps d ≠ ""
  reads : ∀ d : Details, d.Scalar → js.loads (js.dumps d) = some d
  empty : js.loads "\x7b\x7d" = some .empty

/-- A text without a secret and without a token. -/
def Clean (extraSecrets : List String) (text : String) : Prop :=
  (∀ secret ∈ extraSecrets, occursIn secret.toList text.toList = false) ∧ tokenFree text = true

/-- A call of `record_stop_details` with details that its callers produce. -/
structure StopCall (py : Python) (extraSecrets : List String) where
  details : Details
  produced : Produced py extraSecrets details
  expectedStatuses : Option (List String)
  status : String

section Runs

variable {js : DetailsJson} {py : Python} {extraSecrets : List String}

/-- The column after a call. -/
def StopCall.record (js : DetailsJson) (c : StopCall py extraSecrets) (stored : String) : String :=
  recordStopDetails js extraSecrets stored c.details c.expectedStatuses c.status

/-- Redaction of the text of these details changes at most their message. -/
def Survives (js : DetailsJson) (extraSecrets : List String) (d : Details) : Prop :=
  ∃ message, storedDetails js (redactSecrets extraSecrets (js.dumps d)) = d.set .message message

/-- The row has one of the statuses that a call expects. -/
def StopCall.IsAccepted (c : StopCall py extraSecrets) : Prop :=
  ∀ statuses, c.expectedStatuses = some statuses → c.status ∈ statuses

/-- Whatever a call that is accepted makes of the stored details survives redaction. -/
def StopCall.Legible (js : DetailsJson) (c : StopCall py extraSecrets) (stored : String) : Prop :=
  c.IsAccepted → ∀ d, Details.Blends (storedDetails js stored) c.details d →
    Survives js extraSecrets d

/-- A legible call that, where it is accepted, erases no training reason. -/
def StopCall.Keeps (js : DetailsJson) (c : StopCall py extraSecrets) (stored : String) : Prop :=
  c.Legible js stored ∧
    (c.IsAccepted → ¬ Details.Erases (storedDetails js stored) c.details)

variable (js py extraSecrets) in
/-- The columns that calls lead to. -/
def Observed : String → String → Prop :=
  Relation.ReflTransGen fun stored next =>
    ∃ c : StopCall py extraSecrets, next = c.record js stored

variable (js py extraSecrets) in
/-- The columns that calls lead to that are legible and erase no training reason. -/
def Observing : String → String → Prop :=
  Relation.ReflTransGen fun stored next =>
    ∃ c : StopCall py extraSecrets, c.Keeps js stored ∧ next = c.record js stored

theorem storedDetails_start (hjs : js.Lawful) : storedDetails js "\x7b\x7d" = .empty := by
  rw [storedDetails, if_neg (by simp), hjs.empty]
  rfl

/-- A call that is accepted stores the redacted text of the merged details. -/
theorem record_accepted {stored : String} {c : StopCall py extraSecrets}
    (haccepted : c.IsAccepted) : c.record js stored =
      redactSecrets extraSecrets (js.dumps (Details.merge (storedDetails js stored) c.details)) := by
  unfold StopCall.record recordStopDetails
  dsimp only
  split_ifs with heq
  · exact heq
  · rcases hstatuses : c.expectedStatuses with _ | statuses
    · rfl
    · dsimp only
      rw [if_pos (haccepted statuses hstatuses)]

/-- A call that is not accepted stores nothing. -/
theorem record_refused {stored : String} {c : StopCall py extraSecrets}
    (hrefused : ¬ c.IsAccepted) : c.record js stored = stored := by
  rw [StopCall.IsAccepted] at hrefused
  push Not at hrefused
  obtain ⟨statuses, hstatuses, hstatus⟩ := hrefused
  unfold StopCall.record recordStopDetails
  rw [hstatuses]
  dsimp only
  rw [if_neg hstatus, ite_self]

/-- A clean text is read back as it was written. -/
theorem storedDetails_of_clean (hjs : js.Lawful) {d : Details} (hd : d.Scalar)
    (hclean : Clean extraSecrets (js.dumps d)) :
    storedDetails js (redactSecrets extraSecrets (js.dumps d)) = d := by
  rw [redactSecrets_eq_self hclean.1 hclean.2, storedDetails, if_neg (hjs.nonempty _ hd),
    hjs.reads _ hd]
  rfl

/-- Where no text that the two make together holds a secret, the call is legible. -/
theorem legible_of_clean (hjs : js.Lawful) {stored : String} {c : StopCall py extraSecrets}
    (hscalar : (storedDetails js stored).Scalar)
    (hclean : ∀ d, Details.Blends (storedDetails js stored) c.details d →
      Clean extraSecrets (js.dumps d)) : c.Legible js stored := by
  intro _ d hd
  refine ⟨d .message, ?_⟩
  rw [storedDetails_of_clean hjs (hd.scalar hscalar c.produced.scalar) (hclean d hd), Details.set,
    Function.update_eq_self]

/-- A legible call stores the merged details up to their message, or nothing. -/
theorem storedDetails_record {stored : String} {c : StopCall py extraSecrets}
    (hlegible : c.Legible js stored) :
    (c.IsAccepted ∧ ∃ message, storedDetails js (c.record js stored) =
        (Details.merge (storedDetails js stored) c.details).set .message message) ∨
      c.record js stored = stored := by
  by_cases haccepted : c.IsAccepted
  · obtain ⟨message, hread⟩ := hlegible haccepted _ (Details.merge_blends _ _)
    refine Or.inl ⟨haccepted, message, ?_⟩
    rw [record_accepted haccepted, hread]
  · exact Or.inr (record_refused haccepted)

/-- The details in the column of a job stay sound. -/
theorem sound_record {stored : String} (hsound : (storedDetails js stored).Sound)
    {c : StopCall py extraSecrets} (hlegible : c.Legible js stored) :
    (storedDetails js (c.record js stored)).Sound := by
  rcases storedDetails_record hlegible with ⟨_, message, h⟩ | h
  · rw [h]
    exact Details.merge_sound hsound c.produced.sound
  · rwa [h]

theorem sound_start (hjs : js.Lawful) : (storedDetails js "\x7b\x7d").Sound := by
  rw [storedDetails_start hjs]
  intro hvague
  simp [Details.isVague, Details.empty, truthy] at hvague

theorem sound_of_observing {stored next : String} (hsound : (storedDetails js stored).Sound)
    (h : Observing js py extraSecrets stored next) : (storedDetails js next).Sound := by
  induction h with
  | refl => exact hsound
  | tail _ hstep ih =>
    obtain ⟨c, hkeeps, rfl⟩ := hstep
    exact sound_record ih hkeeps.1

/-- What such a run keeps once it is there. -/
theorem carries_of_observing {stored next : String} (hsound : (storedDetails js stored).Sound)
    (h : Observing js py extraSecrets stored next)
    (hcarries : (storedDetails js stored).Carries) : (storedDetails js next).Carries := by
  induction h with
  | refl => exact hcarries
  | tail hrun hstep ih =>
    obtain ⟨c, hkeeps, rfl⟩ := hstep
    rcases storedDetails_record hkeeps.1 with ⟨haccepted, message, heq⟩ | heq
    · rw [heq]
      exact (Details.carries_merge_iff (sound_of_observing hsound hrun) ih).mpr
        (hkeeps.2 haccepted)
    · rwa [heq]

end Runs

/-- **Stop evidence is monotone** on runs of legible calls that bring no vague
training reason in the place of one that is stored; and a legible late training
stop never replaces an outcome. -/
theorem evidence_monotone (js : DetailsJson) (hjs : js.Lawful) (py : Python)
    (extraSecrets : List String) (stored : String)
    (hrun : Observing js py extraSecrets "\x7b\x7d" stored) :
    (∀ next, Observing js py extraSecrets stored next →
        (storedDetails js stored).Carries → (storedDetails js next).Carries) ∧
      ∀ c : StopCall py extraSecrets, c.Legible js stored →
        c.details .reason = some (.str "training_stopped") →
        ∀ outcome, storedDetails js stored .reason = some (.str outcome) → outcome ∉ replaceable →
          storedDetails js (c.record js stored) .reason = some (.str outcome) := by
  have hsound := sound_of_observing (sound_start hjs) hrun
  refine ⟨fun next h hcarries => carries_of_observing hsound h hcarries, ?_⟩
  intro c hlegible hstopped outcome houtcome hkept
  rcases storedDetails_record hlegible with ⟨_, message, heq⟩ | heq
  · have hlate : Details.isLate (storedDetails js stored) c.details = true := by
      have hnonempty : (storedDetails js stored).isNonempty = true :=
        List.any_eq_true.mpr ⟨.reason, Field.mem_all _, by rw [houtcome]; rfl⟩
      rw [Details.isLate, hnonempty, hstopped, houtcome]
      simpa [isOneOf] using hkept
    have hreason := Details.merge_late_reason hlate
    rw [heq, ← houtcome, ← hreason]
    rfl
  · rw [heq, houtcome]

/-! ### Details as JSON -/

/-- The key of a field. -/
def Field.key : Field → String
  | .reason => "reason"
  | .source => "source"
  | .confidence => "confidence"
  | .providerStatus => "provider_status"
  | .message => "message"
  | .trainingReason => "training_reason"
  | .suspectedReason => "suspected_reason"
  | .number name => name.key

/-- The field of a key. -/
def Field.ofKey (key : String) : Option Field := Field.all.find? fun field => field.key == key

theorem Field.ofKey_key (field : Field) : ofKey field.key = some field := by
  rcases field with _ | _ | _ | _ | _ | _ | _ | name
  case number => rcases name with _ | _ | _ | _ | _ <;> rfl
  all_goals rfl

theorem Field.key_injective : Function.Injective Field.key := by
  intro f g h
  have hf := f.ofKey_key
  rw [h, g.ofKey_key] at hf
  exact (Option.some.inj hf).symm

/-- A value in JSON; a float is written as a fraction here. -/
def Value.toJson : Value → JsonText.Json
  | .int z => .int z
  | .str s => .str s
  | .float (some x) => .arr [.int x.num, .int x.den]
  | _ => .null

/-- The value of a JSON text or number. -/
def Value.ofStored : JsonText.Json → Option Value
  | .int z => some (.int z)
  | .str s => some (.str s)
  | .arr [.int n, .int d] => some (.float (some (n / d)))
  | _ => none

/-- Stop details whose numbers are integers as Python's `json` writes them, but
for the characters beyond ASCII, which are escaped here. -/
def DetailsJson.ascii : DetailsJson where
  loads text :=
    match JsonText.loads text with
    | some (.obj fields) => some fun field => (fields.lookup field.key).bind Value.ofStored
    | _ => none
  dumps d :=
    JsonText.dumps .spaced (.obj
      (Field.all.filterMap fun field => (d field).map fun v => (field.key, v.toJson)))

theorem Value.ofStored_toJson {v : Value} (h : v.IsScalar) : Value.ofStored v.toJson = some v := by
  rcases h with h | ⟨s, rfl⟩
  · rcases v with _ | b | z | (_ | x) | s | l | f
    · exact absurd h not_false
    · exact absurd h not_false
    · rfl
    · exact absurd h not_false
    · change some (Value.float (some ((x.num : ℚ) / ((x.den : ℤ) : ℚ)))) = _
      rw [Int.cast_natCast, Rat.num_div_den]
    all_goals exact absurd h not_false
  · rfl

theorem plain_toJson (v : Value) : JsonText.Plain v.toJson := by
  rcases v with _ | b | z | (_ | x) | s | l | f <;>
    simp [Value.toJson, JsonText.Plain, JsonText.PlainItems]

theorem lookup_fields (d : Details) (field : Field) : ∀ {fields : List Field},
    (fields.filterMap fun f => (d f).map fun v => (f.key, v.toJson)).lookup field.key =
      if field ∈ fields then (d field).map Value.toJson else none := by
  intro fields
  induction fields with
  | nil => rfl
  | cons f fields ih =>
    by_cases heq : field = f
    · subst heq
      rcases hd : d field with _ | v
      · rw [List.filterMap_cons_none (by rw [hd]; rfl), ih]
        simp [hd]
      · rw [List.filterMap_cons_some (by rw [hd]; rfl)]
        simp
    · have hkey : (field.key == f.key) = false := by
        simpa using fun h => heq (Field.key_injective h)
      have hmem : field ∈ f :: fields ↔ field ∈ fields := by
        simp [heq]
      simp only [hmem]
      rcases hd : d f with _ | v
      · rw [List.filterMap_cons_none (by rw [hd]; rfl), ih]
      · rw [List.filterMap_cons_some (by rw [hd]; rfl), List.lookup_cons, hkey]
        exact ih

theorem plain_fields (d : Details) : JsonText.Plain (.obj
    (Field.all.filterMap fun field => (d field).map fun v => (field.key, v.toJson))) := by
  have hplain : ∀ fields : List Field, JsonText.PlainFields
      (fields.filterMap fun field => (d field).map fun v => (field.key, v.toJson)) := by
    intro fields
    induction fields with
    | nil => trivial
    | cons f fields ih =>
      rcases hd : d f with _ | v
      · rwa [List.filterMap_cons_none (by rw [hd]; rfl)]
      · rw [List.filterMap_cons_some (by rw [hd]; rfl)]
        exact ⟨plain_toJson v, ih⟩
  have hkeys : ∀ fields : List Field,
      ((fields.filterMap fun field => (d field).map fun v => (field.key, v.toJson)).map
        Prod.fst).Sublist (fields.map Field.key) := by
    intro fields
    induction fields with
    | nil => exact List.Sublist.slnil
    | cons f fields ih =>
      rcases hd : d f with _ | v
      · rw [List.filterMap_cons_none (by rw [hd]; rfl)]
        exact ih.cons _
      · rw [List.filterMap_cons_some (by rw [hd]; rfl)]
        exact ih.cons_cons _
  have hnodup : (Field.all.map Field.key).Nodup :=
    List.Nodup.map Field.key_injective (by decide)
  exact ⟨(hkeys Field.all).nodup hnodup, hplain Field.all⟩

theorem DetailsJson.ascii_lawful : DetailsJson.ascii.Lawful := by
  refine ⟨?_, ?_, ?_⟩
  · intro d _ h
    have hlength := congrArg String.length h
    simp [DetailsJson.ascii, JsonText.dumps, JsonText.dump] at hlength
  · intro d hd
    have hread := JsonText.loads_dumps .spaced (plain_fields d)
    simp only [DetailsJson.ascii, hread, Option.some.injEq]
    funext field
    rw [lookup_fields, if_pos field.mem_all]
    rcases h : d field with _ | v
    · rfl
    · exact Value.ofStored_toJson (hd field v h)
  · have hread := JsonText.loads_dumps .spaced (plain_fields .empty)
    have htext : JsonText.dumps .spaced (.obj (Field.all.filterMap fun field =>
        (Details.empty field).map fun v => (field.key, v.toJson))) = "\x7b\x7d" := rfl
    rw [htext] at hread
    simp only [DetailsJson.ascii, hread]
    rfl

/-! ### A log of one marker -/

/-- A text between two characters that are not white space is not stripped. -/
theorem stripList_eq {c d : Char} {l : List Char} (hc : Text.isSpace c = false)
    (hd : Text.isSpace d = false) : Text.stripList (c :: (l ++ [d])) = c :: (l ++ [d]) := by
  rw [Text.stripList, List.dropWhile_cons_of_neg (by simp [hc])]
  rw [show (c :: (l ++ [d])).reverse = d :: (c :: l).reverse by simp,
    List.dropWhile_cons_of_neg (by simp [hd])]
  simp

/-- A marker, a blank, and the text of an object. -/
def markerLine (marker object : String) : String := marker ++ (" " ++ object)

theorem markerLine_toList (marker object : String) :
    (markerLine marker object).toList = marker.toList ++ ' ' :: object.toList := by
  simp [markerLine, String.toList_append]

section MarkerLine

variable {py : Python} {marker object : String} {l : List Char} {fields : List (String × Value)}

/-- The object behind a marker is found. -/
theorem event_markerLine
    (hl : object.toList = JsonText.openBrace :: (l ++ [JsonText.closeBrace]))
    (hloads : py.loads object = some (.dict fields)) :
    py.event (markerLine marker object) marker = some fields := by
  have hdrop : (markerLine marker object).toList.drop marker.length = ' ' :: object.toList := by
    rw [markerLine_toList, ← String.length_toList, List.drop_left]
  have hstart : Text.startswith (markerLine marker object) marker = true :=
    Text.startswith_append _ _
  have hbody : (' ' :: object.toList).dropWhile Text.isSpace = object.toList := by
    rw [List.dropWhile_cons_of_pos (by decide), hl, List.dropWhile_cons_of_neg (by decide)]
  have hhead : ¬ object.toList.head? = some ':' := by
    rw [hl]
    simp [JsonText.openBrace]
  have hstrip : Text.strip (String.ofList object.toList) = object := by
    rw [Text.strip, String.toList_ofList, hl, stripList_eq (by decide) (by decide), ← hl,
      String.ofList_toList]
  rw [Python.event, hstart, hdrop]
  dsimp only
  rw [hbody, if_neg (by simp), if_neg (by simp), if_neg hhead, hstrip, hloads]

/-- A printable character of ASCII. -/
def printable (c : Char) : Bool := 32 ≤ c.toNat && c.toNat ≤ 126

theorem splitlines_printable {line : String} (hne : line.toList ≠ [])
    (h : line.toList.all printable = true) : Text.splitlines line = [line] := by
  have hfrom : ∀ (l past : List Char), past ++ l ≠ [] → l.all printable = true →
      Text.splitlinesFrom false past l = [String.ofList (past.reverse ++ l)] := by
    intro l
    induction l with
    | nil =>
      intro past hpast _
      have hempty : past.isEmpty = false := by simpa using hpast
      rw [Text.splitlinesFrom, hempty]
      simp
    | cons c l ih =>
      intro past _ hall
      rw [List.all_cons, Bool.and_eq_true] at hall
      have hbreak : Text.isLineBreak c = false := by
        have hc := hall.1
        simp only [printable, Bool.and_eq_true, decide_eq_true_eq] at hc
        simp only [Text.isLineBreak, Bool.or_eq_false_iff, Bool.and_eq_false_iff,
          decide_eq_false_iff_not, beq_eq_false_iff_ne]
        omega
      rw [Text.splitlinesFrom, hbreak]
      simp only [Bool.false_and, Bool.false_eq_true, if_false]
      rw [ih (c :: past) (by simp) hall.2]
      simp
  rw [Text.splitlines, hfrom _ [] (by simpa using hne) h, List.reverse_nil, List.nil_append,
    String.ofList_toList]

theorem dropAnsi_printable {line : String} (h : line.toList.all printable = true) :
    dropAnsi line = line := by
  have hsearch : ∀ (l before : List Char), l.all printable = true →
      Regex.searchFrom ansi before l = false := by
    intro l
    induction l with
    | nil =>
      intro _ _
      rfl
    | cons c l ih =>
      intro before hall
      rw [List.all_cons, Bool.and_eq_true] at hall
      have hescape : (c.toNat == 27) = false := by
        have hc := hall.1
        simp only [printable, Bool.and_eq_true, decide_eq_true_eq] at hc
        rw [beq_eq_false_iff_ne]
        omega
      obtain ⟨r, hr⟩ : ∃ r, ansi = .seq (.one (·.toNat == 27)) r := ⟨_, rfl⟩
      have hrun : ansi.run ⟨before, c :: l, []⟩ some = none := by
        rw [hr]
        simp [Regex.run, Regex.one, Regex.many, hescape]
      rw [Regex.searchFrom, ih _ hall.2, hrun]
      rfl
  rw [dropAnsi, Regex.sub_eq_self _ (hsearch _ [] h), String.ofList_toList]

/-- A log of one printable line that is no JSON. -/
theorem logLines_printable {line : String} {c d : Char}
    (hl : line.toList = c :: (l ++ [d])) (h : line.toList.all printable = true)
    (hc : Text.isSpace c = false ∧ ['[', ','].contains c = false)
    (hd : Text.isSpace d = false ∧ [',', ']'].contains d = false) (hloads : py.loads line = none) :
    py.logLines line = ([line], none) := by
  have hstrip : Text.strip line = line := by
    rw [Text.strip, hl, stripList_eq hc.1 hd.1, ← hl, String.ofList_toList]
  have hsets : Text.stripSets ['[', ','] [',', ']'] line = line := by
    rw [Text.stripSets, hl, List.dropWhile_cons_of_neg (by simp only [hc.2, Bool.false_eq_true,
      not_false_eq_true])]
    rw [show (c :: (l ++ [d])).reverse = d :: (c :: l).reverse by simp,
      List.dropWhile_cons_of_neg (by simp only [hd.2, Bool.false_eq_true, not_false_eq_true])]
    rw [show (d :: (c :: l).reverse).reverse = c :: (l ++ [d]) by simp, ← hl,
      String.ofList_toList]
  have hline : py.logLine line = ([line], none) := by
    rw [Python.logLine, hstrip, hsets, hstrip, hloads, dropAnsi_printable h]
    rfl
  rw [Python.logLines, hloads]
  dsimp only [Python.appendRecord]
  rw [splitlines_printable (by rw [hl]; simp) h, List.map_singleton, hline]
  rfl

end MarkerLine

/-- The object of a confirmed marker. -/
def markerObject (reason : String) : JsonText.Json :=
  .obj [("reason", .str reason), ("source", .str "runtime"), ("confidence", .str "confirmed")]

/-- A log of one confirmed marker. -/
def markerLog (reason : String) : String :=
  markerLine "TRAINING_PLATFORM_STOP" (JsonText.dumps .compact (markerObject reason))

/-- The fields of a confirmed marker. -/
def markerFields (reason : String) : List (String × Value) :=
  [("reason", .str reason), ("source", .str "runtime"), ("confidence", .str "confirmed")]

theorem ascii_loads (s : String) : Python.ascii.loads s = (JsonText.loads s).map Value.ofJson := rfl

/-- What starts with the letter of the markers is no JSON. -/
theorem value_letter (n : ℕ) (rest : List Char) : JsonText.value (n + 1) ('T' :: rest) = none := by
  simp [JsonText.value, JsonText.scalar, JsonText.number, JsonText.openBrace]

theorem ofJson_markerObject (reason : String) :
    Value.ofJson (markerObject reason) = .dict (markerFields reason) := rfl

theorem markerLog_loads (reason : String) :
    Python.ascii.loads (JsonText.dumps .compact (markerObject reason)) =
      some (.dict (markerFields reason)) := by
  have hread : JsonText.loads (JsonText.dumps .compact (markerObject reason)) =
      some (markerObject reason) := by
    refine JsonText.loads_dumps _ ?_
    simp [markerObject, JsonText.Plain, JsonText.PlainFields]
  rw [ascii_loads, hread, Option.map_some, ofJson_markerObject]

/-- The log of a marker is one line, and is read as that marker. -/
theorem readings_markerLog (status : String) {reason : String}
    (hprintable : (markerLog reason).toList.all printable = true) (hreason : reason ∈ reasons)
    (hfinal : reason ≠ "epochs_completed") :
    Python.ascii.logLines (markerLog reason) = ([markerLog reason], none) ∧
      readings .ascii status (markerLog reason) = [.marker reason fun _ => none] := by
  obtain ⟨l, hl⟩ : ∃ l, (JsonText.dumps .compact (markerObject reason)).toList =
      JsonText.openBrace :: (l ++ [JsonText.closeBrace]) := by
    rw [JsonText.dumps, String.toList_ofList, markerObject, JsonText.dump]
    exact ⟨_, rfl⟩
  have hends : (markerLog reason).toList = 'T' :: (("RAINING_PLATFORM_STOP".toList ++
      ' ' :: JsonText.openBrace :: l) ++ [JsonText.closeBrace]) := by
    have hhead : "TRAINING_PLATFORM_STOP".toList = 'T' :: "RAINING_PLATFORM_STOP".toList := by
      rw [show "TRAINING_PLATFORM_STOP".toList = _ from String.toList_ofList,
        show "RAINING_PLATFORM_STOP".toList = _ from String.toList_ofList]
    rw [markerLog, markerLine_toList, hl, hhead]
    simp
  have hnone : Python.ascii.loads (markerLog reason) = none := by
    have hloads : JsonText.loads (markerLog reason) = none := by
      rw [JsonText.loads, hends, JsonText.skipBlanks_cons (by decide), value_letter]
    rw [ascii_loads, hloads, Option.map_none]
  have hlines := logLines_printable hends hprintable ⟨by decide, by decide⟩
    ⟨by decide, by decide⟩ hnone
  refine ⟨hlines, ?_⟩
  have hstrip : Text.strip (markerLog reason) = markerLog reason := by
    rw [Text.strip, hends, stripList_eq (by decide) (by decide), ← hends, String.ofList_toList]
  have hevent : Python.ascii.event (markerLog reason) "TRAINING_PLATFORM_STOP" =
      some (markerFields reason) := event_markerLine hl (markerLog_loads reason)
  have hconfirmed : confirmedReason (markerFields reason) = some reason := by
    simp [confirmedReason, markerFields, holdsText, List.lookup_cons, hreason]
  have hnumbers : numbersOf (markerFields reason) = fun _ => none := by
    funext name
    rcases name with _ | _ | _ | _ | _ <;> rfl
  have hstop : Reading.ofStop (markerFields reason) = [.marker reason fun _ => none] := by
    rw [Reading.ofStop, hconfirmed, hnumbers]
    dsimp only
    rw [show numericFields (fun _ => none) (reason == "time_budget") = some fun _ => none by
      simp [numericFields, Numbers.get]]
    dsimp only
    rw [if_pos (Or.inl hfinal)]
  rw [readings, hlines, history, List.flatMap_singleton, hstrip, Reading.ofLine, hevent]
  dsimp only
  rw [hstop]
  rfl

/-! ### A run that loses its training reason -/

/-- What a callback with a time-budget marker records. -/
def budgetStopped : Details
  | .reason => some (.str "training_stopped")
  | .source => some (.str "runtime")
  | .confidence => some (.str "confirmed")
  | .providerStatus => some (.str "UNKNOWN")
  | .trainingReason => some (.str "time_budget")
  | .message => some (.str ("The runtime reported training ended; Kaggle completion and " ++
      "artifact delivery are still pending."))
  | _ => none

/-- What a failed kernel records whose log has a marker of unknown reason. -/
def unknownFailed : Details
  | .reason => some (.str "provider_failed")
  | .source => some (.str "provider")
  | .confidence => some (.str "confirmed")
  | .providerStatus => some (.str "ERROR")
  | .trainingReason => some (.str "unknown")
  | .message => some (.str Message.failed.text)
  | _ => none

/-- Both logs are printable, and both states are what they say. -/
theorem markerLog_spec : ((markerLog "time_budget").toList.all printable = true ∧
      (markerLog "unknown").toList.all printable = true) ∧
    statusToken .ascii "RUNNING" = "RUNNING" ∧ statusToken .ascii "ERROR" = "ERROR" := by
  rw [markerLog, markerLog, markerLine_toList, markerLine_toList, JsonText.dumps, JsonText.dumps,
    String.toList_ofList, String.toList_ofList]
  decide +kernel

theorem produced_budgetStopped : Produced .ascii [] budgetStopped := by
  obtain ⟨hlines, hreadings⟩ := readings_markerLog "RUNNING" markerLog_spec.1.1
    (by simp [reasons, trainingReasons]) (by simp)
  have hstate : providerState .ascii "RUNNING" = .running := by
    rw [providerState, markerLog_spec.2.1]
    rfl
  have htruthy : truthy (classifyStopReason .ascii [] "RUNNING" (markerLog "time_budget") false
      .trainingReason) = true := by
    rw [classify_trainingReason, hreadings, hstate]
    simp [decisive, Reading.isMarker, Reading.training, truthy]
  have hstopped := Produced.stopped (markerLog "time_budget") htruthy
  convert hstopped using 1
  rw [classifyStopReason_eq, answer, observed, hreadings, hstate, hlines]
  funext field
  rcases field with _ | _ | _ | _ | _ | _ | _ | name
  case number => rcases name with _ | _ | _ | _ | _ <;> rfl
  all_goals rfl

theorem produced_unknownFailed : Produced .ascii [] unknownFailed := by
  obtain ⟨hlines, hreadings⟩ := readings_markerLog "ERROR" markerLog_spec.1.2
    (by simp [reasons]) (by simp)
  have hstate : providerState .ascii "ERROR" = .error := by
    rw [providerState, markerLog_spec.2.2]
    rfl
  have hclassified : Produced .ascii [] (classifyStopReason .ascii [] "ERROR"
      (markerLog "unknown") false) := .classified _ _ _
  convert hclassified using 1
  have hmessage : redactSecrets [] Message.failed.text = Message.failed.text :=
    redact_message (by simp) (by simp [messages])
  rw [classifyStopReason_eq, answer, observed, hreadings, hstate, hlines, markerLog_spec.2.2]
  funext field
  rcases field with _ | _ | _ | _ | _ | _ | _ | name
  case number => rcases name with _ | _ | _ | _ | _ <;> rfl
  case message => exact congrArg (fun s => some (Value.str s)) hmessage.symm
  all_goals rfl

theorem Details.merge_empty (d : Details) : merge .empty d = d := by
  have hlate : isLate .empty d = false := by
    simp [isLate, isNonempty, empty]
  have htraining : training .empty = none := rfl
  rw [merge_eq, beforeRetain, hlate, htraining]
  simp [isOneOf, keepNumbers, htraining]

theorem merge_unknownFailed : Details.merge budgetStopped unknownFailed = unknownFailed := by
  have hbefore : Details.beforeRetain budgetStopped unknownFailed = unknownFailed := rfl
  rw [Details.merge_eq, hbefore]
  rfl

theorem clean_unknownFailed : Clean [] (DetailsJson.ascii.dumps unknownFailed) := by
  refine ⟨by simp, tokenFree_of String.toList_ofList ?_⟩
  decide +kernel

/-- The outcome that the merge retains, with what a callback with a time-budget
marker records beside it. -/
def budgetRetained (previous : Details) : Details :=
  (((budgetStopped.set .reason previous.training).set .source (previous .source)).text .confidence
    "confirmed").text .message Details.retainedMessage

/-- What such a callback makes of the details of a new job, or of its own. -/
theorem blends_budgetStopped {previous d : Details}
    (hprevious : previous = .empty ∨ previous = budgetStopped)
    (h : Details.Blends previous budgetStopped d) :
    (d .trainingReason = none ∨ d .trainingReason = some (.str "time_budget")) ∧
      (d = budgetStopped.set .trainingReason (d .trainingReason) ∨
        d = (budgetRetained previous).set .trainingReason (d .trainingReason)) := by
  have hupheld : Details.upheld previous budgetStopped = budgetStopped := by
    rcases hprevious with rfl | rfl <;> rfl
  have hnumber : ∀ name, d (.number name) = none := by
    intro name
    rcases hprevious with rfl | rfl <;> exact (h.number name).elim id id
  have hprovider := h.providerStatus
  have hsuspected := h.suspectedReason
  have houtcome := h.outcome
  rw [hupheld] at hprovider hsuspected houtcome
  refine ⟨?_, houtcome.imp (fun hkept => ?_) fun ⟨hreason, hsource, hconfidence, hmessage⟩ => ?_⟩
  · rcases hprevious with rfl | rfl
    · rcases h.trainingReason with heq | heq | heq
      · exact Or.inl heq
      · exact Or.inl heq
      · exact Or.inr heq
    · rcases h.trainingReason with heq | heq | heq <;> exact Or.inr heq
  · funext field
    rcases field with _ | _ | _ | _ | _ | _ | _ | name
    case trainingReason => rfl
    case number => exact hnumber name
    case providerStatus => exact hprovider
    case suspectedReason => exact hsuspected
    all_goals exact hkept _ (by simp)
  · funext field
    rcases field with _ | _ | _ | _ | _ | _ | _ | name
    case trainingReason => rfl
    case number => exact hnumber name
    case providerStatus => exact hprovider
    case suspectedReason => exact hsuspected
    case reason => exact hreason
    case source => exact hsource
    case confidence => exact hconfidence
    case message => exact hmessage

/-- None of these texts holds a secret. -/
theorem clean_blends {previous d : Details}
    (hprevious : previous = .empty ∨ previous = budgetStopped)
    (h : Details.Blends previous budgetStopped d) : Clean [] (DetailsJson.ascii.dumps d) := by
  refine ⟨by simp, tokenFree_of String.toList_ofList ?_⟩
  obtain ⟨htraining, heq⟩ := blends_budgetStopped hprevious h
  rcases hprevious with rfl | rfl <;> rcases htraining with ht | ht <;>
    rw [ht] at heq <;> rcases heq with rfl | rfl <;> decide +kernel

/-- The callback of a time budget. -/
def budgetCall : StopCall .ascii [] where
  details := budgetStopped
  produced := produced_budgetStopped
  expectedStatuses := some ["pushing_kernel", "waiting_kernel", "cancel_requested",
    "downloading_output", "complete", "failed", "canceled"]
  status := "waiting_kernel"

/-- The failure of the kernel. -/
def failedCall : StopCall .ascii [] where
  details := unknownFailed
  produced := produced_unknownFailed
  expectedStatuses := none
  status := "waiting_kernel"

theorem budgetCall_accepted : budgetCall.IsAccepted := by
  intro statuses h
  rw [← Option.some.inj h]
  simp [budgetCall]

/-- After the callback its training reason is there. -/
theorem storedDetails_budgetCall :
    storedDetails .ascii (budgetCall.record .ascii "\x7b\x7d") = budgetStopped := by
  have hmerge : Details.merge .empty budgetCall.details = budgetStopped := Details.merge_empty _
  have hclean := clean_blends (Or.inl rfl) (Details.blends_upheld .empty budgetStopped)
  rw [record_accepted budgetCall_accepted, storedDetails_start DetailsJson.ascii_lawful, hmerge]
  exact storedDetails_of_clean DetailsJson.ascii_lawful produced_budgetStopped.scalar hclean

/-- After the failure it is not. -/
theorem storedDetails_failedCall :
    storedDetails .ascii (failedCall.record .ascii (budgetCall.record .ascii "\x7b\x7d")) =
      unknownFailed := by
  have haccepted : failedCall.IsAccepted := by
    intro statuses h
    simp [failedCall] at h
  have hmerge : Details.merge budgetStopped failedCall.details = unknownFailed := merge_unknownFailed
  rw [record_accepted haccepted, storedDetails_budgetCall, hmerge]
  exact storedDetails_of_clean DetailsJson.ascii_lawful produced_unknownFailed.scalar
    clean_unknownFailed

/-- A training reason can be lost. -/
theorem evidence_lost :
    ¬ ∀ (js : DetailsJson), js.Lawful → ∀ (py : Python) (extraSecrets : List String)
      (stored next : String), Observed js py extraSecrets "\x7b\x7d" stored →
        Observed js py extraSecrets stored next →
          (storedDetails js stored).Carries → (storedDetails js next).Carries := by
  intro h
  have hcarries := h .ascii DetailsJson.ascii_lawful .ascii []
    (budgetCall.record .ascii "\x7b\x7d")
    (failedCall.record .ascii (budgetCall.record .ascii "\x7b\x7d"))
    (.single ⟨budgetCall, rfl⟩) (.single ⟨failedCall, rfl⟩)
  rw [storedDetails_budgetCall, storedDetails_failedCall] at hcarries
  have hlost := hcarries (Or.inr rfl)
  rcases hlost with hlost | hlost
  · simp [unknownFailed, isOneOf, trainingReasons] at hlost
  · simp [unknownFailed, isOneOf, trainingReasons] at hlost

/-- The callback keeps what a new job, or the callback itself, has stored. -/
theorem budgetCall_keeps {stored : String}
    (h : storedDetails .ascii stored = .empty ∨ storedDetails .ascii stored = budgetStopped) :
    budgetCall.Keeps .ascii stored := by
  have hscalar : (storedDetails .ascii stored).Scalar := by
    rcases h with heq | heq <;> rw [heq]
    · exact Details.scalar_empty
    · exact produced_budgetStopped.scalar
  refine ⟨legible_of_clean DetailsJson.ascii_lawful hscalar fun d hd => clean_blends h hd, ?_⟩
  rintro _ ⟨_, _, hvague, _⟩
  simp [Details.isVague, budgetCall, budgetStopped, isOneOf, trainingReasons] at hvague

/-- The callback and the callback again: the training reason stays. -/
theorem evidence_monotone_sample :
    (storedDetails .ascii (budgetCall.record .ascii "\x7b\x7d")).Carries ∧
      (storedDetails .ascii (budgetCall.record .ascii
        (budgetCall.record .ascii "\x7b\x7d"))).Carries := by
  have hcarries : (storedDetails .ascii (budgetCall.record .ascii "\x7b\x7d")).Carries := by
    rw [storedDetails_budgetCall]
    exact Or.inr rfl
  have hfirst := budgetCall_keeps (Or.inl (storedDetails_start DetailsJson.ascii_lawful))
  refine ⟨hcarries, ?_⟩
  exact (evidence_monotone .ascii DetailsJson.ascii_lawful .ascii []
    (budgetCall.record .ascii "\x7b\x7d") (.single ⟨budgetCall, hfirst, rfl⟩)).1 _
    (.single ⟨budgetCall, budgetCall_keeps (Or.inr storedDetails_budgetCall), rfl⟩) hcarries

end KaggleRelay

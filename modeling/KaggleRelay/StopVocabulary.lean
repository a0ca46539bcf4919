/-
The classification of a stop never overclaims.

`never_overclaims` — a training reason is reported only for a completed kernel
whose log holds a well-formed line for it, a user cancellation only for a
canceled kernel with the flag set, a time limit only as a suspicion, and every
text of the answer comes from a fixed vocabulary.

The last part is carried by `Details.Speaks`: whatever is written to the answer
is a number or a text that its field allows.
-/
import KaggleRelay.StopEvidence

namespace KaggleRelay

/-! ### Evidence in the log -/

/-- A line, without its outer white space, is well-formed evidence of a
training reason of a completed kernel. -/
inductive IsEvidence (py : Python) (line : String) : String → Prop
  /-- A confirmed runtime marker. -/
  | marker {reason : String} {payload : List (String × Value)} {numbers : Numbers}
      (hline : py.event line "TRAINING_PLATFORM_STOP" = some payload)
      (hreason : confirmedReason payload = some reason)
      (hn : numericFields (numbersOf payload) (reason == "time_budget") = some numbers)
      (hfinal : reason = "epochs_completed" → numbers.isFinal = true) : IsEvidence py line reason
  /-- The early-stopping line. -/
  | early {m : Regex.Cursor} {numbers : Numbers} (hline : py.earlyStop.matchStart line = some m)
      (hn : numericFields (Evidence.earlyNumbers py m) false = some numbers) :
      IsEvidence py line "early_stopping"
  /-- A progress line with the last epoch. -/
  | progress {payload : List (String × Value)} {numbers : Numbers}
      (hline : py.event line "TRAINING_PLATFORM_PROGRESS" = some payload)
      (hn : numericFields (numbersOf payload) false = some numbers)
      (hfinal : numbers.isFinal = true) : IsEvidence py line "epochs_completed"
  /-- A full progress bar. -/
  | bar {m : Regex.Cursor} {numbers : Numbers} (hline : py.finalProgress.fullmatch line = some m)
      (hgroups : m.group 1 = m.group 2)
      (hn : numericFields (Evidence.finalNumbers py m) false = some numbers) :
      IsEvidence py line "epochs_completed"

/-- A reading that can decide comes from a line that is evidence. -/
theorem isEvidence_of_mem {py : Python} {complete : Bool} {line : String} {r : Reading}
    (h : r ∈ Reading.ofLine py complete line)
    (hkind : r.isMarker = true ∨ r.isEarly = true ∨ r.isFinal = true) :
    IsEvidence py line r.training.reason := by
  rcases mem_ofLine h with ⟨payload, hline, h⟩ | ⟨payload, hline, h⟩ | ⟨m, hline, h⟩ | h | h
  · obtain ⟨reason, numbers, hreason, hn, ⟨hfinal, rfl⟩ | ⟨_, _, rfl⟩⟩ := mem_ofStop h
    · exact .marker hline hreason hn hfinal
    · simp [Reading.isMarker, Reading.isEarly, Reading.isFinal] at hkind
  · obtain ⟨numbers, hn, _, rfl | ⟨_, hfinal, rfl⟩⟩ := mem_ofProgress h
    · simp [Reading.isMarker, Reading.isEarly, Reading.isFinal] at hkind
    · exact .progress hline hn hfinal
  · obtain ⟨numbers, hn, rfl⟩ := mem_ofEarly h
    exact .early hline hn
  · obtain ⟨m, numbers, _, _, rfl⟩ := mem_ofCompleted h
    simp [Reading.isMarker, Reading.isEarly, Reading.isFinal] at hkind
  · obtain ⟨m, numbers, hline, hgroups, hn, rfl⟩ := mem_ofFinal h
    exact .bar hline hgroups hn

theorem reason_mem {py : Python} {line reason : String} (h : IsEvidence py line reason) :
    reason ∈ reasons := by
  rcases h with ⟨_, hreason, _, _⟩ | _ | _ | _
  · rw [confirmedReason] at hreason
    split at hreason
    · split_ifs at hreason with hmem
      rw [Option.some.injEq] at hreason
      exact hreason ▸ hmem.1
    · simp at hreason
  · simp [reasons, trainingReasons]
  · simp [reasons, trainingReasons]
  · simp [reasons, trainingReasons]

/-- The decisive reading of a log has its evidence in the log. -/
theorem exists_evidence {py : Python} {providerStatus logs : String} {r : Reading}
    (h : decisive (readings py providerStatus logs) = some r) :
    ∃ line ∈ (py.logLines logs).1, IsEvidence py (Text.strip line) r.training.reason := by
  obtain ⟨hmem, hkind⟩ := mem_of_decisive h
  rw [readings, history, List.mem_reverse, List.mem_flatMap] at hmem
  obtain ⟨line, hline, hr⟩ := hmem
  exact ⟨line, hline, isEvidence_of_mem hr hkind⟩

/-! ### The vocabulary -/

/-- All messages. -/
def messages : List Message :=
  [.unobserved, .userCanceled, .providerCanceled, .nearLimit, .failedAfterStop, .failed,
    .completedUnknown, .trained "early_stopping", .trained "epochs_completed",
    .trained "time_budget", .pending]

/-- The words an answer is made of. -/
def words : List String :=
  reasons ++ ["user_canceled", "provider_canceled", "provider_failed", "completed_unknown",
    "provider", "relay", "runtime", "logs", "confirmed", "inferred", "UNKNOWN"]

/-- The texts an answer is made of: its words, the suspicion of a time limit, the
tokens of provider states, and the messages. -/
def vocabulary : List String :=
  words ++ "time_limit" :: (states.map Prod.fst ++ messages.map Message.text)

/-- `tokenFree` on the characters of a text. -/
theorem tokenFree_of {text : String} {l : List Char} (hl : text.toList = l)
    (h : (tokenPatterns.all fun p => !p.pattern.search l) = true) : tokenFree text = true := by
  rw [tokenFree, hl]
  exact h

/-- No token pattern matches in a message, and none starts as `time_limit` does. -/
theorem messages_spec : ∀ m ∈ messages,
    tokenFree m.text = true ∧ m.text.toList.head? ≠ some 't' := by
  have hspec {text : String} {l : List Char} (hl : text.toList = l)
      (h : (tokenPatterns.all (fun p => !p.pattern.search l) && l.head? != some 't') = true) :
      tokenFree text = true ∧ text.toList.head? ≠ some 't' := by
    rw [Bool.and_eq_true] at h
    rw [hl]
    exact ⟨tokenFree_of hl h.1, by simpa using h.2⟩
  simp only [messages, List.forall_mem_cons]
  refine ⟨?_, ?_, ?_, ?_, ?_, ?_, ?_, ?_, ?_, ?_, ?_, List.forall_mem_nil _⟩
  -- one literal each, but for the message that is put together from two
  case refine_4 =>
    refine hspec (String.toList_append.trans
      (congrArg₂ (· ++ ·) String.toList_ofList String.toList_ofList)) ?_
    decide +kernel
  all_goals
    refine hspec String.toList_ofList ?_
    decide +kernel

/-- A text that may stand in a field: one of the vocabulary, and a time limit
only as a suspicion. -/
def Field.Allows (field : Field) (s : String) : Prop :=
  s ∈ vocabulary ∧ (s = "time_limit" → field = .suspectedReason)

theorem allows_word {field : Field} {s : String} (h : s ∈ words) : field.Allows s := by
  refine ⟨List.mem_append_left _ h, ?_⟩
  rintro rfl
  exact absurd h (by simp [words, reasons, trainingReasons])

theorem allows_token {field : Field} (py : Python) (providerStatus : String) :
    field.Allows (statusToken py providerStatus) := by
  have hknown (token : String) :
      field.Allows (if (states.lookup token).isSome then token else "UNKNOWN") := by
    split_ifs with hknown
    · obtain ⟨state, hstate⟩ := Option.isSome_iff_exists.mp hknown
      obtain ⟨before, after, heq, _⟩ := List.lookup_eq_some_iff.mp hstate
      have hmem : token ∈ states.map Prod.fst := by
        rw [heq]
        simp
      refine ⟨List.mem_append_right _ (List.mem_cons_of_mem _ (List.mem_append_left _ hmem)), ?_⟩
      rintro rfl
      simp [states] at hmem
    · exact allows_word (by simp [words])
  rw [statusToken]
  dsimp only
  split
  · exact allows_word (by simp [words])
  · exact hknown _

/-- A number, as far as JSON has it. -/
def Value.IsNumber : Value → Prop
  | .int _ => True
  | .float (some _) => True
  | _ => False

/-- A number, or a text that may stand in the field. -/
def Field.Fits (field : Field) (v : Value) : Prop :=
  v.IsNumber ∨ ∃ s, v = .str s ∧ field.Allows s

/-- Every value of a dict fits its field. -/
def Details.Speaks (d : Details) : Prop := ∀ field v, d field = some v → field.Fits v

theorem Details.Speaks.text {d : Details} (h : d.Speaks) {field : Field} {s : String}
    (hs : field.Allows s) : (d.text field s).Speaks := by
  intro other v hv
  by_cases heq : other = field
  · subst heq
    rw [Details.text, Function.update_self, Option.some.injEq] at hv
    exact Or.inr ⟨s, hv.symm, hs⟩
  · rw [Details.text, Function.update_of_ne heq] at hv
    exact h other v hv

theorem Details.Speaks.outcome {d : Details} (h : d.Speaks) {reason source confidence : String}
    (hr : reason ∈ words) (hs : source ∈ words) (hc : confidence ∈ words) :
    (d.outcome reason source confidence).Speaks :=
  ((h.text (allows_word hr)).text (allows_word hs)).text (allows_word hc)

/-- Every value of a dict of numbers is one. -/
def Numbers.Numeric (n : Numbers) : Prop := ∀ name v, n name = some v → v.IsNumber

theorem Details.Speaks.numbers {d : Details} (h : d.Speaks) {n : Numbers} (hn : n.Numeric) :
    (d.numbers n).Speaks := by
  intro field v hv
  rcases field with _ | _ | _ | _ | _ | _ | _ | name
  case number =>
    rcases Option.or_eq_some_iff.mp hv with hv | ⟨_, hv⟩
    · exact Or.inl (hn name v hv)
    · exact h _ v hv
  all_goals exact h _ v hv

theorem Numbers.Numeric.update {m n : Numbers} (hm : m.Numeric) (hn : n.Numeric) :
    (m.update n).Numeric := by
  intro name v hv
  rcases Option.or_eq_some_iff.mp hv with hv | ⟨_, hv⟩
  · exact hn name v hv
  · exact hm name v hv

theorem isNumber_of_number {name : NumberName} {v : Value} (h : number name v = true) :
    v.IsNumber := by
  rcases v with _ | b | z | (_ | x) | s | l | f
  · simp [number] at h
  · simp [number] at h
  · trivial
  · simp [number] at h
  · trivial
  · simp [number] at h
  · simp [number] at h
  · simp [number] at h

theorem Numbers.Checked.numeric {n : Numbers} {allow : Bool} (h : n.Checked allow) : n.Numeric :=
  fun name v hv => isNumber_of_number (h.isNumber name v hv)

/-- The time of a log is a number. -/
theorem logLines_numeric (py : Python) (logs : String) :
    ∀ v, (py.logLines logs).2 = some v → v.IsNumber := by
  have happend : ∀ record lines elapsed, py.appendRecord record = some (lines, elapsed) →
      ∀ v, elapsed = some v → v.IsNumber := by
    intro record lines elapsed h
    rw [Python.appendRecord.eq_def] at h
    split at h
    · split at h
      · simp only [Option.some.injEq, Prod.mk.injEq] at h
        obtain ⟨_, rfl⟩ := h
        intro v hv
        exact isNumber_of_number (Option.filter_eq_some_iff.mp hv).2
      · simp at h
    · simp at h
  have hjoin : ∀ records : List (List String × Option Value),
      (∀ r ∈ records, ∀ v, r.2 = some v → v.IsNumber) →
        ∀ v, (Python.joinRecords records).2 = some v → v.IsNumber := by
    intro records hrecords
    rw [Python.joinRecords]
    refine List.foldlRecOn records _
      (motive := fun (r : List String × Option Value) => ∀ v, r.2 = some v → v.IsNumber)
      (by simp) ?_
    rintro ⟨lines, elapsed⟩ hacc ⟨more, time⟩ hr v hv
    rcases Option.or_eq_some_iff.mp hv with hv | ⟨_, hv⟩
    · exact hrecords _ hr v hv
    · exact hacc v hv
  unfold Python.logLines
  split
  · refine hjoin _ fun r hr => ?_
    obtain ⟨record, _, hrecord⟩ := List.mem_filterMap.mp hr
    exact happend _ _ _ hrecord
  · split
    · next record hrecord => exact happend _ _ _ hrecord
    · refine hjoin _ fun r hr => ?_
      obtain ⟨line, _, rfl⟩ := List.mem_map.mp hr
      rw [Python.logLine]
      split
      · next record hrecord => exact happend _ _ _ hrecord
      · simp

/-- Evidence whose texts are words and whose numbers are none. -/
structure Training.Worded (t : Training) : Prop where
  reason : t.reason ∈ reasons
  source : t.source ∈ words
  confidence : t.confidence ∈ words
  numeric : t.numbers.Numeric

section Speaking

variable {token : String} {state : ProviderState} {training : Option Training} {details : Numbers}
  {elapsed : Option Value} {cancelRequested : Bool} {result : Details}

theorem observe_speaks (htoken : Field.providerStatus.Allows token) (hdetails : details.Numeric)
    (ht : ∀ t, training = some t → t.Worded) :
    (observe token state training details).Speaks := by
  have hempty : Details.Speaks (fun _ => none) := by
    intro field v h
    simp at h
  have hunknown : "unknown" ∈ words := by simp [words, reasons]
  have hbase : Details.Speaks (((Details.outcome (fun _ => none) "unknown" "provider"
      "unknown").text .providerStatus token).numbers details) :=
    ((hempty.outcome hunknown (by simp [words]) hunknown).text htoken).numbers hdetails
  rcases training with _ | t
  · exact hbase
  · rw [observe]
    split_ifs
    · exact hbase
    · exact hbase.text (allows_word (List.mem_append_left _ (ht t rfl).reason))

theorem conclude_speaks (h : result.Speaks) (ht : ∀ t, training = some t → t.Worded) :
    (conclude state training elapsed cancelRequested result).1.Speaks := by
  rcases state with _ | _ | _ | _ | _ | _
  · have hcompleted : (result.text .reason "completed_unknown").Speaks :=
      h.text (allows_word (by simp [words]))
    rcases training with _ | t
    · exact hcompleted
    · rw [conclude]
      split_ifs
      · have hworded := ht t rfl
        exact (hcompleted.outcome (List.mem_append_left _ hworded.reason) hworded.source
          hworded.confidence).numbers hworded.numeric
      · exact hcompleted
  · exact (h.text (allows_word (by simp [words]))).text (allows_word (by simp [words]))
  · rw [conclude]
    split_ifs
    · exact h.outcome (by simp [words]) (by simp [words]) (by simp [words])
    · refine (h.outcome (by simp [words]) (by simp [words]) (by simp [words])).text ⟨?_, by simp⟩
      exact List.mem_append_right _ List.mem_cons_self
    · exact h.outcome (by simp [words]) (by simp [words]) (by simp [words])
  all_goals exact h

theorem conclude_message (ht : ∀ t, training = some t → t.Worded) :
    (conclude state training elapsed cancelRequested result).2 ∈ messages := by
  rcases state with _ | _ | _ | _ | _ | _
  · rcases training with _ | t
    · simp [conclude, messages]
    · have hreason := (ht t rfl).reason
      rw [conclude]
      split_ifs with hunknown
      · have htrained : t.reason ∈ trainingReasons := by
          rcases List.mem_append.mp hreason with h | h
          · exact h
          · exact absurd (List.mem_singleton.mp h) hunknown
        simp only [trainingReasons, List.mem_cons, List.not_mem_nil, or_false] at htrained
        rcases htrained with h | h | h <;> simp [messages, h]
      · simp [messages]
  · rw [conclude]
    split_ifs <;> simp [messages]
  · rw [conclude]
    split_ifs <;> simp [messages]
  all_goals simp [conclude, messages]

end Speaking

/-- The decisive reading of a log speaks in words. -/
theorem worded_of_readings {py : Python} {providerStatus logs : String} {t : Training}
    (h : (evidenceOf (readings py providerStatus logs)).training = some t) : t.Worded := by
  rw [evidenceOf_training, Option.map_eq_some_iff] at h
  obtain ⟨r, hr, rfl⟩ := h
  obtain ⟨line, _, hevidence⟩ := exists_evidence hr
  obtain ⟨hmem, _⟩ := mem_of_decisive hr
  have hnumeric : r.training.numbers.Numeric := by
    rw [Reading.training_numbers]
    exact (history_checked hmem).numeric
  have hwords : r.training.source ∈ words ∧ r.training.confidence ∈ words := by
    rcases r with ⟨reason, n⟩ | n | n | n | n <;>
      simp [Reading.training, Evidence.ofFinal, words]
  exact ⟨reason_mem hevidence, hwords.1, hwords.2, hnumeric⟩

theorem progress_numeric {py : Python} {providerStatus logs : String} :
    (evidenceOf (readings py providerStatus logs)).progress.Numeric := by
  intro name v hv
  rw [evidenceOf_progress] at hv
  obtain ⟨n, hn, hv⟩ := List.exists_of_findSome?_eq_some hv
  rcases mem_recent hn with h | h
  · exact (history_checked h).numeric name v hv
  · exact (history_checked h).numeric name v hv

theorem observed_speaks (py : Python) (providerStatus logs : String) :
    (observed py providerStatus logs).Speaks := by
  refine observe_speaks (allows_token py providerStatus) ?_ fun t ht => worded_of_readings ht
  have hbase : ((evidenceOf (readings py providerStatus logs)).progress.update fun name =>
      if name = .elapsedSeconds then (py.logLines logs).2 else none).Numeric := by
    refine progress_numeric.update fun name v hv => ?_
    split_ifs at hv
    exact logLines_numeric py logs v hv
  rcases ht : (evidenceOf (readings py providerStatus logs)).training with _ | t
  · exact hbase
  · exact hbase.update (worded_of_readings ht).numeric

/-- A message without a secret is not redacted. -/
theorem redact_message {extraSecrets : List String}
    (hs : ∀ secret ∈ extraSecrets, ∀ m ∈ messages, occursIn secret.toList m.text.toList = false)
    {m : Message} (hm : m ∈ messages) : redactSecrets extraSecrets m.text = m.text :=
  redactSecrets_eq_self (fun secret hsecret => hs secret hsecret m hm) (messages_spec m hm).1

theorem allows_message {field : Field} {m : Message} (hm : m ∈ messages) : field.Allows m.text := by
  have hmem : m.text ∈ messages.map Message.text := List.mem_map_of_mem hm
  refine ⟨List.mem_append_right _ (List.mem_cons_of_mem _ (List.mem_append_right _ hmem)), ?_⟩
  intro heq
  have hhead := (messages_spec m hm).2
  rw [heq] at hhead
  exact absurd (by rw [show "time_limit".toList = _ from String.toList_ofList]; rfl) hhead

/-- **The classification never overclaims.** -/
theorem never_overclaims (py : Python) (extraSecrets : List String)
    (hs : ∀ secret ∈ extraSecrets, ∀ m ∈ messages, occursIn secret.toList m.text.toList = false)
    (providerStatus logs : String) (cancelRequested : Bool) :
    let d := classifyStopReason py extraSecrets providerStatus logs cancelRequested
    (∀ reason ∈ trainingReasons, d .reason = some (.str reason) →
        providerState py providerStatus = .complete ∧
          ∃ line ∈ (py.logLines logs).1, IsEvidence py (Text.strip line) reason) ∧
      (d .reason = some (.str "user_canceled") →
        providerState py providerStatus = .canceled ∧ cancelRequested = true) ∧
      (∀ field, d field = some (.str "time_limit") → field = .suspectedReason) ∧
      ∀ field s, d field = some (.str s) → s ∈ vocabulary := by
  intro d
  have hspeaks : d.Speaks := by
    have hworded : ∀ t, (evidenceOf (readings py providerStatus logs)).training = some t →
        t.Worded := fun t ht => worded_of_readings ht
    have hmessage : (answer py providerStatus logs cancelRequested).2 ∈ messages :=
      conclude_message hworded
    have hanswer : (answer py providerStatus logs cancelRequested).1.Speaks :=
      conclude_speaks (observed_speaks py providerStatus logs) hworded
    simp only [d]
    rw [classifyStopReason_eq]
    refine hanswer.text ?_
    rw [redact_message hs hmessage]
    exact allows_message hmessage
  have hallows : ∀ field s, d field = some (.str s) → field.Allows s := by
    intro field s h
    rcases hspeaks field _ h with hnumber | ⟨t, heq, ht⟩
    · exact absurd hnumber not_false
    · rw [Value.str.injEq] at heq
      exact heq ▸ ht
  refine ⟨?_, ?_, fun field h => (hallows field _ h).2 rfl, fun field s h => (hallows field s h).1⟩
  · intro reason hreason hd
    simp only [d, classify_reason, Option.some.injEq, Value.str.injEq] at hd
    rcases hstate : providerState py providerStatus with _ | _ | _ | _ | _ | _
    · refine ⟨rfl, ?_⟩
      rw [hstate] at hd
      rcases hr : decisive (readings py providerStatus logs) with _ | r
      · rw [hr] at hd
        subst hd
        simp [concludedReason, trainingReasons] at hreason
      · rw [hr] at hd
        dsimp only [concludedReason, Option.map_some] at hd
        split_ifs at hd
        · exact hd ▸ exists_evidence hr
        · subst hd
          simp [trainingReasons] at hreason
    all_goals
      rw [hstate] at hd
      subst hd
      simp [concludedReason, trainingReasons] at hreason
    rcases cancelRequested with _ | _ <;> simp at hreason
  · intro hd
    simp only [d, classify_reason, Option.some.injEq, Value.str.injEq] at hd
    rcases hstate : providerState py providerStatus with _ | _ | _ | _ | _ | _
    · rw [hstate] at hd
      rcases hr : decisive (readings py providerStatus logs) with _ | r
      · rw [hr] at hd
        simp [concludedReason] at hd
      · rw [hr] at hd
        dsimp only [concludedReason, Option.map_some] at hd
        split_ifs at hd
        · obtain ⟨line, _, hevidence⟩ := exists_evidence hr
          rw [hd] at hevidence
          have hmem := reason_mem hevidence
          simp [reasons, trainingReasons] at hmem
        · simp at hd
    · simp [hstate, concludedReason] at hd
    · refine ⟨rfl, ?_⟩
      rcases cancelRequested with _ | _
      · simp [hstate, concludedReason] at hd
      · rfl
    all_goals simp [hstate, concludedReason] at hd

theorem occursIn_of {secret l : List Char} {text : String} (hl : text.toList = l)
    (h : occursIn secret l = false) : occursIn secret text.toList = false := by
  rw [hl]
  exact h

/-- A secret that no message holds. -/
theorem messages_without : ∀ m ∈ messages, occursIn "hunter2".toList m.text.toList = false := by
  simp only [messages, List.forall_mem_cons]
  refine ⟨?_, ?_, ?_, ?_, ?_, ?_, ?_, ?_, ?_, ?_, ?_, List.forall_mem_nil _⟩
  case refine_4 =>
    refine occursIn_of (String.toList_append.trans
      (congrArg₂ (· ++ ·) String.toList_ofList String.toList_ofList)) ?_
    decide +kernel
  all_goals
    refine occursIn_of String.toList_ofList ?_
    decide +kernel

/-- The log of a training that has stopped early. -/
def stoppedLog : String :=
  "4/8 epochs\nEarlyStopping: Training stopped early as no improvement observed in last 5 epochs. " ++
    "Best results observed at epoch 3"

/-- What is read off the answer to that log. -/
theorem stoppedLog_reason :
    classifyStopReason .ascii ["hunter2"] "COMPLETE" stoppedLog false .reason =
      some (.str "early_stopping") := by
  have hread : (classifyStopReason .ascii ["hunter2"] "COMPLETE" stoppedLog false .reason).bind
      Value.str? = some "early_stopping" := by decide +kernel
  obtain ⟨v, hv, htext⟩ := Option.bind_eq_some_iff.mp hread
  rw [hv]
  rcases v with _ | _ | _ | _ | text | _ | _ <;> simp [Value.str?] at htext
  rw [htext]

/-- That log, with that secret registered. -/
theorem never_overclaims_sample :
    providerState .ascii "COMPLETE" = .complete ∧
      (∃ line ∈ (Python.ascii.logLines stoppedLog).1,
        IsEvidence .ascii (Text.strip line) "early_stopping") ∧
      "early_stopping" ∈ vocabulary := by
  have h := never_overclaims .ascii ["hunter2"]
    (fun _ h => List.mem_singleton.mp h ▸ messages_without) "COMPLETE" stoppedLog false
  obtain ⟨hcomplete, hline⟩ := h.1 "early_stopping" (by simp [trainingReasons]) stoppedLog_reason
  exact ⟨hcomplete, hline, h.2.2.2 .reason _ stoppedLog_reason⟩

end KaggleRelay

/-
What the classification of a stop rests on.

Every line of a log is read as a list of `Reading`s, and the loop of
`_training_evidence` is a fold over them (`trainingEvidence_eq`).  Each number
of the answer then has a line that supplies it (`classify_number`).

`ordered_iff` — the numbers of the answer are in order exactly when those that
come from two different lines are.  They need not be: `unordered` is a completed
kernel that trained twice, and is reported at epoch 9 of 8.
-/
import KaggleRelay.JsonText
import KaggleRelay.StopReason

namespace KaggleRelay

/-! ### Reading a line -/

/-- What a line is read as. -/
inductive Reading where
  /-- A confirmed runtime marker. -/
  | marker (reason : String) (numbers : Numbers)
  /-- Numbers of a line that is no evidence of its own. -/
  | extra (numbers : Numbers)
  | progress (numbers : Numbers)
  | early (numbers : Numbers)
  /-- The last epoch was reached. -/
  | final (numbers : Numbers)

namespace Reading

/-- The numbers that were read. -/
def numbers : Reading → Numbers
  | marker _ n => n
  | extra n => n
  | progress n => n
  | early n => n
  | final n => n

/-- The epoch may lie beyond the number of epochs. -/
def overruns : Reading → Bool
  | marker reason _ => reason == "time_budget"
  | _ => false

/-- The readings of a `TRAINING_PLATFORM_STOP` line. -/
def ofStop (payload : List (String × Value)) : List Reading :=
  match confirmedReason payload with
  | none => []
  | some reason =>
    match numericFields (numbersOf payload) (reason == "time_budget") with
    | none => []
    | some numbers =>
      if reason ≠ "epochs_completed" ∨ numbers.isFinal then [marker reason numbers]
      else [extra numbers]

/-- The readings of a `TRAINING_PLATFORM_PROGRESS` line. -/
def ofProgress (complete : Bool) (payload : List (String × Value)) : List Reading :=
  match numericFields (numbersOf payload) false with
  | none => []
  | some numbers =>
    if numbers.isProgress then
      if complete ∧ numbers.isFinal then [progress numbers, final numbers] else [progress numbers]
    else []

variable (py : Python)

/-- The reading of an early stop. -/
def ofEarly (m : Regex.Cursor) : List Reading :=
  ((numericFields (Evidence.earlyNumbers py m) false).map early).toList

/-- The reading of a line that says how long the epochs took. -/
def ofCompleted (line : String) : List Reading :=
  (do
    let m ← py.completed.fullmatch line
    let numbers ← numericFields (Evidence.completedNumbers py m) false
    some (extra numbers)).toList

/-- The reading of a full progress bar. -/
def ofFinal (line : String) : List Reading :=
  (do
    let m ← py.finalProgress.fullmatch line
    if m.group 1 = m.group 2 then
      let numbers ← numericFields (Evidence.finalNumbers py m) false
      some (final numbers)
    else none).toList

/-- The readings of a line without its outer white space. -/
def ofLine (complete : Bool) (line : String) : List Reading :=
  match py.event line "TRAINING_PLATFORM_STOP" with
  | some payload => ofStop payload
  | none =>
    match py.event line "TRAINING_PLATFORM_PROGRESS" with
    | some payload => ofProgress complete payload
    | none =>
      match py.earlyStop.matchStart line with
      | some m => ofEarly py m
      | none => if complete then ofCompleted py line ++ ofFinal py line else []

end Reading

/-! ### Where a reading comes from -/

section Inversion

variable {py : Python} {complete : Bool} {line : String} {r : Reading}

theorem mem_ofStop {payload : List (String × Value)} (h : r ∈ Reading.ofStop payload) :
    ∃ reason numbers, confirmedReason payload = some reason ∧
      numericFields (numbersOf payload) (reason == "time_budget") = some numbers ∧
      ((reason = "epochs_completed" → numbers.isFinal = true) ∧ r = .marker reason numbers ∨
        reason = "epochs_completed" ∧ numbers.isFinal = false ∧ r = .extra numbers) := by
  rw [Reading.ofStop] at h
  rcases hreason : confirmedReason payload with _ | reason
  · simp [hreason] at h
  rcases hn : numericFields (numbersOf payload) (reason == "time_budget") with _ | numbers
  · simp [hreason, hn] at h
  simp only [hreason, hn] at h
  refine ⟨reason, numbers, rfl, hn, ?_⟩
  split_ifs at h with hfinal
  · refine Or.inl ⟨fun heq => hfinal.resolve_left (not_not.mpr heq), ?_⟩
    exact List.mem_singleton.mp h
  · rw [not_or, not_not] at hfinal
    refine Or.inr ⟨hfinal.1, by simpa using hfinal.2, ?_⟩
    exact List.mem_singleton.mp h

theorem mem_ofProgress {payload : List (String × Value)}
    (h : r ∈ Reading.ofProgress complete payload) :
    ∃ numbers, numericFields (numbersOf payload) false = some numbers ∧
      numbers.isProgress = true ∧
      (r = .progress numbers ∨ complete = true ∧ numbers.isFinal = true ∧ r = .final numbers) := by
  rw [Reading.ofProgress] at h
  rcases hn : numericFields (numbersOf payload) false with _ | numbers
  · simp [hn] at h
  simp only [hn] at h
  refine ⟨numbers, rfl, ?_⟩
  split_ifs at h with hprogress hfinal
  · refine ⟨hprogress, ?_⟩
    rcases List.mem_cons.mp h with h | h
    · exact Or.inl h
    · exact Or.inr ⟨hfinal.1, hfinal.2, List.mem_singleton.mp h⟩
  · exact ⟨hprogress, Or.inl (List.mem_singleton.mp h)⟩
  · simp at h

theorem mem_ofEarly {m : Regex.Cursor} (h : r ∈ Reading.ofEarly py m) :
    ∃ numbers, numericFields (Evidence.earlyNumbers py m) false = some numbers ∧
      r = .early numbers := by
  rw [Reading.ofEarly, Option.mem_toList, Option.map_eq_some_iff] at h
  obtain ⟨numbers, hn, heq⟩ := h
  exact ⟨numbers, hn, heq.symm⟩

theorem mem_ofCompleted (h : r ∈ Reading.ofCompleted py line) :
    ∃ m numbers, py.completed.fullmatch line = some m ∧
      numericFields (Evidence.completedNumbers py m) false = some numbers ∧ r = .extra numbers := by
  rw [Reading.ofCompleted, Option.mem_toList] at h
  simp only [Option.bind_eq_bind, Option.bind_eq_some_iff, Option.some.injEq] at h
  obtain ⟨m, hm, numbers, hn, heq⟩ := h
  exact ⟨m, numbers, hm, hn, heq.symm⟩

theorem mem_ofFinal (h : r ∈ Reading.ofFinal py line) :
    ∃ m numbers, py.finalProgress.fullmatch line = some m ∧ m.group 1 = m.group 2 ∧
      numericFields (Evidence.finalNumbers py m) false = some numbers ∧ r = .final numbers := by
  rw [Reading.ofFinal, Option.mem_toList] at h
  simp only [Option.bind_eq_bind, Option.bind_eq_some_iff] at h
  obtain ⟨m, hm, h⟩ := h
  split_ifs at h with hgroup
  simp only [Option.bind_eq_some_iff, Option.some.injEq] at h
  obtain ⟨numbers, hn, heq⟩ := h
  exact ⟨m, numbers, hm, hgroup, hn, heq.symm⟩

/-- The five kinds of lines. -/
theorem mem_ofLine (h : r ∈ Reading.ofLine py complete line) :
    (∃ payload, py.event line "TRAINING_PLATFORM_STOP" = some payload ∧
      r ∈ Reading.ofStop payload) ∨
    (∃ payload, py.event line "TRAINING_PLATFORM_PROGRESS" = some payload ∧
      r ∈ Reading.ofProgress complete payload) ∨
    (∃ m, py.earlyStop.matchStart line = some m ∧ r ∈ Reading.ofEarly py m) ∨
    r ∈ Reading.ofCompleted py line ∨ r ∈ Reading.ofFinal py line := by
  rw [Reading.ofLine] at h
  rcases hstop : py.event line "TRAINING_PLATFORM_STOP" with _ | payload
  · rcases hprogress : py.event line "TRAINING_PLATFORM_PROGRESS" with _ | payload
    · rcases hearly : py.earlyStop.matchStart line with _ | m
      · simp only [hstop, hprogress, hearly] at h
        split_ifs at h
        · exact Or.inr (Or.inr (Or.inr (List.mem_append.mp h)))
        · simp at h
      · simp only [hstop, hprogress, hearly] at h
        exact Or.inr (Or.inr (Or.inl ⟨m, rfl, h⟩))
    · simp only [hstop, hprogress] at h
      exact Or.inr (Or.inl ⟨payload, rfl, h⟩)
  · simp only [hstop] at h
    exact Or.inl ⟨payload, rfl, h⟩

end Inversion

/-! ### The loop as a fold -/

/-- What a reading does to the evidence. -/
def Evidence.read (e : Evidence) : Reading → Evidence
  | .marker reason n => { e with marker := some ⟨reason, "runtime", "confirmed", n⟩ }
  | .extra n => { e with progress := e.progress.update n }
  | .progress n => { e with progress := n }
  | .early n => { e with early := some ⟨"early_stopping", "logs", "confirmed", n⟩ }
  | .final n => { e with completed := some (ofFinal n) }

section Fold

variable {py : Python} {complete : Bool} {e : Evidence}

theorem readStop_eq (payload : List (String × Value)) :
    e.readStop payload = (Reading.ofStop payload).foldl .read e := by
  rw [Evidence.readStop, Reading.ofStop]
  rcases confirmedReason payload with _ | reason
  · rfl
  dsimp only
  rcases numericFields (numbersOf payload) (reason == "time_budget") with _ | numbers
  · rfl
  dsimp only
  split_ifs <;> rfl

theorem readProgress_eq (payload : List (String × Value)) :
    e.readProgress complete payload = (Reading.ofProgress complete payload).foldl .read e := by
  rw [Evidence.readProgress, Reading.ofProgress]
  rcases numericFields (numbersOf payload) false with _ | numbers
  · rfl
  dsimp only
  split_ifs <;> rfl

theorem readEarly_eq (m : Regex.Cursor) :
    e.readEarly py m = (Reading.ofEarly py m).foldl .read e := by
  rw [Evidence.readEarly, Reading.ofEarly]
  rcases numericFields (Evidence.earlyNumbers py m) false with _ | numbers <;> rfl

theorem readCompleted_eq (line : String) :
    e.readCompleted py line = (Reading.ofCompleted py line).foldl .read e := by
  rw [Evidence.readCompleted, Reading.ofCompleted]
  rcases py.completed.fullmatch line with _ | m
  · rfl
  simp only [Option.bind_eq_bind, Option.bind_some]
  rcases numericFields (Evidence.completedNumbers py m) false with _ | numbers <;> rfl

theorem readFinal_eq (line : String) :
    e.readFinal py line = (Reading.ofFinal py line).foldl .read e := by
  rw [Evidence.readFinal, Reading.ofFinal]
  rcases py.finalProgress.fullmatch line with _ | m
  · rfl
  simp only [Option.bind_eq_bind, Option.bind_some]
  split_ifs
  · rcases numericFields (Evidence.finalNumbers py m) false with _ | numbers <;> rfl
  · rfl

/-- A line does to the evidence what its readings do. -/
theorem readLine_eq (line : String) :
    e.readLine py complete line = (Reading.ofLine py complete line).foldl .read e := by
  rw [Evidence.readLine, Reading.ofLine]
  rcases py.event line "TRAINING_PLATFORM_STOP" with _ | payload
  · rcases py.event line "TRAINING_PLATFORM_PROGRESS" with _ | payload
    · rcases py.earlyStop.matchStart line with _ | m
      · dsimp only
        split_ifs
        · rw [List.foldl_append, ← readCompleted_eq, ← readFinal_eq]
        · rfl
      · exact readEarly_eq m
    · exact readProgress_eq payload
  · exact readStop_eq payload

end Fold

/-- The readings of a log, the last first. -/
def history (py : Python) (complete : Bool) (lines : List String) : List Reading :=
  (lines.flatMap fun line => Reading.ofLine py complete (Text.strip line)).reverse

/-- The evidence of a history. -/
def evidenceOf : List Reading → Evidence
  | [] => {}
  | r :: rs => (evidenceOf rs).read r

theorem evidenceOf_reverse (rs : List Reading) : evidenceOf rs.reverse = rs.foldl .read {} := by
  rw [← List.foldr_reverse]
  induction rs.reverse with
  | nil => rfl
  | cons r rs ih => rw [evidenceOf, ih, List.foldr_cons]

/-- The loop is a fold over the readings. -/
theorem trainingEvidence_eq (py : Python) (lines : List String) (complete : Bool) :
    trainingEvidence py lines complete = evidenceOf (history py complete lines) := by
  have hstep : (fun (e : Evidence) line => e.readLine py complete (Text.strip line)) =
      fun e line => (Reading.ofLine py complete (Text.strip line)).foldl .read e := by
    funext e line
    exact readLine_eq _
  rw [history, evidenceOf_reverse, List.foldl_flatMap, trainingEvidence, hstep]

/-! ### Numbers that passed the check -/

theorem numericFields_some {payload numbers : Numbers} {allow : Bool}
    (h : numericFields payload allow = some numbers) : numbers = payload := by
  rw [numericFields] at h
  split_ifs at h
  exact (Option.some.inj h).symm

/-- What the check of `_numeric_fields` says of the numbers it lets through. -/
structure Numbers.Checked (n : Numbers) (allow : Bool) : Prop where
  isNumber : ∀ name value, n name = some value → number name value = true
  epoch_le : allow = false → n.get .epoch 0 ≤ n.get .epochs 1000000000
  best_le : n.get .bestEpoch 0 ≤ n.get .epoch (n.get .epochs 1000000000)

theorem numericFields_checked {payload numbers : Numbers} {allow : Bool}
    (h : numericFields payload allow = some numbers) : numbers.Checked allow := by
  have hsame := numericFields_some h
  subst hsame
  rw [numericFields] at h
  split_ifs at h with hnumber hepoch hbest
  refine ⟨?_, ?_, not_lt.mp hbest⟩
  · intro name value hvalue
    by_contra hne
    refine hnumber (List.any_eq_true.mpr ⟨name, name.mem_all, ?_⟩)
    simpa [hvalue] using hne
  · intro hallow
    by_contra hlt
    exact hepoch ⟨by simp [hallow], not_le.mp hlt⟩

/-- Every reading passed the check. -/
theorem ofLine_checked {py : Python} {complete : Bool} {line : String} {r : Reading}
    (h : r ∈ Reading.ofLine py complete line) : r.numbers.Checked r.overruns := by
  rcases mem_ofLine h with ⟨payload, _, h⟩ | ⟨payload, _, h⟩ | ⟨m, _, h⟩ | h | h
  · obtain ⟨reason, numbers, _, hn, hr⟩ := mem_ofStop h
    have hchecked := numericFields_checked hn
    rcases hr with ⟨_, rfl⟩ | ⟨rfl, _, rfl⟩
    · exact hchecked
    · -- `epochs_completed` allows no overrun
      exact hchecked
  · obtain ⟨numbers, hn, _, rfl | ⟨_, _, rfl⟩⟩ := mem_ofProgress h
    · exact numericFields_checked hn
    · exact numericFields_checked hn
  · obtain ⟨numbers, hn, rfl⟩ := mem_ofEarly h
    exact numericFields_checked hn
  · obtain ⟨m, numbers, _, hn, rfl⟩ := mem_ofCompleted h
    exact numericFields_checked hn
  · obtain ⟨m, numbers, _, _, hn, rfl⟩ := mem_ofFinal h
    exact numericFields_checked hn

/-- Every reading of a history passed the check. -/
theorem history_checked {py : Python} {complete : Bool} {lines : List String} {r : Reading}
    (h : r ∈ history py complete lines) : r.numbers.Checked r.overruns := by
  rw [history, List.mem_reverse, List.mem_flatMap] at h
  obtain ⟨line, _, hr⟩ := h
  exact ofLine_checked hr

/-! ### Where the answer comes from -/

/-- The numbers that make up the progress, the last first: those of the last
progress line and of the lines after it. -/
def recent : List Reading → List Numbers
  | [] => []
  | .progress n :: _ => [n]
  | .extra n :: rs => n :: recent rs
  | _ :: rs => recent rs

theorem evidenceOf_progress (rs : List Reading) (name : NumberName) :
    (evidenceOf rs).progress name = (recent rs).findSome? (· name) := by
  induction rs with
  | nil => rfl
  | cons r rs ih =>
    rcases r with ⟨reason, n⟩ | n | n | n | n
    · exact ih
    · change (n name).or ((evidenceOf rs).progress name) = (n :: recent rs).findSome? (· name)
      rw [ih, List.findSome?_cons]
      rcases n name with _ | v <;> rfl
    · change n name = [n].findSome? (· name)
      rw [List.findSome?_cons]
      rcases n name with _ | v <;> rfl
    · exact ih
    · exact ih

namespace Reading

def isMarker : Reading → Bool
  | marker _ _ => true
  | _ => false

def isEarly : Reading → Bool
  | early _ => true
  | _ => false

def isFinal : Reading → Bool
  | final _ => true
  | _ => false

/-- The evidence in a reading. -/
def training : Reading → Training
  | marker reason n => ⟨reason, "runtime", "confirmed", n⟩
  | early n => ⟨"early_stopping", "logs", "confirmed", n⟩
  | r => Evidence.ofFinal r.numbers

theorem training_numbers (r : Reading) : r.training.numbers = r.numbers := by
  cases r <;> rfl

end Reading

/-- The reading that decides the training reason: the last marker, or else the
last early stop, or else the last that names the last epoch. -/
def decisive (rs : List Reading) : Option Reading :=
  ((rs.find? Reading.isMarker).or (rs.find? Reading.isEarly)).or (rs.find? Reading.isFinal)

theorem evidenceOf_training (rs : List Reading) :
    (evidenceOf rs).training = (decisive rs).map Reading.training := by
  have hmarker : (evidenceOf rs).marker = (rs.find? Reading.isMarker).map Reading.training := by
    induction rs with
    | nil => rfl
    | cons r rs ih =>
      rcases r with ⟨reason, n⟩ | n | n | n | n
      · rfl
      all_goals exact ih
  have hearly : (evidenceOf rs).early = (rs.find? Reading.isEarly).map Reading.training := by
    clear hmarker
    induction rs with
    | nil => rfl
    | cons r rs ih =>
      rcases r with ⟨reason, n⟩ | n | n | n | n
      · exact ih
      · exact ih
      · exact ih
      · rfl
      · exact ih
  have hfinal : (evidenceOf rs).completed = (rs.find? Reading.isFinal).map Reading.training := by
    clear hmarker hearly
    induction rs with
    | nil => rfl
    | cons r rs ih =>
      rcases r with ⟨reason, n⟩ | n | n | n | n
      · exact ih
      · exact ih
      · exact ih
      · exact ih
      · rfl
  rw [Evidence.training, decisive, hmarker, hearly, hfinal, Option.map_or, Option.map_or]

/-- A decisive reading is in the history, and no mere report of numbers. -/
theorem mem_of_decisive {rs : List Reading} {r : Reading} (h : decisive rs = some r) :
    r ∈ rs ∧ (r.isMarker = true ∨ r.isEarly = true ∨ r.isFinal = true) := by
  rw [decisive, Option.or_eq_some_iff, Option.or_eq_some_iff] at h
  rcases h with (h | ⟨_, h⟩) | ⟨_, h⟩
  · exact ⟨List.mem_of_find?_eq_some h, Or.inl (List.find?_some h)⟩
  · exact ⟨List.mem_of_find?_eq_some h, Or.inr (Or.inl (List.find?_some h))⟩
  · exact ⟨List.mem_of_find?_eq_some h, Or.inr (Or.inr (List.find?_some h))⟩

theorem mem_recent {n : Numbers} :
    ∀ {rs : List Reading}, n ∈ recent rs → Reading.progress n ∈ rs ∨ Reading.extra n ∈ rs := by
  intro rs
  induction rs with
  | nil =>
    intro h
    simp [recent] at h
  | cons r rs ih =>
    intro h
    have later (h : n ∈ recent rs) : Reading.progress n ∈ r :: rs ∨ Reading.extra n ∈ r :: rs :=
      (ih h).imp (List.mem_cons_of_mem r) (List.mem_cons_of_mem r)
    rcases r with ⟨reason, m⟩ | m | m | m | m
    · exact later h
    · rcases List.mem_cons.mp h with rfl | h
      · exact Or.inr (by simp)
      · exact later h
    · rw [recent, List.mem_singleton] at h
      exact Or.inl (by simp [h])
    · exact later h
    · exact later h

/-- The numbers of the answer in order of precedence: those of the decisive
reading, then those of the progress. -/
def suppliers (rs : List Reading) : List Numbers :=
  (decisive rs).toList.map Reading.numbers ++ recent rs

/-- The numbers that supply one of the answer. -/
def supplier (rs : List Reading) (name : NumberName) : Option Numbers :=
  (suppliers rs).find? fun n => (n name).isSome

theorem findSome?_eq_bind (name : NumberName) (l : List Numbers) :
    l.findSome? (· name) = (l.find? fun n => (n name).isSome).bind (· name) := by
  induction l with
  | nil => rfl
  | cons n l ih =>
    rw [List.findSome?_cons, List.find?_cons]
    rcases h : n name with _ | v
    · simpa [h] using ih
    · simp [h]

/-- Each number but the time is that of its supplier. -/
theorem mergedNumbers_eq (rs : List Reading) (elapsed : Option Value) {name : NumberName}
    (hname : name ≠ .elapsedSeconds) :
    mergedNumbers (evidenceOf rs).progress elapsed (evidenceOf rs).training name =
      (supplier rs name).bind (· name) := by
  rw [supplier, ← findSome?_eq_bind, suppliers, List.findSome?_append, ← evidenceOf_progress,
    evidenceOf_training]
  have hprogress : (evidenceOf rs).progress.update
      (fun name => if name = .elapsedSeconds then elapsed else none) name =
        (evidenceOf rs).progress name := by
    rw [Numbers.update, if_neg hname]
    rfl
  rcases decisive rs with _ | r
  · exact hprogress
  · change (r.training.numbers name).or _ = ([r.numbers].findSome? (· name)).or _
    rw [hprogress, Reading.training_numbers, List.findSome?_cons]
    rcases r.numbers name with _ | v <;> rfl

/-! ### The fields of the answer -/

section Fields

variable {token : String} {state : ProviderState} {training : Option Training} {details : Numbers}
  {elapsed : Option Value} {cancelRequested : Bool} {result : Details}

theorem observe_number (name : NumberName) :
    observe token state training details (.number name) = details name := by
  have hmerged (d : Details) (h : d (.number name) = none) :
      d.numbers details (.number name) = details name := by
    change (details name).or (d (.number name)) = details name
    rw [h, Option.or_none]
  rcases training with _ | t
  · exact hmerged _ rfl
  · rw [observe]
    split_ifs
    · exact hmerged _ rfl
    · exact hmerged _ rfl

theorem observe_trainingReason :
    observe token state training details .trainingReason =
      if state = .complete then none else training.map fun t => .str t.reason := by
  rcases training with _ | t
  · split_ifs <;> rfl
  · rw [observe]
    split_ifs <;> rfl

theorem observe_text {field : Field} (hnumber : ∀ name, field ≠ .number name)
    (htraining : field ≠ .trainingReason) :
    observe token state training details field =
      ((Details.outcome (fun _ => none) "unknown" "provider" "unknown").text .providerStatus
        token) field := by
  have hkeep (d : Details) : d.numbers details field = d field := by
    rcases field with _ | _ | _ | _ | _ | _ | _ | name
    all_goals first | rfl | exact absurd rfl (hnumber name)
  rcases training with _ | t
  · exact hkeep _
  · rw [observe]
    split_ifs
    · exact hkeep _
    · exact (Function.update_of_ne htraining _ _).trans (hkeep _)

/-- The numbers of a decisive reading are among those merged already. -/
theorem conclude_number {name : NumberName}
    (h : ∀ t, training = some t →
      (t.numbers name).or (result (.number name)) = result (.number name)) :
    (conclude state training elapsed cancelRequested result).1 (.number name) =
      result (.number name) := by
  rcases state with _ | _ | _ | _ | _ | _
  · rcases training with _ | t
    · rfl
    · rw [conclude]
      split_ifs
      · exact h t rfl
      · rfl
  · rfl
  · rw [conclude]
    split_ifs <;> rfl
  all_goals rfl

theorem conclude_trainingReason :
    (conclude state training elapsed cancelRequested result).1 .trainingReason =
      result .trainingReason := by
  rcases state with _ | _ | _ | _ | _ | _
  · rcases training with _ | t
    · rfl
    · rw [conclude]
      split_ifs <;> rfl
  · rfl
  · rw [conclude]
    split_ifs <;> rfl
  all_goals rfl

/-- The reason of an answer. -/
def concludedReason (state : ProviderState) (training : Option Training) (cancelRequested : Bool) :
    String :=
  match state with
  | .canceled => if cancelRequested then "user_canceled" else "provider_canceled"
  | .error => "provider_failed"
  | .complete =>
    match training with
    | some t => if t.reason ≠ "unknown" then t.reason else "completed_unknown"
    | none => "completed_unknown"
  | .running | .queued | .unknown => "unknown"

theorem conclude_reason (h : result .reason = some (.str "unknown")) :
    (conclude state training elapsed cancelRequested result).1 .reason =
      some (.str (concludedReason state training cancelRequested)) := by
  rcases state with _ | _ | _ | _ | _ | _
  · rcases training with _ | t
    · rfl
    · rw [conclude, concludedReason]
      split_ifs <;> rfl
  · rfl
  · rw [conclude, concludedReason]
    split_ifs <;> rfl
  all_goals exact h

end Fields

section Answer

variable (py : Python) (extraSecrets : List String) (providerStatus logs : String)
  (cancelRequested : Bool)

/-- The state a status maps to. -/
def providerState : ProviderState := stateOf (statusToken py providerStatus)

/-- The readings of the log under a status, the last first. -/
def readings : List Reading :=
  history py (providerState py providerStatus = .complete) (py.logLines logs).1

/-- The details before the state is looked at. -/
def observed : Details :=
  let evidence := evidenceOf (readings py providerStatus logs)
  observe (statusToken py providerStatus) (providerState py providerStatus) evidence.training
    (mergedNumbers evidence.progress (py.logLines logs).2 evidence.training)

/-- The answer and its message. -/
def answer : Details × Message :=
  conclude (providerState py providerStatus) (evidenceOf (readings py providerStatus logs)).training
    (py.logLines logs).2 cancelRequested (observed py providerStatus logs)

theorem classifyStopReason_eq :
    classifyStopReason py extraSecrets providerStatus logs cancelRequested =
      (answer py providerStatus logs cancelRequested).1.text .message
        (redactSecrets extraSecrets (answer py providerStatus logs cancelRequested).2.text) := by
  rw [classifyStopReason, trainingEvidence_eq]
  rfl

variable {py extraSecrets providerStatus logs cancelRequested}

/-- Only the message is redacted. -/
theorem classifyStopReason_of_ne {field : Field} (h : field ≠ .message) :
    classifyStopReason py extraSecrets providerStatus logs cancelRequested field =
      (answer py providerStatus logs cancelRequested).1 field := by
  rw [classifyStopReason_eq]
  exact Function.update_of_ne h _ _

/-- The numbers of an answer, the time apart, are those of their suppliers. -/
theorem classify_number {name : NumberName} (hname : name ≠ .elapsedSeconds) :
    classifyStopReason py extraSecrets providerStatus logs cancelRequested (.number name) =
      (supplier (readings py providerStatus logs) name).bind (· name) := by
  rw [classifyStopReason_of_ne (by simp), answer, conclude_number, observed, observe_number,
    mergedNumbers_eq _ _ hname]
  intro t ht
  rw [observed, observe_number, ht]
  change (t.numbers name).or ((t.numbers name).or _) = (t.numbers name).or _
  rw [← Option.or_assoc, Option.or_self]

theorem classify_trainingReason :
    classifyStopReason py extraSecrets providerStatus logs cancelRequested .trainingReason =
      if providerState py providerStatus = .complete then none
      else (decisive (readings py providerStatus logs)).map fun r => .str r.training.reason := by
  rw [classifyStopReason_of_ne (by simp), answer, conclude_trainingReason, observed,
    observe_trainingReason, evidenceOf_training, Option.map_map]
  rfl

theorem classify_reason :
    classifyStopReason py extraSecrets providerStatus logs cancelRequested .reason =
      some (.str (concludedReason (providerState py providerStatus)
        ((decisive (readings py providerStatus logs)).map Reading.training) cancelRequested)) := by
  rw [classifyStopReason_of_ne (by simp), answer, conclude_reason, evidenceOf_training]
  rw [observed, observe_text (by simp) (by simp)]
  rfl

end Answer

/-! ### Numbers in order -/

/-- One number is at most another. -/
def Value.le : Value → Value → Prop
  | .int a, .int b => a ≤ b
  | _, _ => False

/-- The epoch of an answer is one of its epochs, and its best epoch one of
those up to it. -/
structure Details.Ordered (d : Details) : Prop where
  epoch_le : ∀ a b, d (.number .epoch) = some a → d (.number .epochs) = some b → a.le b
  best_le : ∀ a b, d (.number .bestEpoch) = some a → d (.number .epoch) = some b → a.le b

/-- Where two lines supply two numbers, these are in order. -/
def InOrder (rs : List Reading) (lower upper : NumberName) : Prop :=
  ∀ m n, supplier rs lower = some m → supplier rs upper = some n → m ≠ n →
    m.get lower 0 ≤ n.get upper 0

/-- The last confirmed marker is that of a time budget. -/
def budgeted (rs : List Reading) : Bool :=
  match decisive rs with
  | some (.marker reason _) => reason == "time_budget"
  | _ => false

theorem budgeted_iff {rs : List Reading} :
    budgeted rs = true ↔ ∃ r, decisive rs = some r ∧ r.training.reason = "time_budget" := by
  rw [budgeted]
  rcases h : decisive rs with _ | r
  · simp
  · obtain ⟨_, hkind⟩ := mem_of_decisive h
    rcases r with ⟨reason, n⟩ | n | n | n | n
    · simp [Reading.training]
    · simp [Reading.isMarker, Reading.isEarly, Reading.isFinal] at hkind
    · simp [Reading.isMarker, Reading.isEarly, Reading.isFinal] at hkind
    · simp [Reading.training]
    · simp [Reading.training, Evidence.ofFinal, Reading.numbers]

/-- The numbers that supply an answer passed the check, and one without a time
budget the strict one. -/
theorem supplier_checked {rs : List Reading} (hrs : ∀ r ∈ rs, r.numbers.Checked r.overruns)
    {name : NumberName} {n : Numbers} (h : supplier rs name = some n) :
    (n name).isSome = true ∧ n.Checked (budgeted rs) := by
  refine ⟨by simpa using List.find?_some h, ?_⟩
  have hmem := List.mem_of_find?_eq_some h
  have weaken {n : Numbers} (hn : n.Checked false) (allow : Bool) : n.Checked allow :=
    ⟨hn.isNumber, fun _ => hn.epoch_le rfl, hn.best_le⟩
  rcases List.mem_append.mp hmem with hmem | hmem
  · obtain ⟨r, hr, rfl⟩ := List.mem_map.mp hmem
    rw [Option.mem_toList] at hr
    obtain ⟨hmem, hkind⟩ := mem_of_decisive hr
    have hchecked := hrs r hmem
    rcases r with ⟨reason, n⟩ | n | n | n | n
    · rw [budgeted, hr]
      exact hchecked
    all_goals exact weaken hchecked _
  · rcases mem_recent hmem with hmem | hmem
    · exact weaken (hrs _ hmem) _
    · exact weaken (hrs _ hmem) _

/-- A checked number other than the time is an integer. -/
theorem Numbers.Checked.int {n : Numbers} {allow : Bool} (h : n.Checked allow) {name : NumberName}
    (hname : name ≠ .elapsedSeconds) {value : Value} (hvalue : n name = some value) :
    ∃ z : ℤ, value = .int z := by
  have hnumber := h.isNumber name value hvalue
  rcases value with _ | b | z | x | s | l | f
  · simp [number] at hnumber
  · simp [number] at hnumber
  · exact ⟨z, rfl⟩
  · rcases x with _ | x
    · simp [number] at hnumber
    · simp [number, hname] at hnumber
  · simp [number] at hnumber
  · simp [number] at hnumber
  · simp [number] at hnumber

theorem Numbers.get_of_eq {n : Numbers} {name : NumberName} {z : ℤ} (h : n name = some (.int z))
    (default : ℤ) : n.get name default = z := by
  rw [Numbers.get, h]

/-- For one pair of numbers whose order within one line the check ensures: the
merged pair is in order exactly when pairs from two lines are. -/
theorem pair_iff {rs : List Reading} (hrs : ∀ r ∈ rs, r.numbers.Checked r.overruns)
    (lower upper : NumberName) (hl : lower ≠ .elapsedSeconds) (hu : upper ≠ .elapsedSeconds)
    (hsame : ∀ n : Numbers, n.Checked (budgeted rs) → ∀ a b : ℤ, n lower = some (.int a) →
      n upper = some (.int b) → a ≤ b) :
    (∀ a b, (supplier rs lower).bind (· lower) = some a →
      (supplier rs upper).bind (· upper) = some b → a.le b) ↔ InOrder rs lower upper := by
  constructor
  · intro h m n hm hn _
    obtain ⟨hms, hmc⟩ := supplier_checked hrs hm
    obtain ⟨hns, hnc⟩ := supplier_checked hrs hn
    obtain ⟨a, ha⟩ := Option.isSome_iff_exists.mp hms
    obtain ⟨b, hb⟩ := Option.isSome_iff_exists.mp hns
    obtain ⟨x, rfl⟩ := hmc.int hl ha
    obtain ⟨y, rfl⟩ := hnc.int hu hb
    rw [Numbers.get_of_eq ha, Numbers.get_of_eq hb]
    exact h (.int x) (.int y) (by rw [hm]; exact ha) (by rw [hn]; exact hb)
  · intro h a b ha hb
    obtain ⟨m, hm, ha⟩ := Option.bind_eq_some_iff.mp ha
    obtain ⟨n, hn, hb⟩ := Option.bind_eq_some_iff.mp hb
    obtain ⟨x, rfl⟩ := (supplier_checked hrs hm).2.int hl ha
    obtain ⟨y, rfl⟩ := (supplier_checked hrs hn).2.int hu hb
    by_cases hmn : m = n
    · subst hmn
      exact hsame m (supplier_checked hrs hm).2 x y ha hb
    · have := h m n hm hn hmn
      rwa [Numbers.get_of_eq ha, Numbers.get_of_eq hb] at this

/-- The reason is a time budget, in the reason of the kernel or of its training. -/
theorem time_budget_iff {py : Python} {extraSecrets : List String} {providerStatus logs : String}
    {cancelRequested : Bool} :
    (classifyStopReason py extraSecrets providerStatus logs cancelRequested .reason =
          some (.str "time_budget") ∨
        classifyStopReason py extraSecrets providerStatus logs cancelRequested .trainingReason =
          some (.str "time_budget")) ↔
      budgeted (readings py providerStatus logs) = true := by
  rw [classify_reason, classify_trainingReason, budgeted_iff]
  rcases hd : decisive (readings py providerStatus logs) with _ | r
  · rcases providerState py providerStatus with _ | _ | _ | _ | _ | _ <;>
      rcases cancelRequested with _ | _ <;> simp [concludedReason]
  · by_cases hcomplete : providerState py providerStatus = .complete
    · rw [hcomplete]
      by_cases hunknown : r.training.reason = "unknown"
      · simp [concludedReason, hunknown]
      · simp [concludedReason, hunknown]
    · have hreason : concludedReason (providerState py providerStatus)
          (some r.training) cancelRequested ≠ "time_budget" := by
        rcases hstate : providerState py providerStatus with _ | _ | _ | _ | _ | _
        · exact absurd hstate hcomplete
        all_goals rcases cancelRequested with _ | _ <;> simp [concludedReason]
      simp [hcomplete, hreason]

/-- **The numbers of an answer are in order exactly when those of two different
lines are**, an answer with a time budget apart. -/
theorem ordered_iff (py : Python) (extraSecrets : List String) (providerStatus logs : String)
    (cancelRequested : Bool) :
    let d := classifyStopReason py extraSecrets providerStatus logs cancelRequested
    let rs := readings py providerStatus logs
    (d .reason = some (.str "time_budget") ∨ d .trainingReason = some (.str "time_budget") ∨
        d.Ordered) ↔
      (budgeted rs = true ∨ InOrder rs .epoch .epochs ∧ InOrder rs .bestEpoch .epoch) := by
  intro d rs
  rw [← or_assoc, time_budget_iff]
  by_cases hbudget : budgeted (readings py providerStatus logs) = true
  · simp [rs, hbudget]
  rw [Bool.not_eq_true] at hbudget
  have hrs : ∀ r ∈ rs, r.numbers.Checked r.overruns := fun r hr => history_checked hr
  have hepoch : InOrder rs .epoch .epochs ↔ ∀ a b, d (.number .epoch) = some a →
      d (.number .epochs) = some b → a.le b := by
    have h := pair_iff hrs .epoch .epochs (by simp) (by simp) ?_
    · rw [← h]
      simp only [d, rs, classify_number (show NumberName.epoch ≠ .elapsedSeconds by simp),
        classify_number (show NumberName.epochs ≠ .elapsedSeconds by simp)]
    · intro n hn a b ha hb
      have := hn.epoch_le hbudget
      rwa [Numbers.get_of_eq ha, Numbers.get_of_eq hb] at this
  have hbest : InOrder rs .bestEpoch .epoch ↔ ∀ a b, d (.number .bestEpoch) = some a →
      d (.number .epoch) = some b → a.le b := by
    have h := pair_iff hrs .bestEpoch .epoch (by simp) (by simp) ?_
    · rw [← h]
      simp only [d, rs, classify_number (show NumberName.bestEpoch ≠ .elapsedSeconds by simp),
        classify_number (show NumberName.epoch ≠ .elapsedSeconds by simp)]
    · intro n hn a b ha hb
      have := hn.best_le
      rwa [Numbers.get_of_eq ha, Numbers.get_of_eq hb] at this
  simp only [rs] at hepoch hbest ⊢
  rw [hbudget, hepoch, hbest]
  simp only [Bool.false_eq_true, false_or]
  exact ⟨fun h => ⟨h.epoch_le, h.best_le⟩, fun h => ⟨h.1, h.2⟩⟩

/-! ### Python on ASCII texts -/

mutual

/-- A JSON value as Python decodes it; floats are not read here. -/
def Value.ofJson : JsonText.Json → Value
  | .null => .null
  | .bool b => .bool b
  | .int z => .int z
  | .float _ => .float none
  | .str s => .str s
  | .arr items => .list (Value.ofItems items)
  | .obj fields => .dict (Value.ofFields fields)

/-- The items of an array. -/
def Value.ofItems : List JsonText.Json → List Value
  | [] => []
  | x :: xs => Value.ofJson x :: Value.ofItems xs

/-- The fields of an object. -/
def Value.ofFields : List (String × JsonText.Json) → List (String × Value)
  | [] => []
  | (k, x) :: fs => (k, Value.ofJson x) :: Value.ofFields fs

end

/-- Python on texts of ASCII characters whose JSON holds no float. -/
def Python.ascii : Python where
  loads s := (JsonText.loads s).map Value.ofJson
  decimal c := if c.isDigit then some (c.toNat - 48) else none
  isWord c := c.isAlphanum || c == '_'
  upper s := String.ofList (s.toList.map Char.toUpper)
  lower s := String.ofList (s.toList.map Char.toLower)

/-- The log of two trainings: one that got to epoch 5 of 8, and one of 9 epochs. -/
def mixedLog : String :=
  "TRAINING_PLATFORM_PROGRESS \x7b\"epoch\":5,\"epochs\":8\x7d\n9 epochs completed in 1 hours."

/-- The integer in a value. -/
def Value.int? : Value → Option ℤ
  | .int z => some z
  | _ => none

/-- The text in a value. -/
def Value.str? : Value → Option String
  | .str s => some s
  | _ => none

/-- What is read off the answer to that log. -/
theorem mixedLog_answer :
    let d := classifyStopReason .ascii [] "COMPLETE" mixedLog false
    ((d .reason).bind Value.str?, (d .trainingReason).bind Value.str?,
        (d (.number .epoch)).bind Value.int?, (d (.number .epochs)).bind Value.int?) =
      (some "completed_unknown", none, some 9, some 8) := by
  decide +kernel

/-- The numbers of an answer need not be in order. -/
theorem unordered :
    ¬ ∀ (py : Python) (extraSecrets : List String) (providerStatus logs : String)
      (cancelRequested : Bool),
      let d := classifyStopReason py extraSecrets providerStatus logs cancelRequested
      d .reason = some (.str "time_budget") ∨ d .trainingReason = some (.str "time_budget") ∨
        d.Ordered := by
  intro h
  have hanswer := mixedLog_answer
  simp only [Prod.mk.injEq] at hanswer
  obtain ⟨hreason, htraining, hepoch, hepochs⟩ := hanswer
  rcases h .ascii [] "COMPLETE" mixedLog false with hbudget | hbudget | hordered
  · rw [hbudget] at hreason
    simp [Value.str?] at hreason
  · rw [hbudget] at htraining
    simp [Value.str?] at htraining
  · obtain ⟨e, he, hint⟩ := Option.bind_eq_some_iff.mp hepoch
    obtain ⟨n, hn, hnint⟩ := Option.bind_eq_some_iff.mp hepochs
    have hle := hordered.epoch_le e n he hn
    rcases e with _ | _ | x | _ | _ | _ | _ <;> simp [Value.int?] at hint
    rcases n with _ | _ | y | _ | _ | _ | _ <;> simp [Value.int?] at hnint
    subst hint hnint
    have : (9 : ℤ) ≤ 8 := hle
    omega

end KaggleRelay

/-
Which jobs a user sees in a list, and which one may open.

`list_jobs` and `job_summary` filter rows by SQL conditions on their columns;
`can_access_job` asks the auth store.

* `jobVisible`, `jobSummary` — the conditions, and the counts made with them;
* `canAccessJob` — the access check;
* `Rows` — the rows a relay comes to hold, all of them `Filed`;
* `access_of_visible` — whatever is listed may be opened;
* `visibility_agrees_iff` — the two agree on a row if and only if it is not one
  of the user's own whose allowed keys are all disabled.
-/
import Mathlib.Algebra.BigOperators.Group.List.Lemmas
import KaggleRelay.JobCreation

namespace KaggleRelay

/-! ### Lists and counts -/

/-- `_job_visibility_conditions` on a row. -/
def jobVisible (kaggleKeyIds : Option (List String)) (relayTokenId : Option String) (row : OwnedJob) : Bool :=
  (match kaggleKeyIds with
    | none => true
    | some keys => keys.contains row.kaggleKeyId ||
        (row.schedulingMode == .dynamic && row.assignmentState == .pending &&
          row.eligibleAccounts.any fun account => keys.contains account.1)) &&
    match relayTokenId with
    | none => true
    | some owner => row.relayTokenId == owner

/-- `job_status_counts`. -/
def jobStatusCounts (kaggleKeyIds : Option (List String)) (relayTokenId : Option String)
    (rows : List OwnedJob) : List (Status × ℕ) :=
  let statuses := (rows.filter (jobVisible kaggleKeyIds relayTokenId)).map (·.status)
  statuses.dedup.map fun status => (status, statuses.count status)

section Users

variable (store : AuthStore) (p : RelayPrincipal)

/-- `key_filter`. -/
def keyFilter : Option (List String) := if p.allowAllKeys then none else some (store.allowedKeyIds p false)

/-- `owner_filter`. -/
def ownerFilter : Option String := if store.legacy || p.allowAllKeys then none else some p.id

/-- The row is one that `list_jobs` and `job_summary` select. -/
def listed (row : OwnedJob) : Bool := jobVisible (keyFilter store p) (ownerFilter store p) row

/-- `counts.get(status, 0)`. -/
def countOf (counts : List (Status × ℕ)) (status : Status) : ℕ := (counts.lookup status).getD 0

structure Summary where
  total : ℕ
  inProgress : ℕ
  queued : ℕ
  failed : ℕ
  complete : ℕ
  canceled : ℕ

/-- `ACTIVE_JOB_STATUSES - {"queued"}`. -/
def inProgressStatuses : List Status :=
  [.receiving, .assembling, .uploadingDataset, .waitingDataset, .pushingKernel, .waitingKernel,
    .cancelRequested, .downloadingOutput]

/-- `job_summary`. -/
def jobSummary (rows : List OwnedJob) : Summary :=
  let counts := jobStatusCounts (keyFilter store p) (ownerFilter store p) rows
  { total := (counts.map (·.2)).sum
    inProgress := (inProgressStatuses.map (countOf counts)).sum
    queued := countOf counts .queued
    failed := countOf counts .failed
    complete := countOf counts .complete
    canceled := countOf counts .canceled }

/-- `can_access_job`. -/
def canAccessJob (row : OwnedJob) : Bool :=
  let keyAccess := if awaitingAssignment row.toJob
    then row.eligibleAccounts.any fun account => store.canAccessKey p account.1
    else store.canAccessKey p row.kaggleKeyId
  let owner := Text.strip row.relayTokenId
  keyAccess &&
    if store.legacy then owner == "" || owner == p.id
    else if owner ≠ "" then p.allowAllKeys || owner == p.id
    else p.allowAllKeys

end Users

/-! ### The rows of a relay -/

/-- The columns that decide on visibility are the same. -/
structure SameOwner (row row' : OwnedJob) : Prop where
  declared : row'.toDeclared = row.toDeclared
  key : row'.kaggleKeyId = row.kaggleKeyId
  state : row'.assignmentState = row.assignmentState
  eligible : row'.eligibleAccounts = row.eligibleAccounts

/-- The rows a relay comes to hold. -/
inductive Rows : List OwnedJob → Prop
  | empty : Rows []
  /-- A job is created, with whatever store is current then. -/
  | create {rows : List OwnedJob} (h : Rows rows) {lib : Library} {store : AuthStore} (hs : store.Sound)
      {p p' : RelayPrincipal} (hp : p' ∈ store.tokens.map (·.2)) {quota : String → KeyQuota}
      {request : CreateJobRequest} {accounts : List (String × String)} {candidates : List (ℚ × String)}
      (hcandidates : createCandidates lib store p quota request = .ok (accounts, candidates))
      {admission : Except Exc Unit} {now : ℚ} {row : OwnedJob}
      (hrow : createRow lib store (rows.map (·.toJob)) admission now request p' accounts candidates = .ok row) :
      Rows (row :: rows)
  /-- A row of a relay without an auth config, or of an older version. -/
  | older {rows : List OwnedJob} (h : Rows rows) {row : OwnedJob} (howner : row.relayTokenId ∈ ["", "legacy"])
      (hkey : row.kaggleKeyId = "") (hmode : row.schedulingMode = .fixed) (heligible : row.eligibleAccounts = []) :
      Rows (row :: rows)
  /-- The scheduler binds a row to one of its accounts. -/
  | bind {before after : List OwnedJob} {row row' : OwnedJob} (h : Rows (before ++ row :: after))
      (hdeclared : row'.toDeclared = row.toDeclared) (hbound : row'.assignmentState = .bound)
      (hkey : row'.kaggleKeyId ∈ row.eligibleAccounts.map (·.1))
      (heligible : row'.eligibleAccounts = row.eligibleAccounts) : Rows (before ++ row' :: after)
  /-- Any other update. -/
  | update {before after : List OwnedJob} {row row' : OwnedJob} (h : Rows (before ++ row :: after))
      (hsame : SameOwner row row') : Rows (before ++ row' :: after)
  | delete {before after : List OwnedJob} {row : OwnedJob} (h : Rows (before ++ row :: after)) :
      Rows (before ++ after)

/-- A change of one row keeps what holds of all. -/
theorem forall_replace {P : OwnedJob → Prop} {before after : List OwnedJob} {row row' : OwnedJob}
    (h : ∀ x ∈ before ++ row :: after, P x) (hrow : P row → P row') : ∀ x ∈ before ++ row' :: after, P x := by
  intro x hx
  obtain hx | hx := List.mem_append.mp hx
  · exact h x (List.mem_append_left _ hx)
  · obtain rfl | hx := List.mem_cons.mp hx
    · exact hrow (h row (List.mem_append_right _ List.mem_cons_self))
    · exact h x (List.mem_append_right _ (List.mem_cons_of_mem _ hx))

theorem filed_of_rows {rows : List OwnedJob} (h : Rows rows) : ∀ row ∈ rows, Filed row := by
  induction h with
  | empty => exact fun _ hx => absurd hx List.not_mem_nil
  | create _ hs hp hcandidates hrow ih =>
    exact List.forall_mem_cons.mpr ⟨(filed_createRow hs hp hcandidates hrow).1, ih⟩
  | @older rows _ row howner hkey hmode heligible ih =>
    refine List.forall_mem_cons.mpr ⟨⟨?_, ?_, ?_, ?_⟩, ih⟩
    · obtain h | h : row.relayTokenId = "" ∨ row.relayTokenId = "legacy" := by simpa using howner
      · rw [h]
        decide
      · rw [h]
        decide
    · rw [hkey]
      decide
    · rw [heligible]
      exact fun _ hx => absurd hx List.not_mem_nil
    · intro hawaits
      rw [awaitingAssignment, hmode] at hawaits
      cases hawaits
  | @bind before after row row' _ hdeclared hbound hkey heligible ih =>
    refine forall_replace ih fun hfiled => ⟨?_, ?_, ?_, ?_⟩
    · rw [hdeclared]
      exact hfiled.owner
    · obtain ⟨account, haccount, heq⟩ := List.mem_map.mp hkey
      rw [← heq]
      exact (hfiled.eligible account haccount).2
    · rw [heligible]
      exact hfiled.eligible
    · intro hawaits
      rw [awaitingAssignment, hbound] at hawaits
      simp at hawaits
  | @update before after row row' _ hsame ih =>
    refine forall_replace ih fun hfiled => ⟨?_, ?_, ?_, ?_⟩
    · rw [hsame.declared]
      exact hfiled.owner
    · rw [hsame.key]
      exact hfiled.key
    · rw [hsame.eligible]
      exact hfiled.eligible
    · rw [awaitingAssignment, hsame.declared, hsame.state, hsame.key, hsame.eligible]
      exact hfiled.pending
  | delete _ ih =>
    intro x hx
    refine ih x ?_
    obtain hx | hx := List.mem_append.mp hx
    · exact List.mem_append_left _ hx
    · exact List.mem_append_right _ (List.mem_cons_of_mem _ hx)

/-! ### What each of the two asks -/

section Agreement

variable {store : AuthStore} {p : RelayPrincipal} {row : OwnedJob}

/-- The keys a job may run with. -/
def jobKeys (row : OwnedJob) : List String :=
  if awaitingAssignment row.toJob then row.eligibleAccounts.map (·.1) else [row.kaggleKeyId]

/-- If the row is the user's and one of its keys is allowed, then one of those
is enabled. -/
def HasEnabledKey (store : AuthStore) (p : RelayPrincipal) (row : OwnedJob) : Prop :=
  ∀ allowed, p.allowedKaggleKeyIds = some allowed → row.relayTokenId = p.id →
    (∃ key ∈ jobKeys row, key ∈ allowed) → ∃ key ∈ jobKeys row, key ∈ allowed ∧ store.usable false key = true

theorem solid_jobKeys (hfiled : Filed row) : ∀ key ∈ jobKeys row, Text.strip key = key := by
  intro key hkey
  rw [jobKeys] at hkey
  split at hkey
  · obtain ⟨account, haccount, rfl⟩ := List.mem_map.mp hkey
    exact (hfiled.eligible account haccount).2
  · rw [List.mem_singleton.mp hkey]
    exact hfiled.key

/-- An unrestricted user is shown every row. -/
theorem listed_of_allowAll (h : p.allowedKaggleKeyIds = none) : listed store p row = true := by
  have hall : p.allowAllKeys = true := by rw [RelayPrincipal.allowAllKeys, h, Option.isNone_none]
  rw [listed, keyFilter, ownerFilter, hall, if_pos rfl, Bool.or_true, if_pos rfl]
  rfl

/-- A restricted user is shown the own rows with a key that is allowed and
enabled. -/
theorem listed_of_some (hlegacy : store.legacy = false) (hfiled : Filed row) {allowed : List String}
    (h : p.allowedKaggleKeyIds = some allowed) : listed store p row = true ↔
      row.relayTokenId = p.id ∧ ∃ key ∈ jobKeys row, key ∈ allowed ∧ store.usable false key = true := by
  have hrestricted : p.allowAllKeys = false := by rw [RelayPrincipal.allowAllKeys, h, Option.isNone_some]
  have hmem : ∀ key, key ∈ store.allowedKeyIds p false ↔ key ∈ allowed ∧ store.usable false key = true := by
    intro key
    rw [AuthStore.mem_allowedKeyIds hlegacy, h, Option.getD_some]
  have hkeys : (∃ key ∈ jobKeys row, key ∈ store.allowedKeyIds p false) ↔
      row.kaggleKeyId ∈ store.allowedKeyIds p false ∨ (awaitingAssignment row.toJob = true ∧
        ∃ account ∈ row.eligibleAccounts, account.1 ∈ store.allowedKeyIds p false) := by
    by_cases hawaits : awaitingAssignment row.toJob = true
    · rw [jobKeys, if_pos hawaits]
      constructor
      · rintro ⟨key, hkey, hallowed⟩
        obtain ⟨account, haccount, rfl⟩ := List.mem_map.mp hkey
        exact .inr ⟨hawaits, account, haccount, hallowed⟩
      · rintro (hkey | ⟨-, account, haccount, hallowed⟩)
        · exact ⟨_, hfiled.pending hawaits, hkey⟩
        · exact ⟨_, List.mem_map_of_mem haccount, hallowed⟩
    · rw [jobKeys, if_neg hawaits]
      constructor
      · rintro ⟨key, hkey, hallowed⟩
        exact .inl (List.mem_singleton.mp hkey ▸ hallowed)
      · rintro (hkey | ⟨h, -⟩)
        · exact ⟨_, List.mem_singleton_self _, hkey⟩
        · exact absurd h hawaits
  have hlisted : listed store p row = true ↔
      (row.kaggleKeyId ∈ store.allowedKeyIds p false ∨ (awaitingAssignment row.toJob = true ∧
        ∃ account ∈ row.eligibleAccounts, account.1 ∈ store.allowedKeyIds p false)) ∧
        row.relayTokenId = p.id := by
    rw [listed, keyFilter, ownerFilter, hrestricted, hlegacy]
    simp [jobVisible, awaitingAssignment]
  rw [hlisted, ← hkeys, and_comm]
  simp only [hmem]

theorem canAccessJob_of_allowAll (hlegacy : store.legacy = false) (hp : p.legacy = false) (hfiled : Filed row)
    (h : p.allowedKaggleKeyIds = none) : canAccessJob store p row = true := by
  have hall : p.allowAllKeys = true := by rw [RelayPrincipal.allowAllKeys, h, Option.isNone_none]
  have hany : ∀ key, store.canAccessKey p key = true := by
    intro key
    rw [AuthStore.canAccessKey, RelayPrincipal.allowsKey, hp, if_neg (by decide), h]
  have hkey : (if awaitingAssignment row.toJob = true
      then row.eligibleAccounts.any fun account => store.canAccessKey p account.1
      else store.canAccessKey p row.kaggleKeyId) = true := by
    split
    · next hawaits =>
      obtain ⟨account, haccount, -⟩ := List.mem_map.mp (hfiled.pending hawaits)
      exact List.any_eq_true.mpr ⟨account, haccount, hany _⟩
    · exact hany _
  rw [canAccessJob, hkey, hlegacy, hall]
  simp

/-- A restricted user may open the own rows with a key that is allowed. -/
theorem canAccessJob_of_some (hlegacy : store.legacy = false) (hp : p.legacy = false) (hid : p.id ≠ "")
    (hfiled : Filed row) {allowed : List String} (h : p.allowedKaggleKeyIds = some allowed) :
    canAccessJob store p row = true ↔ row.relayTokenId = p.id ∧ ∃ key ∈ jobKeys row, key ∈ allowed := by
  have hrestricted : p.allowAllKeys = false := by rw [RelayPrincipal.allowAllKeys, h, Option.isNone_some]
  have hmay : ∀ key, Text.strip key = key → (store.canAccessKey p key = true ↔ key ∈ allowed) := by
    intro key hkey
    rw [AuthStore.canAccessKey, RelayPrincipal.allowsKey, hp, if_neg (by decide), h, hkey]
    exact List.contains_iff_mem
  have hkeys : (if awaitingAssignment row.toJob = true
      then row.eligibleAccounts.any fun account => store.canAccessKey p account.1
      else store.canAccessKey p row.kaggleKeyId) = true ↔ ∃ key ∈ jobKeys row, key ∈ allowed := by
    have hsolid := solid_jobKeys hfiled
    rw [jobKeys] at hsolid ⊢
    by_cases hawaits : awaitingAssignment row.toJob = true
    · rw [if_pos hawaits] at hsolid ⊢
      rw [if_pos hawaits, List.any_eq_true]
      constructor
      · rintro ⟨account, haccount, hallowed⟩
        have hmem := List.mem_map_of_mem (f := (·.1)) haccount
        exact ⟨account.1, hmem, (hmay _ (hsolid _ hmem)).mp hallowed⟩
      · rintro ⟨key, hkey, hallowed⟩
        obtain ⟨account, haccount, rfl⟩ := List.mem_map.mp hkey
        exact ⟨account, haccount, (hmay _ (hsolid _ hkey)).mpr hallowed⟩
    · rw [if_neg hawaits] at hsolid ⊢
      rw [if_neg hawaits, hmay _ (hsolid _ (List.mem_singleton_self _))]
      exact ⟨fun hallowed => ⟨_, List.mem_singleton_self _, hallowed⟩,
        fun ⟨key, hkey, hallowed⟩ => List.mem_singleton.mp hkey ▸ hallowed⟩
  have howner : (if Text.strip row.relayTokenId ≠ "" then false || Text.strip row.relayTokenId == p.id
      else false) = true ↔ row.relayTokenId = p.id := by
    rw [hfiled.owner]
    by_cases hnone : row.relayTokenId = ""
    · rw [if_neg (by simpa using hnone), hnone]
      exact ⟨fun h => absurd h (by decide), fun h => absurd h.symm hid⟩
    · rw [if_pos hnone, Bool.false_or, beq_iff_eq]
  rw [canAccessJob, Bool.and_eq_true, hkeys, hlegacy, if_neg (by decide), hrestricted, howner, and_comm]

/-- Whatever is listed may be opened. -/
theorem access_of_visible (hs : store.Sound) (hp : p ∈ store.tokens.map (·.2)) (hfiled : Filed row)
    (h : listed store p row = true) : canAccessJob store p row = true := by
  obtain ⟨t, ht, rfl⟩ := List.mem_map.mp hp
  obtain ⟨hlegacy, hid⟩ := hs.principals t ht
  cases hallowed : t.2.allowedKaggleKeyIds with
  | none => exact canAccessJob_of_allowAll hs.legacy hlegacy hfiled hallowed
  | some allowed =>
    obtain ⟨howner, key, hkey, hmem, -⟩ := (listed_of_some hs.legacy hfiled hallowed).mp h
    exact (canAccessJob_of_some hs.legacy hlegacy hid.1 hfiled hallowed).mpr ⟨howner, key, hkey, hmem⟩

/-- The two agree on a row unless all of its keys that are allowed are disabled. -/
theorem agree_iff (hs : store.Sound) (hp : p ∈ store.tokens.map (·.2)) (hfiled : Filed row) :
    (listed store p row = true ↔ canAccessJob store p row = true) ↔ HasEnabledKey store p row := by
  obtain ⟨t, ht, rfl⟩ := List.mem_map.mp hp
  obtain ⟨hlegacy, hid⟩ := hs.principals t ht
  cases hallowed : t.2.allowedKaggleKeyIds with
  | none =>
    rw [listed_of_allowAll hallowed, canAccessJob_of_allowAll hs.legacy hlegacy hfiled hallowed]
    refine ⟨fun _ allowed h => ?_, fun _ => Iff.rfl⟩
    rw [hallowed] at h
    cases h
  | some allowed =>
    rw [listed_of_some hs.legacy hfiled hallowed, canAccessJob_of_some hs.legacy hlegacy hid.1 hfiled hallowed]
    constructor
    · intro h allowed' heq howner hkey
      obtain rfl : allowed = allowed' := Option.some.inj (hallowed.symm.trans heq)
      exact (h.mpr ⟨howner, hkey⟩).2
    · intro h
      constructor
      · rintro ⟨howner, key, hkey, hmem, -⟩
        exact ⟨howner, key, hkey, hmem⟩
      · rintro ⟨howner, hkey⟩
        exact ⟨howner, h allowed hallowed howner hkey⟩

/-- The total is the number of the rows that are listed. -/
theorem total_jobSummary (rows : List OwnedJob) :
    (jobSummary store p rows).total = (rows.filter (listed store p)).length := by
  show ((jobStatusCounts _ _ rows).map (·.2)).sum = _
  rw [jobStatusCounts, List.map_map]
  exact (List.sum_map_count_dedup_eq_length _).trans (List.length_map _)

/-- Fewer rows are listed than may be opened, unless the two agree on all. -/
theorem length_filter_eq_iff {α : Type} {f g : α → Bool} {l : List α} (hfg : ∀ x ∈ l, f x = true → g x = true) :
    (l.filter f).length = (l.filter g).length ↔ ∀ x ∈ l, f x = true ↔ g x = true := by
  rw [← List.countP_eq_length_filter, ← List.countP_eq_length_filter]
  induction l with
  | nil => simp
  | cons x l ih =>
    have hrest := ih fun y hy => hfg y (List.mem_cons_of_mem _ hy)
    have hle : l.countP f ≤ l.countP g := List.countP_mono_left fun y hy => hfg y (List.mem_cons_of_mem _ hy)
    rw [List.countP_cons, List.countP_cons, List.forall_mem_cons, ← hrest]
    have hx := hfg x List.mem_cons_self
    cases hf : f x <;> cases hg : g x
    · simp
    · simp only [Bool.false_eq_true, if_false, if_true]
      constructor
      · intro h
        omega
      · rintro ⟨h, -⟩
        simp at h
    · rw [hf, hg] at hx
      exact absurd (hx rfl) (by decide)
    · simp

/-- **Lists and access**: on every row of a relay, and for every user of any
store that a config is read into, the row is listed exactly when it may be
opened, unless it is the user's own and all of its keys that are allowed are
disabled; and the total of the summary is the number of rows that may be opened
exactly when there is no such row. -/
theorem visibility_agrees_iff {rows : List OwnedJob} (hrows : Rows rows) {store : AuthStore}
    (hs : store.Sound) {p : RelayPrincipal} (hp : p ∈ store.tokens.map (·.2)) :
    (∀ row ∈ rows, (listed store p row = true ↔ canAccessJob store p row = true) ↔ HasEnabledKey store p row) ∧
      ((jobSummary store p rows).total = (rows.filter (canAccessJob store p)).length ↔
        ∀ row ∈ rows, HasEnabledKey store p row) := by
  have hfiled := filed_of_rows hrows
  refine ⟨fun row hrow => agree_iff hs hp (hfiled row hrow), ?_⟩
  rw [total_jobSummary, length_filter_eq_iff fun row hrow => access_of_visible hs hp (hfiled row hrow)]
  exact forall₂_congr fun row hrow => agree_iff hs hp (hfiled row hrow)

end Agreement

/-! ### A key that is disabled -/

/-- A store with one key and one user of it. -/
def trialStore (enabled : Bool) : AuthStore where
  legacy := false
  kaggleKeys := [⟨"key0", "alice", "secret", "", "", enabled, ""⟩]
  tokens := [("token", ⟨"user0", some ["key0"], false, false, false⟩)]

theorem sound_trialStore (enabled : Bool) : (trialStore enabled).Sound where
  legacy := rfl
  keys := by
    intro k hk
    rw [List.mem_singleton.mp hk]
    exact ⟨show "key0" ≠ "" by decide, show Text.strip "key0" = "key0" by decide⟩
  keys_nodup := List.nodup_singleton _
  principals := by
    intro t ht
    rw [List.mem_singleton.mp ht]
    exact ⟨rfl, by decide, by decide⟩
  principals_nodup := List.nodup_singleton _
  allowed := by
    intro t ht allowed hallowed key hkey
    rw [List.mem_singleton.mp ht] at hallowed
    obtain rfl := Option.some.inj hallowed
    exact hkey

def trialUser : RelayPrincipal := ⟨"user0", some ["key0"], false, false, false⟩

def trialRequest : CreateJobRequest where
  kaggleKeyId := "key0"
  schedulingMode := .fixed
  datasetRef := "alice/data"
  kernelRef := "alice/kernel"
  datasetArchiveSha256 := ""
  kernelArchiveSha256 := ""
  datasetSize := 1
  kernelSize := 1
  chunkSize := 1
  chunkSize_pos := Nat.one_pos
  payloadHash := ""
  artifactContract := "yolo"

def trialLibrary : Library := ⟨fun _ => "sha256", fun text => text, fun text => text⟩

/-- The row of a job that the user has created while the key was enabled. -/
theorem exists_trialRow : ∃ row, Rows [row] ∧ row.relayTokenId = "user0" ∧ jobKeys row = ["key0"] := by
  have hcandidates : createCandidates trialLibrary (trialStore true) trialUser (fun _ => .remaining 1) trialRequest =
      .ok ([], [(0, "key0")]) := by decide +kernel
  have hrow : ∃ row, createRow trialLibrary (trialStore true) [] (.ok ()) 0 trialRequest trialUser []
      [(0, "key0")] = .ok row ∧ row.relayTokenId = "user0" ∧ jobKeys row = ["key0"] := ⟨_, rfl, rfl, rfl⟩
  obtain ⟨row, hcreated, howner, hkeys⟩ := hrow
  exact ⟨row, .create .empty (sound_trialStore true) (List.mem_singleton_self _) hcandidates hcreated, howner, hkeys⟩

/-- With the key enabled the job is listed. -/
theorem visibility_agrees_trial :
    ∃ rows row, Rows rows ∧ row ∈ rows ∧ listed (trialStore true) trialUser row = true ∧
      canAccessJob (trialStore true) trialUser row = true := by
  obtain ⟨row, hrows, howner, hkeys⟩ := exists_trialRow
  have hp : trialUser ∈ (trialStore true).tokens.map (·.2) := List.mem_singleton_self _
  have hagree := (visibility_agrees_iff hrows (sound_trialStore true) hp).1 row (List.mem_singleton_self _)
  have henabled : HasEnabledKey (trialStore true) trialUser row := by
    intro allowed hallowed _ _
    obtain rfl := Option.some.inj hallowed
    exact ⟨"key0", by rw [hkeys]; exact List.mem_singleton_self _, List.mem_singleton_self _, rfl⟩
  have haccess : canAccessJob (trialStore true) trialUser row = true := by
    refine (canAccessJob_of_some rfl rfl (by decide) (filed_of_rows hrows row (List.mem_singleton_self _)) rfl).mpr ?_
    exact ⟨howner, "key0", by rw [hkeys]; exact List.mem_singleton_self _, List.mem_singleton_self _⟩
  exact ⟨[row], row, hrows, List.mem_singleton_self _, (hagree.mpr henabled).mpr haccess, haccess⟩

/-- With the key disabled the user may open the job, but does not see it: the
summary counts no job at all. -/
theorem disabled_key_hides_job :
    ∃ rows row, Rows rows ∧ row ∈ rows ∧ (trialStore false).Sound ∧
      trialUser ∈ (trialStore false).tokens.map (·.2) ∧
      canAccessJob (trialStore false) trialUser row = true ∧ listed (trialStore false) trialUser row = false ∧
      (jobSummary (trialStore false) trialUser rows).total = 0 := by
  obtain ⟨row, hrows, howner, hkeys⟩ := exists_trialRow
  have hfiled := filed_of_rows hrows row (List.mem_singleton_self _)
  have haccess : canAccessJob (trialStore false) trialUser row = true := by
    refine (canAccessJob_of_some rfl rfl (by decide) hfiled rfl).mpr ?_
    exact ⟨howner, "key0", by rw [hkeys]; exact List.mem_singleton_self _, List.mem_singleton_self _⟩
  have hhidden : listed (trialStore false) trialUser row = false := by
    rw [Bool.eq_false_iff]
    intro hlisted
    obtain ⟨-, key, hkey, -, husable⟩ := (listed_of_some rfl hfiled rfl).mp hlisted
    rw [hkeys, List.mem_singleton] at hkey
    rw [hkey] at husable
    exact absurd husable (by decide)
  refine ⟨[row], row, hrows, List.mem_singleton_self _, sound_trialStore false, List.mem_singleton_self _, haccess,
    hhidden, ?_⟩
  rw [total_jobSummary, List.filter_cons_of_neg (by rw [hhidden]; decide)]
  rfl

end KaggleRelay

/-
`create_job`: the account a new job is given, and its row.

* `createCandidates` — the Kaggle keys the job may run with, found before the
  admission lock is taken;
* `createRow` — under the lock: the key with the least load, and the row;
* `OwnedJob` — a row with the accounts it is eligible for;
* `Filed` — what holds of a row from its creation on;
* `filed_createRow` — the creation establishes it.
-/
import KaggleRelay.Archive
import KaggleRelay.AuthStore
import KaggleRelay.Machine

namespace KaggleRelay

open JsonText

/-- The fields of a creation request that decide on the row. -/
structure CreateJobRequest where
  kaggleKeyId : String
  schedulingMode : SchedulingMode
  datasetRef : String
  kernelRef : String
  datasetArchiveSha256 : String
  kernelArchiveSha256 : String
  datasetSize : ℕ
  kernelSize : ℕ
  chunkSize : ℕ
  chunkSize_pos : 0 < chunkSize
  payloadHash : String
  artifactContract : String

/-- A row with `eligible_accounts`: user names by key. -/
structure OwnedJob extends Job where
  eligibleAccounts : List (String × String)

/-- What `verified_quota` and `quota_remaining_hours` make of a key. -/
inductive KeyQuota where
  | remaining (hours : ℚ)
  | unavailable (reason : String)

/-- The limits on uploads. -/
structure UploadLimits where
  maxArchiveBytes : ℕ
  chunkSize : ℕ

section Candidates

variable (lib : Library) (store : AuthStore) (p : RelayPrincipal)

/-- `auth_store.resolve_kaggle_key_id`, with the response its exception gets. -/
def resolveKaggleKeyId (requested : String) : Except Exc String := do
  let requestedKeyId := Text.strip requested
  if store.legacy then
    if requestedKeyId = "" then .ok ""
    else .error (.http 400 "kaggle_key_id is not available in legacy mode")
  else if requestedKeyId = "" then
    match store.allowedKeyIds p false with
    | [] => .error (.http 409 "no enabled kaggle key is available for this token")
    | [key] => .ok key
    | _ => .error (.http 400 "kaggle_key_id is required for this token")
  else
    match store.credentials? requestedKeyId with
    | none => .error (.http 400 "unknown kaggle_key_id")
    | some k =>
      if p.allowsKey requestedKeyId = false then .error (.http 403 "kaggle_key_id is not allowed for this token")
      else if k.enabled = false then .error (.http 409 "kaggle_key_id is disabled")
      else .ok requestedKeyId

/-- The user name of a key; the empty text without one. -/
def usernameOf (key : String) : String := ((store.credentials? key).map (·.username)).getD ""

/-- `quota_key_candidates`: the keys with hours left, those without, and those
whose quota is not to be had. -/
def quotaKeyCandidates (quota : String → KeyQuota) :
    List String → List (ℚ × String) × List String × List String
  | [] => ([], [], [])
  | key :: keys =>
    let (candidates, exhausted, unavailable) := quotaKeyCandidates quota keys
    match quota key with
    | .unavailable reason => (candidates, exhausted, (key ++ ": " ++ reason) :: unavailable)
    | .remaining hours =>
      if 0 < hours then ((hours, key) :: candidates, exhausted, unavailable)
      else (candidates, key :: exhausted, unavailable)

/-- The keys of the `preferred` ones with hours left, or else those of the rest;
`nameless` have been left out. -/
def preferredCandidates (quota : String → KeyQuota) (nameless preferred rest : List String) :
    Except Exc (List (ℚ × String)) :=
  let (first, exhausted, unavailable) := quotaKeyCandidates quota preferred
  let (others, exhausted', unavailable') := quotaKeyCandidates quota rest
  if first ≠ [] then .ok first
  else if others ≠ [] then .ok others
  else if exhausted ++ exhausted' ≠ [] then
    .error (.http 409 "no allowed kaggle key has remaining GPU quota")
  else
    let reasons := nameless.map (· ++ ": username required to rewrite owner") ++ unavailable ++ unavailable'
    .error (.http 503 ("unable to read quota for allowed kaggle keys" ++
      if reasons = [] then "" else ": " ++ "; ".intercalate reasons))

/-- `select_kaggle_key_candidates`. -/
def selectKaggleKeyCandidates (quota : String → KeyQuota) (preferredOwner : String) :
    Except Exc (List (ℚ × String)) :=
  let allowed := store.allowedKeyIds p false
  let preferredOwner := Text.strip preferredOwner
  let prefers := fun key => lib.lowerText (usernameOf store key) == lib.lowerText preferredOwner
  if preferredOwner = "" then preferredCandidates quota [] [] allowed
  else preferredCandidates quota (allowed.filter fun key => !prefers key && usernameOf store key == "")
    (allowed.filter prefers) (allowed.filter fun key => !prefers key && usernameOf store key != "")

/-- `ref_owner`. -/
def refOwner (value : String) : String :=
  let ref := (Text.strip value).toList
  if ref.dropWhile (· ≠ '/') = [] then "" else Text.strip (String.ofList (ref.takeWhile (· ≠ '/')))

/-- `requested_owner_from_refs`. -/
def requestedOwnerFromRefs (datasetRef kernelRef : String) : Except Exc String :=
  let datasetOwner := refOwner datasetRef
  let kernelOwner := refOwner kernelRef
  if datasetOwner ≠ "" ∧ kernelOwner ≠ "" ∧ lib.lowerText datasetOwner ≠ lib.lowerText kernelOwner then
    .error (.http 400 ("dataset_ref owner " ++ datasetOwner ++ " does not match kernel_ref owner " ++ kernelOwner))
  else .ok (if datasetOwner ≠ "" then datasetOwner else kernelOwner)

/-- `resolve_job_kaggle_candidates`. -/
def resolveJobKaggleCandidates (quota : String → KeyQuota) (request : CreateJobRequest) :
    Except Exc (List (ℚ × String)) :=
  if Text.strip request.kaggleKeyId ≠ "" ∨ store.legacy = true ∨
      (store.allowedKeyIds p false).length ≤ 1 then do
    let key ← resolveKaggleKeyId store p request.kaggleKeyId
    pure [(0, key)]
  else do
    let owner ← requestedOwnerFromRefs lib request.datasetRef request.kernelRef
    selectKaggleKeyCandidates lib store p quota owner

/-- The accounts a dynamic job is eligible for. -/
def dynamicAccounts : List (String × String) :=
  ((store.allowedKeyIds p false).map fun key => (key, usernameOf store key)).filter (·.2 ≠ "")

/-- The job is scheduled dynamically. -/
def isDynamic (request : CreateJobRequest) : Bool :=
  request.schedulingMode == .dynamic && request.kaggleKeyId == "" && !store.legacy

/-- The eligible accounts, and the candidates for the key. -/
def createCandidates (quota : String → KeyQuota) (request : CreateJobRequest) :
    Except Exc (List (String × String) × List (ℚ × String)) :=
  if isDynamic store request then do
    let _ ← requestedOwnerFromRefs lib request.datasetRef request.kernelRef
    if dynamicAccounts store p = [] then
      .error (.http 409 "dynamic scheduling requires an allowed account with a username")
    else .ok (dynamicAccounts store p, (dynamicAccounts store p).map fun account => (0, account.1))
  else do
    let candidates ← resolveJobKaggleCandidates lib store p quota request
    pure ([], candidates)

end Candidates

/-! ### The row -/

section Row

variable (lib : Library) (store : AuthStore)

/-- `account_key`. -/
def accountKey (keyId : String) : String :=
  let username := lib.lowerText (Text.strip (usernameOf store (Text.strip keyId)))
  if username = "" then "key:" ++ keyId else "user:" ++ username

/-- The active jobs of a key's account. -/
def accountLoad (rows : List Job) (keyId : String) : ℕ :=
  (rows.filter (!·.status.terminal)).countP fun row =>
    accountKey lib store row.kaggleKeyId == accountKey lib store keyId

/-- The order `least_loaded_key` takes the minimum in. -/
def lighter (load : String → ℕ) (a b : ℚ × String) : Bool :=
  load a.2 < load b.2 || (load a.2 == load b.2 && (b.1 < a.1 || (a.1 == b.1 && a.2 < b.2)))

/-- `least_loaded_key`. -/
def leastLoadedKey (load : String → ℕ) : List (ℚ × String) → Option String
  | [] => none
  | first :: rest => some (rest.foldl (fun best c => if lighter load c best then c else best) first).2

/-- `final_job_refs`. -/
def finalJobRefs (datasetRef kernelRef username : String) : Except Exc (String × String) :=
  if Text.strip username = "" then .ok (datasetRef, kernelRef)
  else
    match rewriteRefOwner datasetRef username, rewriteRefOwner kernelRef username with
    | .ok datasetRef, .ok kernelRef => .ok (datasetRef, kernelRef)
    | .error e, _ => .error (.http 400 e.text)
    | _, .error e => .error (.http 400 e.text)

/-- The sizes that are declared are within the limits. -/
def checkSizes (limits : UploadLimits) (request : CreateJobRequest) : Except Exc Unit :=
  if limits.maxArchiveBytes < max request.datasetSize request.kernelSize ∨ limits.chunkSize < request.chunkSize then
    .error (.http 413 "archive or chunk exceeds the configured size limit")
  else
    match expectedChunkCount request.datasetSize request.chunkSize,
      expectedChunkCount request.kernelSize request.chunkSize with
    | .ok m, .ok n =>
      if 65536 < max m n then .error (.http 413 "archive has too many chunks; use a larger chunk size")
      else .ok ()
    | .error e, _ => .error e
    | _, .error e => .error e

/-- What `create_job` does under the admission lock, for the user `p` of that
moment; `admission` is the outcome of `check_admission`. -/
def createRow (rows : List Job) (admission : Except Exc Unit) (now : ℚ) (request : CreateJobRequest)
    (p : RelayPrincipal) (accounts : List (String × String)) (candidates : List (ℚ × String)) :
    Except Exc OwnedJob := do
  let key ← orError (leastLoadedKey (accountLoad lib store rows) candidates)
    (.valueError "min() iterable argument is empty")
  let refs ← finalJobRefs request.datasetRef request.kernelRef (usernameOf store key)
  admission
  let declared : Declared :=
    { datasetArchiveSha256 := request.datasetArchiveSha256
      kernelArchiveSha256 := request.kernelArchiveSha256
      datasetSize := request.datasetSize
      kernelSize := request.kernelSize
      chunkSize := request.chunkSize
      chunkSize_pos := request.chunkSize_pos
      payloadHash := request.payloadHash
      artifactContract := request.artifactContract
      relayTokenId := p.id
      schedulingMode := if isDynamic store request then .dynamic else .fixed
      createdAt := now }
  pure
    { toJob := World.createdJob declared refs.1 refs.2 key (3 * (request.datasetSize + request.kernelSize))
      eligibleAccounts := accounts }

end Row

/-! ### What holds of a new row -/

/-- What holds of a row from its creation on. -/
structure Filed (row : OwnedJob) : Prop where
  owner : Text.strip row.relayTokenId = row.relayTokenId
  key : Text.strip row.kaggleKeyId = row.kaggleKeyId
  eligible : ∀ account ∈ row.eligibleAccounts, AuthStore.Solid account.1
  pending : awaitingAssignment row.toJob = true → row.kaggleKeyId ∈ row.eligibleAccounts.map (·.1)

section Filed

variable {lib : Library} {store : AuthStore} {p : RelayPrincipal} {quota : String → KeyQuota}

theorem mem_of_credentials? {key : String} {k : KaggleCredentials} (h : store.credentials? key = some k) :
    k ∈ store.kaggleKeys ∧ k.id = key :=
  ⟨List.mem_of_find?_eq_some h, by simpa using List.find?_some h⟩

/-- A key that may be used is one of the store's. -/
theorem solid_of_usable (hs : store.Sound) {b : Bool} {key : String} (h : store.usable b key = true) :
    AuthStore.Solid key := by
  rw [AuthStore.usable] at h
  cases hk : store.credentials? key with
  | none => simp [hk] at h
  | some k =>
    obtain ⟨hmem, hid⟩ := mem_of_credentials? hk
    exact hid ▸ hs.keys k hmem

theorem solid_of_allowed (hs : store.Sound) {b : Bool} {key : String} (h : key ∈ store.allowedKeyIds p b) :
    AuthStore.Solid key :=
  solid_of_usable hs ((AuthStore.mem_allowedKeyIds hs.legacy).mp h).2

theorem mem_quotaKeyCandidates {keys : List String} {c : ℚ × String}
    (h : c ∈ (quotaKeyCandidates quota keys).1) : c.2 ∈ keys := by
  induction keys with
  | nil => exact absurd h List.not_mem_nil
  | cons key keys ih =>
    simp only [quotaKeyCandidates] at h
    split at h
    · exact List.mem_cons_of_mem _ (ih h)
    · split at h
      · obtain rfl | h := List.mem_cons.mp h
        · exact List.mem_cons_self
        · exact List.mem_cons_of_mem _ (ih h)
      · exact List.mem_cons_of_mem _ (ih h)

theorem mem_preferredCandidates {nameless preferred rest : List String} {candidates : List (ℚ × String)}
    (h : preferredCandidates quota nameless preferred rest = .ok candidates) :
    ∀ c ∈ candidates, c.2 ∈ preferred ∨ c.2 ∈ rest := by
  unfold preferredCandidates at h
  dsimp only at h
  intro c hc
  split at h
  · obtain rfl := Except.ok.inj h
    exact .inl (mem_quotaKeyCandidates hc)
  · split at h
    · obtain rfl := Except.ok.inj h
      exact .inr (mem_quotaKeyCandidates hc)
    · split at h <;> cases h

/-- The candidates that are selected are allowed. -/
theorem mem_selectKaggleKeyCandidates {owner : String} {candidates : List (ℚ × String)}
    (h : selectKaggleKeyCandidates lib store p quota owner = .ok candidates) :
    ∀ c ∈ candidates, c.2 ∈ store.allowedKeyIds p false := by
  unfold selectKaggleKeyCandidates at h
  dsimp only at h
  intro c hc
  split at h
  · obtain hnone | hmem := mem_preferredCandidates h c hc
    · exact absurd hnone List.not_mem_nil
    · exact hmem
  · obtain hmem | hmem := mem_preferredCandidates h c hc
    · exact List.mem_of_mem_filter hmem
    · exact List.mem_of_mem_filter hmem

theorem resolveKaggleKeyId_ok (hs : store.Sound) {requested key : String}
    (h : resolveKaggleKeyId store p requested = .ok key) : Text.strip key = key := by
  simp only [resolveKaggleKeyId, hs.legacy, Bool.false_eq_true, if_false] at h
  by_cases hr : Text.strip requested = ""
  · rw [if_pos hr] at h
    split at h
    · cases h
    · next first hallowed =>
      obtain rfl := Except.ok.inj h
      exact (solid_of_allowed hs (hallowed ▸ List.mem_cons_self)).2
    · cases h
  · rw [if_neg hr] at h
    split at h
    · cases h
    · split at h
      · cases h
      · split at h
        · cases h
        · obtain rfl := Except.ok.inj h
          exact Text.strip_strip requested

theorem resolveJobKaggleCandidates_ok (hs : store.Sound) {request : CreateJobRequest}
    {candidates : List (ℚ × String)}
    (h : resolveJobKaggleCandidates lib store p quota request = .ok candidates) :
    ∀ c ∈ candidates, Text.strip c.2 = c.2 := by
  unfold resolveJobKaggleCandidates at h
  intro c hc
  split at h
  · obtain ⟨key, hkey, h⟩ := ok_bind.mp h
    obtain rfl := ok_pure.mp h
    rw [List.mem_singleton.mp hc]
    exact resolveKaggleKeyId_ok hs hkey
  · obtain ⟨owner, -, h⟩ := ok_bind.mp h
    exact (solid_of_allowed hs (mem_selectKaggleKeyCandidates h c hc)).2

/-- The accounts of a dynamic job, and what is known of the candidates. -/
theorem createCandidates_ok (hs : store.Sound) {request : CreateJobRequest}
    {accounts : List (String × String)} {candidates : List (ℚ × String)}
    (h : createCandidates lib store p quota request = .ok (accounts, candidates)) :
    (∀ c ∈ candidates, Text.strip c.2 = c.2) ∧
      (isDynamic store request = true →
        accounts = dynamicAccounts store p ∧ ∀ c ∈ candidates, c.2 ∈ accounts.map (·.1)) ∧
      (isDynamic store request = false → accounts = []) := by
  unfold createCandidates at h
  split at h
  · next hdynamic =>
    obtain ⟨_, -, h⟩ := ok_bind.mp h
    split at h
    · cases h
    · obtain ⟨rfl, rfl⟩ := Prod.mk.inj (Except.ok.inj h)
      have hkey : ∀ c ∈ (dynamicAccounts store p).map (fun account => ((0 : ℚ), account.1)),
          c.2 ∈ (dynamicAccounts store p).map (·.1) := by
        intro c hc
        obtain ⟨account, haccount, rfl⟩ := List.mem_map.mp hc
        exact List.mem_map_of_mem haccount
      refine ⟨fun c hc => ?_, fun _ => ⟨rfl, hkey⟩, fun hfixed => ?_⟩
      · obtain ⟨account, haccount, heq⟩ := List.mem_map.mp (hkey c hc)
        obtain ⟨key, hallowed, rfl⟩ := List.mem_map.mp (List.mem_of_mem_filter haccount)
        rw [← heq]
        exact (solid_of_allowed hs hallowed).2
      · rw [hdynamic] at hfixed
        cases hfixed
  · next hfixed =>
    obtain ⟨candidates', hcandidates, h⟩ := ok_bind.mp h
    obtain ⟨rfl, rfl⟩ := Prod.mk.inj (ok_pure.mp h)
    exact ⟨resolveJobKaggleCandidates_ok hs hcandidates, fun hdynamic => absurd hdynamic hfixed, fun _ => rfl⟩

theorem mem_foldl_lighter {load : String → ℕ} (rest : List (ℚ × String)) (best : ℚ × String) :
    rest.foldl (fun best c => if lighter load c best then c else best) best ∈ best :: rest := by
  induction rest generalizing best with
  | nil => exact List.mem_cons_self
  | cons c rest ih =>
    rw [List.foldl_cons]
    split
    · exact List.mem_cons_of_mem _ (ih c)
    · obtain heq | hmem := List.mem_cons.mp (ih best)
      · rw [heq]
        exact List.mem_cons_self
      · exact List.mem_cons_of_mem _ (List.mem_cons_of_mem _ hmem)

/-- The key with the least load is that of a candidate. -/
theorem exists_of_leastLoadedKey {load : String → ℕ} {candidates : List (ℚ × String)} {key : String}
    (h : leastLoadedKey load candidates = some key) : ∃ c ∈ candidates, c.2 = key := by
  cases candidates with
  | nil => cases h
  | cons first rest => exact ⟨_, mem_foldl_lighter rest first, Option.some.inj h⟩

/-- **A new row is filed.** -/
theorem filed_createRow (hs : store.Sound) {p' : RelayPrincipal} (hp : p' ∈ store.tokens.map (·.2))
    {request : CreateJobRequest} {accounts : List (String × String)} {candidates : List (ℚ × String)}
    (hcandidates : createCandidates lib store p quota request = .ok (accounts, candidates))
    {rows : List Job} {admission : Except Exc Unit} {now : ℚ} {row : OwnedJob}
    (h : createRow lib store rows admission now request p' accounts candidates = .ok row) :
    Filed row ∧ row.relayTokenId = p'.id := by
  obtain ⟨key, hkey, h⟩ := ok_bind.mp h
  obtain ⟨refs, -, h⟩ := ok_bind.mp h
  obtain ⟨_, -, h⟩ := ok_bind.mp h
  obtain rfl := ok_pure.mp h
  obtain ⟨t, ht, rfl⟩ := List.mem_map.mp hp
  obtain ⟨c, hc, rfl⟩ := exists_of_leastLoadedKey (ok_orError.mp hkey)
  obtain ⟨hstripped, hdynamic, hfixed⟩ := createCandidates_ok hs hcandidates
  refine ⟨⟨(hs.principals t ht).2.2, hstripped c hc, ?_, ?_⟩, rfl⟩
  · intro account haccount
    cases hmode : isDynamic store request with
    | false =>
      rw [show accounts = [] from hfixed hmode] at haccount
      exact absurd haccount List.not_mem_nil
    | true =>
      rw [show accounts = dynamicAccounts store p from (hdynamic hmode).1] at haccount
      obtain ⟨k, hallowed, rfl⟩ := List.mem_map.mp (List.mem_of_mem_filter haccount)
      exact solid_of_allowed hs hallowed
  · intro hawaits
    have hmode : isDynamic store request = true := by
      by_contra hfalse
      simp [awaitingAssignment, World.createdJob, hfalse] at hawaits
    exact (hdynamic hmode).2 c hc

end Filed

end KaggleRelay

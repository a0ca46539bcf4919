/-
Users, their jobs, and the deletion of users.

A deployment is the running relay with its auth config and the store that is
read from it.  Jobs are created, run and end, the config is changed by requests,
and the process restarts, in any order.  (A relay without an auth config has one
user, who cannot be deleted.)

* `declared_of_step` — no step of the relay gives a job another owner;
* `Deployment.Step` — what happens to a deployment;
* `owned_step` — the owner of a job that has not ended is a user of the store;
* `gone_step` — a user who was deleted does not come back;
* `owner_deletion_safe` — both over whole runs.
-/
import KaggleRelay.AuthConfig
import KaggleRelay.Runs

namespace KaggleRelay

open JsonText World

/-! ### Who a job belongs to -/

namespace World

variable {s : Settings} {w w' : World} {ph : Phases} {x : JobId} {job' : Job}

/-- The rows of `w'` declare what they declared in `w`. -/
def Declares (w w' : World) : Prop :=
  ∀ x job', w'.jobs x = some job' → ∃ job, w.jobs x = some job ∧ job'.toDeclared = job.toDeclared

theorem declares_of_jobs (h : w'.jobs = w.jobs) : Declares w w' := by
  intro x job' hjob'
  exact ⟨job', h ▸ hjob', rfl⟩

theorem declares_of_modifyJob {id : JobId} {f : Job → Job} (hjobs : w'.jobs = (w.modifyJob id f).jobs)
    (hf : ∀ job, (f job).toDeclared = job.toDeclared) : Declares w w' := by
  intro x job' h
  rw [hjobs] at h
  change Function.update w.jobs id ((w.jobs id).map f) x = some job' at h
  by_cases heq : x = id
  · rw [heq, Function.update_self] at h
    obtain ⟨job, hjob, rfl⟩ := Option.map_eq_some_iff.mp h
    exact ⟨job, heq ▸ hjob, hf job⟩
  · rw [Function.update_of_ne heq] at h
    exact ⟨job', h, rfl⟩

theorem declares_updateIfStatus {t : ℚ} {id : JobId} {expected : List Status} {nc : Bool} {ek : Option String}
    {values : JobValues} (h : w.updateIfStatus t id expected nc ek values = some w') : Declares w w' := by
  obtain ⟨job, hjob, -, -, rfl⟩ := updateIfStatus_some h
  intro x job' hx
  change Function.update w.jobs id _ x = some job' at hx
  by_cases heq : x = id
  · rw [heq, Function.update_self] at hx
    obtain rfl := Option.some.inj hx
    exact ⟨job, heq ▸ hjob, rfl⟩
  · rw [Function.update_of_ne heq] at hx
    exact ⟨job', hx, rfl⟩

theorem finalizeJob_toDeclared (t : ℚ) (preferred : Status) (values : JobValues) (job : Job) :
    (finalizeJob t preferred values job).toDeclared = job.toDeclared := by
  unfold finalizeJob
  split <;> rfl

/-- No operation changes what a job declared. -/
theorem declares_perform {c : Choice} {o : RelayOp} {r : o.Res} (h : perform s c o w = (r, w')) :
    Declares w w' := by
  by_cases hquiet : o.touches = false
  · obtain ⟨_, _, _, _, heq⟩ := perform_quiet (s := s) (c := c) (w := w) hquiet
    rw [h] at heq
    replace heq : w' = _ := heq
    rw [heq]
    exact declares_of_jobs rfl
  cases o with
  | updateJobIfStatus i expected nc ek values =>
    obtain ⟨-, hw⟩ | ⟨-, rfl⟩ := perform_updateIfStatus h
    · exact declares_updateIfStatus hw
    · exact declares_of_jobs rfl
  | updateJobIfStatusAndPut i expected nc values put action =>
    obtain ⟨-, w₁, hw, rfl⟩ | ⟨-, rfl⟩ := perform_updateIfStatusAndPut h
    · intro x job' hx
      exact declares_updateIfStatus hw x job' hx
    · exact declares_of_jobs rfl
  | resumeIfInactive i values action =>
    simp only [perform] at h
    split at h
    · cases h
      exact declares_of_jobs rfl
    · cases h
      exact declares_of_modifyJob (f := updateJob (c.answers .now) values) rfl fun _ => rfl
  | updateJob i values =>
    cases h
    exact declares_of_modifyJob (f := updateJob (c.answers .now) values) rfl fun _ => rfl
  | finalizeJob i preferred values =>
    cases h
    exact declares_of_modifyJob rfl (finalizeJob_toDeclared (c.answers .now) preferred values)
  | consume i size =>
    cases h
    exact declares_of_modifyJob (f := fun job => { job with reservedBytes := job.reservedBytes - size }) rfl
      fun _ => rfl
  | deleteJobRecord i =>
    cases h
    intro x job' hx
    change Function.update w.jobs i none x = some job' at hx
    have hne : x ≠ i := by
      rintro rfl
      rw [Function.update_self] at hx
      cases hx
    rw [Function.update_of_ne hne] at hx
    exact ⟨job', hx, rfl⟩
  | pushKernel | getJob | isActive =>
    cases h
    exact declares_of_jobs rfl
  | call call =>
    cases call with
    | pollKernel | kernelStatus =>
      cases h
      exact declares_of_jobs rfl
    | _ => exact absurd rfl hquiet
  | _ => exact absurd rfl hquiet

/-- **A step that creates no job** gives none another owner. -/
theorem declares_step {a : Action} (ha : a.creates = false) (hs : step s a w = some w') : Declares w w' := by
  obtain ⟨o, c, r, w₁, -, hperform, hjobs, -⟩ | ⟨-, -, hsame⟩ := step_cases hs
  · intro x job' hjob'
    exact declares_perform hperform x job' (hjobs ▸ hjob')
  · obtain hjobs | ⟨id, hjobs⟩ := hsame ha
    · exact declares_of_jobs hjobs
    · exact declares_of_modifyJob hjobs fun _ => rfl

theorem jobs_of_create {id : JobId} {d : Declared} {datasetRef kernelRef keyId : String} {reserved : ℕ}
    (hs : step s (.create id d datasetRef kernelRef keyId reserved) w = some w') :
    w'.jobs = Function.update w.jobs id (some (createdJob d datasetRef kernelRef keyId reserved)) := by
  unfold step at hs
  split at hs
  · simp only [serving] at hs
    split at hs
    · cases hs
    · cases hs
      rfl
  · cases hs

/-- A row's job is one that was created. -/
theorem mem_ids_of_jobs (h : Inv w ph) {id : JobId} {job : Job} (hjob : w.jobs id = some job) : id ∈ w.ids := by
  by_contra hne
  have hunknown : (w.view ph id).known = false := by simpa [view] using hne
  obtain ⟨-, hnone, -⟩ := (h.coupled id).unknown hunknown
  rw [view_row hjob] at hnone
  cases hnone

end World

/-! ### Deployments -/

/-- A request to create a job that waits for the admission lock. -/
structure Creation where
  request : CreateJobRequest
  credential : Credential
  /-- Which store `get_auth_store` gave it. -/
  version : ℕ
  accounts : List (String × String)
  candidates : List (ℚ × String)

structure Deployment where
  world : World
  /-- The parsed auth config. -/
  file : Json
  /-- `app.state.auth_store`, and how many there were before it. -/
  store : AuthStore
  version : ℕ
  creating : List Creation

namespace Deployment

/-- The rows of the database. -/
def rows (D : Deployment) : List Job := D.world.ids.filterMap D.world.jobs

/-- What an operation on the config leaves. -/
def configured (D : Deployment) (file : Json) (store : AuthStore) : Deployment :=
  { D with file, store, version := D.version + 1 }

/-- What happens to a deployment. -/
inductive Step (s : Settings) (env : SessionEnv) : Deployment → Deployment → Prop
  /-- A step of the relay that creates no job. -/
  | relay {D : Deployment} {w' : World} (a : World.Action) (hcreates : a.creates = false) (hcrash : a ≠ .crash)
      (hs : World.step s a D.world = some w') : Step s env D { D with world := w' }
  /-- The process restarts, and reads the config. -/
  | restart {D : Deployment} {store' : AuthStore} (hreads : Reads env D.file store') :
      Step s env D ⟨D.world.crash, D.file, store', D.version + 1, []⟩
  /-- `create_job` finds the candidates. The user `p` is looked up again later. -/
  | arrive {D : Deployment} {accounts : List (String × String)} {candidates : List (ℚ × String)}
      (p : RelayPrincipal) (quota : String → KeyQuota) (request : CreateJobRequest) (credential : Credential)
      (hserving : D.world.recovery = none)
      (hcandidates : createCandidates s.lib D.store p quota request = .ok (accounts, candidates)) :
      Step s env D { D with
        creating := ⟨request, credential, D.version, accounts, candidates⟩ :: D.creating }
  /-- `create_job` under the admission lock, in the store it began with. -/
  | create {D : Deployment} {w' : World} {p : RelayPrincipal} {row : OwnedJob} {admission : Except Exc Unit}
      (id : JobId) (now : ℤ) (t : ℚ) (before after : List Creation) (c : Creation)
      (hcreating : D.creating = before ++ c :: after)
      (hp : requestPrincipal env D.store now c.credential = .ok (some p)) (hversion : c.version = D.version)
      (hrow : createRow s.lib D.store D.rows admission t c.request p c.accounts c.candidates = .ok row)
      (hs : World.step s (.create id row.toDeclared row.datasetRef row.kernelRef row.kaggleKeyId row.reservedBytes)
        D.world = some w') :
      Step s env D { D with world := w', creating := before ++ after }
  /-- `create_job` raises. -/
  | refuse {D : Deployment} (before after : List Creation) (c : Creation)
      (hcreating : D.creating = before ++ c :: after) : Step s env D { D with creating := before ++ after }
  /-- An operation on the config, which holds the admission lock. -/
  | config {D : Deployment} {p : RelayPrincipal} {file' : Json} {store' : AuthStore} (op : ConfigOp) (now : ℤ)
      (credential : Credential) (hserving : D.world.recovery = none)
      (hp : requestPrincipal env D.store now credential = .ok (some p))
      (hrun : op.run env D.rows D.store p D.file = .ok (file', store')) : Step s env D (D.configured file' store')

/-- Nothing has been created yet. -/
structure Initial (env : SessionEnv) (D : Deployment) : Prop where
  world : D.world = World.empty
  reads : Reads env D.file D.store
  creating : D.creating = []

/-! ### The invariants -/

/-- The store is the one of the config, and the owner of a job that has not
ended is a user of the store. -/
structure Owned (env : SessionEnv) (D : Deployment) : Prop where
  reads : Reads env D.file D.store
  world : ∃ ph, World.Inv D.world ph
  owners : ∀ id job, D.world.jobs id = some job → job.status.terminal = false →
    job.relayTokenId ∈ D.store.principalIds

/-- The id is retired, and the store does not make a user of it anyway. -/
def Gone (id : String) (D : Deployment) : Prop :=
  id ∈ retiredIds D.file ∧ id ∉ D.store.principalIds

variable {s : Settings} {env : SessionEnv} {D D' : Deployment}

theorem owned_initial (h : Initial env D) : Owned env D := by
  refine ⟨h.reads, ⟨_, h.world ▸ World.inv_empty⟩, ?_⟩
  intro id job hjob
  rw [h.world] at hjob
  cases hjob

/-- Whoever has no job that has not ended. -/
theorem not_owner_of_activeCount (hw : ∃ ph, World.Inv D.world ph) {tokenId : String}
    (h : activeCount D.rows tokenId = 0) {id : JobId} {job : Job} (hjob : D.world.jobs id = some job)
    (hactive : job.status.terminal = false) : job.relayTokenId ≠ tokenId := by
  obtain ⟨ph, hinv⟩ := hw
  have hmem : job ∈ D.rows := List.mem_filterMap.mpr ⟨id, World.mem_ids_of_jobs hinv hjob, hjob⟩
  have hcount := List.countP_eq_zero.mp h job hmem
  rintro rfl
  simp [hactive] at hcount

theorem createRow_relayTokenId {lib : Library} {store : AuthStore} {rows : List Job} {admission : Except Exc Unit}
    {t : ℚ} {request : CreateJobRequest} {p : RelayPrincipal} {accounts : List (String × String)}
    {candidates : List (ℚ × String)} {row : OwnedJob}
    (h : createRow lib store rows admission t request p accounts candidates = .ok row) :
    row.relayTokenId = p.id := by
  obtain ⟨key, -, h⟩ := ok_bind.mp h
  obtain ⟨refs, -, h⟩ := ok_bind.mp h
  obtain ⟨_, -, h⟩ := ok_bind.mp h
  obtain rfl := ok_pure.mp h
  rfl

/-- The jobs of a relay after a step that keeps owners. -/
theorem owners_of_declares (h : Owned env D) {ph : Phases} (hinv : World.Inv D.world ph) {a : World.Action}
    {w' : World} (hs : World.step s a D.world = some w') (hdeclares : World.Declares D.world w') :
    ∀ id job, w'.jobs id = some job → job.status.terminal = false → job.relayTokenId ∈ D.store.principalIds := by
  intro id job' hjob' hactive
  obtain ⟨job, hjob, hsame⟩ := hdeclares id job' hjob'
  have hbefore : job.status.terminal = false := by
    by_contra hterminal
    rw [World.terminal_stays hinv hs hjob (by simpa using hterminal) hjob'] at hactive
    exact hterminal hactive
  have howner : job'.relayTokenId = job.relayTokenId := congrArg Declared.relayTokenId hsame
  rw [howner]
  exact h.owners id job hjob hbefore

/-- **A step keeps the owners of jobs that have not ended.** -/
theorem owned_step (h : Owned env D) (hs : Step s env D D') : Owned env D' := by
  obtain ⟨hreads, ⟨ph, hinv⟩, howners⟩ := id h
  cases hs with
  | relay a hcreates hcrash hs =>
    obtain ⟨ph', hinv', -⟩ := World.inv_step hinv hs
    exact ⟨hreads, ⟨ph', hinv'⟩, owners_of_declares h hinv hs (World.declares_step hcreates hs)⟩
  | restart hreads' =>
    have hcrash : World.step s .crash D.world = some D.world.crash := World.step_crash
    obtain ⟨ph', hinv', -⟩ := World.inv_step hinv hcrash
    have hstore : _ = D.store := Except.ok.inj (hreads'.symm.trans hreads)
    refine ⟨hreads', ⟨ph', hinv'⟩, ?_⟩
    rw [hstore]
    exact owners_of_declares h hinv hcrash (World.declares_of_jobs rfl)
  | arrive p quota request credential hserving hcandidates => exact ⟨hreads, ⟨ph, hinv⟩, howners⟩
  | refuse before after c hcreating => exact ⟨hreads, ⟨ph, hinv⟩, howners⟩
  | create id now t before after c hcreating hp hversion hrow hs =>
    obtain ⟨ph', hinv', -⟩ := World.inv_step hinv hs
    refine ⟨hreads, ⟨ph', hinv'⟩, ?_⟩
    intro x job hjob hactive
    rw [World.jobs_of_create hs] at hjob
    by_cases hx : x = id
    · -- the new job, whose owner has been looked up in the store of now
      rw [hx, Function.update_self] at hjob
      obtain rfl := Option.some.inj hjob
      have hmem := List.mem_map_of_mem (f := RelayPrincipal.id) (mem_of_requestPrincipal hp)
      rw [List.map_map] at hmem
      rw [← createRow_relayTokenId hrow] at hmem
      exact hmem
    · rw [Function.update_of_ne hx] at hjob
      exact howners x job hjob hactive
  | config op now credential hserving hp hrun =>
    obtain ⟨hreads', -, heffect⟩ := run_ok hreads hrun
    refine ⟨hreads', ⟨ph, hinv⟩, ?_⟩
    intro id job hjob hactive
    have howner := howners id job hjob hactive
    cases op with
    | deleteToken tokenId =>
      obtain ⟨hcount, -, -, -, hkept⟩ := heffect
      exact hkept _ howner (not_owner_of_activeCount h.world hcount hjob hactive)
    | _ => exact heffect _ howner

/-- Who is a user of a config's store is not retired, the management key apart. -/
theorem not_retired_of_principal {file : Json} {store : AuthStore} (hreads : Reads env file store) {id : String}
    (hid : id ∈ store.principalIds) (hretired : id ∈ retiredIds file) :
    env.adminToken ≠ "" ∧ id = AuthStore.managementPrincipalId := by
  obtain ⟨data, rfl⟩ := exists_of_reads hreads
  obtain ⟨-, hunused, hids⟩ := users_of_reads hreads
  rw [hids] at hid
  obtain hmanagement | hentry := List.mem_append.mp hid
  · by_cases hadmin : env.adminToken = ""
    · rw [if_pos hadmin] at hmanagement
      exact absurd hmanagement List.not_mem_nil
    · rw [if_neg hadmin] at hmanagement
      exact ⟨hadmin, List.mem_singleton.mp hmanagement⟩
  · exact absurd hretired (hunused id hentry)

theorem management_mem {file : Json} {store : AuthStore} (hreads : Reads env file store)
    (hadmin : env.adminToken ≠ "") : AuthStore.managementPrincipalId ∈ store.principalIds := by
  obtain ⟨data, rfl⟩ := exists_of_reads hreads
  obtain ⟨-, -, hids⟩ := users_of_reads hreads
  rw [hids, if_neg hadmin]
  exact List.mem_append_left _ List.mem_cons_self

/-- **A step brings no user back.** -/
theorem gone_step {tokenId : String} (howned : Owned env D) (h : Gone tokenId D) (hs : Step s env D D') :
    Gone tokenId D' := by
  obtain ⟨hretired, hgone⟩ := id h
  cases hs with
  | relay a hcreates hcrash hs => exact h
  | restart hreads' =>
    have hstore : _ = D.store := Except.ok.inj (hreads'.symm.trans howned.reads)
    refine ⟨hretired, ?_⟩
    rw [hstore]
    exact hgone
  | arrive p quota request credential hserving hcandidates => exact h
  | refuse before after c hcreating => exact h
  | create id now t before after c hcreating hp hversion hrow hs => exact h
  | config op now credential hserving hp hrun =>
    obtain ⟨hreads', hkept, -⟩ := run_ok howned.reads hrun
    refine ⟨hkept tokenId hretired, ?_⟩
    intro hmem
    obtain ⟨hadmin, rfl⟩ := not_retired_of_principal hreads' hmem (hkept tokenId hretired)
    exact hgone (management_mem howned.reads hadmin)

/-! ### Runs -/

theorem owned_of_run (h₀ : Owned env D) (h : Relation.ReflTransGen (Step s env) D D') : Owned env D' := by
  induction h with
  | refl => exact h₀
  | tail _ hs ih => exact owned_step ih hs

theorem gone_of_run {id : String} (h₀ : Owned env D) (hgone : Gone id D)
    (h : Relation.ReflTransGen (Step s env) D D') : Gone id D' := by
  induction h with
  | refl => exact hgone
  | tail hrun hs ih => exact gone_step (owned_of_run h₀ hrun) ih hs

/-- **Users are deleted safely.**  In every state of a deployment the owner of a
job that has not ended is a user of the store; and after a deletion, whatever
happens, the deleted id is not that of a user, and no token and no cookie makes
a request come from it. -/
theorem owner_deletion_safe (s : Settings) (env : SessionEnv) {D₀ D : Deployment} (h₀ : Initial env D₀)
    (h : Relation.ReflTransGen (Step s env) D₀ D) :
    (∀ id job, D.world.jobs id = some job → job.status.terminal = false →
      job.relayTokenId ∈ D.store.principalIds) ∧
    ∀ (p : RelayPrincipal) (tokenId : String) (file' : Json) (store' : AuthStore),
      (ConfigOp.deleteToken tokenId).run env D.rows D.store p D.file = .ok (file', store') →
      ∀ D', Relation.ReflTransGen (Step s env) (D.configured file' store') D' →
        tokenId ∉ D'.store.principalIds ∧
        ∀ (now : ℤ) (credential : Credential) (q : RelayPrincipal),
          requestPrincipal env D'.store now credential = .ok (some q) → q.id ≠ tokenId := by
  have howned := owned_of_run (owned_initial h₀) h
  refine ⟨howned.owners, ?_⟩
  intro p tokenId file' store' hrun D' hlater
  obtain ⟨hreads', -, hcount, -, hretired, hgone, hkept⟩ := run_ok howned.reads hrun
  have howned' : Owned env (D.configured file' store') := by
    refine ⟨hreads', howned.world, fun id job hjob hactive => ?_⟩
    exact hkept _ (howned.owners id job hjob hactive) (not_owner_of_activeCount howned.world hcount hjob hactive)
  obtain ⟨-, hnever⟩ : Gone tokenId D' := gone_of_run howned' ⟨hretired, hgone⟩ hlater
  refine ⟨hnever, fun now credential q hq => ?_⟩
  rintro rfl
  have hmem := List.mem_map_of_mem (f := RelayPrincipal.id) (mem_of_requestPrincipal hq)
  rw [List.map_map] at hmem
  exact hnever hmem

/-! ### A deletion -/

/-- Nothing is signed here, and texts are all there is in a config. -/
def trialEnv : SessionEnv where
  reader := { loads := fun _ => none, float := fun _ => none, text := fun _ => "" }
  intOf _ := none
  hmac _ payload := payload
  encode _ := ""
  decode _ := none
  utf8 _ := []
  digest _ := []
  sessionSecret := "s"
  adminToken := ""
  apiToken := ""

/-- An administrator, and two users. -/
def trialConfig : Json := .obj
  [("kaggle_keys", .arr [.obj [("id", .str "k"), ("api_token", .str "t")]]),
    ("relay_tokens", .arr
      [.obj [("id", .str "a"), ("token", .str "x"), ("allowed_kaggle_key_ids", .str "*")],
        .obj [("id", .str "u"), ("token", .str "y"), ("allowed_kaggle_key_ids", .arr [.str "k"])],
        .obj [("id", .str "v"), ("token", .str "z"), ("allowed_kaggle_key_ids", .arr [.str "k"])]])]

def trialUsers : AuthStore where
  legacy := false
  kaggleKeys := [⟨"k", "", "", "t", "", true, ""⟩]
  tokens := [("x", ⟨"a", none, false, true, false⟩), ("y", ⟨"u", some ["k"], false, false, false⟩),
    ("z", ⟨"v", some ["k"], false, false, false⟩)]

theorem reads_trialConfig : Reads trialEnv trialConfig trialUsers := by rfl

def trialAdministrator : RelayPrincipal := ⟨"a", none, false, true, false⟩

/-- Nobody has a job yet. -/
def trialDeployment : Deployment := ⟨World.empty, trialConfig, trialUsers, 0, []⟩

def trialJobRequest : CreateJobRequest where
  kaggleKeyId := "k"
  schedulingMode := .fixed
  datasetRef := "p/d"
  kernelRef := "p/k"
  datasetArchiveSha256 := ""
  kernelArchiveSha256 := ""
  datasetSize := 1
  kernelSize := 1
  chunkSize := 1
  chunkSize_pos := Nat.one_pos
  payloadHash := ""
  artifactContract := "yolo"

def trialOwner : RelayPrincipal := ⟨"u", some ["k"], false, false, false⟩

theorem initial_trialDeployment : Initial trialEnv trialDeployment := ⟨rfl, reads_trialConfig, rfl⟩

/-- The world with one row. -/
def trialWorld (row : OwnedJob) : World :=
  { World.empty with
    ids := ["j"]
    jobs := Function.update World.empty.jobs "j" (some (World.createdJob row.toDeclared row.datasetRef row.kernelRef
      row.kaggleKeyId row.reservedBytes)) }

theorem step_trialWorld (row : OwnedJob) :
    World.step World.trialSettings (.create "j" row.toDeclared row.datasetRef row.kernelRef row.kaggleKeyId
      row.reservedBytes) World.empty = some (trialWorld row) := by
  simp [World.step, World.serving, World.empty, trialWorld]

/-- One user creates a job, and the administrator deletes the other. -/
theorem owner_deletion_safe_trial :
    ∃ D D', Relation.ReflTransGen (Step World.trialSettings trialEnv) trialDeployment D ∧
      Step World.trialSettings trialEnv D D' ∧ "v" ∈ D.store.principalIds ∧
      (∃ job, D.world.jobs "j" = some job ∧ job.status.terminal = false ∧
        job.relayTokenId ∈ D.store.principalIds) ∧
      "v" ∉ D'.store.principalIds ∧
      ∀ (now : ℤ) (credential : Credential) (q : RelayPrincipal),
        requestPrincipal trialEnv D'.store now credential = .ok (some q) → q.id ≠ "v" := by
  have hcandidates : createCandidates World.trialSettings.lib trialUsers trialOwner (fun _ => .remaining 1)
      trialJobRequest = .ok ([], [(0, "k")]) := rfl
  have hp : requestPrincipal trialEnv trialUsers 0 ⟨"Bearer y", ""⟩ = .ok (some trialOwner) := rfl
  have hrow : ∃ row, createRow World.trialSettings.lib trialUsers [] (.ok ()) 0 trialJobRequest trialOwner []
      [(0, "k")] = .ok row ∧ row.relayTokenId = "u" := ⟨_, rfl, rfl⟩
  obtain ⟨row, hrow, howner⟩ := hrow
  let D₁ : Deployment :=
    ⟨World.empty, trialConfig, trialUsers, 0, [⟨trialJobRequest, ⟨"Bearer y", ""⟩, 0, [], [(0, "k")]⟩]⟩
  let D₂ : Deployment := ⟨trialWorld row, trialConfig, trialUsers, 0, []⟩
  have harrive : Step World.trialSettings trialEnv trialDeployment D₁ :=
    .arrive trialOwner _ trialJobRequest ⟨"Bearer y", ""⟩ rfl hcandidates
  have hcreate : Step World.trialSettings trialEnv D₁ D₂ :=
    .create "j" 0 0 [] [] ⟨trialJobRequest, ⟨"Bearer y", ""⟩, 0, [], [(0, "k")]⟩ rfl hp rfl hrow
      (step_trialWorld row)
  have hrun := (Relation.ReflTransGen.single harrive).tail hcreate
  obtain ⟨howners, hdeleted⟩ := owner_deletion_safe World.trialSettings trialEnv initial_trialDeployment hrun
  have hactive : activeCount D₂.rows "v" = 0 := by
    simp [D₂, rows, trialWorld, activeCount, World.createdJob, howner]
  have hdelete : ∃ file' store', deleteRelayToken trialEnv D₂.rows trialUsers trialAdministrator "v" trialConfig =
      .ok (file', store') := by
    unfold deleteRelayToken
    rw [hactive]
    exact ⟨_, _, rfl⟩
  obtain ⟨file', store', hdelete⟩ := hdelete
  obtain ⟨hgone, hnever⟩ := hdeleted trialAdministrator "v" file' store' hdelete _ .refl
  have hlast : Step World.trialSettings trialEnv D₂ (D₂.configured file' store') :=
    .config (.deleteToken "v") 0 ⟨"Bearer x", ""⟩ rfl rfl hdelete
  refine ⟨D₂, _, hrun, hlast, ?_, ⟨_, rfl, rfl, ?_⟩, hgone, hnever⟩
  · exact List.mem_cons_of_mem _ (List.mem_cons_of_mem _ List.mem_cons_self)
  · exact howners "j" _ rfl rfl

end Deployment

end KaggleRelay

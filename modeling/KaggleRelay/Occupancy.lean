/-
The account that a dynamic job is bound to, and how many jobs an account has.

* `chooseAccount` — the decision of `schedule_pending_jobs`, on the rows, the
  auth store and the quotas it has looked up;
* `chooseAccount_account` — what an account that is chosen fulfils;
* `World.Dispatches` — steps in a deployment of dynamic jobs, where the
  scheduler decides and writes in one turn of the event loop;
* `occupancy_bounded` — whatever else runs, no account ever has more jobs than
  `account_concurrency`, and every bound job has an account it is eligible for.
-/
import KaggleRelay.Announcement
import KaggleRelay.OwnerDeletion
import KaggleRelay.Footprint

namespace KaggleRelay

open Effects Lifecycle

/-! ### The decision -/

/-- What `scheduling_status` says of an account. -/
structure AccountQuota where
  identityVerified : Bool
  identityError : String
  available : Bool
  /-- `remaining_hours` of the first GPU; zero without one. -/
  gpuHours : ℚ

/-- `OCCUPIED_STATUSES`. -/
def occupiedStatuses : List Status :=
  [.queued, .uploadingDataset, .waitingDataset, .pushingKernel, .waitingKernel, .cancelRequested, .downloadingOutput]

theorem occupiedStatuses_iff {status : Status} :
    occupiedStatuses.contains status = true ↔ status.intake = false ∧ status.terminal = false := by
  cases status <;> decide

section Decision

variable (lib : Library) (store : AuthStore)

/-- The user that `current_accounts` finds for a job. -/
def ownerOf (relayTokenId : String) : Option RelayPrincipal :=
  (store.tokens.map (·.2)).find? (·.id == relayTokenId)

/-- `current_accounts`. -/
def currentAccounts (includeDisabled : Bool) (job : OwnedJob) : List (String × String) :=
  match ownerOf store job.relayTokenId with
  | none => []
  | some p => job.eligibleAccounts.filter fun account =>
      (store.allowedKeyIds p includeDisabled).contains account.1 &&
        lib.lowerText (usernameOf store account.1) == lib.lowerText account.2

/-- The job counts for the account of that name, in lower case. -/
def occupies (username : String) (job : Job) : Bool :=
  occupiedStatuses.contains job.status && !awaitingAssignment job &&
    (usernameOf store job.kaggleKeyId != "" && lib.lowerText (usernameOf store job.kaggleKeyId) == username)

/-- `occupied_accounts(…).get(username, 0)`. -/
def occupied (rows : List Job) (username : String) : ℕ := rows.countP (occupies lib store username)

variable (limit : ℕ) (quotas : String → Option AccountQuota)

/-- An account with GPU hours, as the scheduler lists it. -/
structure Offer where
  gpuHours : ℚ
  key : String
  username : String
  deriving DecidableEq

/-- The order of `min(available)`. -/
def Offer.before (a b : Offer) : Bool :=
  b.gpuHours < a.gpuHours ||
    (a.gpuHours == b.gpuHours && (a.key < b.key || (a.key == b.key && a.username < b.username)))

/-- `min(available)`. -/
def bestOffer : List Offer → Option Offer
  | [] => none
  | first :: rest => some (rest.foldl (fun best offer => if offer.before best then offer else best) first)

/-- The accounts that are not full, with their quotas. -/
def idleAccounts (rows : List Job) (allowed : List (String × String)) :
    List ((String × String) × AccountQuota) :=
  (allowed.filter fun account => occupied lib store rows (lib.lowerText account.2) < limit).filterMap
    fun account => (quotas account.1).map (account, ·)

/-- `available`. -/
def offers (idle : List ((String × String) × AccountQuota)) : List Offer :=
  idle.filterMap fun (account, quota) =>
    if quota.identityVerified && quota.available && 0 < quota.gpuHours then
      some ⟨quota.gpuHours, account.1, account.2⟩
    else none

/-- `identity_errors`. -/
def identityErrors (idle : List ((String × String) × AccountQuota)) : List String :=
  idle.filterMap fun (account, quota) =>
    if quota.identityVerified then none else some (account.1 ++ ": " ++ quota.identityError)

/-- The decision of `schedule_pending_jobs` on a job that awaits its assignment. -/
def chooseAccount (rows : List Job) (job : OwnedJob) : AccountChoice :=
  let allowed := currentAccounts lib store false job
  if allowed = [] then
    if currentAccounts lib store true job ≠ [] then .wait "waiting for an enabled authorized account"
    else .unauthorized
  else
    let idle := idleAccounts lib store limit quotas rows allowed
    match bestOffer (offers idle) with
    | some best => .account best.key best.username
    | none => .wait (if identityErrors idle ≠ [] then
        "account identity blocked: " ++ "; ".intercalate (identityErrors idle)
      else "waiting for an idle authorized account with GPU quota")

/-! ### What is chosen -/

/-- The best of some offers is one of them, and none has more hours. -/
theorem bestOffer_some {list : List Offer} {best : Offer} (h : bestOffer list = some best) :
    best ∈ list ∧ ∀ offer ∈ list, offer.gpuHours ≤ best.gpuHours := by
  rcases list with _ | ⟨first, rest⟩
  · cases h
  obtain rfl := Option.some.inj h
  clear h
  induction rest generalizing first with
  | nil => exact ⟨List.mem_singleton_self _, fun offer h => by rw [List.mem_singleton.mp h]; rfl⟩
  | cons second rest ih =>
    rw [List.foldl_cons]
    by_cases hbefore : second.before first = true
    · rw [if_pos hbefore]
      obtain ⟨hmem, hmost⟩ := ih second
      have hhours : first.gpuHours ≤ second.gpuHours := by
        simp only [Offer.before, Bool.or_eq_true, Bool.and_eq_true, decide_eq_true_eq, beq_iff_eq] at hbefore
        rcases hbefore with hlt | ⟨heq, -⟩
        · exact hlt.le
        · exact heq.ge
      refine ⟨List.mem_cons_of_mem _ hmem, fun offer hoffer => ?_⟩
      rcases List.mem_cons.mp hoffer with rfl | hoffer
      · exact hhours.trans (hmost _ List.mem_cons_self)
      · exact hmost _ hoffer
    · rw [if_neg hbefore]
      obtain ⟨hmem, hmost⟩ := ih first
      have hhours : second.gpuHours ≤ first.gpuHours := by
        simp only [Offer.before, Bool.or_eq_true, decide_eq_true_eq, not_or, not_lt] at hbefore
        exact hbefore.1
      refine ⟨?_, fun offer hoffer => ?_⟩
      · rcases List.mem_cons.mp hmem with heq | hmem
        · rw [heq]
          exact List.mem_cons_self
        · exact List.mem_cons_of_mem _ (List.mem_cons_of_mem _ hmem)
      · rcases List.mem_cons.mp hoffer with rfl | hoffer
        · exact hmost _ List.mem_cons_self
        · rcases List.mem_cons.mp hoffer with rfl | hoffer
          · exact hhours.trans (hmost _ List.mem_cons_self)
          · exact hmost _ (List.mem_cons_of_mem _ hoffer)

/-- An account that can take a job now. -/
structure Takes (rows : List Job) (job : OwnedJob) (account : String × String) (hours : ℚ) : Prop where
  current : account ∈ currentAccounts lib store false job
  idle : occupied lib store rows (lib.lowerText account.2) < limit
  quota : ∃ quota, quotas account.1 = some quota ∧ quota.identityVerified = true ∧ quota.available = true ∧
    quota.gpuHours = hours
  pos : 0 < hours

variable {lib store limit quotas} {rows : List Job} {job : OwnedJob}

theorem mem_offers {offer : Offer} :
    offer ∈ offers (idleAccounts lib store limit quotas rows (currentAccounts lib store false job)) ↔
      Takes lib store limit quotas rows job (offer.key, offer.username) offer.gpuHours := by
  constructor
  · intro h
    obtain ⟨⟨account, quota⟩, hidle, hoffer⟩ := List.mem_filterMap.mp h
    obtain ⟨account', hallowed, hquota⟩ := List.mem_filterMap.mp hidle
    obtain ⟨quota', hfound, heq⟩ := Option.map_eq_some_iff.mp hquota
    obtain rfl := (Prod.mk.inj heq).1
    obtain rfl := (Prod.mk.inj heq).2
    obtain ⟨hcurrent, hfree⟩ := List.mem_filter.mp hallowed
    dsimp only at hoffer
    split at hoffer
    · rename_i hgood
      obtain rfl := Option.some.inj hoffer
      simp only [Bool.and_eq_true, decide_eq_true_eq] at hgood
      exact ⟨hcurrent, of_decide_eq_true hfree, ⟨quota', hfound, hgood.1.1, hgood.1.2, rfl⟩, hgood.2⟩
    · cases hoffer
  · rintro ⟨hcurrent, hfree, ⟨quota, hquota, hverified, havailable, hhours⟩, hpos⟩
    refine List.mem_filterMap.mpr ⟨((offer.key, offer.username), quota), ?_, ?_⟩
    · refine List.mem_filterMap.mpr ⟨(offer.key, offer.username), ?_, ?_⟩
      · exact List.mem_filter.mpr ⟨hcurrent, decide_eq_true hfree⟩
      · rw [hquota, Option.map_some]
    · have hgood : (quota.identityVerified && quota.available && decide (0 < quota.gpuHours)) = true := by
        rw [hverified, havailable, hhours, decide_eq_true hpos]
        rfl
      dsimp only
      rw [if_pos hgood, hhours]

/-- **What an account that is chosen fulfils**: it can take the job, and no
account that can take it has more hours. -/
theorem chooseAccount_account {key username : String}
    (h : chooseAccount lib store limit quotas rows job = .account key username) :
    ∃ hours, Takes lib store limit quotas rows job (key, username) hours ∧
      ∀ account hours', Takes lib store limit quotas rows job account hours' → hours' ≤ hours := by
  unfold chooseAccount at h
  dsimp only at h
  split at h
  · split at h <;> cases h
  · split at h
    · rename_i best hbest
      obtain ⟨rfl, rfl⟩ := AccountChoice.account.inj h
      obtain ⟨hmem, hmost⟩ := bestOffer_some hbest
      refine ⟨best.gpuHours, mem_offers.mp hmem, fun account hours' htakes => ?_⟩
      exact hmost ⟨hours', account.1, account.2⟩ (mem_offers.mpr htakes)
    · cases h

theorem mem_eligible_of_current {includeDisabled : Bool} {account : String × String}
    (h : account ∈ currentAccounts lib store includeDisabled job) :
    account ∈ job.eligibleAccounts ∧ lib.lowerText (usernameOf store account.1) = lib.lowerText account.2 := by
  unfold currentAccounts at h
  split at h
  · cases h
  · obtain ⟨hmem, hcond⟩ := List.mem_filter.mp h
    simp only [Bool.and_eq_true, beq_iff_eq] at hcond
    exact ⟨hmem, hcond.2⟩

end Decision

/-! ### What a step does to the account of a job -/

/-- The row that an operation writes, and the values. -/
def RelayOp.writes : RelayOp → Option (JobId × JobValues)
  | .updateJob id values | .updateJobIfStatus id _ _ _ values | .finalizeJob id _ values
  | .resumeIfInactive id values _ | .updateJobIfStatusAndPut id _ _ values _ _ => some (id, values)
  | _ => none

/-- The account stays, or the values say which it is. -/
def Rebound (values : JobValues) (job job' : Job) : Prop :=
  (job'.kaggleKeyId = job.kaggleKeyId ∧ job'.assignmentState = job.assignmentState) ∨
    (¬values.Unbound ∧ job'.kaggleKeyId = values.kaggleKeyId.getD job.kaggleKeyId)

theorem rebound_set {values written : JobValues} {job : Job} (hkey : written.kaggleKeyId = values.kaggleKeyId)
    (hstate : written.assignmentState = values.assignmentState) :
    (job.set written).toDeclared = job.toDeclared ∧ Rebound values job (job.set written) := by
  refine ⟨rfl, ?_⟩
  by_cases hunbound : values.Unbound
  · refine .inl ⟨?_, ?_⟩
    · show written.kaggleKeyId.getD _ = _
      rw [hkey, (Prod.mk.inj hunbound).1]
      rfl
    · show written.assignmentState.getD _ = _
      rw [hstate, (Prod.mk.inj (Prod.mk.inj hunbound).2).1]
      rfl
  · refine .inr ⟨hunbound, ?_⟩
    show written.kaggleKeyId.getD _ = _
    rw [hkey]

theorem rebound_updateJob {t : ℚ} {values : JobValues} {job : Job} :
    (updateJob t values job).toDeclared = job.toDeclared ∧ Rebound values job (updateJob t values job) := by
  unfold updateJob JobValues.sealed
  split
  · split
    · exact rebound_set rfl rfl
    · exact rebound_set rfl rfl
  · exact rebound_set rfl rfl

namespace World

variable {s : Settings} {w w' : World} {ph : Phases} {c : Choice} {id : JobId}

/-- The row after an operation: its account stays, or the operation says which
it is. -/
def Reassigned (o : RelayOp) (w : World) (id : JobId) (job' : Job) : Prop :=
  ∃ job, w.jobs id = some job ∧ job'.toDeclared = job.toDeclared ∧
    ((job'.kaggleKeyId = job.kaggleKeyId ∧ job'.assignmentState = job.assignmentState) ∨
      ∃ values, o.writes = some (id, values) ∧ ¬values.Unbound ∧
        job'.kaggleKeyId = values.kaggleKeyId.getD job.kaggleKeyId)

/-- A row that is changed in place, or another one. -/
theorem rebound_update {o : RelayOp} {i : JobId} {values : JobValues} {job' : Job} {f : Job → Job}
    (ho : o.writes = some (i, values))
    (hf : ∀ job, (f job).toDeclared = job.toDeclared ∧ Rebound values job (f job))
    (hjob' : Function.update w.jobs i ((w.jobs i).map f) id = some job') :
    Reassigned o w id job' := by
  by_cases hid : id = i
  · subst hid
    rw [Function.update_self] at hjob'
    obtain ⟨job, hjob, rfl⟩ := Option.map_eq_some_iff.mp hjob'
    obtain ⟨hdeclared, hrebound⟩ := hf job
    refine ⟨job, hjob, hdeclared, ?_⟩
    rcases hrebound with hsame | ⟨hbinds, hkey⟩
    · exact .inl hsame
    · exact .inr ⟨values, ho, hbinds, hkey⟩
  · rw [Function.update_of_ne hid] at hjob'
    exact ⟨job', hjob', rfl, .inl ⟨rfl, rfl⟩⟩

theorem rebound_finalizeJob {t : ℚ} {preferred : Status} {values : JobValues} {job : Job} :
    (KaggleRelay.finalizeJob t preferred values job).toDeclared = job.toDeclared ∧
      Rebound values job (KaggleRelay.finalizeJob t preferred values job) := by
  unfold KaggleRelay.finalizeJob
  split
  · exact ⟨rfl, .inl ⟨rfl, rfl⟩⟩
  · exact rebound_set rfl rfl

/-- **What an operation does to the account of a job.** -/
theorem rebound_perform {o : RelayOp} {r : o.Res} {job' : Job} (h : perform s c o w = (r, w'))
    (hjob' : w'.jobs id = some job') :
    Reassigned o w id job' := by
  have hsame : w'.jobs = w.jobs → Reassigned o w id job' :=
    fun heq => ⟨job', heq ▸ hjob', rfl, .inl ⟨rfl, rfl⟩⟩
  by_cases hquiet : o.touches = false
  · obtain ⟨_, _, _, _, heq⟩ := perform_quiet (s := s) (c := c) (w := w) hquiet
    rw [h] at heq
    replace heq : w' = _ := heq
    refine hsame ?_
    rw [heq]
  have hwritten : ∀ {i : JobId} {t : ℚ} {expected : List Status} {nc : Bool} {ek : Option String}
      {values : JobValues} {w₁ : World}, o.writes = some (i, values) →
      w.updateIfStatus t i expected nc ek values = some w₁ → w'.jobs = w₁.jobs → Reassigned o w id job' := by
    intro i t expected nc ek values w₁ ho hw hjobs
    obtain ⟨job, hjob, -, -, rfl⟩ := updateIfStatus_some hw
    refine rebound_update (f := KaggleRelay.updateJob t values) ho (fun _ => rebound_updateJob) ?_
    rw [hjob, Option.map_some]
    exact (congrFun hjobs _).symm.trans hjob'
  cases o with
  | updateJob i values =>
    cases h
    exact rebound_update rfl (fun _ => rebound_updateJob) hjob'
  | updateJobIfStatus i expected nc ek values =>
    rcases perform_updateIfStatus h with ⟨-, hw⟩ | ⟨-, rfl⟩
    · exact hwritten rfl hw rfl
    · exact hsame rfl
  | updateJobIfStatusAndPut i expected nc values put action =>
    rcases perform_updateIfStatusAndPut h with ⟨-, w₁, hw, rfl⟩ | ⟨-, rfl⟩
    · exact hwritten rfl hw rfl
    · exact hsame rfl
  | finalizeJob i preferred values =>
    cases h
    exact rebound_update rfl (fun _ => rebound_finalizeJob) hjob'
  | resumeIfInactive i values action =>
    simp only [perform] at h
    split at h
    · cases h
      exact hsame rfl
    · cases h
      exact rebound_update rfl (fun _ => rebound_updateJob) hjob'
  | consume i size =>
    cases h
    by_cases hid : id = i
    · subst hid
      have hrow := (Function.update_self _ _ _).symm.trans hjob'
      obtain ⟨job, hjob, rfl⟩ := Option.map_eq_some_iff.mp hrow
      exact ⟨job, hjob, rfl, .inl ⟨rfl, rfl⟩⟩
    · exact ⟨job', (Function.update_of_ne hid _ _).symm.trans hjob', rfl, .inl ⟨rfl, rfl⟩⟩
  | deleteJobRecord i =>
    cases h
    by_cases hid : id = i
    · subst hid
      cases (Function.update_self _ _ _).symm.trans hjob'
    · exact ⟨job', (Function.update_of_ne hid _ _).symm.trans hjob', rfl, .inl ⟨rfl, rfl⟩⟩
  | getJob | isActive | pushKernel =>
    cases h
    exact hsame rfl
  | call call =>
    cases call with
    | pollKernel | kernelStatus =>
      cases h
      exact hsame rfl
    | _ => exact absurd rfl hquiet
  | _ => exact absurd rfl hquiet

/-- A row in the intake was in the intake before. -/
theorem intake_of_move {σ : Side} {v v' : View} {core core' : Core} (hv : Coupled v) (hm : Move σ v v')
    (hrow : v.row = some core) (hrow' : v'.row = some core') (hintake : core'.status.intake = true) :
    core.status.intake = true := by
  cases hm with
  | look | push | accept | discard | pend | leave | flush | learn | crash | serve =>
    rw [hrow] at hrow'
    cases hrow'
    exact hintake
  | create hk =>
    rw [(hv.unknown hk).2.1] at hrow
    cases hrow
  | delete => cases hrow'
  | note _ _ hc | transition _ hc | commit _ hc | advance _ hc | finalize _ hc | park _ hc | record _ hc
  | reserve hc | cancel hc | expire hc | assemble hc | unassemble hc | enqueue hc | requeue hc | resume hc
  | report hc | refuse hc | bind hc | recoverEnd _ _ _ hc | recoverQueue _ _ _ hc | recoverReserve _ _ _ hc =>
    rw [hc] at hrow
    cases hrow
    grind -linarith [Core.Forgets, Core.finalized, Core.moved, Core.cancelStatus]

/-! ### Deployments of dynamic jobs -/

section Dispatch

variable (lib : Library) (store : AuthStore) (limit : ℕ) (eligible : JobId → List (String × String))

/-- The rows of the database. -/
def rows (w : World) : List Job := w.ids.filterMap w.jobs

/-- The scheduler decides on the job now, and for that key. -/
def Decides (w : World) (id : JobId) (key : String) : Prop :=
  ∃ (job : Job) (quotas : String → Option AccountQuota) (username : String), w.jobs id = some job ∧
    job.status = .queued ∧ awaitingAssignment job = true ∧
    chooseAccount lib store limit quotas w.rows ⟨job, eligible id⟩ = .account key username

/-- The job whose row a step writes. -/
def written (w : World) (a : Action) : Option JobId := ((w.performs a).bind RelayOp.writes).map (·.1)

/-- Every job is created for dynamic scheduling, and where the scheduler writes the
account of a job, it decides so on the rows of the moment: it reads, decides and
writes in one turn of the event loop. -/
structure Dispatches (w : World) (a : Action) : Prop where
  dynamic : ∀ id d datasetRef kernelRef keyId reserved,
    a = .create id d datasetRef kernelRef keyId reserved → d.schedulingMode = .dynamic
  decided : ∀ n c o id values, a = .loose n c → w.performs a = some o → o.writes = some (id, values) →
    ¬values.Unbound → ∃ key, values.kaggleKeyId = some key ∧ Decides lib store limit eligible w id key

end Dispatch

variable {lib : Library} {store : AuthStore} {limit : ℕ} {eligible : JobId → List (String × String)} {a : Action}

/-- Only the scheduler writes the account of a job. -/
theorem loose_of_binds (hconfined : Confined w) {o : RelayOp} {values : JobValues} (hp : w.performs a = some o)
    (hwrites : o.writes = some (id, values)) (hbinds : ¬values.Unbound) : ∃ n c, a = .loose n c := by
  have hwithin := performs_within hconfined hp
  have hvalues : values.Within a.host.marks := by
    cases o with
    | updateJob | updateJobIfStatus | finalizeJob | resumeIfInactive | updateJobIfStatusAndPut =>
      cases hwrites
      exact hwithin
    | _ => cases hwrites
  have hmark : a.host.marks .binding := by
    by_contra hne
    exact hbinds (hvalues.binding hne)
  cases a with
  | loose n c => exact ⟨n, c, rfl⟩
  | lock => rcases hmark with h | h <;> cases h
  | recover => cases hmark
  | _ => exact absurd rfl hmark

/-- **What a step of such a deployment does to the account of a job**: nothing,
or it is bound, or the job is new. -/
theorem account_step (hconfined : Confined w) (hgood : Dispatches lib store limit eligible w a)
    (hs : step s a w = some w') {job' : Job} (hjob' : w'.jobs id = some job') :
    (∃ job, w.jobs id = some job ∧ job'.toDeclared = job.toDeclared ∧
      ((job'.kaggleKeyId = job.kaggleKeyId ∧ job'.assignmentState = job.assignmentState) ∨
        (w.written a = some id ∧ Decides lib store limit eligible w id job'.kaggleKeyId))) ∨
    (job'.schedulingMode = .dynamic ∧ job'.status = .receiving ∧ awaitingAssignment job' = true) := by
  have hop : ∀ {o : RelayOp} {c : Choice} {r : o.Res} {w₁ : World}, w.performs a = some o →
      perform s c o w = (r, w₁) → w₁.jobs id = some job' →
      ∃ job, w.jobs id = some job ∧ job'.toDeclared = job.toDeclared ∧
        ((job'.kaggleKeyId = job.kaggleKeyId ∧ job'.assignmentState = job.assignmentState) ∨
          (w.written a = some id ∧ Decides lib store limit eligible w id job'.kaggleKeyId)) := by
    intro o c r w₁ hperforms hperform hrow
    obtain ⟨job, hjob, hdeclared, hsame | ⟨values, hwrites, hbinds, hkey⟩⟩ := rebound_perform hperform hrow
    · exact ⟨job, hjob, hdeclared, .inl hsame⟩
    · obtain ⟨n, c', hloose⟩ := loose_of_binds hconfined hperforms hwrites hbinds
      obtain ⟨key, hvalue, hdecides⟩ := hgood.decided n c' o id values hloose hperforms hwrites hbinds
      rw [hvalue, Option.getD_some] at hkey
      refine ⟨job, hjob, hdeclared, .inr ⟨?_, hkey ▸ hdecides⟩⟩
      rw [written, hperforms, Option.bind_some, hwrites, Option.map_some]
  rcases stepped_of_step hs with ⟨_, ht, hp, hperform, -⟩ | ⟨hp, hperform, -⟩ | ⟨hp, hperform, -⟩ |
    ⟨hrec, hp, hperform, -⟩ | hmemory
  · refine .inl (hop ?_ hperform hjob')
    rw [performs, ht, Option.bind_some, hp]
    rfl
  · refine .inl (hop ?_ hperform hjob')
    rw [performs, hp]
    rfl
  · refine .inl (hop ?_ hperform hjob')
    rw [performs, hp]
    rfl
  · refine .inl (hop ?_ hperform hjob')
    rw [performs, hrec, Option.bind_some, hp]
    rfl
  · rcases hmemory.jobs id with hsame | hslot | ⟨d, datasetRef, kernelRef, keyId, reserved, -, rfl, hnew⟩
    · rw [hsame] at hjob'
      exact .inl ⟨job', hjob', rfl, .inl ⟨rfl, rfl⟩⟩
    · rw [hslot] at hjob'
      obtain ⟨job, hjob, rfl⟩ := Option.map_eq_some_iff.mp hjob'
      exact .inl ⟨job, hjob, rfl, .inl ⟨rfl, rfl⟩⟩
    · rw [hnew] at hjob'
      obtain rfl := Option.some.inj hjob'
      have hdynamic := hgood.dynamic _ _ _ _ _ _ rfl
      refine .inr ⟨hdynamic, rfl, ?_⟩
      simp only [awaitingAssignment, createdJob, hdynamic, if_true, beq_self_eq_true, Bool.and_self]

/-- What holds of every row of such a deployment. -/
structure Dispatched (eligible : JobId → List (String × String)) (id : JobId) (job : Job) : Prop where
  dynamic : job.schedulingMode = .dynamic
  intake : job.status.intake = true → awaitingAssignment job = true
  eligible : awaitingAssignment job = false → job.kaggleKeyId ∈ (eligible id).map (·.1)

theorem mem_eligible_of_decides {key : String} (h : Decides lib store limit eligible w id key) :
    key ∈ (eligible id).map (·.1) := by
  obtain ⟨job, quotas, username, -, -, -, hchoice⟩ := h
  obtain ⟨hours, htakes, -⟩ := chooseAccount_account hchoice
  exact List.mem_map.mpr ⟨_, (mem_eligible_of_current htakes.current).1, rfl⟩

theorem awaiting_congr {job job' : Job} (hdeclared : job'.toDeclared = job.toDeclared)
    (hstate : job'.assignmentState = job.assignmentState) : awaitingAssignment job' = awaitingAssignment job := by
  unfold awaitingAssignment
  rw [hdeclared, hstate]

theorem dispatched_step (hinv : Inv w ph) (hconfined : Confined w)
    (hgood : Dispatches lib store limit eligible w a) (hs : step s a w = some w')
    (h : ∀ id job, w.jobs id = some job → Dispatched eligible id job) :
    ∀ id job', w'.jobs id = some job' → Dispatched eligible id job' := by
  intro id job' hjob'
  rcases account_step hconfined hgood hs hjob' with ⟨job, hjob, hdeclared, haccount⟩ | ⟨hdynamic, hstatus, hawaiting⟩
  · have hrow := h id job hjob
    have hbefore : job'.status.intake = true → job.status.intake = true := by
      obtain ⟨ph', -, hmoves⟩ := inv_step hinv hs
      intro hintake
      rcases hmoves id with hsame | hm
      · have heq : job'.core = job.core := by
          have hview := congrArg View.row hsame
          rw [view_row hjob', view_row hjob] at hview
          exact Option.some.inj hview
        have hstatus : job'.status = job.status := congrArg Core.status heq
        rw [← hstatus]
        exact hintake
      · exact intake_of_move (hinv.coupled id) hm (view_row hjob) (view_row hjob') hintake
    rcases haccount with ⟨hkey, hstate⟩ | ⟨-, hdecides⟩
    · have hawaiting := awaiting_congr hdeclared hstate
      refine ⟨?_, fun hintake => ?_, fun hbound => ?_⟩
      · rw [hdeclared]
        exact hrow.dynamic
      · rw [hawaiting]
        exact hrow.intake (hbefore hintake)
      · rw [hkey]
        exact hrow.eligible (hawaiting ▸ hbound)
    · have hkey := mem_eligible_of_decides hdecides
      obtain ⟨job₀, _, _, hjob₀, hqueued, -, -⟩ := hdecides
      refine ⟨?_, fun hintake => ?_, fun _ => hkey⟩
      · rw [hdeclared]
        exact hrow.dynamic
      · -- a job that is bound is queued, and not in the intake
        rw [hjob] at hjob₀
        obtain rfl := Option.some.inj hjob₀
        have hstatus := hbefore hintake
        rw [hqueued] at hstatus
        cases hstatus
  · refine ⟨hdynamic, fun _ => hawaiting, fun hbound => ?_⟩
    rw [hawaiting] at hbound
    cases hbound

/-! ### The jobs of an account -/

/-- The jobs all take a slot of the account of that name. -/
structure Holders (lib : Library) (store : AuthStore) (w : World) (username : String) (ids : List JobId) : Prop where
  nodup : ids.Nodup
  occupies : ∀ id ∈ ids, ∃ job, w.jobs id = some job ∧ occupies lib store username job = true

/-- The ids whose rows count for the account. -/
theorem occupied_rows (username : String) :
    occupied lib store w.rows username =
      (w.ids.filter fun id => (w.jobs id).any (occupies lib store username)).length := by
  rw [occupied, rows, List.countP_filterMap, List.countP_eq_length_filter]
  congr 2
  funext id
  rcases w.jobs id with _ | job <;> rfl

theorem length_le_occupied (hinv : Inv w ph) {username : String} {ids : List JobId}
    (h : Holders lib store w username ids) : ids.length ≤ occupied lib store w.rows username := by
  rw [occupied_rows]
  refine (h.nodup.subperm fun id hid => ?_).length_le
  obtain ⟨job, hjob, hoccupies⟩ := h.occupies id hid
  refine List.mem_filter.mpr ⟨mem_ids_of_jobs hinv hjob, ?_⟩
  rw [hjob]
  exact hoccupies

/-- **A job comes to occupy an account only as it is bound to it.** -/
theorem occupies_step (hinv : Inv w ph) (hconfined : Confined w)
    (hgood : Dispatches lib store limit eligible w a) (hs : step s a w = some w')
    (h : ∀ id job, w.jobs id = some job → Dispatched eligible id job)
    {username : String} {job' : Job} (hjob' : w'.jobs id = some job')
    (hoccupies : occupies lib store username job' = true) :
    (∃ job, w.jobs id = some job ∧ occupies lib store username job = true) ∨
      (w.written a = some id ∧ occupied lib store w.rows username < limit) := by
  simp only [occupies, Bool.and_eq_true, beq_iff_eq, Bool.not_eq_true', bne_iff_ne] at hoccupies
  obtain ⟨⟨hstatus', hbound'⟩, hnamed, husername⟩ := hoccupies
  obtain ⟨hintake', hterminal'⟩ := occupiedStatuses_iff.mp hstatus'
  rcases account_step hconfined hgood hs hjob' with ⟨job, hjob, hdeclared, haccount⟩ | ⟨-, hreceiving, -⟩
  · rcases haccount with ⟨hkey, hstate⟩ | ⟨hwritten, hdecides⟩
    · refine .inl ⟨job, hjob, ?_⟩
      have hbound : awaitingAssignment job = false := by
        rw [← awaiting_congr hdeclared hstate]
        exact hbound'
      have hintake : job.status.intake = false := by
        by_contra hne
        rw [(h id job hjob).intake (by simpa using hne)] at hbound
        cases hbound
      have hterminal : job.status.terminal = false := by
        -- a row that has ended stays as it is
        by_contra hne
        have hended : job.status.terminal = true := by simpa using hne
        obtain ⟨ph', -, hmoves⟩ := inv_step hinv hs
        have hsame : job'.core.status = job.core.status := by
          rcases hmoves id with hsame | hm
          · have hview := congrArg View.row hsame
            rw [view_row hjob', view_row hjob] at hview
            rw [Option.some.inj hview]
          · exact terminal_move (hinv.coupled id) hm (view_row hjob) (view_row hjob') hended
        have hstatus : job'.status = job.status := hsame
        rw [hstatus, hended] at hterminal'
        cases hterminal'
      simp only [occupies, Bool.and_eq_true, beq_iff_eq, Bool.not_eq_true', bne_iff_ne]
      rw [← hkey]
      exact ⟨⟨occupiedStatuses_iff.mpr ⟨hintake, hterminal⟩, hbound⟩, hnamed, husername⟩
    · refine .inr ⟨hwritten, ?_⟩
      obtain ⟨_, quotas, name, -, -, -, hchoice⟩ := hdecides
      obtain ⟨hours, htakes, -⟩ := chooseAccount_account hchoice
      have hsame := (mem_eligible_of_current htakes.current).2
      have hidle := htakes.idle
      dsimp only at hsame hidle
      rw [← hsame, husername] at hidle
      exact hidle
  · rw [hreceiving] at hintake'
    cases hintake'

/-- The holders of an account stay within the limit. -/
theorem holders_step (hinv : Inv w ph) (hconfined : Confined w)
    (hgood : Dispatches lib store limit eligible w a) (hs : step s a w = some w')
    (h : ∀ id job, w.jobs id = some job → Dispatched eligible id job)
    {username : String} (hbefore : ∀ ids, Holders lib store w username ids → ids.length ≤ limit)
    {ids : List JobId} (hafter : Holders lib store w' username ids) : ids.length ≤ limit := by
  by_cases hnew : ∃ id ∈ ids, w.written a = some id ∧ occupied lib store w.rows username < limit
  · obtain ⟨id, hid, hwritten, hidle⟩ := hnew
    -- the other jobs have held their slots before
    have hothers : Holders lib store w username (ids.erase id) := by
      refine ⟨hafter.nodup.erase id, fun x hx => ?_⟩
      obtain ⟨hne, hmem⟩ := hafter.nodup.mem_erase_iff.mp hx
      obtain ⟨job', hjob', hoccupies⟩ := hafter.occupies x hmem
      rcases occupies_step hinv hconfined hgood hs h hjob' hoccupies with hheld | ⟨hx', -⟩
      · exact hheld
      · exact absurd (Option.some.inj (hx'.symm.trans hwritten)) hne
    have hlength := length_le_occupied hinv hothers
    rw [List.length_erase_of_mem hid] at hlength
    omega
  · refine hbefore ids ⟨hafter.nodup, fun id hid => ?_⟩
    obtain ⟨job', hjob', hoccupies⟩ := hafter.occupies id hid
    rcases occupies_step hinv hconfined hgood hs h hjob' hoccupies with hheld | hbound
    · exact hheld
    · exact absurd ⟨id, hid, hbound⟩ hnew

/-- **No account has more jobs than it may**, whatever the tasks, the endpoints,
the crashes and the recoveries do in between, and every bound job has an account
that it was eligible for when it was created. -/
theorem occupancy_bounded (lib : Library) (store : AuthStore) (eligible : JobId → List (String × String))
    (h : ReachableWith s (Dispatches lib store s.accountConcurrency eligible) w) :
    (∀ username, occupied lib store w.rows username ≤ s.accountConcurrency) ∧
      ∀ id job, w.jobs id = some job → awaitingAssignment job = false →
        job.kaggleKeyId ∈ (eligible id).map (·.1) := by
  have hrun : (∀ id job, w.jobs id = some job → Dispatched eligible id job) ∧
      ∀ username ids, Holders lib store w username ids → ids.length ≤ s.accountConcurrency := by
    induction h with
    | empty =>
      refine ⟨fun id job hjob => (by cases hjob), fun username ids hholders => ?_⟩
      rcases ids with _ | ⟨id, ids⟩
      · exact Nat.zero_le _
      · obtain ⟨job, hjob, -⟩ := hholders.occupies id List.mem_cons_self
        cases hjob
    | step hr a hgood hs ih =>
      obtain ⟨hrows, hbefore⟩ := ih
      obtain ⟨ph, hinv⟩ := inv_of_reachable hr.reachable
      have hconfined := confined_of_reachable hr.reachable
      exact ⟨dispatched_step hinv hconfined hgood hs hrows,
        fun username ids hafter => holders_step hinv hconfined hgood hs hrows (hbefore username) hafter⟩
  obtain ⟨hrows, hholders⟩ := hrun
  refine ⟨fun username => ?_, fun id job hjob => (hrows id job hjob).eligible⟩
  obtain ⟨ph, hinv⟩ := inv_of_reachable h.reachable
  rw [occupied_rows]
  refine hholders username _ ⟨hinv.ids.filter _, fun id hid => ?_⟩
  obtain ⟨-, hany⟩ := List.mem_filter.mp hid
  exact (Option.any_eq_true _ _).mp hany

/-! ### A deployment with one slot -/

instance (values : JobValues) : Decidable values.Unbound := inferInstanceAs (Decidable (_ = _))

/-- One user, and the account `alice` with a free GPU. -/
def trialAccounts : AuthStore where
  legacy := false
  kaggleKeys := [⟨"key", "alice", "secret", "", "", true, ""⟩]
  tokens := [("token", ⟨"", none, false, false, false⟩)]

def trialQuotas (key : String) : Option AccountQuota := if key = "key" then some ⟨true, "", true, 30⟩ else none

/-- Checks that the scheduler binds a job only to the account it chooses now. -/
def dispatchesNow (w : World) (a : Action) : Bool :=
  (match a with
    | .create _ d _ _ _ _ => d.schedulingMode == .dynamic
    | _ => true) &&
  match (w.performs a).bind RelayOp.writes with
  | none => true
  | some (id, values) => decide values.Unbound || values.kaggleKeyId.any fun key => (w.jobs id).any fun job =>
      job.status == .queued && awaitingAssignment job &&
        chooseAccount trialSettings.lib trialAccounts 1 trialQuotas w.rows ⟨job, [("key", "alice")]⟩ ==
          .account key "alice"

theorem dispatchesNow_sound (h : dispatchesNow w a = true) :
    Dispatches trialSettings.lib trialAccounts 1 (fun _ => [("key", "alice")]) w a := by
  simp only [dispatchesNow, Bool.and_eq_true] at h
  obtain ⟨hcreate, hwrite⟩ := h
  refine ⟨?_, ?_⟩
  · rintro id d datasetRef kernelRef keyId reserved rfl
    exact beq_iff_eq.mp hcreate
  · intro n c o id values _ hperforms hwrites hbinds
    rw [hperforms, Option.bind_some, hwrites] at hwrite
    simp only [Bool.or_eq_true, decide_eq_true_eq] at hwrite
    rcases hwrite with hunbound | hchosen
    · exact absurd hunbound hbinds
    · obtain ⟨key, hkey, hjob⟩ := (Option.any_eq_true _ _).mp hchosen
      obtain ⟨job, hrow, hcond⟩ := (Option.any_eq_true _ _).mp hjob
      simp only [Bool.and_eq_true, beq_iff_eq] at hcond
      exact ⟨key, hkey, job, trialQuotas, "alice", hrow, hcond.1.1, hcond.1.2, hcond.2⟩

/-- The job gets the only slot of the account. -/
theorem occupancy_bounded_trial :
    ∃ w job, runIf dispatchesNow trialSettings trialAssigned empty = some w ∧ w.jobs "x" = some job ∧
      awaitingAssignment job = false ∧ occupied trialSettings.lib trialAccounts w.rows "alice" = 1 ∧
      occupied trialSettings.lib trialAccounts w.rows "alice" ≤ trialSettings.accountConcurrency ∧
      job.kaggleKeyId ∈ ["key"] := by
  have hread : (runIf dispatchesNow trialSettings trialAssigned empty).map (fun w =>
      (occupied trialSettings.lib trialAccounts w.rows "alice", (w.jobs "x").map awaitingAssignment)) =
        some (1, some false) := by decide +kernel
  obtain ⟨w, hw, hrow⟩ := Option.map_eq_some_iff.mp hread
  obtain ⟨job, hjob, hbound⟩ := Option.map_eq_some_iff.mp (Prod.mk.inj hrow).2
  have hreach : ReachableWith trialSettings
      (Dispatches trialSettings.lib trialAccounts trialSettings.accountConcurrency fun _ => [("key", "alice")]) w :=
    reachableWith_of_runIf (fun _ _ => dispatchesNow_sound) hw .empty
  obtain ⟨hlimit, heligible⟩ := occupancy_bounded trialSettings.lib trialAccounts (fun _ => [("key", "alice")]) hreach
  exact ⟨w, job, hw, hjob, hbound, (Prod.mk.inj hrow).1, hlimit "alice", heligible "x" job hjob hbound⟩

end World

end KaggleRelay

/-
The worker loop's bookkeeping.

`bookkeeping_step` lists what a step does to the tasks, their accounts and the
items that wait for an account.  `queued_served` — while parked jobs are queued
again only once their task has left, every queued job has a task or an item,
and an account that has work waiting is full.  Without that condition a queued
job can be left with nothing (`queued_stranded`).
-/
import KaggleRelay.Runs

namespace KaggleRelay

open Effects Lifecycle

namespace World

variable {s : Settings} {w w' : World} {ph : Phases} {id : JobId}

/-! ### Tasks and accounts -/

/-- The account that a job's task has taken a slot of. -/
def slot (w : World) (id : JobId) : Option String := (w.active id).map (·.account)

/-- What a step does to the tasks, the accounts and what waits for them. -/
inductive Bookkeeping (s : Settings) (w w' : World) : Prop
  | same (hslots : w'.slot = w.slot) (haccounts : w'.accounts = w.accounts)
    (hpending : w'.pending = w.pending)
  | wait (account : String) (hslots : w'.slot = w.slot) (haccounts : w'.accounts = w.accounts)
    (hpending : ∀ a, a ≠ account → w'.pending a = w.pending a)
    (hfull : s.accountConcurrency ≤ w.accounts account)
  | start (id : JobId) (account : String) (hidle : w.slot id = none)
    (hslots : w'.slot = Function.update w.slot id (some account))
    (haccounts : w'.accounts = Function.update w.accounts account (w.accounts account + 1))
    (hpending : w'.pending = w.pending)
  | leave (id : JobId) (account : String) (hbusy : w.slot id = some account)
    (hslots : w'.slot = Function.update w.slot id none)
    (haccounts : w'.accounts = Function.update w.accounts account (w.accounts account - 1))
    (hpending : w'.pending = Function.update w.pending account [])
  | crash (hslots : w'.slot = fun _ => none) (haccounts : w'.accounts = fun _ => 0)
    (hpending : w'.pending = fun _ => [])

theorem slot_update {t : Option Task} (x : JobId) :
    ({ w with active := Function.update w.active id t } : World).slot x =
      Function.update w.slot id (t.map (·.account)) x := by
  by_cases hx : x = id
  · subst hx
    simp only [slot, Function.update_self]
  · simp only [slot, Function.update_of_ne hx]

/-- The operation of a program touches none of them. -/
theorem bookkeeping_perform {α : Type} {p p' : Relay α} {c : Choice} {w₁ : World}
    (h : advance s c p w = some (p', w₁)) :
    w₁.active = w.active ∧ w₁.accounts = w.accounts ∧ w₁.pending = w.pending := by
  obtain ⟨o, k, r, rfl, hperform, -, rfl⟩ := advance_some h
  obtain ⟨id, hon⟩ := exists_on o
  have hframe := frame_of_perform hon hperform
  exact ⟨hframe.active, hframe.accounts, hframe.pending⟩

theorem bookkeeping_accept {item : QueueItem} {queue : List QueueItem} {account : String}
    (hidle : w.active item.jobId = none) :
    Bookkeeping s w (accept s { w with queue } item account) := by
  unfold accept
  split
  · rename_i hfull
    exact .wait account rfl rfl (fun a ha => Function.update_of_ne ha _ _) hfull.2
  · refine .start item.jobId account ?_ (funext fun x => ?_) rfl rfl
    · simp only [slot, hidle, Option.map_none]
    · exact slot_update x

/-- **What a step does to the tasks, the accounts and what waits for them.** -/
theorem bookkeeping_step {a : Action} (hs : step s a w = some w') : Bookkeeping s w w' := by
  unfold step at hs
  split at hs
  · cases a with
    | create id d datasetRef kernelRef keyId reserved =>
      simp only [serving] at hs
      split at hs <;> cases hs
      exact .same rfl rfl rfl
    | take account =>
      simp only [serving] at hs
      split at hs
      · cases hs
      · rename_i item queue _
        cases hs
        unfold take
        split
        · exact .same rfl rfl rfl
        · split
          · exact .same rfl rfl rfl
          · rename_i hfresh
            simp only [not_or, not_not, Bool.not_eq_true, Option.isSome_eq_false_iff,
              Option.isNone_iff_eq_none] at hfresh
            exact bookkeeping_accept hfresh.2.1
    | worker id c =>
      obtain ⟨t, ht, hstep⟩ := Option.bind_eq_some_iff.mp hs
      simp only [workerStep] at hstep
      split at hstep
      · obtain ⟨⟨p, w₁⟩, hadvance, rfl⟩ := Option.map_eq_some_iff.mp hstep
        obtain ⟨hactive, haccounts, hpending⟩ := bookkeeping_perform hadvance
        refine .same (funext fun x => ?_) haccounts hpending
        refine (slot_update (w := w₁) x).trans ?_
        by_cases hx : x = id
        · subst hx
          simp only [slot, Function.update_self, ht, Option.map_some]
        · simp only [slot, Function.update_of_ne hx, hactive]
      · cases hstep
    | leave id =>
      simp only [serving] at hs
      split at hs
      · rename_i t ht
        split at hs <;> cases hs
        refine .leave id t.account ?_ (funext fun x => slot_update x) rfl rfl
        simp only [slot, ht, Option.map_some]
      · cases hs
    | begin id request =>
      simp only [serving] at hs
      split at hs <;> cases hs
      exact .same rfl rfl rfl
    | lock id c =>
      obtain ⟨p, hp, hstep⟩ := Option.bind_eq_some_iff.mp hs
      obtain ⟨⟨p', w₁⟩, hadvance, rfl⟩ := Option.map_eq_some_iff.mp hstep
      obtain ⟨hactive, haccounts, hpending⟩ := bookkeeping_perform hadvance
      exact .same (funext fun x => by simp only [slot, hactive]) haccounts hpending
    | beginLoose id request =>
      cases hs
      exact .same rfl rfl rfl
    | loose n c =>
      obtain ⟨p, hp, hstep⟩ := Option.bind_eq_some_iff.mp hs
      obtain ⟨⟨p', w₁⟩, hadvance, rfl⟩ := Option.map_eq_some_iff.mp hstep
      obtain ⟨hactive, haccounts, hpending⟩ := bookkeeping_perform hadvance
      exact .same (funext fun x => by simp only [slot, hactive]) haccounts hpending
    | crash =>
      cases hs
      exact .crash rfl rfl rfl
    | recover c => cases hs
  · cases a with
    | crash =>
      cases hs
      exact .crash rfl rfl rfl
    | recover c =>
      simp only [recoveryStep] at hs
      split at hs
      · cases hs
        exact .same rfl rfl rfl
      · obtain ⟨⟨p', w₁⟩, hadvance, rfl⟩ := Option.map_eq_some_iff.mp hs
        obtain ⟨hactive, haccounts, hpending⟩ := bookkeeping_perform hadvance
        exact .same (funext fun x => by simp only [slot, hactive]) haccounts hpending
      · cases hs
        exact .same rfl rfl rfl
      · cases hs
        exact .same rfl rfl rfl
    | _ => cases hs

/-- An account counts its tasks, and is full while work waits for it. -/
structure Booked (s : Settings) (w : World) : Prop where
  counts : ∀ account, ∃ l : List JobId, l.Nodup ∧ l.length = w.accounts account ∧
    ∀ id, id ∈ l ↔ w.slot id = some account
  full : ∀ account, w.pending account ≠ [] → s.accountConcurrency ≤ w.accounts account

theorem booked_step (h : Booked s w) {a : Action} (hs : step s a w = some w') : Booked s w' := by
  cases bookkeeping_step hs with
  | same hslots haccounts hpending =>
    refine ⟨fun account => ?_, fun account => ?_⟩
    · rw [hslots, haccounts]
      exact h.counts account
    · rw [hpending, haccounts]
      exact h.full account
  | wait account hslots haccounts hpending hfull =>
    refine ⟨fun b => ?_, fun b hne => ?_⟩
    · rw [hslots, haccounts]
      exact h.counts b
    · rw [haccounts]
      by_cases hb : b = account
      · rwa [hb]
      · exact h.full b (hpending b hb ▸ hne)
  | start id account hidle hslots haccounts hpending =>
    refine ⟨fun b => ?_, fun b hne => ?_⟩
    · obtain ⟨l, hnodup, hlength, hmem⟩ := h.counts b
      by_cases hb : b = account
      · subst hb
        refine ⟨id :: l, List.nodup_cons.mpr ⟨?_, hnodup⟩, ?_, fun x => ?_⟩
        · rw [hmem, hidle]
          exact nofun
        · rw [haccounts, Function.update_self, List.length_cons, hlength]
        · rw [hslots, List.mem_cons, hmem]
          by_cases hx : x = id
          · simp [hx]
          · simp [hx]
      · refine ⟨l, hnodup, ?_, fun x => ?_⟩
        · rw [haccounts, Function.update_of_ne hb, hlength]
        · rw [hslots, hmem]
          by_cases hx : x = id
          · simp [hx, hidle, Ne.symm hb]
          · simp [hx]
    · have hold := h.full b (by rwa [hpending] at hne)
      rw [haccounts]
      by_cases hb : b = account
      · rw [hb, Function.update_self]
        exact Nat.le_succ_of_le (hb ▸ hold)
      · rwa [Function.update_of_ne hb]
  | leave id account hbusy hslots haccounts hpending =>
    refine ⟨fun b => ?_, fun b hne => ?_⟩
    · obtain ⟨l, hnodup, hlength, hmem⟩ := h.counts b
      by_cases hb : b = account
      · subst hb
        refine ⟨l.erase id, hnodup.erase id, ?_, fun x => ?_⟩
        · rw [haccounts, Function.update_self, List.length_erase_of_mem ((hmem id).mpr hbusy), hlength]
        · rw [hslots, hnodup.mem_erase_iff, hmem]
          by_cases hx : x = id
          · simp [hx]
          · simp [hx]
      · refine ⟨l, hnodup, ?_, fun x => ?_⟩
        · rw [haccounts, Function.update_of_ne hb, hlength]
        · rw [hslots, hmem]
          by_cases hx : x = id
          · simp [hx, hbusy, Ne.symm hb]
          · simp [hx]
    · rw [hpending] at hne
      by_cases hb : b = account
      · rw [hb, Function.update_self] at hne
        exact absurd rfl hne
      · rw [Function.update_of_ne hb] at hne
        rw [haccounts, Function.update_of_ne hb]
        exact h.full b hne
  | crash hslots haccounts hpending =>
    refine ⟨fun b => ⟨[], .nil, ?_, fun x => ?_⟩, fun b hne => ?_⟩
    · rw [haccounts]
      rfl
    · rw [hslots]
      simp
    · rw [hpending] at hne
      exact absurd rfl hne

theorem booked_of_reachable (h : Reachable s w) : Booked s w := by
  induction h with
  | empty => exact ⟨fun _ => ⟨[], .nil, rfl, fun _ => by simp [slot, empty]⟩, fun _ hne => absurd rfl hne⟩
  | step _ a hs ih => exact booked_step ih hs

/-! ### No stranded job -/

/-- The recovery ends with the step in which the relay serves again. -/
theorem recoveryStep_serves {r : Recovery} {c : Choice}
    (hs : recoveryStep s c w r = some w') (hserving : w'.recovery = none) :
    r.current = none ∧ r.todo = [] ∧ w' = w.serve r.items := by
  unfold recoveryStep at hs
  split at hs
  · cases hs
    cases hserving
  · obtain ⟨⟨p', w₁⟩, -, rfl⟩ := Option.map_eq_some_iff.mp hs
    cases hserving
  · cases hs
    cases hserving
  · cases hs
    exact ⟨‹_›, ‹_›, rfl⟩

/-- A relay that serves again has an item for every queued job. -/
theorem served_serve {r : Recovery} (h : Inv w ph) (hrecovery : w.recovery = some r)
    (hcurrent : r.current = none) (htodo : r.todo = []) (id : JobId) :
    ((w.serve r.items).view ph id).Served := by
  have hr := h.recovery r hrecovery
  obtain ⟨⟨hdriver, -⟩, -⟩ := hr.quiet id
  intro c hc hqueued hbound
  replace hc : (w.view ph id).row = some c := hc
  refine ⟨fun d hd => ?_, fun _ => .inl ?_⟩
  · rw [show ((w.serve r.items).view ph id).driver = none from hdriver] at hd
    cases hd
  · obtain ⟨e, he, -⟩ | ⟨item, hitem, rfl, hprocess⟩ := hr.queued hcurrent id c hc hqueued
    · rw [htodo] at he
      cases he
    · obtain ⟨job, hjob, rfl⟩ := jobs_of_row hc
      refine holds_eq_true.mpr ⟨item, List.mem_append_right _ (List.mem_filter.mpr ⟨?_, ?_⟩), rfl, hprocess⟩
      · exact List.mem_append_right _ (List.mem_filter.mpr ⟨hitem, by rw [hprocess]; rfl⟩)
      · rw [hjob, Option.any_some, show awaitingAssignment job = false from hbound]
        rfl

theorem served_of_reachableWith (h : ReachableWith s RequeuesIdle w) :
    ∃ ph, Inv w ph ∧ (w.recovery = none → ∀ id, (w.view ph id).Served) := by
  induction h with
  | empty =>
    refine ⟨_, inv_empty, fun _ id => ?_⟩
    rw [view_empty]
    exact nofun
  | @step w w' hr a hgood hs ih =>
    obtain ⟨ph, hinv, hserved⟩ := ih
    obtain ⟨ph', hinv', hmoves⟩ := inv_step hinv hs
    by_cases hserving : w.recovery = none
    · refine ⟨ph', hinv', fun hserving' id => ?_⟩
      have hcrash : a ≠ .crash := by
        rintro rfl
        rw [step_crash] at hs
        cases hs
        cases hserving'
      rcases hmoves id with hsame | hm
      · rw [hsame]
        exact hserved hserving id
      · refine served_move (hinv.coupled id) (hserved hserving id) ?_ hgood hm
        rintro (hcrashes | hrecovers)
        · exact hcrash hcrashes
        · rw [hserving] at hrecovers
          cases hrecovers
    · obtain ⟨r, hrecovery⟩ := Option.ne_none_iff_exists'.mp hserving
      simp only [step, hrecovery] at hs
      cases a with
      | crash =>
        cases hs
        exact ⟨ph', hinv', fun hserving' => nomatch hserving'⟩
      | recover c =>
        obtain ⟨hinv'', -⟩ := inv_recover (σ := w.side .crash) hinv hrecovery (.inl rfl) id hs
        refine ⟨ph, hinv'', fun hserving' id => ?_⟩
        obtain ⟨hcurrent, htodo, rfl⟩ := recoveryStep_serves hs hserving'
        exact served_serve hinv hrecovery hcurrent htodo id
      | _ => cases hs

/-- A queued job that has its account has a task that has yet to change its
status, an item that the worker loop will not drop, or an item that waits. -/
def QueuedServed (w : World) (id : JobId) : Prop :=
  (∃ t, w.active id = some t ∧ t.gaveUp = false ∧ returned t.program = false) ∨
    (w.active id = none ∧ ∃ item ∈ w.queue, item.jobId = id ∧ .queued ∈ queueItemExpectedStatuses item) ∨
    ∃ account, ∃ item ∈ w.pending account, item.jobId = id

/-- The account runs as many tasks as it may. -/
def AccountFull (s : Settings) (w : World) (account : String) : Prop :=
  ∃ l : List JobId, l.Nodup ∧ s.accountConcurrency ≤ l.length ∧
    ∀ id ∈ l, ∃ t, w.active id = some t ∧ t.account = account

theorem accountFull_of_pending (h : Reachable s w) {account : String} (hne : w.pending account ≠ []) :
    AccountFull s w account := by
  obtain ⟨hcounts, hfull⟩ := booked_of_reachable h
  obtain ⟨l, hnodup, hlength, hmem⟩ := hcounts account
  refine ⟨l, hnodup, hlength ▸ hfull account hne, fun id hid => ?_⟩
  exact Option.map_eq_some_iff.mp ((hmem id).mp hid)

/-- **No queued job is stranded**, crashes and restarts included, where parked
jobs are queued again only once their task has left; and an account that has
work waiting is full. -/
theorem queued_served (s : Settings) {w : World} (h : ReachableWith s RequeuesIdle w)
    (hserving : w.recovery = none) :
    (∀ id job, w.jobs id = some job → job.status = .queued → awaitingAssignment job = false →
      w.QueuedServed id) ∧
    ∀ account, w.pending account ≠ [] → AccountFull s w account := by
  obtain ⟨ph, hinv, hserved⟩ := served_of_reachableWith h
  refine ⟨fun id job hjob hqueued hbound => ?_, fun account => accountFull_of_pending h.reachable⟩
  obtain ⟨htask, hitem⟩ := hserved hserving id job.core (view_row hjob) hqueued hbound
  rcases hactive : w.active id with _ | t
  · have hdriver : (w.view ph id).driver = none := by simp only [view, hactive, Option.map_none]
    rcases hitem hdriver with hprocess | hpending
    · obtain ⟨item, hmem, hid, hresume⟩ := holds_eq_true.mp hprocess
      refine .inr (.inl ⟨hactive, item, hmem, hid, ?_⟩)
      rw [queueItemExpectedStatuses, hresume]
      exact List.mem_singleton.mpr rfl
    · exact .inr (.inr (holds_eq_true.mp hpending))
  · have hdriver : (w.view ph id).driver = some ⟨ph.worker id, t.gaveUp, returned t.program⟩ := by
      simp only [view, hactive, Option.map_some]
    have hgave : t.gaveUp = false := htask _ hdriver
    refine .inl ⟨t, hactive, hgave, ?_⟩
    have hfits := (hinv.coupled id).fits hdriver (view_row hjob)
    have hstatus : job.core.status = .queued := hqueued
    -- of the phases only the one before the first transition goes with a queued row
    cases hp : ph.worker id <;> simp only [Driver.Fits, hp, hstatus, hgave] at hfits <;>
      simp_all [Status.submitted, Status.terminal]

/-- Checks that a step queues a parked job only where it has no task. -/
def requeuesIdle (w : World) (a : Action) : Bool :=
  match w.performs a with
  | some (.updateJobIfStatusAndPut id _ _ _ _ _) =>
    (w.jobs id).all (·.status != .waitingDataset) || (w.active id).isNone
  | _ => true

theorem requeuesIdle_sound {a : Action} (h : requeuesIdle w a = true) : w.RequeuesIdle a := by
  intro id expected nc values put action job hp hjob _ hs
  simpa [requeuesIdle, hp, hjob, hs] using h

theorem queued_served_trial :
    ∃ w job, runIf requeuesIdle trialSettings (trialCompleted .fixed 25) empty = some w ∧
      w.jobs "x" = some job ∧ job.status = .queued ∧ w.QueuedServed "x" := by
  have hread : (runIf requeuesIdle trialSettings (trialCompleted .fixed 25) empty).map (fun w =>
      (w.recovery.isNone, (w.jobs "x").map fun job => (job.status, awaitingAssignment job))) =
        some (true, some (.queued, false)) := by decide +kernel
  obtain ⟨w, hw, hrow⟩ := Option.map_eq_some_iff.mp hread
  obtain ⟨job, hjob, hstatus⟩ := Option.map_eq_some_iff.mp (congrArg Prod.snd hrow)
  have hserving : w.recovery = none := Option.isNone_iff_eq_none.mp (congrArg Prod.fst hrow)
  exact ⟨w, job, hw, hjob, congrArg Prod.fst hstatus, (queued_served trialSettings
    (reachableWith_of_runIf (fun _ _ => requeuesIdle_sound) hw .empty) hserving).1 "x" job hjob
      (congrArg Prod.fst hstatus) (congrArg Prod.snd hstatus)⟩

/-- A job that a manual recheck queues while its task is still on its way out:
the worker loop drops the item. -/
def trialStranded : List Action :=
  trialStarted losesUpload 40 ++ .begin "x" (.complete true false) ::
    List.replicate 5 (.lock "x" succeeds) ++ [.take "alice", .worker "x" losesUpload, .leave "x"]

/-- Nothing waits for an account none of whose jobs has a task. -/
theorem pending_of_idle (hpos : 0 < s.accountConcurrency) (h : Reachable s w)
    (hidle : ∀ id ∈ w.ids, w.active id = none) (account : String) : w.pending account = [] := by
  by_contra hne
  obtain ⟨ph, hinv⟩ := inv_of_reachable h
  obtain ⟨l, -, hlength, hmem⟩ := accountFull_of_pending h hne
  obtain ⟨id, hid⟩ := List.exists_mem_of_length_pos (Nat.lt_of_lt_of_le hpos hlength)
  obtain ⟨t, ht, -⟩ := hmem id hid
  have hdriver : (w.view ph id).driver = some ⟨ph.worker id, t.gaveUp, returned t.program⟩ := by
    simp only [view, ht, Option.map_some]
  have hknown : id ∈ w.ids := by
    by_contra hnew
    obtain ⟨⟨hnone, -⟩, -⟩ := (hinv.coupled id).unknown (holds_eq_false.mpr hnew)
    rw [hdriver] at hnone
    cases hnone
  rw [hidle id hknown] at ht
  cases ht

theorem queued_stranded :
    ¬∀ (s : Settings) (w : World), Reachable s w → w.recovery = none →
      (∀ id job, w.jobs id = some job → job.status = .queued → awaitingAssignment job = false →
        w.QueuedServed id) ∧
      ∀ account, w.pending account ≠ [] → AccountFull s w account := by
  intro h
  have hread : (run trialSettings trialStranded empty).map (fun w =>
      ((w.recovery.isNone, w.ids), ((w.active "x").isNone, w.queue.isEmpty),
        (w.jobs "x").map fun job => (job.status, awaitingAssignment job))) =
      some ((true, ["x"]), (true, true), some (.queued, false)) := by decide +kernel
  obtain ⟨w, hw, hrow⟩ := Option.map_eq_some_iff.mp hread
  simp only [Prod.mk.injEq, Option.isNone_iff_eq_none, List.isEmpty_iff] at hrow
  obtain ⟨⟨hserving, hids⟩, ⟨hactive, hqueue⟩, hrow⟩ := hrow
  obtain ⟨job, hjob, hstatus⟩ := Option.map_eq_some_iff.mp hrow
  have hreach := reachable_of_run hw
  rcases (h trialSettings w hreach hserving).1 "x" job hjob (congrArg Prod.fst hstatus)
    (congrArg Prod.snd hstatus) with ⟨t, ht, -⟩ | ⟨-, item, hitem, -⟩ | ⟨account, item, hitem, -⟩
  · rw [hactive] at ht
    cases ht
  · rw [hqueue] at hitem
    cases hitem
  · have hidle : ∀ id ∈ w.ids, w.active id = none := by
      intro id hid
      rw [hids] at hid
      rw [List.mem_singleton.mp hid]
      exact hactive
    rw [pending_of_idle Nat.one_pos hreach hidle] at hitem
    cases hitem

end World

end KaggleRelay

/-
The running relay refines the lives of its jobs.

`inv_step` — every step keeps the invariant and is, for every job, a move of
the job's view or nothing at all; there is one lemma for each kind of step.
`inv_of_reachable` — so the invariant holds in every state a relay reaches.
-/
import Mathlib.Data.List.Nodup
import KaggleRelay.Refinement

namespace KaggleRelay

open Effects Lifecycle

/-- The phases with a new one for the task of a job. -/
def Phases.setWorker (ph : Phases) (id : JobId) (p : WorkerPhase) : Phases :=
  { ph with worker := Function.update ph.worker id p }

/-- The phases with a new one for the holder of a job's lock. -/
def Phases.setLock (ph : Phases) (id : JobId) (l : LockPhase) : Phases :=
  { ph with lock := Function.update ph.lock id l }

namespace World

variable {s : Settings} {w w' : World} {ph ph' : Phases} {id : JobId} {c : Choice} {σ : Side}

/-! ### Moves of all views -/

variable (id) in
theorem moves_of_others (hother : ∀ x, x ≠ id → w'.view ph' x = w.view ph x)
    (hself : w'.view ph' id = w.view ph id ∨ Move σ (w.view ph id) (w'.view ph' id)) :
    Moves σ w w' ph ph' := by
  intro x
  by_cases hx : x = id
  · rwa [hx]
  · exact .inl (hother x hx)

theorem Moves.coupled (hm : Moves σ w w' ph ph') (h : ∀ id, Coupled (w.view ph id)) (id : JobId) :
    Coupled (w'.view ph' id) := by
  rcases hm id with hsame | hmove
  · rw [hsame]
    exact h id
  · exact coupled_move (h id) hmove

/-- A state reached by moves satisfies the invariant where its programs and its
items do. -/
theorem inv_of_moves (h : Inv w ph) (hm : Moves σ w w' ph ph') (hids : w'.ids.Nodup)
    (hworker : ∀ id t, w'.active id = some t →
      Follows (worker id) (fun _ p => p.final = true) t.program (ph'.worker id))
    (hsections : ∀ id p, w'.sections id = some p →
      Follows (lockHolder id) (fun _ _ => True) p (ph'.lock id))
    (hloose : ∀ p ∈ w'.loose, p ∈ w.loose ∨ ∃ id lp,
      Follows (unlocked id) (fun _ _ => True) p lp ∧ LooseFits (w'.view ph' id) lp)
    (hitems : ∀ item ∈ w'.queue, item.action.Sound)
    (hpending : ∀ account, ∀ item ∈ w'.pending account, item.action.isResume = false)
    (hrecovery : ∀ r, w'.recovery = some r → Recovering w' ph' r) : Inv w' ph' where
  ids := hids
  coupled := hm.coupled h.coupled
  worker := hworker
  sections := hsections
  loose p hp := by
    rcases hloose p hp with hold | hnew
    · obtain ⟨id, lp, hfollows, hfits⟩ := h.loose p hold
      refine ⟨id, lp, hfollows, ?_⟩
      rcases hm id with hsame | hmove
      · rwa [hsame]
      · exact looseFits_move hmove hfits
    · exact hnew
  items := hitems
  pending := hpending
  recovery := hrecovery

/-! ### One operation -/

theorem advance_some {α : Type} {p p' : Relay α} (h : advance s c p w = some (p', w')) :
    ∃ (o : RelayOp) (k : o.Res → Relay α) (r : o.Res), p = .op o k ∧
      perform s c o w = (r, w') ∧ legal o r = true ∧ p' = k r := by
  cases p with
  | op o k =>
    simp only [advance] at h
    split at h
    · cases h
      exact ⟨o, k, _, rfl, rfl, ‹_›, rfl⟩
    · cases h
  | _ => cases h

/-- The item an operation may put in the queue. -/
def puts : RelayOp → Option QueueItem
  | .resumeIfInactive id _ action | .updateJobIfStatusAndPut id _ _ _ _ action => some ⟨action, id⟩
  | _ => none

theorem queue_perform {o : RelayOp} {item : QueueItem} (h : item ∈ (perform s c o w).2.queue) :
    item ∈ w.queue ∨ puts o = some item := by
  by_cases hquiet : o.touches = false
  · obtain ⟨_, _, _, _, heq⟩ := perform_quiet (s := s) (c := c) (w := w) hquiet
    rw [heq] at h
    exact .inl h
  cases o with
  | updateJobIfStatus i expected nc ek values =>
    simp only [perform] at h
    split at h
    · obtain ⟨job, -, -, -, rfl⟩ := updateIfStatus_some ‹_›
      exact .inl h
    · exact .inl h
  | updateJobIfStatusAndPut i expected nc values put action =>
    simp only [perform] at h
    split at h
    · obtain ⟨job, -, -, -, rfl⟩ := updateIfStatus_some ‹_›
      rcases List.mem_append.mp h with hold | hnew
      · exact .inl hold
      · split at hnew
        · rw [List.mem_singleton.mp hnew]
          exact .inr rfl
        · cases hnew
    · exact .inl h
  | resumeIfInactive i values action =>
    simp only [perform] at h
    split at h
    · exact .inl h
    · rcases List.mem_append.mp h with hold | hnew
      · exact .inl hold
      · rw [List.mem_singleton.mp hnew]
        exact .inr rfl
  | getJob | updateJob | finalizeJob | consume | isActive | deleteJobRecord | pushKernel =>
    exact .inl h
  | call call =>
    cases call with
    | pollKernel | kernelStatus => exact .inl h
    | _ => exact absurd rfl hquiet
  | _ => exact absurd rfl hquiet

theorem puts_of_quiet {o : RelayOp} (h : o.touches = false) : puts o = none := by
  cases o <;> first | rfl | cases h

theorem puts_workerOp {p : WorkerPhase} {o : RelayOp} (h : WorkerOp id p o) : puts o = none := by
  cases h with
  | quiet _ h => exact puts_of_quiet h
  | _ => rfl

theorem puts_sectionOp {l : LockPhase} {o : RelayOp} {item : QueueItem} (h : SectionOp id l o)
    (hputs : puts o = some item) : item.action.Sound := by
  cases h with
  | quiet h =>
    rw [puts_of_quiet h] at hputs
    cases hputs
  | enqueue =>
    cases hputs
    exact Relay.sound_process
  | requeue =>
    cases hputs
    exact Relay.sound_recheckDataset
  | resume _ hs =>
    cases hputs
    exact hs
  | _ => cases hputs

theorem puts_looseOp {p : LoosePhase} {o : RelayOp} {item : QueueItem} (h : LooseOp id p o)
    (hputs : puts o = some item) : item.action.Sound := by
  cases h with
  | quiet h =>
    rw [puts_of_quiet h] at hputs
    cases hputs
  | bind =>
    cases hputs
    exact Relay.sound_process
  | _ => cases hputs

/-- What an operation leaves in the queue. -/
theorem items_perform (h : ∀ item ∈ w.queue, item.action.Sound) {o : RelayOp} {r : o.Res}
    (hperform : perform s c o w = (r, w'))
    (hputs : ∀ item, puts o = some item → item.action.Sound) :
    ∀ item ∈ w'.queue, item.action.Sound := by
  intro item hitem
  have hmem : item ∈ (perform s c o w).2.queue := by rwa [hperform]
  rcases queue_perform hmem with hold | hnew
  · exact h item hold
  · exact hputs item hnew

theorem frame_of_perform {o : RelayOp} {r : o.Res} (h : On id o)
    (hperform : perform s c o w = (r, w')) : Frame id w w' := by
  have hframe := frame_perform (s := s) (c := c) (w := w) h
  rwa [hperform] at hframe

/-! ### A task's step -/

theorem view_setWorker {x : JobId} {p : WorkerPhase} {t : Option Task} (hx : x ≠ id) :
    ({ w with active := Function.update w.active id t } : World).view (ph.setWorker id p) x =
      w.view ph x := by
  simp only [view, Phases.setWorker, Function.update_of_ne hx]

/-- **A step of a task.** -/
theorem inv_worker (h : Inv w ph) (hserving : w.recovery = none) {t : Task}
    (ht : w.active id = some t) (hs : workerStep s c w id t = some w') :
    ∃ ph', Inv w' ph' ∧ Moves (w.side (.worker id c)) w w' ph ph' := by
  obtain ⟨o, k, hprogram⟩ : ∃ o k, t.program = .op o k := by
    unfold workerStep at hs
    split at hs
    · exact ⟨_, _, ‹_›⟩
    · cases hs
  simp only [workerStep, hprogram] at hs
  obtain ⟨⟨p, w₁⟩, hadvance, rfl⟩ := Option.map_eq_some_iff.mp hs
  obtain ⟨o', k', r, heq, hperform, hlegal, rfl⟩ := advance_some hadvance
  cases heq
  have hfollows := h.worker id t ht
  rw [hprogram] at hfollows
  obtain ⟨hop, hrest⟩ := hfollows.of_op
  have hop : WorkerOp id (ph.worker id) o := hop
  have hframe := frame_of_perform (workerOp_on hop) hperform
  have hv := h.coupled id
  have hd : (w.view ph id).driver = some ⟨ph.worker id, t.gaveUp, returned t.program⟩ := by
    simp only [view, ht, Option.map_some]
  have hret : returned t.program = false := by
    rw [hprogram]
    rfl
  have hlegal' : legal o (perform s c o w).1 = true := by rwa [hperform]
  have hanswers := workerAnswers_perform hv hd rfl hop hlegal'
  rw [hperform] at hanswers
  have hfollows' : Follows (worker id) (fun _ p => p.final = true) (k r)
      (workerAfter (ph.worker id) o r) := hrest r hanswers
  have hfinal : returned (k r) = true → (workerAfter (ph.worker id) o r).final = true := by
    intro hr
    rcases hk : k r with a | _ | _
    · rw [hk] at hfollows'
      exact hfollows'.of_pure
    · rw [hk] at hr
      cases hr
    · rw [hk] at hr
      cases hr
  have hself := move_of_workerOp (σ := w.side (.worker id c)) hd rfl hv hret hop hperform hanswers
    (k r) hfinal fun hparks values job ho => by
      refine hparks id values job ?_
      rw [performs, ht, Option.bind_some, hprogram, nextOp, ho]
  refine ⟨ph.setWorker id (workerAfter (ph.worker id) o r), ?_⟩
  have hmoves : Moves (w.side (.worker id c)) w
      { w₁ with
        active := Function.update w₁.active id
          (some { t with program := k r, gaveUp := t.gaveUp || givesUp o (k r) }) }
      ph (ph.setWorker id (workerAfter (ph.worker id) o r)) := by
    refine moves_of_others id (fun x hx => ?_) (.inr ?_)
    · rw [view_setWorker hx]
      exact hframe.view ph hx
    · simpa only [afterTask, view, Phases.setWorker, Function.update_self, Option.map_some] using hself
  refine ⟨inv_of_moves h hmoves ?_ ?_ ?_ ?_ ?_ ?_ ?_, hmoves⟩
  · exact hframe.ids ▸ h.ids
  · intro x t' hx
    by_cases hxid : x = id
    · subst hxid
      simp only [Function.update_self, Option.some.injEq] at hx
      subst hx
      simpa only [Phases.setWorker, Function.update_self] using hfollows'
    · simp only [Function.update_of_ne hxid, hframe.active] at hx
      simpa only [Phases.setWorker, Function.update_of_ne hxid] using h.worker x t' hx
  · intro x p hx
    exact h.sections x p (hframe.sections ▸ hx)
  · intro p hp
    exact .inl (hframe.loose ▸ hp)
  · show ∀ item ∈ w₁.queue, item.action.Sound
    refine items_perform h.items hperform fun item hitem => ?_
    rw [puts_workerOp hop] at hitem
    cases hitem
  · intro account item hitem
    exact h.pending account item (hframe.pending ▸ hitem)
  · intro r' hr'
    have hnone : w₁.recovery = none := hframe.recovery.trans hserving
    cases hnone.symm.trans hr'

/-- **A step of the holder of a lock.** -/
theorem inv_lock (h : Inv w ph) (hserving : w.recovery = none) {p : Relay Unit}
    (hp : w.sections id = some p) (hs : lockStep s c w id p = some w') :
    ∃ ph', Inv w' ph' ∧ Moves (w.side (.lock id c)) w w' ph ph' := by
  obtain ⟨⟨p', w₁⟩, hadvance, rfl⟩ := Option.map_eq_some_iff.mp hs
  obtain ⟨o, k, r, rfl, hperform, hlegal, rfl⟩ := advance_some hadvance
  obtain ⟨hop, hrest⟩ := (h.sections id _ hp).of_op
  have hop : SectionOp id (ph.lock id) o := hop
  have hframe := frame_of_perform (sectionOp_on hop) hperform
  have hself := move_of_sectionOp (σ := w.side (.lock id c)) rfl (h.coupled id) hop hperform
    (fun hcancels expected nc ek values job ho => by
      refine hcancels id expected nc ek values job ?_
      rw [performs, hp]
      exact congrArg some ho)
    fun hrequeues expected nc values put action job ho => by
      refine hrequeues id expected nc values put action job ?_
      rw [performs, hp]
      exact congrArg some ho
  refine ⟨ph.setLock id (sectionAfter (ph.lock id) o r), ?_⟩
  have hmoves : Moves (w.side (.lock id c)) w
      { w₁ with
        sections := Function.update w₁.sections id (if returned (k r) then none else some (k r)) }
      ph (ph.setLock id (sectionAfter (ph.lock id) o r)) := by
    refine moves_of_others id (fun x hx => ?_) ?_
    · rw [← hframe.view ph hx]
      simp only [view, Phases.setLock, Function.update_of_ne hx]
    · simpa only [HolderMoves, view, Phases.setLock, Function.update_self] using hself
  refine ⟨inv_of_moves h hmoves ?_ ?_ ?_ ?_ ?_ ?_ ?_, hmoves⟩
  · exact hframe.ids ▸ h.ids
  · intro x t hx
    exact h.worker x t (hframe.active ▸ hx)
  · intro x p hx
    by_cases hxid : x = id
    · subst hxid
      simp only [Function.update_self] at hx
      split at hx
      · cases hx
      · cases hx
        have hlock : (ph.setLock x (sectionAfter (ph.lock x) o r)).lock x =
            sectionAfter (ph.lock x) o r := Function.update_self ..
        rw [hlock]
        exact hrest r hlegal
    · simp only [Function.update_of_ne hxid, hframe.sections] at hx
      simpa only [Phases.setLock, Function.update_of_ne hxid] using h.sections x p hx
  · intro p hp'
    exact .inl (hframe.loose ▸ hp')
  · show ∀ item ∈ w₁.queue, item.action.Sound
    exact items_perform h.items hperform fun item hitem =>
      puts_sectionOp hop hitem
  · intro account item hitem
    exact h.pending account item (hframe.pending ▸ hitem)
  · intro r' hr'
    have hnone : w₁.recovery = none := hframe.recovery.trans hserving
    cases hnone.symm.trans hr'

/-- **A step of a program without a lock.** -/
theorem inv_loose (h : Inv w ph) (hserving : w.recovery = none) {n : ℕ} {p : Relay Unit}
    (hp : w.loose[n]? = some p) (hs : looseStep s c w n p = some w') :
    ∃ ph', Inv w' ph' ∧ Moves (w.side (.loose n c)) w w' ph ph' := by
  obtain ⟨⟨p', w₁⟩, hadvance, rfl⟩ := Option.map_eq_some_iff.mp hs
  obtain ⟨o, k, r, rfl, hperform, hlegal, rfl⟩ := advance_some hadvance
  obtain ⟨id, lp, hfollows, hfits⟩ := h.loose _ (List.mem_of_getElem? hp)
  obtain ⟨hop, hrest⟩ := hfollows.of_op
  have hop : LooseOp id lp o := hop
  have hframe := frame_of_perform (looseOp_on hop) hperform
  have hself := move_of_looseOp (σ := w.side (.loose n c)) (h.coupled id) hfits hop hperform
    (fun hcancels expected nc ek values job ho => by
      refine hcancels id expected nc ek values job ?_
      rw [performs, hp]
      exact congrArg some ho)
    (fun hreports expected nc ek values job ho => by
      refine hreports n c rfl id expected nc ek values job ?_
      rw [performs, hp]
      exact congrArg some ho)
    fun hpushed expected nc ek values job ho => by
      refine hpushed n c rfl id expected nc ek values job ?_
      rw [performs, hp]
      exact congrArg some ho
  have hfits' := looseFits_after (h.coupled id) hfits hperform (looseOp_on hop) hself
  have hmoves : Moves (w.side (.loose n c)) w
      { w₁ with loose := if returned (k r) then w₁.loose.eraseIdx n else w₁.loose.set n (k r) }
      ph ph :=
    moves_of_others id (fun x hx => hframe.view ph hx) hself
  refine ⟨ph, inv_of_moves h hmoves ?_ ?_ ?_ ?_ ?_ ?_ ?_, hmoves⟩
  · exact hframe.ids ▸ h.ids
  · intro x t hx
    exact h.worker x t (hframe.active ▸ hx)
  · intro x p hx
    exact h.sections x p (hframe.sections ▸ hx)
  · intro p hp'
    replace hp' : p ∈ if returned (k r) then w₁.loose.eraseIdx n else w₁.loose.set n (k r) := hp'
    rw [hframe.loose] at hp'
    split at hp'
    · exact .inl (List.mem_of_mem_eraseIdx hp')
    · rcases List.mem_or_eq_of_mem_set hp' with hold | rfl
      · exact .inl hold
      · exact .inr ⟨id, _, hrest r hlegal, hfits'⟩
  · show ∀ item ∈ w₁.queue, item.action.Sound
    exact items_perform h.items hperform fun item hitem =>
      puts_looseOp hop hitem
  · intro account item hitem
    exact h.pending account item (hframe.pending ▸ hitem)
  · intro r' hr'
    have hnone : w₁.recovery = none := hframe.recovery.trans hserving
    exact absurd (hnone.symm.trans hr') nofun

/-! ### What the event loop does in memory -/

/-- Where the phases stay as they are, so do the programs. -/
theorem inv_of_memory (h : Inv w ph) (hm : Moves σ w w' ph ph) (hids : w'.ids.Nodup)
    (hactive : ∀ id t, w'.active id = some t → w.active id = some t ∨
      Follows (worker id) (fun _ p => p.final = true) t.program (ph.worker id))
    (hsections : ∀ id p, w'.sections id = some p → w.sections id = some p ∨
      Follows (lockHolder id) (fun _ _ => True) p (ph.lock id))
    (hloose : ∀ p ∈ w'.loose, p ∈ w.loose ∨ ∃ id, Follows (unlocked id) (fun _ _ => True) p .unread)
    (hitems : ∀ item ∈ w'.queue, item.action.Sound)
    (hpending : ∀ account, ∀ item ∈ w'.pending account, item.action.isResume = false)
    (hserving : w'.recovery = none) : Inv w' ph := by
  refine inv_of_moves h hm hids ?_ ?_ ?_ hitems hpending ?_
  · intro id t ht
    rcases hactive id t ht with hold | hnew
    · exact h.worker id t hold
    · exact hnew
  · intro id p hp
    rcases hsections id p hp with hold | hnew
    · exact h.sections id p hold
    · exact hnew
  · intro p hp
    rcases hloose p hp with hold | ⟨id, hnew⟩
    · exact .inl hold
    · exact .inr ⟨id, .unread, hnew, trivial⟩
  · intro r hr
    rw [hserving] at hr
    cases hr

theorem core_createdJob (d : Declared) (datasetRef kernelRef keyId : String) (reserved : ℕ) :
    (createdJob d datasetRef kernelRef keyId reserved).core.retained = false := by
  show retainedError "" = false
  rfl

/-- **A job is created.** -/
theorem inv_create (h : Inv w ph) (hserving : w.recovery = none) (hnew : id ∉ w.ids) (d : Declared)
    (datasetRef kernelRef keyId : String) (reserved : ℕ) :
    Inv { w with
        ids := w.ids ++ [id]
        jobs := Function.update w.jobs id (some (createdJob d datasetRef kernelRef keyId reserved)) } ph ∧
      Moves σ w { w with
        ids := w.ids ++ [id]
        jobs := Function.update w.jobs id (some (createdJob d datasetRef kernelRef keyId reserved)) }
        ph ph := by
  have hmoves : Moves σ w { w with
      ids := w.ids ++ [id]
      jobs := Function.update w.jobs id (some (createdJob d datasetRef kernelRef keyId reserved)) }
      ph ph := by
    refine moves_of_others id (fun x hx => ?_) (.inr ?_)
    · simp only [view, Function.update_of_ne hx, List.mem_append, List.mem_singleton, hx, or_false]
    · have hknown : (w.view ph id).known = false := by simpa only [view, holds_eq_false] using hnew
      have hview : ({ w with
          ids := w.ids ++ [id]
          jobs := Function.update w.jobs id
            (some (createdJob d datasetRef kernelRef keyId reserved)) } : World).view ph id =
          { w.view ph id with
            known := true
            row := some (createdJob d datasetRef kernelRef keyId reserved).core } := by
        simp only [view, Function.update_self, Option.map_some, View.mk.injEq, and_true]
        exact holds_eq_true.mpr (List.mem_append_right _ (List.mem_singleton.mpr rfl))
      rw [hview]
      exact .create hknown rfl ⟨rfl, rfl, core_createdJob _ _ _ _ _⟩
  refine ⟨inv_of_memory h hmoves ?_ (fun _ _ h => .inl h) (fun _ _ h => .inl h) (fun _ h => .inl h)
    h.items h.pending hserving, hmoves⟩
  exact List.nodup_append.mpr ⟨h.ids, List.nodup_cons.mpr ⟨List.not_mem_nil, .nil⟩, by
    intro a ha b hb
    rw [List.mem_singleton.mp hb]
    exact fun heq => hnew (heq ▸ ha)⟩

/-- **A request begins.** -/
theorem inv_begin (h : Inv w ph) (hserving : w.recovery = none) (request : Request) :
    Inv { w with sections := Function.update w.sections id (some (request.program s id)) } ph ∧
      Moves σ w { w with sections := Function.update w.sections id (some (request.program s id)) }
        ph ph := by
  have hmoves : Moves σ w
      { w with sections := Function.update w.sections id (some (request.program s id)) } ph ph :=
    fun _ => .inl rfl
  refine ⟨inv_of_memory h hmoves h.ids (fun _ _ h => .inl h) ?_ (fun _ h => .inl h) h.items h.pending
    hserving, hmoves⟩
  intro x p hx
  by_cases hxid : x = id
  · subst hxid
    simp only [Function.update_self, Option.some.injEq] at hx
    subst hx
    exact .inr (follows_request s x request _)
  · simp only [Function.update_of_ne hxid] at hx
    exact .inl hx

/-- **A callback or a tick of the account scheduler begins.** -/
theorem inv_beginLoose (h : Inv w ph) (hserving : w.recovery = none) (request : LooseRequest) :
    Inv { w with loose := w.loose ++ [request.program s id] } ph ∧
      Moves σ w { w with loose := w.loose ++ [request.program s id] } ph ph := by
  have hmoves : Moves σ w { w with loose := w.loose ++ [request.program s id] } ph ph :=
    fun _ => .inl rfl
  refine ⟨inv_of_memory h hmoves h.ids (fun _ _ h => .inl h) (fun _ _ h => .inl h) ?_ h.items h.pending
    hserving, hmoves⟩
  intro p hp
  rcases List.mem_append.mp hp with hold | hnew
  · exact .inl hold
  · rw [List.mem_singleton.mp hnew]
    exact .inr ⟨id, follows_looseRequest s id request⟩

/-- **A worker leaves**, and what waited for its account is queued again. -/
theorem inv_leave (h : Inv w ph) (hserving : w.recovery = none) {t : Task}
    (ht : w.active id = some t) (hreturned : returned t.program = true) :
    Inv (w.leave id t) ph ∧ Moves σ w (w.leave id t) ph ph := by
  have hflush : ∀ x, (w.view ph x).Flushes ((w.leave id t).view ph x).process
      ((w.leave id t).view ph x).pending := by
    intro x
    have hpending : ((w.leave id t).view ph x).pending = true ↔
        ∃ account, account ≠ t.account ∧ ∃ item ∈ w.pending account, item.jobId = x := by
      simp only [view, leave, holds_eq_true]
      constructor
      · rintro ⟨account, item, hitem, hx⟩
        by_cases ha : account = t.account
        · rw [ha, Function.update_self] at hitem
          cases hitem
        · rw [Function.update_of_ne ha] at hitem
          exact ⟨account, ha, item, hitem, hx⟩
      · rintro ⟨account, ha, item, hitem, hx⟩
        exact ⟨account, item, by rwa [Function.update_of_ne ha], hx⟩
    have hprocess : ((w.leave id t).view ph x).process = true ↔ (w.view ph x).process = true ∨
        ∃ item ∈ w.pending t.account, item.jobId = x := by
      simp only [view, leave, holds_eq_true, List.mem_append]
      constructor
      · rintro ⟨item, hold | hnew, hx⟩
        · exact .inl ⟨item, hold, hx⟩
        · exact .inr ⟨item, hnew, hx.1⟩
      · rintro (⟨item, hitem, hx⟩ | ⟨item, hitem, hx⟩)
        · exact ⟨item, .inl hitem, hx⟩
        · exact ⟨item, .inr hitem, hx, h.pending _ _ hitem⟩
    have hwaits : (w.view ph x).pending = true ↔ ∃ account, ∃ item ∈ w.pending account, item.jobId = x := by
      simp only [view, holds_eq_true]
    refine ⟨fun hp => hprocess.mpr (.inl hp), fun hp => ?_, fun hp => ?_, fun hp => ?_⟩
    · obtain ⟨account, item, hitem, hx⟩ := hwaits.mp hp
      by_cases ha : account = t.account
      · exact .inr (hprocess.mpr (.inr ⟨item, ha ▸ hitem, hx⟩))
      · exact .inl (hpending.mpr ⟨account, ha, item, hitem, hx⟩)
    · obtain ⟨account, -, hitem⟩ := hpending.mp hp
      exact hwaits.mpr ⟨account, hitem⟩
    · rcases hprocess.mp hp with hold | hnew
      · exact .inl hold
      · exact .inr (hwaits.mpr ⟨_, hnew⟩)
  have hresume : ∀ x, ((w.leave id t).view ph x).resume = (w.view ph x).resume := by
    intro x
    rw [Bool.eq_iff_iff]
    simp only [view, leave, holds_eq_true, List.mem_append]
    constructor
    · rintro ⟨item, hold | hnew, hx⟩
      · exact ⟨item, hold, hx⟩
      · rw [h.pending _ _ hnew] at hx
        cases hx.2
    · rintro ⟨item, hitem, hx⟩
      exact ⟨item, .inl hitem, hx⟩
  have hmoves : Moves σ w (w.leave id t) ph ph := by
    intro x
    refine .inr ?_
    by_cases hx : x = id
    · subst hx
      have hview : (w.leave x t).view ph x = { w.view ph x with
          driver := none
          process := ((w.leave x t).view ph x).process
          pending := ((w.leave x t).view ph x).pending } := by
        rw [View.mk.injEq]
        refine ⟨rfl, rfl, ?_, rfl, rfl, hresume x, rfl, rfl, rfl⟩
        simp only [view, leave, Function.update_self, Option.map_none]
      have hd : (w.view ph x).driver = some ⟨ph.worker x, t.gaveUp, true⟩ := by
        simp only [view, ht, Option.map_some, hreturned]
      rw [hview]
      exact .leave hd rfl (hflush x)
    · have hview : (w.leave id t).view ph x = { w.view ph x with
          process := ((w.leave id t).view ph x).process
          pending := ((w.leave id t).view ph x).pending } := by
        rw [View.mk.injEq]
        refine ⟨rfl, rfl, ?_, rfl, rfl, hresume x, rfl, rfl, rfl⟩
        simp only [view, leave, Function.update_of_ne hx]
      rw [hview]
      exact .flush (hflush x)
  refine ⟨inv_of_memory h hmoves h.ids (fun x t' hx => ?_) (fun _ _ h => .inl h) (fun _ h => .inl h) ?_
    ?_ hserving, hmoves⟩
  · by_cases hxid : x = id
    · simp only [leave, hxid, Function.update_self] at hx
      cases hx
    · simp only [leave, Function.update_of_ne hxid] at hx
      exact .inl hx
  · intro item hitem
    rcases List.mem_append.mp hitem with hold | hnew
    · exact h.items item hold
    · intro status hstatus
      have hresume := h.pending _ _ hnew
      rw [hstatus] at hresume
      cases hresume
  · intro account item hitem
    by_cases ha : account = t.account
    · simp only [leave, ha, Function.update_self] at hitem
      cases hitem
    · simp only [leave, Function.update_of_ne ha] at hitem
      exact h.pending account item hitem

/-! ### The worker loop takes an item -/

/-- A task has something to do. -/
theorem returned_runWorkerItem {action : QueueAction} (hsound : action.Sound) :
    returned (Relay.runWorkerItem s id action) = false := by
  have hfollows := follows_runWorkerItem s id hsound
  by_contra hne
  have hpure : ∃ a, Relay.runWorkerItem s id action = .pure a := by
    rcases hp : Relay.runWorkerItem s id action with a | _ | _
    · exact ⟨a, rfl⟩
    · exact absurd (by rw [hp]; rfl) hne
    · exact absurd (by rw [hp]; rfl) hne
  obtain ⟨a, hp⟩ := hpure
  rw [hp] at hfollows
  have hfinal : action.phase.final = true := hfollows.of_pure
  unfold QueueAction.phase at hfinal
  split at hfinal <;> cases hfinal

section Take

variable {item : QueueItem} {rest : List QueueItem} (hqueue : w.queue = item :: rest)
include hqueue

/-- The items of the other jobs stay. -/
theorem flags_take (x : JobId) (b : Bool) :
    (∃ i ∈ w.queue, i.jobId = x ∧ i.action.isResume = b) ↔
      (item.jobId = x ∧ item.action.isResume = b) ∨ ∃ i ∈ rest, i.jobId = x ∧ i.action.isResume = b := by
  rw [hqueue]
  exact List.exists_mem_cons_iff ..

theorem process_take {x : JobId} (h : (({ w with queue := rest } : World).view ph x).process = true) :
    (w.view ph x).process = true := by
  simp only [view, holds_eq_true] at h ⊢
  exact (flags_take hqueue x false).mpr (.inr h)

theorem resume_take {x : JobId} (h : (({ w with queue := rest } : World).view ph x).resume = true) :
    (w.view ph x).resume = true := by
  simp only [view, holds_eq_true] at h ⊢
  exact (flags_take hqueue x true).mpr (.inr h)

variable (ph) in
theorem view_take_other {x : JobId} (hx : item.jobId ≠ x) :
    ({ w with queue := rest } : World).view ph x = w.view ph x := by
  have hflag : ∀ b, (∃ i ∈ w.queue, i.jobId = x ∧ i.action.isResume = b) ↔
      ∃ i ∈ rest, i.jobId = x ∧ i.action.isResume = b := by
    intro b
    rw [flags_take hqueue x b]
    exact or_iff_right fun hitem => hx hitem.1
  simp only [view, hflag]

/-- The item that leaves is the job's last one of its kind. -/
theorem last_take {x : JobId} {b : Bool} (hold : ∃ i ∈ w.queue, i.jobId = x ∧ i.action.isResume = b)
    (hnew : ¬∃ i ∈ rest, i.jobId = x ∧ i.action.isResume = b) :
    item.jobId = x ∧ item.action.isResume = b :=
  ((flags_take hqueue x b).mp hold).resolve_right hnew

theorem items_take (h : Inv w ph) : ∀ i ∈ rest, i.action.Sound :=
  fun i hi => h.items i (hqueue ▸ List.mem_cons_of_mem _ hi)

/-- A stale item, one of an active job and one of a job without an account are
dropped. -/
theorem inv_drop (h : Inv w ph) (hserving : w.recovery = none)
    (hstale : ∀ job, w.jobs item.jobId = some job → job.status ∉ queueItemExpectedStatuses item ∨
      (w.active item.jobId).isSome = true ∨ awaitingAssignment job = true) :
    Inv { w with queue := rest } ph ∧ Moves σ w { w with queue := rest } ph ph := by
  have hstays : ∀ x c b, item.jobId = x ∧ item.action.isResume = b → (w.view ph x).row = some c →
      c.status ∈ queueItemExpectedStatuses item → c.awaiting = false → (w.view ph x).driver ≠ none := by
    rintro _ c b ⟨rfl, -⟩ hc hs hw hd
    obtain ⟨job, hjob, rfl⟩ := jobs_of_row hc
    rcases hstale job hjob with hne | hactive | hwaits
    · exact hne hs
    · have hnone : w.active item.jobId = none := by
        simpa only [view, Option.map_eq_none_iff] using hd
      rw [hnone] at hactive
      cases hactive
    · cases hwaits.symm.trans hw
  have hmoves : Moves σ w { w with queue := rest } ph ph := by
    intro x
    have hview : ({ w with queue := rest } : World).view ph x = { w.view ph x with
        process := (({ w with queue := rest } : World).view ph x).process
        resume := (({ w with queue := rest } : World).view ph x).resume } := rfl
    rw [hview]
    refine .inr (.discard (process_take hqueue) (resume_take hqueue) (fun hold hnew c hc hs hw => ?_)
      fun hold hnew c hc hs hw => ?_)
    · have hlast := last_take hqueue (holds_eq_true.mp hold) (holds_eq_false.mp hnew)
      refine hstays x c false hlast hc ?_ hw
      rw [queueItemExpectedStatuses, hlast.2, hs]
      exact List.mem_singleton.mpr rfl
    · have hlast := last_take hqueue (holds_eq_true.mp hold) (holds_eq_false.mp hnew)
      refine hstays x c true hlast hc ?_ hw
      rw [queueItemExpectedStatuses, hlast.2, hs]
      decide
  exact ⟨inv_of_memory h hmoves h.ids (fun _ _ h => .inl h) (fun _ _ h => .inl h) (fun _ h => .inl h)
    (items_take hqueue h) h.pending hserving, hmoves⟩

/-- A job whose account is full waits for it. -/
theorem inv_pend (h : Inv w ph) (hserving : w.recovery = none) {job : Job} {account : String}
    (hjob : w.jobs item.jobId = some job) (hexpected : job.status ∈ queueItemExpectedStatuses item)
    (hidle : w.active item.jobId = none) (hprocess : item.action.isResume = false) {f : Job → Job}
    (hf : (f job).core = job.core) :
    Inv { ({ w with queue := rest } : World).modifyJob item.jobId f with
        pending := Function.update w.pending account (addPending item (w.pending account)) } ph ∧
      Moves σ w { ({ w with queue := rest } : World).modifyJob item.jobId f with
        pending := Function.update w.pending account (addPending item (w.pending account)) } ph ph := by
  have hadd : ∀ i, i ∈ addPending item (w.pending account) →
      i = item ∨ (i ∈ w.pending account) := by
    intro i hi
    unfold addPending at hi
    split at hi
    · obtain ⟨old, hold, heq⟩ := List.mem_map.mp hi
      split at heq
      · exact .inl heq.symm
      · exact .inr (heq ▸ hold)
    · rcases List.mem_append.mp hi with hold | hnew
      · exact .inr hold
      · exact .inl (List.mem_singleton.mp hnew)
  have hkeep : ∀ i ∈ w.pending account, ∃ j ∈ addPending item (w.pending account), j.jobId = i.jobId := by
    intro i hi
    unfold addPending
    split
    · refine ⟨_, List.mem_map.mpr ⟨i, hi, rfl⟩, ?_⟩
      split
      · exact Eq.symm ‹_›
      · rfl
    · exact ⟨i, List.mem_append_left _ hi, rfl⟩
  have hnew : ∃ j ∈ addPending item (w.pending account), j.jobId = item.jobId := by
    unfold addPending
    split
    · obtain ⟨old, hold, heq⟩ := List.any_eq_true.mp ‹_›
      refine ⟨_, List.mem_map.mpr ⟨old, hold, rfl⟩, ?_⟩
      rw [if_pos (beq_iff_eq.mp heq)]
    · exact ⟨item, List.mem_append_right _ (List.mem_singleton.mpr rfl), rfl⟩
  have hrow : (w.view ph item.jobId).row = some job.core := view_row hjob
  have hmoves : Moves σ w { ({ w with queue := rest } : World).modifyJob item.jobId f with
      pending := Function.update w.pending account (addPending item (w.pending account)) } ph ph := by
    refine moves_of_others item.jobId (fun x hx => ?_) (.inr ?_)
    · have hwaits : (∃ a, ∃ i ∈ Function.update w.pending account
            (addPending item (w.pending account)) a, i.jobId = x) ↔
          ∃ a, ∃ i ∈ w.pending a, i.jobId = x := by
        constructor
        · rintro ⟨a, i, hi, rfl⟩
          by_cases ha : a = account
          · rw [ha, Function.update_self] at hi
            exact ⟨account, i, (hadd i hi).resolve_left fun heq => hx (by rw [heq]), rfl⟩
          · rw [Function.update_of_ne ha] at hi
            exact ⟨a, i, hi, rfl⟩
        · rintro ⟨a, i, hi, rfl⟩
          by_cases ha : a = account
          · obtain ⟨j, hj, hjx⟩ := hkeep i (ha ▸ hi)
            exact ⟨account, j, by rwa [Function.update_self], hjx⟩
          · exact ⟨a, i, by rwa [Function.update_of_ne ha], rfl⟩
      rw [← view_take_other ph hqueue (Ne.symm hx)]
      simp only [view, modifyJob, Function.update_of_ne hx, hwaits]
    · have hview : ({ ({ w with queue := rest } : World).modifyJob item.jobId f with
            pending := Function.update w.pending account (addPending item (w.pending account)) } :
            World).view ph item.jobId = { w.view ph item.jobId with
          process := (({ w with queue := rest } : World).view ph item.jobId).process
          pending := true } := by
        rw [View.mk.injEq]
        refine ⟨rfl, ?_, rfl, rfl, rfl, ?_, ?_, rfl, rfl⟩
        · simp only [view, modifyJob, Function.update_self, hjob, Option.map_some, hf]
        · rw [Bool.eq_iff_iff]
          refine ⟨resume_take hqueue, fun hold => ?_⟩
          by_contra hne
          have hlast := last_take hqueue (holds_eq_true.mp hold) fun h => hne (holds_eq_true.mpr h)
          rw [hprocess] at hlast
          cases hlast.2
        · obtain ⟨j, hj, hjx⟩ := hnew
          have hj' : j ∈ Function.update w.pending account (addPending item (w.pending account))
              account := by rwa [Function.update_self]
          exact holds_eq_true.mpr ⟨account, j, hj', hjx⟩
      rw [hview]
      refine .pend ?_ hrow ?_ (process_take hqueue)
      · simp only [view, hidle, Option.map_none]
      · rw [queueItemExpectedStatuses, hprocess] at hexpected
        exact List.mem_singleton.mp hexpected
  refine ⟨inv_of_memory h hmoves h.ids (fun _ _ h => .inl h) (fun _ _ h => .inl h) (fun _ h => .inl h)
    (items_take hqueue h) ?_ hserving, hmoves⟩
  intro a i hi
  by_cases ha : a = account
  · simp only [ha, Function.update_self] at hi
    rcases hadd i hi with rfl | hold
    · exact hprocess
    · exact h.pending account i hold
  · simp only [Function.update_of_ne ha] at hi
    exact h.pending a i hi

/-- A job whose account is free gets a task. -/
theorem inv_start (h : Inv w ph) (hserving : w.recovery = none) {job : Job} {account : String}
    {n : ℕ} (hjob : w.jobs item.jobId = some job)
    (hexpected : job.status ∈ queueItemExpectedStatuses item) (hidle : w.active item.jobId = none)
    (hassigned : awaitingAssignment job = false) :
    Inv { w with
        queue := rest
        active := Function.update w.active item.jobId
          (some ⟨account, item.action, Relay.runWorkerItem s item.jobId item.action, false⟩)
        accounts := Function.update w.accounts account n } (ph.setWorker item.jobId item.action.phase) ∧
      Moves σ w { w with
        queue := rest
        active := Function.update w.active item.jobId
          (some ⟨account, item.action, Relay.runWorkerItem s item.jobId item.action, false⟩)
        accounts := Function.update w.accounts account n } ph
        (ph.setWorker item.jobId item.action.phase) := by
  have hrow : (w.view ph item.jobId).row = some job.core := view_row hjob
  have hsound : item.action.Sound := h.items item (hqueue ▸ List.mem_cons_self)
  have hfollows := follows_runWorkerItem s item.jobId hsound
  have hmoves : Moves σ w { w with
      queue := rest
      active := Function.update w.active item.jobId
        (some ⟨account, item.action, Relay.runWorkerItem s item.jobId item.action, false⟩)
      accounts := Function.update w.accounts account n } ph
      (ph.setWorker item.jobId item.action.phase) := by
    refine moves_of_others item.jobId (fun x hx => ?_) (.inr ?_)
    · rw [← view_take_other ph hqueue (Ne.symm hx)]
      simp only [view, Phases.setWorker, Function.update_of_ne hx]
    · have hreturned : returned (Relay.runWorkerItem s item.jobId item.action) = false :=
        returned_runWorkerItem hsound
      have hview : ({ w with
            queue := rest
            active := Function.update w.active item.jobId
              (some ⟨account, item.action, Relay.runWorkerItem s item.jobId item.action, false⟩)
            accounts := Function.update w.accounts account n } : World).view
            (ph.setWorker item.jobId item.action.phase) item.jobId = { w.view ph item.jobId with
          driver := some ⟨item.action.phase, false, false⟩
          process := (({ w with queue := rest } : World).view ph item.jobId).process
          resume := (({ w with queue := rest } : World).view ph item.jobId).resume } := by
        simp only [view, Phases.setWorker, Function.update_self, Option.map_some, hreturned]
      rw [hview]
      refine .accept ?_ hrow hassigned ?_ (process_take hqueue) (resume_take hqueue)
      · simp only [view, hidle, Option.map_none]
      · have hflag : ∃ i ∈ w.queue, i.jobId = item.jobId ∧ i.action.isResume = item.action.isResume :=
          (flags_take hqueue _ _).mpr (.inl ⟨rfl, rfl⟩)
        unfold queueItemExpectedStatuses at hexpected
        unfold QueueAction.phase
        by_cases hr : item.action.isResume = true
        · rw [if_pos hr] at hexpected ⊢
          rw [hr] at hflag
          simp only [List.mem_cons, List.not_mem_nil, or_false] at hexpected
          refine .inr ⟨holds_eq_true.mpr hflag, ?_, ?_, rfl⟩ <;>
            rcases hexpected with hs | hs | hs | hs <;>
            simp [Job.core, hs, Status.submitted, Status.terminal]
        · rw [if_neg hr] at hexpected ⊢
          rw [Bool.eq_false_iff.mpr hr] at hflag
          exact .inl ⟨holds_eq_true.mpr hflag, List.mem_singleton.mp hexpected, rfl⟩
  refine ⟨inv_of_moves h hmoves h.ids ?_ h.sections (fun _ h => .inl h) (items_take hqueue h) h.pending
    ?_, hmoves⟩
  · intro x t hx
    by_cases hxid : x = item.jobId
    · subst hxid
      simp only [Function.update_self, Option.some.injEq] at hx
      subst hx
      have hphase : (ph.setWorker item.jobId item.action.phase).worker item.jobId = item.action.phase :=
        Function.update_self ..
      rw [hphase]
      exact hfollows
    · simp only [Function.update_of_ne hxid] at hx
      simpa only [Phases.setWorker, Function.update_of_ne hxid] using h.worker x t hx
  · intro r hr
    cases hserving.symm.trans hr

/-- **The worker loop takes an item.** -/
theorem inv_take (h : Inv w ph) (hserving : w.recovery = none) (account : String) :
    ∃ ph', Inv (take s { w with queue := rest } item account) ph' ∧
      Moves σ w (take s { w with queue := rest } item account) ph ph' := by
  have hdrop := inv_drop (σ := σ) hqueue h hserving
  unfold take
  cases hjob : w.jobs item.jobId with
  | none =>
    exact ⟨ph, hdrop fun job hjob' => by
      rw [hjob] at hjob'
      cases hjob'⟩
  | some job =>
    dsimp only
    split
    · refine ⟨ph, hdrop fun job' hjob' => ?_⟩
      obtain rfl : job = job' := by simpa only [hjob, Option.some.injEq] using hjob'
      assumption
    · rename_i hfresh
      simp only [not_or, not_not, Bool.not_eq_true, Option.isSome_eq_false_iff,
        Option.isNone_iff_eq_none] at hfresh
      obtain ⟨hexpected, hidle, hassigned⟩ := hfresh
      unfold accept
      split
      · rename_i hfull
        exact ⟨ph, inv_pend hqueue h hserving hjob hexpected hidle hfull.1 rfl⟩
      · exact ⟨_, inv_start hqueue h hserving hjob hexpected hidle hassigned⟩

end Take

/-! ### Crash and recovery -/

/-- Every job is recovered once. -/
theorem nodup_incompleteJobs (h : w.ids.Nodup) : (w.incompleteJobs.map Prod.fst).Nodup := by
  rw [incompleteJobs, List.map_filterMap]
  refine List.Nodup.filterMap (fun a b x ha hb => ?_) h
  have hfst : ∀ i, x ∈ Option.map Prod.fst ((w.jobs i).bind fun job =>
      if running job.status then some (i, job) else none) → x = i := by
    intro i hi
    obtain ⟨⟨i', job'⟩, he, rfl⟩ := Option.map_eq_some_iff.mp hi
    obtain ⟨job, -, hif⟩ := Option.bind_eq_some_iff.mp he
    split at hif
    · cases hif
      rfl
    · cases hif
  rw [← hfst a ha, hfst b hb]

theorem mem_incompleteJobs {e : JobId × Job} (h : e ∈ w.incompleteJobs) :
    running e.2.status = true ∧ w.jobs e.1 = some e.2 := by
  obtain ⟨i, -, hi⟩ := List.mem_filterMap.mp h
  obtain ⟨job, hjob, hif⟩ := Option.bind_eq_some_iff.mp hi
  split at hif
  · cases hif
    exact ⟨‹_›, hjob⟩
  · cases hif

/-- **The relay dies and starts again.** -/
theorem inv_crash (h : Inv w ph) (hrestarts : σ.restarts) :
    Inv w.crash ⟨ph.worker, fun _ => .free⟩ ∧ Moves σ w w.crash ph ⟨ph.worker, fun _ => .free⟩ := by
  have hnone : ∀ b x, holds (∃ item ∈ ([] : List QueueItem), item.jobId = x ∧ item.action.isResume = b) =
      false := by
    intro b x
    rw [holds_eq_false]
    rintro ⟨item, hitem, -⟩
    cases hitem
  have hwaits : ∀ x, holds (∃ account, ∃ item ∈ (fun _ => [] : String → List QueueItem) account,
      item.jobId = x) = false := by
    intro x
    rw [holds_eq_false]
    rintro ⟨account, item, hitem, -⟩
    cases hitem
  have hview : ∀ x, w.crash.view ⟨ph.worker, fun _ => .free⟩ x = { w.view ph x with
      driver := none, lock := .free, process := false, resume := false, pending := false } := by
    intro x
    simp only [view, crash, hnone, hwaits, Option.map_none]
  have hmoves : Moves σ w w.crash ph ⟨ph.worker, fun _ => .free⟩ := by
    intro x
    rw [hview]
    exact .inr (.crash hrestarts)
  refine ⟨inv_of_moves h hmoves h.ids (by rintro _ _ ⟨⟩) (by rintro _ _ ⟨⟩) (by rintro _ ⟨⟩) (by rintro _ ⟨⟩)
    (by rintro _ _ ⟨⟩) fun r hr => ?_, hmoves⟩
  have hr' : r = ⟨w.incompleteJobs, none, []⟩ := Eq.symm (by simpa only [crash, Option.some.injEq] using hr)
  subst hr'
  refine ⟨fun x => ?_, fun _ => rfl, rfl, nodup_incompleteJobs h.ids, fun e he => ?_, by rintro _ ⟨⟩, by rintro _ ⟨⟩,
    fun _ x core hrow hs => ?_⟩
  · rw [hview]
    exact ⟨⟨rfl, rfl, rfl, rfl⟩, rfl⟩
  · exact mem_incompleteJobs he
  · rw [hview] at hrow
    replace hrow : (w.view ph x).row = some core := hrow
    have hknown : x ∈ w.ids := by
      by_contra hne
      obtain ⟨-, hnone, -⟩ := (h.coupled x).unknown (holds_eq_false.mpr hne)
      rw [hrow] at hnone
      cases hnone
    obtain ⟨job, hjob, rfl⟩ := jobs_of_row hrow
    refine .inl ⟨(x, job), List.mem_filterMap.mpr ⟨x, hknown, ?_⟩, rfl⟩
    have hrunning : running job.status = true := by
      rw [show job.status = .queued from hs]
      rfl
    rw [hjob, Option.bind_some, if_pos hrunning]

/-- While the relay recovers, no program but the recovery is in memory. -/
theorem inv_of_recovering (h : Inv w ph) (hm : Moves σ w w' ph ph) (hids : w'.ids = w.ids) (hactive : w'.active = w.active)
    (hsections : w'.sections = w.sections) (hloose : w'.loose = w.loose)
    (hpending : w'.pending = w.pending) (hitems : ∀ item ∈ w'.queue, item.action.Sound)
    (hrecovering : ∀ r', w'.recovery = some r' → Recovering w' ph r') : Inv w' ph := by
  refine inv_of_moves h hm (hids ▸ h.ids) ?_ ?_ ?_ hitems ?_ hrecovering
  · intro x t hx
    exact h.worker x t (hactive ▸ hx)
  · intro x p hx
    exact h.sections x p (hsections ▸ hx)
  · intro p hp
    exact .inl (hloose ▸ hp)
  · intro account item hitem
    exact h.pending account item (hpending ▸ hitem)

section Recover

variable {r : Recovery} (h : Inv w ph) (hrecovery : w.recovery = some r)
include h hrecovery

/-- The recovery of a job takes a step. -/
theorem inv_recoverJob (hrestarts : σ.restarts) {p p' : Relay (Option QueueItem)} {w₁ : World}
    (hp : r.current = some p)
    (hadvance : advance s c p w = some (p', w₁)) :
    Inv { w₁ with recovery := some { r with current := some p' } } ph ∧
      Moves σ w { w₁ with recovery := some { r with current := some p' } } ph ph := by
  obtain ⟨o, k, a, rfl, hperform, hlegal, rfl⟩ := advance_some hadvance
  have hr := h.recovery r hrecovery
  obtain ⟨id, rp, hfollows, hfits, htodo, hitems, hlists⟩ := hr.current _ hp
  obtain ⟨hop, hrest⟩ := hfollows.of_op
  have hop : RecoveryOp id rp o := hop
  have hframe := frame_of_perform (recoveryOp_on hop) hperform
  obtain ⟨hmove, ⟨row, hview⟩, hfits'⟩ :=
    move_of_recoveryOp (hr.quiet id).1 (hr.quiet id).2 hfits hrestarts hop hperform
  have hmoves : Moves σ w { w₁ with recovery := some { r with current := some (k a) } } ph ph :=
    moves_of_others id (fun x hx => hframe.view ph hx) hmove
  have hsound : ∀ item ∈ w₁.queue, item.action.Sound := by
    -- the recovery puts nothing in the queue before it serves
    refine items_perform h.items hperform fun item hitem => ?_
    cases hop with
    | quiet hquiet =>
      rw [puts_of_quiet hquiet] at hitem
      cases hitem
    | _ => cases hitem
  refine ⟨inv_of_recovering h hmoves hframe.ids hframe.active hframe.sections hframe.loose
    hframe.pending hsound fun r' hr' => ?_, hmoves⟩
  · obtain rfl : { r with current := some (k a) } = r' := by simpa using hr'
    have hother : ∀ x, x ≠ id → w₁.view ph x = w.view ph x := fun x hx => hframe.view ph hx
    refine ⟨fun x => ?_, fun x => ?_, hframe.loose.trans hr.loose, hr.nodup, fun e he => ?_,
      fun p hp' => ?_, fun item hitem => ?_, nofun⟩
    · show (w₁.view ph x).Quiet ∧ ph.lock x = .free
      by_cases hx : x = id
      · subst hx
        rw [hview]
        exact hr.quiet x
      · rw [hother x hx]
        exact hr.quiet x
    · rw [← hr.sections x]
      exact congrFun hframe.sections x
    · rw [show w₁.jobs e.1 = w.jobs e.1 from hframe.jobs e.1 (htodo e he)]
      exact hr.todo e he
    · obtain rfl : k a = p := by simpa using hp'
      refine ⟨id, _, hrest a hlegal, hfits', htodo, hitems, fun x c hx hrow hs => ?_⟩
      replace hrow : (w₁.view ph x).row = some c := hrow
      rw [hother x hx] at hrow
      exact hlists x c hx hrow hs
    · show _ ∧ _ ∧ ∃ c, (w₁.view ph item.jobId).row = _ ∧ _ ∧ _
      rw [hother item.jobId (hitems item hitem)]
      exact hr.items item hitem

/-- The recovery of a job is over. -/
theorem inv_recovered {item : Option QueueItem} (hp : r.current = some (.pure (.ok item))) :
    Inv { w with recovery := some ⟨r.todo, none, r.items ++ item.toList⟩ } ph ∧
      Moves σ w { w with recovery := some ⟨r.todo, none, r.items ++ item.toList⟩ } ph ph := by
  have hr := h.recovery r hrecovery
  obtain ⟨id, rp, hfollows, hfits, htodo, hitems, hlists⟩ := hr.current _ hp
  have hrecovers : Recovers id item rp := hfollows.of_pure
  have hmoves : Moves σ w { w with recovery := some ⟨r.todo, none, r.items ++ item.toList⟩ } ph ph :=
    fun _ => .inl rfl
  refine ⟨inv_of_recovering h hmoves rfl rfl rfl rfl rfl h.items fun r' hr' => ?_, hmoves⟩
  obtain rfl : (⟨r.todo, none, r.items ++ item.toList⟩ : Recovery) = r' := by simpa using hr'
  refine ⟨hr.quiet, hr.sections, hr.loose, hr.nodup, hr.todo, nofun, fun i hi => ?_,
    fun _ x c hrow hs => ?_⟩
  · rcases List.mem_append.mp hi with hold | hnew
    · exact hr.items i hold
    · obtain ⟨rfl, hsound, hphase⟩ := hrecovers.item i (by simpa using hnew)
      refine ⟨hsound, htodo, ?_⟩
      show ∃ c, (w.view ph i.jobId).row = some c ∧ c.status.intake = false ∧ _
      rcases hphase with ⟨rfl, hprocess⟩ | ⟨status, rfl, hintake, hresume⟩
      · obtain ⟨c, hc, hs⟩ := hfits
        refine ⟨c, hc, by rw [hs]; rfl, fun hresume => ?_⟩
        rw [hprocess] at hresume
        cases hresume
      · obtain ⟨hlive, c, hc, hs⟩ := hfits
        rw [← hs] at hlive hintake hresume
        exact ⟨c, hc, hintake, fun h => ⟨hresume h, hlive⟩⟩
  · replace hrow : (w.view ph x).row = some c := hrow
    by_cases hx : x = id
    · subst hx
      have hphase : rp = .queued ∨ rp = .live .queued := by
        cases rp with
        | queued => exact .inl rfl
        | live status =>
          obtain ⟨-, c', hc', hs'⟩ := hfits
          rw [hrow, Option.some.injEq] at hc'
          rw [← hs', ← hc', hs]
          exact .inr rfl
        | settled =>
          obtain ⟨c', hc', ht⟩ := hfits
          rw [hrow, Option.some.injEq] at hc'
          rw [← hc', hs] at ht
          cases ht
      obtain ⟨i, hi, hresume⟩ := hrecovers.queued hphase
      exact .inr ⟨i, List.mem_append_right _ (by simpa using hi), (hrecovers.item i hi).1, hresume⟩
    · rcases hlists x c hx hrow hs with htodo' | ⟨i, hi, hi'⟩
      · exact .inl htodo'
      · exact .inr ⟨i, List.mem_append_left _ hi, hi'⟩

/-- The recovery of the next job begins. -/
theorem inv_recoverNext {id : JobId} {job : Job} {todo : List (JobId × Job)}
    (hcurrent : r.current = none) (htodo : r.todo = (id, job) :: todo) :
    Inv { w with
        recovery := some ⟨todo, some (Relay.recoverJobAfterRestart s id job), r.items⟩ } ph ∧
      Moves σ w { w with
        recovery := some ⟨todo, some (Relay.recoverJobAfterRestart s id job), r.items⟩ } ph ph := by
  have hr := h.recovery r hrecovery
  have hmoves : Moves σ w { w with
      recovery := some ⟨todo, some (Relay.recoverJobAfterRestart s id job), r.items⟩ } ph ph :=
    fun _ => .inl rfl
  refine ⟨inv_of_recovering h hmoves rfl rfl rfl rfl rfl h.items fun r' hr' => ?_, hmoves⟩
  obtain rfl : (⟨todo, some (Relay.recoverJobAfterRestart s id job), r.items⟩ : Recovery) = r' := by
    simpa using hr'
  have hhead : (id, job) ∈ r.todo := htodo ▸ List.mem_cons_self
  have htail : ∀ e ∈ todo, e ∈ r.todo := fun e he => htodo ▸ List.mem_cons_of_mem _ he
  have hnodup := hr.nodup
  rw [htodo, List.map_cons, List.nodup_cons] at hnodup
  obtain ⟨hrunning, hjob⟩ := hr.todo _ hhead
  have hrow : (w.view ph id).row = some job.core := view_row hjob
  refine ⟨hr.quiet, hr.sections, hr.loose, hnodup.2, fun e he => hr.todo e (htail e he),
    fun p hp => ?_, fun item hitem => ?_, nofun⟩
  · obtain rfl : Relay.recoverJobAfterRestart s id job = p := by simpa using hp
    refine ⟨id, _, follows_recoverJobAfterRestart s id job, ⟨?_, _, hrow, rfl⟩, fun e he heq => ?_,
      fun item hitem => Ne.symm ((hr.items item hitem).2.1 _ hhead), fun x c hx hrow hs => ?_⟩
    · by_contra hne
      have hterminal : job.status.terminal = true := by simpa using hne
      simp only [running, hterminal, Bool.true_or, Bool.not_true] at hrunning
      cases hrunning
    · exact hnodup.1 (List.mem_map.mpr ⟨e, he, heq⟩)
    · rcases hr.queued hcurrent x c hrow hs with ⟨e, he, rfl⟩ | hitem
      · rw [htodo] at he
        rcases List.mem_cons.mp he with rfl | htail'
        · exact absurd rfl hx
        · exact .inl ⟨e, htail', rfl⟩
      · exact .inr hitem
  · obtain ⟨hsound, hitems, hstatus⟩ := hr.items item hitem
    exact ⟨hsound, fun e he => hitems e (htail e he), hstatus⟩

/-- The relay serves again. -/
theorem inv_serve (hrestarts : σ.restarts) (hprobes : σ.probes → w.FindsPushed) :
    Inv (w.serve r.items) ph ∧ Moves σ w (w.serve r.items) ph ph := by
  have hr := h.recovery r hrecovery
  have hqueue : ∀ item ∈ (w.serve r.items).queue, item ∈ w.queue ∨ item ∈ r.items := by
    intro item hitem
    rcases List.mem_append.mp hitem with hold | hnew
    · exact .inl hold
    · rcases List.mem_append.mp (List.mem_filter.mp hnew).1 with hresume | hother
      · exact .inr (List.mem_filter.mp hresume).1
      · exact .inr (List.mem_filter.mp hother).1
  have hmoves : Moves σ w (w.serve r.items) ph ph := by
    intro x
    obtain ⟨hquiet, hlock⟩ := hr.quiet x
    have hview : (w.serve r.items).view ph x = { w.view ph x with
      process := ((w.serve r.items).view ph x).process
      resume := ((w.serve r.items).view ph x).resume } := rfl
    by_cases hitem : ∃ item ∈ r.items, item.jobId = x
    · obtain ⟨item, hmem, rfl⟩ := hitem
      obtain ⟨-, -, c, hc, hintake, -⟩ := hr.items item hmem
      -- an item that resumes the kernel is one the recovery has found
      have hfound : ((w.serve r.items).view ph item.jobId).resume = true →
          ∃ i ∈ r.items, i.jobId = item.jobId ∧ i.action.isResume = true := by
        intro hresume
        obtain ⟨i, hi, hid, hires⟩ := holds_eq_true.mp hresume
        rcases hqueue i hi with hold | hnew
        · exact absurd ⟨i, hold, hid, hires⟩ (holds_eq_false.mp hquiet.2.2.1)
        · exact ⟨i, hnew, hid, hires⟩
      rw [hview]
      refine .inr (.serve hrestarts hquiet hlock hc hintake (fun hresume => ?_)
        fun hside hresume hdynamic hs => ?_)
      · obtain ⟨i, hi, hid, hires⟩ := hfound hresume
        obtain ⟨-, -, c', hc', -, hsubmitted⟩ := hr.items i hi
        rw [hid, hc] at hc'
        cases hc'
        exact (hsubmitted hires).1
      · obtain ⟨i, hi, hid, hires⟩ := hfound hresume
        obtain ⟨job, hjob, rfl⟩ := jobs_of_row hc
        rw [← hid] at hjob ⊢
        exact pushes_view.mpr (hprobes hside r i job hrecovery hi hires hjob
          (by simpa [Job.core] using hdynamic) hs)
    · have hnone : ∀ b, holds (∃ item ∈ (w.serve r.items).queue,
          item.jobId = x ∧ item.action.isResume = b) = false := by
        intro b
        rw [holds_eq_false]
        rintro ⟨item, hmem, hx, hb⟩
        rcases hqueue item hmem with hold | hnew
        · cases b with
          | false => exact holds_eq_false.mp hquiet.2.1 ⟨item, hold, hx, hb⟩
          | true => exact holds_eq_false.mp hquiet.2.2.1 ⟨item, hold, hx, hb⟩
        · exact hitem ⟨item, hnew, hx⟩
      refine .inl ?_
      have hprocess : ((w.serve r.items).view ph x).process = (w.view ph x).process :=
        (hnone false).trans hquiet.2.1.symm
      have hresume : ((w.serve r.items).view ph x).resume = (w.view ph x).resume :=
        (hnone true).trans hquiet.2.2.1.symm
      rw [hview, hprocess, hresume]
  refine ⟨inv_of_recovering h hmoves rfl rfl rfl rfl rfl (fun item hitem => ?_) ?_, hmoves⟩
  · rcases hqueue item hitem with hold | hnew
    · exact h.items item hold
    · exact (hr.items item hnew).1
  · rintro r' ⟨⟩

/-- **A step of the recovery.** -/
theorem inv_recover (hrestarts : σ.restarts) (hprobes : σ.probes → w.FindsPushed)
    (hs : recoveryStep s c w r = some w') : Inv w' ph ∧ Moves σ w w' ph ph := by
  unfold recoveryStep at hs
  split at hs
  · cases hs
    exact inv_recovered h hrecovery ‹_›
  · obtain ⟨⟨p', w₁⟩, hadvance, rfl⟩ := Option.map_eq_some_iff.mp hs
    exact inv_recoverJob h hrecovery hrestarts ‹_› hadvance
  · cases hs
    exact inv_recoverNext h hrecovery ‹_› ‹_›
  · cases hs
    exact inv_serve h hrecovery hrestarts hprobes

end Recover

/-! ### Steps and runs -/

/-- **Every step keeps the invariant and is a move of every job's view, or
leaves it alone.** -/
theorem inv_step (h : Inv w ph) {a : Action} (hs : step s a w = some w') :
    ∃ ph', Inv w' ph' ∧ Moves (w.side a) w w' ph ph' := by
  unfold step at hs
  split at hs
  case h_1 hserving =>
    cases a with
    | create id d datasetRef kernelRef keyId reserved =>
      simp only [serving] at hs
      split at hs
      · cases hs
      · cases hs
        exact ⟨ph, inv_create h hserving ‹_› d datasetRef kernelRef keyId reserved⟩
    | take account =>
      simp only [serving] at hs
      split at hs
      · cases hs
      · cases hs
        exact inv_take ‹_› h hserving account
    | worker id c =>
      obtain ⟨t, ht, hstep⟩ := Option.bind_eq_some_iff.mp hs
      exact inv_worker h hserving ht hstep
    | leave id =>
      simp only [serving] at hs
      split at hs
      · split at hs
        · cases hs
          exact ⟨ph, inv_leave h hserving ‹_› ‹_›⟩
        · cases hs
      · cases hs
    | begin id request =>
      simp only [serving] at hs
      split at hs
      · cases hs
        exact ⟨ph, inv_begin h hserving request⟩
      · cases hs
    | lock id c =>
      obtain ⟨p, hp, hstep⟩ := Option.bind_eq_some_iff.mp hs
      exact inv_lock h hserving hp hstep
    | beginLoose id request =>
      cases hs
      exact ⟨ph, inv_beginLoose h hserving request⟩
    | loose n c =>
      obtain ⟨p, hp, hstep⟩ := Option.bind_eq_some_iff.mp hs
      exact inv_loose h hserving hp hstep
    | crash =>
      cases hs
      exact ⟨_, inv_crash h (.inl rfl)⟩
    | recover c => cases hs
  case h_2 r hrecovery =>
    have hsome : w.recovery.isSome = true := by rw [hrecovery]; rfl
    cases a with
    | crash =>
      cases hs
      exact ⟨_, inv_crash h (.inl rfl)⟩
    | recover c => exact ⟨ph, inv_recover h hrecovery (.inr hsome) id hs⟩
    | _ => cases hs

theorem inv_empty : Inv empty ⟨fun _ => .fresh false, fun _ => .free⟩ := by
  refine ⟨.nil, fun id => ?_, by rintro _ _ ⟨⟩, by rintro _ _ ⟨⟩, by rintro _ ⟨⟩, by rintro _ ⟨⟩,
    by rintro _ _ ⟨⟩, by rintro _ ⟨⟩⟩
  have hview : empty.view ⟨fun _ => .fresh false, fun _ => .free⟩ id =
      ⟨false, none, none, .free, false, false, false, false, 0⟩ := by
    simp [view, empty, holds]
  rw [hview]
  exact ⟨by rintro _ ⟨⟩, by rintro _ ⟨⟩, by rintro _ ⟨⟩, trivial, Nat.zero_le _, by simp, by rintro _ ⟨⟩,
    fun _ => ⟨⟨rfl, rfl, rfl, rfl⟩, rfl, rfl, rfl, .inl rfl⟩⟩

/-- **The invariant holds in every state a relay reaches.** -/
theorem inv_of_reachable (h : Reachable s w) : ∃ ph, Inv w ph := by
  induction h with
  | empty => exact ⟨_, inv_empty⟩
  | step _ a hs ih =>
    obtain ⟨ph, hinv⟩ := ih
    obtain ⟨ph', hinv', -⟩ := inv_step hinv hs
    exact ⟨ph', hinv'⟩

end World

end KaggleRelay

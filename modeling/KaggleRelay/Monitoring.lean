/-
What the relay has seen where it fails a job whose kernel it monitors.

* `Evidence` — a final failure of the kernel, a query that was refused, a step
  after the kernel's success, or a row that could not be written;
* `evidence_of_finishKernelJob` — an exception of `finish_kernel_job` has it,
  unless it says that the kernel's state is unknown;
* `fails_on_evidence` — no worker item that resumes a kernel fails its job
  without it, however its queries and its updates have gone.
-/
import KaggleRelay.PinnedVersion

namespace KaggleRelay

open Effects

/-- The operation fails its job. -/
def RelayOp.fails : RelayOp → Prop
  | .updateJob _ values | .updateJobIfStatus _ _ _ _ values | .resumeIfInactive _ values _
  | .updateJobIfStatusAndPut _ _ _ values _ _ => values.status = some .failed
  | .finalizeJob _ preferred _ => preferred = .failed
  | _ => False

namespace Relay

variable {s : Settings} {id : JobId} {events : Events} {e : Exc}

/-! ### Evidence -/

/-- Another writer has changed the row between its reading and its update. -/
def Lost (id : JobId) (event : Performed RelaySig) : Prop :=
  ∃ expected nc ek values, event = ⟨.updateJobIfStatus id expected nc ek values, false⟩

/-- A step of the relay on the output of a kernel. -/
def OnOutput : Call → Prop
  | .downloadOutput _ _ | .packageArtifacts _ _ => True
  | _ => False

/-- What a run has met that may fail the job. -/
inductive Evidence (s : Settings) (id : JobId) (events : Events) : Prop
  /-- The provider says that the kernel has failed or was cancelled. -/
  | kernelFailed {kernelRef : String} {observed : KernelObservation} (hfinished : observed.finished = some false)
    (h : ⟨.call (.pollKernel kernelRef), .ok (some observed)⟩ ∈ events)
  /-- A poll has raised something else than that the state is unknown. -/
  | pollRaised {kernelRef : String} {e : Exc} (he : e.cls ≠ .kernelStatusUnavailable)
    (h : ⟨.call (.pollKernel kernelRef), .error e⟩ ∈ events)
  /-- The kernel has succeeded, and a step on its output has failed. -/
  | outputFailed {kernelRef : String} {observed : KernelObservation} {c : Call} {e : Exc}
    (hfinished : observed.finished = some true) (hc : OnOutput c)
    (hseen : ⟨.call (.pollKernel kernelRef), .ok (some observed)⟩ ∈ events) (h : ⟨.call c, .error e⟩ ∈ events)
  /-- The key of the job's account is not to be had. -/
  | keyless {keyId : String} {e : Exc} (h : ⟨.call (.credentialsFor keyId), .error e⟩ ∈ events)
  /-- The row is gone, or names no kernel. -/
  | nameless {found : Option Job} (hfound : (found.map (·.kernelRef)).getD "" = "")
    (h : ⟨.getJob id, found⟩ ∈ events)
  /-- The phase in a row cannot be hashed, and the guard of startup events raises. -/
  | unhashable {current : Job} {data text : String} (hraises : s.ignoreStartupProgress current data = .error text)
    (h : ⟨.getJob id, some current⟩ ∈ events)
  /-- Five updates in a row have met a row that others had changed. -/
  | raced {lost : Events} (hlost : lost.Sublist events) (hlength : lost.length = 5)
    (hall : ∀ event ∈ lost, Lost id event)

theorem Evidence.mono {events' : Events} (h : Evidence s id events) (hsub : events.Sublist events') :
    Evidence s id events' := by
  cases h with
  | kernelFailed hfinished h => exact .kernelFailed hfinished (hsub.subset h)
  | pollRaised he h => exact .pollRaised he (hsub.subset h)
  | outputFailed hfinished hc hseen h => exact .outputFailed hfinished hc (hsub.subset hseen) (hsub.subset h)
  | keyless h => exact .keyless (hsub.subset h)
  | nameless hfound h => exact .nameless hfound (hsub.subset h)
  | unhashable hraises h => exact .unhashable hraises (hsub.subset h)
  | raced hlost hlength hall => exact .raced (hlost.trans hsub) hlength hall

/-! ### The parts -/

/-- The guard raises where the one of startup events does. -/
theorem raises_of_ignoresProgress {current : Job} {values : JobValues}
    (h : ignoresProgress s current values = .error e) :
    ∃ data text, s.ignoreStartupProgress current data = .error text := by
  unfold ignoresProgress at h
  split at h
  · cases h
  · next data _ =>
    cases hignore : s.ignoreStartupProgress current data with
    | error text => exact ⟨data, text, hignore⟩
    | ok ignored =>
      rw [hignore] at h
      cases h

/-- Where `update_finish_status` gives up, every one of its updates was lost; else
the guard of startup events has raised. -/
theorem lost_of_updateFinishStatus {running : Status} {valuesForJob : Job → JobValues} {attempts : ℕ}
    (h : Ran (updateFinishStatus s id running valuesForJob attempts : Prog RelaySig (Except Exc (Option Job))) events
      (.error e)) :
    (∃ lost : Events, lost.Sublist events ∧ lost.length = attempts ∧ ∀ event ∈ lost, Lost id event) ∨
      ∃ current data text, s.ignoreStartupProgress current data = .error text ∧
        ⟨.getJob id, some current⟩ ∈ events := by
  -- every other branch returns; an attempt that loses goes on with one attempt less
  induction attempts generalizing events with
  | zero => exact .inl ⟨[], List.nil_sublist _, rfl, fun _ hmem => absurd hmem List.not_mem_nil⟩
  | succ attempts ih =>
    rcases Ran.of_raised h with hread | ⟨first, rest, found, rfl, hread, hrest⟩
    · obtain ⟨_, ha, -⟩ := Ran.of_answer hread
      cases ha
    · obtain ⟨_, ha, hfirst⟩ := Ran.of_answer hread
      obtain rfl := Except.ok.inj ha
      rcases found with _ | current
      · cases hrest
      · dsimp only at hrest
        split at hrest
        · cases hrest
        · rcases Ran.of_raised hrest with hguard | ⟨guarded, rest', ignored, rfl, hguard, hupdates⟩
          · obtain ⟨data, text, hraises⟩ := raises_of_ignoresProgress (Ran.of_lift hguard).1.symm
            refine .inr ⟨current, data, text, hraises, ?_⟩
            rw [hfirst]
            exact List.mem_cons_self
          · obtain rfl := (Ran.of_lift hguard).2
            split at hupdates
            · cases hupdates
            · rcases Ran.of_raised hupdates with hupdate | ⟨update, after, updated, rfl, hupdate, hafter⟩
              · obtain ⟨_, ha, -⟩ := Ran.of_answer hupdate
                cases ha
              · obtain ⟨_, ha, hevent⟩ := Ran.of_answer hupdate
                obtain rfl := Except.ok.inj ha
                have hsuffix : after.Sublist (first ++ ([] ++ (update ++ after))) :=
                  (List.sublist_append_right _ _).trans (List.sublist_append_right first _)
                rcases updated with _ | _
                · rcases ih hafter with ⟨lost, hsub, hlength, hall⟩ | ⟨current, data, text, hraises, hmem⟩
                  · refine .inl ⟨update ++ lost, ?_, ?_, ?_⟩
                    · exact (hsub.append_left update).trans (List.sublist_append_right first _)
                    · rw [hevent, List.singleton_append, List.length_cons, hlength]
                    · rw [hevent]
                      exact List.forall_mem_cons.mpr ⟨⟨_, _, _, _, rfl⟩, hall⟩
                  · exact .inr ⟨current, data, text, hraises, hsuffix.subset hmem⟩
                · obtain ⟨_, ha, -⟩ := Ran.of_answer hafter
                  cases ha

theorem evidence_of_updateFinishStatus {running : Status} {valuesForJob : Job → JobValues}
    (h : Ran (updateFinishStatus s id running valuesForJob 5 : Prog RelaySig (Except Exc (Option Job))) events
      (.error e)) : Evidence s id events := by
  rcases lost_of_updateFinishStatus h with ⟨lost, hsub, hlength, hall⟩ | ⟨current, data, text, hraises, hmem⟩
  · exact .raced hsub hlength hall
  · exact .unhashable hraises hmem

/-- An exception of `wait_kernel` has evidence, or says that the state is unknown. -/
theorem evidence_of_waitKernel {kernelRef : String} {turns : ℕ}
    (h : Ran (waitKernel s id kernelRef turns : Prog RelaySig (Except Exc String)) events (.error e)) :
    e.cls = .kernelStatusUnavailable ∨ Evidence s id events := by
  -- on the turns: a turn raises in its poll, in its report or on a failed kernel
  induction turns generalizing events with
  | zero => cases h
  | succ turns ih =>
    rcases Ran.of_raised h with hpoll | ⟨first, rest, observed, rfl, hpoll, hrest⟩
    · obtain rfl := Ran.of_perform hpoll
      by_cases he : e.cls = .kernelStatusUnavailable
      · exact .inl he
      · exact .inr (.pollRaised he (List.mem_singleton_self _))
    · have hfirst := Ran.of_perform hpoll
      have hlater : ∀ {later : Events}, later.Sublist rest → Evidence s id later → Evidence s id (first ++ rest) :=
        fun hsub hevidence => hevidence.mono (hsub.trans (List.sublist_append_right _ _))
      have hfailed : ∀ {observed' : KernelObservation}, observed = some observed' →
          observed'.finished = some false → Evidence s id (first ++ rest) := by
        intro observed' hobserved hfinished
        have hmem : (⟨.call (.pollKernel kernelRef), .ok (some observed')⟩ : Performed RelaySig) ∈ first ++ rest := by
          rw [hfirst, hobserved]
          exact List.mem_cons_self
        exact .kernelFailed hfinished hmem
      rcases observed with _ | ⟨output, progress, finished⟩
      · exact (ih hrest).imp_right (hlater (List.Sublist.refl _))
      · rcases progress with _ | ⟨remote, data⟩
        · rcases finished with _ | _ | _
          · exact (ih hrest).imp_right (hlater (List.Sublist.refl _))
          · exact .inr (hfailed rfl rfl)
          · cases hrest
        · rcases Ran.of_raised hrest with hreport | ⟨report, after, _, rfl, -, hafter⟩
          · rcases Ran.of_raised hreport with hupdate | ⟨_, _, _, -, -, hpure⟩
            · exact .inr (hlater (List.Sublist.refl _) (evidence_of_updateFinishStatus hupdate))
            · cases hpure
          · rcases finished with _ | _ | _
            · exact (ih hafter).imp_right (hlater (List.sublist_append_right _ _))
            · exact .inr (hfailed rfl rfl)
            · cases hafter

/-- `wait_kernel` returns on the kernel's success only. -/
theorem finished_of_waitKernel {kernelRef output : String} {turns : ℕ}
    (h : Ran (waitKernel s id kernelRef turns : Prog RelaySig (Except Exc String)) events (.ok output)) :
    ∃ observed : KernelObservation, observed.finished = some true ∧
      ⟨.call (.pollKernel kernelRef), .ok (some observed)⟩ ∈ events := by
  induction turns generalizing events with
  | zero => cases h
  | succ turns ih =>
    obtain ⟨first, rest, observed, rfl, hpoll, hrest⟩ := Ran.of_seq h
    have hfirst := Ran.of_perform hpoll
    have hlater : ∀ {later : Events}, later.Sublist rest →
        (∃ observed : KernelObservation, observed.finished = some true ∧
          ⟨.call (.pollKernel kernelRef), .ok (some observed)⟩ ∈ later) →
        ∃ observed : KernelObservation, observed.finished = some true ∧
          ⟨.call (.pollKernel kernelRef), .ok (some observed)⟩ ∈ first ++ rest := by
      rintro later hsub ⟨observed, hfinished, hmem⟩
      exact ⟨observed, hfinished, List.mem_append_right _ (hsub.subset hmem)⟩
    have hfinished : ∀ {observed' : KernelObservation}, observed = some observed' →
        observed'.finished = some true → ∃ observed : KernelObservation, observed.finished = some true ∧
          ⟨.call (.pollKernel kernelRef), .ok (some observed)⟩ ∈ first ++ rest := by
      intro observed' hobserved hfinished
      refine ⟨observed', hfinished, ?_⟩
      rw [hfirst, hobserved]
      exact List.mem_cons_self
    rcases observed with _ | ⟨text, progress, finished⟩
    · exact hlater (List.Sublist.refl _) (ih hrest)
    · rcases progress with _ | ⟨remote, data⟩
      · rcases finished with _ | _ | _
        · exact hlater (List.Sublist.refl _) (ih hrest)
        · cases hrest
        · exact hfinished rfl rfl
      · obtain ⟨report, after, _, rfl, -, hafter⟩ := Ran.of_seq hrest
        rcases finished with _ | _ | _
        · exact hlater (List.sublist_append_right _ _) (ih hafter)
        · cases hafter
        · exact hfinished rfl rfl

/-- What `update_finish_status` returns is a row that it has read. -/
theorem read_of_updateFinishStatus {running : Status} {valuesForJob : Job → JobValues} {attempts : ℕ}
    {current : Option Job}
    (h : Ran (updateFinishStatus s id running valuesForJob attempts : Prog RelaySig (Except Exc (Option Job))) events
      (.ok current)) : ⟨.getJob id, current⟩ ∈ events := by
  induction attempts generalizing events with
  | zero => cases h
  | succ attempts ih =>
    obtain ⟨first, rest, found, rfl, hread, hrest⟩ := Ran.of_seq h
    obtain ⟨_, ha, hfirst⟩ := Ran.of_answer hread
    obtain rfl := Except.ok.inj ha
    have hfound : (⟨.getJob id, found⟩ : Performed RelaySig) ∈ first ++ rest := by
      rw [hfirst]
      exact List.mem_cons_self
    rcases found with _ | job
    · cases hrest
      exact hfound
    · dsimp only at hrest
      split at hrest
      · cases hrest
        exact hfound
      · obtain ⟨guarded, rest', ignored, rfl, -, hupdates⟩ := Ran.of_seq hrest
        split at hupdates
        · cases hupdates
          exact List.mem_append_left _ (by rw [hfirst]; exact List.mem_cons_self)
        · obtain ⟨update, after, updated, rfl, -, hafter⟩ := Ran.of_seq hupdates
          refine List.mem_append_right _ (List.mem_append_right _ (List.mem_append_right _ ?_))
          rcases updated with _ | _
          · exact ih hafter
          · obtain ⟨_, ha, rfl⟩ := Ran.of_answer hafter
            obtain rfl := Except.ok.inj ha
            exact List.mem_singleton_self _

/-- The handler around `wait_kernel` raises what it has got. -/
theorem raised_of_kernelWaitFailed {e' : Exc} {r : Except Exc String}
    (h : Ran (kernelWaitFailed s id e' : Prog RelaySig (Except Exc String)) events r) : r = .error e' := by
  unfold kernelWaitFailed at h
  split at h
  · obtain ⟨first, rest, found, -, hread, hrest⟩ := Ran.of_bind h
    obtain ⟨current, rfl, -⟩ := Ran.of_answer hread
    dsimp only at hrest
    split at hrest
    · cases hrest
      rfl
    · obtain ⟨_, _, updated, -, hupdate, hthrow⟩ := Ran.of_bind hrest
      obtain ⟨_, rfl, -⟩ := Ran.of_answer hupdate
      cases hthrow
      rfl
  · cases h
    rfl

/-- With its handler, `wait_kernel` raises for no other reason. -/
theorem evidence_of_watched {kernelRef : String} {turns : ℕ}
    (h : Ran (Eff.tryCatch (waitKernel s id kernelRef turns) (kernelWaitFailed s id) :
      Prog RelaySig (Except Exc String)) events (.error e)) : e.cls = .kernelStatusUnavailable ∨ Evidence s id events := by
  obtain ⟨waited, handled, outcome, rfl, hrun, hhandler⟩ := Ran.of_bind h
  rcases outcome with e' | output
  · -- the handler raises again whatever `wait_kernel` has raised
    obtain rfl := Except.error.inj (raised_of_kernelWaitFailed hhandler)
    exact (evidence_of_waitKernel hrun).imp_right fun hevidence => hevidence.mono (List.sublist_append_left _ _)
  · cases hhandler

theorem finished_of_watched {kernelRef output : String} {turns : ℕ}
    (h : Ran (Eff.tryCatch (waitKernel s id kernelRef turns) (kernelWaitFailed s id) :
      Prog RelaySig (Except Exc String)) events (.ok output)) :
    ∃ observed : KernelObservation, observed.finished = some true ∧
      ⟨.call (.pollKernel kernelRef), .ok (some observed)⟩ ∈ events := by
  obtain ⟨waited, handled, outcome, rfl, hrun, hhandler⟩ := Ran.of_bind h
  rcases outcome with e' | output
  · cases raised_of_kernelWaitFailed hhandler
  · obtain ⟨observed, hfinished, hmem⟩ := finished_of_waitKernel hrun
    exact ⟨observed, hfinished, List.mem_append_left _ hmem⟩

/-- **Where `finish_kernel_job` raises**, the state of the kernel is unknown, or
there is evidence. -/
theorem evidence_of_finishKernelJob {finalStatus : Option Status}
    (h : Ran (finishKernelJob s id finalStatus : Prog RelaySig (Except Exc Unit)) events (.error e)) :
    e.cls = .kernelStatusUnavailable ∨ Evidence s id events := by
  rcases Ran.of_raised h with hupdate | ⟨begun, rest₁, current, rfl, hbegin, h₁⟩
  · exact .inr (evidence_of_updateFinishStatus hupdate)
  rcases Ran.of_raised h₁ with hnameless | ⟨named, rest₂, _, rfl, -, h₂⟩
  · -- the row names no kernel
    have hread := read_of_updateFinishStatus hbegin
    by_cases hempty : (current.map (·.kernelRef)).getD "" = ""
    · exact .inr (.nameless hempty (List.mem_append_left _ hread))
    · simp only [Eff.raiseIf, if_neg hempty] at hnameless
      cases hnameless
  rcases Ran.of_raised h₂ with hturns | ⟨counted, rest₃, turns, rfl, -, h₃⟩
  · obtain ⟨_, ha, -⟩ := Ran.of_answer hturns
    cases ha
  have hsub₃ : rest₃.Sublist (begun ++ (named ++ (counted ++ rest₃))) :=
    (List.sublist_append_right _ _).trans ((List.sublist_append_right _ _).trans (List.sublist_append_right _ _))
  suffices hlast : e.cls = .kernelStatusUnavailable ∨ Evidence s id rest₃ from
    hlast.imp_right fun hevidence => hevidence.mono hsub₃
  rcases Ran.of_raised h₃ with hwait | ⟨waited, rest₄, kernelStatus, rfl, hwaited, h₄⟩
  · exact evidence_of_watched hwait
  obtain ⟨observed, hfinished, hseen⟩ := finished_of_watched hwaited
  have hmem := List.mem_append_left rest₄ hseen
  refine .inr ?_
  -- the kernel has succeeded, and what is left are the row and the output
  have hstep : ∀ {c : Call} {e : Exc} {later : Events}, OnOutput c → later.Sublist rest₄ →
      ⟨.call c, .error e⟩ ∈ later → Evidence s id (waited ++ rest₄) := fun hc hsub hfailed =>
    .outputFailed hfinished hc hmem (List.mem_append_right _ (hsub.subset hfailed))
  rcases Ran.of_raised h₄ with hread | ⟨read, rest₅, found, rfl, -, h₅⟩
  · obtain ⟨_, ha, -⟩ := Ran.of_answer hread
    cases ha
  rcases Ran.of_raised h₅ with hupdate | ⟨updated, rest₆, _, rfl, -, h₆⟩
  · obtain ⟨_, ha, -⟩ := Ran.of_answer hupdate
    cases ha
  have hsub₆ : rest₆.Sublist (read ++ (updated ++ rest₆)) :=
    (List.sublist_append_right _ _).trans (List.sublist_append_right _ _)
  rcases Ran.of_raised h₆ with hupdate | ⟨moved, rest₇, current', rfl, -, h₇⟩
  · exact (evidence_of_updateFinishStatus hupdate).mono (hsub₆.trans (List.sublist_append_right _ _))
  have hsub₇ : rest₇.Sublist (read ++ (updated ++ (moved ++ rest₇))) := (List.sublist_append_right _ _).trans hsub₆
  rcases Ran.of_raised h₇ with hdownload | ⟨downloaded, rest₈, _, rfl, -, h₈⟩
  · obtain rfl := Ran.of_perform hdownload
    exact hstep (c := .downloadOutput _ _) trivial hsub₇ (List.mem_singleton_self _)
  have hsub₈ : rest₈.Sublist (read ++ (updated ++ (moved ++ (downloaded ++ rest₈)))) :=
    (List.sublist_append_right _ _).trans hsub₇
  rcases Ran.of_raised h₈ with hpackage | ⟨packaged, rest₉, _, rfl, -, h₉⟩
  · obtain rfl := Ran.of_perform hpackage
    exact hstep (c := .packageArtifacts _ _) trivial hsub₈ (List.mem_singleton_self _)
  rcases Ran.of_raised h₉ with hfinalize | ⟨_, _, _, -, -, hdone⟩
  · obtain ⟨_, ha, -⟩ := Ran.of_answer hfinalize
    cases ha
  · cases hdone

/-- A worker item that resumes a kernel. -/
theorem evidence_of_resumeKernelJob {finalStatus : Option Status}
    (h : Ran (resumeKernelJob s id finalStatus : Prog RelaySig (Except Exc Unit)) events (.error e)) :
    e.cls = .kernelStatusUnavailable ∨ Evidence s id events := by
  rcases Ran.of_raised h with hread | ⟨first, rest, job, rfl, -, hrest⟩
  · obtain ⟨_, ha, -⟩ := Ran.of_answer hread
    cases ha
  rcases job with _ | job
  · cases hrest
  · rcases Ran.of_raised hrest with hcredentials | ⟨asked, after, _, rfl, -, hafter⟩
    · obtain rfl := Ran.of_perform hcredentials
      exact .inr (.keyless (List.mem_append_right _ (List.mem_singleton_self _)))
    · refine (evidence_of_finishKernelJob hafter).imp_right fun hevidence => hevidence.mono ?_
      exact (List.sublist_append_right _ _).trans (List.sublist_append_right _ _)

/-! ### What fails a job -/

/-- The operation does not fail its job. -/
abbrev Spares (o : RelayOp) : Prop := ¬o.fails

theorem spares_getJob (id : JobId) : Uses (S := RelaySig) Spares (getJob id) := ⟨fun h => h, fun _ => trivial⟩

theorem spares_call (c : Call) : Uses (S := RelaySig) Spares (call c) := Uses.perform fun h => h

theorem spares_updateFinishStatus {running : Status} {valuesForJob : Job → JobValues}
    (hrunning : running ≠ .failed) (attempts : ℕ) :
    Uses (S := RelaySig) Spares (updateFinishStatus s id running valuesForJob attempts) := by
  induction attempts with
  | zero => trivial
  | succ attempts ih =>
    refine Uses.seq (spares_getJob id) fun current => ?_
    rcases current with _ | current
    · trivial
    · refine Uses.ite (Uses.pure _) (Uses.seq (Uses.pure _) fun _ => Uses.ite (Uses.pure _) ⟨?_, fun updated => ?_⟩)
      · show ¬some (if jobCancelRequested current = true then Status.cancelRequested else running) = some .failed
        intro hfailed
        split at hfailed
        · cases hfailed
        · exact hrunning (Option.some.inj hfailed)
      · rcases updated with _ | _
        · exact ih
        · exact spares_getJob id

theorem spares_waitKernel (kernelRef : String) (turns : ℕ) :
    Uses (S := RelaySig) Spares (waitKernel s id kernelRef turns) := by
  induction turns with
  | zero => trivial
  | succ turns ih =>
    refine Uses.seq (spares_call _) fun observed => ?_
    rcases observed with _ | ⟨output, progress, finished⟩
    · exact ih
    · rcases progress with _ | ⟨remote, data⟩
      · rcases finished with _ | _ | _
        · exact ih
        · exact Uses.pure _
        · exact Uses.pure _
      · refine Uses.seq (Uses.seq (spares_updateFinishStatus (by rintro ⟨⟩) _) fun _ => Uses.pure _) fun _ => ?_
        rcases finished with _ | _ | _
        · exact ih
        · exact Uses.pure _
        · exact Uses.pure _

theorem spares_finishKernelJob {finalStatus : Option Status} (hfinal : finalStatus ≠ some .failed) :
    Uses (S := RelaySig) Spares (finishKernelJob s id finalStatus) := by
  have hupdate : ∀ {values : JobValues}, values.status = none →
      Uses (S := RelaySig) Spares (updateJob id values) := by
    intro values hnone
    refine ⟨?_, fun _ => trivial⟩
    show ¬values.status = some .failed
    rw [hnone]
    rintro ⟨⟩
  have hhandler : ∀ e, Uses (S := RelaySig) Spares (kernelWaitFailed s id e) := by
    intro e
    refine Uses.ite (Uses.seq (spares_getJob id) fun _ => Uses.ite (Uses.pure _) ?_) (Uses.pure _)
    exact Uses.seq (hupdate rfl) fun _ => Uses.pure _
  have hfinalize : ∀ {values : JobValues},
      Uses (S := RelaySig) Spares (finalizeJob id (finalStatus.getD .complete) values) := by
    intro values
    refine ⟨?_, fun _ => trivial⟩
    show ¬finalStatus.getD .complete = .failed
    intro hfailed
    rcases finalStatus with _ | status
    · cases hfailed
    · exact hfinal (congrArg some hfailed)
  exact Uses.seq (spares_updateFinishStatus (by rintro ⟨⟩) _) fun _ => Uses.seq (Uses.pure _) fun _ =>
    Uses.seq ⟨fun h => h, fun _ => trivial⟩ fun _ => Uses.seq (Uses.tryCatch (spares_waitKernel _ _) hhandler) fun _ =>
    Uses.seq (spares_getJob id) fun _ => Uses.seq (hupdate rfl) fun _ =>
    Uses.seq (spares_updateFinishStatus (by rintro ⟨⟩) _) fun _ => Uses.seq (spares_call _) fun _ =>
    Uses.seq (spares_call _) fun _ => Uses.seq hfinalize fun _ => Uses.pure _

/-- **Monitoring invents no failure.**  Where a worker item that resumes a kernel
fails its job, the run has met evidence; where the state of the kernel is
unknown, or other writers change the row now and then, it does not. -/
theorem fails_on_evidence (s : Settings) (id : JobId) {finalStatus : Option Status}
    (hfinal : finalStatus ≠ some .failed) {events : Events} {r : Except Exc Unit}
    (h : Ran (runWorkerItem s id (.resumeKernel finalStatus) : Prog RelaySig (Except Exc Unit)) events r)
    (hfails : ∃ event ∈ events, event.1.fails) : Evidence s id events := by
  obtain ⟨event, hmem, hevent⟩ := hfails
  obtain ⟨begun, rest, started, rfl, hbegin, hrest⟩ := Ran.of_bind h
  obtain ⟨_, rfl, hbegun⟩ := Ran.of_answer hbegin
  obtain ⟨resumed, marked, outcome, rfl, hresume, hmark⟩ := Ran.of_bind hrest
  -- the item itself never writes `failed`: the handler of its exception does
  have hquiet : ∀ event ∈ resumed, ¬event.1.fails := by
    have hspares : Uses (S := RelaySig) Spares (resumeKernelJob s id finalStatus) := by
      refine Uses.seq (spares_getJob id) fun job => ?_
      rcases job with _ | job
      · exact Uses.pure _
      · exact Uses.seq (spares_call _) fun _ => spares_finishKernelJob hfinal
    exact Ran.of_uses hspares hresume
  have hmarked : event ∈ marked := by
    rcases List.mem_append.mp hmem with hmem | hmem
    · rw [hbegun] at hmem
      rw [List.mem_singleton.mp hmem] at hevent
      cases hevent
    · rcases List.mem_append.mp hmem with hmem | hmem
      · exact absurd hevent (hquiet event hmem)
      · exact hmem
  rcases outcome with e | _
  · rcases evidence_of_resumeKernelJob hresume with hunknown | hevidence
    · -- an unknown state is written down, and the job is left as it is
      have hspares : Uses (S := RelaySig) Spares (markWorkerException s id e) := by
        refine Uses.seq (spares_getJob id) fun job => Uses.ite (Uses.pure _) ?_
        rw [if_pos hunknown]
        refine ⟨?_, fun _ => trivial⟩
        rintro ⟨⟩
      exact absurd hevent (Ran.of_uses hspares hmark event hmarked)
    · exact hevidence.mono ((List.sublist_append_left _ _).trans (List.sublist_append_right _ _))
  · cases hmark
    cases hmarked

/-- A job whose kernel has been pushed. -/
def trialPushed : Job :=
  { World.createdJob (World.trialJob .fixed) "alice/data" "alice/kernel" "key" 0 with status := .waitingKernel }

/-- A run that fails the job, since the kernel has failed. -/
def trialFailed : Events :=
  [⟨.updateJob "x" { queueReason := some "" }, ()⟩, ⟨.getJob "x", some trialPushed⟩,
    ⟨.call (.credentialsFor "key"), .ok "alice"⟩, ⟨.getJob "x", some trialPushed⟩,
    ⟨.updateJobIfStatus "x" [.waitingKernel] false none
      { status := some .waitingKernel, progress := some 60, error := some "" }, true⟩,
    ⟨.getJob "x", some trialPushed⟩, ⟨.turns, (1 : ℕ)⟩,
    ⟨.call (.pollKernel "alice/kernel"), .ok (some ⟨"", none, some false⟩)⟩, ⟨.getJob "x", some trialPushed⟩,
    ⟨.finalizeJob "x" .failed { progress := some 0, error := some "Kernel failed:\n" }, none⟩]

theorem fails_on_evidence_trial : Evidence World.trialSettings "x" trialFailed := by
  have hrun : Ran (runWorkerItem World.trialSettings "x" (.resumeKernel none) : Prog RelaySig (Except Exc Unit))
      trialFailed (.ok ()) := by
    unfold trialFailed
    refine .op (.op (.op (.op (.op (.op (.op (.op (.op (.op ?_)))))))))
    exact .pure _
  exact fails_on_evidence _ _ (by rintro ⟨⟩) hrun ⟨_, List.mem_of_getElem? (i := 9) rfl, rfl⟩

end Relay

end KaggleRelay

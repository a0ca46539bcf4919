/-
Runs that keep a record.

A semantics with a record of what has been performed, and with which answers.
An assertion about the record at a program's end or at any point where it is
cut off is an assertion about what happened on the way.

* `recording` — a semantics and its record;
* `Ran` — the record of a run that has returned, and how it splits at a bind;
* `Safe.recorded`, `Safe.ran`, `Safe.within` — the rules.

Nothing here knows what the operations are.
-/
import KaggleRelay.Prog

namespace Effects

variable {S : Sig} {α β ε W C : Type}

/-- An operation with its answer. -/
abbrev Performed (S : Sig) := (o : S.Op) × S.Res o

/-- The program has returned after these operations. -/
inductive Ran : Prog S α → List (Performed S) → α → Prop
  | pure (a : α) : Ran (.pure a) [] a
  | op {o : S.Op} {k : S.Res o → Prog S α} {r : S.Res o} {events : List (Performed S)} {a : α}
    (h : Ran (k r) events a) : Ran (.op o k) (⟨o, r⟩ :: events) a

namespace Ran

/-- A run of a sequence is a run of its first part, and one of the rest. -/
theorem of_bind {p : Prog S α} {f : α → Prog S β} {events : List (Performed S)} {b : β}
    (h : Ran (p.bind f) events b) :
    ∃ first rest a, events = first ++ rest ∧ Ran p first a ∧ Ran (f a) rest b := by
  induction p generalizing events with
  | pure a => exact ⟨[], events, a, rfl, .pure a, h⟩
  | op o k ih =>
    cases h with
    | @op _ _ r tail _ h =>
      obtain ⟨first, rest, a, rfl, hfirst, hrest⟩ := ih r h
      exact ⟨⟨o, r⟩ :: first, rest, a, rfl, .op hfirst, hrest⟩
  | stuck => cases h

/-- The first part of a sequence that has returned a value has returned one. -/
theorem of_seq {p : Eff S ε α} {f : α → Eff S ε β} {events : List (Performed S)} {b : β}
    (h : Ran (Eff.bind p f : Prog S (Except ε β)) events (.ok b)) :
    ∃ first rest a, events = first ++ rest ∧ Ran (p : Prog S (Except ε α)) first (.ok a) ∧
      Ran (f a : Prog S (Except ε β)) rest (.ok b) := by
  obtain ⟨first, rest, r, rfl, hfirst, hrest⟩ := of_bind h
  rcases r with e | a
  · cases hrest
  · exact ⟨first, rest, a, rfl, hfirst, hrest⟩

/-- A sequence raises in its first part, or in the rest. -/
theorem of_raised {p : Eff S ε α} {f : α → Eff S ε β} {events : List (Performed S)} {e : ε}
    (h : Ran (Eff.bind p f : Prog S (Except ε β)) events (.error e)) :
    Ran (p : Prog S (Except ε α)) events (.error e) ∨
      ∃ first rest a, events = first ++ rest ∧ Ran (p : Prog S (Except ε α)) first (.ok a) ∧
        Ran (f a : Prog S (Except ε β)) rest (.error e) := by
  obtain ⟨first, rest, r, rfl, hfirst, hrest⟩ := of_bind h
  rcases r with e' | a
  · cases hrest
    rw [List.append_nil]
    exact .inl hfirst
  · exact .inr ⟨first, rest, a, rfl, hfirst, hrest⟩

/-- What every operation of a program satisfies, those of a run satisfy. -/
theorem of_uses {φ : S.Op → Prop} {p : Prog S α} {events : List (Performed S)} {a : α} (hp : Uses φ p)
    (h : Ran p events a) : ∀ event ∈ events, φ event.1 := by
  induction h with
  | pure a => exact fun _ hmem => absurd hmem List.not_mem_nil
  | op _ ih => exact List.forall_mem_cons.mpr ⟨hp.1, ih (hp.2 _)⟩

theorem of_raiseIf {c : Prop} [Decidable c] {e : ε} {events : List (Performed S)} {u : Unit}
    (h : Ran (Eff.raiseIf c e : Prog S (Except ε Unit)) events (.ok u)) : ¬c ∧ events = [] := by
  unfold Eff.raiseIf at h
  by_cases hc : c
  · rw [if_pos hc] at h
    cases h
  · rw [if_neg hc] at h
    cases h
    exact ⟨hc, rfl⟩

theorem of_perform {o : S.Op} {events : List (Performed S)} {r : S.Res o}
    (h : Ran (Prog.perform o) events r) : events = [⟨o, r⟩] := by
  cases h with
  | op h =>
    cases h
    rfl

theorem of_lift {r r' : Except ε α} {events : List (Performed S)}
    (h : Ran (Eff.lift r : Prog S (Except ε α)) events r') : r' = r ∧ events = [] := by
  cases h with
  | pure => exact ⟨rfl, rfl⟩

/-- An operation that answers does not raise. -/
theorem of_answer {o : S.Op} {events : List (Performed S)} {r : Except ε (S.Res o)}
    (h : Ran (Eff.perform o : Prog S (Except ε (S.Res o))) events r) : ∃ a, r = .ok a ∧ events = [⟨o, a⟩] := by
  cases h with
  | op h =>
    cases h
    exact ⟨_, rfl, rfl⟩

end Ran

/-- The semantics with a record, the last operation at its end. -/
def recording (sem : Prog.Sem S C W) : Prog.Sem S C (W × List (Performed S)) := fun o c w =>
  (sem o c w.1).map fun step => (step.1, step.2, w.2 ++ [⟨o, step.1⟩])

namespace Safe

variable {sem : Prog.Sem S C W} {I : W × List (Performed S) → Prop}

theorem of_recording {o : S.Op} {c : C} {w w' : W × List (Performed S)} {r : S.Res o}
    (h : recording sem o c w = some (r, w')) : sem o c w.1 = some (r, w'.1) ∧ w'.2 = w.2 ++ [⟨o, r⟩] := by
  obtain ⟨⟨r', w₁⟩, hstep, heq⟩ := Option.map_eq_some_iff.mp h
  cases heq
  exact ⟨hstep, rfl⟩

/-- What holds without the record holds with it, and the record only grows. -/
theorem recorded {Q : α → W → Prop} {p : Prog S α} {w : W} {events : List (Performed S)}
    (h : Safe sem (fun _ => True) Q p w) :
    Safe (recording sem) (fun _ => True) (fun a w' => Q a w'.1 ∧ ∃ more, w'.2 = events ++ more) p (w, events) := by
  induction p generalizing w events with
  | pure a => exact ⟨h, [], (List.append_nil _).symm⟩
  | op o k ih =>
    intro c r w' hstep
    obtain ⟨hsem, hrecord⟩ := of_recording hstep
    refine ⟨trivial, ?_⟩
    refine (ih r (h c r w'.1 hsem).2).mono fun a w'' hpost => ⟨hpost.1, ?_⟩
    obtain ⟨more, hmore⟩ := hpost.2
    refine ⟨⟨o, r⟩ :: more, ?_⟩
    rw [hmore, hrecord, List.append_assoc]
    rfl
  | stuck => trivial

/-- A program that returns leaves the record of its run. -/
theorem ran {p : Prog S α} {w : W} {events : List (Performed S)} :
    Safe (recording sem) (fun _ => True) (fun a w' => ∃ run, w'.2 = events ++ run ∧ Ran p run a) p (w, events) := by
  induction p generalizing w events with
  | pure a => exact ⟨[], (List.append_nil _).symm, .pure a⟩
  | op o k ih =>
    intro c r w' hstep
    obtain ⟨-, hrecord⟩ := of_recording hstep
    refine ⟨trivial, ?_⟩
    refine (ih r).mono fun a w'' hpost => ?_
    obtain ⟨run, hrun, hran⟩ := hpost
    refine ⟨⟨o, r⟩ :: run, ?_, .op hran⟩
    rw [hrun, hrecord, List.append_assoc]
    rfl
  | stuck => trivial

/-- An assertion that every operation of the program establishes by itself. -/
theorem within {φ : S.Op → Prop} {Q : α → W × List (Performed S) → Prop} {p : Prog S α}
    {w : W × List (Performed S)} (hp : Uses φ p)
    (hφ : ∀ o, φ o → ∀ c r w w', recording sem o c w = some (r, w') → I w')
    (h : Safe (recording sem) (fun _ => True) Q p w) : Safe (recording sem) I Q p w := by
  induction p generalizing w with
  | pure a => exact h
  | op o k ih =>
    intro c r w' hstep
    exact ⟨hφ o hp.1 c r w w' hstep, ih r (hp.2 r) (h c r w' hstep).2⟩
  | stuck => trivial

end Safe

end Effects

/-
Programs over an effect signature.

A program performs one operation at a time and continues with the answer it
gets; everything between two operations is a pure Lean function.  The module
gives

* `Prog` and `Eff` — programs, and programs that may raise an exception;
* `Prog.exec` — running a program for as long as a list of outside choices
  lasts.  A list that ends early is a crash: what has been done stays done;
* `Prog.Runs` — a run to the end, and what follows it;
* `Uses` — which operations occur in a program at all;
* `Safe` — an assertion that holds after every single operation, hence at
  every point at which the program may be cut off;
* `Ends` — a program without endless loops, and that it returns;
* `Eff.Yields` — the value of a program whose answers never change;
* `Forwards` — a program that stops at the first operation that raises.

Nothing here knows what the operations are.
-/
import Mathlib.Logic.Basic
import Mathlib.Data.List.Basic

namespace Effects

/-- An effect signature: the operations and the type of each one's answer. -/
structure Sig where
  Op : Type
  Res : Op → Type

/-- Programs over a signature.  `stuck` is a loop that has used up the turns a
choice gave it: it never returns.  Since the number of turns is any number, the
cut-off runs of such a loop are those of the endless one. -/
inductive Prog (S : Sig) (α : Type) : Type where
  | pure (a : α)
  | op (o : S.Op) (k : S.Res o → Prog S α)
  | stuck

variable {S : Sig} {α β γ ε W C : Type}

namespace Prog

/-- Run `p`, then continue with its result. -/
def bind : Prog S α → (α → Prog S β) → Prog S β
  | .pure a, f => f a
  | .op o k, f => .op o fun r => (k r).bind f
  | .stuck, _ => .stuck

/-- The program that performs one operation and returns its answer. -/
def perform (o : S.Op) : Prog S (S.Res o) := .op o .pure

instance : Monad (Prog S) where
  pure := .pure
  bind := .bind

theorem bind_assoc (p : Prog S α) (f : α → Prog S β) (g : β → Prog S γ) :
    (p.bind f).bind g = p.bind fun a => (f a).bind g := by
  induction p with
  | pure a => rfl
  | op o k ih =>
    simp only [bind]
    congr 1
    funext r
    exact ih r
  | stuck => rfl

/-! ### Running -/

/-- What an operation does: on a choice made outside the program, the answer
and the new world, or `none` where this choice cannot be made. -/
abbrev Sem (S : Sig) (C W : Type) := (o : S.Op) → C → W → Option (S.Res o × W)

/-- Run a program while choices last.  The remaining program is the result: a
`pure` one has returned, any other one has been cut off at that point. -/
def exec (sem : Sem S C W) : Prog S α → List C → W → Prog S α × W
  | .pure a, _, w => (.pure a, w)
  | .stuck, _, w => (.stuck, w)
  | .op o k, [], w => (.op o k, w)
  | .op o k, c :: cs, w =>
    match sem o c w with
    | none => (.op o k, w)
    | some (r, w') => exec sem (k r) cs w'

theorem exec_pure {sem : Sem S C W} (a : α) (cs : List C) (w : W) :
    (Prog.pure a : Prog S α).exec sem cs w = (.pure a, w) := by
  rw [exec]

/-- One operation, and what follows it. -/
theorem exec_perform {sem : Sem S C W} {o : S.Op} {f : S.Res o → Prog S α} {c : C} {cs : List C}
    {w w' : W} {r : S.Res o} (h : sem o c w = some (r, w')) :
    ((perform o).bind f).exec sem (c :: cs) w = (f r).exec sem cs w' := by
  show (Prog.op o f).exec sem (c :: cs) w = _
  rw [exec, h]

/-- What a program that has returned has returned. -/
def result? : Prog S α → Option α
  | .pure a => some a
  | _ => none

theorem result?_eq_some {p : Prog S α} {a : α} : p.result? = some a ↔ p = .pure a := by
  cases p <;> simp [result?]

/-- The program returns after exactly these choices. -/
inductive Runs (sem : Sem S C W) : Prog S α → List C → W → α → W → Prop
  | pure (a : α) (w : W) : Runs sem (.pure a) [] w a w
  | op {o : S.Op} {k : S.Res o → Prog S α} {c : C} {cs : List C} {w w' w'' : W} {r : S.Res o} {a : α} :
      sem o c w = some (r, w') → Runs sem (k r) cs w' a w'' → Runs sem (.op o k) (c :: cs) w a w''

/-- What follows a program that has returned. -/
theorem Runs.exec_bind {sem : Sem S C W} {p : Prog S α} {f : α → Prog S β} {cs : List C} {w w' : W} {a : α}
    (h : Runs sem p cs w a w') (ds : List C) :
    (p.bind f).exec sem (cs ++ ds) w = (f a).exec sem ds w' := by
  induction h with
  | pure a w => rfl
  | op hstep _ ih =>
    show (Prog.op _ _).exec sem _ _ = _
    rw [List.cons_append, exec, hstep]
    exact ih

/-- A program that has returned has run to its end. -/
theorem Runs.of_exec {sem : Sem S C W} {p : Prog S α} {cs : List C} {w : W} {a : α}
    (h : (p.exec sem cs w).1 = .pure a) : ∃ ds w', Runs sem p ds w a w' := by
  induction p generalizing cs w with
  | pure =>
    cases h
    exact ⟨[], w, .pure _ w⟩
  | stuck => cases h
  | op o k ih =>
    cases cs with
    | nil => cases h
    | cons c cs =>
      rw [exec] at h
      split at h
      · cases h
      · rename_i r w' hstep
        obtain ⟨ds, w'', hruns⟩ := ih r h
        exact ⟨c :: ds, w'', .op hstep hruns⟩

end Prog

/-! ### Programs that may raise -/

/-- Programs that end with a value or with an exception. -/
def Eff (S : Sig) (ε α : Type) : Type := Prog S (Except ε α)

namespace Eff

/-- Run `p`; continue with its value, or stop with its exception. -/
def bind (p : Eff S ε α) (f : α → Eff S ε β) : Eff S ε β :=
  Prog.bind p fun
    | .ok a => f a
    | .error e => Prog.pure (.error e)

/-- Raise an exception. -/
def throw (e : ε) : Eff S ε α := Prog.pure (.error e)

/-- Run `p`, and the handler in its place where it raises. -/
def tryCatch (p : Eff S ε α) (handler : ε → Eff S ε α) : Eff S ε α :=
  Prog.bind p fun
    | .ok a => Prog.pure (.ok a)
    | .error e => handler e

/-- Run `p` and hand its outcome, value or exception, to the rest. -/
def attempt (p : Eff S ε α) : Eff S ε (Except ε α) :=
  Prog.bind p fun r => Prog.pure (.ok r)

instance : Monad (Eff S ε) where
  pure a := Prog.pure (.ok a)
  bind := bind

instance : MonadExcept ε (Eff S ε) where
  throw := throw
  tryCatch := tryCatch

/-- An attempt, and what follows it on its outcome. -/
theorem attempt_bind (p : Eff S ε α) (f : Except ε α → Eff S ε β) :
    Eff.bind (Eff.attempt p) f = Prog.bind (p : Prog S (Except ε α)) f :=
  Prog.bind_assoc (p : Prog S (Except ε α)) _ _

/-- An operation that cannot raise. -/
def perform (o : S.Op) : Eff S ε (S.Res o) := Prog.op o fun r => Prog.pure (.ok r)

/-- A computed outcome. -/
def lift (r : Except ε α) : Eff S ε α := Prog.pure r

/-- `if c: raise e`. -/
def raiseIf (c : Prop) [Decidable c] (e : ε) : Eff S ε Unit :=
  Prog.pure (if c then .error e else .ok ())

/-- The value, or the exception where there is none. -/
def orRaise (r : Option α) (e : ε) : Eff S ε α := Prog.pure (r.elim (.error e) .ok)

/-- A loop that never returns. -/
def hang : Eff S ε α := Prog.stuck

end Eff

/-! ### Footprints -/

/-- Every operation that can occur in the program satisfies `φ`. -/
def Uses (φ : S.Op → Prop) : Prog S α → Prop
  | .pure _ => True
  | .op o k => φ o ∧ ∀ r, Uses φ (k r)
  | .stuck => True

namespace Uses

variable {φ ψ : S.Op → Prop}

theorem pure (a : α) : Uses (S := S) φ (.pure a) := trivial

theorem perform {o : S.Op} (h : φ o) : Uses φ (Prog.perform o) := ⟨h, fun _ => trivial⟩

theorem bind {p : Prog S α} {f : α → Prog S β} (hp : Uses φ p) (hf : ∀ a, Uses φ (f a)) :
    Uses φ (p.bind f) := by
  induction p with
  | pure a => exact hf a
  | op o k ih => exact ⟨hp.1, fun r => ih r (hp.2 r)⟩
  | stuck => trivial

theorem seq {p : Eff S ε α} {f : α → Eff S ε β} (hp : Uses φ (p : Prog S (Except ε α)))
    (hf : ∀ a, Uses φ (f a : Prog S (Except ε β))) : Uses φ (Eff.bind p f : Prog S (Except ε β)) := by
  refine bind hp ?_
  rintro (e | a)
  · trivial
  · exact hf a

theorem tryCatch {p : Eff S ε α} {handler : ε → Eff S ε α} (hp : Uses φ (p : Prog S (Except ε α)))
    (hh : ∀ e, Uses φ (handler e : Prog S (Except ε α))) :
    Uses φ (Eff.tryCatch p handler : Prog S (Except ε α)) := by
  refine bind hp ?_
  rintro (e | a)
  · exact hh e
  · trivial

theorem attempt {p : Eff S ε α} (hp : Uses φ (p : Prog S (Except ε α))) :
    Uses φ (Eff.attempt p : Prog S (Except ε (Except ε α))) :=
  bind hp fun _ => trivial

theorem ite {c : Prop} [Decidable c] {p q : Prog S α} (hp : Uses φ p) (hq : Uses φ q) :
    Uses φ (if c then p else q) := by
  split
  · exact hp
  · exact hq

theorem all (h : ∀ o, φ o) (p : Prog S α) : Uses φ p := by
  induction p with
  | pure a => trivial
  | op o k ih => exact ⟨h o, ih⟩
  | stuck => trivial

theorem mono {p : Prog S α} (hp : Uses φ p) (h : ∀ o, φ o → ψ o) : Uses ψ p := by
  induction p with
  | pure a => trivial
  | op o k ih => exact ⟨h o hp.1, fun r => ih r (hp.2 r)⟩
  | stuck => trivial

/-- What every operation keeps, a program keeps. -/
theorem runs_inv {sem : Prog.Sem S C W} {J : W → Prop}
    (hφ : ∀ o, φ o → ∀ c w r w', sem o c w = some (r, w') → J w → J w') {p : Prog S α} (hp : Uses φ p)
    {cs : List C} {w w' : W} {a : α} (h : Prog.Runs sem p cs w a w') (hw : J w) : J w' := by
  induction h with
  | pure a w => exact hw
  | op hstep _ ih => exact ih (hp.2 _) (hφ _ hp.1 _ _ _ _ hstep hw)

end Uses

/-! ### Programs that end -/

/-- There is no endless loop in the program. -/
def Ends : Prog S α → Prop
  | .pure _ => True
  | .op _ k => ∀ r, Ends (k r)
  | .stuck => False

namespace Ends

theorem pure (a : α) : Ends (S := S) (.pure a) := trivial

theorem perform (o : S.Op) : Ends (Prog.perform o) := fun _ => trivial

theorem bind {p : Prog S α} {f : α → Prog S β} (hp : Ends p) (hf : ∀ a, Ends (f a)) :
    Ends (p.bind f) := by
  induction p with
  | pure a => exact hf a
  | op o k ih => exact fun r => ih r (hp r)
  | stuck => exact hp.elim

theorem seq {p : Eff S ε α} {f : α → Eff S ε β} (hp : Ends (p : Prog S (Except ε α)))
    (hf : ∀ a, Ends (f a : Prog S (Except ε β))) : Ends (Eff.bind p f : Prog S (Except ε β)) := by
  refine bind hp ?_
  rintro (e | a)
  · trivial
  · exact hf a

theorem attempt {p : Eff S ε α} (hp : Ends (p : Prog S (Except ε α))) :
    Ends (Eff.attempt p : Prog S (Except ε (Except ε α))) :=
  bind hp fun _ => trivial

/-- Where every operation has an answer, the program returns after finitely
many of them. -/
theorem returns {sem : Prog.Sem S C W} (hsem : ∀ o c w, (sem o c w).isSome) {p : Prog S α}
    (hp : Ends p) (cs : ℕ → C) (w : W) :
    ∃ n a, (p.exec sem ((List.range n).map cs) w).1 = .pure a := by
  induction p generalizing cs w with
  | pure a => exact ⟨0, a, rfl⟩
  | op o k ih =>
    obtain ⟨⟨r, w'⟩, hs⟩ := Option.isSome_iff_exists.mp (hsem o (cs 0) w)
    obtain ⟨n, a, hn⟩ := ih r (hp r) (fun i => cs (i + 1)) w'
    refine ⟨n + 1, a, ?_⟩
    rw [List.range_succ_eq_map, List.map_cons, List.map_map, Prog.exec, hs]
    exact hn
  | stuck => exact hp.elim

end Ends

/-! ### Answers that do not change -/

/-- The result of a program where the answer of an operation is always the
same one; `none` for an endless loop. -/
def Prog.eval (answer : (o : S.Op) → S.Res o) : Prog S α → Option α
  | .pure a => some a
  | .op o k => (k (answer o)).eval answer
  | .stuck => none

/-- The program returns the value. -/
def Eff.Yields (answer : (o : S.Op) → S.Res o) (p : Eff S ε α) (a : α) : Prop :=
  Prog.eval answer p = some (.ok a)

section Yields

variable {answer : (o : S.Op) → S.Res o}

theorem Prog.eval_bind (p : Prog S α) (f : α → Prog S β) :
    (p.bind f).eval answer = (p.eval answer).bind fun a => (f a).eval answer := by
  induction p with
  | pure a => rfl
  | op o k ih => exact ih (answer o)
  | stuck => rfl

theorem Ends.eval_isSome {p : Prog S α} (hp : Ends p) : (p.eval answer).isSome := by
  induction p with
  | pure a => rfl
  | op o k ih => exact ih (answer o) (hp (answer o))
  | stuck => exact hp.elim

theorem yields_bind {p : Eff S ε α} {f : α → Eff S ε β} {b : β} :
    Eff.Yields answer (p >>= f) b ↔ ∃ a, Eff.Yields answer p a ∧ Eff.Yields answer (f a) b := by
  have hbind : Prog.eval answer (p >>= f : Eff S ε β) = _ :=
    Prog.eval_bind (p : Prog S (Except ε α)) _
  constructor
  · intro h
    obtain ⟨r, hr, hb⟩ := Option.bind_eq_some_iff.mp (hbind.symm.trans h)
    cases r with
    | error e => cases hb
    | ok a => exact ⟨a, hr, hb⟩
  · rintro ⟨a, ha, hb⟩
    exact hbind.trans (Option.bind_eq_some_iff.mpr ⟨.ok a, ha, hb⟩)

theorem yields_pure {a b : α} : Eff.Yields answer (pure a : Eff S ε α) b ↔ a = b := by
  constructor
  · intro h
    exact Except.ok.inj (Option.some.inj h)
  · rintro rfl
    rfl

theorem yields_lift {r : Except ε α} {a : α} :
    Eff.Yields answer (Eff.lift r : Eff S ε α) a ↔ r = .ok a :=
  Option.some_inj

theorem yields_raiseIf {c : Prop} [Decidable c] {e : ε} {u : Unit} :
    Eff.Yields answer (Eff.raiseIf c e : Eff S ε Unit) u ↔ ¬c := by
  have hlift : Eff.Yields answer (Eff.raiseIf c e : Eff S ε Unit) u ↔
      (if c then .error e else .ok () : Except ε Unit) = .ok u := yields_lift
  rw [hlift]
  by_cases hc : c
  · rw [if_pos hc]
    exact ⟨fun h => (by cases h), fun h => (h hc).elim⟩
  · rw [if_neg hc]
    exact ⟨fun _ => hc, fun _ => rfl⟩

end Yields

/-! ### Assertions that survive a crash -/

/-- From world `w`, every operation of the program leaves a world satisfying
`I`, and if the program returns, its value and the world satisfy `Q`. -/
def Safe (sem : Prog.Sem S C W) (I : W → Prop) (Q : α → W → Prop) : Prog S α → W → Prop
  | .pure a, w => Q a w
  | .op o k, w => ∀ c r w', sem o c w = some (r, w') → I w' ∧ Safe sem I Q (k r) w'
  | .stuck, _ => True

/-- A postcondition of a program that may raise: `Q` of its value, `E` of its
exception. -/
def post (Q : α → W → Prop) (E : ε → W → Prop) : Except ε α → W → Prop
  | .ok a, w => Q a w
  | .error e, w => E e w

namespace Safe

variable {sem : Prog.Sem S C W} {I : W → Prop}

theorem mono {P Q : α → W → Prop} {p : Prog S α} {w : W} (h : Safe sem I P p w)
    (hPQ : ∀ a w, P a w → Q a w) : Safe sem I Q p w := by
  induction p generalizing w with
  | pure a => exact hPQ a w h
  | op o k ih =>
    intro c r w' hs
    obtain ⟨hI, hk⟩ := h c r w' hs
    exact ⟨hI, ih r hk⟩
  | stuck => trivial

theorem and {P Q : α → W → Prop} {p : Prog S α} {w : W} (hP : Safe sem I P p w)
    (hQ : Safe sem I Q p w) : Safe sem I (fun a w => P a w ∧ Q a w) p w := by
  induction p generalizing w with
  | pure a => exact ⟨hP, hQ⟩
  | op o k ih =>
    intro c r w' hs
    obtain ⟨hI, hP⟩ := hP c r w' hs
    exact ⟨hI, ih r hP (hQ c r w' hs).2⟩
  | stuck => trivial

theorem bind {P : α → W → Prop} {R : β → W → Prop} {p : Prog S α} {f : α → Prog S β} {w : W}
    (hp : Safe sem I P p w) (hf : ∀ a w, P a w → Safe sem I R (f a) w) :
    Safe sem I R (p.bind f) w := by
  induction p generalizing w with
  | pure a => exact hf a w hp
  | op o k ih =>
    intro c r w' hs
    obtain ⟨hI, hk⟩ := hp c r w' hs
    exact ⟨hI, ih r hk⟩
  | stuck => trivial

/-- The rule of sequencing for programs that may raise: an exception skips the
rest. -/
theorem seq {P : α → W → Prop} {Q : β → W → Prop} {E : ε → W → Prop} {p : Eff S ε α}
    {f : α → Eff S ε β} {w : W} (hp : Safe sem I (post P E) p w)
    (hf : ∀ a w, P a w → Safe sem I (post Q E) (f a) w) :
    Safe sem I (post Q E) (Eff.bind p f) w := by
  refine Safe.bind hp ?_
  rintro (e | a) w' h
  · exact h
  · exact hf a w' h

theorem lift {Q : α → W → Prop} {E : ε → W → Prop} {r : Except ε α} {w : W}
    (hok : ∀ a, r = .ok a → Q a w) (herr : ∀ e, r = .error e → E e w) :
    Safe sem I (post Q E) (Eff.lift r : Eff S ε α) w := by
  cases r with
  | error e => exact herr e rfl
  | ok a => exact hok a rfl

theorem raiseIf {E : ε → W → Prop} {c : Prop} [Decidable c] {e : ε} {w : W} (h : c → E e w) :
    Safe sem I (post (fun _ w' => ¬c ∧ w' = w) E) (Eff.raiseIf c e : Eff S ε Unit) w := by
  by_cases hc : c
  · rw [Eff.raiseIf, if_pos hc]
    exact h hc
  · rw [Eff.raiseIf, if_neg hc]
    exact ⟨hc, rfl⟩

theorem orRaise {E : ε → W → Prop} {r : Option α} {e : ε} {w : W} (h : r = none → E e w) :
    Safe sem I (post (fun a w' => r = some a ∧ w' = w) E) (Eff.orRaise r e : Eff S ε α) w := by
  cases r with
  | none => exact h rfl
  | some a => exact ⟨rfl, rfl⟩

/-- A program all of whose operations keep `J` keeps it, and `I` with it. -/
theorem of_uses {φ : S.Op → Prop} {J : W → Prop} (hJI : ∀ w, J w → I w)
    (hφ : ∀ o, φ o → ∀ c r w w', J w → sem o c w = some (r, w') → J w')
    {p : Prog S α} (hp : Uses φ p) {w : W} (hw : J w) :
    Safe sem I (fun _ w => J w) p w := by
  induction p generalizing w with
  | pure a => exact hw
  | op o k ih =>
    intro c r w' hs
    have hw' : J w' := hφ o hp.1 c r w w' hw hs
    exact ⟨hJI w' hw', ih r (hp.2 r) hw'⟩
  | stuck => trivial

/-- Nothing is asserted. -/
theorem any (p : Prog S α) (w : W) : Safe sem (fun _ => True) (fun _ _ => True) p w :=
  of_uses (φ := fun _ => True) (J := fun _ => True) (fun _ _ => trivial)
    (fun _ _ _ _ _ _ _ _ => trivial) (Uses.all (fun _ => trivial) p) trivial

/-- **Soundness for cut-off runs**: wherever the choices run out, the
assertion holds. -/
theorem exec_inv {Q : α → W → Prop} {p : Prog S α} {cs : List C} {w : W}
    (h : Safe sem I Q p w) (hw : I w) : I (p.exec sem cs w).2 := by
  induction p generalizing cs w with
  | pure a => exact hw
  | op o k ih =>
    rcases cs with _ | ⟨c, cs⟩
    · exact hw
    · rw [Prog.exec]
      rcases hs : sem o c w with _ | ⟨r, w'⟩
      · exact hw
      · obtain ⟨hI, hk⟩ := h c r w' hs
        exact ih r hk hI
  | stuck => exact hw

/-- **Soundness for complete runs**: a returned value satisfies the
postcondition in the world it is returned in. -/
theorem exec_post {Q : α → W → Prop} {p : Prog S α} {cs : List C} {w : W} {a : α}
    (h : Safe sem I Q p w) (hr : (p.exec sem cs w).1 = .pure a) :
    Q a (p.exec sem cs w).2 := by
  induction p generalizing cs w with
  | pure b =>
    rw [Prog.exec] at hr ⊢
    cases hr
    exact h
  | op o k ih =>
    rcases cs with _ | ⟨c, cs⟩
    · rw [Prog.exec] at hr
      cases hr
    · rw [Prog.exec] at hr ⊢
      rcases hs : sem o c w with _ | ⟨r, w'⟩
      · rw [hs] at hr
        cases hr
      · rw [hs] at hr
        exact ih r (h c r w' hs).2 hr
  | stuck =>
    rw [Prog.exec] at hr
    cases hr

end Safe

/-! ### Programs that stop at an exception -/

/-- Which answers of an operation are exceptions. -/
abbrev Raises (S : Sig) (ε : Type) := (o : S.Op) → S.Res o → Option ε

/-- The program performs operations that satisfy `φ`, stops with the exception
of the first one that raises, and raises nothing else but `own` exceptions. -/
def Forwards (err : Raises S ε) (own : ε → Prop) (φ : S.Op → Prop) : Prog S (Except ε α) → Prop
  | .pure (.ok _) => True
  | .pure (.error e) => own e
  | .op o k => φ o ∧ ∀ r, match err o r with
    | some e => k r = .pure (.error e)
    | none => Forwards err own φ (k r)
  | .stuck => True

namespace Forwards

variable {err : Raises S ε} {own : ε → Prop} {φ : S.Op → Prop}

theorem pure (a : α) : Forwards err own φ (Prog.pure (.ok a) : Eff S ε α) := trivial

theorem lift {r : Except ε α} (h : ∀ e, r = .error e → own e) :
    Forwards err own φ (Eff.lift r : Eff S ε α) := by
  cases r with
  | error e => exact h e rfl
  | ok a => trivial

theorem raiseIf {c : Prop} [Decidable c] {e : ε} (h : own e) :
    Forwards err own φ (Eff.raiseIf c e : Eff S ε Unit) := by
  unfold Eff.raiseIf
  split
  · exact h
  · trivial

theorem orRaise {r : Option α} {e : ε} (h : own e) :
    Forwards err own φ (Eff.orRaise r e : Eff S ε α) := by
  cases r with
  | none => exact h
  | some a => trivial

/-- An operation none of whose answers is an exception. -/
theorem perform {o : S.Op} (h : φ o) (ho : ∀ r, err o r = none) :
    Forwards err own φ (Eff.perform o : Eff S ε (S.Res o)) := by
  refine ⟨h, fun r => ?_⟩
  rw [ho r]
  trivial

theorem seq {p : Eff S ε α} {f : α → Eff S ε β} (hp : Forwards err own φ p)
    (hf : ∀ a, Forwards err own φ (f a)) : Forwards err own φ (Eff.bind p f) := by
  induction p with
  | pure r =>
    cases r with
    | error e => exact hp
    | ok a => exact hf a
  | op o k ih =>
    refine ⟨hp.1, fun r => ?_⟩
    have h := hp.2 r
    cases he : err o r with
    | some e =>
      rw [he] at h
      -- the rest of the program is skipped
      show Prog.bind (k r) _ = _
      rw [show k r = .pure (.error e) from h]
      rfl
    | none =>
      rw [he] at h
      exact ih r h
  | stuck => trivial

/-- An assertion all of whose operations keep it, `E` where one raises. -/
theorem safe {sem : Prog.Sem S C W} {J : W → Prop} {E : ε → W → Prop}
    (hφ : ∀ o, φ o → ∀ c r w w', J w → sem o c w = some (r, w') →
      match err o r with
      | some e => E e w'
      | none => J w')
    (hown : ∀ e w, own e → J w → E e w) {p : Eff S ε α} (hp : Forwards err own φ p) {w : W}
    (hw : J w) : Safe sem (fun _ => True) (post (fun _ w' => J w') E) p w := by
  induction p generalizing w with
  | pure r =>
    cases r with
    | error e => exact hown e w hp hw
    | ok a => exact hw
  | op o k ih =>
    intro c r w' hs
    refine ⟨trivial, ?_⟩
    have hstep := hφ o hp.1 c r w w' hw hs
    have h := hp.2 r
    cases he : err o r with
    | some e =>
      rw [he] at h hstep
      rw [show k r = .pure (.error e) from h]
      exact hstep
    | none =>
      rw [he] at h hstep
      exact ih r h hstep
  | stuck => trivial

end Forwards

end Effects

/-
Protocols that programs follow.

A protocol has phases.  A phase says which operations a program in it may
perform and which answers it need reckon with, and an answer leads to the next
phase.  `Follows` — a program keeps to the protocol from a phase on, and ends
in a phase its postcondition allows.  When many programs run side by side, the
phase of each is all that the others have to know about it.
-/
import KaggleRelay.Prog

namespace Effects

variable {S : Sig} {Ph α β ε : Type}

/-- The rules for one participant. -/
structure Protocol (S : Sig) (Ph : Type) where
  /-- The operations a program may perform in a phase. -/
  allows : Ph → S.Op → Prop
  /-- The answers it has to reckon with. -/
  answers : Ph → (o : S.Op) → S.Res o → Prop
  after : Ph → (o : S.Op) → S.Res o → Ph

/-- From phase `ph` the program keeps to the protocol, and where it returns, its
value and the phase satisfy `Q`. -/
def Follows (P : Protocol S Ph) (Q : α → Ph → Prop) : Prog S α → Ph → Prop
  | .pure a, ph => Q a ph
  | .op o k, ph => P.allows ph o ∧ ∀ r, P.answers ph o r → Follows P Q (k r) (P.after ph o r)
  | .stuck, _ => True

namespace Follows

variable {P : Protocol S Ph}

theorem pure {Q : α → Ph → Prop} {a : α} {ph : Ph} (h : Q a ph) : Follows P Q (.pure a) ph := h

theorem op {Q : α → Ph → Prop} {o : S.Op} {k : S.Res o → Prog S α} {ph : Ph} (h : P.allows ph o)
    (hk : ∀ r, P.answers ph o r → Follows P Q (k r) (P.after ph o r)) :
    Follows P Q (.op o k) ph := ⟨h, hk⟩

theorem stuck {Q : α → Ph → Prop} {ph : Ph} : Follows P Q .stuck ph := trivial

/-- The next operation is allowed, and the rest follows from its answer. -/
theorem of_op {Q : α → Ph → Prop} {o : S.Op} {k : S.Res o → Prog S α} {ph : Ph}
    (h : Follows P Q (.op o k) ph) :
    P.allows ph o ∧ ∀ r, P.answers ph o r → Follows P Q (k r) (P.after ph o r) := h

theorem of_pure {Q : α → Ph → Prop} {a : α} {ph : Ph} (h : Follows P Q (.pure a) ph) : Q a ph := h

theorem mono {Q R : α → Ph → Prop} {p : Prog S α} {ph : Ph} (h : Follows P Q p ph)
    (hQR : ∀ a ph, Q a ph → R a ph) : Follows P R p ph := by
  induction p generalizing ph with
  | pure a => exact hQR a ph h
  | op o k ih => exact ⟨h.1, fun r hr => ih r (h.2 r hr)⟩
  | stuck => trivial

theorem imp {Q R : α → Ph → Prop} {E F : ε → Ph → Prop} {p : Eff S ε α} {ph : Ph}
    (h : Follows P (post Q E) p ph) (hQR : ∀ a ph, Q a ph → R a ph)
    (hEF : ∀ e ph, E e ph → F e ph) : Follows P (post R F) p ph := by
  refine mono h ?_
  rintro (e | a) ph' hq
  · exact hEF e ph' hq
  · exact hQR a ph' hq

theorem bind {Q : α → Ph → Prop} {R : β → Ph → Prop} {p : Prog S α} {f : α → Prog S β} {ph : Ph}
    (hp : Follows P Q p ph) (hf : ∀ a ph, Q a ph → Follows P R (f a) ph) :
    Follows P R (p.bind f) ph := by
  induction p generalizing ph with
  | pure a => exact hf a ph hp
  | op o k ih => exact ⟨hp.1, fun r hr => ih r (hp.2 r hr)⟩
  | stuck => trivial

/-- An operation that cannot raise. -/
theorem perform {E : ε → Ph → Prop} {o : S.Op} {ph : Ph} (h : P.allows ph o) :
    Follows P (post (fun r ph' => P.answers ph o r ∧ ph' = P.after ph o r) E)
      (Eff.perform o : Eff S ε (S.Res o)) ph :=
  op h fun _ hr => pure ⟨hr, rfl⟩

/-- Sequencing for programs that may raise: an exception skips the rest. -/
theorem seq {Q : α → Ph → Prop} {R : β → Ph → Prop} {E : ε → Ph → Prop} {p : Eff S ε α}
    {f : α → Eff S ε β} {ph : Ph} (hp : Follows P (post Q E) p ph)
    (hf : ∀ a ph, Q a ph → Follows P (post R E) (f a) ph) :
    Follows P (post R E) (Eff.bind p f) ph := by
  refine bind hp ?_
  rintro (e | a) ph' h
  · exact h
  · exact hf a ph' h

/-- A handler starts where the exception was raised. -/
theorem tryCatch {Q : α → Ph → Prop} {E E' : ε → Ph → Prop} {p : Eff S ε α}
    {handler : ε → Eff S ε α} {ph : Ph} (hp : Follows P (post Q E) p ph)
    (hh : ∀ e ph, E e ph → Follows P (post Q E') (handler e) ph) :
    Follows P (post Q E') (Eff.tryCatch p handler) ph := by
  refine bind hp ?_
  rintro (e | a) ph' h
  · exact hh e ph' h
  · exact h

theorem attempt {Q : α → Ph → Prop} {E E' : ε → Ph → Prop} {p : Eff S ε α} {ph : Ph}
    (hp : Follows P (post Q E) p ph) :
    Follows P (post (post Q E) E') (Eff.attempt p) ph :=
  bind hp fun _ _ h => h

theorem lift {Q : α → Ph → Prop} {E : ε → Ph → Prop} {r : Except ε α} {ph : Ph}
    (hok : ∀ a, r = .ok a → Q a ph) (herr : ∀ e, r = .error e → E e ph) :
    Follows P (post Q E) (Eff.lift r : Eff S ε α) ph := by
  cases r with
  | error e => exact herr e rfl
  | ok a => exact hok a rfl

theorem raiseIf {E : ε → Ph → Prop} {c : Prop} [Decidable c] {e : ε} {ph : Ph} (h : c → E e ph) :
    Follows P (post (fun _ ph' => ¬c ∧ ph' = ph) E) (Eff.raiseIf c e : Eff S ε Unit) ph := by
  by_cases hc : c
  · rw [Eff.raiseIf, if_pos hc]
    exact h hc
  · rw [Eff.raiseIf, if_neg hc]
    exact ⟨hc, rfl⟩

theorem ite {Q : α → Ph → Prop} {c : Prop} [Decidable c] {p q : Prog S α} {ph : Ph}
    (hp : c → Follows P Q p ph) (hq : ¬c → Follows P Q q ph) :
    Follows P Q (if c then p else q) ph := by
  split
  case isTrue h => exact hp h
  case isFalse h => exact hq h

/-- A program all of whose operations are allowed in every phase. -/
theorem of_allowed {φ : S.Op → Prop} (hφ : ∀ o, φ o → ∀ ph, P.allows ph o) {p : Prog S α} (hp : Uses φ p)
    {ph : Ph} : Follows P (fun _ _ => True) p ph := by
  induction p generalizing ph with
  | pure a => trivial
  | op o k ih => exact ⟨hφ o hp.1 ph, fun r _ => ih r (hp.2 r)⟩
  | stuck => trivial

end Follows

-- programs are built and taken apart by the rules, never by unfolding
attribute [irreducible] Follows

end Effects

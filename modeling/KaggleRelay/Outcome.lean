/-
Programs that return.

Where the world answers every operation that is asked of it, a program without
endless loops has an outcome.

* `Total` — whatever is chosen the program is answered until it returns, and
  then an assertion holds;
* `Total.bind`, `Total.seq`, `Total.raiseIf` — the rules of sequencing.

Nothing here knows what the operations are.
-/
import KaggleRelay.Prog

namespace Effects

variable {S : Sig} {α β ε W C : Type}

/-- The program returns with `Q`: there is a choice for every operation, and
every choice leads on. -/
def Total (sem : Prog.Sem S C W) (Q : α → W → Prop) : Prog S α → W → Prop
  | .pure a, w => Q a w
  | .op o k, w => (∃ c, (sem o c w).isSome) ∧ ∀ c r w', sem o c w = some (r, w') → Total sem Q (k r) w'
  | .stuck, _ => False

namespace Total

variable {sem : Prog.Sem S C W}

theorem mono {P Q : α → W → Prop} {p : Prog S α} {w : W} (h : Total sem P p w) (hPQ : ∀ a w, P a w → Q a w) :
    Total sem Q p w := by
  induction p generalizing w with
  | pure a => exact hPQ a w h
  | op o k ih => exact ⟨h.1, fun c r w' hs => ih r (h.2 c r w' hs)⟩
  | stuck => exact h.elim

theorem bind {P : α → W → Prop} {Q : β → W → Prop} {p : Prog S α} {f : α → Prog S β} {w : W}
    (hp : Total sem P p w) (hf : ∀ a w, P a w → Total sem Q (f a) w) : Total sem Q (p.bind f) w := by
  induction p generalizing w with
  | pure a => exact hf a w hp
  | op o k ih => exact ⟨hp.1, fun c r w' hs => ih r (hp.2 c r w' hs)⟩
  | stuck => exact hp.elim

/-- An exception skips the rest. -/
theorem seq {P : α → W → Prop} {Q : β → W → Prop} {E : ε → W → Prop} {p : Eff S ε α} {f : α → Eff S ε β} {w : W}
    (hp : Total sem (post P E) p w) (hf : ∀ a w, P a w → Total sem (post Q E) (f a) w) :
    Total sem (post Q E) (Eff.bind p f) w := by
  refine bind hp ?_
  rintro (e | a) w' h
  · exact h
  · exact hf a w' h

theorem raiseIf {E : ε → W → Prop} {c : Prop} [Decidable c] {e : ε} {w : W} (h : c → E e w) :
    Total sem (post (fun _ w' => ¬c ∧ w' = w) E) (Eff.raiseIf c e : Eff S ε Unit) w := by
  by_cases hc : c
  · rw [Eff.raiseIf, if_pos hc]
    exact h hc
  · rw [Eff.raiseIf, if_neg hc]
    exact ⟨hc, rfl⟩

end Total

end Effects

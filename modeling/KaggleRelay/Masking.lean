/-
Masked texts.

`Masked mask seg` relates a text to one in which some segments have been
replaced by a mask; `seg` says which segments may be, and after what.  A piece
without characters of the mask stands in the masked text only where it stood in
the text.

* `Masked.append_inv` — such a piece at the beginning has been kept;
* `Masked.at_inv` — the same anywhere in the text;
* `Masked.infix` — hence no new piece arises.
-/
import Mathlib.Data.List.Infix

/-- Segments of a text replaced by a mask; `before` is what precedes, last
character first. -/
inductive Masked (mask : List Char) (seg : List Char → List Char → Prop) :
    List Char → List Char → List Char → Prop where
  | nil (before) : Masked mask seg before [] []
  | keep {before c s s'} (h : Masked mask seg (c :: before) s s') :
      Masked mask seg before (c :: s) (c :: s')
  | mask {before b s s'} (hseg : seg before b) (h : Masked mask seg (b.reverse ++ before) s s') :
      Masked mask seg before (b ++ s) (mask ++ s')

namespace Masked

variable {mask : List Char} {seg seg' : List Char → List Char → Prop} {before s s' g : List Char}

theorem mono (h : Masked mask seg before s s') (hseg : ∀ before b, seg before b → seg' before b) :
    Masked mask seg' before s s' := by
  induction h with
  | nil before => exact .nil before
  | keep _ ih => exact .keep ih
  | mask hb _ ih => exact .mask (hseg _ _ hb) ih

/-- A text kept as it is. -/
theorem keep_append {l : List Char} (h : Masked mask seg (l.reverse ++ before) s s') :
    Masked mask seg before (l ++ s) (l ++ s') := by
  induction l generalizing before with
  | nil => exact h
  | cons c l ih =>
    refine .keep (ih ?_)
    rw [List.reverse_cons, List.append_assoc] at h
    exact h

/-- A piece that shares no character with the mask begins behind it. -/
theorem mask_append_inv (hne : g ≠ []) (hg : ∀ c ∈ g, c ∉ mask) {a t : List Char}
    (h : mask ++ s = a ++ g ++ t) : ∃ a', a = mask ++ a' ∧ s = a' ++ g ++ t := by
  obtain ⟨c, g, rfl⟩ := List.exists_cons_of_ne_nil hne
  rw [List.append_assoc] at h
  obtain ⟨a', ha, hs⟩ | ⟨m, hm, hs⟩ := List.append_eq_append_iff.mp h
  · exact ⟨a', ha, by rw [hs, List.append_assoc]⟩
  · cases m with
    | nil =>
      rw [List.append_nil] at hm
      exact ⟨[], by rw [hm, List.append_nil], by simpa using hs.symm⟩
    | cons d m =>
      rw [List.cons_append, List.cons_append] at hs
      obtain ⟨rfl, -⟩ := List.cons.inj hs
      refine absurd ?_ (hg c List.mem_cons_self)
      rw [hm]
      simp

/-- A piece without characters of the mask, at the beginning. -/
theorem append_inv (hmask : mask ≠ []) (hg : ∀ c ∈ g, c ∉ mask)
    (h : Masked mask seg before s (g ++ s')) :
    ∃ r, s = g ++ r ∧ Masked mask seg (g.reverse ++ before) r s' := by
  induction g generalizing before s with
  | nil => exact ⟨s, rfl, h⟩
  | cons c g ih =>
    rw [List.cons_append] at h
    generalize ht : c :: (g ++ s') = t at h
    cases h with
    | nil => cases ht
    | keep h =>
      obtain ⟨rfl, rfl⟩ := List.cons.inj ht
      obtain ⟨r, rfl, hr⟩ := ih (fun d hd => hg d (List.mem_cons_of_mem c hd)) h
      refine ⟨r, rfl, ?_⟩
      rw [List.reverse_cons, List.append_assoc]
      exact hr
    | mask hseg h =>
      -- the mask begins with a character of its own
      obtain ⟨m, mask, rfl⟩ := List.exists_cons_of_ne_nil hmask
      rw [List.cons_append] at ht
      obtain ⟨rfl, -⟩ := List.cons.inj ht
      exact absurd List.mem_cons_self (hg c List.mem_cons_self)

/-- The same for a piece that stands anywhere. -/
theorem at_inv (hmask : mask ≠ []) (hne : g ≠ []) (hg : ∀ c ∈ g, c ∉ mask) {a : List Char}
    (h : Masked mask seg before s (a ++ g ++ s')) :
    ∃ a₀ r, s = a₀ ++ g ++ r ∧ Masked mask seg (g.reverse ++ (a₀.reverse ++ before)) r s' := by
  generalize ht : a ++ g ++ s' = t at h
  induction h generalizing a with
  | nil =>
    simp only [List.append_eq_nil_iff] at ht
    exact absurd ht.1.2 hne
  | @keep before c s t h ih =>
    cases a with
    | nil =>
      have hkeep : Masked mask seg before (c :: s) (g ++ s') := by
        rw [List.nil_append] at ht
        rw [ht]
        exact .keep h
      obtain ⟨r, hs, hr⟩ := append_inv hmask hg hkeep
      exact ⟨[], r, hs, hr⟩
    | cons d a =>
      rw [List.cons_append, List.cons_append] at ht
      obtain ⟨rfl, hrest⟩ := List.cons.inj ht
      obtain ⟨a₀, r, rfl, hr⟩ := ih hrest
      refine ⟨d :: a₀, r, rfl, ?_⟩
      rw [List.reverse_cons, List.append_assoc]
      exact hr
  | @mask before b s t hseg h ih =>
    obtain ⟨a', rfl, hrest⟩ := mask_append_inv hne hg ht.symm
    obtain ⟨a₀, r, rfl, hr⟩ := ih hrest.symm
    refine ⟨b ++ a₀, r, by simp, ?_⟩
    rw [List.reverse_append, List.append_assoc]
    exact hr

/-- No piece arises. -/
theorem infix_of (hmask : mask ≠ []) (hg : ∀ c ∈ g, c ∉ mask) (h : Masked mask seg before s s')
    (hin : g <:+: s') : g <:+: s := by
  by_cases hne : g = []
  · rw [hne]
    exact List.nil_infix
  · obtain ⟨a, s', rfl⟩ := hin
    obtain ⟨a₀, r, rfl, -⟩ := at_inv hmask hne hg h
    exact ⟨a₀, r, rfl⟩

end Masked

/-
What redaction leaves.

Redaction replaces segments by stars, over and over: one secret after the
other, then the matches of one token pattern after the other.  Pieces without a
star only disappear, so a secret that has been replaced stays away, and a match
that is left stands before stars.

* `replaced_secrets` — after the secrets none of them occurs;
* `Rule` — a token pattern as a head and a run of characters, with what sets
  the four of them apart;
* `Stable` — every match stands before the stars already;
* `stable_sub`, `stable_of_masked` — a pattern makes its own matches so, and
  the later ones leave them so;
* `redactSecrets_sound` — no registered secret is left, and a second pass
  changes nothing.
-/
import Mathlib.Data.List.TakeWhile
import KaggleRelay.Masking
import KaggleRelay.Redaction
import KaggleRelay.RegexLanguage

namespace KaggleRelay

open Regex

/-! ### Secrets -/

theorem occursIn_iff {old s : List Char} : occursIn old s = true ↔ old <:+: s := by
  rw [occursIn, List.any_eq_true]
  constructor
  · rintro ⟨t, ht, hold⟩
    exact (List.isPrefixOf_iff_prefix.mp hold).isInfix.trans ((List.mem_tails _ _).mp ht).isInfix
  · intro h
    obtain ⟨t, hold, ht⟩ := List.infix_iff_prefix_suffix.mp h
    exact ⟨t, (List.mem_tails _ _).mpr ht, List.isPrefixOf_iff_prefix.mpr hold⟩

theorem replaceFrom_skip (old new : List Char) :
    ∀ l rest : List Char, replaceFrom old new l.length (l ++ rest) = replaceFrom old new 0 rest := by
  intro l
  induction l with
  | nil =>
    intro rest
    rfl
  | cons c l ih =>
    intro rest
    rw [List.length_cons, List.cons_append, replaceFrom, ih]

theorem replace_of_ne_start {old new rest : List Char} {c : Char} (h : ¬old <+: c :: rest) :
    replace old new (c :: rest) = c :: replace old new rest := by
  have hfalse : old.isPrefixOf (c :: rest) = false := by
    rw [← Bool.not_eq_true, List.isPrefixOf_iff_prefix]
    exact h
  rw [replace, replaceFrom, hfalse]
  rfl

theorem replace_append {old new rest : List Char} (hne : old ≠ []) :
    replace old new (old ++ rest) = new ++ replace old new rest := by
  obtain ⟨c, old, rfl⟩ := List.exists_cons_of_ne_nil hne
  have htrue : (c :: old).isPrefixOf (c :: (old ++ rest)) = true :=
    List.isPrefixOf_iff_prefix.mpr ⟨rest, rfl⟩
  rw [replace, List.cons_append, replaceFrom, if_pos htrue, List.length_cons, Nat.add_sub_cancel,
    replaceFrom_skip]
  rfl

/-- A text is empty, or begins with the secret, or goes on with another
character. -/
theorem replace_cases {old : List Char} (hne : old ≠ []) {P : List Char → List Char → Prop}
    {new : List Char} (hnil : P [] [])
    (hstart : ∀ rest, P rest (replace old new rest) →
      P (old ++ rest) (new ++ replace old new rest))
    (hcons : ∀ c rest, ¬old <+: c :: rest → P rest (replace old new rest) →
      P (c :: rest) (c :: replace old new rest)) (s : List Char) : P s (replace old new s) := by
  induction hn : s.length using Nat.strong_induction_on generalizing s with
  | _ n ih =>
    cases s with
    | nil => exact hnil
    | cons c rest =>
      by_cases h : old <+: c :: rest
      · obtain ⟨r, hr⟩ := h
        have hshort : r.length < n := by
          have := congrArg List.length hr
          rw [List.length_append, hn] at this
          have := List.length_pos_of_ne_nil hne
          omega
        rw [← hr, replace_append hne]
        exact hstart r (ih r.length hshort r rfl)
      · rw [replace_of_ne_start h]
        refine hcons c rest h (ih rest.length ?_ rest rfl)
        rw [← hn, List.length_cons]
        omega

theorem stars_ne_nil : stars ≠ [] := by simp [stars]

/-- A text without stars. -/
def Unstarred (g : List Char) : Prop := ∀ c ∈ g, c ∉ stars

theorem unstarred_of_not_mem {g : List Char} (h : '*' ∉ g) : Unstarred g := by
  intro c hc hstar
  have : c = '*' := by simpa [stars] using hstar
  exact h (this ▸ hc)

theorem masked_replace {old : List Char} (hne : old ≠ []) (s : List Char) :
    ∀ before, Masked stars (fun _ _ => True) before s (replace old stars s) := by
  refine replace_cases hne (P := fun s s' => ∀ before, Masked stars _ before s s') ?_ ?_ ?_ s
  · exact fun before => .nil before
  · exact fun rest ih before => .mask trivial (ih _)
  · exact fun c rest _ ih before => .keep (ih _)

/-- A replaced secret occurs no more. -/
theorem not_infix_replace {old : List Char} (hne : old ≠ []) (hold : Unstarred old)
    (s : List Char) : ¬old <:+: replace old stars s := by
  refine replace_cases hne (P := fun _ s' => ¬old <:+: s') ?_ ?_ ?_ s
  · intro h
    exact hne (List.infix_nil.mp h)
  · rintro rest ih ⟨a, t, h⟩
    obtain ⟨a', -, hrest⟩ := Masked.mask_append_inv hne hold h.symm
    exact ih ⟨a', t, hrest.symm⟩
  · intro c rest hstart ih h
    obtain h | h := List.infix_cons_iff.mp h
    · -- a new occurrence would begin with a character that has been kept
      obtain ⟨t, ht⟩ := h
      have hmasked : Masked stars (fun _ _ => True) [] (c :: rest) (old ++ t) := by
        rw [ht]
        exact .keep (masked_replace hne rest _)
      obtain ⟨r, hr, -⟩ := Masked.append_inv stars_ne_nil hold hmasked
      exact hstart ⟨r, hr.symm⟩
    · exact ih h

/-- After the secrets none of them occurs, in whatever order they are taken. -/
theorem replaced_secrets (secrets : List String)
    (h : ∀ secret ∈ secrets, secret.toList ≠ [] ∧ '*' ∉ secret.toList) (s : List Char) :
    ∀ secret ∈ secrets, ¬secret.toList <:+:
      secrets.foldl (fun value secret => replace secret.toList stars value) s := by
  have hkeep : ∀ (l : List String) (g s : List Char), (∀ secret ∈ l, secret.toList ≠ []) →
      Unstarred g → ¬g <:+: s →
        ¬g <:+: l.foldl (fun value secret => replace secret.toList stars value) s := by
    intro l
    induction l with
    | nil =>
      intro g s _ _ hs
      exact hs
    | cons a l ih =>
      intro g s hl hg hs
      refine ih g _ (fun secret hsecret => hl secret (List.mem_cons_of_mem a hsecret)) hg ?_
      intro hin
      exact hs (Masked.infix_of stars_ne_nil hg (masked_replace (hl a List.mem_cons_self) s []) hin)
  induction secrets generalizing s with
  | nil =>
    intro secret hsecret
    cases hsecret
  | cons a l ih =>
    intro secret hsecret
    have htail := fun secret hsecret => h secret (List.mem_cons_of_mem a hsecret)
    obtain rfl | hsecret := List.mem_cons.mp hsecret
    · obtain ⟨hne, hstar⟩ := h secret List.mem_cons_self
      refine hkeep l _ _ (fun other hother => (htail other hother).1)
        (unstarred_of_not_mem hstar) ?_
      exact not_infix_replace hne (unstarred_of_not_mem hstar) s
    · exact ih htail _ secret hsecret

/-! ### Rules -/

/-- A token pattern: what precedes a token, and of which characters it is. -/
structure Rule where
  head : Regex
  body : Char → Bool
  grouped : Bool

/-- The pattern of a rule. -/
def Rule.pattern (r : Rule) : TokenPattern where
  pattern := .seq (headOf r.grouped r.head) (.chars r.body 1 none)
  grouped := r.grouped

/-- `Authorization: Bearer …`. -/
def authorizationRule : Rule where
  head := .cat [anyCase "Authorization:", .chars Text.isSpace 0 none, anyCase "Bearer",
    .chars Text.isSpace 1 none]
  body c := !Text.isSpace c
  grouped := true

/-- `Bearer …`. -/
def bearerRule : Rule where
  head := .cat [anyCase "Bearer", .chars Text.isSpace 1 none]
  body c := tokenChar (foldCase c) || c == '.'
  grouped := true

/-- `KGAT_…`. -/
def kgatRule : Rule where
  head := .lit "KGAT_"
  body := tokenChar
  grouped := false

/-- `KAGGLE_KEY=…` and its like. -/
def kaggleRule : Rule where
  head := .cat [anyCase "KAGGLE_",
    .alt (anyCase "API_TOKEN") (.alt (anyCase "KEY") (anyCase "USERNAME")), anyCase "="]
  body c := !Text.isSpace c
  grouped := true

theorem tokenPatterns_eq :
    tokenPatterns = [authorizationRule, bearerRule, kgatRule, kaggleRule].map Rule.pattern := rfl

/-- The letters of a text, in one case and without white space. -/
def letters (l : List Char) : List Char := (l.filter fun c => !Text.isSpace c).map foldCase

theorem letters_append (l m : List Char) : letters (l ++ m) = letters l ++ letters m := by
  rw [letters, List.filter_append, List.map_append]
  rfl

theorem isSpace_of_letters_eq_nil {l : List Char} (h : letters l = []) :
    ∀ c ∈ l, Text.isSpace c = true := by
  rw [letters, List.map_eq_nil_iff, List.filter_eq_nil_iff] at h
  intro c hc
  simpa using h c hc

/-- What the proofs use of a rule: its heads spell one of a few words, none of
which is part of another. -/
structure Rule.Sound (r : Rule) (words : List (List Char)) : Prop where
  plain : r.head.Plain
  /-- A token has no white space in it. -/
  solid : ∀ c, r.body c = true → Text.isSpace c = false
  /-- A token with a star may have anything else in it. -/
  full : r.body '*' = true → r.grouped = true ∧ ∀ c, Text.isSpace c = false → r.body c = true
  spells : ∀ g, r.head.Reads g → letters g ∈ words
  begins : ∀ g, r.head.Reads g → ∃ c g', g = c :: g' ∧ Text.isSpace c = false
  apart : ∀ v ∈ words, ∀ w ∈ words, v <:+: w → v = w
  unstarred : ∀ w ∈ words, '*' ∉ w

variable {r : Rule} {words : List (List Char)}

theorem Rule.Sound.head_unstarred (h : r.Sound words) {g : List Char} (hg : r.head.Reads g) :
    Unstarred g := by
  refine unstarred_of_not_mem fun hstar => h.unstarred _ (h.spells g hg) ?_
  rw [letters, List.mem_map]
  exact ⟨'*', List.mem_filter.mpr ⟨hstar, by decide⟩, by decide⟩

theorem Rule.Sound.head_ne_nil (h : r.Sound words) {g : List Char} (hg : r.head.Reads g) :
    g ≠ [] := by
  obtain ⟨c, g', rfl, -⟩ := h.begins g hg
  exact List.cons_ne_nil c g'

/-- A head within a head is all of it, up to white space at the end. -/
theorem Rule.Sound.head_alone (h : r.Sound words) {a g k : List Char} (hg : r.head.Reads g)
    (hagk : r.head.Reads (a ++ g ++ k)) : a = [] ∧ ∀ c ∈ k, Text.isSpace c = true := by
  have hword := h.spells _ hagk
  rw [letters_append, letters_append] at hword
  have heq := h.apart _ (h.spells g hg) _ hword ⟨letters a, letters k, rfl⟩
  have hlength := congrArg List.length heq
  rw [List.length_append, List.length_append] at hlength
  have ha : letters a = [] := List.length_eq_zero_iff.mp (by omega)
  have hk : letters k = [] := List.length_eq_zero_iff.mp (by omega)
  refine ⟨?_, isSpace_of_letters_eq_nil hk⟩
  obtain ⟨c, g', hbegin, hc⟩ := h.begins _ hagk
  cases a with
  | nil => rfl
  | cons d a =>
    rw [List.cons_append, List.cons_append] at hbegin
    obtain ⟨rfl, -⟩ := List.cons.inj hbegin
    have := isSpace_of_letters_eq_nil ha d List.mem_cons_self
    rw [hc] at this
    cases this

/-! ### Stable texts -/

/-- Every match of the rule stands before the stars already, with nothing more
of a token behind them. -/
def Stable (r : Rule) (s : List Char) : Prop :=
  ∀ a g x t, s = a ++ g ++ x :: t → r.head.Reads g → r.body x = true →
    ∃ t', x :: t = stars ++ t' ∧ ∀ y t'', t' = y :: t'' → r.body y = false

theorem Stable.suffix {a s : List Char} (h : Stable r (a ++ s)) : Stable r s := by
  intro b g x t hs
  refine h (a ++ b) g x t ?_
  rw [hs]
  simp

/-- `pattern.sub` of a rule from a place on. -/
def Rule.sub (r : Rule) (before s : List Char) : List Char :=
  subFrom r.pattern.pattern r.pattern.replacement 0 before s

/-- What a match of a rule keeps. -/
def Rule.kept (r : Rule) (g : List Char) : List Char := if r.grouped then g else []

/-- A text is empty, or begins with a match, or begins with none. -/
theorem Rule.Sound.sub_cases (h : r.Sound words) {P : List Char → List Char → List Char → Prop}
    (hnil : ∀ before, P before [] [])
    (hmatch : ∀ before g u x t, u = x :: t → r.head.Reads g → r.body x = true →
      P ((g ++ u.takeWhile r.body).reverse ++ before) (u.dropWhile r.body)
        (r.sub ((g ++ u.takeWhile r.body).reverse ++ before) (u.dropWhile r.body)) →
      P before (g ++ u) (r.kept g ++ (stars ++
        r.sub ((g ++ u.takeWhile r.body).reverse ++ before) (u.dropWhile r.body))))
    (hcons : ∀ before c rest, (∀ g x t, c :: rest = g ++ x :: t → r.head.Reads g → r.body x ≠ true) →
      P (c :: before) rest (r.sub (c :: before) rest) →
      P before (c :: rest) (c :: r.sub (c :: before) rest))
    (before s : List Char) : P before s (r.sub before s) := by
  induction hn : s.length using Nat.strong_induction_on generalizing before s with
  | _ n ih =>
    cases s with
    | nil => exact hnil before
    | cons c rest =>
      cases hrun : r.pattern.pattern.run ⟨before, c :: rest, []⟩ some with
      | none =>
        have hsub : r.sub before (c :: rest) = c :: r.sub (c :: before) rest := subFrom_of_none hrun
        rw [hsub]
        refine hcons before c rest (fun g x t heq hg hx => ?_) ?_
        · have hsome : ((Regex.seq (headOf r.grouped r.head) (.chars r.body 1 none)).run
              ⟨before, g ++ x :: t, []⟩ some).isSome := run_head_tail_isSome h.plain hg hx
          have hnone : (Regex.seq (headOf r.grouped r.head) (.chars r.body 1 none)).run
              ⟨before, c :: rest, []⟩ some = none := hrun
          rw [← heq, hnone] at hsome
          cases hsome
        · refine ih rest.length ?_ _ rest rfl
          rw [← hn, List.length_cons]
          omega
      | some d =>
        obtain ⟨g, u, hgu, hg, hne, -, hbefore, hgroup⟩ := run_head_tail h.plain hrun
        have hsplit : c :: rest = g ++ u.takeWhile r.body ++ u.dropWhile r.body := by
          rw [hgu, List.append_assoc, List.takeWhile_append_dropWhile]
        have hlong : g ++ u.takeWhile r.body ≠ [] := by
          intro hnil
          exact hne (List.append_eq_nil_iff.mp hnil).2
        have hrepl : r.pattern.replacement d = r.kept g ++ stars := by
          cases hgrouped : r.grouped with
          | false => simp [TokenPattern.replacement, Rule.pattern, Rule.kept, hgrouped]
          | true => simp [TokenPattern.replacement, Rule.pattern, Rule.kept, hgrouped, hgroup hgrouped]
        have hsub : r.sub before (c :: rest) = r.kept g ++ (stars ++
            r.sub ((g ++ u.takeWhile r.body).reverse ++ before) (u.dropWhile r.body)) := by
          rw [hsplit] at hrun ⊢
          rw [Rule.sub, subFrom_of_match hlong hrun hbefore, hrepl, List.append_assoc]
          rfl
        rw [hsub, hgu]
        cases u with
        | nil => exact absurd rfl hne
        | cons x t =>
          have hx : r.body x = true := by
            by_contra hx
            exact hne (List.takeWhile_cons_of_neg hx)
          refine hmatch before g (x :: t) x t rfl hg hx (ih _ ?_ _ _ rfl)
          have := congrArg List.length hsplit
          rw [hn, List.length_append] at this
          have := List.length_pos_of_ne_nil hlong
          omega

/-- The segments a rule masks begin with no white space, and with a star only
behind a head. -/
def Rule.Segment (r : Rule) (before b : List Char) : Prop :=
  ∃ x b', b = x :: b' ∧ Text.isSpace x = false ∧
    (x = '*' → r.body '*' = true ∧ ∃ g before', r.head.Reads g ∧ before = g.reverse ++ before')

theorem Rule.Sound.masked (h : r.Sound words) (before s : List Char) :
    Masked stars r.Segment before s (r.sub before s) := by
  refine h.sub_cases (P := Masked stars r.Segment) Masked.nil ?_ ?_ before s
  · intro before g u x t hu hg hx ih
    have htake : u.takeWhile r.body = x :: t.takeWhile r.body := by
      rw [hu, List.takeWhile_cons_of_pos hx]
    have hsplit : g ++ u = g ++ (u.takeWhile r.body ++ u.dropWhile r.body) := by
      rw [List.takeWhile_append_dropWhile]
    rw [hsplit, Rule.kept]
    cases hgrouped : r.grouped with
    | true =>
      refine Masked.keep_append (Masked.mask ?_ ?_)
      · refine ⟨x, _, htake, h.solid x hx, fun hstar => ⟨hstar ▸ hx, g, before, hg, rfl⟩⟩
      · rw [← List.append_assoc, ← List.reverse_append]
        exact ih
    | false =>
      -- the head goes with the token
      obtain ⟨c, g', hbegin, hc⟩ := h.begins g hg
      rw [← List.append_assoc]
      refine Masked.mask ⟨c, g' ++ u.takeWhile r.body, by rw [hbegin]; rfl, hc, ?_⟩ ih
      rintro rfl
      exact absurd (by simp [stars]) (h.head_unstarred hg '*' (hbegin ▸ List.mem_cons_self))
  · intro before c rest _ ih
    exact Masked.keep ih

/-- What precedes a token character of the masked text precedes one of the text. -/
theorem Rule.Sound.first_char (h : r.Sound words) {seg : List Char → List Char → Prop}
    (hseg : ∀ before b, seg before b → ∃ x b', b = x :: b' ∧ Text.isSpace x = false)
    {before u t : List Char} {x : Char} (hmasked : Masked stars seg before u (x :: t))
    (hx : r.body x = true) : ∃ x' u', u = x' :: u' ∧ r.body x' = true := by
  generalize ht : x :: t = z at hmasked
  cases hmasked with
  | nil => cases ht
  | keep hmasked =>
    obtain ⟨rfl, -⟩ := List.cons.inj ht
    exact ⟨x, _, rfl, hx⟩
  | mask hb hmasked =>
    obtain ⟨rfl, -⟩ := List.cons.inj ht
    obtain ⟨y, b, rfl, hy⟩ := hseg _ _ hb
    exact ⟨y, _, rfl, (h.full hx).2 y hy⟩

theorem Rule.segment_solid (before b : List Char) (h : r.Segment before b) :
    ∃ x b', b = x :: b' ∧ Text.isSpace x = false := by
  obtain ⟨x, b', hb, hx, -⟩ := h
  exact ⟨x, b', hb, hx⟩

/-- **A rule makes its own matches stable.** -/
theorem Rule.Sound.stable_sub (h : r.Sound words) (before s : List Char) :
    Stable r (r.sub before s) := by
  refine h.sub_cases (P := fun _ _ s' => Stable r s') ?_ ?_ ?_ before s
  · intro before a g x t heq
    simp at heq
  · intro before g₀ u x₀ t₀ hu hg₀ hx₀ ih a g x t heq hg hx
    generalize hR : r.sub ((g₀ ++ u.takeWhile r.body).reverse ++ before) (u.dropWhile r.body) = R
      at ih heq
    have hmasked := h.masked ((g₀ ++ u.takeWhile r.body).reverse ++ before) (u.dropWhile r.body)
    rw [hR] at hmasked
    -- what follows the mask is no token character
    have hend : ∀ y t'', R = y :: t'' → r.body y = false := by
      rintro y t'' rfl
      by_contra hy
      obtain ⟨y', u', hdrop, hy'⟩ :=
        h.first_char Rule.segment_solid hmasked (by simpa using hy)
      have hnot := List.head?_dropWhile_not r.body u
      rw [hdrop] at hnot
      simp [hy'] at hnot
    have hbehind : ∀ a', a = r.kept g₀ ++ a' →
        stars ++ R = a' ++ g ++ x :: t → ∃ t', x :: t = stars ++ t' ∧
          ∀ y t'', t' = y :: t'' → r.body y = false := by
      intro a' _ hrest
      obtain ⟨a'', -, hR'⟩ :=
        Masked.mask_append_inv (h.head_ne_nil hg) (h.head_unstarred hg) hrest
      exact ih a'' g x t hR' hg hx
    rw [List.append_assoc a g] at heq
    obtain ⟨a', ha, hrest⟩ | ⟨k, hk, hrest⟩ := List.append_eq_append_iff.mp heq
    · exact hbehind a' ha (by rw [hrest, List.append_assoc])
    · -- a head that begins within the head that has been kept is that head
      cases hgrouped : r.grouped with
      | false =>
        rw [Rule.kept, hgrouped] at hk
        obtain ⟨rfl, rfl⟩ := List.append_eq_nil_iff.mp hk.symm
        exact hbehind [] (by simp [Rule.kept, hgrouped]) (by simpa using hrest.symm)
      | true =>
        rw [Rule.kept, hgrouped, if_pos rfl] at hk
        obtain ⟨k', hk', hmask⟩ | ⟨m, hm, hmask⟩ := List.append_eq_append_iff.mp hrest
        · rw [hk, hk', ← List.append_assoc] at hg₀
          obtain ⟨-, hspaces⟩ := h.head_alone hg hg₀
          cases k' with
          | nil => exact ⟨R, hmask, hend⟩
          | cons z k' =>
            obtain ⟨rfl, -⟩ := List.cons.inj hmask
            have hz := hspaces x List.mem_cons_self
            rw [h.solid x hx] at hz
            cases hz
        · cases m with
          | nil => exact ⟨R, hmask.symm, hend⟩
          | cons z m =>
            obtain ⟨rfl, -⟩ := List.cons.inj hmask
            exact absurd (by simp [stars]) (h.head_unstarred hg '*' (by rw [hm]; simp))
  · intro before c rest hnone ih a g x t heq hg hx
    cases a with
    | nil =>
      have hmasked : Masked stars r.Segment before (c :: rest) (g ++ x :: t) := by
        rw [List.nil_append] at heq
        rw [← heq]
        exact Masked.keep (h.masked _ rest)
      obtain ⟨u, hu, hmasked⟩ := Masked.append_inv stars_ne_nil (h.head_unstarred hg) hmasked
      obtain ⟨x', u', rfl, hx'⟩ := h.first_char Rule.segment_solid hmasked hx
      exact absurd hx' (hnone g x' u' hu hg)
    | cons d a =>
      rw [List.cons_append, List.cons_append] at heq
      exact ih a g x t (List.cons.inj heq).2 hg hx

/-- A star is kept where no segment with a star begins. -/
theorem keep_star {seg : List Char → List Char → Prop} {before w z : List Char}
    (hseg : ∀ b, seg before b → ∃ x b', b = x :: b' ∧ x ≠ '*')
    (h : Masked stars seg before ('*' :: w) z) :
    ∃ z', z = '*' :: z' ∧ Masked stars seg ('*' :: before) w z' := by
  generalize ht : '*' :: w = t at h
  cases h with
  | nil => cases ht
  | keep h =>
    obtain ⟨rfl, rfl⟩ := List.cons.inj ht
    exact ⟨_, rfl, h⟩
  | mask hb h =>
    obtain ⟨x, b', rfl, hx⟩ := hseg _ hb
    obtain ⟨rfl, -⟩ := List.cons.inj ht
    exact absurd rfl hx

/-- Segments that begin with no white space, and with a star only behind an
equals sign. -/
def LateSegment (before b : List Char) : Prop :=
  ∃ x b', b = x :: b' ∧ Text.isSpace x = false ∧ (x = '*' → before.head? = some '=')

theorem lateSegment_ne_star {before b : List Char} (hbefore : before.head? ≠ some '=')
    (h : LateSegment before b) : ∃ x b', b = x :: b' ∧ x ≠ '*' := by
  obtain ⟨x, b', rfl, -, hstar⟩ := h
  exact ⟨x, b', rfl, fun hx => hbefore (hstar hx)⟩

/-- **A later rule leaves them stable**, if the heads do not end in an equals
sign. -/
theorem Rule.Sound.stable_of_masked (h : r.Sound words)
    (hends : r.body '*' = true → ∀ g, r.head.Reads g → g.getLast? ≠ some '=') {s s' : List Char}
    (hmasked : Masked stars LateSegment [] s s') (hs : Stable r s) : Stable r s' := by
  have hsolid : ∀ before b, LateSegment before b → ∃ x b', b = x :: b' ∧ Text.isSpace x = false := by
    rintro before b ⟨x, b', hb, hx, -⟩
    exact ⟨x, b', hb, hx⟩
  intro a g x t heq hg hx
  rw [heq] at hmasked
  obtain ⟨a₀, u, hu, hrest⟩ :=
    Masked.at_inv stars_ne_nil (h.head_ne_nil hg) (h.head_unstarred hg) hmasked
  subst hu
  obtain ⟨x', u', rfl, hx'⟩ := h.first_char hsolid hrest hx
  obtain ⟨t₀, ht₀, hend⟩ := hs a₀ g x' u' rfl hg hx'
  rw [ht₀] at hrest
  have hstar : r.body '*' = true := by
    obtain ⟨rfl, -⟩ := List.cons.inj ht₀
    exact hx'
  -- the three stars behind the head are kept
  have hbefore : (g.reverse ++ (a₀.reverse ++ [])).head? ≠ some '=' := by
    rw [List.head?_append_of_ne_nil _ (by simpa using h.head_ne_nil hg), List.head?_reverse]
    exact hends hstar g hg
  obtain ⟨z₁, hz₁, hrest₁⟩ := keep_star (fun b => lateSegment_ne_star hbefore) hrest
  obtain ⟨z₂, hz₂, hrest₂⟩ := keep_star (fun b => lateSegment_ne_star (by simp)) hrest₁
  obtain ⟨z₃, hz₃, hrest₃⟩ := keep_star (fun b => lateSegment_ne_star (by simp)) hrest₂
  refine ⟨z₃, by rw [hz₁, hz₂, hz₃]; rfl, fun y t'' hy => ?_⟩
  by_contra hbody
  rw [hy] at hrest₃
  obtain ⟨y', u'', hu'', hy'⟩ := h.first_char hsolid hrest₃ (by simpa using hbody)
  rw [hend y' u'' hu''] at hy'
  cases hy'

/-- A stable text is left as it is. -/
theorem Rule.Sound.sub_of_stable (h : r.Sound words) (before s : List Char) (hs : Stable r s) :
    r.sub before s = s := by
  revert hs
  refine h.sub_cases (P := fun _ s s' => Stable r s → s' = s) ?_ ?_ ?_ before s
  · exact fun _ _ => rfl
  · intro before g u x t hu hg hx ih hs
    subst hu
    obtain ⟨t', ht', hend⟩ := hs [] g x t rfl hg hx
    have hstar : r.body '*' = true := by
      obtain ⟨rfl, -⟩ := List.cons.inj ht'
      exact hx
    have htake : (stars ++ t').takeWhile r.body = stars := by
      rw [List.takeWhile_append_of_pos (by simp [stars, hstar])]
      cases t' with
      | nil => simp
      | cons y t' => rw [List.takeWhile_cons_of_neg (by simp [hend y t' rfl]), List.append_nil]
    have hdrop : (stars ++ t').dropWhile r.body = t' := by
      have := List.takeWhile_append_dropWhile (p := r.body) (l := stars ++ t')
      rw [htake] at this
      exact List.append_cancel_left this
    rw [ht', htake, hdrop] at ih ⊢
    have hrest : Stable r t' := by
      refine Stable.suffix (a := g ++ stars) ?_
      rw [List.append_assoc, ← ht']
      exact hs
    rw [ih hrest, Rule.kept, if_pos (h.full hstar).1]
  · intro before c rest _ ih hs
    rw [ih (Stable.suffix (a := [c]) hs)]

/-! ### The four rules -/

theorem foldCase_of_isSpace {c : Char} (h : Text.isSpace c = true) : Text.isSpace (foldCase c) = true := by
  have hspace := h
  simp only [Text.isSpace, Bool.or_eq_true, Bool.and_eq_true, decide_eq_true_eq, beq_iff_eq] at h
  rw [foldCase, if_neg (by omega), if_neg (by omega), if_neg (by omega)]
  have hlower : c.toLower = c := by
    refine dif_neg ?_
    rintro ⟨hlow, hhigh⟩
    have h1 : 65 ≤ c.toNat := hlow
    have h2 : c.toNat ≤ 90 := hhigh
    omega
  rw [hlower]
  exact hspace

theorem reads_cons_class {p : Char → Bool} {r : Regex} {l : List Char} :
    (Regex.seq (.one p) r).Reads l ↔ ∃ c l', l = c :: l' ∧ p c = true ∧ r.Reads l' := by
  constructor
  · rintro ⟨l₁, l₂, rfl, ⟨hall, hlow, hhigh⟩, h₂⟩
    have hlength : l₁.length = 1 := le_antisymm (hhigh 1 rfl) hlow
    obtain ⟨c, rfl⟩ := List.length_eq_one_iff.mp hlength
    exact ⟨c, l₂, rfl, hall c List.mem_cons_self, h₂⟩
  · rintro ⟨c, l', rfl, hc, h⟩
    exact ⟨[c], l', rfl, by simp [Regex.one, Reads, hc], h⟩

/-- White space is no part of a token. -/
theorem tokenChar_of_isSpace {c : Char} (h : Text.isSpace c = true) : tokenChar c = false := by
  simp only [Text.isSpace, Bool.or_eq_true, Bool.and_eq_true, decide_eq_true_eq, beq_iff_eq] at h
  by_contra htoken
  have hupper : c.isUpper = decide (c.val ≥ 'A'.val ∧ c.val ≤ 'Z'.val) := rfl
  have hlower : c.isLower = (decide (c.val ≥ 'a'.val) && decide (c.val ≤ 'z'.val)) := rfl
  have halpha : c.isAlpha = (c.isUpper || c.isLower) := rfl
  simp only [tokenChar, Char.isAlphanum, halpha, hupper, hlower, Char.isDigit,
    Bool.not_eq_false, Bool.or_eq_true, Bool.and_eq_true, decide_eq_true_eq, beq_iff_eq, ge_iff_le,
    UInt32.le_iff_toNat_le] at htoken
  obtain ((((⟨h1, h2⟩ | ⟨h1, h2⟩) | ⟨h1, h2⟩) | rfl) | rfl) := htoken
  · have h1 : 65 ≤ c.toNat := h1
    have h2 : c.toNat ≤ 90 := h2
    omega
  · have h1 : 97 ≤ c.toNat := h1
    have h2 : c.toNat ≤ 122 := h2
    omega
  · have h1 : 48 ≤ c.toNat := h1
    have h2 : c.toNat ≤ 57 := h2
    omega
  · exact absurd h (by decide)
  · exact absurd h (by decide)

/-- The readings of a word in either case. -/
theorem reads_anyCase {word : String} {l : List Char} :
    (anyCase word).Reads l ↔ l.map foldCase = word.toList.map foldCase := by
  rw [anyCase]
  induction word.toList generalizing l with
  | nil => exact ⟨fun h => by rw [show l = [] from h], fun h => List.map_eq_nil_iff.mp h⟩
  | cons c w ih =>
    rw [List.foldr_cons, reads_cons_class, List.map_cons]
    constructor
    · rintro ⟨d, l', rfl, hd, hl'⟩
      rw [List.map_cons, ih.mp hl', beq_iff_eq.mp hd]
    · intro h
      obtain ⟨d, l', rfl, hd, hl'⟩ := List.map_eq_cons_iff.mp h
      exact ⟨d, l', rfl, beq_iff_eq.mpr hd, ih.mpr hl'⟩

theorem reads_lit {word : String} {l : List Char} : (Regex.lit word).Reads l ↔ l = word.toList := by
  rw [Regex.lit]
  induction word.toList generalizing l with
  | nil => exact Iff.rfl
  | cons c w ih =>
    rw [List.foldr_cons, reads_cons_class]
    constructor
    · rintro ⟨d, l', rfl, hd, hl'⟩
      rw [ih.mp hl', beq_iff_eq.mp hd]
    · rintro rfl
      exact ⟨c, w, rfl, beq_iff_eq.mpr rfl, ih.mpr rfl⟩

theorem plain_anyCase (word : String) : (anyCase word).Plain := by
  rw [anyCase]
  induction word.toList with
  | nil => trivial
  | cons c w ih => exact ⟨trivial, ih⟩

/-- The letters of a word without white space are the word. -/
theorem solid_of_all {l : List Char} (h : l.all (fun c => !Text.isSpace c) = true) :
    ∀ c ∈ l, Text.isSpace c = false := by
  intro c hc
  simpa using List.all_eq_true.mp h c hc

theorem letters_of_reads {word : String} {l : List Char} (h : (anyCase word).Reads l)
    (hword : ∀ c ∈ word.toList.map foldCase, Text.isSpace c = false) :
    letters l = word.toList.map foldCase ∧ ∀ c ∈ l, Text.isSpace c = false := by
  have hsolid : ∀ c ∈ l, Text.isSpace c = false := by
    intro c hc
    by_contra hspace
    have hin : foldCase c ∈ word.toList.map foldCase := by
      rw [← reads_anyCase.mp h]
      exact List.mem_map_of_mem hc
    have := foldCase_of_isSpace (by simpa using hspace)
    rw [hword _ hin] at this
    cases this
  refine ⟨?_, hsolid⟩
  rw [letters, List.filter_eq_self.mpr (by simpa using hsolid), reads_anyCase.mp h]

theorem letters_of_spaces {l : List Char} (h : ∀ c ∈ l, Text.isSpace c = true) : letters l = [] := by
  rw [letters, List.filter_eq_nil_iff.mpr (by simpa using h), List.map_nil]

/-- The letters of a word in one case. -/
def folded (word : String) : List Char := word.toList.map foldCase

theorem begins_of_reads {word : String} {l m : List Char} (h : (anyCase word).Reads l)
    (hword : ∀ c ∈ folded word, Text.isSpace c = false) (hne : folded word ≠ []) :
    ∃ c g', l ++ m = c :: g' ∧ Text.isSpace c = false := by
  cases l with
  | nil => exact absurd (reads_anyCase.mp h).symm hne
  | cons c l => exact ⟨c, l ++ m, rfl, (letters_of_reads h hword).2 c List.mem_cons_self⟩

theorem sound_authorizationRule :
    authorizationRule.Sound [folded "Authorization:" ++ folded "Bearer"] where
  plain := ⟨plain_anyCase _, trivial, plain_anyCase _, trivial⟩
  solid c hc := by simpa [authorizationRule] using hc
  full _ := ⟨rfl, fun c hc => by simp [authorizationRule, hc]⟩
  spells g hg := by
    obtain ⟨l₁, _, rfl, h₁, l₂, _, rfl, h₂, l₃, l₄, rfl, h₃, h₄⟩ := hg
    have hfirst : letters l₁ = folded "Authorization:" := (letters_of_reads h₁ (solid_of_all (by decide))).1
    have hsecond : letters l₃ = folded "Bearer" := (letters_of_reads h₃ (solid_of_all (by decide))).1
    rw [letters_append, letters_append, letters_append, hfirst, hsecond, letters_of_spaces h₂.1,
      letters_of_spaces h₄.1]
    simp
  begins g hg := by
    obtain ⟨l₁, _, rfl, h₁, -⟩ := hg
    exact begins_of_reads h₁ (solid_of_all (by decide)) (by decide)
  apart := by simp
  unstarred := by decide

theorem sound_bearerRule : bearerRule.Sound [folded "Bearer"] where
  plain := ⟨plain_anyCase _, trivial⟩
  solid c hc := by
    by_contra hspace
    rw [Bool.not_eq_false] at hspace
    have hdot : c ≠ '.' := by
      rintro rfl
      exact absurd hspace (by decide)
    have hfold := tokenChar_of_isSpace (foldCase_of_isSpace hspace)
    simp [bearerRule, hfold, hdot] at hc
  full h := by
    exact absurd h (by decide)
  spells g hg := by
    obtain ⟨l₁, l₂, rfl, h₁, h₂⟩ := hg
    have hfirst : letters l₁ = folded "Bearer" := (letters_of_reads h₁ (solid_of_all (by decide))).1
    rw [letters_append, hfirst, letters_of_spaces h₂.1]
    simp
  begins g hg := by
    obtain ⟨l₁, _, rfl, h₁, -⟩ := hg
    exact begins_of_reads h₁ (solid_of_all (by decide)) (by decide)
  apart := by simp
  unstarred := by decide

theorem sound_kgatRule : kgatRule.Sound [letters "KGAT_".toList] where
  plain := by simp [kgatRule, Regex.lit, Plain, Regex.one]
  solid c hc := by
    by_contra hspace
    have hnot := tokenChar_of_isSpace (by simpa using hspace)
    rw [show tokenChar c = true from hc] at hnot
    cases hnot
  full h := by
    exact absurd h (by decide)
  spells g hg := by
    rw [reads_lit.mp hg]
    exact List.mem_singleton_self _
  begins g hg := by
    rw [reads_lit.mp hg]
    exact ⟨'K', ['G', 'A', 'T', '_'], rfl, by decide⟩
  apart := by simp
  unstarred := by decide

theorem sound_kaggleRule :
    kaggleRule.Sound [folded "KAGGLE_" ++ folded "API_TOKEN" ++ folded "=",
      folded "KAGGLE_" ++ folded "KEY" ++ folded "=",
      folded "KAGGLE_" ++ folded "USERNAME" ++ folded "="] where
  plain := ⟨plain_anyCase _, ⟨plain_anyCase _, plain_anyCase _, plain_anyCase _⟩, plain_anyCase _⟩
  solid c hc := by simpa [kaggleRule] using hc
  full _ := ⟨rfl, fun c hc => by simp [kaggleRule, hc]⟩
  spells g hg := by
    obtain ⟨l₁, _, rfl, h₁, l₂, l₃, rfl, h₂, h₃⟩ := hg
    have hfirst : letters l₁ = folded "KAGGLE_" := (letters_of_reads h₁ (solid_of_all (by decide))).1
    have hlast : letters l₃ = folded "=" := (letters_of_reads h₃ (solid_of_all (by decide))).1
    rw [letters_append, letters_append, hfirst, hlast, ← List.append_assoc]
    obtain h₂ | h₂ | h₂ := h₂
    · rw [show letters l₂ = folded "API_TOKEN" from (letters_of_reads h₂ (solid_of_all (by decide))).1]
      simp
    · rw [show letters l₂ = folded "KEY" from (letters_of_reads h₂ (solid_of_all (by decide))).1]
      simp
    · rw [show letters l₂ = folded "USERNAME" from (letters_of_reads h₂ (solid_of_all (by decide))).1]
      simp
  begins g hg := by
    obtain ⟨l₁, _, rfl, h₁, -⟩ := hg
    exact begins_of_reads h₁ (solid_of_all (by decide)) (by decide)
  apart := by decide
  unstarred := by decide

/-! ### The whole redaction -/

/-- The rules that come later mask late segments only. -/
theorem Rule.Sound.late (h : r.Sound words)
    (hends : r.body '*' = true → ∀ g, r.head.Reads g → g.getLast? = some '=') (s : List Char) :
    Masked stars LateSegment [] s (r.sub [] s) := by
  refine (h.masked [] s).mono ?_
  rintro before b ⟨x, b', hb, hx, hstar⟩
  refine ⟨x, b', hb, hx, fun hx => ?_⟩
  obtain ⟨hbody, g, before', hg, rfl⟩ := hstar hx
  rw [List.head?_append_of_ne_nil _ (by simpa using h.head_ne_nil hg), List.head?_reverse]
  exact hends hbody g hg

theorem late_bearerRule (s : List Char) : Masked stars LateSegment [] s (bearerRule.sub [] s) :=
  sound_bearerRule.late (fun h => absurd h (by decide)) s

theorem late_kgatRule (s : List Char) : Masked stars LateSegment [] s (kgatRule.sub [] s) :=
  sound_kgatRule.late (fun h => absurd h (by decide)) s

theorem eq_of_foldCase_eq {c : Char} (h : foldCase c = '=') : c = '=' := by
  rw [foldCase] at h
  split at h
  · exact absurd h (by decide)
  split at h
  · exact absurd h (by decide)
  split at h
  · exact absurd h (by decide)
  by_cases hupper : c.val ≥ 'A'.val ∧ c.val ≤ 'Z'.val
  · -- a capital becomes a small letter
    exfalso
    have hsmall : c.toLower = ⟨c.val + ('a'.val - 'A'.val), _⟩ := dif_pos hupper
    rw [hsmall] at h
    have hval := congrArg (fun d : Char => d.val.toNat) h
    have h1 : 65 ≤ c.val.toNat := hupper.1
    have h2 : c.val.toNat ≤ 90 := hupper.2
    simp only [UInt32.toNat_add] at hval
    have h3 : ('a'.val - 'A'.val : UInt32).toNat = 32 := by decide
    have h4 : ('='.val : UInt32).toNat = 61 := by decide
    rw [h3, h4] at hval
    omega
  · have hsame : c.toLower = c := dif_neg hupper
    exact hsame.symm.trans h

/-- The names of the variables end in an equals sign. -/
theorem late_kaggleRule (s : List Char) : Masked stars LateSegment [] s (kaggleRule.sub [] s) := by
  refine sound_kaggleRule.late (fun _ g hg => ?_) s
  obtain ⟨l₁, _, rfl, -, l₂, l₃, rfl, -, h₃⟩ := hg
  obtain ⟨c, l, rfl, hc, hl⟩ := List.map_eq_cons_iff.mp (reads_anyCase.mp h₃)
  obtain rfl : l = [] := List.map_eq_nil_iff.mp hl
  rw [eq_of_foldCase_eq (show foldCase c = '=' from hc)]
  simp

/-- A header ends in white space. -/
theorem ends_authorizationRule (g : List Char) (hg : authorizationRule.head.Reads g) :
    g.getLast? ≠ some '=' := by
  obtain ⟨l₁, _, rfl, -, l₂, _, rfl, -, l₃, l₄, rfl, -, hall, hlow, -⟩ := hg
  intro hlast
  have hne : l₄ ≠ [] := List.ne_nil_of_length_pos hlow
  rw [← List.append_assoc, ← List.append_assoc, List.getLast?_append_of_ne_nil _ hne] at hlast
  have := hall '=' (List.mem_of_getLast? hlast)
  exact absurd this (by decide)

/-- After the four rules every one of them is stable. -/
theorem stable_rules (s : List Char) :
    ∀ r ∈ [authorizationRule, bearerRule, kgatRule, kaggleRule],
      Stable r (tokenPatterns.foldl (fun value p => p.pattern.sub p.replacement value) s) := by
  have hfold : tokenPatterns.foldl (fun value p => p.pattern.sub p.replacement value) s =
      kaggleRule.sub [] (kgatRule.sub [] (bearerRule.sub [] (authorizationRule.sub [] s))) := rfl
  rw [hfold]
  generalize h₁ : authorizationRule.sub [] s = s₁
  generalize h₂ : bearerRule.sub [] s₁ = s₂
  generalize h₃ : kgatRule.sub [] s₂ = s₃
  have hlate₂ : Masked stars LateSegment [] s₁ s₂ := h₂ ▸ late_bearerRule s₁
  have hlate₃ : Masked stars LateSegment [] s₂ s₃ := h₃ ▸ late_kgatRule s₂
  have hlate₄ := late_kaggleRule s₃
  intro r hr
  simp only [List.mem_cons, List.not_mem_nil, or_false] at hr
  obtain rfl | rfl | rfl | rfl := hr
  · have hstable : Stable authorizationRule s₁ := h₁ ▸ sound_authorizationRule.stable_sub [] s
    have hkeep : ∀ {t t' : List Char}, Masked stars LateSegment [] t t' →
        Stable authorizationRule t → Stable authorizationRule t' :=
      sound_authorizationRule.stable_of_masked fun _ => ends_authorizationRule
    exact hkeep hlate₄ (hkeep hlate₃ (hkeep hlate₂ hstable))
  · have hstable : Stable bearerRule s₂ := h₂ ▸ sound_bearerRule.stable_sub [] s₁
    have hkeep : ∀ {t t' : List Char}, Masked stars LateSegment [] t t' →
        Stable bearerRule t → Stable bearerRule t' :=
      sound_bearerRule.stable_of_masked fun h => absurd h (by decide)
    exact hkeep hlate₄ (hkeep hlate₃ hstable)
  · have hstable : Stable kgatRule s₃ := h₃ ▸ sound_kgatRule.stable_sub [] s₂
    exact sound_kgatRule.stable_of_masked (fun h => absurd h (by decide)) hlate₄ hstable
  · exact sound_kaggleRule.stable_sub [] s₃

theorem masked_tokenPatterns (s : List Char) :
    ∀ g, Unstarred g →
      g <:+: tokenPatterns.foldl (fun value p => p.pattern.sub p.replacement value) s → g <:+: s := by
  intro g hg hin
  have hfold : tokenPatterns.foldl (fun value p => p.pattern.sub p.replacement value) s =
      kaggleRule.sub [] (kgatRule.sub [] (bearerRule.sub [] (authorizationRule.sub [] s))) := rfl
  rw [hfold] at hin
  have hin := Masked.infix_of stars_ne_nil hg (sound_kaggleRule.masked [] _) hin
  have hin := Masked.infix_of stars_ne_nil hg (sound_kgatRule.masked [] _) hin
  have hin := Masked.infix_of stars_ne_nil hg (sound_bearerRule.masked [] _) hin
  exact Masked.infix_of stars_ne_nil hg (sound_authorizationRule.masked [] _) hin

/-- **Redaction**: whatever the registered secrets have in common, none of them
is left, and a second pass changes nothing. -/
theorem redactSecrets_sound (extraSecrets : List String)
    (h : ∀ secret ∈ extraSecrets, secret ≠ "" ∧ '*' ∉ secret.toList) (text : String) :
    (∀ secret ∈ extraSecrets,
      occursIn secret.toList (redactSecrets extraSecrets text).toList = false) ∧
    redactSecrets extraSecrets (redactSecrets extraSecrets text) =
      redactSecrets extraSecrets text := by
  have hsorted : ∀ secret ∈ extraSecrets.insertionSort fun a b => b.length ≤ a.length,
      secret.toList ≠ [] ∧ '*' ∉ secret.toList := by
    intro secret hsecret
    obtain ⟨hne, hstar⟩ := h secret ((List.mem_insertionSort _).mp hsecret)
    exact ⟨by simpa using hne, hstar⟩
  have hclean : ∀ secret ∈ extraSecrets,
      occursIn secret.toList (redactSecrets extraSecrets text).toList = false := by
    intro secret hsecret
    rw [← Bool.not_eq_true, occursIn_iff, redactSecrets, String.toList_ofList]
    intro hin
    have hmem := (List.mem_insertionSort fun a b : String => b.length ≤ a.length).mpr hsecret
    exact replaced_secrets _ hsorted text.toList secret hmem
      (masked_tokenPatterns _ _ (unstarred_of_not_mem (h secret hsecret).2) hin)
  refine ⟨hclean, ?_⟩
  generalize hvalue : redactSecrets extraSecrets text = value at hclean
  rw [redactSecrets]
  have hsecrets : (extraSecrets.insertionSort fun a b => b.length ≤ a.length).foldl
      (fun value secret => replace secret.toList stars value) value.toList = value.toList := by
    refine foldl_eq_self fun secret hsecret => ?_
    exact replace_eq_self (hclean secret ((List.mem_insertionSort _).mp hsecret))
  have hstable : ∀ r ∈ [authorizationRule, bearerRule, kgatRule, kaggleRule],
      Stable r value.toList := by
    rw [← hvalue, redactSecrets, String.toList_ofList]
    exact stable_rules _
  have htokens : tokenPatterns.foldl (fun value p => p.pattern.sub p.replacement value)
      value.toList = value.toList := by
    refine foldl_eq_self fun p hp => ?_
    rw [tokenPatterns_eq, List.mem_map] at hp
    obtain ⟨r, hr, rfl⟩ := hp
    obtain ⟨words, hsound⟩ : ∃ words, r.Sound words := by
      simp only [List.mem_cons, List.not_mem_nil, or_false] at hr
      obtain rfl | rfl | rfl | rfl := hr
      · exact ⟨_, sound_authorizationRule⟩
      · exact ⟨_, sound_bearerRule⟩
      · exact ⟨_, sound_kgatRule⟩
      · exact ⟨_, sound_kaggleRule⟩
    exact hsound.sub_of_stable [] value.toList (hstable r hr)
  rw [hsecrets, htokens, String.ofList_toList]

theorem redactSecrets_sound_sample :
    (∀ secret ∈ ["pass", "password"],
      occursIn secret.toList (redactSecrets ["pass", "password"] "my password").toList = false) ∧
    redactSecrets ["pass", "password"] (redactSecrets ["pass", "password"] "my password") =
      redactSecrets ["pass", "password"] "my password" :=
  redactSecrets_sound _ (by decide) _

end KaggleRelay

/-
The language of a pattern.

`Regex.run` searches with backtracking; `Regex.Reads` says which texts a
pattern stands for, without groups, references and boundaries.

* `run_reads` — what the matcher passes over is a text of the pattern;
* `run_isSome` — it finds a match where there is one;
* `run_head_tail` — a pattern that ends with a repetition: a text of the head,
  and then as many characters of the class as there are;
* `subFrom_of_match`, `subFrom_of_none` — substitution, one match at a time.
-/
import KaggleRelay.Regex
import Mathlib.Data.List.TakeWhile

namespace Regex

variable {α : Type}

/-- The texts of a pattern. -/
def Reads : Regex → List Char → Prop
  | .empty, l => l = []
  | .chars p min max, l => (∀ c ∈ l, p c = true) ∧ min ≤ l.length ∧ ∀ m, max = some m → l.length ≤ m
  | .seq a b, l => ∃ l₁ l₂, l = l₁ ++ l₂ ∧ a.Reads l₁ ∧ b.Reads l₂
  | .alt a b, l => a.Reads l ∨ b.Reads l
  | .group _ a, l => a.Reads l
  | .back _, _ => False
  | .bound _, _ => False

/-- A pattern without groups, references and boundaries. -/
def Plain : Regex → Prop
  | .empty => True
  | .chars _ _ _ => True
  | .seq a b => a.Plain ∧ b.Plain
  | .alt a b => a.Plain ∧ b.Plain
  | .group _ _ => False
  | .back _ => False
  | .bound _ => False

/-! ### Repetitions -/

/-- A repetition passes over characters of its class, within its bounds. -/
theorem many_reads {p : Char → Bool} {k : List Char → List Char → Option α} {a : α} :
    ∀ {t before : List Char} {min : ℕ} {max : Option ℕ}, many p min max before t k = some a →
      ∃ l rest, t = l ++ rest ∧ (Regex.chars p min max).Reads l ∧
        k (l.reverse ++ before) rest = some a := by
  intro t
  induction t with
  | nil =>
    intro before min max h
    rw [many] at h
    by_cases hmin : min = 0
    · rw [if_pos hmin] at h
      exact ⟨[], [], rfl, ⟨by simp, by simp [hmin], by simp⟩, h⟩
    · rw [if_neg hmin] at h
      cases h
  | cons c t ih =>
    intro before min max h
    have hstop : (if min = 0 then k before (c :: t) else none) = some a →
        ∃ l rest, c :: t = l ++ rest ∧ (Regex.chars p min max).Reads l ∧
          k (l.reverse ++ before) rest = some a := by
      intro h
      by_cases hmin : min = 0
      · rw [if_pos hmin] at h
        exact ⟨[], c :: t, rfl, ⟨by simp, by simp [hmin], by simp⟩, h⟩
      · rw [if_neg hmin] at h
        cases h
    rw [many] at h
    by_cases hc : (p c && max != some 0) = true
    · rw [if_pos hc] at h
      split at h
      · next x heq =>
        obtain rfl := Option.some.inj h
        obtain ⟨l, rest, rfl, ⟨hall, hlow, hhigh⟩, hk⟩ := ih heq
        rw [Bool.and_eq_true, bne_iff_ne] at hc
        refine ⟨c :: l, rest, rfl, ⟨?_, ?_, ?_⟩, by simpa using hk⟩
        · intro d hd
          rcases List.mem_cons.mp hd with rfl | hd
          · exact hc.1
          · exact hall d hd
        · rw [List.length_cons]
          omega
        · intro m hm
          have := hhigh (m - 1) (by rw [hm]; rfl)
          have hm0 : m ≠ 0 := fun h0 => hc.2 (by rw [hm, h0])
          rw [List.length_cons]
          omega
      · exact hstop h
    · rw [if_neg hc] at h
      exact hstop h

/-- Where some number of characters leads on, the repetition does. -/
theorem many_isSome {p : Char → Bool} {k : List Char → List Char → Option α} {rest : List Char} :
    ∀ {l before : List Char} {min : ℕ} {max : Option ℕ}, (Regex.chars p min max).Reads l →
      (k (l.reverse ++ before) rest).isSome → (many p min max before (l ++ rest) k).isSome := by
  intro l
  induction l with
  | nil =>
    rintro before min max ⟨-, hmin, -⟩ hk
    obtain rfl : min = 0 := by simpa using hmin
    cases rest with
    | nil => simpa [many] using hk
    | cons c rest =>
      rw [List.nil_append, many]
      by_cases hc : (p c && max != some 0) = true
      · rw [if_pos hc]
        split
        · rfl
        · simpa using hk
      · rw [if_neg hc]
        simpa using hk
  | cons c l ih =>
    rintro before min max ⟨hall, hlow, hhigh⟩ hk
    have hmax : max ≠ some 0 := by
      intro h0
      have := hhigh 0 h0
      simp at this
    have hc : (p c && max != some 0) = true := by
      rw [Bool.and_eq_true, bne_iff_ne]
      exact ⟨hall c List.mem_cons_self, hmax⟩
    have hreads : (Regex.chars p (min - 1) (max.map (· - 1))).Reads l := by
      refine ⟨fun d hd => hall d (List.mem_cons_of_mem c hd), ?_, ?_⟩
      · rw [List.length_cons] at hlow
        omega
      · intro m hm
        obtain ⟨m', rfl, rfl⟩ := Option.map_eq_some_iff.mp hm
        have := hhigh m' rfl
        rw [List.length_cons] at this
        omega
    have hsome := @ih (c :: before) _ _ hreads (by simpa using hk)
    rw [List.cons_append, many, if_pos hc]
    split
    · rfl
    · next hnone =>
      rw [hnone] at hsome
      cases hsome

/-- A repetition at the end of a pattern takes all it can. -/
theorem many_greedy {p : Char → Bool} {f : List Char → List Char → α} {a : α} :
    ∀ {t before : List Char} {min : ℕ},
      many p min none before t (fun b r => some (f b r)) = some a →
        min ≤ (t.takeWhile p).length ∧ a = f ((t.takeWhile p).reverse ++ before) (t.dropWhile p) := by
  intro t
  induction t with
  | nil =>
    intro before min h
    rw [many] at h
    by_cases hmin : min = 0
    · rw [if_pos hmin] at h
      exact ⟨by simp [hmin], (Option.some.inj h).symm⟩
    · rw [if_neg hmin] at h
      cases h
  | cons c t ih =>
    intro before min h
    rw [many] at h
    by_cases hc : p c = true
    · rw [if_pos (by simp [hc]), Option.map_none] at h
      rw [List.takeWhile_cons_of_pos hc, List.dropWhile_cons_of_pos hc]
      split at h
      · next x heq =>
        obtain rfl := Option.some.inj h
        obtain ⟨hmin, rfl⟩ := ih heq
        refine ⟨?_, by simp⟩
        rw [List.length_cons]
        omega
      · next hnone =>
        -- a longer run would have been taken
        exfalso
        by_cases hmin : min = 0
        · have hsome : (many p (min - 1) none (c :: before) t fun b r => some (f b r)).isSome := by
            have hreads : (Regex.chars p (min - 1) none).Reads [] := by simp [Reads, hmin]
            exact many_isSome (l := []) hreads rfl
          rw [hnone] at hsome
          cases hsome
        · rw [if_neg hmin] at h
          cases h
    · rw [if_neg (by simp [hc])] at h
      rw [List.takeWhile_cons_of_neg hc, List.dropWhile_cons_of_neg hc]
      by_cases hmin : min = 0
      · rw [if_pos hmin] at h
        exact ⟨by simp [hmin], (Option.some.inj h).symm⟩
      · rw [if_neg hmin] at h
        cases h

/-! ### The matcher -/

/-- **Soundness**: the matcher passes over a text of the pattern. -/
theorem run_reads {r : Regex} (hr : r.Plain) {c : Cursor} {k : Cursor → Option α} {a : α}
    (h : r.run c k = some a) : ∃ l rest, c.rest = l ++ rest ∧ r.Reads l ∧
      k ⟨l.reverse ++ c.before, rest, c.groups⟩ = some a := by
  induction r generalizing c k with
  | empty => exact ⟨[], c.rest, rfl, rfl, h⟩
  | chars p min max =>
    obtain ⟨l, rest, hrest, hreads, hk⟩ := many_reads h
    exact ⟨l, rest, hrest, hreads, hk⟩
  | seq r₁ r₂ ih₁ ih₂ =>
    obtain ⟨l₁, rest₁, hrest₁, hreads₁, h⟩ := ih₁ hr.1 h
    obtain ⟨l₂, rest₂, rfl, hreads₂, hk⟩ := ih₂ hr.2 h
    refine ⟨l₁ ++ l₂, rest₂, by rw [hrest₁, List.append_assoc], ⟨l₁, l₂, rfl, hreads₁, hreads₂⟩, ?_⟩
    rw [List.reverse_append, List.append_assoc]
    exact hk
  | alt r₁ r₂ ih₁ ih₂ =>
    rw [run] at h
    split at h
    · next x heq =>
      obtain rfl := Option.some.inj h
      obtain ⟨l, rest, hrest, hreads, hk⟩ := ih₁ hr.1 heq
      exact ⟨l, rest, hrest, .inl hreads, hk⟩
    · obtain ⟨l, rest, hrest, hreads, hk⟩ := ih₂ hr.2 h
      exact ⟨l, rest, hrest, .inr hreads, hk⟩
  | group n r => exact hr.elim
  | back n => exact hr.elim
  | bound isWord => exact hr.elim

/-- **Completeness**: where a text of the pattern leads on, the matcher does. -/
theorem run_isSome {r : Regex} (hr : r.Plain) {before l rest : List Char}
    {groups : List (ℕ × List Char)} {k : Cursor → Option α} (hl : r.Reads l)
    (hk : (k ⟨l.reverse ++ before, rest, groups⟩).isSome) :
    (r.run ⟨before, l ++ rest, groups⟩ k).isSome := by
  induction r generalizing before l rest k with
  | empty =>
    obtain rfl : l = [] := hl
    exact hk
  | chars p min max => exact many_isSome hl hk
  | seq r₁ r₂ ih₁ ih₂ =>
    obtain ⟨l₁, l₂, rfl, hl₁, hl₂⟩ := hl
    rw [List.append_assoc, run]
    refine ih₁ hr.1 hl₁ (ih₂ hr.2 hl₂ ?_)
    rw [List.reverse_append, List.append_assoc] at hk
    exact hk
  | alt r₁ r₂ ih₁ ih₂ =>
    rw [run]
    split
    · rfl
    · next hnone =>
      rcases hl with hl | hl
      · have := ih₁ hr.1 hl hk
        rw [hnone] at this
        cases this
      · exact ih₂ hr.2 hl hk
  | group n r => exact hr.elim
  | back n => exact hr.elim
  | bound isWord => exact hr.elim

/-! ### A head and a run of characters -/

theorem between_append (before l rest rest' : List Char) (groups groups' : List (ℕ × List Char)) :
    between ⟨before, rest, groups⟩ ⟨l.reverse ++ before, rest', groups'⟩ = l := by
  simp [between]

/-- The head of a pattern, as a group or not. -/
def headOf (grouped : Bool) (head : Regex) : Regex := if grouped then .group 1 head else head

/-- **A head and a run**: a match is a text of the head and all the characters
of the class behind it; a group holds the head. -/
theorem run_head_tail {head : Regex} (hhead : head.Plain) {grouped : Bool} {p : Char → Bool}
    {before t : List Char} {d : Cursor}
    (h : (Regex.seq (headOf grouped head) (.chars p 1 none)).run ⟨before, t, []⟩ some = some d) :
    ∃ g u, t = g ++ u ∧ head.Reads g ∧ u.takeWhile p ≠ [] ∧ d.rest = u.dropWhile p ∧
      d.before = (g ++ u.takeWhile p).reverse ++ before ∧ (grouped = true → d.group 1 = g) := by
  have htail : ∀ {g u : List Char} {groups : List (ℕ × List Char)},
      (Regex.chars p 1 none).run ⟨g.reverse ++ before, u, groups⟩ some = some d →
        u.takeWhile p ≠ [] ∧ d.rest = u.dropWhile p ∧
          d.before = (g ++ u.takeWhile p).reverse ++ before ∧ d.groups = groups := by
    intro g u groups htail
    obtain ⟨hmin, rfl⟩ := many_greedy htail
    refine ⟨List.ne_nil_of_length_pos hmin, rfl, ?_, rfl⟩
    rw [List.reverse_append, List.append_assoc]
  cases grouped with
  | false =>
    obtain ⟨g, u, rfl, hreads, hk⟩ := run_reads hhead h
    obtain ⟨hne, hrest, hbefore, -⟩ := htail hk
    exact ⟨g, u, rfl, hreads, hne, hrest, hbefore, fun h => by cases h⟩
  | true =>
    obtain ⟨g, u, rfl, hreads, hk⟩ := run_reads hhead h
    rw [between_append] at hk
    obtain ⟨hne, hrest, hbefore, hgroups⟩ := htail hk
    refine ⟨g, u, rfl, hreads, hne, hrest, hbefore, fun _ => ?_⟩
    rw [Cursor.group, hgroups]
    rfl

/-- There is a match wherever a text of the head is followed by a character of
the class. -/
theorem run_head_tail_isSome {head : Regex} (hhead : head.Plain) {grouped : Bool} {p : Char → Bool}
    {before g u : List Char} {x : Char} (hg : head.Reads g) (hx : p x = true) :
    ((Regex.seq (headOf grouped head) (.chars p 1 none)).run
      ⟨before, g ++ x :: u, []⟩ some).isSome := by
  have htail : ∀ groups : List (ℕ × List Char),
      ((Regex.chars p 1 none).run ⟨g.reverse ++ before, x :: u, groups⟩ some).isSome := by
    intro groups
    have hreads : (Regex.chars p 1 none).Reads [x] := by simp [Reads, hx]
    exact many_isSome (l := [x]) hreads rfl
  cases grouped with
  | false => exact run_isSome hhead hg (htail _)
  | true => exact run_isSome hhead hg (htail _)

/-! ### Substitution, one match at a time -/

theorem subFrom_skip (r : Regex) (repl : Cursor → List Char) :
    ∀ (l rest before : List Char), subFrom r repl l.length before (l ++ rest) =
      subFrom r repl 0 (l.reverse ++ before) rest := by
  intro l
  induction l with
  | nil =>
    intro rest before
    rfl
  | cons c l ih =>
    intro rest before
    rw [List.length_cons, List.cons_append, subFrom, ih]
    simp

theorem subFrom_of_none {r : Regex} {repl : Cursor → List Char} {before rest : List Char} {c : Char}
    (h : r.run ⟨before, c :: rest, []⟩ some = none) :
    subFrom r repl 0 before (c :: rest) = c :: subFrom r repl 0 (c :: before) rest := by
  rw [subFrom, h]

theorem subFrom_of_match {r : Regex} {repl : Cursor → List Char} {before l rest : List Char}
    {d : Cursor} (hl : l ≠ []) (h : r.run ⟨before, l ++ rest, []⟩ some = some d)
    (hd : d.before = l.reverse ++ before) :
    subFrom r repl 0 before (l ++ rest) = repl d ++ subFrom r repl 0 (l.reverse ++ before) rest := by
  obtain ⟨c, l, rfl⟩ := List.exists_cons_of_ne_nil hl
  have hlength : d.before.length - before.length - 1 = l.length := by
    rw [hd, List.length_append, List.length_reverse, List.length_cons]
    omega
  rw [List.cons_append] at h ⊢
  rw [subFrom, h]
  simp only [hlength]
  rw [subFrom_skip, List.reverse_cons, List.append_assoc]
  rfl

end Regex

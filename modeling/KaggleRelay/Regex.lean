/-
Regular expressions with greedy backtracking.

A pattern is matched as Python's `re` matches it: alternatives are tried in
order, a repetition takes as much as it can and gives back one character at a
time, and groups keep the text they matched last.  Repetition is over classes
of characters only, so the matcher recurses on the pattern and on the text.

* `matchStart` — `pattern.match`; `fullmatch` — `pattern.fullmatch`;
* `sub` — `pattern.sub`, for patterns that match no empty text;
* `sub_eq_self` — a text in which the pattern matches nowhere is left as it is.
-/
import Mathlib.Data.List.Basic

/-- A pattern. -/
inductive Regex where
  /-- Nothing. -/
  | empty
  /-- At least `min` and at most `max` characters of a class, as many as possible. -/
  | chars (p : Char → Bool) (min : ℕ) (max : Option ℕ)
  | seq (a b : Regex)
  /-- The first alternative that leads to a match. -/
  | alt (a b : Regex)
  | group (n : ℕ) (a : Regex)
  /-- The text of a group again. -/
  | back (n : ℕ)
  /-- A word boundary. -/
  | bound (isWord : Char → Bool)

namespace Regex

/-- A place in a text: what lies before it, last character first, what
follows, and the groups, the latest first. -/
structure Cursor where
  before : List Char
  rest : List Char
  groups : List (ℕ × List Char)

/-- `match.group(n)`. -/
def Cursor.group (c : Cursor) (n : ℕ) : List Char := (c.groups.lookup n).getD []

/-- One character of a class. -/
def one (p : Char → Bool) : Regex := .chars p 1 (some 1)

/-- The characters of a text. -/
def lit (s : String) : Regex := s.toList.foldr (fun c r => .seq (one (· == c)) r) .empty

/-- One after the other. -/
def cat : List Regex → Regex
  | [] => .empty
  | [r] => r
  | r :: rs => .seq r (cat rs)

section Matching

variable {α : Type}

/-- A repetition: the longest run first, then one character less at a time. -/
def many (p : Char → Bool) : ℕ → Option ℕ → List Char → List Char →
    (List Char → List Char → Option α) → Option α
  | min, _, before, [], k => if min = 0 then k before [] else none
  | min, max, before, c :: rest, k =>
    if p c && max != some 0 then
      match many p (min - 1) (max.map (· - 1)) (c :: before) rest k with
      | some a => some a
      | none => if min = 0 then k before (c :: rest) else none
    else if min = 0 then k before (c :: rest) else none

/-- The text passed over between two places. -/
def between (c d : Cursor) : List Char :=
  (d.before.take (d.before.length - c.before.length)).reverse

/-- The pattern at a place, then whatever `k` asks of the place behind it. -/
def run : Regex → Cursor → (Cursor → Option α) → Option α
  | .empty, c, k => k c
  | .chars p min max, c, k =>
    many p min max c.before c.rest fun before rest => k ⟨before, rest, c.groups⟩
  | .seq a b, c, k => a.run c fun d => b.run d k
  | .alt a b, c, k =>
    match a.run c k with
    | some x => some x
    | none => b.run c k
  | .group n a, c, k => a.run c fun d => k { d with groups := (n, between c d) :: d.groups }
  | .back n, c, k =>
    let text := c.group n
    if text.isPrefixOf c.rest then
      k { c with before := text.reverse ++ c.before, rest := c.rest.drop text.length }
    else none
  | .bound isWord, c, k =>
    if c.before.head?.any isWord != c.rest.head?.any isWord then k c else none

end Matching

/-- `pattern.match(s)`. -/
def matchStart (r : Regex) (s : String) : Option Cursor := r.run ⟨[], s.toList, []⟩ some

/-- `pattern.fullmatch(s)`. -/
def fullmatch (r : Regex) (s : String) : Option Cursor :=
  r.run ⟨[], s.toList, []⟩ fun c => if c.rest.isEmpty then some c else none

/-- `pattern.sub` from a place on: `skip` characters still belong to the last
match. -/
def subFrom (r : Regex) (repl : Cursor → List Char) : ℕ → List Char → List Char → List Char
  | _, _, [] => []
  | skip + 1, before, c :: rest => subFrom r repl skip (c :: before) rest
  | 0, before, c :: rest =>
    match r.run ⟨before, c :: rest, []⟩ some with
    | some d => repl d ++ subFrom r repl (d.before.length - before.length - 1) (c :: before) rest
    | none => c :: subFrom r repl 0 (c :: before) rest

/-- `pattern.sub(repl, s)`. -/
def sub (r : Regex) (repl : Cursor → List Char) (s : List Char) : List Char :=
  subFrom r repl 0 [] s

/-- The pattern matches somewhere in the text. -/
def searchFrom (r : Regex) : List Char → List Char → Bool
  | _, [] => false
  | before, c :: rest =>
    (r.run ⟨before, c :: rest, []⟩ some).isSome || searchFrom r (c :: before) rest

/-- `pattern.search(s) is not None`. -/
def search (r : Regex) (s : List Char) : Bool := searchFrom r [] s

theorem subFrom_eq_self {r : Regex} (repl : Cursor → List Char) :
    ∀ (before s : List Char), searchFrom r before s = false → subFrom r repl 0 before s = s := by
  intro before s
  induction s generalizing before with
  | nil =>
    intro _
    rfl
  | cons c rest ih =>
    intro h
    rw [searchFrom, Bool.or_eq_false_iff] at h
    have hnone : r.run ⟨before, c :: rest, []⟩ some = none := by simpa using h.1
    rw [subFrom, hnone]
    exact congrArg (c :: ·) (ih _ h.2)

/-- A text in which the pattern matches nowhere is left as it is. -/
theorem sub_eq_self {r : Regex} (repl : Cursor → List Char) {s : List Char}
    (h : r.search s = false) : r.sub repl s = s :=
  subFrom_eq_self repl [] s h

end Regex

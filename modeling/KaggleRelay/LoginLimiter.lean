/-
The limiter of failed logins.

`AuthFailureLimiter` keeps, for each key, a deque of failures that it prunes and
a time until which the key is blocked; `Reference` keeps every failure and the
start of the last lockout, and prunes nothing.  Readings of the clock are
doubles, and what the limiter adds and subtracts is rounded to a double.

* `limiter_eq_reference` — over every history of calls the two report the same
  keys blocked, a blocked key is told to wait a positive number of whole seconds
  that covers the rest of its lockout, and the calls for one key do not affect
  another;
* `limiter_exceeds_lockout` — a key that is told to wait longer than the lockout.
-/
import Mathlib.Data.Rat.Floor
import Mathlib.Data.List.Sort
import Mathlib.Tactic.Linarith
import Mathlib.Tactic.Ring
import KaggleRelay.Binary64

namespace KaggleRelay

/-- The arguments of the limiter, whose seconds are doubles. -/
structure AuthFailureLimiter where
  failureLimit : ℕ
  windowSeconds : ℕ
  lockoutSeconds : ℕ
  failureLimit_pos : 0 < failureLimit
  windowSeconds_pos : 0 < windowSeconds
  lockoutSeconds_pos : 0 < lockoutSeconds
  windowSeconds_lt : windowSeconds < 2 ^ 52
  lockoutSeconds_lt : lockoutSeconds < 2 ^ 52

namespace AuthFailureLimiter

variable {κ : Type}

section Limiter

variable [DecidableEq κ]

/-! ### The limiter -/

/-- `_failures` and `_blocked_until`; a key without a deque has an empty one. -/
structure Tables (κ : Type) where
  failures : κ → List ℚ
  blockedUntil : κ → Option ℚ

/-- The tables of a new limiter. -/
def empty : Tables κ := ⟨fun _ => [], fun _ => none⟩

/-- The whole seconds a blocked key is told to wait. -/
def wait (blockedUntil now : ℚ) : ℤ := max 1 ⌈Binary64.sub blockedUntil now⌉

def retryAfter (key : κ) (now : ℚ) (t : Tables κ) : ℤ × Tables κ :=
  let blockedUntil := (t.blockedUntil key).getD 0
  if blockedUntil ≤ now then
    (0, { t with blockedUntil := Function.update t.blockedUntil key none })
  else (wait blockedUntil now, t)

def recordFailure (c : AuthFailureLimiter) (key : κ) (now : ℚ) (t : Tables κ) : ℤ × Tables κ :=
  let blockedUntil := (t.blockedUntil key).getD 0
  if now < blockedUntil then (wait blockedUntil now, t)
  else
    let cutoff := Binary64.sub now c.windowSeconds
    let failures := (t.failures key).dropWhile (· ≤ cutoff) ++ [now]
    if failures.length < c.failureLimit then
      (0, { t with failures := Function.update t.failures key failures })
    else
      (c.lockoutSeconds, {
        failures := Function.update t.failures key []
        blockedUntil := Function.update t.blockedUntil key
          (some (Binary64.round (now + c.lockoutSeconds))) })

def clear (key : κ) (t : Tables κ) : Tables κ where
  failures := Function.update t.failures key []
  blockedUntil := Function.update t.blockedUntil key none

/-! ### Histories -/

inductive Method where
  | retryAfter
  | recordFailure
  | clear
  deriving DecidableEq

/-- A call, with the reading of `time.monotonic` it takes. -/
structure Call (κ : Type) where
  time : ℚ
  key : κ
  method : Method

def Call.perform (c : AuthFailureLimiter) (e : Call κ) (t : Tables κ) : Tables κ :=
  match e.method with
  | .retryAfter => (retryAfter e.key e.time t).2
  | .recordFailure => (c.recordFailure e.key e.time t).2
  | .clear => clear e.key t

/-- The tables after some calls, the last call first. -/
def tables (c : AuthFailureLimiter) : List (Call κ) → Tables κ
  | [] => empty
  | e :: h => e.perform c (c.tables h)

/-- A reading of the clock: a double that is not negative, and below `2 ^ 52`. -/
structure Reading (t : ℚ) : Prop where
  nonneg : 0 ≤ t
  lt : t < 2 ^ 52
  round_eq : Binary64.round t = t

/-- The reading comes after all calls. -/
def After (h : List (Call κ)) (t : ℚ) : Prop := Reading t ∧ ∀ e ∈ h, e.time ≤ t

/-- The clock does not run backwards. -/
def Timed : List (Call κ) → Prop
  | [] => True
  | e :: h => After h e.time ∧ Timed h

/-! ### The reference -/

/-- What the specification remembers of a key. -/
structure Reference where
  /-- The unblocked failures since the last clear or lockout, the last first. -/
  failures : List ℚ
  /-- The start of the last lockout, unless the key has been cleared since. -/
  lockout : Option ℚ

/-- The end of a lockout: the double nearest to the end of its seconds. -/
def lockoutEnd (c : AuthFailureLimiter) (t₀ : ℚ) : ℚ := Binary64.round (t₀ + c.lockoutSeconds)

/-- The time lies in the last lockout. -/
def Reference.Blocked (c : AuthFailureLimiter) (r : Reference) (t : ℚ) : Prop :=
  ∃ t₀, r.lockout = some t₀ ∧ t₀ ≤ t ∧ t < c.lockoutEnd t₀

instance (c : AuthFailureLimiter) (r : Reference) (t : ℚ) : Decidable (r.Blocked c t) :=
  match hr : r.lockout with
  | none => isFalse fun ⟨_, h, _⟩ => nomatch hr.symm.trans h
  | some t₀ => decidable_of_iff (t₀ ≤ t ∧ t < c.lockoutEnd t₀)
      ⟨fun h => ⟨t₀, hr, h⟩, fun ⟨t₁, h, hb⟩ => by cases hr.symm.trans h; exact hb⟩

/-- The failures in the window that ends at a time. -/
def inWindow (c : AuthFailureLimiter) (t : ℚ) (failures : List ℚ) : List ℚ :=
  failures.filter fun x => t - c.windowSeconds < x ∧ x ≤ t

/-- A failure at a time: a lockout starts where the window is full. -/
def Reference.fail (c : AuthFailureLimiter) (r : Reference) (t : ℚ) : Reference :=
  if r.Blocked c t then r
  else if c.failureLimit ≤ (c.inWindow t (t :: r.failures)).length then ⟨[], some t⟩
  else { r with failures := t :: r.failures }

/-- The specification: every failure is remembered until a clear or a lockout. -/
def reference (c : AuthFailureLimiter) (key : κ) : List (Call κ) → Reference
  | [] => ⟨[], none⟩
  | e :: h =>
    let r := c.reference key h
    if e.key ≠ key then r
    else match e.method with
      | .retryAfter => r
      | .recordFailure => r.fail c e.time
      | .clear => ⟨[], none⟩

end Limiter

/-! ### The tables follow the reference -/

variable {c : AuthFailureLimiter} {h : List (Call κ)} {e : Call κ} {key : κ} {t : ℚ}

theorem After.tail (ha : After (e :: h) t) : After h t :=
  ⟨ha.1, fun x hx => ha.2 x (List.mem_cons_of_mem _ hx)⟩

theorem After.head (ha : After (e :: h) t) : e.time ≤ t := ha.2 e List.mem_cons_self

/-- A lockout lasts, and longer than its seconds by half a second at most. -/
theorem lockoutEnd_bounds (ht : Reading t) : t < c.lockoutEnd t ∧ c.lockoutEnd t ≤ t + c.lockoutSeconds + 1 / 2 := by
  have hone : (1 : ℚ) ≤ c.lockoutSeconds := by exact_mod_cast c.lockoutSeconds_pos
  have hlockout : (c.lockoutSeconds : ℚ) < 2 ^ 52 := by exact_mod_cast c.lockoutSeconds_lt
  have hlt : t + c.lockoutSeconds < 2 ^ 53 := by
    have := ht.lt
    linarith [show (2 : ℚ) ^ 52 + 2 ^ 52 = 2 ^ 53 by norm_num]
  obtain ⟨hlow, hhigh⟩ := abs_le.mp (Binary64.abs_round_sub_le hlt)
  unfold lockoutEnd
  constructor <;> linarith

/-- The entries of one key agree with what the reference remembers. -/
structure Agrees (c : AuthFailureLimiter) (h : List (Call κ)) (failures : List ℚ)
    (blockedUntil : Option ℚ) (r : Reference) : Prop where
  sorted : failures.Pairwise (· ≤ ·)
  readings : ∀ x ∈ failures, 0 ≤ x
  past : ∀ t, After h t → (∀ x ∈ failures, x ≤ t) ∧ ∀ x ∈ r.failures, x ≤ t
  window : ∀ t, After h t → failures.filter (fun x => t - c.windowSeconds < x) =
    (r.failures.filter fun x => t - c.windowSeconds < x).reverse
  start : ∀ t, After h t → ∀ t₀, r.lockout = some t₀ → t₀ ≤ t
  reading : ∀ t₀, r.lockout = some t₀ → Reading t₀
  blocked : blockedUntil = r.lockout.map c.lockoutEnd ∨
    (blockedUntil = none ∧ ∀ t₀, r.lockout = some t₀ → ∀ t, After h t → c.lockoutEnd t₀ ≤ t)

/-- Pruning the front of a sorted list keeps what is above the cutoff. -/
theorem dropWhile_eq_filter {l : List ℚ} (hl : l.Pairwise (· ≤ ·)) (cutoff : ℚ) :
    l.dropWhile (· ≤ cutoff) = l.filter (cutoff < ·) := by
  induction l with
  | nil => rfl
  | cons a l ih =>
    obtain ⟨hhead, htail⟩ := List.pairwise_cons.mp hl
    by_cases ha : a ≤ cutoff
    · rw [List.dropWhile_cons_of_pos (by simpa using ha),
        List.filter_cons_of_neg (by simpa using ha), ih htail]
    · rw [List.dropWhile_cons_of_neg (by simpa using ha), List.filter_eq_self.mpr]
      intro x hx
      have hcutoff : cutoff < a := not_le.mp ha
      rcases List.mem_cons.mp hx with rfl | hx
      · simpa using hcutoff
      · simpa using lt_of_lt_of_le hcutoff (hhead x hx)

/-- Pruning the deque keeps what is in the window: the cutoff loses nothing. -/
theorem prune_eq_filter {l : List ℚ} (hl : l.Pairwise (· ≤ ·)) (hnonneg : ∀ x ∈ l, 0 ≤ x) (ht : Reading t) :
    l.dropWhile (· ≤ Binary64.sub t c.windowSeconds) = l.filter (t - c.windowSeconds < ·) := by
  rw [dropWhile_eq_filter hl]
  refine List.filter_congr fun x hx => decide_eq_decide.mpr ?_
  have hlt : t < 2 ^ 53 := ht.lt.trans (by norm_num)
  rw [← not_le, ← not_le, Binary64.le_sub_iff ht.round_eq hlt (hnonneg x hx)]

theorem Agrees.tail {failures : List ℚ} {blockedUntil : Option ℚ} {r : Reference}
    (ha : Agrees c h failures blockedUntil r) : Agrees c (e :: h) failures blockedUntil r where
  sorted := ha.sorted
  readings := ha.readings
  past t ht := ha.past t ht.tail
  window t ht := ha.window t ht.tail
  start t ht := ha.start t ht.tail
  reading := ha.reading
  blocked := ha.blocked.imp id fun ⟨hn, hs⟩ => ⟨hn, fun t₀ h₀ t ht => hs t₀ h₀ t ht.tail⟩

/-- The limiter takes a key for blocked while the reference does. -/
theorem Agrees.blocked_iff {failures : List ℚ} {blockedUntil : Option ℚ} {r : Reference}
    (ha : Agrees c h failures blockedUntil r) (ht : After h t) :
    t < blockedUntil.getD 0 ↔ r.Blocked c t := by
  rcases ha.blocked with hsome | ⟨hnone, hover⟩
  · rw [hsome]
    unfold Reference.Blocked
    rcases hr : r.lockout with _ | t₀
    · simpa using ht.1.nonneg
    · have hstart : t₀ ≤ t := ha.start t ht t₀ hr
      constructor
      · intro hlt
        exact ⟨t₀, rfl, hstart, hlt⟩
      · rintro ⟨_, h₀, -, hlt⟩
        cases h₀
        exact hlt
  · rw [hnone]
    constructor
    · intro hlt
      exact absurd ht.1.nonneg (not_le.mpr hlt)
    · rintro ⟨t₀, hr, -, hlt⟩
      exact absurd (hover t₀ hr t ht) (not_le.mpr hlt)

/-- What an answer says of a lockout: a positive number of whole seconds, one
above the lockout at most, and none above it where its end has not been rounded
up by more than what has passed.  It covers the rest, as a double. -/
structure Covers (c : AuthFailureLimiter) (t₀ t : ℚ) (answer : ℤ) : Prop where
  pos : 0 < answer
  le_succ : answer ≤ c.lockoutSeconds + 1
  le : c.lockoutEnd t₀ - t ≤ c.lockoutSeconds → answer ≤ c.lockoutSeconds
  covers : min (c.lockoutSeconds : ℚ) (Binary64.round (c.lockoutEnd t₀ - t)) ≤ answer

/-- What a blocked key is told to wait. -/
theorem covers_wait {t₀ : ℚ} (ht₀ : Reading t₀) (hstart : t₀ ≤ t) (hlt : t < c.lockoutEnd t₀) :
    Covers c t₀ t (wait (c.lockoutEnd t₀) t) := by
  have hlockout : (c.lockoutSeconds : ℚ) < 2 ^ 52 := by exact_mod_cast c.lockoutSeconds_lt
  have hend := (lockoutEnd_bounds (c := c) ht₀).2
  have hulp : Binary64.ulpExponent (c.lockoutEnd t₀ - t) ≤ 0 := by
    refine Binary64.ulpExponent_nonpos ?_
    linarith [show (2 : ℚ) ^ 52 + 1 / 2 < 2 ^ 53 by norm_num]
  have hsub : Binary64.sub (c.lockoutEnd t₀) t = Binary64.round (c.lockoutEnd t₀ - t) := by
    rw [Binary64.sub, if_neg (not_lt.mpr hlt.le)]
  have hint : ∀ n : ℤ, 1 ≤ n → c.lockoutEnd t₀ - t ≤ n → wait (c.lockoutEnd t₀) t ≤ n := by
    intro n hn hle
    rw [wait, hsub]
    exact max_le hn (Int.ceil_le.mpr (Binary64.round_le_int hulp hle))
  have hone : (1 : ℤ) ≤ c.lockoutSeconds := by exact_mod_cast c.lockoutSeconds_pos
  constructor
  case pos => exact Int.zero_lt_one.trans_le (le_max_left _ _)
  case le_succ =>
    refine hint _ (by omega) ?_
    push_cast
    linarith
  case le => exact fun hle => hint _ hone (by exact_mod_cast hle)
  case covers =>
    refine (min_le_right _ _).trans ?_
    rw [wait, hsub]
    exact (Int.le_ceil _).trans (by exact_mod_cast le_max_right _ _)

/-- The answer of a check is zero while the key is free, and otherwise covers the
rest of the lockout. -/
def Answers (c : AuthFailureLimiter) (r : Reference) (t : ℚ) (answer : ℤ) : Prop :=
  (answer ≠ 0 ↔ r.Blocked c t) ∧ ∀ t₀, r.lockout = some t₀ → r.Blocked c t → Covers c t₀ t answer

theorem Agrees.answers_wait {failures : List ℚ} {blockedUntil : Option ℚ} {r : Reference}
    (ha : Agrees c h failures blockedUntil r) (ht : After h t) (hb : r.Blocked c t) :
    Answers c r t (wait (blockedUntil.getD 0) t) := by
  obtain ⟨t₀, hr, hstart, hlt⟩ := hb
  have hvalue : blockedUntil.getD 0 = c.lockoutEnd t₀ := by
    rcases ha.blocked with hsome | ⟨-, hover⟩
    · rw [hsome, hr]
      rfl
    · exact absurd (hover t₀ hr t ht) (not_le.mpr hlt)
  have hcovers := covers_wait (ha.reading t₀ hr) hstart hlt
  rw [hvalue]
  refine ⟨⟨fun _ => ⟨t₀, hr, hstart, hlt⟩, fun _ => hcovers.pos.ne'⟩, fun t₁ h₁ _ => ?_⟩
  obtain rfl : t₀ = t₁ := Option.some.inj (hr.symm.trans h₁)
  exact hcovers

/-! ### The steps -/

theorem agrees_clear : Agrees c h [] none ⟨[], none⟩ where
  sorted := List.Pairwise.nil
  readings := nofun
  past _ _ := ⟨nofun, nofun⟩
  window _ _ := rfl
  start _ _ := nofun
  reading := nofun
  blocked := .inl rfl

/-- The pruned deque has the failures of the window, without the new one. -/
theorem Agrees.pruned {failures : List ℚ} {blockedUntil : Option ℚ} {r : Reference}
    (ha : Agrees c h failures blockedUntil r) (ht : After h t) :
    (failures.dropWhile (· ≤ Binary64.sub t c.windowSeconds) ++ [t]).length =
      (c.inWindow t (t :: r.failures)).length := by
  have hall : c.inWindow t (t :: r.failures) =
      t :: r.failures.filter fun x => t - c.windowSeconds < x := by
    have hpos : (0 : ℚ) < c.windowSeconds := by exact_mod_cast c.windowSeconds_pos
    unfold inWindow
    rw [List.filter_cons_of_pos (by simpa using hpos)]
    refine congrArg (t :: ·) (List.filter_congr fun x hx => ?_)
    have hle : x ≤ t := (ha.past t ht).2 x hx
    simp only [hle, and_true]
  rw [hall, prune_eq_filter ha.sorted ha.readings ht.1, ha.window t ht, List.length_append, List.length_reverse,
    List.length_singleton, List.length_cons]

variable [DecidableEq κ]

/-- **A failure.** -/
theorem Agrees.fail {e : Call κ} {tables : Tables κ} {r : Reference}
    (ha : Agrees c h (tables.failures e.key) (tables.blockedUntil e.key) r) (ht : After h e.time) :
    Agrees c (e :: h) ((c.recordFailure e.key e.time tables).2.failures e.key)
      ((c.recordFailure e.key e.time tables).2.blockedUntil e.key) (r.fail c e.time) ∧
    Answers c (r.fail c e.time) e.time (c.recordFailure e.key e.time tables).1 := by
  have hiff := ha.blocked_iff ht
  unfold recordFailure Reference.fail
  by_cases hb : r.Blocked c e.time
  · -- while the key is blocked nothing changes
    rw [if_pos (hiff.mpr hb), if_pos hb]
    exact ⟨ha.tail, ha.answers_wait ht hb⟩
  · rw [if_neg (fun hlt => hb (hiff.mp hlt)), if_neg hb]
    dsimp only
    rw [ha.pruned ht]
    by_cases hfull : c.failureLimit ≤ (c.inWindow e.time (e.time :: r.failures)).length
    · -- a lockout starts
      have hpos : (0 : ℤ) < c.lockoutSeconds := by exact_mod_cast c.lockoutSeconds_pos
      rw [if_neg (not_lt.mpr hfull), if_pos hfull]
      simp only [Function.update_self]
      refine ⟨⟨List.Pairwise.nil, nofun, fun _ _ => ⟨nofun, nofun⟩, fun _ _ => rfl, ?_, ?_, .inl rfl⟩, ?_, ?_⟩
      · intro t ht' t₀ h₀
        cases h₀
        exact ht'.head
      · intro t₀ h₀
        cases h₀
        exact ht.1
      · exact ⟨fun _ => ⟨e.time, rfl, le_rfl, (lockoutEnd_bounds ht.1).1⟩, fun _ => hpos.ne'⟩
      · intro t₀ h₀ _
        cases h₀
        exact ⟨hpos, by omega, fun _ => le_rfl, (min_le_left _ _).trans_eq (by push_cast; rfl)⟩
    · -- one more failure
      rw [if_pos (not_le.mp hfull), if_neg hfull]
      simp only [Function.update_self]
      obtain ⟨hpast, hpast'⟩ := ha.past e.time ht
      refine ⟨⟨?_, ?_, ?_, ?_, ?_, ha.reading, ha.tail.blocked⟩, ?_, ?_⟩
      · rw [prune_eq_filter ha.sorted ha.readings ht.1, List.pairwise_append]
        refine ⟨ha.sorted.filter _, List.pairwise_singleton _ _, fun x hx y hy => ?_⟩
        rw [List.mem_singleton.mp hy]
        exact hpast x (List.mem_of_mem_filter hx)
      · intro x hx
        rcases List.mem_append.mp hx with hx | hx
        · exact ha.readings x ((List.dropWhile_sublist _).mem hx)
        · rw [List.mem_singleton.mp hx]
          exact ht.1.nonneg
      · intro t ht'
        constructor
        · intro x hx
          rcases List.mem_append.mp hx with hx | hx
          · exact (ha.past t ht'.tail).1 x ((List.dropWhile_sublist _).mem hx)
          · rw [List.mem_singleton.mp hx]
            exact ht'.head
        · intro x hx
          rcases List.mem_cons.mp hx with rfl | hx
          · exact ht'.head
          · exact (ha.past t ht'.tail).2 x hx
      · intro t ht'
        -- what the pruning drops is outside every later window
        have hlater : ∀ x, t - (c.windowSeconds : ℚ) < x → e.time - c.windowSeconds < x := by
          intro x hx
          have := ht'.head
          linarith
        have hprune : ((tables.failures e.key).filter (fun x => e.time - (c.windowSeconds : ℚ) < x)).filter
            (fun x => t - (c.windowSeconds : ℚ) < x) =
              (tables.failures e.key).filter fun x => t - (c.windowSeconds : ℚ) < x := by
          rw [List.filter_filter]
          refine List.filter_congr fun x _ => ?_
          by_cases hx : t - (c.windowSeconds : ℚ) < x
          · simp [hx, hlater x hx]
          · simp [hx]
        rw [prune_eq_filter ha.sorted ha.readings ht.1, List.filter_append, hprune, ha.window t ht'.tail]
        by_cases hx : t - (c.windowSeconds : ℚ) < e.time
        · rw [List.filter_cons_of_pos (by simpa using hx), List.filter_cons_of_pos (by simpa using hx),
            List.reverse_cons, List.filter_nil]
        · rw [List.filter_cons_of_neg (by simpa using hx), List.filter_cons_of_neg (by simpa using hx),
            List.filter_nil, List.append_nil]
      · intro t ht' t₀ h₀
        exact ha.start t ht'.tail t₀ h₀
      · refine ⟨fun hne => absurd rfl hne, fun hblocked => ?_⟩
        exact absurd hblocked hb
      · intro t₀ _ hblocked
        exact absurd hblocked hb

/-- **A check.** -/
theorem Agrees.check {e : Call κ} {tables : Tables κ} {r : Reference}
    (ha : Agrees c h (tables.failures e.key) (tables.blockedUntil e.key) r) (ht : After h e.time) :
    Agrees c (e :: h) ((retryAfter e.key e.time tables).2.failures e.key)
      ((retryAfter e.key e.time tables).2.blockedUntil e.key) r ∧
    Answers c r e.time (retryAfter e.key e.time tables).1 := by
  have hiff := ha.blocked_iff ht
  unfold retryAfter
  by_cases hb : r.Blocked c e.time
  · rw [if_neg (not_le.mpr (hiff.mpr hb))]
    exact ⟨ha.tail, ha.answers_wait ht hb⟩
  · have hle : (tables.blockedUntil e.key).getD 0 ≤ e.time := not_lt.mp fun hlt => hb (hiff.mp hlt)
    rw [if_pos hle]
    simp only [Function.update_self]
    refine ⟨⟨ha.sorted, ha.readings, ha.tail.past, ha.tail.window, ha.tail.start, ha.reading, .inr ⟨rfl, ?_⟩⟩,
      ?_, ?_⟩
    · -- a lockout that is over now stays over
      intro t₀ h₀ t ht'
      by_contra hlt
      refine hb ⟨t₀, h₀, ha.start _ ht t₀ h₀, ?_⟩
      have := ht'.head
      linarith [not_le.mp hlt]
    · exact ⟨fun hne => absurd rfl hne, fun hblocked => absurd hblocked hb⟩
    · exact fun _ _ hblocked => absurd hblocked hb

/-- A call for another key. -/
theorem perform_other {e : Call κ} (tables : Tables κ) (hk : key ≠ e.key) :
    (e.perform c tables).failures key = tables.failures key ∧
      (e.perform c tables).blockedUntil key = tables.blockedUntil key := by
  unfold Call.perform retryAfter recordFailure clear
  cases e.method with
  | retryAfter =>
    dsimp only
    split <;> simp [Function.update_of_ne hk]
  | recordFailure =>
    dsimp only
    split
    · exact ⟨rfl, rfl⟩
    · split <;> simp [Function.update_of_ne hk]
  | clear => simp [Function.update_of_ne hk]

/-- **The tables follow the reference.** -/
theorem agrees_tables (hh : Timed h) (key : κ) :
    Agrees c h ((c.tables h).failures key) ((c.tables h).blockedUntil key) (c.reference key h) := by
  induction h with
  | nil => exact agrees_clear
  | cons e h ih =>
    obtain ⟨ht, hh⟩ := hh
    have ha := ih hh
    rw [tables, reference]
    by_cases hk : e.key = key
    · subst hk
      simp only [ne_eq, not_true_eq_false, if_false]
      unfold Call.perform
      cases e.method with
      | retryAfter => exact (ha.check ht).1
      | recordFailure => exact (ha.fail ht).1
      | clear =>
        simp only [clear, Function.update_self]
        exact agrees_clear
    · obtain ⟨hfailures, hblocked⟩ := perform_other (c := c) (c.tables h) (Ne.symm hk)
      rw [hfailures, hblocked]
      simp only [ne_eq, hk, not_false_eq_true, if_true]
      exact ha.tail

/-- The calls for one key decide its entries. -/
theorem tables_filter (key : κ) :
    (c.tables h).failures key = (c.tables (h.filter (·.key = key))).failures key ∧
      (c.tables h).blockedUntil key = (c.tables (h.filter (·.key = key))).blockedUntil key := by
  induction h with
  | nil => exact ⟨rfl, rfl⟩
  | cons e h ih =>
    by_cases hk : e.key = key
    · subst hk
      rw [List.filter_cons_of_pos (by simp), tables, tables]
      unfold Call.perform retryAfter recordFailure clear
      cases e.method with
      | retryAfter =>
        simp only [ih.2]
        split <;> simp [ih.1, ih.2]
      | recordFailure =>
        simp only [ih.1, ih.2]
        split
        · exact ⟨ih.1, ih.2⟩
        · split <;> simp [ih.2]
      | clear => simp
    · obtain ⟨hfailures, hblocked⟩ := perform_other (c := c) (c.tables h) (Ne.symm hk)
      rw [List.filter_cons_of_neg (by simpa using hk), tables, hfailures, hblocked]
      exact ih

/-- **The limiter is the sliding window it stands for**: after every history of
calls a check and a failure answer what the reference says about the key,
and both depend on the calls for this key alone. -/
theorem limiter_eq_reference (c : AuthFailureLimiter) (h : List (Call κ)) (hh : Timed h) (key : κ)
    (t : ℚ) (ht : After h t) :
    Answers c (c.reference key h) t (retryAfter key t (c.tables h)).1 ∧
    Answers c (c.reference key (⟨t, key, .recordFailure⟩ :: h)) t
      (c.recordFailure key t (c.tables h)).1 ∧
    (retryAfter key t (c.tables h)).1 =
      (retryAfter key t (c.tables (h.filter (·.key = key)))).1 ∧
    (c.recordFailure key t (c.tables h)).1 =
      (c.recordFailure key t (c.tables (h.filter (·.key = key)))).1 := by
  have ha := agrees_tables (c := c) hh key
  obtain ⟨hfailures, hblocked⟩ := tables_filter (c := c) (h := h) key
  refine ⟨(ha.check (e := ⟨t, key, .retryAfter⟩) ht).2, ?_, ?_, ?_⟩
  · have hr : c.reference key (⟨t, key, .recordFailure⟩ :: h) = (c.reference key h).fail c t := by
      simp [reference]
    rw [hr]
    exact (ha.fail (e := ⟨t, key, .recordFailure⟩) ht).2
  · unfold retryAfter
    rw [← hblocked]
    dsimp only
    split <;> rfl
  · unfold recordFailure
    rw [← hblocked, ← hfailures]
    dsimp only
    split
    · rfl
    · split <;> rfl

/-- Two failures in ten seconds block a key for a minute. -/
def sampleLimiter : AuthFailureLimiter := ⟨2, 10, 60, by decide, by decide, by decide, by decide, by decide⟩

theorem reading_natCast {n : ℕ} (hn : (n : ℚ) < 2 ^ 52) : Reading n :=
  ⟨n.cast_nonneg, hn, Binary64.round_natCast (hn.trans (by norm_num))⟩

theorem limiter_eq_reference_sample :
    Answers sampleLimiter
      (sampleLimiter.reference "a" [⟨5, "a", .recordFailure⟩, ⟨3, "b", .clear⟩, ⟨1, "a", .recordFailure⟩])
      64 (retryAfter "a" 64 (sampleLimiter.tables
        [⟨5, "a", .recordFailure⟩, ⟨3, "b", .clear⟩, ⟨1, "a", .recordFailure⟩])).1 := by
  have hreading : ∀ n : ℕ, n < 100 → Reading n := fun n hn =>
    reading_natCast ((Nat.cast_lt.mpr hn).trans (by norm_num))
  refine (limiter_eq_reference sampleLimiter _ ?_ "a" 64 ?_).1
  · refine ⟨⟨hreading 5 (by decide), ?_⟩, ⟨hreading 3 (by decide), ?_⟩, ⟨hreading 1 (by decide), nofun⟩, trivial⟩ <;>
      norm_num
  · refine ⟨hreading 64 (by decide), ?_⟩
    norm_num

/-! ### Rounding -/

/-- Every failure blocks a key for a minute. -/
def minuteLimiter : AuthFailureLimiter := ⟨1, 10, 60, by decide, by decide, by decide, by decide, by decide⟩

/-- What a check at one time says of a key whose login failed at another. -/
def answerAt (failed checked : ℚ) : ℤ :=
  (retryAfter "a" checked (minuteLimiter.tables [⟨failed, "a", .recordFailure⟩])).1

/-- Where the end of a minute is rounded: a key is told to wait for 61 seconds, one
is free before its minute is over, and one is told to wait for less than the rest
of it. -/
theorem limiter_exceeds_lockout : ∃ t₀ t₁ t₂ t₃ : ℚ,
    (Reading t₀ ∧ answerAt t₀ t₀ = 61) ∧
    (Reading t₁ ∧ Reading t₂ ∧ t₁ ≤ t₂ ∧ t₂ < t₁ + 60 ∧ answerAt t₁ t₂ = 0) ∧
    (Reading t₃ ∧ t₁ ≤ t₃ ∧ 0 < answerAt t₁ t₃ ∧ (answerAt t₁ t₃ : ℚ) < t₁ + 60 - t₃) := by
  have hreading : ∀ t : ℚ, 0 ≤ t → t < 1000 → Binary64.round t = t → Reading t := fun t hnonneg hlt hround =>
    ⟨hnonneg, hlt.trans (by norm_num), hround⟩
  -- 509.892 and 509.002 seconds, the end of the minute of the latter, and 59 seconds before it
  refine ⟨8970114926559363 / 2 ^ 44, 8954457880979833 / 2 ^ 44, 1251248630455599 / 2 ^ 41,
    1251248630455599 / 2 ^ 41 - 59, ⟨?_, ?_⟩, ⟨?_, ?_, ?_, ?_, ?_⟩, ?_, ?_, ?_, ?_⟩
  · exact hreading _ (by norm_num) (by norm_num) (by decide +kernel)
  · decide +kernel
  · exact hreading _ (by norm_num) (by norm_num) (by decide +kernel)
  · exact hreading _ (by norm_num) (by norm_num) (by decide +kernel)
  · norm_num
  · norm_num
  · decide +kernel
  · exact hreading _ (by norm_num) (by norm_num) (by decide +kernel)
  · norm_num
  · decide +kernel
  · decide +kernel

end AuthFailureLimiter

end KaggleRelay

/-
Rounding a rational to binary64.

`round` is the double nearest to a rational, ties to even, for values below the
overflow threshold.

* `round_le_int`, `ceil_round_div` — rounding does not cross an integer: below
  `2 ^ 53` the ceiling of a rounded quotient of two integers is that of the
  quotient;
* `sub`, `le_sub_iff` — the difference of two doubles, and when a third one is
  not above it.
-/
import Mathlib.Algebra.Order.Floor.Ring
import Mathlib.Data.Int.Log
import Mathlib.Data.Rat.Floor
import Mathlib.Tactic.Linarith
import Mathlib.Tactic.Positivity
import Mathlib.Tactic.FieldSimp
import Mathlib.Tactic.Ring
import Mathlib.Tactic.NormNum

namespace Binary64

/-! ### The nearest integer -/

/-- The integer nearest to `x`, the even one of two. -/
def roundHalfEven (x : ℚ) : ℤ :=
  let n := ⌊x⌋
  if x - n < 1 / 2 then n
  else if 1 / 2 < x - n then n + 1
  else if 2 ∣ n then n else n + 1

theorem floor_le_roundHalfEven (x : ℚ) : ⌊x⌋ ≤ roundHalfEven x := by
  unfold roundHalfEven
  dsimp only
  split_ifs <;> omega

theorem sub_roundHalfEven_le (x : ℚ) : x - roundHalfEven x ≤ 1 / 2 := by
  have hlt : x - ⌊x⌋ < 1 := by linarith [Int.lt_floor_add_one x]
  unfold roundHalfEven
  dsimp only
  split_ifs with h₁ h₂ h₃
  · exact h₁.le
  · push_cast
    linarith
  · exact not_lt.mp h₂
  · push_cast
    linarith

theorem roundHalfEven_sub_le (x : ℚ) : roundHalfEven x - x ≤ 1 / 2 := by
  have hle : (⌊x⌋ : ℚ) ≤ x := Int.floor_le x
  unfold roundHalfEven
  dsimp only
  split_ifs with h₁ h₂ h₃
  · linarith
  · push_cast
    linarith
  · linarith
  · push_cast
    linarith [not_lt.mp h₁]

theorem roundHalfEven_int (n : ℤ) : roundHalfEven n = n := by
  unfold roundHalfEven
  dsimp only
  rw [Int.floor_intCast, if_pos]
  linarith

theorem roundHalfEven_le_ceil (x : ℚ) : roundHalfEven x ≤ ⌈x⌉ := by
  by_cases hx : (⌊x⌋ : ℚ) = x
  · -- an integer is its own rounding
    have hround : roundHalfEven x = ⌊x⌋ := by
      unfold roundHalfEven
      dsimp only
      rw [if_pos]
      linarith
    rw [hround]
    exact Int.floor_le_ceil x
  · have hlt : (⌊x⌋ : ℚ) < x := lt_of_le_of_ne (Int.floor_le x) hx
    have hceil : ⌊x⌋ < ⌈x⌉ := Int.lt_ceil.mpr hlt
    unfold roundHalfEven
    dsimp only
    split_ifs <;> omega

/-! ### The nearest double -/

/-- The exponent of the last place of the doubles next to `x`. -/
def ulpExponent (x : ℚ) : ℤ := max (Int.log 2 x - 52) (-1074)

/-- The double nearest to `x`, ties to even; `x` is below the overflow
threshold. -/
def round (x : ℚ) : ℚ := roundHalfEven (x / 2 ^ ulpExponent x) * 2 ^ ulpExponent x

theorem zpow_pos_two (e : ℤ) : (0 : ℚ) < 2 ^ e := zpow_pos (by norm_num) e

/-- An integer is a multiple of the last place where that is at most one. -/
theorem int_eq_mul_zpow (n : ℤ) {e : ℤ} (he : e ≤ 0) : ∃ m : ℤ, (n : ℚ) = m * 2 ^ e := by
  obtain ⟨k, hk⟩ := Int.eq_ofNat_of_zero_le (show 0 ≤ -e by omega)
  refine ⟨n * 2 ^ k, ?_⟩
  have hpow : (2 : ℚ) ^ (k : ℤ) * 2 ^ e = 1 := by
    rw [← zpow_add₀ (by norm_num), show (k : ℤ) + e = 0 by omega, zpow_zero]
  push_cast
  rw [mul_assoc, ← zpow_natCast, hpow, mul_one]

theorem round_le_int {x : ℚ} {n : ℤ} (he : ulpExponent x ≤ 0) (h : x ≤ n) : round x ≤ n := by
  obtain ⟨m, hm⟩ := int_eq_mul_zpow n he
  rw [hm] at h ⊢
  have hpos := zpow_pos_two (ulpExponent x)
  have hceil : ⌈x / 2 ^ ulpExponent x⌉ ≤ m := Int.ceil_le.mpr ((div_le_iff₀ hpos).mpr h)
  have hround : roundHalfEven (x / 2 ^ ulpExponent x) ≤ m :=
    (roundHalfEven_le_ceil _).trans hceil
  exact mul_le_mul_of_nonneg_right (Int.cast_le.mpr hround) hpos.le

theorem sub_round_le (x : ℚ) : x - round x ≤ 2 ^ ulpExponent x / 2 := by
  have hpos := zpow_pos_two (ulpExponent x)
  have h := sub_roundHalfEven_le (x / 2 ^ ulpExponent x)
  have hx : x = x / 2 ^ ulpExponent x * 2 ^ ulpExponent x := by
    rw [div_mul_cancel₀ _ hpos.ne']
  calc x - round x
      = (x / 2 ^ ulpExponent x - roundHalfEven (x / 2 ^ ulpExponent x)) * 2 ^ ulpExponent x := by
        rw [sub_mul, ← hx, round]
    _ ≤ 1 / 2 * 2 ^ ulpExponent x := mul_le_mul_of_nonneg_right h hpos.le
    _ = 2 ^ ulpExponent x / 2 := by ring

theorem round_sub_le (x : ℚ) : round x - x ≤ 2 ^ ulpExponent x / 2 := by
  have hpos := zpow_pos_two (ulpExponent x)
  have h := roundHalfEven_sub_le (x / 2 ^ ulpExponent x)
  have hx : x = x / 2 ^ ulpExponent x * 2 ^ ulpExponent x := by
    rw [div_mul_cancel₀ _ hpos.ne']
  calc round x - x
      = (roundHalfEven (x / 2 ^ ulpExponent x) - x / 2 ^ ulpExponent x) * 2 ^ ulpExponent x := by
        rw [sub_mul, ← hx, round]
    _ ≤ 1 / 2 * 2 ^ ulpExponent x := mul_le_mul_of_nonneg_right h hpos.le
    _ = 2 ^ ulpExponent x / 2 := by ring

/-- Half of the last place of `x` is a `2 ^ 53`-th of `x` at most. -/
theorem ulp_half_le {x : ℚ} (hx : 1 ≤ x) : (2 : ℚ) ^ ulpExponent x / 2 ≤ x / 2 ^ 53 := by
  have hpos : 0 < x := by linarith
  have hlog : 0 ≤ Int.log 2 x := by
    have h := (Int.zpow_le_iff_le_log (b := 2) (by norm_num) hpos (x := 0)).mp (by simpa using hx)
    exact h
  have hself : ((2 : ℕ) : ℚ) ^ Int.log 2 x ≤ x := Int.zpow_log_le_self (by norm_num) hpos
  have hexp : ulpExponent x = Int.log 2 x - 52 := max_eq_left (by omega)
  rw [hexp, zpow_sub₀ (by norm_num : (2 : ℚ) ≠ 0)]
  push_cast at hself
  norm_num
  linarith

theorem ulpExponent_nonpos {x : ℚ} (hx : x < 2 ^ 53) : ulpExponent x ≤ 0 := by
  refine max_le ?_ (by norm_num)
  by_cases hpos : 0 < x
  · have h : Int.log 2 x < 53 := by
      rw [← not_le, ← Int.zpow_le_iff_le_log (by norm_num) hpos, not_le]
      exact_mod_cast hx
    omega
  · rw [Int.log_of_right_le_zero 2 (not_lt.mp hpos)]
    norm_num

/-- Below `2 ^ 53` the error is half a unit at most. -/
theorem abs_round_sub_le {x : ℚ} (hx : x < 2 ^ 53) : |round x - x| ≤ 1 / 2 := by
  have hulp : (2 : ℚ) ^ ulpExponent x ≤ 1 := zpow_le_one_of_nonpos₀ (by norm_num) (ulpExponent_nonpos hx)
  rw [abs_le]
  constructor
  · linarith [sub_round_le x]
  · linarith [round_sub_le x]

/-! ### Differences -/

/-- The difference of two doubles that are not negative. -/
def sub (x y : ℚ) : ℚ := if x < y then -round (y - x) else round (x - y)

/-- A multiple of the last place is a double. -/
theorem round_eq_self {x : ℚ} {m e : ℤ} (hx : x = m * 2 ^ e) (he : ulpExponent x ≤ e) : round x = x := by
  have hpos := zpow_pos_two (ulpExponent x)
  obtain ⟨k, hk⟩ := Int.eq_ofNat_of_zero_le (show 0 ≤ e - ulpExponent x by omega)
  have hquotient : x / 2 ^ ulpExponent x = ((m * 2 ^ k : ℤ) : ℚ) := by
    rw [div_eq_iff hpos.ne']
    push_cast
    rw [mul_assoc, ← zpow_natCast, ← zpow_add₀ (by norm_num), ← hk, sub_add_cancel]
    exact hx
  rw [round, hquotient, roundHalfEven_int, ← hquotient, div_mul_cancel₀ _ hpos.ne']

theorem round_natCast {n : ℕ} (hn : (n : ℚ) < 2 ^ 53) : round n = n :=
  round_eq_self (m := n) (e := 0) (by simp) (ulpExponent_nonpos hn)

/-- A double is a multiple of its last place. -/
theorem eq_mul_of_round {x : ℚ} (hx : round x = x) : ∃ m : ℤ, x = m * 2 ^ ulpExponent x :=
  ⟨_, hx.symm⟩

theorem ulpExponent_mono {x y : ℚ} (hx : 0 < x) (hxy : x ≤ y) : ulpExponent x ≤ ulpExponent y :=
  max_le_max (sub_le_sub_right (Int.log_mono_right hx hxy) 52) le_rfl

/-- A double less a smaller integer is a double. -/
theorem round_sub_natCast {x : ℚ} {n : ℕ} (hx : round x = x) (hlt : x < 2 ^ 53) (hle : (n : ℚ) ≤ x) :
    round (x - n) = x - n := by
  obtain ⟨m, hm⟩ := eq_mul_of_round hx
  obtain ⟨k, hk⟩ := int_eq_mul_zpow n (ulpExponent_nonpos hlt)
  have hdiff : x - n = ((m - k : ℤ) : ℚ) * 2 ^ ulpExponent x := by
    push_cast at hk ⊢
    rw [sub_mul, ← hm, ← hk]
  rcases hle.eq_or_lt with heq | hlt'
  · have hzero : ulpExponent (x - n) ≤ 0 := ulpExponent_nonpos (by linarith [show (0 : ℚ) < 2 ^ 53 by norm_num])
    exact round_eq_self (m := 0) (e := 0) (by rw [heq]; simp) hzero
  · refine round_eq_self hdiff (ulpExponent_mono (by linarith) ?_)
    linarith [show (0 : ℚ) ≤ n from n.cast_nonneg]

/-- What is not below the least double does not round to zero. -/
theorem round_pos {x : ℚ} (hx : (2 : ℚ) ^ (-1074 : ℤ) ≤ x) : 0 < round x := by
  have hpos : 0 < x := (zpow_pos_two _).trans_le hx
  have hself : (2 : ℚ) ^ Int.log 2 x ≤ x := by exact_mod_cast Int.zpow_log_le_self (by norm_num) hpos
  have hulp : (2 : ℚ) ^ ulpExponent x ≤ x := by
    rcases max_choice (Int.log 2 x - 52) (-1074) with h | h
    · rw [ulpExponent, h]
      exact (zpow_le_zpow_right₀ (by norm_num) (by omega)).trans hself
    · rw [ulpExponent, h]
      exact hx
  have hone : 1 ≤ ⌊x / 2 ^ ulpExponent x⌋ := Int.le_floor.mpr (by
    push_cast
    exact (one_le_div (zpow_pos_two _)).mpr hulp)
  have hround : 0 < roundHalfEven (x / 2 ^ ulpExponent x) := by
    have := floor_le_roundHalfEven (x / 2 ^ ulpExponent x)
    omega
  exact mul_pos (by exact_mod_cast hround) (zpow_pos_two _)

/-- **A difference that loses nothing**: an integer taken from a double is
compared with the doubles that are not negative as it would be without
rounding. -/
theorem le_sub_iff {x y : ℚ} {n : ℕ} (hy : round y = y) (hlt : y < 2 ^ 53) (hx : 0 ≤ x) :
    x ≤ sub y n ↔ x ≤ y - n := by
  unfold sub
  split
  · next hneg =>
    -- both differences are negative
    have hleast : (2 : ℚ) ^ (-1074 : ℤ) ≤ n - y := by
      obtain ⟨m, hm⟩ := eq_mul_of_round hy
      obtain ⟨j, hj⟩ := Int.eq_ofNat_of_zero_le (show 0 ≤ ulpExponent y + 1074 by
        have := le_max_right (Int.log 2 y - 52) (-1074)
        rw [ulpExponent]
        omega)
      obtain ⟨k, hk⟩ := int_eq_mul_zpow n (show (-1074 : ℤ) ≤ 0 by norm_num)
      have hy' : y = ((m * 2 ^ j : ℤ) : ℚ) * 2 ^ (-1074 : ℤ) := by
        push_cast
        rw [mul_assoc, ← zpow_natCast, ← zpow_add₀ (by norm_num), ← hj, show ulpExponent y + 1074 + -1074 =
          ulpExponent y by ring]
        exact hm
      have hdiff : (n : ℚ) - y = ((k - m * 2 ^ j : ℤ) : ℚ) * 2 ^ (-1074 : ℤ) := by
        push_cast at hk hy' ⊢
        rw [sub_mul, ← hk, ← hy']
      have hcoeff : (0 : ℚ) < ((k - m * 2 ^ j : ℤ) : ℚ) := by
        have hprod : 0 < ((k - m * 2 ^ j : ℤ) : ℚ) * 2 ^ (-1074 : ℤ) := by
          rw [← hdiff]
          linarith
        exact pos_of_mul_pos_left hprod (zpow_pos_two _).le
      have hone : (1 : ℚ) ≤ ((k - m * 2 ^ j : ℤ) : ℚ) := by
        have : 0 < k - m * 2 ^ j := by exact_mod_cast hcoeff
        exact_mod_cast this
      rw [hdiff]
      exact le_mul_of_one_le_left (zpow_pos_two _).le hone
    have hround := round_pos hleast
    constructor
    · intro h
      linarith
    · intro h
      linarith
  · next hle => rw [round_sub_natCast hy hlt (not_lt.mp hle)]

/-! ### Quotients of integers -/

/-- **Rounding a quotient does not move its ceiling.** -/
theorem ceil_round_div {t c : ℕ} (ht : t < 2 ^ 53) (hc : 0 < c) (hct : c ≤ t) :
    ⌈round (t / c)⌉ = ⌈(t / c : ℚ)⌉ := by
  have hc' : (0 : ℚ) < c := by exact_mod_cast hc
  have htq : (t : ℚ) < 2 ^ 53 := by exact_mod_cast ht
  set x : ℚ := t / c with hx
  have hone : 1 ≤ x := (one_le_div hc').mpr (by exact_mod_cast hct)
  have hle : x ≤ t := div_le_self (by positivity) (by exact_mod_cast hc)
  refine le_antisymm ?_ ?_
  · exact Int.ceil_le.mpr (round_le_int (ulpExponent_nonpos (hle.trans_lt htq)) (Int.le_ceil x))
  · -- `x` is at least `1 / c` above the integer before its ceiling, the error is below that
    have hgap : (⌈x⌉ - 1 : ℚ) + 1 / c ≤ x := by
      have hlt : (⌈x⌉ : ℚ) - 1 < x := by linarith [Int.ceil_lt_add_one x]
      rw [hx, lt_div_iff₀ hc'] at hlt
      have hint : ∀ n : ℤ, ((n : ℚ) - 1) * c < t → ((n : ℚ) - 1) * c + 1 ≤ t := by
        intro n hn
        have h : (n - 1) * (c : ℤ) < t := by exact_mod_cast hn
        exact_mod_cast h
      have hq := hint _ hlt
      calc (⌈x⌉ - 1 : ℚ) + 1 / c = ((⌈x⌉ - 1 : ℚ) * c + 1) / c := by field_simp
        _ ≤ t / c := div_le_div_of_nonneg_right hq hc'.le
    have herr : x - round x < 1 / c := by
      calc x - round x ≤ 2 ^ ulpExponent x / 2 := sub_round_le x
        _ ≤ x / 2 ^ 53 := ulp_half_le hone
        _ = t / 2 ^ 53 / c := by rw [hx]; ring
        _ < 1 / c := div_lt_div_of_pos_right ((div_lt_one (by positivity)).mpr htq) hc'
    have hlt : ((⌈x⌉ - 1 : ℤ) : ℚ) < round x := by
      push_cast
      linarith
    have h := Int.lt_ceil.mpr hlt
    omega

/-- A quotient below one does not round above it. -/
theorem ceil_round_div_le_one {t c : ℕ} (htc : t < c) : ⌈round (t / c)⌉ ≤ 1 := by
  have hc' : (0 : ℚ) < c := by exact_mod_cast (Nat.zero_le t).trans_lt htc
  have hlt : (t : ℚ) / c < 1 := (div_lt_one hc').mpr (by exact_mod_cast htc)
  refine Int.ceil_le.mpr (round_le_int (ulpExponent_nonpos ?_) ?_)
  · linarith [show (1 : ℚ) < 2 ^ 53 by norm_num]
  · push_cast
    exact hlt.le

end Binary64

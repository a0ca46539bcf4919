/-
Cutting a list into pieces of one size, and gluing pieces together.

The piece of index `i` begins at `i * size`; all pieces but the last are full.
`glue_piece` — gluing the pieces of a list gives the list; `sum_pieceSize` —
the sizes of the pieces add up to the whole.
-/
import Mathlib.Algebra.BigOperators.Group.Finset.Basic
import Mathlib.Algebra.BigOperators.Intervals
import Mathlib.Tactic.Ring

namespace Tiling

variable {α : Type}

/-- The size of the piece of index `i` of `total` elements. -/
def pieceSize (size total i : ℕ) : ℕ := min size (total - i * size)

/-- The piece of index `i`. -/
def piece (size : ℕ) (data : List α) (i : ℕ) : List α := (data.drop (i * size)).take size

/-- The first `n` pieces in order. -/
def glue (n : ℕ) (pieces : ℕ → List α) : List α := (List.range n).flatMap pieces

theorem glue_succ (n : ℕ) (pieces : ℕ → List α) : glue (n + 1) pieces = glue n pieces ++ pieces n := by
  simp only [glue, List.range_succ, List.flatMap_append, List.flatMap_cons, List.flatMap_nil,
    List.append_nil]

theorem glue_piece_eq_take (size : ℕ) (data : List α) (n : ℕ) :
    glue n (piece size data) = data.take (n * size) := by
  induction n with
  | zero => simp [glue]
  | succ n ih =>
    rw [glue_succ, ih, piece, Nat.succ_mul]
    exact List.take_add.symm

/-- **Pieces that reach the end give the whole back.** -/
theorem glue_piece {size n : ℕ} {data : List α} (h : data.length ≤ n * size) :
    glue n (piece size data) = data := by
  rw [glue_piece_eq_take, List.take_of_length_le h]

theorem sum_pieceSize_eq_min (size total n : ℕ) :
    ∑ i ∈ Finset.range n, pieceSize size total i = min (n * size) total := by
  induction n with
  | zero => simp
  | succ n ih =>
    rw [Finset.sum_range_succ, ih, pieceSize, Nat.succ_mul]
    omega

/-- **The sizes of the pieces add up to the whole.** -/
theorem sum_pieceSize {size total n : ℕ} (h : total ≤ n * size) :
    ∑ i ∈ Finset.range n, pieceSize size total i = total := by
  rw [sum_pieceSize_eq_min, min_eq_right h]

end Tiling

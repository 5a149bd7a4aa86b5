import Mathlib.Algebra.Order.Floor.Ring
import Mathlib.Algebra.Order.Field.Basic
import Mathlib.Tactic.Linarith
import Mathlib.Tactic.Ring

/-!
# Truncation toward zero over an ordered field with a floor

The conversion of a number to an integer by discarding its fraction. The facts
here are the ones a fixed-point encoder rests on: the sign symmetry, the error
strictly below one unit, the order, the exact half-open window of arguments whose
truncation lies between two integer bounds, and the division by a whole number,
which may be done before or after the truncation.
-/

namespace Truncation

variable {K : Type*} [Field K] [LinearOrder K] [IsStrictOrderedRing K] [FloorRing K]

/-- The integer part of `x`, rounded toward zero. -/
def trunc (x : K) : ℤ := if 0 ≤ x then ⌊x⌋ else ⌈x⌉

omit [IsStrictOrderedRing K] in
theorem trunc_of_nonneg {x : K} (h : 0 ≤ x) : trunc x = ⌊x⌋ := if_pos h

theorem trunc_of_nonpos {x : K} (h : x ≤ 0) : trunc x = ⌈x⌉ := by
  rcases h.lt_or_eq with hlt | rfl
  · exact if_neg (not_le.mpr hlt)
  · simp [trunc]

theorem trunc_intCast (n : ℤ) : trunc (n : K) = n := by
  simp [trunc]

theorem trunc_neg (x : K) : trunc (-x) = -trunc x := by
  rcases le_total 0 x with h | h
  · rw [trunc_of_nonneg h, trunc_of_nonpos (neg_nonpos.mpr h), Int.ceil_neg]
  · rw [trunc_of_nonpos h, trunc_of_nonneg (neg_nonneg.mpr h), Int.floor_neg]

/-- Truncation loses strictly less than one unit, on the side of zero. -/
theorem abs_sub_trunc_lt_one (x : K) : |x - trunc x| < 1 := by
  rcases le_total 0 x with h | h
  · rw [trunc_of_nonneg h, abs_of_nonneg (sub_nonneg.mpr (Int.floor_le x))]
    linarith [Int.lt_floor_add_one x]
  · rw [trunc_of_nonpos h, abs_sub_comm, abs_of_nonneg (sub_nonneg.mpr (Int.le_ceil x))]
    linarith [Int.ceil_lt_add_one x]

omit [IsStrictOrderedRing K] in
theorem trunc_nonneg {x : K} (h : 0 ≤ x) : 0 ≤ trunc x := by
  rw [trunc_of_nonneg h]
  exact Int.floor_nonneg.mpr h

theorem trunc_nonpos {x : K} (h : x ≤ 0) : trunc x ≤ 0 := by
  rw [trunc_of_nonpos h]
  exact Int.ceil_le.mpr (by simpa using h)

theorem trunc_mono {x y : K} (h : x ≤ y) : trunc x ≤ trunc y := by
  rcases le_total 0 x with hx | hx
  · rw [trunc_of_nonneg hx, trunc_of_nonneg (hx.trans h)]
    exact Int.floor_le_floor h
  · rcases le_total 0 y with hy | hy
    · exact (trunc_nonpos hx).trans (trunc_nonneg hy)
    · rw [trunc_of_nonpos hx, trunc_of_nonpos hy]
      exact Int.ceil_le_ceil h

theorem abs_trunc_le (x : K) : |(trunc x : K)| ≤ |x| := by
  rcases le_total 0 x with h | h
  · have h0 : (0 : K) ≤ trunc x := Int.cast_nonneg (trunc_nonneg h)
    rw [abs_of_nonneg h, abs_of_nonneg h0, trunc_of_nonneg h]
    exact Int.floor_le x
  · have h0 : (trunc x : K) ≤ 0 := Int.cast_nonpos.mpr (trunc_nonpos h)
    rw [abs_of_nonpos h, abs_of_nonpos h0, trunc_of_nonpos h]
    exact neg_le_neg (Int.le_ceil x)

theorem trunc_mul_self_nonneg (x : K) : 0 ≤ (trunc x : K) * x := by
  rcases le_total 0 x with h | h
  · exact mul_nonneg (Int.cast_nonneg (trunc_nonneg h)) h
  · exact mul_nonneg_of_nonpos_of_nonpos (Int.cast_nonpos.mpr (trunc_nonpos h)) h

theorem trunc_div_natCast (x : K) (n : ℕ) : trunc (x / n) = (trunc x).tdiv n := by
  have key {y : K} (hy : 0 ≤ y) : trunc (y / n) = (trunc y).tdiv n := by
    have hf := trunc_nonneg hy
    rw [trunc_of_nonneg (div_nonneg hy n.cast_nonneg), Int.tdiv_eq_ediv_of_nonneg hf,
      trunc_of_nonneg hy]
    exact Int.floor_div_natCast y n
  rcases le_total 0 x with h | h
  · exact key h
  · have hneg := key (neg_nonneg.mpr h)
    rw [neg_div, trunc_neg, trunc_neg, Int.neg_tdiv] at hneg
    exact neg_injective hneg

theorem trunc_lt_iff {x : K} {n : ℤ} (hn : 0 < n) : trunc x < n ↔ x < n := by
  rcases le_total 0 x with h | h
  · rw [trunc_of_nonneg h, Int.floor_lt]
  · have hx : x < n := h.trans_lt (Int.cast_pos.mpr hn)
    have hc : ⌈x⌉ ≤ 0 := Int.ceil_le.mpr (by simpa using h)
    rw [trunc_of_nonpos h]
    exact ⟨fun _ => hx, fun _ => hc.trans_lt hn⟩

theorem le_trunc_iff {x : K} {n : ℤ} (hn : 0 ≤ n) : -n ≤ trunc x ↔ -((n : K) + 1) < x := by
  have hneg := trunc_lt_iff (x := -x) (n := n + 1) (by omega)
  rw [trunc_neg] at hneg
  push_cast at hneg
  constructor
  · intro h
    linarith [hneg.mp (by omega)]
  · intro h
    have := hneg.mpr (by linarith)
    omega

/-- The window of a truncation: the lower bound is exclusive and one unit
further out, since everything above `-(m+1)` already truncates to `-m`. -/
theorem trunc_mem_iff {x : K} {m n : ℤ} (hm : 0 ≤ m) (hn : 0 < n) :
    (-m ≤ trunc x ∧ trunc x < n) ↔ (-((m : K) + 1) < x ∧ x < n) :=
  and_congr (le_trunc_iff hm) (trunc_lt_iff hn)

end Truncation

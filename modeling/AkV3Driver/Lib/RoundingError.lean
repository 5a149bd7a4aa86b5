import AkV3Driver.Lib.RoundToNearest
import AkV3Driver.Lib.Truncation
import Mathlib.Tactic.NormNum

/-!
# Accumulated rounding errors

A computed value is compared with the exact one by a relative and an absolute error;
the absolute one is what underflow can lose. Each operation of an expression has a rule
that says what its rounding adds, and a factor that was itself rounded enters with its
own relative error. At the end the value is truncated, which costs one unit more.
-/

namespace RoundingError
open RoundToNearest
open Truncation (trunc)

variable {K : Type*} [Field K] [LinearOrder K] [IsStrictOrderedRing K]

/-- `a` is `b` up to the relative error `u` and the absolute error `d`. -/
def Near (u d a b : K) : Prop := |a - b| ≤ u * |b| + d

section Rules
variable {u u' v d d' a b c e : K}

theorem near_refl (b : K) : Near 0 0 b b := by simp [Near]

theorem near_of_eq (h : a = b) : Near 0 0 a b := h ▸ near_refl b

theorem Near.mono (h : Near u d a b) (hu : u ≤ u') (hd : d ≤ d') : Near u' d' a b := by
  refine h.trans ?_
  exact add_le_add (mul_le_mul_of_nonneg_right hu (abs_nonneg b)) hd

omit [IsStrictOrderedRing K] in
theorem Near.neg (h : Near u d a b) : Near u d (-a) (-b) := by
  rw [Near, neg_sub_neg, abs_sub_comm, abs_neg]
  exact h

theorem Near.abs_le (h : Near u d a b) : |a| ≤ (1 + u) * |b| + d := by
  have htri : |a| ≤ |a - b| + |b| := by
    have := abs_add_le (a - b) b
    rwa [sub_add_cancel] at this
  have hab : |a - b| ≤ u * |b| + d := h
  linarith

theorem Near.trans {e' : K} (h : Near u d a b) (h' : Near v e' b c) (hu : 0 ≤ u) :
    Near (u * (1 + v) + v) (u * e' + d + e') a c := by
  have hab : |a - b| ≤ u * |b| + d := h
  have hbc : |b - c| ≤ v * |c| + e' := h'
  have hb : u * |b| ≤ u * ((1 + v) * |c| + e') := mul_le_mul_of_nonneg_left h'.abs_le hu
  rw [Near]
  calc |a - c| ≤ |a - b| + |b - c| := abs_sub_le a b c
    _ ≤ (u * ((1 + v) * |c| + e') + d) + (v * |c| + e') := by linarith
    _ = (u * (1 + v) + v) * |c| + (u * e' + d + e') := by ring

theorem Near.mul (h : Near u d a b) (hd : 0 ≤ d) {C : K} (hc : |c| ≤ C) :
    Near u (d * C) (a * c) (b * c) := by
  have hab : |a - b| ≤ u * |b| + d := h
  rw [Near, ← sub_mul, abs_mul, abs_mul]
  calc |a - b| * |c| ≤ (u * |b| + d) * |c| := mul_le_mul_of_nonneg_right hab (abs_nonneg c)
    _ = u * (|b| * |c|) + d * |c| := by ring
    _ ≤ u * (|b| * |c|) + d * C := by linarith [mul_le_mul_of_nonneg_left hc hd]

theorem Near.div (h : Near u d a b) (hd : 0 ≤ d) {C : K} (hc : |c⁻¹| ≤ C) :
    Near u (d * C) (a / c) (b / c) := by
  rw [div_eq_mul_inv, div_eq_mul_inv]
  exact h.mul hd hc

/-- Multiplied by a factor with a relative error of its own. -/
theorem Near.mul_near (h : Near u d a b) (hd : 0 ≤ d) (hc : Near v 0 c e) (hv : 0 ≤ v) {E : K}
    (he : |e| ≤ E) : Near (u + v + u * v) (d * ((1 + v) * E)) (a * c) (b * e) := by
  have hab : |a - b| ≤ u * |b| + d := h
  have hce : |c - e| ≤ v * |e| := by simpa [Near] using hc
  have hcabs : |c| ≤ (1 + v) * |e| := by simpa using hc.abs_le
  have hsplit : a * c - b * e = (a - b) * c + b * (c - e) := by ring
  have hud : 0 ≤ u * |b| + d := (abs_nonneg _).trans hab
  have hdE : d * ((1 + v) * |e|) ≤ d * ((1 + v) * E) :=
    mul_le_mul_of_nonneg_left (mul_le_mul_of_nonneg_left he (by linarith)) hd
  rw [Near, hsplit, abs_mul b e]
  calc |(a - b) * c + b * (c - e)| ≤ |a - b| * |c| + |b| * |c - e| := by
        rw [← abs_mul, ← abs_mul]
        exact abs_add_le _ _
    _ ≤ (u * |b| + d) * ((1 + v) * |e|) + |b| * (v * |e|) :=
        add_le_add (mul_le_mul hab hcabs (abs_nonneg c) hud)
          (mul_le_mul_of_nonneg_left hce (abs_nonneg b))
    _ = (u + v + u * v) * (|b| * |e|) + d * ((1 + v) * |e|) := by ring
    _ ≤ (u + v + u * v) * (|b| * |e|) + d * ((1 + v) * E) := by linarith

end Rules

section Round
variable [FloorRing K] {u d a b : K}

theorem Near.round (h : Near u d a b) (p : ℕ) (emin : ℤ) :
    Near (u + (1 + u) * (1 / 2 ^ p)) (d + d * (1 / 2 ^ p) + 2 ^ (emin - 1))
      (RoundToNearest.round p emin a) b := by
  have hround := abs_round_sub_le_add p emin a
  have hab : |a - b| ≤ u * |b| + d := h
  have habs : |a| * (1 / 2 ^ p) ≤ ((1 + u) * |b| + d) * (1 / 2 ^ p) :=
    mul_le_mul_of_nonneg_right h.abs_le (by positivity)
  rw [div_eq_mul_one_div] at hround
  have htri : |RoundToNearest.round p emin a - b| ≤
      |RoundToNearest.round p emin a - a| + |a - b| := abs_sub_le _ _ _
  rw [Near]
  calc |RoundToNearest.round p emin a - b|
      ≤ (((1 + u) * |b| + d) * (1 / 2 ^ p) + 2 ^ (emin - 1)) + (u * |b| + d) := by linarith
    _ = (u + (1 + u) * (1 / 2 ^ p)) * |b| + (d + d * (1 / 2 ^ p) + 2 ^ (emin - 1)) := by ring

end Round

section Truncated
variable [FloorRing K] {u d a b : K}

theorem trunc_sub_trunc_le (h : a ≤ b) : (trunc b : K) - trunc a ≤ b - a + 1 := by
  rcases le_total 0 a with ha | ha
  · rw [Truncation.trunc_of_nonneg ha, Truncation.trunc_of_nonneg (ha.trans h)]
    linarith [Int.floor_le b, Int.lt_floor_add_one a]
  · rcases le_total 0 b with hb | hb
    · rw [Truncation.trunc_of_nonpos ha, Truncation.trunc_of_nonneg hb]
      linarith [Int.floor_le b, Int.le_ceil a]
    · rw [Truncation.trunc_of_nonpos ha, Truncation.trunc_of_nonpos hb]
      linarith [Int.ceil_lt_add_one b, Int.le_ceil a]

/-- A truncation can carry a small error over one integer, and no further. -/
theorem Near.trunc (h : Near u d a b) :
    |(Truncation.trunc a : K) - Truncation.trunc b| ≤ u * |b| + d + 1 := by
  have hab : |a - b| ≤ u * |b| + d := h
  have hmono : |(Truncation.trunc a : K) - Truncation.trunc b| ≤ |a - b| + 1 := by
    rcases le_total a b with hle | hle
    · have hcast : (Truncation.trunc a : K) ≤ Truncation.trunc b :=
        Int.cast_le.mpr (Truncation.trunc_mono hle)
      rw [abs_sub_comm, abs_of_nonneg (by linarith), abs_sub_comm a b,
        abs_of_nonneg (by linarith)]
      exact trunc_sub_trunc_le hle
    · have hcast : (Truncation.trunc b : K) ≤ Truncation.trunc a :=
        Int.cast_le.mpr (Truncation.trunc_mono hle)
      rw [abs_of_nonneg (by linarith), abs_of_nonneg (by linarith)]
      exact trunc_sub_trunc_le hle
  linarith

end Truncated

end RoundingError

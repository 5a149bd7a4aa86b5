import AkV3Driver.Lib.RoundToNearest
import AkV3Driver.Lib.UniformQuantizer
import Mathlib.Tactic.Positivity

/-!
# Uniform quantization in rounded arithmetic

The quantizer computed with four roundings: of the width, of the scale, of the offset
and of their product. For a power of two of codes it keeps what the exact one
promises: it is monotone and stays between zero and the number of codes. It differs
from the exact one by a few units of the format's precision.
-/

namespace RoundedQuantizer
open RoundToNearest
open UniformQuantizer (clamp)

variable {K : Type*} [Field K] [LinearOrder K] [IsStrictOrderedRing K] [FloorRing K]
variable (p : ℕ) (emin : ℤ)

def scale (lo hi n : K) : K := round p emin (n / round p emin (hi - lo))

def level (x lo hi n : K) : K :=
  round p emin (round p emin (clamp x lo hi - lo) * scale p emin lo hi n)

/-- The format resolves the interval and the scale of `2 ^ k` codes. -/
structure Resolves (lo hi : K) (k : ℤ) : Prop where
  precision : 4 ≤ p
  lo_lt_hi : lo < hi
  lo_representable : Representable p emin lo
  hi_representable : Representable p emin hi
  width_pos : 0 < round p emin (hi - lo)
  codes_normal : emin ≤ k + 1 - p
  scale_normal : 2 ^ (emin + p - 1) ≤ 2 ^ k / round p emin (hi - lo)

variable {p emin} {lo hi x y : K} {k : ℤ}

omit [IsStrictOrderedRing K] in
theorem Resolves.precision_pos (h : Resolves p emin lo hi k) : 0 < p := by
  have := h.precision
  omega

theorem scale_nonneg (h : Resolves p emin lo hi k) : 0 ≤ scale p emin lo hi (2 ^ k) :=
  round_nonneg p emin _ (div_nonneg (zpow_pos two_pos k).le h.width_pos.le)

theorem offset_nonneg (h : Resolves p emin lo hi k) :
    0 ≤ round p emin (clamp x lo hi - lo) :=
  round_nonneg p emin _ (sub_nonneg.mpr (UniformQuantizer.le_clamp h.lo_lt_hi.le))

theorem level_nonneg (h : Resolves p emin lo hi k) : 0 ≤ level p emin x lo hi (2 ^ k) :=
  round_nonneg p emin _ (mul_nonneg (offset_nonneg h) (scale_nonneg h))

theorem level_mono (h : Resolves p emin lo hi k) (hxy : x ≤ y) :
    level p emin x lo hi (2 ^ k) ≤ level p emin y lo hi (2 ^ k) := by
  have hp := h.precision_pos
  refine round_mono hp (mul_le_mul_of_nonneg_right (round_mono hp ?_) (scale_nonneg h))
  exact sub_le_sub_right (UniformQuantizer.clamp_mono hxy) lo

omit [IsStrictOrderedRing K] in
theorem level_of_hi_le (h : hi ≤ x) (n : K) :
    level p emin x lo hi n =
      round p emin (round p emin (hi - lo) * scale p emin lo hi n) := by
  rw [level, UniformQuantizer.clamp_eq_hi h]

theorem level_le (h : Resolves p emin lo hi k) : level p emin x lo hi (2 ^ k) ≤ 2 ^ k := by
  have hp := h.precision
  have hmono : level p emin x lo hi (2 ^ k) ≤ level p emin (max x hi) lo hi (2 ^ k) :=
    level_mono h (le_max_left x hi)
  rw [level_of_hi_le (le_max_right x hi)] at hmono
  exact hmono.trans (round_mul_round_div_le (by omega) h.codes_normal h.width_pos h.scale_normal)

section Error
variable (p) in
/-- The unit of relative error. -/
def unit : K := 1 / (2 ^ p : ℕ)

omit [LinearOrder K] [IsStrictOrderedRing K] [FloorRing K] in
theorem unit_eq : (unit p : K) = 1 / 2 ^ p := by simp [unit]

omit [FloorRing K] in
theorem unit_pos : (0 : K) < unit p := by
  rw [unit_eq]
  positivity

theorem unit_le (hp : 4 ≤ p) : (unit p : K) ≤ 1 / 16 := by
  rw [unit_eq]
  refine one_div_le_one_div_of_le (by norm_num) ?_
  calc (16 : K) = 2 ^ 4 := by norm_num
    _ ≤ 2 ^ p := pow_le_pow_right₀ one_le_two hp

theorem within_of_abs_le {a b : K} (hb : 0 ≤ b) (h : |a - b| ≤ |b| / 2 ^ p) :
    b * (1 - unit p) ≤ a ∧ a ≤ b * (1 + unit p) := by
  rw [abs_of_nonneg hb, div_eq_mul_one_div] at h
  obtain ⟨h1, h2⟩ := abs_le.mp h
  rw [unit_eq]
  constructor <;> linarith

omit [IsStrictOrderedRing K] [FloorRing K] in
theorem representable_clamp (hx : Representable p emin x) (hlo : Representable p emin lo)
    (hhi : Representable p emin hi) : Representable p emin (clamp x lo hi) := by
  rw [clamp]
  rcases le_total (max x lo) hi with h | h
  · rw [min_eq_left h]
    rcases le_total x lo with h' | h'
    · rwa [max_eq_right h']
    · rwa [max_eq_left h']
  · rwa [min_eq_right h]

/-- Three relative errors in the numerator and one in the denominator are below five units. -/
theorem units_le {u L A : K} (hu0 : 0 < u) (hu : u ≤ 1 / 16) (hL : 0 ≤ L)
    (hlo : L * (1 - u) ^ 2 ≤ A * (1 + u)) (hhi : A * (1 - u) ≤ L * (1 + u) ^ 2) :
    L * (1 - 5 * u) ≤ A * (1 - u) ∧ A * (1 + u) ≤ L * (1 + 5 * u) := by
  have hu2 : 0 < u ^ 2 := by positivity
  have hu3 : 0 < u ^ 3 := by positivity
  have hu2' : u ^ 2 ≤ u / 16 := by nlinarith
  have hu3' : u ^ 3 ≤ u / 16 := by nlinarith
  constructor
  · have hpoly : (1 - 5 * u) * (1 + u) ≤ (1 - u) ^ 3 := by nlinarith
    refine le_of_mul_le_mul_right ?_ (by linarith : 0 < 1 + u)
    calc L * (1 - 5 * u) * (1 + u) = L * ((1 - 5 * u) * (1 + u)) := by ring
      _ ≤ L * (1 - u) ^ 3 := mul_le_mul_of_nonneg_left hpoly hL
      _ = L * (1 - u) ^ 2 * (1 - u) := by ring
      _ ≤ A * (1 + u) * (1 - u) := mul_le_mul_of_nonneg_right hlo (by linarith)
      _ = A * (1 - u) * (1 + u) := by ring
  · have hpoly : (1 + u) ^ 3 ≤ (1 + 5 * u) * (1 - u) := by nlinarith
    refine le_of_mul_le_mul_right ?_ (by linarith : 0 < 1 - u)
    calc A * (1 + u) * (1 - u) = A * (1 - u) * (1 + u) := by ring
      _ ≤ L * (1 + u) ^ 2 * (1 + u) := mul_le_mul_of_nonneg_right hhi (by linarith)
      _ = L * (1 + u) ^ 3 := by ring
      _ ≤ L * ((1 + 5 * u) * (1 - u)) := mul_le_mul_of_nonneg_left hpoly hL
      _ = L * (1 + 5 * u) * (1 - u) := by ring

theorem product_bounds (h : Resolves p emin lo hi k) (hx : Representable p emin x) (n : ℕ)
    (hn : (n : K) = 2 ^ k) :
    let A := round p emin (clamp x lo hi - lo) * scale p emin lo hi (2 ^ k)
    UniformQuantizer.level x lo hi n * (1 - unit p) ^ 2 ≤ A * (1 + unit p) ∧
      A * (1 - unit p) ≤ UniformQuantizer.level x lo hi n * (1 + unit p) ^ 2 := by
  have hu0 : (0 : K) < unit p := unit_pos
  have hu : (unit p : K) ≤ 1 / 16 := unit_le h.precision
  have hs : 0 < hi - lo := sub_pos.mpr h.lo_lt_hi
  have hd : 0 ≤ clamp x lo hi - lo := sub_nonneg.mpr (UniformQuantizer.le_clamp h.lo_lt_hi.le)
  have hN : (0 : K) < 2 ^ k := zpow_pos two_pos k
  have hq : 0 < 2 ^ k / round p emin (hi - lo) := div_pos hN h.width_pos
  have hclamp := representable_clamp hx h.lo_representable h.hi_representable
  obtain ⟨hs1, hs2⟩ := within_of_abs_le hs.le
    (abs_round_sub_sub_le h.hi_representable h.lo_representable)
  obtain ⟨hd1, hd2⟩ := within_of_abs_le hd (abs_round_sub_sub_le hclamp h.lo_representable)
  obtain ⟨hq1, hq2⟩ := within_of_abs_le hq.le
    (abs_round_sub_le_of_normal (by rw [abs_of_pos hq]; exact h.scale_normal))
  have hD : 0 ≤ round p emin (clamp x lo hi - lo) := offset_nonneg h
  have hS : 0 ≤ scale p emin lo hi (2 ^ k) := scale_nonneg h
  change 2 ^ k / round p emin (hi - lo) * (1 - unit p) ≤ scale p emin lo hi (2 ^ k) at hq1
  change scale p emin lo hi (2 ^ k) ≤ 2 ^ k / round p emin (hi - lo) * (1 + unit p) at hq2
  have hw := h.width_pos
  generalize round p emin (clamp x lo hi - lo) = D at hd1 hd2 hD ⊢
  generalize scale p emin lo hi (2 ^ k) = S at hq1 hq2 hS ⊢
  generalize round p emin (hi - lo) = W at hs1 hs2 hq1 hq2 hw
  have hL : UniformQuantizer.level x lo hi n * (hi - lo) = (clamp x lo hi - lo) * 2 ^ k := by
    rw [UniformQuantizer.level, hn]
    field_simp
  have hSW1 : 2 ^ k * (1 - unit p) ≤ S * W := by
    calc 2 ^ k * (1 - unit p) = 2 ^ k / W * (1 - unit p) * W := by field_simp
      _ ≤ S * W := mul_le_mul_of_nonneg_right hq1 hw.le
  have hSW2 : S * W ≤ 2 ^ k * (1 + unit p) := by
    calc S * W ≤ 2 ^ k / W * (1 + unit p) * W := mul_le_mul_of_nonneg_right hq2 hw.le
      _ = 2 ^ k * (1 + unit p) := by field_simp
  constructor
  · refine le_of_mul_le_mul_right ?_ hs
    calc UniformQuantizer.level x lo hi n * (1 - unit p) ^ 2 * (hi - lo)
        = (clamp x lo hi - lo) * (1 - unit p) * (2 ^ k * (1 - unit p)) := by
          rw [mul_right_comm, hL]
          ring
      _ ≤ D * (S * W) :=
          mul_le_mul hd1 hSW1 (mul_nonneg hN.le (by linarith)) hD
      _ ≤ D * (S * ((hi - lo) * (1 + unit p))) :=
          mul_le_mul_of_nonneg_left (mul_le_mul_of_nonneg_left hs2 hS) hD
      _ = D * S * (1 + unit p) * (hi - lo) := by ring
  · refine le_of_mul_le_mul_right ?_ hs
    calc D * S * (1 - unit p) * (hi - lo) = D * (S * ((hi - lo) * (1 - unit p))) := by ring
      _ ≤ D * (S * W) := mul_le_mul_of_nonneg_left (mul_le_mul_of_nonneg_left hs1 hS) hD
      _ ≤ (clamp x lo hi - lo) * (1 + unit p) * (2 ^ k * (1 + unit p)) :=
          mul_le_mul hd2 hSW2 (mul_nonneg hS hw.le) (mul_nonneg hd (by linarith))
      _ = UniformQuantizer.level x lo hi n * (1 + unit p) ^ 2 * (hi - lo) := by
          rw [mul_right_comm _ _ (hi - lo), hL]
          ring

/-- Rounded and exact level differ by five units of all codes, and half the smallest place. -/
theorem abs_level_sub_le (h : Resolves p emin lo hi k) (hx : Representable p emin x) (n : ℕ)
    (hn : (n : K) = 2 ^ k) :
    |level p emin x lo hi (2 ^ k) - UniformQuantizer.level x lo hi n| ≤
      2 ^ k * (5 * unit p) + 2 ^ (emin - 1) := by
  have hL : 0 ≤ UniformQuantizer.level x lo hi n := UniformQuantizer.level_nonneg h.lo_lt_hi
  have hLn : UniformQuantizer.level x lo hi n ≤ 2 ^ k := hn ▸ UniformQuantizer.level_le h.lo_lt_hi
  obtain ⟨h1, h2⟩ := product_bounds h hx n hn
  obtain ⟨h3, h4⟩ := units_le unit_pos (unit_le h.precision) hL h1 h2
  have hA := mul_nonneg (offset_nonneg (x := x) h) (scale_nonneg h)
  have hround := abs_round_sub_le_add p emin
    (round p emin (clamp x lo hi - lo) * scale p emin lo hi (2 ^ k))
  rw [abs_of_nonneg hA, div_eq_mul_one_div, ← unit_eq] at hround
  obtain ⟨h5, h6⟩ := abs_le.mp hround
  have h7 : UniformQuantizer.level x lo hi n * (5 * unit p) ≤ 2 ^ k * (5 * unit p) :=
    mul_le_mul_of_nonneg_right hLn (mul_nonneg (by norm_num) unit_pos.le)
  rw [level, abs_le]
  constructor <;> linarith

end Error

end RoundedQuantizer

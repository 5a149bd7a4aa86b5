import Mathlib.Algebra.Order.Floor.Ring
import Mathlib.Algebra.Order.Field.Basic
import Mathlib.Algebra.Order.Group.MinMax
import Mathlib.Tactic.Linarith
import Mathlib.Tactic.Ring
import Mathlib.Tactic.FieldSimp

/-!
# Clamped uniform quantization of an interval

A value is clamped to `[lo, hi]`, scaled to `[0, n]` and floored. The top end of
the interval receives the extra code `n`, so `n` codes are enough exactly for the
values strictly below `hi`; this is the boundary a fixed-width field has to respect.
-/

namespace UniformQuantizer

variable {K : Type*} [LinearOrder K]

def clamp (x lo hi : K) : K := min (max x lo) hi

section Clamp
variable {x lo hi : K}

theorem clamp_of_mem (h : lo ≤ x) (h' : x ≤ hi) : clamp x lo hi = x := by
  simp [clamp, h, h']

theorem le_clamp (h : lo ≤ hi) : lo ≤ clamp x lo hi := le_min (le_max_right x lo) h

theorem clamp_le : clamp x lo hi ≤ hi := min_le_right _ _

theorem clamp_eq_hi (h : hi ≤ x) : clamp x lo hi = hi :=
  min_eq_right (h.trans (le_max_left x lo))

theorem clamp_lt_iff (h : lo < hi) : clamp x lo hi < hi ↔ x < hi := by
  simp [clamp, h]

theorem clamp_mono {y : K} (h : x ≤ y) : clamp x lo hi ≤ clamp y lo hi :=
  min_le_min_right hi (max_le_max_right lo h)

theorem clamp_clamp (h : lo ≤ hi) : clamp (clamp x lo hi) lo hi = clamp x lo hi :=
  clamp_of_mem (le_clamp h) clamp_le

end Clamp

variable [Field K]

/-- The position of the clamped value inside the interval, in units of one code. -/
def level (x lo hi : K) (n : ℕ) : K := (clamp x lo hi - lo) * (n / (hi - lo))

/-- The left end of the cell with number `c`. -/
def value (c : ℤ) (lo hi : K) (n : ℕ) : K := c * (hi - lo) / n + lo

def code [FloorRing K] (x lo hi : K) (n : ℕ) : ℤ := ⌊level x lo hi n⌋

variable [IsStrictOrderedRing K] {x lo hi : K} {n : ℕ}

theorem level_nonneg (h : lo < hi) : 0 ≤ level x lo hi n :=
  mul_nonneg (sub_nonneg.mpr (le_clamp h.le)) (div_nonneg n.cast_nonneg (sub_nonneg.mpr h.le))

theorem level_eq_sub (h : lo < hi) :
    level x lo hi n = n - (hi - clamp x lo hi) * (n / (hi - lo)) := by
  have hne : hi - lo ≠ 0 := (sub_pos.mpr h).ne'
  unfold level
  field_simp
  ring

theorem level_le (h : lo < hi) : level x lo hi n ≤ n := by
  have hs : 0 ≤ (hi - clamp x lo hi) * (n / (hi - lo)) :=
    mul_nonneg (sub_nonneg.mpr clamp_le) (div_nonneg n.cast_nonneg (sub_nonneg.mpr h.le))
  rw [level_eq_sub h]
  linarith

theorem level_mono (h : lo < hi) {y : K} (hxy : x ≤ y) : level x lo hi n ≤ level y lo hi n :=
  mul_le_mul_of_nonneg_right (sub_le_sub_right (clamp_mono hxy) lo)
    (div_nonneg n.cast_nonneg (sub_nonneg.mpr h.le))

omit [IsStrictOrderedRing K] in
theorem level_clamp (h : lo < hi) : level (clamp x lo hi) lo hi n = level x lo hi n := by
  rw [level, level, clamp_clamp h.le]

theorem level_lt_iff (h : lo < hi) (hn : 0 < n) : level x lo hi n < n ↔ x < hi := by
  have hs : 0 < (n : K) / (hi - lo) := div_pos (Nat.cast_pos.mpr hn) (sub_pos.mpr h)
  rw [level_eq_sub h, sub_lt_self_iff, mul_pos_iff_of_pos_right hs, sub_pos, clamp_lt_iff h]

variable [FloorRing K]

theorem code_nonneg (h : lo < hi) : 0 ≤ code x lo hi n := Int.floor_nonneg.mpr (level_nonneg h)

theorem code_le (h : lo < hi) : code x lo hi n ≤ n := by
  have hc : ((code x lo hi n : ℤ) : K) ≤ n := (Int.floor_le _).trans (level_le h)
  exact_mod_cast hc

theorem code_mono (h : lo < hi) {y : K} (hxy : x ≤ y) : code x lo hi n ≤ code y lo hi n :=
  Int.floor_le_floor (level_mono h hxy)

/-- Exactly the values below the upper end use one of the first `n` codes. -/
theorem code_lt_iff (h : lo < hi) (hn : 0 < n) : code x lo hi n < n ↔ x < hi := by
  rw [code, Int.floor_lt, Int.cast_natCast, level_lt_iff h hn]

/-- The error of one round trip is the discarded fraction of a cell. -/
theorem clamp_sub_value_code (h : lo < hi) (hn : 0 < n) :
    clamp x lo hi - value (code x lo hi n) lo hi n =
      Int.fract (level x lo hi n) * ((hi - lo) / n) := by
  have hne : hi - lo ≠ 0 := (sub_pos.mpr h).ne'
  have hn' : (n : K) ≠ 0 := (Nat.cast_pos.mpr hn).ne'
  have hl : clamp x lo hi - lo = level x lo hi n * ((hi - lo) / n) := by
    unfold level
    field_simp
  have hv : value (code x lo hi n) lo hi n - lo = code x lo hi n * ((hi - lo) / n) := by
    unfold value
    ring
  rw [Int.fract, sub_mul, ← hl]
  unfold code at hv ⊢
  linarith

theorem value_code_le_clamp (h : lo < hi) (hn : 0 < n) :
    0 ≤ clamp x lo hi - value (code x lo hi n) lo hi n := by
  rw [clamp_sub_value_code h hn]
  exact mul_nonneg (Int.fract_nonneg _) (div_nonneg (sub_nonneg.mpr h.le) n.cast_nonneg)

theorem clamp_sub_value_code_lt (h : lo < hi) (hn : 0 < n) :
    clamp x lo hi - value (code x lo hi n) lo hi n < (hi - lo) / n := by
  rw [clamp_sub_value_code h hn]
  exact mul_lt_of_lt_one_left (div_pos (sub_pos.mpr h) (Nat.cast_pos.mpr hn)) (Int.fract_lt_one _)

section Value
variable {c : ℤ}

omit [FloorRing K] in
theorem le_value (h : lo < hi) (hc : 0 ≤ c) : lo ≤ value c lo hi n := by
  have hs : 0 ≤ c * (hi - lo) / (n : K) :=
    div_nonneg (mul_nonneg (Int.cast_nonneg hc) (sub_nonneg.mpr h.le)) n.cast_nonneg
  unfold value
  linarith

omit [FloorRing K] in
theorem value_lt (h : lo < hi) (hn : 0 < n) (hc : c < n) : value c lo hi n < hi := by
  have hc' : (c : K) < n := by exact_mod_cast hc
  have hs : c * (hi - lo) / (n : K) < hi - lo := by
    rw [div_lt_iff₀ (Nat.cast_pos.mpr hn), mul_comm]
    exact mul_lt_mul_of_pos_left hc' (sub_pos.mpr h)
  unfold value
  linarith

omit [FloorRing K] in
theorem value_self (hn : 0 < n) : value n lo hi n = hi := by
  have hn' : (n : K) ≠ 0 := (Nat.cast_pos.mpr hn).ne'
  rw [value, Int.cast_natCast, mul_div_cancel_left₀ _ hn', sub_add_cancel]

omit [FloorRing K] in
theorem value_le (h : lo < hi) (hn : 0 < n) (hc : c ≤ n) : value c lo hi n ≤ hi := by
  rcases hc.lt_or_eq with hlt | rfl
  · exact (value_lt h hn hlt).le
  · exact (value_self hn).le

theorem code_value (h : lo < hi) (hn : 0 < n) (hc : 0 ≤ c) (hcn : c ≤ n) :
    code (value c lo hi n) lo hi n = c := by
  have hne : hi - lo ≠ 0 := (sub_pos.mpr h).ne'
  have hn' : (n : K) ≠ 0 := (Nat.cast_pos.mpr hn).ne'
  have hlevel : level (value c lo hi n) lo hi n = c := by
    rw [level, clamp_of_mem (le_value h hc) (value_le h hn hcn), value]
    field_simp
    ring
  rw [code, hlevel, Int.floor_intCast]

end Value

omit [FloorRing K] in
theorem clamp_neg {r : K} (hr : 0 < r) : clamp (-x) (-r) r = -clamp x (-r) r := by
  rcases le_total x (-r) with h | h
  · rw [clamp_eq_hi (le_neg_of_le_neg h), clamp, max_eq_right h, min_eq_left (by linarith),
      neg_neg]
  · rcases le_total r x with h' | h'
    · rw [clamp_eq_hi h', clamp, max_eq_right (neg_le_neg h'), min_eq_left (by linarith)]
    · rw [clamp_of_mem h h', clamp_of_mem (neg_le_neg h') (neg_le.mp h)]

omit [FloorRing K] in
theorem level_neg {r : K} (hr : 0 < r) : level (-x) (-r) r n = n - level x (-r) r n := by
  rw [level_eq_sub (by linarith : -r < r), clamp_neg hr, level]
  ring

/-- Mirroring the value in a symmetric interval mirrors the code: the two codes
fill the range, up to the cell that the two floors may lose together. -/
theorem code_add_code_neg {r : K} (hr : 0 < r) :
    code x (-r) r n + code (-x) (-r) r n = n ∨ code x (-r) r n + code (-x) (-r) r n = n - 1 := by
  have hneg : code (-x) (-r) r n = n - ⌈level x (-r) r n⌉ := by
    rw [code, level_neg hr, ← Int.cast_natCast, sub_eq_add_neg, Int.floor_intCast_add,
      Int.floor_neg, ← sub_eq_add_neg]
  have hlo := Int.floor_le_ceil (level x (-r) r n)
  have hhi := Int.ceil_le_floor_add_one (level x (-r) r n)
  rw [hneg, code]
  omega

omit [FloorRing K] in
theorem level_symmetric {r : K} (hr : 0 < r) :
    level x (-r) r n = n / 2 * (clamp x (-r) r / r + 1) := by
  rw [level]
  field_simp
  ring

omit [FloorRing K] in
/-- How far a value sits in a symmetric interval hardly depends on a small change of its ends. -/
theorem abs_clamp_div_sub_le {r r' : K} (hr : 0 < r) (h : r ≤ r') :
    |clamp x (-r) r / r - clamp x (-r') r' / r'| ≤ 1 - r / r' := by
  have hr' : 0 < r' := hr.trans_le h
  have hratio : r / r' ≤ 1 := (div_le_one hr').mpr h
  have hmain : ∀ y : K, 0 ≤ y →
      |clamp y (-r) r / r - clamp y (-r') r' / r'| ≤ 1 - r / r' := by
    intro y hy
    rcases le_total r' y with hy' | hy'
    · rw [clamp_eq_hi (h.trans hy'), clamp_eq_hi hy', div_self hr.ne', div_self hr'.ne', sub_self,
        abs_zero]
      linarith
    · rw [clamp_of_mem (by linarith : -r' ≤ y) hy']
      rcases le_total r y with hyr | hyr
      · have hdiv : r / r' ≤ y / r' := div_le_div_of_nonneg_right hyr hr'.le
        have hone : y / r' ≤ 1 := (div_le_one hr').mpr hy'
        rw [clamp_eq_hi hyr, div_self hr.ne', abs_of_nonneg (by linarith)]
        linarith
      · have hfactor : y / r - y / r' = y / r * (1 - r / r') := by field_simp
        have hone : y / r ≤ 1 := (div_le_one hr).mpr hyr
        rw [clamp_of_mem (by linarith : -r ≤ y) hyr, hfactor,
          abs_of_nonneg (mul_nonneg (div_nonneg hy hr.le) (by linarith))]
        exact mul_le_of_le_one_left (by linarith) hone
  rcases le_total 0 x with hx | hx
  · exact hmain x hx
  · have hneg := hmain (-x) (neg_nonneg.mpr hx)
    rw [clamp_neg hr, clamp_neg hr', neg_div, neg_div, ← neg_sub', abs_neg] at hneg
    exact hneg

omit [FloorRing K] in
theorem abs_level_sub_level_le {r r' : K} (hr : 0 < r) (h : r ≤ r') :
    |level x (-r) r n - level x (-r') r' n| ≤ n / 2 * (1 - r / r') := by
  have hn : (0 : K) ≤ n / 2 := div_nonneg n.cast_nonneg two_pos.le
  rw [level_symmetric hr, level_symmetric (hr.trans_le h), ← mul_sub, abs_mul, abs_of_nonneg hn,
    add_sub_add_right_eq_sub]
  exact mul_le_mul_of_nonneg_left (abs_clamp_div_sub_le hr h) hn

section Perturbed
variable {f : K → K} {δ : K}

omit [FloorRing K] in
theorem abs_clamp_sub_clamp_le (x y : K) : |clamp x lo hi - clamp y lo hi| ≤ |x - y| := by
  refine (abs_min_sub_min_le_max _ _ _ _).trans ?_
  rw [sub_self, abs_zero]
  exact max_le (abs_max_sub_max_le_abs x y lo) (abs_nonneg _)

omit [FloorRing K] in
theorem abs_clamp_map_sub_le (hf : Monotone f) (h : lo ≤ hi)
    (hδ : ∀ c, lo ≤ c → c ≤ hi → |f c - c| ≤ δ) (x : K) :
    |clamp (f x) lo hi - clamp x lo hi| ≤ δ := by
  have hself {c : K} (hc : lo ≤ c) (hc' : c ≤ hi) : |clamp (f c) lo hi - clamp c lo hi| ≤ δ :=
    (abs_clamp_sub_clamp_le (f c) c).trans (hδ c hc hc')
  by_cases hlo : lo ≤ x
  · by_cases hhi : x ≤ hi
    · exact hself hlo hhi
    · have hx := (not_le.mp hhi).le
      have hend := hself h le_rfl
      rw [clamp_eq_hi le_rfl, abs_sub_comm, abs_of_nonneg (sub_nonneg.mpr clamp_le)] at hend
      rw [clamp_eq_hi hx, abs_sub_comm, abs_of_nonneg (sub_nonneg.mpr clamp_le)]
      have hmono : clamp (f hi) lo hi ≤ clamp (f x) lo hi := clamp_mono (hf hx)
      linarith
  · have hx := (not_le.mp hlo).le
    have hlow : clamp x lo hi = lo := by rw [clamp, max_eq_right hx, min_eq_left h]
    have hend := hself le_rfl h
    rw [clamp_of_mem le_rfl h, abs_of_nonneg (sub_nonneg.mpr (le_clamp h))] at hend
    rw [hlow, abs_of_nonneg (sub_nonneg.mpr (le_clamp h))]
    have hmono : clamp (f x) lo hi ≤ clamp (f lo) lo hi := clamp_mono (hf hx)
    linarith

omit [FloorRing K] in
theorem abs_level_map_sub_le (hf : Monotone f) (h : lo < hi)
    (hδ : ∀ c, lo ≤ c → c ≤ hi → |f c - c| ≤ δ) (x : K) :
    |level (f x) lo hi n - level x lo hi n| ≤ δ * (n / (hi - lo)) := by
  have hscale : (0 : K) ≤ n / (hi - lo) := div_nonneg n.cast_nonneg (sub_nonneg.mpr h.le)
  rw [level, level, ← sub_mul, sub_sub_sub_cancel_right, abs_mul, abs_of_nonneg hscale]
  exact mul_le_mul_of_nonneg_right (abs_clamp_map_sub_le hf h.le hδ x) hscale

end Perturbed

end UniformQuantizer

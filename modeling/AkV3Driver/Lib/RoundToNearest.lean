import Mathlib.Algebra.Order.Floor.Ring
import Mathlib.Data.Int.Log
import Mathlib.Tactic.FieldSimp
import Mathlib.Tactic.Linarith
import Mathlib.Tactic.Ring

/-!
# Rounding to nearest, ties to even

A binary format has `p` bits of precision, and no place below `2 ^ emin`. A number is
rounded to the grid of its own last place. Rounding is monotone and odd, leaves the
numbers of the format alone, and errs by half a place. Overflow is not part of it:
exponents are not bounded from above.
-/

namespace RoundToNearest

variable {K : Type*} [Field K] [LinearOrder K] [IsStrictOrderedRing K] [FloorRing K]

/-- The nearest integer, and the even one of two. -/
def nearestEven (x : K) : ℤ :=
  if Int.fract x < 1 / 2 ∨ Int.fract x = 1 / 2 ∧ ⌊x⌋ % 2 = 0 then ⌊x⌋ else ⌊x⌋ + 1

section NearestEven
variable {x y : K}

omit [IsStrictOrderedRing K] in
theorem floor_le_nearestEven (x : K) : ⌊x⌋ ≤ nearestEven x := by
  rw [nearestEven]
  split_ifs <;> omega

omit [IsStrictOrderedRing K] in
theorem nearestEven_le_floor_add_one (x : K) : nearestEven x ≤ ⌊x⌋ + 1 := by
  rw [nearestEven]
  split_ifs <;> omega

theorem nearestEven_intCast (n : ℤ) : nearestEven (n : K) = n := by
  simp [nearestEven]

theorem nearestEven_mono (h : x ≤ y) : nearestEven x ≤ nearestEven y := by
  rcases (Int.floor_mono h).lt_or_eq with hlt | heq
  · have hx := nearestEven_le_floor_add_one x
    have hy := floor_le_nearestEven y
    omega
  · have hfract : Int.fract x ≤ Int.fract y := by
      rw [Int.fract, Int.fract, heq]
      linarith
    have hx := nearestEven_le_floor_add_one x
    have hy := floor_le_nearestEven y
    simp only [nearestEven] at hx hy ⊢
    split_ifs with h1 h2 h2
    · omega
    · omega
    · -- `y` is rounded down, so `x` is not above the middle either
      refine absurd ?_ h1
      rcases h2 with h2 | ⟨h2, heven⟩
      · exact Or.inl (hfract.trans_lt h2)
      · rcases (hfract.trans_eq h2).lt_or_eq with h3 | h3
        · exact Or.inl h3
        · exact Or.inr ⟨h3, heq ▸ heven⟩
    · omega

theorem abs_nearestEven_sub_le (x : K) : |(nearestEven x : K) - x| ≤ 1 / 2 := by
  have h0 := Int.fract_nonneg x
  have h1 := Int.fract_lt_one x
  have hx : x = ⌊x⌋ + Int.fract x := (Int.floor_add_fract x).symm
  rw [abs_le, nearestEven]
  split_ifs with h
  · have hle : Int.fract x ≤ 1 / 2 := by
      rcases h with h | h
      · exact h.le
      · exact h.1.le
    constructor <;> linarith
  · have hge : 1 / 2 ≤ Int.fract x := by
      by_contra hlt
      exact h (Or.inl (not_le.mp hlt))
    push_cast
    constructor <;> linarith

theorem abs_nearestEven_le {n : ℤ} (h : |x| ≤ n) : |nearestEven x| ≤ n := by
  obtain ⟨hlo, hhi⟩ := abs_le.mp h
  rw [← Int.cast_neg] at hlo
  have hlo' := nearestEven_mono hlo
  have hhi' := nearestEven_mono hhi
  rw [nearestEven_intCast] at hlo' hhi'
  exact abs_le.mpr ⟨hlo', hhi'⟩

theorem nearestEven_neg (x : K) : nearestEven (-x) = -nearestEven x := by
  by_cases hz : Int.fract x = 0
  · obtain ⟨n, rfl⟩ : ∃ n : ℤ, x = n := ⟨⌊x⌋, by simpa [hz] using (Int.floor_add_fract x).symm⟩
    rw [← Int.cast_neg, nearestEven_intCast, nearestEven_intCast]
  · have hfract : Int.fract (-x) = 1 - Int.fract x := Int.fract_neg hz
    have hfloor : ⌊-x⌋ = -⌊x⌋ - 1 := by
      have h : ((⌊-x⌋ : ℤ) : K) = ((-⌊x⌋ - 1 : ℤ) : K) := by
        have hx := Int.floor_add_fract x
        have hnx := Int.floor_add_fract (-x)
        push_cast
        linarith
      exact_mod_cast h
    rw [nearestEven, nearestEven, hfract, hfloor]
    have hmid : 1 - Int.fract x = 1 / 2 ↔ Int.fract x = 1 / 2 := by
      constructor <;> intro h <;> linarith
    split_ifs with h1 h2 h2
    · rcases h1 with h1 | ⟨h1, heven⟩
      · rcases h2 with h2 | h2
        · linarith
        · linarith [h2.1]
      · rw [hmid] at h1
        rcases h2 with h2 | h2
        · linarith
        · omega
    · omega
    · omega
    · rw [not_or] at h1 h2
      have hle : Int.fract x = 1 / 2 := by linarith [not_lt.mp h1.1, not_lt.mp h2.1]
      have h3 : ¬(-⌊x⌋ - 1) % 2 = 0 := fun he => h1.2 ⟨hmid.mpr hle, he⟩
      have h4 : ¬⌊x⌋ % 2 = 0 := fun he => h2.2 ⟨hle, he⟩
      omega

end NearestEven

omit [FloorRing K] in
theorem exists_mul_two_zpow (m : ℤ) {e e' : ℤ} (h : e ≤ e') :
    ∃ n : ℤ, (m * 2 ^ e' : K) = n * 2 ^ e := by
  have htwo : (2 : K) ≠ 0 := two_pos.ne'
  refine ⟨m * 2 ^ (e' - e).toNat, ?_⟩
  have hsplit : e' = (e' - e).toNat + e := by omega
  push_cast
  rw [mul_assoc, ← zpow_natCast, ← zpow_add₀ htwo, ← hsplit]

section Round
variable (p : ℕ) (emin : ℤ)

/-- The exponent of the last place of `x`. -/
def exponent (x : K) : ℤ := max (Int.log 2 |x| + 1 - p) emin

def ulp (x : K) : K := 2 ^ exponent p emin x

def round (x : K) : K := nearestEven (x / ulp p emin x) * ulp p emin x

def Representable (x : K) : Prop := ∃ m e : ℤ, |m| < 2 ^ p ∧ emin ≤ e ∧ x = m * 2 ^ e

section Place
variable (x : K)

theorem ulp_pos : 0 < ulp p emin x := zpow_pos two_pos _

theorem abs_lt_two_zpow : |x| < 2 ^ (exponent p emin x + p) := by
  have hlog : |x| < (2 : ℕ) ^ (Int.log 2 |x| + 1) := Int.lt_zpow_succ_log_self one_lt_two |x|
  push_cast at hlog
  refine hlog.trans_le (zpow_le_zpow_right₀ one_le_two ?_)
  simp only [exponent]
  omega

theorem two_zpow_eq_mul_ulp {e : ℤ} (h : exponent p emin x ≤ e) :
    ∃ n : ℤ, (2 : K) ^ e = n * ulp p emin x := by
  simpa [ulp] using exists_mul_two_zpow (K := K) 1 h

/-- On the grid of its last place, rounding does not cross a grid point. -/
theorem round_le_of_le (n : ℤ) (h : x ≤ n * ulp p emin x) : round p emin x ≤ n * ulp p emin x := by
  have hpos := ulp_pos p emin x
  have hle : nearestEven (x / ulp p emin x) ≤ n := by
    rw [← nearestEven_intCast (K := K) n]
    exact nearestEven_mono ((div_le_iff₀ hpos).mpr h)
  exact mul_le_mul_of_nonneg_right (Int.cast_le.mpr hle) hpos.le

theorem le_round_of_le (n : ℤ) (h : n * ulp p emin x ≤ x) : n * ulp p emin x ≤ round p emin x := by
  have hpos := ulp_pos p emin x
  have hle : n ≤ nearestEven (x / ulp p emin x) := by
    rw [← nearestEven_intCast (K := K) n]
    exact nearestEven_mono ((le_div_iff₀ hpos).mpr h)
  exact mul_le_mul_of_nonneg_right (Int.cast_le.mpr hle) hpos.le

theorem round_nonneg (h : 0 ≤ x) : 0 ≤ round p emin x := by
  simpa using le_round_of_le p emin x 0 (by simpa using h)

theorem abs_round_sub_le : |round p emin x - x| ≤ ulp p emin x / 2 := by
  have hpos := ulp_pos p emin x
  have hx : x = x / ulp p emin x * ulp p emin x := by field_simp
  have hround : round p emin x - x =
      (nearestEven (x / ulp p emin x) - x / ulp p emin x) * ulp p emin x := by
    rw [sub_mul, ← hx, round]
  rw [hround, abs_mul, abs_of_pos hpos]
  calc |(nearestEven (x / ulp p emin x) : K) - x / ulp p emin x| * ulp p emin x
      ≤ 1 / 2 * ulp p emin x :=
        mul_le_mul_of_nonneg_right (abs_nearestEven_sub_le _) hpos.le
    _ = ulp p emin x / 2 := by ring

end Place

variable {p emin} {x y : K}

omit [IsStrictOrderedRing K] in
@[simp] theorem exponent_neg (x : K) : exponent p emin (-x) = exponent p emin x := by
  simp [exponent]

omit [IsStrictOrderedRing K] in
@[simp] theorem ulp_neg (x : K) : ulp p emin (-x) = ulp p emin x := by simp [ulp]

@[simp] theorem round_neg (x : K) : round p emin (-x) = -round p emin x := by
  simp [round, neg_div, nearestEven_neg]

@[simp] theorem round_zero : round p emin (0 : K) = 0 := by
  have h := nearestEven_intCast (K := K) 0
  rw [Int.cast_zero] at h
  simp [round, h]

theorem exponent_le_exponent (hx : 0 < |x|) (h : |x| ≤ |y|) :
    exponent p emin x ≤ exponent p emin y := by
  have hlog := Int.log_mono_right (b := 2) hx h
  simp only [exponent]
  omega

theorem exponent_le_of_abs_lt {e : ℤ} (hx : x ≠ 0) (he : emin ≤ e) (h : |x| < 2 ^ (e + p)) :
    exponent p emin x ≤ e := by
  have hlog : Int.log 2 |x| < e + p := by
    refine (Int.lt_zpow_iff_log_lt one_lt_two (abs_pos.mpr hx)).mp ?_
    exact_mod_cast h
  simp only [exponent]
  omega

omit [FloorRing K] in
theorem abs_mul_two_zpow_lt {m : ℤ} (hm : |m| < 2 ^ p) (e : ℤ) :
    |(m * 2 ^ e : K)| < 2 ^ (e + p) := by
  have hm' : |(m : K)| < 2 ^ p := by exact_mod_cast hm
  have hpos : (0 : K) < 2 ^ e := zpow_pos two_pos e
  rw [abs_mul, abs_of_pos hpos, zpow_add₀ two_pos.ne', zpow_natCast, mul_comm (2 ^ e : K)]
  exact mul_lt_mul_of_pos_right hm' hpos

theorem Representable.eq_mul_ulp (h : Representable p emin x) :
    ∃ n : ℤ, x = n * ulp p emin x := by
  obtain ⟨m, e, hm, he, rfl⟩ := h
  by_cases hx : (m * 2 ^ e : K) = 0
  · exact ⟨0, by simp [hx]⟩
  · obtain ⟨n, hn⟩ := two_zpow_eq_mul_ulp _ _ _
      (exponent_le_of_abs_lt hx he (abs_mul_two_zpow_lt hm e))
    exact ⟨m * n, by rw [Int.cast_mul, mul_assoc, ← hn]⟩

omit [FloorRing K] in
/-- Above `2 ^ (e + p - 1)` the format has no place below `2 ^ e`. -/
theorem Representable.eq_mul_two_zpow {e : ℤ} (h : Representable p emin x)
    (hx : 2 ^ (e + p - 1) ≤ |x|) : ∃ n : ℤ, x = n * 2 ^ e := by
  obtain ⟨m, e', hm, -, rfl⟩ := h
  have hlt := hx.trans_lt (abs_mul_two_zpow_lt hm e')
  rw [zpow_lt_zpow_iff_right₀ one_lt_two] at hlt
  exact exists_mul_two_zpow m (by omega)

theorem round_of_eq_mul_ulp {n : ℤ} (h : x = n * ulp p emin x) : round p emin x = x := by
  have hle := round_le_of_le p emin x n h.le
  have hge := le_round_of_le p emin x n h.ge
  rw [← h] at hle hge
  exact le_antisymm hle hge

theorem Representable.round_eq (h : Representable p emin x) : round p emin x = x := by
  obtain ⟨n, hn⟩ := h.eq_mul_ulp
  exact round_of_eq_mul_ulp hn

theorem representable_round (hp : 0 < p) (x : K) : Representable p emin (round p emin x) := by
  have hpos := ulp_pos p emin x
  have hemin : emin ≤ exponent p emin x := le_max_right _ _
  have habs : |x / ulp p emin x| ≤ (2 ^ p : ℤ) := by
    rw [abs_div, abs_of_pos hpos, div_le_iff₀ hpos, ulp]
    push_cast
    rw [← zpow_natCast, ← zpow_add₀ two_ne_zero, add_comm]
    exact (abs_lt_two_zpow p emin x).le
  have hle : |nearestEven (x / ulp p emin x)| ≤ 2 ^ p := abs_nearestEven_le habs
  rcases hle.lt_or_eq with hlt | heq
  · exact ⟨_, _, hlt, hemin, rfl⟩
  · -- the carry into the next binade leaves a power of two
    obtain ⟨q, rfl⟩ : ∃ q, p = q + 1 := ⟨p - 1, by omega⟩
    have hsplit (m : ℤ) (hm : nearestEven (x / ulp (q + 1) emin x) = m * 2)
        (hlt : |m| < 2 ^ (q + 1)) : Representable (q + 1) emin (round (q + 1) emin x) := by
      refine ⟨m, exponent (q + 1) emin x + 1, hlt, by omega, ?_⟩
      rw [round, hm, ulp, zpow_add₀ two_ne_zero]
      push_cast
      ring
    have hpow : (0 : ℤ) < 2 ^ q := by positivity
    have hlt : |(2 ^ q : ℤ)| < 2 ^ (q + 1) := by
      rw [abs_of_pos hpow, pow_succ]
      linarith
    rw [pow_succ] at heq
    rcases abs_eq (by positivity) |>.mp heq with h | h
    · exact hsplit (2 ^ q) h hlt
    · exact hsplit (-2 ^ q) (by rw [h]; ring) (by rwa [abs_neg])

theorem round_mono_of_pos (hp : 0 < p) (hx : 0 < x) (h : x ≤ y) :
    round p emin x ≤ round p emin y := by
  have hy := hx.trans_le h
  have hexp : exponent p emin x ≤ exponent p emin y :=
    exponent_le_exponent (abs_pos.mpr hx.ne') (by rwa [abs_of_pos hx, abs_of_pos hy])
  rcases hexp.lt_or_eq with hlt | heq
  · -- a power of two lies between, and on both grids
    have hlog : exponent p emin y = Int.log 2 |y| + 1 - p := by
      simp only [exponent] at hlt ⊢
      omega
    have hcy : (2 : K) ^ Int.log 2 |y| ≤ y := by
      simpa [abs_of_pos hy] using Int.zpow_log_le_self (b := 2) one_lt_two hy
    have hcx : x ≤ 2 ^ Int.log 2 |y| := by
      have hx' := abs_lt_two_zpow p emin x
      rw [abs_of_pos hx] at hx'
      exact hx'.le.trans (zpow_le_zpow_right₀ one_le_two (by omega))
    obtain ⟨n, hn⟩ : ∃ n : ℤ, (2 : K) ^ Int.log 2 |y| = n * ulp p emin x :=
      two_zpow_eq_mul_ulp p emin x (by omega)
    obtain ⟨m, hm⟩ : ∃ m : ℤ, (2 : K) ^ Int.log 2 |y| = m * ulp p emin y :=
      two_zpow_eq_mul_ulp p emin y (by omega)
    calc round p emin x ≤ n * ulp p emin x := round_le_of_le p emin x n (hn ▸ hcx)
      _ = m * ulp p emin y := hn.symm.trans hm
      _ ≤ round p emin y := le_round_of_le p emin y m (hm ▸ hcy)
  · have hulp : ulp p emin x = ulp p emin y := by rw [ulp, ulp, heq]
    have hpos := ulp_pos p emin y
    have hle : nearestEven (x / ulp p emin y) ≤ nearestEven (y / ulp p emin y) :=
      nearestEven_mono (div_le_div_of_nonneg_right h hpos.le)
    rw [round, round, hulp]
    exact mul_le_mul_of_nonneg_right (Int.cast_le.mpr hle) hpos.le

theorem round_mono (hp : 0 < p) (h : x ≤ y) : round p emin x ≤ round p emin y := by
  rcases lt_trichotomy x 0 with hx | rfl | hx
  · rcases lt_or_ge y 0 with hy | hy
    · have hneg : round p emin (-y) ≤ round p emin (-x) :=
        round_mono_of_pos hp (neg_pos.mpr hy) (neg_le_neg h)
      simpa using hneg
    · have hneg := round_nonneg p emin (-x) (neg_nonneg.mpr hx.le)
      rw [round_neg] at hneg
      exact (neg_nonneg.mp hneg).trans (round_nonneg p emin y hy)
  · rw [round_zero]
    exact round_nonneg p emin y h
  · exact round_mono_of_pos hp hx h

end Round

section Error
variable {p : ℕ} {emin : ℤ} {x y : K}

theorem abs_round_sub_le_of_exponent (hx : x ≠ 0)
    (hexp : exponent p emin x = Int.log 2 |x| + 1 - p) : |round p emin x - x| ≤ |x| / 2 ^ p := by
  have hlog : (2 : K) ^ Int.log 2 |x| ≤ |x| := by
    simpa using Int.zpow_log_le_self (b := 2) one_lt_two (abs_pos.mpr hx)
  calc |round p emin x - x| ≤ ulp p emin x / 2 := abs_round_sub_le p emin x
    _ = 2 ^ Int.log 2 |x| / 2 ^ p := by
        rw [ulp, hexp, zpow_sub₀ two_ne_zero, zpow_add₀ two_ne_zero, zpow_one, zpow_natCast]
        ring
    _ ≤ |x| / 2 ^ p := div_le_div_of_nonneg_right hlog (by positivity)

theorem abs_round_sub_le_of_normal (h : 2 ^ (emin + p - 1) ≤ |x|) :
    |round p emin x - x| ≤ |x| / 2 ^ p := by
  have hpos : 0 < |x| := (zpow_pos two_pos _).trans_le h
  have hlog : emin + p - 1 ≤ Int.log 2 |x| :=
    (Int.zpow_le_iff_le_log one_lt_two hpos).mp (by exact_mod_cast h)
  refine abs_round_sub_le_of_exponent (abs_pos.mp hpos) ?_
  simp only [exponent]
  omega

theorem abs_round_sub_le_of_grid {n : ℤ} (h : x = n * 2 ^ emin) :
    |round p emin x - x| ≤ |x| / 2 ^ p := by
  by_cases hx : x = 0
  · simp [hx]
  by_cases hexp : exponent p emin x = emin
  · have hround : round p emin x = x := round_of_eq_mul_ulp (n := n) (by rw [ulp, hexp, h])
    rw [hround, sub_self, abs_zero]
    positivity
  · refine abs_round_sub_le_of_exponent hx ?_
    simp only [exponent] at hexp ⊢
    omega

omit [FloorRing K] in
theorem Representable.eq_mul_emin (h : Representable p emin x) :
    ∃ n : ℤ, x = n * 2 ^ emin := by
  obtain ⟨m, e, -, he, rfl⟩ := h
  exact exists_mul_two_zpow m he

/-- A difference never loses more than its last place, however small it is. -/
theorem abs_round_sub_sub_le (hx : Representable p emin x) (hy : Representable p emin y) :
    |round p emin (x - y) - (x - y)| ≤ |x - y| / 2 ^ p := by
  obtain ⟨n, hn⟩ := hx.eq_mul_emin
  obtain ⟨m, hm⟩ := hy.eq_mul_emin
  refine abs_round_sub_le_of_grid (n := n - m) ?_
  rw [hn, hm]
  push_cast
  ring

variable (p emin) in
theorem abs_round_sub_le_add (x : K) :
    |round p emin x - x| ≤ |x| / 2 ^ p + 2 ^ (emin - 1) := by
  have hpos : (0 : K) < 2 ^ (emin - 1) := zpow_pos two_pos _
  by_cases hx : x = 0
  · simpa [hx] using hpos.le
  by_cases h : 2 ^ (emin + p - 1) ≤ |x|
  · exact (abs_round_sub_le_of_normal h).trans (by linarith)
  · have hexp : exponent p emin x ≤ emin := by
      refine exponent_le_of_abs_lt hx le_rfl ((not_le.mp h).trans_le ?_)
      exact zpow_le_zpow_right₀ one_le_two (by omega)
    have hle : ulp p emin x / 2 ≤ 2 ^ (emin - 1) := by
      rw [ulp, zpow_sub₀ two_ne_zero, zpow_one]
      exact div_le_div_of_nonneg_right (zpow_le_zpow_right₀ one_le_two hexp) two_pos.le
    have hnonneg : 0 ≤ |x| / 2 ^ p := by positivity
    linarith [abs_round_sub_le p emin x]

theorem abs_round_sub_le_of_abs_lt {e : ℤ} (he : emin ≤ e) (h : |x| < 2 ^ (e + p)) :
    |round p emin x - x| ≤ 2 ^ e / 2 := by
  by_cases hx : x = 0
  · subst hx
    rw [round_zero, sub_self, abs_zero]
    exact div_nonneg (zpow_pos two_pos e).le two_pos.le
  · have hexp := exponent_le_of_abs_lt hx he h
    refine (abs_round_sub_le p emin x).trans ?_
    exact div_le_div_of_nonneg_right (zpow_le_zpow_right₀ one_le_two hexp) two_pos.le

/-- Numbers that are more than a place apart stay apart. -/
theorem round_lt_round {e : ℤ} (he : emin ≤ e) (hx : |x| < 2 ^ (e + p)) (hy : |y| < 2 ^ (e + p))
    (h : 2 ^ e < y - x) : round p emin x < round p emin y := by
  have h1 := abs_le.mp (abs_round_sub_le_of_abs_lt he hx)
  have h2 := abs_le.mp (abs_round_sub_le_of_abs_lt he hy)
  linarith [h1.2, h2.1]

end Error

section Formats
variable {p q : ℕ} {emin emin' : ℤ} {x : K}

omit [LinearOrder K] [IsStrictOrderedRing K] [FloorRing K] in
theorem Representable.widen (h : Representable p emin x) (hp : p ≤ q) (hemin : emin' ≤ emin) :
    Representable q emin' x := by
  obtain ⟨m, e, hm, he, rfl⟩ := h
  exact ⟨m, e, hm.trans_le (pow_le_pow_right₀ one_le_two hp), hemin.trans he, rfl⟩

omit [LinearOrder K] [IsStrictOrderedRing K] [FloorRing K] in
theorem representable_intCast {n : ℤ} (hn : |n| < 2 ^ p) (hemin : emin ≤ 0) :
    Representable p emin (n : K) := ⟨n, 0, hn, hemin, by simp⟩

end Formats

section PowerOfTwo
variable {p : ℕ} {emin : ℤ} {x : K}

theorem nearestEven_add_half {n : ℤ} (h : n % 2 = 0) : nearestEven ((n : K) + 1 / 2) = n := by
  have hfloor : ⌊(n : K) + 1 / 2⌋ = n := by
    rw [Int.floor_eq_iff]
    constructor <;> linarith
  have hfract : Int.fract ((n : K) + 1 / 2) = 1 / 2 := by
    rw [Int.fract, hfloor]
    ring
  rw [nearestEven, hfract, hfloor, if_pos (Or.inr ⟨rfl, h⟩)]

/-- Up to half a place above a power of two, rounding comes down to it. -/
theorem round_le_two_zpow {k : ℤ} (hp : 2 ≤ p) (hk : emin ≤ k + 1 - p)
    (h : x ≤ 2 ^ k * (1 + 1 / 2 ^ p)) : round p emin x ≤ 2 ^ k := by
  have hk0 : (0 : K) < 2 ^ k := zpow_pos two_pos k
  have hp0 : (0 : K) < 1 / 2 ^ p := by positivity
  have hp1 : (1 : K) / 2 ^ p < 1 := by
    rw [div_lt_one (by positivity)]
    exact one_lt_pow₀ one_lt_two (by omega)
  have hpos : (0 : K) < 2 ^ k * (1 + 1 / 2 ^ p) := by positivity
  have hlo : (2 : K) ^ k ≤ 2 ^ k * (1 + 1 / 2 ^ p) := le_mul_of_one_le_right hk0.le (by linarith)
  have hhi : 2 ^ k * (1 + 1 / 2 ^ p) < (2 : K) ^ (k + 1) := by
    rw [zpow_add₀ two_ne_zero, zpow_one]
    exact mul_lt_mul_of_pos_left (by linarith) hk0
  have hlog : Int.log 2 |2 ^ k * (1 + 1 / 2 ^ p : K)| = k := by
    rw [abs_of_pos hpos]
    refine le_antisymm ?_ ((Int.zpow_le_iff_le_log one_lt_two hpos).mp (by exact_mod_cast hlo))
    have := (Int.lt_zpow_iff_log_lt one_lt_two hpos).mp (by exact_mod_cast hhi)
    omega
  have hexp : exponent p emin (2 ^ k * (1 + 1 / 2 ^ p : K)) = k + 1 - p := by
    rw [exponent, hlog]
    omega
  obtain ⟨q, rfl⟩ : ∃ q, p = q + 2 := ⟨p - 2, by omega⟩
  have hscaled : 2 ^ k * (1 + 1 / 2 ^ (q + 2) : K) /
      ulp (q + 2) emin (2 ^ k * (1 + 1 / 2 ^ (q + 2))) = ((2 ^ (q + 1) : ℤ) : K) + 1 / 2 := by
    rw [ulp, hexp, zpow_sub₀ two_ne_zero, zpow_add₀ two_ne_zero, zpow_one, zpow_natCast]
    push_cast
    field_simp
    ring
  have heven : (2 ^ (q + 1) : ℤ) % 2 = 0 := by
    rw [pow_succ]
    exact Int.mul_emod_left _ _
  calc round (q + 2) emin x ≤ round (q + 2) emin (2 ^ k * (1 + 1 / 2 ^ (q + 2))) :=
        round_mono (by omega) h
    _ = 2 ^ k := by
        rw [round, hscaled, nearestEven_add_half heven, ulp, hexp]
        push_cast
        rw [← zpow_natCast, ← zpow_add₀ two_ne_zero]
        congr 1
        push_cast
        ring

/-- The rounded quotient of a power of two takes its divisor back to at most that power. -/
theorem round_mul_round_div_le {k : ℤ} {s : K} (hp : 2 ≤ p) (hk : emin ≤ k + 1 - p) (hs : 0 < s)
    (hnormal : 2 ^ (emin + p - 1) ≤ 2 ^ k / s) :
    round p emin (s * round p emin (2 ^ k / s)) ≤ 2 ^ k := by
  have hq : 0 < 2 ^ k / s := div_pos (zpow_pos two_pos k) hs
  have herr := abs_round_sub_le_of_normal (x := 2 ^ k / s) (by rwa [abs_of_pos hq])
  rw [abs_of_pos hq] at herr
  refine round_le_two_zpow hp hk ?_
  calc s * round p emin (2 ^ k / s) ≤ s * (2 ^ k / s + 2 ^ k / s / 2 ^ p) :=
        mul_le_mul_of_nonneg_left (by linarith [(abs_le.mp herr).2]) hs.le
    _ = 2 ^ k * (1 + 1 / 2 ^ p) := by field_simp

end PowerOfTwo

end RoundToNearest

import AkV3Driver.Lib.BinaryFloat
import Mathlib.Order.Cover

/-!
# Where a monotone function of a float stays inside an interval

The numbers of a format that a monotone function takes into an open interval are those
from one number to another. Both ends are settled by two values of the function, at the
end itself and at its neighbour outside.
-/

open RoundToNearest

namespace BinaryFloat

variable {p : ℕ} {emin : ℤ} {a b : BinaryFloat p emin}

theorem covBy_of_mantissa {n e : ℤ} (hp : 0 < p)
    (hn : 2 ^ (p - 1) ≤ n ∨ n + 1 ≤ -2 ^ (p - 1)) (ha : a.val = n * 2 ^ e)
    (hb : b.val = (n + 1 : ℤ) * 2 ^ e) : a ⋖ b := by
  have hpos : (0 : ℚ) < 2 ^ e := zpow_pos two_pos e
  refine ⟨?_, fun c hac hcb => ?_⟩
  · rw [lt_iff, ha, hb]
    exact mul_lt_mul_of_pos_right (Int.cast_lt.mpr (lt_add_one n)) hpos
  · rw [lt_iff, ha] at hac
    rw [lt_iff, hb] at hcb
    have hlarge : (2 : ℚ) ^ (e + p - 1) ≤ |c.val| := by
      have hpow : (2 : ℚ) ^ (e + p - 1) = ((2 ^ (p - 1) : ℤ) : ℚ) * 2 ^ e := by
        have he : e + p - 1 = ((p - 1 : ℕ) : ℤ) + e := by omega
        rw [he, zpow_add₀ two_ne_zero, zpow_natCast]
        push_cast
        rfl
      rw [hpow]
      rcases hn with h | h
      · have hle := mul_le_mul_of_nonneg_right (Int.cast_le (R := ℚ).mpr h) hpos.le
        exact (hle.trans hac.le).trans (le_abs_self _)
      · have hle := mul_le_mul_of_nonneg_right (Int.cast_le (R := ℚ).mpr h) hpos.le
        rw [Int.cast_neg, neg_mul] at hle
        exact (le_neg_of_le_neg (hcb.le.trans hle)).trans (neg_le_abs _)
    obtain ⟨k, hk⟩ := c.representable.eq_mul_two_zpow hlarge
    rw [hk] at hac hcb
    have h1 : n < k := by exact_mod_cast lt_of_mul_lt_mul_right hac hpos.le
    have h2 : k < n + 1 := by exact_mod_cast lt_of_mul_lt_mul_right hcb hpos.le
    omega

variable {g : BinaryFloat p emin → ℚ} {x : BinaryFloat p emin} {c : ℚ}

theorem lt_iff_le_of_covBy (hg : Monotone g) (hab : a ⋖ b) (ha : g a < c) (hb : c ≤ g b) :
    g x < c ↔ x ≤ a := by
  constructor
  · intro h
    by_contra hx
    exact ((hb.trans (hg (hab.ge_of_gt (not_le.mp hx)))).trans_lt h).false
  · exact fun h => (hg h).trans_lt ha

theorem lt_iff_ge_of_covBy (hg : Monotone g) (hab : a ⋖ b) (ha : g a ≤ c) (hb : c < g b) :
    c < g x ↔ b ≤ x := by
  constructor
  · intro h
    by_contra hx
    exact (h.trans_le ((hg (hab.le_of_lt (not_le.mp hx))).trans ha)).false
  · exact fun h => hb.trans_le (hg h)

end BinaryFloat

/-- From `least` to `greatest`, in units of the place. -/
structure FloatRange where
  place : ℤ
  least : ℤ
  greatest : ℤ

namespace FloatRange

variable {p : ℕ} {emin : ℤ} (r : FloatRange)

def Holds (x : BinaryFloat p emin) : Prop :=
  r.least * 2 ^ r.place ≤ x.val ∧ x.val ≤ r.greatest * 2 ^ r.place

instance (x : BinaryFloat p emin) : Decidable (r.Holds x) := inferInstanceAs (Decidable (_ ∧ _))

/-- Both ends and their neighbours have full precision in the format. -/
def Full (p : ℕ) (emin : ℤ) : Prop :=
  emin ≤ r.place ∧ -2 ^ p < r.least - 1 ∧ r.least ≤ -2 ^ (p - 1) ∧ 2 ^ (p - 1) ≤ r.greatest ∧
    r.greatest + 1 < 2 ^ p

instance (p : ℕ) (emin : ℤ) : Decidable (r.Full p emin) := inferInstanceAs (Decidable (_ ∧ _))

variable [NeZero p]

def float (m : ℤ) : BinaryFloat p emin := .ofRat (m * 2 ^ r.place)

/-- What has to be computed of a function: its values at the ends and next to them. -/
def Settles (g : BinaryFloat p emin → ℚ) (lo hi : ℚ) : Prop :=
  g (r.float (r.least - 1)) ≤ lo ∧ lo < g (r.float r.least) ∧ g (r.float r.greatest) < hi ∧
    hi ≤ g (r.float (r.greatest + 1))

instance (g : BinaryFloat p emin → ℚ) (lo hi : ℚ) : Decidable (r.Settles g lo hi) :=
  inferInstanceAs (Decidable (_ ∧ _))

variable {r}

theorem val_float {m : ℤ} (hm : |m| < 2 ^ p) (he : emin ≤ r.place) :
    (r.float m : BinaryFloat p emin).val = m * 2 ^ r.place :=
  BinaryFloat.val_ofRat_of_representable ⟨m, r.place, hm, he, rfl⟩

theorem holds_iff {g : BinaryFloat p emin → ℚ} {lo hi : ℚ} (hg : Monotone g)
    (hfull : r.Full p emin) (h : r.Settles g lo hi) (x : BinaryFloat p emin) :
    lo < g x ∧ g x < hi ↔ r.Holds x := by
  obtain ⟨hplace, hlo, hleast, hgreatest, hhi⟩ := hfull
  obtain ⟨h1, h2, h3, h4⟩ := h
  have hp := NeZero.pos p
  have hhalf : (0 : ℤ) < 2 ^ (p - 1) := by positivity
  have hval {m : ℤ} (hm : -2 ^ p < m) (hm' : m < 2 ^ p) :
      (r.float m : BinaryFloat p emin).val = m * 2 ^ r.place :=
    val_float (abs_lt.mpr ⟨hm, hm'⟩) hplace
  have hvleast : (r.float r.least : BinaryFloat p emin).val = r.least * 2 ^ r.place :=
    hval (by omega) (by omega)
  have hvgreatest : (r.float r.greatest : BinaryFloat p emin).val = r.greatest * 2 ^ r.place :=
    hval (by omega) (by omega)
  have hbelow : (r.float (r.least - 1) : BinaryFloat p emin) ⋖ r.float r.least :=
    BinaryFloat.covBy_of_mantissa hp (.inr (by omega)) (hval hlo (by omega))
      (by rw [hvleast, sub_add_cancel])
  have habove : (r.float r.greatest : BinaryFloat p emin) ⋖ r.float (r.greatest + 1) :=
    BinaryFloat.covBy_of_mantissa hp (.inl hgreatest) hvgreatest (hval (by omega) hhi)
  rw [BinaryFloat.lt_iff_ge_of_covBy hg hbelow h1 h2, BinaryFloat.lt_iff_le_of_covBy hg habove h3 h4,
    BinaryFloat.le_iff, BinaryFloat.le_iff, hvleast, hvgreatest, Holds]

end FloatRange

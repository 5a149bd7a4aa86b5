import AkV3Driver.Lib.RoundToNearest
import Mathlib.Data.Rat.Floor
import Mathlib.Order.Basic

/-!
# Numbers of a binary format

The finite numbers of a format, with the rounded operations. Every operation yields a
number of the format again, so that an expression over them is computed as the machine
computes it, up to overflow.
-/

open RoundToNearest

structure BinaryFloat (p : ℕ) (emin : ℤ) where
  val : ℚ
  representable : Representable p emin val

namespace BinaryFloat

variable {p : ℕ} {emin : ℤ}

theorem val_injective : Function.Injective (val : BinaryFloat p emin → ℚ) := by
  rintro ⟨a, ha⟩ ⟨b, hb⟩ h
  obtain rfl : a = b := h
  rfl

instance : LinearOrder (BinaryFloat p emin) := LinearOrder.lift' val val_injective

theorem lt_iff {a b : BinaryFloat p emin} : a < b ↔ a.val < b.val := Iff.rfl

theorem le_iff {a b : BinaryFloat p emin} : a ≤ b ↔ a.val ≤ b.val := Iff.rfl

section Operations
variable [NeZero p]

def ofRat (x : ℚ) : BinaryFloat p emin := ⟨round p emin x, representable_round (NeZero.pos p) x⟩

instance : Sub (BinaryFloat p emin) := ⟨fun a b => ofRat (a.val - b.val)⟩
instance : Mul (BinaryFloat p emin) := ⟨fun a b => ofRat (a.val * b.val)⟩
instance : Div (BinaryFloat p emin) := ⟨fun a b => ofRat (a.val / b.val)⟩

@[simp] theorem val_ofRat (x : ℚ) : (ofRat x : BinaryFloat p emin).val = round p emin x := rfl

@[simp] theorem val_sub (a b : BinaryFloat p emin) :
    (a - b).val = round p emin (a.val - b.val) := rfl

@[simp] theorem val_mul (a b : BinaryFloat p emin) :
    (a * b).val = round p emin (a.val * b.val) := rfl

@[simp] theorem val_div (a b : BinaryFloat p emin) :
    (a / b).val = round p emin (a.val / b.val) := rfl

theorem val_ofRat_of_representable {x : ℚ} (h : Representable p emin x) :
    (ofRat x : BinaryFloat p emin).val = x := h.round_eq

theorem ofRat_mono {x y : ℚ} (h : x ≤ y) : (ofRat x : BinaryFloat p emin) ≤ ofRat y :=
  round_mono (NeZero.pos p) h

def toFormat {q : ℕ} {emin' : ℤ} (x : BinaryFloat q emin') : BinaryFloat p emin := ofRat x.val

theorem toFormat_mono {q : ℕ} {emin' : ℤ} {a b : BinaryFloat q emin'} (h : a ≤ b) :
    (a.toFormat : BinaryFloat p emin) ≤ b.toFormat := ofRat_mono h

theorem mul_mono {a b c : BinaryFloat p emin} (hc : 0 ≤ c.val) (h : a ≤ b) : a * c ≤ b * c :=
  ofRat_mono (mul_le_mul_of_nonneg_right h hc)

theorem div_mono {a b c : BinaryFloat p emin} (hc : 0 ≤ c.val) (h : a ≤ b) : a / c ≤ b / c :=
  ofRat_mono (div_le_div_of_nonneg_right h hc)

@[simp] theorem val_toFormat {q : ℕ} {emin' : ℤ} (x : BinaryFloat q emin') :
    (x.toFormat : BinaryFloat p emin).val = round p emin x.val := rfl

/-- To a wider format nothing is rounded. -/
theorem val_toFormat_of_le {q : ℕ} {emin' : ℤ} (x : BinaryFloat q emin') (hp : q ≤ p)
    (hemin : emin ≤ emin') : (x.toFormat : BinaryFloat p emin).val = x.val :=
  (x.representable.widen hp hemin).round_eq

theorem val_ofRat_intCast {n : ℤ} (hn : |n| < 2 ^ p) (hemin : emin ≤ 0) :
    (ofRat n : BinaryFloat p emin).val = n :=
  val_ofRat_of_representable (representable_intCast hn hemin)

end Operations

theorem val_max (a b : BinaryFloat p emin) : (max a b).val = max a.val b.val := by
  rcases le_total a b with h | h
  · rw [max_eq_right h, max_eq_right (le_iff.mp h)]
  · rw [max_eq_left h, max_eq_left (le_iff.mp h)]

theorem val_min (a b : BinaryFloat p emin) : (min a b).val = min a.val b.val := by
  rcases le_total a b with h | h
  · rw [min_eq_left h, min_eq_left (le_iff.mp h)]
  · rw [min_eq_right h, min_eq_right (le_iff.mp h)]

end BinaryFloat

instance neZero_single : NeZero 24 := ⟨by decide⟩
instance neZero_double : NeZero 53 := ⟨by decide⟩

abbrev Binary32 := BinaryFloat 24 (-149)
abbrev Binary64 := BinaryFloat 53 (-1074)

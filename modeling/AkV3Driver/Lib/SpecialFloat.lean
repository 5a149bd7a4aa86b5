import Mathlib.Algebra.Order.Field.Basic

/-!
# Floats with special values

An ordered field extended by the two infinities and NaN, with the IEEE rules for the
operations: a comparison with NaN is false, NaN is passed on, and an operation
without a limit is NaN. Finite operations are exact and there is one zero, which
counts as positive when it divides.
-/

inductive SpecialFloat (K : Type*)
  | nan
  | posInf
  | negInf
  | finite (x : K)

namespace SpecialFloat

variable {K : Type*}

section Order
variable [LinearOrder K]

def lt : SpecialFloat K → SpecialFloat K → Prop
  | finite x, finite y => x < y
  | finite _, posInf => True
  | negInf, finite _ => True
  | negInf, posInf => True
  | _, _ => False

instance : LT (SpecialFloat K) := ⟨lt⟩

instance : DecidableLT (SpecialFloat K) := fun a b => by
  change Decidable (lt a b)
  cases a <;> cases b <;> dsimp only [lt] <;> infer_instance

variable (x y : K) (a : SpecialFloat K)

@[simp] theorem finite_lt_finite : (finite x : SpecialFloat K) < finite y ↔ x < y := Iff.rfl
@[simp] theorem finite_lt_posInf : (finite x : SpecialFloat K) < posInf := trivial
@[simp] theorem negInf_lt_finite : (negInf : SpecialFloat K) < finite x := trivial
@[simp] theorem not_posInf_lt : ¬posInf < a := id
@[simp] theorem not_nan_lt : ¬nan < a := id
@[simp] theorem not_lt_nan : ¬a < nan := by cases a <;> exact id

end Order

section Difference
variable [Sub K]

def sub : SpecialFloat K → SpecialFloat K → SpecialFloat K
  | finite x, finite y => finite (x - y)
  | posInf, finite _ => posInf
  | posInf, negInf => posInf
  | finite _, negInf => posInf
  | negInf, finite _ => negInf
  | negInf, posInf => negInf
  | finite _, posInf => negInf
  | _, _ => nan

instance : Sub (SpecialFloat K) := ⟨sub⟩

@[simp] theorem finite_sub_finite (x y : K) :
    (finite x - finite y : SpecialFloat K) = finite (x - y) := rfl
@[simp] theorem nan_sub (a : SpecialFloat K) : nan - a = nan := rfl

end Difference

variable [Field K] [LinearOrder K]

def signedInf (x : K) : SpecialFloat K := if 0 < x then posInf else if x < 0 then negInf else nan

def mul : SpecialFloat K → SpecialFloat K → SpecialFloat K
  | finite x, finite y => finite (x * y)
  | finite x, posInf => signedInf x
  | posInf, finite y => signedInf y
  | finite x, negInf => signedInf (-x)
  | negInf, finite y => signedInf (-y)
  | posInf, posInf => posInf
  | negInf, negInf => posInf
  | posInf, negInf => negInf
  | negInf, posInf => negInf
  | _, _ => nan

def div : SpecialFloat K → SpecialFloat K → SpecialFloat K
  | finite x, finite y => if y = 0 then signedInf x else finite (x / y)
  | finite _, posInf => finite 0
  | finite _, negInf => finite 0
  | posInf, finite y => if y < 0 then negInf else posInf
  | negInf, finite y => if y < 0 then posInf else negInf
  | _, _ => nan

instance : Mul (SpecialFloat K) := ⟨mul⟩
instance : Div (SpecialFloat K) := ⟨div⟩

@[simp] theorem finite_mul_finite (x y : K) :
    (finite x * finite y : SpecialFloat K) = finite (x * y) := rfl
@[simp] theorem nan_mul (a : SpecialFloat K) : nan * a = nan := rfl
@[simp] theorem mul_nan (a : SpecialFloat K) : a * nan = nan := by cases a <;> rfl

theorem finite_div_finite (x : K) {y : K} (hy : y ≠ 0) :
    (finite x / finite y : SpecialFloat K) = finite (x / y) := if_neg hy

theorem signedInf_ne_nan {x : K} (hx : x ≠ 0) : signedInf x ≠ nan := by
  rcases hx.lt_or_gt with h | h
  · simp [signedInf, h, h.not_gt]
  · simp [signedInf, h]

/-- A nonzero factor neither makes nor removes a NaN. -/
theorem finite_mul_eq_nan_iff [IsStrictOrderedRing K] {x : K} (hx : x ≠ 0) (a : SpecialFloat K) :
    finite x * a = nan ↔ a = nan := by
  cases a with
  | nan => simp
  | posInf =>
    have h : finite x * posInf ≠ nan := signedInf_ne_nan hx
    simp [h]
  | negInf =>
    have h : finite x * negInf ≠ nan := signedInf_ne_nan (neg_ne_zero.mpr hx)
    simp [h]
  | finite y => simp

end SpecialFloat

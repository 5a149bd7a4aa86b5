import AkV3Driver.Lib.Truncation
import Mathlib.Data.Rat.Floor

/-!
# Conversions from float to the wire integers

Float values are exact rationals and every float operation is exact. Decimal
literals of the source stand for their decimal value. The conversion of a float to
an integer type discards the fraction; when the result does not fit the type the
language leaves the value open, so the conversions are a parameter of which only
the fitting results are known.
-/

namespace AkV3Driver
open Truncation (trunc)

def FitsInt32 (x : ℚ) : Prop := -2 ^ 31 ≤ trunc x ∧ trunc x < 2 ^ 31
def FitsInt16 (x : ℚ) : Prop := -2 ^ 15 ≤ trunc x ∧ trunc x < 2 ^ 15
def FitsUInt32 (x : ℚ) : Prop := 0 ≤ trunc x ∧ trunc x < 2 ^ 32

structure FloatCast where
  toInt32 : ℚ → Int32
  toInt16 : ℚ → Int16
  toUInt32 : ℚ → UInt32
  toInt32_toInt : ∀ x, FitsInt32 x → (toInt32 x).toInt = trunc x
  toInt16_toInt : ∀ x, FitsInt16 x → (toInt16 x).toInt = trunc x
  toUInt32_toNat : ∀ x, FitsUInt32 x → ((toUInt32 x).toNat : ℤ) = trunc x

/-- A machine that keeps the low bits of the truncated value. -/
def FloatCast.wrapping : FloatCast where
  toInt32 x := Int32.ofInt (trunc x)
  toInt16 x := Int16.ofInt (trunc x)
  toUInt32 x := UInt32.ofInt (trunc x)
  toInt32_toInt x h := Int32.toInt_ofInt_of_le h.1 h.2
  toInt16_toInt x h := Int16.toInt_ofInt_of_le h.1 h.2
  toUInt32_toNat x h := by
    obtain ⟨h0, h1⟩ := h
    simp [UInt32.ofInt]
    omega

theorem fitsInt32_iff {x : ℚ} : FitsInt32 x ↔ -2147483649 < x ∧ x < 2147483648 := by
  have h := Truncation.trunc_mem_iff (x := x) (m := 2 ^ 31) (n := 2 ^ 31) (by omega) (by omega)
  norm_num at h
  simpa [FitsInt32] using h

theorem fitsInt16_iff {x : ℚ} : FitsInt16 x ↔ -32769 < x ∧ x < 32768 := by
  have h := Truncation.trunc_mem_iff (x := x) (m := 2 ^ 15) (n := 2 ^ 15) (by omega) (by omega)
  norm_num at h
  simpa [FitsInt16] using h

theorem fitsInt32_of_abs_lt {x : ℚ} (h : |x| < 2 ^ 31) : FitsInt32 x := by
  obtain ⟨hlo, hhi⟩ := abs_lt.mp h
  exact fitsInt32_iff.mpr ⟨by linarith, by linarith⟩

theorem fitsInt16_of_abs_lt {x : ℚ} (h : |x| < 2 ^ 15) : FitsInt16 x := by
  obtain ⟨hlo, hhi⟩ := abs_lt.mp h
  exact fitsInt16_iff.mpr ⟨by linarith, by linarith⟩

namespace FloatCast
variable (conv : FloatCast)

theorem toInt32_intCast (v : Int32) : conv.toInt32 (v.toInt : ℚ) = v := by
  have hfits : FitsInt32 (v.toInt : ℚ) := by
    rw [FitsInt32, Truncation.trunc_intCast]
    exact ⟨v.le_toInt, v.toInt_lt⟩
  apply Int32.toInt_inj.mp
  rw [conv.toInt32_toInt _ hfits, Truncation.trunc_intCast]

theorem toInt16_intCast (v : Int16) : conv.toInt16 (v.toInt : ℚ) = v := by
  have hfits : FitsInt16 (v.toInt : ℚ) := by
    rw [FitsInt16, Truncation.trunc_intCast]
    exact ⟨v.le_toInt, v.toInt_lt⟩
  apply Int16.toInt_inj.mp
  rw [conv.toInt16_toInt _ hfits, Truncation.trunc_intCast]

end FloatCast

end AkV3Driver

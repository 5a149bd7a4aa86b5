import AkV3Driver.Protocol.ServoPackers

/-!
# What the servo fields carry

A servo field is a command in fixed-point units, truncated toward zero and written
big-endian. Reading it back gives the truncated value for every command that fits;
all that a user can expect of the motor's view of the command follows from that.
-/

namespace AkV3Driver.Protocol
open Truncation (trunc)

/-- The integer on the wire is the command in units of `1 / scale`, truncated, for
every command whose scaled value is below `limit`. -/
structure CarriesTruncated (limit scale : ℚ) (wire : ℚ → ℤ) : Prop where
  truncates : ∀ x, |x * scale| < limit → wire x = trunc (x * scale)
  magnitude : ∀ x, |x * scale| < limit → |(wire x : ℚ)| ≤ |x * scale|
  sign : ∀ x, |x * scale| < limit → 0 ≤ (wire x : ℚ) * x
  error : ∀ x, |x * scale| < limit → |x * scale - wire x| < 1
  monotone : ∀ x y, |x * scale| < limit → |y * scale| < limit → x ≤ y → wire x ≤ wire y

theorem carriesTruncated_of_exact {limit scale : ℚ} {wire : ℚ → ℤ} (hscale : 0 < scale)
    (h : ∀ x, |x * scale| < limit → wire x = trunc (x * scale)) :
    CarriesTruncated limit scale wire where
  truncates := h
  magnitude x hx := by
    rw [h x hx]
    exact Truncation.abs_trunc_le _
  sign x hx := by
    have hs := Truncation.trunc_mul_self_nonneg (x * scale)
    rw [← mul_assoc] at hs
    rw [h x hx]
    exact nonneg_of_mul_nonneg_left hs hscale
  error x hx := by
    rw [h x hx]
    exact Truncation.abs_sub_trunc_lt_one _
  monotone x y hx hy hxy := by
    rw [h x hx, h y hy]
    exact Truncation.trunc_mono (mul_le_mul_of_nonneg_right hxy hscale.le)

/-- Nothing is written at or beyond the end of the frame. -/
def ZeroPadded (frame : CanFrame) : Prop := ∀ i : Fin 8, frame.dlc.toNat ≤ i → frame.data i = 0

theorem zeroPadded_of_full {frame : CanFrame} (h : frame.dlc = 8) : ZeroPadded frame := by
  intro i hi
  have h8 : (8 : UInt8).toNat = 8 := rfl
  rw [h, h8] at hi
  omega

section Fields
variable (conv : FloatCast) (modeId canId : UInt8)

theorem packInt32_carries (scale : ℚ) (hscale : 0 < scale) :
    CarriesTruncated (2 ^ 31) scale fun x =>
      (getInt32 (packInt32 conv modeId canId (x * scale)).data 0).toInt := by
  apply carriesTruncated_of_exact hscale
  intro x hx
  rw [packInt32_wire]
  exact conv.toInt32_toInt _ (fitsInt32_of_abs_lt hx)

theorem tenth_carries :
    CarriesTruncated (2 ^ 15) (1 / 10) fun x => (conv.toInt16 (x / 10)).toInt := by
  apply carriesTruncated_of_exact (by norm_num)
  intro x hx
  rw [div_eq_mul_one_div]
  exact conv.toInt16_toInt _ (fitsInt16_of_abs_lt hx)

theorem appendInt32_zeroPadded (value : Int32) :
    ZeroPadded (makeFrame modeId canId (appendInt32 zeroPayload 0 value).1 4) := by
  intro i hi
  change 4 ≤ i.val at hi
  have h0 : i.val ≠ 0 := by omega
  have h1 : i.val ≠ 1 := by omega
  have h2 : i.val ≠ 2 := by omega
  have h3 : i.val ≠ 3 := by omega
  simp [makeFrame, appendInt32, Payload.write, zeroPayload, h0, h1, h2, h3]

theorem packInt32_zeroPadded (scaled : ℚ) : ZeroPadded (packInt32 conv modeId canId scaled) :=
  appendInt32_zeroPadded modeId canId _

theorem packPositionVelocity_zeroPadded (p s a : ℚ) :
    ZeroPadded (packPositionVelocity conv canId p s a) :=
  zeroPadded_of_full rfl

end Fields

theorem servo_fields_carry_truncated (conv : FloatCast) (canId : UInt8) :
    (CarriesTruncated (2 ^ 31) 100000 fun x => (getInt32 (packDuty conv canId x).data 0).toInt) ∧
    (CarriesTruncated (2 ^ 31) 1000 fun x => (getInt32 (packCurrent conv canId x).data 0).toInt) ∧
    (CarriesTruncated (2 ^ 31) 1000 fun x =>
      (getInt32 (packCurrentBrake conv canId x).data 0).toInt) ∧
    (CarriesTruncated (2 ^ 31) 1 fun x =>
      (getInt32 (packVelocityErpm conv canId x).data 0).toInt) ∧
    (CarriesTruncated (2 ^ 31) 10000 fun x =>
      (getInt32 (packPositionDeg conv canId x).data 0).toInt) ∧
    (∀ s a, CarriesTruncated (2 ^ 31) 10000 fun x =>
      (getInt32 (packPositionVelocity conv canId x s a).data 0).toInt) ∧
    (∀ p a, CarriesTruncated (2 ^ 15) (1 / 10) fun x =>
      (getInt16 (packPositionVelocity conv canId p x a).data 4).toInt) ∧
    (∀ p s, CarriesTruncated (2 ^ 15) (1 / 10) fun x =>
      (getInt16 (packPositionVelocity conv canId p s x).data 6).toInt) ∧
    ∀ p s a, ZeroPadded (packDuty conv canId p) ∧ ZeroPadded (packCurrent conv canId p) ∧
      ZeroPadded (packCurrentBrake conv canId p) ∧ ZeroPadded (packVelocityErpm conv canId p) ∧
      ZeroPadded (packPositionDeg conv canId p) ∧
      ZeroPadded (packPositionVelocity conv canId p s a) := by
  have hvel := packInt32_carries conv modeVelocity canId 1 one_pos
  simp only [mul_one] at hvel
  refine ⟨packInt32_carries conv modeDuty canId _ (by norm_num),
    packInt32_carries conv modeCurrent canId _ (by norm_num),
    packInt32_carries conv modeCurrentBrake canId _ (by norm_num), hvel,
    packInt32_carries conv modePosition canId _ (by norm_num), ?_, ?_, ?_, ?_⟩
  · intro s a
    simpa only [packPositionVelocity_position, packInt32_wire] using
      packInt32_carries conv modePosition canId 10000 (by norm_num)
  · intro p a
    simpa only [packPositionVelocity_speed] using tenth_carries conv
  · intro p s
    simpa only [packPositionVelocity_accel] using tenth_carries conv
  · intro p s a
    refine ⟨?_, ?_, ?_, ?_, ?_, packPositionVelocity_zeroPadded conv canId p s a⟩ <;>
      apply packInt32_zeroPadded

end AkV3Driver.Protocol

import AkV3Driver.Lib.SpecialFloat
import AkV3Driver.Node.Driver

/-!
# Special values in an MIT command

The clamp of the quantizer is a pair of comparisons. An infinity is moved to the end
of the range like any other value outside it, but a NaN compares false and passes
both comparisons, so it reaches the conversion to an integer.
-/

namespace AkV3Driver
open Protocol
open SpecialFloat (nan posInf negInf finite)

structure MitCommand (F : Type*) where
  position : F
  mitVelocity : F
  kp : F
  kd : F
  mitTorque : F

namespace MitCommand
variable {F G : Type*}

def get (msg : MitCommand F) : MitField → F
  | .kp => msg.kp
  | .kd => msg.kd
  | .position => msg.position
  | .velocity => msg.mitVelocity
  | .torque => msg.mitTorque

def map (g : F → G) (msg : MitCommand F) : MitCommand G :=
  ⟨g msg.position, g msg.mitVelocity, g msg.kp, g msg.kd, g msg.mitTorque⟩

end MitCommand

def MotorCommand.mit (msg : MotorCommand) : MitCommand ℚ :=
  ⟨msg.position, msg.mitVelocity, msg.kp, msg.kd, msg.mitTorque⟩

section Arguments
variable {F : Type*} [LT F] [DecidableLT F] [Sub F] [Mul F] [Div F] (lit : ℚ → F)

/-- What an MIT command hands to each conversion; `lit` reads a constant as a float. -/
def mitCastArg (cfg : NodeConfig) (msg : MitCommand F) : MitField → F
  | .position => floatToUintArg (lit cfg.sign * msg.position) (lit mitPositionMinRad)
      (lit mitPositionMaxRad) (lit (2 ^ 16 : ℕ))
  | .velocity => floatToUintArg (lit cfg.sign * msg.mitVelocity)
      (lit cfg.mitLimits.velocityMinRadS) (lit cfg.mitLimits.velocityMaxRadS) (lit (2 ^ 12 : ℕ))
  | .kp => floatToUintArg msg.kp (lit mitKpMin) (lit mitKpMax) (lit (2 ^ 12 : ℕ))
  | .kd => floatToUintArg msg.kd (lit mitKdMin) (lit mitKdMax) (lit (2 ^ 12 : ℕ))
  | .torque => floatToUintArg (lit cfg.sign * msg.mitTorque) (lit cfg.mitLimits.torqueMinNm)
      (lit cfg.mitLimits.torqueMaxNm) (lit (2 ^ 12 : ℕ))

end Arguments

theorem commandFrame_mit (conv : FloatCast) (cfg : NodeConfig) (msg : MotorCommand) :
    commandFrame conv cfg .mit msg =
      makeFrame modeMit cfg.canId (mitPayload (conv.toUInt32 (mitCastArg id cfg msg.mit .kp))
        (conv.toUInt32 (mitCastArg id cfg msg.mit .kd))
        (conv.toUInt32 (mitCastArg id cfg msg.mit .position))
        (conv.toUInt32 (mitCastArg id cfg msg.mit .velocity))
        (conv.toUInt32 (mitCastArg id cfg msg.mit .torque))) 8 := rfl

section Clamp
variable {lo hi : ℚ} (n : ℕ)

theorem floatToUintArg_nan (lo hi codes : SpecialFloat ℚ) :
    floatToUintArg nan lo hi codes = nan := by
  simp [floatToUintArg, stdMax, stdMin]

theorem floatToUintArg_finite (h : lo < hi) (x : ℚ) :
    floatToUintArg (finite x) (finite lo) (finite hi) (finite (n : ℚ)) =
      finite (floatToUintArg x lo hi (n : ℚ)) := by
  have hne : hi - lo ≠ 0 := (sub_pos.mpr h).ne'
  have hmax : stdMax (finite x) (finite lo) = finite (stdMax x lo) := by
    simp only [stdMax, SpecialFloat.finite_lt_finite, apply_ite finite]
  have hmin (a : ℚ) : stdMin (finite a) (finite hi) = finite (stdMin a hi) := by
    simp only [stdMin, SpecialFloat.finite_lt_finite, apply_ite finite]
  simp only [floatToUintArg, hmax, hmin, SpecialFloat.finite_sub_finite,
    SpecialFloat.finite_div_finite _ hne, SpecialFloat.finite_mul_finite]

theorem floatToUintArg_posInf (h : lo < hi) (codes : SpecialFloat ℚ) :
    floatToUintArg posInf (finite lo) (finite hi) codes =
      floatToUintArg (finite hi) (finite lo) (finite hi) codes := by
  simp [floatToUintArg, stdMax, stdMin, h.not_gt]

theorem floatToUintArg_negInf (h : lo < hi) (codes : SpecialFloat ℚ) :
    floatToUintArg negInf (finite lo) (finite hi) codes =
      floatToUintArg (finite lo) (finite lo) (finite hi) codes := by
  simp [floatToUintArg, stdMax, stdMin, h.not_gt]

theorem floatToUintArg_of_ne_nan (h : lo < hi) {a : SpecialFloat ℚ} (ha : a ≠ nan) :
    ∃ x : ℚ, floatToUintArg a (finite lo) (finite hi) (finite (n : ℚ)) =
      finite (floatToUintArg x lo hi (n : ℚ)) := by
  cases a with
  | nan => exact absurd rfl ha
  | posInf => exact ⟨hi, by rw [floatToUintArg_posInf h, floatToUintArg_finite n h]⟩
  | negInf => exact ⟨lo, by rw [floatToUintArg_negInf h, floatToUintArg_finite n h]⟩
  | finite x => exact ⟨x, floatToUintArg_finite n h x⟩

/-- A value that the conversion to an unsigned integer of `n` codes is defined on. -/
def InCodeRange (a : SpecialFloat ℚ) : Prop := ∃ q : ℚ, a = finite q ∧ 0 ≤ q ∧ q ≤ n

theorem floatToUintArg_inCodeRange_iff (h : lo < hi) (a : SpecialFloat ℚ) :
    InCodeRange n (floatToUintArg a (finite lo) (finite hi) (finite (n : ℚ))) ↔ a ≠ nan := by
  constructor
  · rintro ⟨q, hq, -⟩ rfl
    rw [floatToUintArg_nan] at hq
    cases hq
  · intro ha
    obtain ⟨x, hx⟩ := floatToUintArg_of_ne_nan n h ha
    refine ⟨_, hx, ?_⟩
    rw [floatToUintArg_eq_level]
    exact ⟨UniformQuantizer.level_nonneg h, UniformQuantizer.level_le h⟩

end Clamp

section Fields
variable (cfg : NodeConfig)

/-- All five conversions follow one pattern; the direction does not affect NaN. -/
theorem mitCastArg_eq (msg : MitCommand (SpecialFloat ℚ)) (f : MitField) :
    ∃ a, mitCastArg finite cfg msg f = floatToUintArg a (finite (f.min cfg.mitLimits))
        (finite (f.max cfg.mitLimits)) (finite ((2 ^ f.width : ℕ) : ℚ)) ∧
      (a = nan ↔ msg.get f = nan) := by
  have hsign : cfg.sign ≠ 0 := by rcases cfg.sign_cases with h | h <;> simp [h]
  cases f with
  | kp => exact ⟨msg.kp, rfl, Iff.rfl⟩
  | kd => exact ⟨msg.kd, rfl, Iff.rfl⟩
  | position => exact ⟨_, rfl, SpecialFloat.finite_mul_eq_nan_iff hsign _⟩
  | velocity => exact ⟨_, rfl, SpecialFloat.finite_mul_eq_nan_iff hsign _⟩
  | torque => exact ⟨_, rfl, SpecialFloat.finite_mul_eq_nan_iff hsign _⟩

theorem mitCastArg_finite (hl : cfg.mitLimits.Valid) (msg : MitCommand ℚ) (f : MitField) :
    mitCastArg finite cfg (msg.map finite) f = finite (mitCastArg id cfg msg f) := by
  have hlt := f.min_lt_max hl
  cases f <;> exact floatToUintArg_finite _ hlt _

end Fields

theorem mit_casts_defined_iff (cfg : NodeConfig) (motorType : String)
    (hspec : lookupMotorModel motorType = some cfg.motorSpec)
    (msg : MitCommand (SpecialFloat ℚ)) :
    (∀ f : MitField, InCodeRange (2 ^ f.width) (mitCastArg finite cfg msg f)) ↔
      ∀ f, msg.get f ≠ nan := by
  refine forall_congr' fun f => ?_
  have hl := cfg.mitLimits_valid (lookupMotorModel_wellFormed hspec)
  obtain ⟨a, hfield, ha⟩ := mitCastArg_eq cfg msg f
  rw [hfield, floatToUintArg_inCodeRange_iff _ (f.min_lt_max hl), ne_eq, ha]

theorem mit_casts_defined_at_infinities :
    InCodeRange (2 ^ 16) (mitCastArg finite (ak80Node true)
      ⟨posInf, negInf, posInf, negInf, finite 100⟩ .position) :=
  (mit_casts_defined_iff (ak80Node true) "AK80-9" rfl
    ⟨posInf, negInf, posInf, negInf, finite 100⟩).mpr
    (by intro f; cases f <;> simp [MitCommand.get]) .position

theorem mit_nan_reaches_cast :
    ¬∀ (cfg : NodeConfig) (motorType : String), lookupMotorModel motorType = some cfg.motorSpec →
      ∀ (msg : MitCommand (SpecialFloat ℚ)) (f : MitField),
        InCodeRange (2 ^ f.width) (mitCastArg finite cfg msg f) := by
  intro h
  obtain ⟨q, hq, -⟩ := h (ak80Node false) "AK80-9" rfl
    ⟨nan, finite 0, finite 0, finite 0, finite 0⟩ .position
  rw [mitCastArg, SpecialFloat.mul_nan, floatToUintArg_nan] at hq
  cases hq

end AkV3Driver

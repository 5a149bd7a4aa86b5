import AkV3Driver.Node.DriverBinary32
import AkV3Driver.Node.FrameTransfer
import AkV3Driver.Node.WireInts

/-!
# Commands in machine arithmetic against exact ones

For a command of doubles the machine sends the frame of the exact command, up to the
numbers in it. A servo field is off by five units of single precision and one integer
of truncation, and its cast is defined up to a millionth below the limit of its type;
an MIT code is off by one.
-/

namespace AkV3Driver
open RoundToNearest
open RoundingError (Near)
open Protocol
open Truncation (trunc)

/-- Integers of the type have magnitude below it. -/
def WireInt.limit : WireInt → ℚ
  | .int32 _ => 2 ^ 31
  | .int16 _ => 2 ^ 15

namespace Binary32
open Protocol.Binary32 (fieldUint exactLevel fieldLevel)

def wireInts (cfg : NodeConfig) (msg : MotorCommand) : CommandMode → List WireInt
  | .duty => [.int32 (sign cfg * msg.duty.toFormat * .ofRat 100000 : Binary32).val]
  | .current => [.int32 (sign cfg * msg.current.toFormat * .ofRat 1000 : Binary32).val]
  | .currentBrake => [.int32 (msg.current.toFormat * .ofRat 1000 : Binary32).val]
  | .velocity => [.int32 (radPerSecToErpm cfg (sign cfg * msg.velocity.toFormat)).val]
  | .position =>
    [.int32 (radToDeg (sign cfg * msg.position.toFormat) * .ofRat 10000 : Binary32).val]
  | .positionVelocity =>
    [.int32 (radToDeg (sign cfg * msg.position.toFormat) * .ofRat 10000 : Binary32).val,
      .int16 (radPerSecToErpm cfg (sign cfg * msg.velocity.toFormat) / .ofRat 10 : Binary32).val,
      .int16 (radPerSecToErpm cfg (sign cfg * msg.acceleration.toFormat) /
        .ofRat 10 : Binary32).val]
  | .mit => []

def mitInput (cfg : NodeConfig) (msg : MotorCommand) : MitField → Binary32
  | .kp => msg.kp.toFormat
  | .kd => msg.kd.toFormat
  | .position => sign cfg * msg.position.toFormat
  | .velocity => sign cfg * msg.mitVelocity.toFormat
  | .torque => sign cfg * msg.mitTorque.toFormat

def mitCode (conv : FloatCast) (cfg : NodeConfig) (msg : MotorCommand) (f : MitField) : UInt32 :=
  fieldUint conv cfg.mitLimits f (mitInput cfg msg f)

/-- The same conversion in both arithmetics. -/
inductive Close : WireInt → WireInt → Prop
  | int32 {x y : ℚ} (h : Near (5 / 2 ^ 24) (2 ^ (-100 : ℤ)) x y) : Close (.int32 x) (.int32 y)
  | int16 {x y : ℚ} (h : Near (5 / 2 ^ 24) (2 ^ (-100 : ℤ)) x y) : Close (.int16 x) (.int16 y)

/-- What a listener can tell of a machine's integer: away from the limit it is the exact
one up to rounding and truncation. -/
def SentNear (conv : FloatCast) (w w' : WireInt) : Prop :=
  |w'.arg| ≤ (1 - 1 / 2 ^ 20) * w'.limit →
    w.Fits ∧ |(w.sent conv : ℚ) - trunc w'.arg| ≤ 5 / 2 ^ 24 * |w'.arg| + 2 ^ (-100 : ℤ) + 1

section Servo
variable (conv : FloatCast) {cfg : NodeConfig} (msg : MotorCommand) (mode : CommandMode)
  {x : Binary32} {y u : ℚ}

theorem Close.sentNear {w w' : WireInt} (h : Close w w') : SentNear conv w w' := by
  intro hlimit
  have htiny : (2 : ℚ) ^ (-100 : ℤ) ≤ 1 / 2 ^ 10 := by norm_num
  cases h with
  | @int32 x y h =>
    have hlt : (WireInt.int32 x).Fits := by
      refine fitsInt32_of_abs_lt (h.abs_le.trans_lt ?_)
      simp only [WireInt.arg, WireInt.limit] at hlimit
      norm_num at hlimit ⊢
      linarith
    rw [WireInt.sent_of_fits conv hlt]
    exact ⟨hlt, h.trunc⟩
  | @int16 x y h =>
    have hlt : (WireInt.int16 x).Fits := by
      refine fitsInt16_of_abs_lt (h.abs_le.trans_lt ?_)
      simp only [WireInt.arg, WireInt.limit] at hlimit
      norm_num at hlimit ⊢
      linarith
    rw [WireInt.sent_of_fits conv hlt]
    exact ⟨hlt, h.trunc⟩

theorem signed_near (x : Binary64) :
    Near (1 / 2 ^ 24) (2 ^ (-149 : ℤ)) (sign cfg * x.toFormat).val (cfg.sign * x.val) :=
  sign_mul_near (toSingle_near x)

/-- A product with a constant of the format, the last step before a cast. -/
theorem scaled_near (h : Near u (2 ^ (-140 : ℤ)) x.val y) (hu : u ≤ 3 / 2 ^ 24 + 1 / 2 ^ 40)
    {c : ℚ} (hc : (.ofRat c : Binary32).val = c) (hle : |c| ≤ 2 ^ 17) :
    Near (5 / 2 ^ 24) (2 ^ (-100 : ℤ)) (x * .ofRat c).val (y * c) := by
  have hmul := ((h.mono hu le_rfl).mul (by positivity) hle).round 24 (-149)
  rw [BinaryFloat.val_mul, hc]
  exact hmul.mono (by norm_num) (by norm_num)

theorem tenth_near (h : Near (2 / 2 ^ 24 + 1 / 2 ^ 40) (2 ^ (-120 : ℤ)) x.val y) :
    Near (5 / 2 ^ 24) (2 ^ (-100 : ℤ)) (x / .ofRat 10).val (y / 10) := by
  have hdiv := (h.div (C := 1) (c := 10) (by positivity) (by norm_num)).round 24 (-149)
  rw [BinaryFloat.val_div, Protocol.Binary32.val_ten]
  exact hdiv.mono (by norm_num) (by norm_num)

theorem wireInts_close (hg : Geared cfg.motorSpec) :
    List.Forall₂ Close (wireInts cfg msg mode) (AkV3Driver.wireInts cfg msg.exact mode) := by
  have hfull : (2 : ℚ) ^ (-149 : ℤ) ≤ 2 ^ (-140 : ℤ) := by norm_num
  have hscaled {c : ℚ} (x : Binary64) (hc : (.ofRat c : Binary32).val = c) (hle : |c| ≤ 2 ^ 17) :
      Near (5 / 2 ^ 24) (2 ^ (-100 : ℤ)) (sign cfg * x.toFormat * .ofRat c : Binary32).val
        (cfg.sign * x.val * c) :=
    scaled_near ((signed_near x).mono le_rfl hfull) (by norm_num) hc hle
  have hposition : Near (5 / 2 ^ 24) (2 ^ (-100 : ℤ))
      (radToDeg (sign cfg * msg.position.toFormat) * .ofRat 10000 : Binary32).val
      (AkV3Driver.radToDeg (cfg.sign * msg.position.val) * 10000) :=
    scaled_near (radToDeg_near (signed_near msg.position)) le_rfl (by decide +kernel) (by norm_num)
  have hspeed (x : Binary64) : Near (2 / 2 ^ 24 + 1 / 2 ^ 40) (2 ^ (-120 : ℤ))
      (radPerSecToErpm cfg (sign cfg * x.toFormat)).val (cfg.radPerSecToErpm (cfg.sign * x.val)) :=
    radPerSecToErpm_near hg (signed_near x)
  cases mode with
  | duty => exact .cons (.int32 (hscaled msg.duty (by decide +kernel) (by norm_num))) .nil
  | current => exact .cons (.int32 (hscaled msg.current (by decide +kernel) (by norm_num))) .nil
  | currentBrake =>
    have hbrake : Near (5 / 2 ^ 24) (2 ^ (-100 : ℤ))
        (msg.current.toFormat * .ofRat 1000 : Binary32).val (msg.current.val * 1000) :=
      scaled_near ((toSingle_near msg.current).mono le_rfl hfull) (by norm_num) (by decide +kernel)
        (by norm_num)
    exact .cons (.int32 hbrake) .nil
  | velocity =>
    exact .cons (.int32 ((hspeed msg.velocity).mono (by norm_num) (by norm_num))) .nil
  | position => exact .cons (.int32 hposition) .nil
  | positionVelocity =>
    have hvelocity := tenth_near (hspeed msg.velocity)
    have hacceleration := tenth_near (hspeed msg.acceleration)
    exact .cons (.int32 hposition) (.cons (.int16 hvelocity) (.cons (.int16 hacceleration) .nil))
  | mit => exact .nil

theorem sentInts_eq :
    sentInts (commandFrame conv cfg mode msg) mode =
      (wireInts cfg msg mode).map (WireInt.sent conv) := by
  cases mode with
  | mit => rfl
  | positionVelocity =>
    have h4 : (10000 : ℚ) ≠ 0 := by norm_num
    have h1 : (10 : ℚ) ≠ 0 := by norm_num
    simp only [sentInts, commandFrame, Protocol.Binary32.packPositionVelocity_eq,
      packPositionVelocity_position, packPositionVelocity_speed, packPositionVelocity_accel,
      div_mul_cancel₀ _ h4, mul_div_cancel_right₀ _ h1]
    rfl
  | _ => exact congrArg (fun v => [Int32.toInt v]) (packInt32_wire conv _ _ _)

end Servo

section Mit
variable {motorType : String} {spec : MotorModelSpec} (f : MitField)

theorem range_wide (hspec : lookupMotorModel motorType = some spec) :
    f.min spec.mitLimits ≤ 0 ∧ 0 ≤ f.max spec.mitLimits ∧
      1 ≤ f.max spec.mitLimits - f.min spec.mitLimits := by
  have table : ∀ entry ∈ kMotorTable, ∀ f ∈ [MitField.kp, .kd, .position, .velocity, .torque],
      f.min entry.2.mitLimits ≤ 0 ∧ 0 ≤ f.max entry.2.mitLimits ∧
        1 ≤ f.max entry.2.mitLimits - f.min entry.2.mitLimits := by
    decide +kernel
  have hmem : f ∈ [MitField.kp, .kd, .position, .velocity, .torque] := by cases f <;> decide
  exact table _ (lookupMotorModel_mem hspec) f hmem

theorem exactLevel_round_near (hspec : lookupMotorModel motorType = some spec) (z : ℚ) :
    |exactLevel spec.mitLimits f (round 24 (-149) z) - exactLevel spec.mitLimits f z| ≤
      1 / 2 ^ 7 := by
  obtain ⟨hlo, hhi, hwide⟩ := range_wide f hspec
  have hlt : f.min spec.mitLimits < f.max spec.mitLimits := by linarith
  have hsmall : ∀ c, f.min spec.mitLimits ≤ c → c ≤ f.max spec.mitLimits →
      |round 24 (-149) c - c| ≤
        (f.max spec.mitLimits - f.min spec.mitLimits) * (1 / 2 ^ 23) := by
    intro c hc hc'
    have habs : |c| ≤ f.max spec.mitLimits - f.min spec.mitLimits :=
      abs_le.mpr ⟨by linarith, by linarith⟩
    have hround := abs_round_sub_le_add 24 (-149) c
    have htiny : (2 : ℚ) ^ (-149 - 1 : ℤ) ≤ 1 / 2 ^ 24 := by norm_num
    rw [div_eq_mul_one_div] at hround
    norm_num at hround htiny ⊢
    linarith
  have hlevel := UniformQuantizer.abs_level_map_sub_le (n := 2 ^ f.width)
    (fun _ _ h => round_mono (by norm_num) h) hlt hsmall z
  have hwidth : ((2 ^ f.width : ℕ) : ℚ) ≤ 2 ^ 16 := by cases f <;> norm_num [MitField.width]
  have hpos : 0 < f.max spec.mitLimits - f.min spec.mitLimits := by linarith
  refine hlevel.trans ?_
  calc (f.max spec.mitLimits - f.min spec.mitLimits) * (1 / 2 ^ 23) *
        (((2 ^ f.width : ℕ) : ℚ) / (f.max spec.mitLimits - f.min spec.mitLimits))
      = ((2 ^ f.width : ℕ) : ℚ) * (1 / 2 ^ 23) := by field_simp
    _ ≤ 2 ^ 16 * (1 / 2 ^ 23) := mul_le_mul_of_nonneg_right hwidth (by norm_num)
    _ = 1 / 2 ^ 7 := by norm_num

theorem mit_code_near (conv : FloatCast) (hspec : lookupMotorModel motorType = some spec)
    {x : Binary32} {z : ℚ} (hx : x.val = round 24 (-149) z) :
    |((fieldUint conv spec.mitLimits f x).toNat : ℤ) -
      (Protocol.floatToUint conv z (f.min spec.mitLimits) (f.max spec.mitLimits)
        f.width).toNat| ≤ 1 := by
  have hmachine := Protocol.Binary32.abs_fieldLevel_sub_le f x hspec
  have hsingle := exactLevel_round_near f hspec z
  rw [← hx] at hsingle
  have htri := abs_sub_le (fieldLevel spec.mitLimits f x.val)
    (exactLevel spec.mitLimits f x.val) (exactLevel spec.mitLimits f z)
  rw [Protocol.Binary32.fieldUint_toNat conv hspec, Protocol.Binary32.exact_toNat conv f hspec]
  refine Protocol.Binary32.abs_floor_sub_le (htri.trans_lt ?_)
  norm_num at hmachine hsingle ⊢
  linarith

theorem mitInput_round (cfg : NodeConfig) (msg : MotorCommand) :
    (mitInput cfg msg f).val = round 24 (-149) ((mitInputs cfg msg.exact).get f) := by
  have hsigned (x : Binary64) : (sign cfg * x.toFormat).val =
      round 24 (-149) (cfg.sign * x.val) := by
    rw [val_sign_mul, BinaryFloat.val_toFormat]
    rcases cfg.sign_cases with h | h <;> simp [h]
  cases f with
  | kp => rfl
  | kd => rfl
  | position => exact hsigned msg.position
  | velocity => exact hsigned msg.mitVelocity
  | torque => exact hsigned msg.mitTorque

end Mit

theorem commandFrame_header (conv : FloatCast) (cfg : NodeConfig) (mode : CommandMode)
    (msg : MotorCommand) :
    ∃ modeId dlc : UInt8,
      ((commandFrame conv cfg mode msg).id = buildCanId modeId cfg.canId ∧
        (commandFrame conv cfg mode msg).dlc = dlc) ∧
      (AkV3Driver.commandFrame conv cfg mode msg.exact).id = buildCanId modeId cfg.canId ∧
        (AkV3Driver.commandFrame conv cfg mode msg.exact).dlc = dlc := by
  cases mode with
  | duty => exact ⟨modeDuty, 4, ⟨rfl, rfl⟩, rfl, rfl⟩
  | current => exact ⟨modeCurrent, 4, ⟨rfl, rfl⟩, rfl, rfl⟩
  | currentBrake => exact ⟨modeCurrentBrake, 4, ⟨rfl, rfl⟩, rfl, rfl⟩
  | velocity => exact ⟨modeVelocity, 4, ⟨rfl, rfl⟩, rfl, rfl⟩
  | position => exact ⟨modePosition, 4, ⟨rfl, rfl⟩, rfl, rfl⟩
  | positionVelocity => exact ⟨modePositionVelocity, 8, ⟨rfl, rfl⟩, rfl, rfl⟩
  | mit => exact ⟨modeMit, 8, ⟨rfl, rfl⟩, rfl, rfl⟩

/-- Every command of doubles is sent as the exact command, up to the numbers in the frame. -/
theorem command_rounding (conv : FloatCast) (cfg : NodeConfig) (motorType : String)
    (hspec : lookupMotorModel motorType = some cfg.motorSpec) (mode : CommandMode)
    (msg : MotorCommand) :
    (commandFrame conv cfg mode msg).id = (AkV3Driver.commandFrame conv cfg mode msg.exact).id ∧
    (commandFrame conv cfg mode msg).dlc = (AkV3Driver.commandFrame conv cfg mode msg.exact).dlc ∧
    sentInts (commandFrame conv cfg mode msg) mode =
      (wireInts cfg msg mode).map (WireInt.sent conv) ∧
    List.Forall₂ (SentNear conv) (wireInts cfg msg mode)
      (AkV3Driver.wireInts cfg msg.exact mode) ∧
    (mode = .mit →
      commandFrame conv cfg mode msg = mitFrameOf cfg.canId (mitCode conv cfg msg) ∧
      AkV3Driver.commandFrame conv cfg mode msg.exact =
        mitFrameOf cfg.canId (AkV3Driver.mitCode conv cfg msg.exact) ∧
      ∀ f, |((mitCode conv cfg msg f).toNat : ℤ) -
        (AkV3Driver.mitCode conv cfg msg.exact f).toNat| ≤ 1) := by
  obtain ⟨modeId, dlc, ⟨hid, hdlc⟩, hid', hdlc'⟩ := commandFrame_header conv cfg mode msg
  refine ⟨hid.trans hid'.symm, hdlc.trans hdlc'.symm, sentInts_eq conv msg mode, ?_, ?_⟩
  · exact (wireInts_close msg mode (lookupMotorModel_geared hspec)).imp
      fun _ _ h => h.sentNear conv
  · rintro rfl
    exact ⟨rfl, rfl, fun f => mit_code_near f conv hspec (mitInput_round f cfg msg)⟩

def zeroCommand (mode : UInt8) : MotorCommand :=
  ⟨mode, .ofRat 0, .ofRat 0, .ofRat 0, .ofRat 0, .ofRat 0, .ofRat 0, .ofRat 0, .ofRat 0, .ofRat 0⟩

theorem command_rounding_duty :
    List.Forall₂ (SentNear .wrapping)
      (wireInts (ak80Node true) { zeroCommand 0 with duty := .ofRat 0.3 } .duty)
      (AkV3Driver.wireInts (ak80Node true)
        { zeroCommand 0 with duty := .ofRat 0.3 : MotorCommand }.exact .duty) :=
  (command_rounding .wrapping (ak80Node true) "AK80-9" rfl .duty
    { zeroCommand 0 with duty := .ofRat 0.3 }).2.2.2.1

end Binary32

end AkV3Driver

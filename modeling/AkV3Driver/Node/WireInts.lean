import AkV3Driver.Node.Driver

/-!
# The integers of a servo command

A servo frame is made of integers, one conversion for each. What goes into the
conversions is listed per mode, and so is what a listener reads back from the frame.
-/

namespace AkV3Driver
open Protocol
open Truncation (trunc)

inductive WireInt
  | int32 (arg : ℚ)
  | int16 (arg : ℚ)

namespace WireInt

def arg : WireInt → ℚ
  | int32 x => x
  | int16 x => x

def Fits : WireInt → Prop
  | int32 x => FitsInt32 x
  | int16 x => FitsInt16 x

def sent (conv : FloatCast) : WireInt → ℤ
  | int32 x => (conv.toInt32 x).toInt
  | int16 x => (conv.toInt16 x).toInt

theorem sent_of_fits (conv : FloatCast) {w : WireInt} (h : w.Fits) : w.sent conv = trunc w.arg := by
  cases w with
  | int32 x => exact conv.toInt32_toInt x h
  | int16 x => exact conv.toInt16_toInt x h

end WireInt

def wireInts (cfg : NodeConfig) (msg : MotorCommand) : CommandMode → List WireInt
  | .duty => [.int32 (cfg.sign * msg.duty * 100000)]
  | .current => [.int32 (cfg.sign * msg.current * 1000)]
  | .currentBrake => [.int32 (msg.current * 1000)]
  | .velocity => [.int32 (cfg.radPerSecToErpm (cfg.sign * msg.velocity))]
  | .position => [.int32 (radToDeg (cfg.sign * msg.position) * 10000)]
  | .positionVelocity =>
    [.int32 (radToDeg (cfg.sign * msg.position) * 10000),
      .int16 (cfg.radPerSecToErpm (cfg.sign * msg.velocity) / 10),
      .int16 (cfg.radPerSecToErpm (cfg.sign * msg.acceleration) / 10)]
  | .mit => []

def sentInts (frame : CanFrame) : CommandMode → List ℤ
  | .positionVelocity =>
    [(getInt32 frame.data 0).toInt, (getInt16 frame.data 4).toInt, (getInt16 frame.data 6).toInt]
  | .mit => []
  | _ => [(getInt32 frame.data 0).toInt]

theorem sentInts_eq (conv : FloatCast) (cfg : NodeConfig) (msg : MotorCommand)
    (mode : CommandMode) :
    sentInts (commandFrame conv cfg mode msg) mode =
      (wireInts cfg msg mode).map (WireInt.sent conv) := by
  cases mode with
  | mit => rfl
  | positionVelocity =>
    simp only [sentInts, commandFrame, packPositionVelocity_position, packPositionVelocity_speed,
      packPositionVelocity_accel]
    rfl
  | _ => exact congrArg (fun v => [Int32.toInt v]) (packInt32_wire conv _ _ _)

end AkV3Driver

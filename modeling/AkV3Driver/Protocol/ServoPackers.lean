import AkV3Driver.Protocol.FloatCast
import AkV3Driver.Protocol.Frame
import Mathlib.Data.Fin.VecNotation

/-!
# Servo-mode and service packers

The five single-field servo packers write one scaled 32-bit integer and differ in
mode and scale only. The combined mode writes three fields behind one cursor; the
service packers write flags.
-/

namespace AkV3Driver.Protocol

variable (conv : FloatCast)

def zeroPayload : Payload := fun _ => 0

def packInt32 (modeId canId : UInt8) (scaled : ℚ) : CanFrame :=
  let (buf, idx) := appendInt32 zeroPayload 0 (conv.toInt32 scaled)
  makeFrame modeId canId buf idx.toUInt8

def packDuty (canId : UInt8) (duty : ℚ) : CanFrame :=
  packInt32 conv modeDuty canId (duty * 100000)

def packCurrent (canId : UInt8) (currentA : ℚ) : CanFrame :=
  packInt32 conv modeCurrent canId (currentA * 1000)

def packCurrentBrake (canId : UInt8) (currentA : ℚ) : CanFrame :=
  packInt32 conv modeCurrentBrake canId (currentA * 1000)

def packVelocityErpm (canId : UInt8) (erpm : ℚ) : CanFrame :=
  packInt32 conv modeVelocity canId erpm

def packPositionDeg (canId : UInt8) (positionDeg : ℚ) : CanFrame :=
  packInt32 conv modePosition canId (positionDeg * 10000)

def packSetOrigin (canId : UInt8) (permanent : Bool) : CanFrame :=
  makeFrame modeSetOrigin canId (zeroPayload.write 0 (if permanent then 1 else 0)) 1

def packPositionVelocity (canId : UInt8) (positionDeg speedErpm accelErpmS2 : ℚ) : CanFrame :=
  let (buf, idx) := appendInt32 zeroPayload 0 (conv.toInt32 (positionDeg * 10000))
  let (buf, idx) := appendInt16 buf idx (conv.toInt16 (speedErpm / 10))
  let (buf, idx) := appendInt16 buf idx (conv.toInt16 (accelErpmS2 / 10))
  makeFrame modePositionVelocity canId buf idx.toUInt8

def packDisable (canId : UInt8) : CanFrame := makeFrame modeDisable canId zeroPayload 0

def packFeedbackConfig (canId : UInt8) (addExtendedPositionFrame singleTurnMode : Bool) :
    CanFrame :=
  let param : UInt16 := 0
  let param := if addExtendedPositionFrame then param ||| 0x8000 else param
  let param := if singleTurnMode then param ||| 0x4000 else param
  let (buf, idx) := appendUint16 zeroPayload 6 param
  makeFrame modeFeedbackConfig canId buf idx.toUInt8

theorem packInt32_wire (m c : UInt8) (x : ℚ) :
    getInt32 (packInt32 conv m c x).data 0 = conv.toInt32 x :=
  getInt32_appendInt32 _ 0 _ (by omega)

section PositionVelocity
variable (c : UInt8) (p s a : ℚ)

theorem packPositionVelocity_position :
    getInt32 (packPositionVelocity conv c p s a).data 0 = conv.toInt32 (p * 10000) := by
  have h := getInt32_appendInt32 zeroPayload 0 (conv.toInt32 (p * 10000)) (by omega)
  have h4 := getInt32_appendInt16 (appendInt32 zeroPayload 0 (conv.toInt32 (p * 10000))).1
    4 (j := 0) (conv.toInt16 (s / 10)) (by omega) (by omega)
  rw [h] at h4
  rw [← h4]
  exact getInt32_appendInt16 _ 6 (j := 0) _ (by omega) (by omega)

theorem packPositionVelocity_read {k : ℕ} (hk : k < 4) :
    (packPositionVelocity conv c p s a).data.read k = (packPositionDeg conv c p).data.read k := by
  have h4 := read_appendInt16 (appendInt32 zeroPayload 0 (conv.toInt32 (p * 10000))).1 4
    (j := k) (conv.toInt16 (s / 10)) (by omega) (by omega)
  refine Eq.trans ?_ h4
  exact read_appendInt16 _ 6 _ (by omega) (by omega)

theorem packPositionVelocity_speed :
    getInt16 (packPositionVelocity conv c p s a).data 4 = conv.toInt16 (s / 10) := by
  have h := getInt16_appendInt16 (appendInt32 zeroPayload 0 (conv.toInt32 (p * 10000))).1
    4 (conv.toInt16 (s / 10)) (by omega)
  rw [← h]
  exact getInt16_appendInt16_of_le _ 6 (j := 4) _ (by omega) (by omega)

theorem packPositionVelocity_accel :
    getInt16 (packPositionVelocity conv c p s a).data 6 = conv.toInt16 (a / 10) :=
  getInt16_appendInt16 _ 6 _ (by omega)

end PositionVelocity

example : (packPositionVelocity .wrapping 0x68 (-1000) (-10000) (-10000)).data =
    ![0xFF, 0x67, 0x69, 0x80, 0xFC, 0x18, 0xFC, 0x18] := by decide +kernel

end AkV3Driver.Protocol

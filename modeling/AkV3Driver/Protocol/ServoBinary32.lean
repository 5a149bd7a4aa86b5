import AkV3Driver.Lib.BinaryFloat
import AkV3Driver.Lib.RoundingError
import AkV3Driver.Protocol.FeedbackCodec
import Mathlib.Tactic.Positivity

/-!
# Servo commands and feedback in single precision

A servo packer multiplies by a constant of its own and truncates the rounded product. A
decoder converts a wire integer and multiplies it by a rounded decimal constant. A
status still tells all payloads apart. An extended position does so as long as a
hundredth of a degree is wider than a place, which ends at 131072 degrees; it never
goes backwards.
-/

namespace AkV3Driver.Protocol.Binary32
open RoundToNearest
open RoundingError (Near)

section Packers
variable (conv : FloatCast)

def packInt32 (modeId canId : UInt8) (scaled : Binary32) : CanFrame :=
  Protocol.packInt32 conv modeId canId scaled.val

def packDuty (canId : UInt8) (duty : Binary32) : CanFrame :=
  packInt32 conv modeDuty canId (duty * .ofRat 100000)

def packCurrent (canId : UInt8) (currentA : Binary32) : CanFrame :=
  packInt32 conv modeCurrent canId (currentA * .ofRat 1000)

def packCurrentBrake (canId : UInt8) (currentA : Binary32) : CanFrame :=
  packInt32 conv modeCurrentBrake canId (currentA * .ofRat 1000)

def packVelocityErpm (canId : UInt8) (erpm : Binary32) : CanFrame :=
  packInt32 conv modeVelocity canId erpm

def packPositionDeg (canId : UInt8) (positionDeg : Binary32) : CanFrame :=
  packInt32 conv modePosition canId (positionDeg * .ofRat 10000)

def packPositionVelocity (canId : UInt8) (positionDeg speedErpm accelErpmS2 : Binary32) :
    CanFrame :=
  let (buf, idx) := appendInt32 zeroPayload 0 (conv.toInt32 (positionDeg * .ofRat 10000).val)
  let (buf, idx) := appendInt16 buf idx (conv.toInt16 (speedErpm / .ofRat 10).val)
  let (buf, idx) := appendInt16 buf idx (conv.toInt16 (accelErpmS2 / .ofRat 10).val)
  makeFrame modePositionVelocity canId buf idx.toUInt8

/-- The exact packer at the values that the three casts receive. -/
theorem packPositionVelocity_eq (canId : UInt8) (p s a : Binary32) :
    packPositionVelocity conv canId p s a =
      Protocol.packPositionVelocity conv canId ((p * .ofRat 10000).val / 10000)
        ((s / .ofRat 10).val * 10) ((a / .ofRat 10).val * 10) := by
  have h4 : (10000 : ℚ) ≠ 0 := by norm_num
  have h1 : (10 : ℚ) ≠ 0 := by norm_num
  rw [Protocol.packPositionVelocity, div_mul_cancel₀ _ h4, mul_div_cancel_right₀ _ h1,
    mul_div_cancel_right₀ _ h1]
  rfl

end Packers

structure StatusFrame where
  positionDeg : Binary32
  speedErpm : Binary32
  currentA : Binary32
  temperatureC : Int8
  errorCode : UInt8

structure ExtendedPositionFrame where
  positionDeg : Binary32

/-- `static_cast<float>(n) * c` -/
def scale (n : ℤ) (c : Binary32) : Binary32 := .ofRat n * c

def decodeStatusFrame (frame : CanFrame) (canId : UInt8) : Option StatusFrame :=
  if frame.id ≠ buildCanId funcIdStatus canId ∨ frame.dlc < 8 then none
  else some
    { positionDeg := scale (getInt16 frame.data 0).toInt (.ofRat 0.1)
      speedErpm := scale (getInt16 frame.data 2).toInt (.ofRat 10)
      currentA := scale (getInt16 frame.data 4).toInt (.ofRat 0.01)
      temperatureC := (frame.data.read 6).toInt8
      errorCode := frame.data.read 7 }

def decodeExtendedPositionFrame (frame : CanFrame) (canId : UInt8) :
    Option ExtendedPositionFrame :=
  if frame.id ≠ buildCanId funcIdExtPosition canId ∨ frame.dlc < 4 then none
  else some { positionDeg := scale (getInt32 frame.data 0).toInt (.ofRat 0.01) }

def StatusFrame.ofWire (w : StatusWire) : StatusFrame where
  positionDeg := scale w.position.toInt (.ofRat 0.1)
  speedErpm := scale w.speed.toInt (.ofRat 10)
  currentA := scale w.current.toInt (.ofRat 0.01)
  temperatureC := w.temperature
  errorCode := w.errorCode

section Scale
variable {n m : ℤ} {c : Binary32}

theorem val_scale (hn : |n| < 2 ^ 24) : (scale n c).val = round 24 (-149) (n * c.val) := by
  rw [scale, BinaryFloat.val_mul, BinaryFloat.val_ofRat_intCast hn (by norm_num)]

theorem scale_mono (hc : 0 ≤ c.val) (h : n ≤ m) : scale n c ≤ scale m c := by
  have hcast : (.ofRat (n : ℚ) : Binary32).val ≤ (.ofRat (m : ℚ) : Binary32).val :=
    BinaryFloat.le_iff.mp (BinaryFloat.ofRat_mono (Int.cast_le.mpr h))
  exact BinaryFloat.ofRat_mono (mul_le_mul_of_nonneg_right hcast hc)

/-- While the step of the decoded value is wider than a place, no step is lost. -/
theorem scale_lt_scale {e : ℤ} (he : -149 ≤ e) (hc : 2 ^ e < c.val)
    (hn : |n| < 2 ^ 24) (hm : |m| < 2 ^ 24) (hnc : |n * c.val| < 2 ^ (e + 24))
    (hmc : |m * c.val| < 2 ^ (e + 24)) (h : n < m) : scale n c < scale m c := by
  rw [BinaryFloat.lt_iff, val_scale hn, val_scale hm]
  have hpos : 0 < c.val := (zpow_pos two_pos e).trans hc
  have hstep : (1 : ℚ) ≤ m - n := by
    have : n + 1 ≤ m := h
    have hcast : ((n + 1 : ℤ) : ℚ) ≤ m := Int.cast_le.mpr this
    push_cast at hcast
    linarith
  refine round_lt_round he hnc hmc ?_
  calc (2 : ℚ) ^ e < c.val := hc
    _ = 1 * c.val := (one_mul _).symm
    _ ≤ (m - n) * c.val := mul_le_mul_of_nonneg_right hstep hpos.le
    _ = m * c.val - n * c.val := by ring

theorem scale_injOn {e : ℤ} {N : ℕ} (he : -149 ≤ e) (hc : 2 ^ e < c.val) (hN : N < 2 ^ 24)
    (hNc : N * c.val < 2 ^ (e + 24)) (hn : |n| ≤ N) (hm : |m| ≤ N)
    (h : scale n c = scale m c) : n = m := by
  have hpos : 0 < c.val := (zpow_pos two_pos e).trans hc
  have hbound {k : ℤ} (hk : |k| ≤ N) : |k| < 2 ^ 24 ∧ |k * c.val| < 2 ^ (e + 24) := by
    refine ⟨hk.trans_lt (by exact_mod_cast hN), ?_⟩
    have hkq : |(k : ℚ)| ≤ N := by exact_mod_cast hk
    rw [abs_mul, abs_of_pos hpos]
    exact (mul_le_mul_of_nonneg_right hkq hpos.le).trans_lt hNc
  obtain ⟨hn1, hn2⟩ := hbound hn
  obtain ⟨hm1, hm2⟩ := hbound hm
  rcases lt_trichotomy n m with hlt | heq | hgt
  · exact absurd h (scale_lt_scale he hc hn1 hm1 hn2 hm2 hlt).ne
  · exact heq
  · exact absurd h (scale_lt_scale he hc hm1 hn1 hm2 hn2 hgt).ne'

/-- One rounding of the integer, one of the constant and one of the product. -/
theorem scale_near {q : ℚ} (n : ℤ) (hc : Near (1 / 2 ^ 24) 0 c.val q) (hq : |q| ≤ 1) :
    Near (4 / 2 ^ 24) (2 ^ (-148 : ℤ)) (scale n c).val (n * q) := by
  have hn := (RoundingError.near_refl (n : ℚ)).round 24 (-149)
  have h := (hn.mul_near (by positivity) hc (by norm_num) hq).round 24 (-149)
  exact h.mono (by norm_num) (by norm_num)

end Scale

section Constants

theorem tenth : 2 ^ (-12 : ℤ) < (.ofRat 0.1 : Binary32).val ∧
    32768 * (.ofRat 0.1 : Binary32).val < 2 ^ (-12 + 24 : ℤ) ∧
    Near (1 / 2 ^ 24) 0 (.ofRat 0.1 : Binary32).val 0.1 := by
  unfold Near
  decide +kernel

theorem hundredth : 2 ^ (-7 : ℤ) < (.ofRat 0.01 : Binary32).val ∧
    13107200 * (.ofRat 0.01 : Binary32).val < 2 ^ (-7 + 24 : ℤ) ∧
    Near (1 / 2 ^ 24) 0 (.ofRat 0.01 : Binary32).val 0.01 := by
  unfold Near
  decide +kernel

theorem val_ten : (.ofRat 10 : Binary32).val = 10 := by
  decide +kernel

end Constants

section Status
variable {frame frame' : CanFrame} {canId : UInt8}

theorem abs_int16_le (v : Int16) : |v.toInt| ≤ 32768 := by
  have hlo := v.le_toInt
  have hhi := v.toInt_lt
  rw [abs_le]
  omega

theorem int16_scale_inj {v w : Int16} {e : ℤ} {c : Binary32} (he : -149 ≤ e) (hc : 2 ^ e < c.val)
    (hmax : 32768 * c.val < 2 ^ (e + 24)) (h : scale v.toInt c = scale w.toInt c) : v = w := by
  have hinj : v.toInt = w.toInt :=
    scale_injOn (N := 32768) he hc (by norm_num) (by exact_mod_cast hmax)
      (by exact_mod_cast abs_int16_le v) (by exact_mod_cast abs_int16_le w) h
  exact Int16.toInt_inj.mp hinj

theorem StatusFrame.ofWire_injective : Function.Injective StatusFrame.ofWire := by
  intro w w' h
  obtain ⟨ht, htmax, -⟩ := tenth
  obtain ⟨hh, hhmax, -⟩ := hundredth
  injection h with hposition hspeed hcurrent htemperature herror
  apply StatusWire.ext
  · exact int16_scale_inj (by norm_num) ht htmax hposition
  · refine int16_scale_inj (e := 0) (by norm_num) ?_ ?_ hspeed
    · rw [val_ten]
      norm_num
    · rw [val_ten]
      norm_num
  · exact int16_scale_inj (by norm_num) hh (by linarith [hh]) hcurrent
  · exact htemperature
  · exact herror

theorem decodeStatusFrame_eq_some (hid : frame.id = buildCanId funcIdStatus canId)
    (hdlc : 8 ≤ frame.dlc) :
    decodeStatusFrame frame canId = some (.ofWire (StatusWire.ofPayload frame.data)) := by
  rw [decodeStatusFrame, if_neg (by simp [hid, UInt8.not_lt.mpr hdlc])]
  rfl

theorem decodeStatusFrame_eq (h : (decodeStatusFrame frame canId).isSome) :
    decodeStatusFrame frame canId = some (.ofWire (StatusWire.ofPayload frame.data)) := by
  obtain ⟨hid, hdlc⟩ := (isSome_accept _ _ _ _ _).mp h
  exact decodeStatusFrame_eq_some hid hdlc

end Status

structure StatusFrame.Near (s : StatusFrame) (t : Protocol.StatusFrame) : Prop where
  positionDeg : RoundingError.Near (4 / 2 ^ 24) (2 ^ (-148 : ℤ)) s.positionDeg.val t.positionDeg
  speedErpm : s.speedErpm.val = t.speedErpm
  currentA : RoundingError.Near (4 / 2 ^ 24) (2 ^ (-148 : ℤ)) s.currentA.val t.currentA
  temperatureC : s.temperatureC = t.temperatureC
  errorCode : s.errorCode = t.errorCode

def ExtendedPositionFrame.Near (e : ExtendedPositionFrame) (e' : Protocol.ExtendedPositionFrame) :
    Prop := RoundingError.Near (4 / 2 ^ 24) (2 ^ (-148 : ℤ)) e.positionDeg.val e'.positionDeg

/-- The numbers of the frame as they are, for a node that computes exactly. -/
def StatusFrame.exact (s : StatusFrame) : Protocol.StatusFrame where
  positionDeg := s.positionDeg.val
  speedErpm := s.speedErpm.val
  currentA := s.currentA.val
  temperatureC := s.temperatureC
  errorCode := s.errorCode

def ExtendedPositionFrame.exact (e : ExtendedPositionFrame) : Protocol.ExtendedPositionFrame :=
  ⟨e.positionDeg.val⟩

theorem StatusFrame.near_exact (s : StatusFrame) : s.Near s.exact where
  positionDeg := (RoundingError.near_refl _).mono (by positivity) (by positivity)
  speedErpm := rfl
  currentA := (RoundingError.near_refl _).mono (by positivity) (by positivity)
  temperatureC := rfl
  errorCode := rfl

theorem ExtendedPositionFrame.near_exact (e : ExtendedPositionFrame) : e.Near e.exact :=
  (RoundingError.near_refl _).mono (by positivity) (by positivity)

section Exact
variable (frame : CanFrame) (canId : UInt8)

theorem StatusFrame.ofWire_near (w : StatusWire) : (ofWire w).Near w.scaled where
  positionDeg := scale_near _ tenth.2.2 (by norm_num [abs_le])
  speedErpm := by
    have habs := abs_int16_le w.speed
    have hten : |w.speed.toInt * 10| < 2 ^ 24 := by
      rw [abs_mul]
      norm_num
      omega
    have hval : (scale w.speed.toInt (.ofRat 10)).val =
        round 24 (-149) ((w.speed.toInt * 10 : ℤ) : ℚ) := by
      rw [val_scale (by omega), val_ten]
      push_cast
      rfl
    have hround := (representable_intCast (K := ℚ) hten (by norm_num : (-149 : ℤ) ≤ 0)).round_eq
    change (scale w.speed.toInt (.ofRat 10)).val = (w.speed.toInt : ℚ) * 10
    rw [hval, hround]
    push_cast
    rfl
  currentA := scale_near _ hundredth.2.2 (by norm_num [abs_le])
  temperatureC := rfl
  errorCode := rfl

theorem decodeStatusFrame_near :
    Option.Rel StatusFrame.Near (decodeStatusFrame frame canId)
      (Protocol.decodeStatusFrame frame canId) := by
  by_cases h : frame.id ≠ buildCanId funcIdStatus canId ∨ frame.dlc < 8
  · rw [decodeStatusFrame, Protocol.decodeStatusFrame, if_pos h, if_pos h]
    exact .none
  · rw [decodeStatusFrame, Protocol.decodeStatusFrame, if_neg h, if_neg h]
    exact .some (StatusFrame.ofWire_near (StatusWire.ofPayload frame.data))

theorem decodeExtendedPositionFrame_near :
    Option.Rel ExtendedPositionFrame.Near (decodeExtendedPositionFrame frame canId)
      (Protocol.decodeExtendedPositionFrame frame canId) := by
  by_cases h : frame.id ≠ buildCanId funcIdExtPosition canId ∨ frame.dlc < 4
  · rw [decodeExtendedPositionFrame, Protocol.decodeExtendedPositionFrame, if_pos h, if_pos h]
    exact .none
  · rw [decodeExtendedPositionFrame, Protocol.decodeExtendedPositionFrame, if_neg h, if_neg h]
    exact .some (scale_near _ hundredth.2.2 (by norm_num [abs_le]))

end Exact

theorem extendedPosition_eq {frame : CanFrame} {canId : UInt8} {e : ExtendedPositionFrame}
    (h : decodeExtendedPositionFrame frame canId = some e) :
    e.positionDeg = scale (getInt32 frame.data 0).toInt (.ofRat 0.01) := by
  simp only [decodeExtendedPositionFrame] at h
  split_ifs at h
  obtain rfl := Option.some.inj h
  rfl

/-- Decoded statuses tell all payloads apart. Extended positions keep the order of the
wire integers, and are distinct up to 131072 degrees but not one step beyond. -/
theorem feedback_resolution (canId : UInt8) :
    (∀ frame frame' status, decodeStatusFrame frame canId = some status →
      decodeStatusFrame frame' canId = some status → frame.data = frame'.data) ∧
    (∀ frame frame' ext ext', decodeExtendedPositionFrame frame canId = some ext →
      decodeExtendedPositionFrame frame' canId = some ext' →
      ((getInt32 frame.data 0).toInt ≤ (getInt32 frame'.data 0).toInt →
        ext.positionDeg ≤ ext'.positionDeg) ∧
      (|(getInt32 frame.data 0).toInt| ≤ 13107200 → |(getInt32 frame'.data 0).toInt| ≤ 13107200 →
        ext.positionDeg = ext'.positionDeg → getInt32 frame.data 0 = getInt32 frame'.data 0)) ∧
    scale 13107200 (.ofRat 0.01) = scale 13107201 (.ofRat 0.01) := by
  obtain ⟨hlo, hhi, -⟩ := hundredth
  have hpos : (0 : ℚ) < (.ofRat 0.01 : Binary32).val := (zpow_pos two_pos _).trans hlo
  refine ⟨?_, ?_, ?_⟩
  · intro frame frame' status h h'
    rw [decodeStatusFrame_eq (Option.isSome_of_eq_some h)] at h
    rw [decodeStatusFrame_eq (Option.isSome_of_eq_some h')] at h'
    have hwire := StatusFrame.ofWire_injective ((Option.some.inj h).trans (Option.some.inj h').symm)
    rw [← StatusWire.payload_ofPayload frame.data, hwire, StatusWire.payload_ofPayload]
  · intro frame frame' ext ext' h h'
    rw [extendedPosition_eq h, extendedPosition_eq h']
    refine ⟨scale_mono hpos.le, fun hn hm heq => Int32.toInt_inj.mp ?_⟩
    exact scale_injOn (N := 13107200) (by norm_num) hlo (by norm_num) (by exact_mod_cast hhi)
      (by exact_mod_cast hn) (by exact_mod_cast hm) heq
  · refine BinaryFloat.val_injective ?_
    decide +kernel

end AkV3Driver.Protocol.Binary32

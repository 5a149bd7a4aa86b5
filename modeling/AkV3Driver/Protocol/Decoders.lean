import AkV3Driver.Protocol.ServoPackers

/-!
# Feedback decoders

A decoder accepts a frame by its identifier and minimum length and then reads fixed
offsets. The extended position is read in hundredths of a degree, while a position
command is written in ten-thousandths; the last section relates the two scales.
-/

namespace AkV3Driver.Protocol
open Truncation (trunc)

structure StatusFrame where
  positionDeg : ℚ
  speedErpm : ℚ
  currentA : ℚ
  temperatureC : Int8
  errorCode : UInt8
deriving DecidableEq

structure ExtendedPositionFrame where
  positionDeg : ℚ
deriving DecidableEq

def faultCodeToString (code : UInt8) : String :=
  if code = 0 then "none"
  else if code = 1 then "motor_over_temperature"
  else if code = 2 then "over_current"
  else if code = 3 then "over_voltage"
  else if code = 4 then "under_voltage"
  else if code = 5 then "encoder_fault"
  else if code = 6 then "mosfet_over_temperature"
  else if code = 7 then "motor_lockup"
  else "unknown"

def decodeStatusFrame (frame : CanFrame) (canId : UInt8) : Option StatusFrame :=
  if frame.id ≠ buildCanId funcIdStatus canId ∨ frame.dlc < 8 then none
  else some
    { positionDeg := ((getInt16 frame.data 0).toInt : ℚ) * 0.1
      speedErpm := ((getInt16 frame.data 2).toInt : ℚ) * 10
      currentA := ((getInt16 frame.data 4).toInt : ℚ) * 0.01
      temperatureC := (frame.data.read 6).toInt8
      errorCode := frame.data.read 7 }

def decodeExtendedPositionFrame (frame : CanFrame) (canId : UInt8) :
    Option ExtendedPositionFrame :=
  if frame.id ≠ buildCanId funcIdExtPosition canId ∨ frame.dlc < 4 then none
  else some { positionDeg := ((getInt32 frame.data 0).toInt : ℚ) * 0.01 }

def isStartupFrame (frame : CanFrame) (canId : UInt8) : Bool :=
  if frame.id ≠ buildCanId funcIdStartup canId ∨ frame.dlc < 4 then false
  else [0xFA, 0xFB, 0xFC, 0xFD] == (List.range 4).map frame.data.read

section Accepted
variable {frame : CanFrame} {canId : UInt8}

theorem isSome_accept {α : Type*} (id id' : UInt32) (dlc n : UInt8) (out : α) :
    (if id ≠ id' ∨ dlc < n then none else some out).isSome ↔ id = id' ∧ n ≤ dlc := by
  by_cases h : id ≠ id' ∨ dlc < n
  · rw [if_pos h]
    simp only [Option.isSome_none, Bool.false_eq_true, false_iff]
    rintro ⟨hid, hdlc⟩
    exact h.elim (· hid) fun hlt => absurd hlt (UInt8.not_lt.mpr hdlc)
  · rw [if_neg h]
    simpa [UInt8.not_lt] using h

theorem decodeStatusFrame_isSome :
    (decodeStatusFrame frame canId).isSome ↔
      frame.id = buildCanId funcIdStatus canId ∧ 8 ≤ frame.dlc :=
  isSome_accept _ _ _ _ _

theorem decodeExtendedPositionFrame_isSome :
    (decodeExtendedPositionFrame frame canId).isSome ↔
      frame.id = buildCanId funcIdExtPosition canId ∧ 4 ≤ frame.dlc :=
  isSome_accept _ _ _ _ _

theorem decodeStatusFrame_eq (hid : frame.id = buildCanId funcIdStatus canId)
    (hdlc : 8 ≤ frame.dlc) :
    decodeStatusFrame frame canId = some
      { positionDeg := ((getInt16 frame.data 0).toInt : ℚ) * 0.1
        speedErpm := ((getInt16 frame.data 2).toInt : ℚ) * 10
        currentA := ((getInt16 frame.data 4).toInt : ℚ) * 0.01
        temperatureC := (frame.data.read 6).toInt8
        errorCode := frame.data.read 7 } := by
  simp [decodeStatusFrame, hid, UInt8.not_lt.mpr hdlc]

theorem decodeExtendedPositionFrame_eq (hid : frame.id = buildCanId funcIdExtPosition canId)
    (hdlc : 4 ≤ frame.dlc) :
    decodeExtendedPositionFrame frame canId =
      some ⟨((getInt32 frame.data 0).toInt : ℚ) * 0.01⟩ := by
  simp [decodeExtendedPositionFrame, hid, UInt8.not_lt.mpr hdlc]

/-- An identifier carries one function and one driver, so at most one decoder of one
driver accepts a frame. -/
theorem decodeStatusFrame_ext_exclusive {canId' : UInt8}
    (hs : (decodeStatusFrame frame canId).isSome) :
    decodeExtendedPositionFrame frame canId' = none := by
  by_contra hne
  have he := decodeExtendedPositionFrame_isSome.mp (Option.isSome_iff_ne_none.mpr hne)
  have hid := (decodeStatusFrame_isSome.mp hs).1.symm.trans he.1
  exact absurd (buildCanId_inj.mp hid).1 (by decide)

end Accepted

section Scale
variable (conv : FloatCast) (canId : UInt8)

/-- The command's own bytes, sent back as an extended position, come out a hundred
times larger. -/
theorem extendedPosition_of_command {d : ℚ} (hd : |d| ≤ 36000) (data : Payload)
    (hbytes : ∀ k, k < 4 → data.read k = (packPositionDeg conv canId d).data.read k) :
    |((getInt32 data 0).toInt : ℚ) * 0.01 - 100 * d| < 0.01 := by
  have hfits : FitsInt32 (d * 10000) := by
    refine fitsInt32_of_abs_lt ?_
    rw [abs_mul]
    norm_num
    linarith
  have hraw : getInt32 data 0 = conv.toInt32 (d * 10000) := by
    rw [← packInt32_wire conv modePosition canId (d * 10000)]
    exact getInt32_congr data 0 fun k hk => by
      simpa [packPositionDeg] using hbytes k hk
  have herr := abs_lt.mp (Truncation.abs_sub_trunc_lt_one (d * 10000))
  rw [hraw, conv.toInt32_toInt _ hfits, abs_lt]
  constructor <;> linarith

theorem extendedPosition_scale :
    (∀ frame : CanFrame, frame.id = buildCanId funcIdExtPosition canId → 4 ≤ frame.dlc →
      decodeExtendedPositionFrame frame canId =
        some ⟨((getInt32 frame.data 0).toInt : ℚ) * 0.01⟩) ∧
    ∀ d : ℚ, |d| ≤ 36000 → ∀ frame : CanFrame,
      frame.id = buildCanId funcIdExtPosition canId → 4 ≤ frame.dlc →
      (∀ k, k < 4 → frame.data.read k = (packPositionDeg conv canId d).data.read k) →
      ∃ e, decodeExtendedPositionFrame frame canId = some e ∧ |e.positionDeg - 100 * d| < 0.01 := by
  refine ⟨fun frame hid hdlc => decodeExtendedPositionFrame_eq hid hdlc, ?_⟩
  intro d hd frame hid hdlc hbytes
  exact ⟨_, decodeExtendedPositionFrame_eq hid hdlc,
    extendedPosition_of_command conv canId hd frame.data hbytes⟩

theorem extendedPosition_not_command_scale :
    ¬∀ (conv : FloatCast) (canId : UInt8) (d : ℚ), |d| ≤ 36000 → ∀ frame : CanFrame,
      frame.id = buildCanId funcIdExtPosition canId → 4 ≤ frame.dlc →
      (∀ k, k < 4 → frame.data.read k = (packPositionDeg conv canId d).data.read k) →
      ∃ e, decodeExtendedPositionFrame frame canId = some e ∧ |e.positionDeg - d| < 0.0001 := by
  intro h
  obtain ⟨e, he, hclose⟩ := h .wrapping 1 1 (by norm_num)
    ⟨buildCanId funcIdExtPosition 1, 4, (packPositionDeg .wrapping 1 1).data⟩ rfl (by decide)
    (fun _ _ => rfl)
  have hval : decodeExtendedPositionFrame
      ⟨buildCanId funcIdExtPosition 1, 4, (packPositionDeg .wrapping 1 1).data⟩ 1 =
      some ⟨100⟩ := by decide +kernel
  obtain rfl := Option.some.inj (he.symm.trans hval)
  norm_num at hclose

end Scale

end AkV3Driver.Protocol

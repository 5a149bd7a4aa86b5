import AkV3Driver.Node.BusIsolation
import AkV3Driver.Node.Mirror
import AkV3Driver.Protocol.ServoFidelity

/-!
# From one socket to another

The kernel delivers the record that was written. Then a frame comes back as it was
sent exactly when its identifier has 29 bits, its length is at most eight and nothing
lies behind its end. All ten packers build such frames, whatever the conversions yield.
-/

namespace AkV3Driver
open Protocol

structure Transferable (frame : CanFrame) : Prop where
  id_lt : frame.id.toNat < 2 ^ 29
  dlc_le : frame.dlc ≤ 8
  padded : ZeroPadded frame

theorem Transferable.exists_raw {frame : CanFrame} (h : Transferable frame) :
    ∃ raw, CanSocket.toRaw frame = some raw ∧ CanSocket.IsExtendedData raw ∧
      CanSocket.receive {} (.frame raw) = some frame := by
  have hraw : CanSocket.toRaw frame = some _ := dif_pos h.dlc_le
  refine ⟨_, hraw, CanSocket.isExtendedData_toRaw hraw h.id_lt, ?_⟩
  rw [CanSocket.receive_toRaw hraw h.id_lt]
  change some (CanFrame.mk frame.id frame.dlc (CanSocket.memcpy (fun _ => 0) frame.data _)) = _
  rw [CanSocket.memcpy_zero_eq_iff.mpr h.padded]

theorem transferable_of_receive {frame : CanFrame} {raw : RawFrame}
    (hraw : CanSocket.toRaw frame = some raw)
    (hback : CanSocket.receive {} (.frame raw) = some frame) : Transferable frame := by
  obtain ⟨-, hdlc, hdata⟩ := CanSocket.toRaw_eq_some hraw
  rw [CanSocket.receive_frame] at hback
  split_ifs at hback
  have heq := Option.some.inj hback
  constructor
  case id_lt =>
    rw [← congrArg CanFrame.id heq]
    exact and_canEffMask_lt raw.canId
  case dlc_le => exact hdlc ▸ raw.canDlc_le
  case padded =>
    have hcopy := congrArg CanFrame.data heq
    simp only [hdata, hdlc, CanSocket.memcpy_memcpy] at hcopy
    exact CanSocket.memcpy_zero_eq_iff.mp hcopy

theorem transferable_iff {frame : CanFrame} :
    Transferable frame ↔ ∃ raw, CanSocket.toRaw frame = some raw ∧
      CanSocket.receive {} (.frame raw) = some frame := by
  constructor
  · intro h
    obtain ⟨raw, hraw, -, hback⟩ := h.exists_raw
    exact ⟨raw, hraw, hback⟩
  · rintro ⟨raw, hraw, hback⟩
    exact transferable_of_receive hraw hback

/-- The single-field servo packers from the converted value on. -/
def int32Frame (modeId canId : UInt8) (value : Int32) : CanFrame :=
  let (buf, idx) := appendInt32 zeroPayload 0 value
  makeFrame modeId canId buf idx.toUInt8

def positionVelocityFrame (canId : UInt8) (position : Int32) (speed accel : Int16) : CanFrame :=
  let (buf, idx) := appendInt32 zeroPayload 0 position
  let (buf, idx) := appendInt16 buf idx speed
  let (buf, idx) := appendInt16 buf idx accel
  makeFrame modePositionVelocity canId buf idx.toUInt8

def mitFrame (canId : UInt8) (kpInt kdInt pInt vInt tInt : UInt32) : CanFrame :=
  makeFrame modeMit canId (mitPayload kpInt kdInt pInt vInt tInt) 8

def mitFrameOf (canId : UInt8) (code : MitField → UInt32) : CanFrame :=
  mitFrame canId (code .kp) (code .kd) (code .position) (code .velocity) (code .torque)

/-- The frames of the ten packers, with any integers for the converted values. -/
inductive IntegerFrame : CanFrame → Prop
  | int32 (modeId canId : UInt8) (value : Int32) : IntegerFrame (int32Frame modeId canId value)
  | setOrigin (canId : UInt8) (permanent : Bool) : IntegerFrame (packSetOrigin canId permanent)
  | positionVelocity (canId : UInt8) (position : Int32) (speed accel : Int16) :
      IntegerFrame (positionVelocityFrame canId position speed accel)
  | disable (canId : UInt8) : IntegerFrame (packDisable canId)
  | feedbackConfig (canId : UInt8) (ext single : Bool) :
      IntegerFrame (packFeedbackConfig canId ext single)
  | mit (canId : UInt8) (kpInt kdInt pInt vInt tInt : UInt32) :
      IntegerFrame (mitFrame canId kpInt kdInt pInt vInt tInt)

theorem PackedFrame.integerFrame {conv : FloatCast} {frame : CanFrame}
    (h : PackedFrame conv frame) : IntegerFrame frame := by
  cases h with
  | duty c x => exact .int32 modeDuty c _
  | current c x => exact .int32 modeCurrent c _
  | currentBrake c x => exact .int32 modeCurrentBrake c _
  | velocityErpm c x => exact .int32 modeVelocity c _
  | positionDeg c x => exact .int32 modePosition c _
  | setOrigin c permanent => exact .setOrigin c permanent
  | positionVelocity c p s a => exact .positionVelocity c _ _ _
  | disable c => exact .disable c
  | feedbackConfig c ext single => exact .feedbackConfig c ext single
  | mit c p v kp kd t limits => exact .mit c _ _ _ _ _

theorem transferable_makeFrame (modeId canId : UInt8) (data : Payload) {dlc : UInt8}
    (hdlc : dlc ≤ 8) (hpad : ZeroPadded (makeFrame modeId canId data dlc)) :
    Transferable (makeFrame modeId canId data dlc) :=
  ⟨(buildCanId_lt modeId canId).trans (by omega), hdlc, hpad⟩

theorem IntegerFrame.transferable {frame : CanFrame} (h : IntegerFrame frame) :
    Transferable frame := by
  cases h with
  | int32 m c value =>
    exact transferable_makeFrame m c _ (by decide) (appendInt32_zeroPadded m c value)
  | setOrigin c permanent =>
    refine transferable_makeFrame modeSetOrigin c _ (by decide) fun i hi => ?_
    change 1 ≤ i.val at hi
    exact if_neg (by omega)
  | positionVelocity c p s a =>
    exact transferable_makeFrame modePositionVelocity c _ (by decide) (zeroPadded_of_full rfl)
  | disable c =>
    exact transferable_makeFrame modeDisable c _ (by decide) fun _ _ => rfl
  | feedbackConfig c ext single =>
    exact transferable_makeFrame modeFeedbackConfig c _ (by decide) (zeroPadded_of_full rfl)
  | mit c kp kd p v t =>
    exact transferable_makeFrame modeMit c _ (by decide) (zeroPadded_of_full rfl)

theorem transfer_identity :
    (∀ frame, Transferable frame →
      ∃ raw, CanSocket.toRaw frame = some raw ∧ CanSocket.IsExtendedData raw ∧
        CanSocket.receive {} (.frame raw) = some frame) ∧
    (∀ conv frame, PackedFrame conv frame → Transferable frame) ∧
    ∀ frame, IntegerFrame frame → Transferable frame := by
  refine ⟨?_, ?_, ?_⟩
  · intro frame h
    exact h.exists_raw
  · intro conv frame h
    exact h.integerFrame.transferable
  · intro frame h
    exact h.transferable

section Run
variable (conv : FloatCast) (cfg : NodeConfig)

theorem commandFrame_packed (mode : CommandMode) (msg : MotorCommand) :
    PackedFrame conv (commandFrame conv cfg mode msg) := by
  cases mode with
  | duty => exact .duty _ _
  | current => exact .current _ _
  | currentBrake => exact .currentBrake _ _
  | velocity => exact .velocityErpm _ _
  | position => exact .positionDeg _ _
  | positionVelocity => exact .positionVelocity _ _ _ _
  | mit => exact .mit _ _ _ _ _ _ _

theorem sendOf_packed {e : Event} {p : CanFrame × Bool} (h : sendOf conv cfg e = some p) :
    PackedFrame conv p.1 := by
  cases e with
  | command msg ok =>
    obtain ⟨mode, -, rfl⟩ := Option.map_eq_some_iff.mp h
    exact commandFrame_packed conv cfg mode msg
  | setOrigin permanent ok =>
    obtain rfl := Option.some.inj h
    exact .setOrigin _ _
  | setFeedbackConfig add single ok =>
    obtain rfl := Option.some.inj h
    exact .feedbackConfig _ _ _
  | disable ok =>
    obtain rfl := Option.some.inj h
    exact .disable _
  | _ => cases h

/-- Whatever a node sends is received unchanged, and every node ignores it. -/
theorem run_sent_ignored (es : List Event) :
    ∀ p ∈ (run conv cfg {} es).sent, ∃ raw, CanSocket.toRaw p.1 = some raw ∧
      CanSocket.receive {} (.frame raw) = some p.1 ∧
      ∀ (cfg' : NodeConfig) (s : NodeState), rxThreadMain cfg' s (.frame raw) = s := by
  intro p hp
  rw [run_sent] at hp
  obtain ⟨e, -, he⟩ := List.mem_filterMap.mp (by simpa using hp)
  have hpacked := sendOf_packed conv cfg he
  obtain ⟨raw, hraw, -, hback⟩ := hpacked.integerFrame.transferable.exists_raw
  obtain ⟨raw', hraw', hnot⟩ := hpacked.exists_raw
  obtain rfl := Option.some.inj (hraw'.symm.trans hraw)
  exact ⟨raw', hraw, hback, fun cfg' => rxThreadMain_of_not_feedback (hnot cfg'.canId)⟩

end Run

end AkV3Driver

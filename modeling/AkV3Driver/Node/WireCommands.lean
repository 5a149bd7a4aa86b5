import AkV3Driver.Node.Network
import AkV3Driver.Protocol.MitRoundTrip

/-!
# The commands on the wire

A frame of the command direction is the identifier of a motor, a mode and the fields of
that mode. The reader below follows the documented layouts; it inverts the frames that
the fields make, and every frame that a node sends is one of these. So a motor reads
exactly the commands of its own node, whatever shares the bus.
-/

namespace AkV3Driver
open Protocol

inductive ServoMode
  | duty | current | currentBrake | velocity | position
deriving DecidableEq

def ServoMode.modeId : ServoMode → UInt8
  | duty => modeDuty
  | current => modeCurrent
  | currentBrake => modeCurrentBrake
  | velocity => modeVelocity
  | position => modePosition

inductive WireCommand
  | servo (mode : ServoMode) (value : Int32)
  | positionVelocity (position : Int32) (speed accel : Int16)
  | mit (code : (f : MitField) → Fin (2 ^ f.width))
  | setOrigin (permanent : Bool)
  | feedbackConfig (addExtendedPositionFrame singleTurnMode : Bool)
  | disable

def mitFields (data : Payload) (f : MitField) : Fin (2 ^ f.width) :=
  ⟨fieldCode f data, fieldCode_lt f data⟩

/-- The fields of a payload, by the layout of its mode. -/
def readFields (modeId : UInt8) (data : Payload) : Option WireCommand :=
  if modeId = modeDuty then some (.servo .duty (getInt32 data 0))
  else if modeId = modeCurrent then some (.servo .current (getInt32 data 0))
  else if modeId = modeCurrentBrake then some (.servo .currentBrake (getInt32 data 0))
  else if modeId = modeVelocity then some (.servo .velocity (getInt32 data 0))
  else if modeId = modePosition then some (.servo .position (getInt32 data 0))
  else if modeId = modeSetOrigin then some (.setOrigin (data.read 0 = 1))
  else if modeId = modePositionVelocity then
    some (.positionVelocity (getInt32 data 0) (getInt16 data 4) (getInt16 data 6))
  else if modeId = modeMit then some (.mit (mitFields data))
  else if modeId = modeDisable then some .disable
  else if modeId = modeFeedbackConfig then
    some (.feedbackConfig (data.read 6 &&& 0x80 ≠ 0) (data.read 6 &&& 0x40 ≠ 0))
  else none

def readCommand (frame : CanFrame) : Option (UInt8 × WireCommand) :=
  (readFields (frame.id >>> 8).toUInt8 frame.data).map (frame.id.toUInt8, ·)

def WireCommand.frame (canId : UInt8) : WireCommand → CanFrame
  | servo mode value => int32Frame mode.modeId canId value
  | positionVelocity position speed accel => positionVelocityFrame canId position speed accel
  | mit code => mitFrameOf canId fun f => .ofNat (code f)
  | setOrigin permanent => packSetOrigin canId permanent
  | feedbackConfig ext single => packFeedbackConfig canId ext single
  | disable => packDisable canId

section Payload

def spilled (code : MitField → UInt32) (f : MitField) : ℕ :=
  match f.below with
  | some g => spill (code g).toNat
  | none => 0

theorem mitWire_lt (code : MitField → UInt32) (f : MitField) :
    (code f).toNat % 2 ^ f.width ||| spilled code f < 2 ^ f.width := by
  have hspill : spilled code f < 2 ^ f.width := by
    cases f with
    | kp => exact (spill_lt _).trans (by decide)
    | velocity => exact (spill_lt _).trans (by decide)
    | _ => exact Nat.two_pow_pos _
  exact Nat.or_lt_two_pow (Nat.mod_lt _ (Nat.two_pow_pos _)) hspill

/-- A field holds the code of its quantity up to the width of the field, and the code of
the field below, where it is too wide, reaches into it. -/
def mitWire (code : MitField → UInt32) (f : MitField) : Fin (2 ^ f.width) :=
  ⟨(code f).toNat % 2 ^ f.width ||| spilled code f, mitWire_lt code f⟩

theorem mitFields_mitFrameOf (canId : UInt8) (code : MitField → UInt32) :
    mitFields (mitFrameOf canId code).data = mitWire code := by
  have hfield := fieldCode_mitPayload_or (code .kp) (code .kd) (code .position)
    (code .velocity) (code .torque)
  funext f
  refine Fin.ext ((hfield f).trans ?_)
  cases f with
  | kp => rfl
  | velocity => rfl
  | _ => exact (Nat.or_zero _).symm

theorem mitWire_of_lt {code : MitField → UInt32} (h : ∀ f, (code f).toNat < 2 ^ f.width)
    (f : MitField) : (mitWire code f : ℕ) = (code f).toNat := by
  have hspill : spilled code f = 0 := by
    cases f with
    | kp => exact spill_of_lt (h .kd)
    | velocity => exact spill_of_lt (h .torque)
    | _ => rfl
  change (code f).toNat % 2 ^ f.width ||| spilled code f = _
  rw [hspill, Nat.or_zero, Nat.mod_eq_of_lt (h f)]

example : mitWire (fun f => if f = .kd then 4096 else 0) .kp = 1 := rfl

theorem toNat_ofNat_code (f : MitField) (c : Fin (2 ^ f.width)) :
    (UInt32.ofNat c).toNat = c := by
  have hc : c.val < 2 ^ 16 := by
    refine c.isLt.trans_le ?_
    cases f <;> simp [MitField.width]
  rw [UInt32.toNat_ofNat']
  omega

theorem mitFields_frame (canId : UInt8) (code : (f : MitField) → Fin (2 ^ f.width)) :
    mitFields (WireCommand.frame canId (.mit code)).data = code := by
  have hcode (f : MitField) := toNat_ofNat_code f (code f)
  have hfit (f : MitField) : (UInt32.ofNat (code f)).toNat < 2 ^ f.width := by
    rw [hcode]
    exact (code f).isLt
  have hfields := mitFields_mitFrameOf canId fun f => .ofNat (code f)
  refine hfields.trans (funext fun f => Fin.ext ?_)
  exact (mitWire_of_lt hfit f).trans (hcode f)

theorem mitFrameOf_eq (canId : UInt8) (code : MitField → UInt32) :
    mitFrameOf canId code = WireCommand.frame canId (.mit (mitWire code)) := by
  have hdata : (mitFrameOf canId code).data =
      (WireCommand.frame canId (.mit (mitWire code))).data := by
    refine payload_ext fun f => congrArg Fin.val (congrFun (?_ : mitFields _ = mitFields _) f)
    rw [mitFields_mitFrameOf, mitFields_frame]
  exact congrArg (makeFrame modeMit canId · 8) hdata

end Payload

section Reader
variable (canId : UInt8)

theorem buildCanId_modeId (modeId : UInt8) :
    (buildCanId modeId canId >>> 8).toUInt8 = modeId := by
  have hm := modeId.toNat_lt
  have hc := canId.toNat_lt
  apply UInt8.toNat_inj.mp
  simp only [UInt32.toNat_toUInt8, UInt32.toNat_shiftRight, buildCanId_toNat, UInt32.reduceToNat,
    Nat.reduceMod, Nat.shiftRight_eq_div_pow]
  omega

theorem readCommand_makeFrame (modeId : UInt8) (data : Payload) (dlc : UInt8) :
    readCommand (makeFrame modeId canId data dlc) =
      (readFields modeId data).map (canId, ·) := by
  simp only [readCommand, makeFrame, buildCanId_modeId, buildCanId_toUInt8]

theorem readFields_servo (mode : ServoMode) (data : Payload) :
    readFields mode.modeId data = some (.servo mode (getInt32 data 0)) := by
  cases mode <;> rfl

theorem positionVelocityFrame_fields (position : Int32) (speed accel : Int16) :
    getInt32 (positionVelocityFrame canId position speed accel).data 0 = position ∧
      getInt16 (positionVelocityFrame canId position speed accel).data 4 = speed ∧
      getInt16 (positionVelocityFrame canId position speed accel).data 6 = accel := by
  have hposition := getInt32_appendInt32 zeroPayload 0 position (by omega)
  have hspeed := getInt16_appendInt16 (appendInt32 zeroPayload 0 position).1 4 speed (by omega)
  refine ⟨?_, ?_, getInt16_appendInt16 _ 6 accel (by omega)⟩
  · refine (getInt32_appendInt16 _ 6 (j := 0) accel (by omega) (by omega)).trans ?_
    exact (getInt32_appendInt16 _ 4 (j := 0) speed (by omega) (by omega)).trans hposition
  · exact (getInt16_appendInt16_of_le _ 6 (j := 4) accel (by omega) (by omega)).trans hspeed

theorem readCommand_frame (w : WireCommand) : readCommand (w.frame canId) = some (canId, w) := by
  cases w with
  | servo mode value =>
    have hvalue : getInt32 (int32Frame mode.modeId canId value).data 0 = value :=
      getInt32_appendInt32 zeroPayload 0 value (by omega)
    have hread :=
      readCommand_makeFrame canId mode.modeId (int32Frame mode.modeId canId value).data 4
    rw [readFields_servo, hvalue] at hread
    exact hread
  | positionVelocity position speed accel =>
    have hfields := positionVelocityFrame_fields canId position speed accel
    obtain ⟨hposition, hspeed, haccel⟩ := hfields
    refine (readCommand_makeFrame canId modePositionVelocity _ _).trans ?_
    change some (canId, WireCommand.positionVelocity
      (getInt32 (positionVelocityFrame canId position speed accel).data 0)
      (getInt16 (positionVelocityFrame canId position speed accel).data 4)
      (getInt16 (positionVelocityFrame canId position speed accel).data 6)) = _
    rw [hposition, hspeed, haccel]
  | mit code =>
    refine (readCommand_makeFrame canId modeMit _ _).trans ?_
    exact congrArg (fun code => some (canId, WireCommand.mit code)) (mitFields_frame canId code)
  | setOrigin permanent =>
    refine (readCommand_makeFrame canId modeSetOrigin _ _).trans ?_
    cases permanent <;> rfl
  | feedbackConfig ext single =>
    refine (readCommand_makeFrame canId modeFeedbackConfig _ _).trans ?_
    cases ext <;> cases single <;> rfl
  | disable => exact readCommand_makeFrame canId modeDisable _ _

end Reader

section Sender
variable (conv : FloatCast) (cfg : NodeConfig)

/-- The integers that a command is converted to, as they go on the wire. -/
def wireCommand (msg : MotorCommand) : CommandMode → WireCommand
  | .duty => .servo .duty (conv.toInt32 (cfg.sign * msg.duty * 100000))
  | .current => .servo .current (conv.toInt32 (cfg.sign * msg.current * 1000))
  | .currentBrake => .servo .currentBrake (conv.toInt32 (msg.current * 1000))
  | .velocity =>
    .servo .velocity (conv.toInt32 (cfg.radPerSecToErpm (cfg.sign * msg.velocity)))
  | .position => .servo .position (conv.toInt32 (radToDeg (cfg.sign * msg.position) * 10000))
  | .positionVelocity =>
    .positionVelocity (conv.toInt32 (radToDeg (cfg.sign * msg.position) * 10000))
      (conv.toInt16 (cfg.radPerSecToErpm (cfg.sign * msg.velocity) / 10))
      (conv.toInt16 (cfg.radPerSecToErpm (cfg.sign * msg.acceleration) / 10))
  | .mit => .mit (mitWire (mitCode conv cfg msg))

def wireOf : Event → Option (WireCommand × Bool)
  | .command msg ok =>
    (CommandMode.ofByte msg.mode).map fun mode => (wireCommand conv cfg msg mode, ok)
  | .setOrigin permanent ok => some (.setOrigin permanent, ok)
  | .setFeedbackConfig add single ok => some (.feedbackConfig add single, ok)
  | .disable ok => some (.disable, ok)
  | _ => none

def ThreadedAction.wireOf : ThreadedAction → Option (WireCommand × Bool)
  | .event e => AkV3Driver.wireOf conv cfg e
  | _ => none

def writtenCommand (canId : UInt8) (p : WireCommand × Bool) : CanFrame × Bool :=
  (p.1.frame canId, p.2)

theorem commandFrame_eq (msg : MotorCommand) (mode : CommandMode) :
    commandFrame conv cfg mode msg = (wireCommand conv cfg msg mode).frame cfg.canId := by
  cases mode with
  | mit => exact mitFrameOf_eq cfg.canId (mitCode conv cfg msg)
  | _ => rfl

theorem mitWire_mitCode (hl : cfg.mitLimits.Valid) (msg : MotorCommand)
    (h : ∀ f : MitField, (mitInputs cfg msg).get f < f.max cfg.mitLimits) (f : MitField) :
    (mitWire (mitCode conv cfg msg) f : ℕ) = (mitCode conv cfg msg f).toNat :=
  mitWire_of_lt (fun g => (mitLevel_lt_iff conv hl (mitInputs cfg msg) g).mpr (h g)) f

theorem sendOf_eq (e : Event) :
    sendOf conv cfg e = (wireOf conv cfg e).map (writtenCommand cfg.canId) := by
  cases e with
  | command msg ok =>
    simp only [sendOf, wireOf, Option.map_map]
    congr 1
    funext mode
    exact congrArg (·, ok) (commandFrame_eq conv cfg msg mode)
  | _ => rfl

theorem ThreadedAction.sendOf_eq (a : ThreadedAction) :
    a.sendOf conv cfg = (a.wireOf conv cfg).map (writtenCommand cfg.canId) := by
  cases a with
  | event e => exact AkV3Driver.sendOf_eq conv cfg e
  | _ => rfl

end Sender

def heardCommand (raw : RawFrame) : Option (UInt8 × WireCommand) := (heard raw).bind readCommand

/-- The frames of a node are commands in the documented format, which is uniquely readable;
an MIT command below the maxima of its ranges is read as its five codes. -/
theorem wire_codec :
    (∀ canId w, readCommand (WireCommand.frame canId w) = some (canId, w)) ∧
    (∀ conv cfg e, sendOf conv cfg e = (wireOf conv cfg e).map (writtenCommand cfg.canId)) ∧
    (∀ canId canId' w w', WireCommand.frame canId w = WireCommand.frame canId' w' ↔
      canId = canId' ∧ w = w') ∧
    ∀ conv (cfg : NodeConfig) msg, cfg.mitLimits.Valid →
      (∀ f : MitField, (mitInputs cfg msg).get f < f.max cfg.mitLimits) →
      ∀ f, (mitWire (mitCode conv cfg msg) f : ℕ) = (mitCode conv cfg msg f).toNat := by
  refine ⟨readCommand_frame, sendOf_eq, fun canId canId' w w' => ⟨fun h => ?_, ?_⟩,
    fun conv cfg msg hl h => mitWire_mitCode conv cfg hl msg h⟩
  · have hread := readCommand_frame canId w
    rw [h, readCommand_frame] at hread
    obtain ⟨hid, hw⟩ := Prod.mk.inj (Option.some.inj hread)
    exact ⟨hid.symm, hw.symm⟩
  · rintro ⟨rfl, rfl⟩
    rfl

theorem heardCommand_emitted (conv : FloatCast) (cfg : NodeConfig) (acts : List ThreadedAction) :
    (acts.flatMap (busNode conv cfg).emit).map heardCommand =
      ((acts.filterMap (ThreadedAction.wireOf conv cfg)).filter Prod.snd).map
        fun p => some (cfg.canId, p.1) := by
  have hheard := congrArg (List.map (Option.bind · readCommand)) (heard_emitted conv cfg acts)
  have hsend : acts.filterMap (ThreadedAction.sendOf conv cfg) =
      (acts.filterMap (ThreadedAction.wireOf conv cfg)).map (writtenCommand cfg.canId) := by
    rw [List.map_filterMap]
    exact List.filterMap_congr fun a _ => a.sendOf_eq conv cfg
  rw [List.map_map, hsend, List.filter_map, List.map_map, List.map_map] at hheard
  refine hheard.trans (List.map_congr_left fun p _ => ?_)
  exact readCommand_frame cfg.canId p.1

/-- A motor reads the commands that its own node was given and could write, in order, and
no other node's; the rest still waits to be transmitted. -/
theorem network_wire {ι : Type*} [DecidableEq ι] (conv : FloatCast) (cfg : ι → NodeConfig)
    (hid : ∀ i j, (cfg i).canId = (cfg j).canId → i = j) (acts : List (BusAction ι))
    (n : BusState ι) (h : Runs.guardedRun (busStep conv cfg) busStart acts = some n) (i : ι) :
    ((n.bus.map Prod.snd).filter (addressedTo (cfg i).canId)).map heardCommand ++
        (n.outbox i).map heardCommand =
      (((Broadcast.ownActs i acts).filterMap (ThreadedAction.wireOf conv (cfg i))).filter
        Prod.snd).map fun p => some ((cfg i).canId, p.1) := by
  have hq := Broadcast.queued _ h
  have hbus : ∀ p ∈ n.bus, ∃ a, p.2 ∈ (busNode conv (cfg p.1)).emit a :=
    fun p hp => hq.emitted _ (.inr hp)
  obtain ⟨history, -, hacts, -⟩ := Broadcast.alone (deaf conv cfg) h i
  rw [filter_addressedTo conv cfg hid i n.bus hbus, ← List.map_append, hq i]
  exact heardCommand_emitted conv (cfg i) _

theorem network_wire_wheels :
    ∃ n, Runs.guardedRun (busStep .wrapping wheels) busStart wheelActs = some n ∧
      ((n.bus.map Prod.snd).filter (addressedTo (wheels 0).canId)).map heardCommand ++
          (n.outbox 0).map heardCommand =
        (((Broadcast.ownActs 0 wheelActs).filterMap
          (ThreadedAction.wireOf .wrapping (wheels 0))).filter Prod.snd).map
            fun p => some ((wheels 0).canId, p.1) :=
  ⟨_, rfl, network_wire .wrapping wheels (by decide) wheelActs _ rfl 0⟩

end AkV3Driver

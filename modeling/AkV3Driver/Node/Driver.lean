import AkV3Driver.CanSocket
import AkV3Driver.Lib.Runs
import AkV3Driver.Node.Config
import AkV3Driver.Protocol.Decoders

/-!
# The driver node

The node's handlers as functions on its state. The state also records what left the
node: the published messages, the frames handed to the socket with the outcome of
the write, and the service responses. A run is a list of events: iterations of the
receive thread, drain ticks, commands and service calls.
-/

namespace AkV3Driver
open Protocol

structure MotorCommand where
  mode : UInt8
  duty : ℚ := 0
  current : ℚ := 0
  velocity : ℚ := 0
  position : ℚ := 0
  acceleration : ℚ := 0
  mitVelocity : ℚ := 0
  mitTorque : ℚ := 0
  kp : ℚ := 0
  kd : ℚ := 0

inductive CommandMode
  | duty | current | currentBrake | velocity | position | positionVelocity | mit
deriving DecidableEq

def CommandMode.ofByte (mode : UInt8) : Option CommandMode :=
  if mode = 0 then some .duty
  else if mode = 1 then some .current
  else if mode = 2 then some .currentBrake
  else if mode = 3 then some .velocity
  else if mode = 4 then some .position
  else if mode = 6 then some .positionVelocity
  else if mode = 8 then some .mit
  else none

structure MotorState where
  jointName : String
  position : ℚ
  velocity : ℚ
  current : ℚ
  estimatedTorque : ℚ
  temperatureC : Int8
  errorCode : UInt8
  errorText : String
  extendedPositionValid : Bool
deriving DecidableEq

inductive DiagnosticLevel
  | ok | error
deriving DecidableEq

structure DiagnosticStatus where
  name : String
  hardwareId : String
  level : DiagnosticLevel
  message : String
deriving DecidableEq

structure ServiceResponse where
  success : Bool
  message : String
deriving DecidableEq

structure NodeState where
  statusQueue : List StatusFrame := []
  extPositionQueue : List ExtendedPositionFrame := []
  lastExtendedPositionDeg : Option ℚ := none
  states : List MotorState := []
  diagnostics : List DiagnosticStatus := []
  sent : List (CanFrame × Bool) := []
  responses : List ServiceResponse := []
deriving DecidableEq

section Commands
variable (conv : FloatCast) (cfg : NodeConfig)

def commandFrame (mode : CommandMode) (msg : MotorCommand) : CanFrame :=
  match mode with
  | .duty => packDuty conv cfg.canId (cfg.sign * msg.duty)
  | .current => packCurrent conv cfg.canId (cfg.sign * msg.current)
  -- A braking current is a magnitude: the direction is not applied.
  | .currentBrake => packCurrentBrake conv cfg.canId msg.current
  | .velocity => packVelocityErpm conv cfg.canId (cfg.radPerSecToErpm (cfg.sign * msg.velocity))
  | .position => packPositionDeg conv cfg.canId (radToDeg (cfg.sign * msg.position))
  | .positionVelocity =>
    packPositionVelocity conv cfg.canId (radToDeg (cfg.sign * msg.position))
      (cfg.radPerSecToErpm (cfg.sign * msg.velocity))
      (cfg.radPerSecToErpm (cfg.sign * msg.acceleration))
  | .mit =>
    packMit conv cfg.canId (cfg.sign * msg.position) (cfg.sign * msg.mitVelocity) msg.kp msg.kd
      (cfg.sign * msg.mitTorque) cfg.mitLimits

/-- What the MIT mode hands to the quantizer. -/
def mitInputs (msg : MotorCommand) : MitInputs where
  position := cfg.sign * msg.position
  velocity := cfg.sign * msg.mitVelocity
  kp := msg.kp
  kd := msg.kd
  torque := cfg.sign * msg.mitTorque

def mitCode (msg : MotorCommand) (f : MitField) : UInt32 :=
  floatToUint conv ((mitInputs cfg msg).get f) (f.min cfg.mitLimits) (f.max cfg.mitLimits) f.width

def onCommand (s : NodeState) (msg : MotorCommand) (sendOk : Bool) : NodeState :=
  match CommandMode.ofByte msg.mode with
  | none => s
  | some mode => { s with sent := s.sent ++ [(commandFrame conv cfg mode msg, sendOk)] }

end Commands

section Handlers
variable (cfg : NodeConfig)

def onSetOrigin (s : NodeState) (permanent sendOk : Bool) : NodeState :=
  { s with
    sent := s.sent ++ [(packSetOrigin cfg.canId permanent, sendOk)]
    responses := s.responses ++
      [⟨sendOk, if sendOk then "origin set command sent" else "CAN send failed"⟩] }

def onSetFeedbackConfig (s : NodeState) (addExtendedPositionFrame singleTurnMode sendOk : Bool) :
    NodeState :=
  let frame := packFeedbackConfig cfg.canId addExtendedPositionFrame singleTurnMode
  { s with
    sent := s.sent ++ [(frame, sendOk)]
    responses := s.responses ++
      [⟨sendOk, if sendOk then "feedback config command sent" else "CAN send failed"⟩]
    lastExtendedPositionDeg :=
      if addExtendedPositionFrame then s.lastExtendedPositionDeg else none }

def onDisable (s : NodeState) (sendOk : Bool) : NodeState :=
  { s with
    sent := s.sent ++ [(packDisable cfg.canId, sendOk)]
    responses := s.responses ++
      [⟨sendOk, if sendOk then "disable command sent" else "CAN send failed"⟩] }

/-- One iteration of the receive thread. -/
def rxThreadMain (s : NodeState) (read : SocketRead) : NodeState :=
  match CanSocket.receive {} read with
  | none => s
  | some frame =>
    match decodeStatusFrame frame cfg.canId with
    | some status => { s with statusQueue := s.statusQueue ++ [status] }
    | none =>
      match decodeExtendedPositionFrame frame cfg.canId with
      | some extPos => { s with extPositionQueue := s.extPositionQueue ++ [extPos] }
      | none => s

def motorState (last : Option ℚ) (status : StatusFrame) : MotorState :=
  let positionDeg := last.getD status.positionDeg
  let current := cfg.sign * status.currentA
  { jointName := cfg.jointName
    position := cfg.sign * degToRad positionDeg
    velocity := cfg.sign * cfg.erpmToRadPerSec status.speedErpm
    current := current
    estimatedTorque := current * cfg.motorSpec.torqueCoefficientNmPerA
    temperatureC := status.temperatureC
    errorCode := status.errorCode
    errorText := faultCodeToString status.errorCode
    extendedPositionValid := last.isSome }

def diagnosticStatus (status : StatusFrame) : DiagnosticStatus :=
  { name := cfg.jointName
    hardwareId := toString cfg.canId.toNat
    level := if status.errorCode = 0 then .ok else .error
    message := if status.errorCode = 0 then "no fault" else faultCodeToString status.errorCode }

def applyExtPositions (last : Option ℚ) (extPositions : List ExtendedPositionFrame) : Option ℚ :=
  extPositions.foldl (fun _ ext => some ext.positionDeg) last

def drainRxQueueAndPublish (s : NodeState) : NodeState :=
  let statuses := s.statusQueue
  let last := applyExtPositions s.lastExtendedPositionDeg s.extPositionQueue
  { s with
    statusQueue := []
    extPositionQueue := []
    lastExtendedPositionDeg := last
    states := s.states ++ statuses.map (motorState cfg last)
    diagnostics := s.diagnostics ++ statuses.map (diagnosticStatus cfg) }

end Handlers

inductive Event
  | rx (read : SocketRead)
  | drain
  | command (msg : MotorCommand) (sendOk : Bool)
  | setOrigin (permanent sendOk : Bool)
  | setFeedbackConfig (addExtendedPositionFrame singleTurnMode sendOk : Bool)
  | disable (sendOk : Bool)

section Run
variable (conv : FloatCast) (cfg : NodeConfig)

def step (s : NodeState) : Event → NodeState
  | .rx read => rxThreadMain cfg s read
  | .drain => drainRxQueueAndPublish cfg s
  | .command msg sendOk => onCommand conv cfg s msg sendOk
  | .setOrigin permanent sendOk => onSetOrigin cfg s permanent sendOk
  | .setFeedbackConfig addExt singleTurn sendOk =>
    onSetFeedbackConfig cfg s addExt singleTurn sendOk
  | .disable sendOk => onDisable cfg s sendOk

def run (s : NodeState) (es : List Event) : NodeState := Runs.run (step conv cfg) s es

end Run

section Feedback
variable (cfg : NodeConfig)

/-- What one read contributes to the node: a status, an extended position or nothing. -/
def feedbackOf (canId : UInt8) (read : SocketRead) : Option (StatusFrame ⊕ ExtendedPositionFrame) :=
  (CanSocket.receive {} read).bind fun frame =>
    match decodeStatusFrame frame canId with
    | some status => some (.inl status)
    | none => (decodeExtendedPositionFrame frame canId).map .inr

def push (s : NodeState) : StatusFrame ⊕ ExtendedPositionFrame → NodeState
  | .inl status => { s with statusQueue := s.statusQueue ++ [status] }
  | .inr extPos => { s with extPositionQueue := s.extPositionQueue ++ [extPos] }

theorem rxThreadMain_eq (s : NodeState) (read : SocketRead) :
    rxThreadMain cfg s read = ((feedbackOf cfg.canId read).map (push s)).getD s := by
  simp only [rxThreadMain, feedbackOf]
  cases CanSocket.receive {} read with
  | none => rfl
  | some frame =>
    cases hs : decodeStatusFrame frame cfg.canId with
    | some status => simp [hs, push]
    | none => cases he : decodeExtendedPositionFrame frame cfg.canId <;> simp [hs, he, push]

theorem feedbackOf_left (canId : UInt8) (read : SocketRead) :
    (feedbackOf canId read).bind Sum.getLeft? =
      (CanSocket.receive {} read).bind fun frame => decodeStatusFrame frame canId := by
  simp only [feedbackOf]
  cases CanSocket.receive {} read with
  | none => rfl
  | some frame =>
    cases hs : decodeStatusFrame frame canId with
    | some status => simp [hs]
    | none => cases hx : decodeExtendedPositionFrame frame canId <;> simp [hs, hx]

theorem feedbackOf_right (canId : UInt8) (read : SocketRead) :
    (feedbackOf canId read).bind Sum.getRight? =
      (CanSocket.receive {} read).bind fun frame => decodeExtendedPositionFrame frame canId := by
  simp only [feedbackOf]
  cases CanSocket.receive {} read with
  | none => rfl
  | some frame =>
    cases hs : decodeStatusFrame frame canId with
    | some status =>
      have hx : decodeExtendedPositionFrame frame canId = none :=
        decodeStatusFrame_ext_exclusive (Option.isSome_of_eq_some hs)
      simp [hs, hx]
    | none => cases hx : decodeExtendedPositionFrame frame canId <;> simp [hs, hx]

end Feedback

end AkV3Driver
